import ProcLang.Proofs.Grammar.Productions

/-! # Predictive parsers

A predictive parser decides by one lexeme ahead. It either reads lexemes or rejects the next one; if
it rejects it, other lexemes could have been there, with which it would have read all. Behind what
it reads `stops` tells the lexemes that it leaves to others, and `first` the lexemes with which the
others it could have read begin.
-/

namespace ProcLang.Parser

set_option autoImplicit false

variable {α β γ : Type}

/-- The consumed lexemes can be completed to what the parser reads. If there are none, the
completion begins as `first` says. -/
structure Completes (p : Nat → Parser α) (first stops : Option Lexeme → Prop) (u v : List Lexeme)
    (a : α) : Prop where
  reads : ∀ next, stops next → Reads p (u ++ v) (.ok a) next
  first : u = [] → ∀ next, stops next → first (v.head?.or next)

inductive Decided (p : Nat → Parser α) (first stops : Option Lexeme → Prop)
    (lexemes : List Lexeme) : Prop where
  /-- The parser reads some lexemes, also if lexemes come next that it leaves to others. -/
  | reads (u rest : List Lexeme) (a : α) (split : lexemes = u ++ rest)
    (here : Reads p u (.ok a) rest.head?) (completes : Completes p first stops u [] a)
  /-- The parser rejects the next lexeme, but what it consumed can be completed. -/
  | rejects (u rest : List Lexeme) (fault : ParseFault) (v : List Lexeme) (a : α)
    (split : lexemes = u ++ rest) (here : Reads p u (.error fault) rest.head?)
    (completes : Completes p first stops u v a)

/-- Parsers that decide all lists of less than `n` lexemes. -/
structure Predictive (n : Nat) (p : Nat → Parser α) (first stops : Option Lexeme → Prop) : Prop where
  completes : ∃ v a, Completes p first stops [] v a
  decided : ∀ lexemes, lexemes.length < n → Decided p first stops lexemes

/-- Nothing is left to others but one lexeme. -/
def Ahead (l : Lexeme) (next : Option Lexeme) : Prop :=
  next = some l

def Anything (_ : Option Lexeme) : Prop :=
  True

theorem ne_of_ahead {l : Lexeme} {text : String} (h : l.text ≠ text) :
    ∀ next, Ahead l next → ∀ found ∈ next, found.text ≠ text := by
  rintro _ rfl found ⟨⟩
  exact h

section Rules

variable {p : Nat → Parser α} {q : α → Nat → Parser β} {first middle stops : Option Lexeme → Prop}
  {u v lexemes : List Lexeme} {a : α} {n : Nat}

theorem Completes.weaken {first' stops' : Option Lexeme → Prop} (h : Completes p first stops u v a)
    (hFirst : ∀ next, first next → first' next) (hStops : ∀ next, stops' next → stops next) :
    Completes p first' stops' u v a where
  reads next hNext := h.reads next (hStops next hNext)
  first hNil next hNext := hFirst _ (h.first hNil next (hStops next hNext))

theorem Decided.weaken {first' stops' : Option Lexeme → Prop} (h : Decided p first stops lexemes)
    (hFirst : ∀ next, first next → first' next) (hStops : ∀ next, stops' next → stops next) :
    Decided p first' stops' lexemes := by
  cases h with
  | reads u rest a hSplit hHere hCompletes =>
    exact .reads u rest a hSplit hHere (hCompletes.weaken hFirst hStops)
  | rejects u rest fault v a hSplit hHere hCompletes =>
    exact .rejects u rest fault v a hSplit hHere (hCompletes.weaken hFirst hStops)

namespace Predictive

theorem weaken {first' stops' : Option Lexeme → Prop} (h : Predictive n p first stops)
    (hFirst : ∀ next, first next → first' next) (hStops : ∀ next, stops' next → stops next) :
    Predictive n p first' stops' where
  completes := by
    obtain ⟨v, a, hCompletes⟩ := h.completes
    exact ⟨v, a, hCompletes.weaken hFirst hStops⟩
  decided lexemes hLength := (h.decided lexemes hLength).weaken hFirst hStops

/-- A parser that leaves nothing to others can stand anywhere behind what is consumed. -/
theorem closed (h : Predictive n p first Anything) : Predictive n p Anything stops :=
  h.weaken (fun _ _ => trivial) fun _ _ => trivial

theorem mono {m : Nat} (h : Predictive n p first stops) (hLess : m ≤ n) :
    Predictive m p first stops :=
  ⟨h.completes, fun lexemes hLength => h.decided lexemes (hLength.trans_le hLess)⟩

end Predictive

theorem Completes.map {p' : Nat → Parser β} {b : β} (h : Completes p first stops u v a)
    (hReads : ∀ us next, Reads p us (.ok a) next → Reads p' us (.ok b) next) :
    Completes p' first stops u v b where
  reads next hNext := hReads _ next (h.reads next hNext)
  first := h.first

theorem Decided.map {p' : Nat → Parser α} (h : Decided p first stops lexemes)
    (hReads : ∀ us outcome next, Reads p us outcome next → Reads p' us outcome next) :
    Decided p' first stops lexemes := by
  cases h with
  | reads u rest a hSplit hHere hCompletes =>
    exact .reads u rest a hSplit (hReads _ _ _ hHere) (hCompletes.map fun us => hReads us _)
  | rejects u rest fault v a hSplit hHere hCompletes =>
    exact .rejects u rest fault v a hSplit (hReads _ _ _ hHere) (hCompletes.map fun us => hReads us _)

theorem Predictive.map {p' : Nat → Parser α} (h : Predictive n p first stops)
    (hReads : ∀ us outcome next, Reads p us outcome next → Reads p' us outcome next) :
    Predictive n p' first stops where
  completes := by
    obtain ⟨v, a, hCompletes⟩ := h.completes
    exact ⟨v, a, hCompletes.map fun us => hReads us _⟩
  decided lexemes hLength := (h.decided lexemes hLength).map hReads

theorem Predictive.shift (h : Predictive n p first stops) :
    Predictive n (fun n => p (n + 1)) first stops :=
  h.map fun _ _ _ => Reads.shift

/-- One parser is two others in turn, where the second may have less room. -/
structure Sequence (p : Nat → Parser α) (q : α → Nat → Parser β) (r : Nat → Parser β)
    (first middle : Option Lexeme → Prop) : Prop where
  reject : ∀ {u fault next}, Reads p u (.error fault) next → Reads r u (.error fault) next
  join : ∀ {u v a w outcome next}, Completes p first middle u v a →
    Reads p (u ++ v) (.ok a) (w.head?.or next) → Reads (q a) w outcome next →
    Reads r (u ++ v ++ w) outcome next

namespace Sequence

variable {r : Nat → Parser β} {w rest : List Lexeme} {b : β} (hSequence : Sequence p q r first middle)

include hSequence

theorem completes (hFirst : Completes p first middle u v a)
    (hNext : Completes (q a) middle stops [] w b) : Completes r first stops u (v ++ w) b where
  reads next hStops := by
    rw [← List.append_assoc]
    exact hSequence.join hFirst (hFirst.reads _ (hNext.first rfl next hStops))
      (hNext.reads next hStops)
  first hNil next hStops := by
    rw [List.head?_append, Option.or_assoc]
    exact hFirst.first hNil _ (hNext.first rfl next hStops)

theorem joined {outcome : Except ParseFault β} {next : Option Lexeme}
    (hFirst : Completes p first middle u [] a) (hHere : Reads p u (.ok a) (w.head?.or next))
    (hNext : Reads (q a) w outcome next) : Reads r (u ++ w) outcome next := by
  have hJoin := hSequence.join hFirst (by rwa [List.append_nil]) hNext
  rwa [List.append_nil] at hJoin

/-- The first parser has read what it reads, and the second goes on. -/
theorem completes_of_reads (hHere : Reads p u (.ok a) (w ++ rest).head?)
    (hFirst : Completes p first middle u [] a) (hNext : Completes (q a) middle stops w v b) :
    Completes r first stops (u ++ w) v b where
  reads next hStops := by
    rw [List.append_assoc]
    refine hSequence.joined hFirst ?_ (hNext.reads next hStops)
    -- If the second parser consumed nothing, another lexeme than the one that was there is ahead.
    cases w with
    | nil =>
      have hRead := hFirst.reads _ (hNext.first rfl next hStops)
      rwa [List.append_nil] at hRead
    | cons l w => exact hHere
  first hNil next hStops := by
    obtain ⟨rfl, rfl⟩ := List.append_eq_nil_iff.mp hNil
    exact hFirst.first rfl _ (hNext.first rfl next hStops)

theorem decided_of_reads (hHere : Reads p u (.ok a) rest.head?)
    (hFirst : Completes p first middle u [] a) (hNext : Decided (q a) middle stops rest) :
    Decided r first stops (u ++ rest) := by
  cases hNext with
  | reads w rest' b hSplit hHere' hCompletes =>
    subst hSplit
    refine .reads (u ++ w) rest' b (List.append_assoc ..).symm ?_
      (hSequence.completes_of_reads hHere hFirst hCompletes)
    exact hSequence.joined hFirst (by rwa [List.head?_append] at hHere) hHere'
  | rejects w rest' fault v b hSplit hHere' hCompletes =>
    subst hSplit
    refine .rejects (u ++ w) rest' fault v b (List.append_assoc ..).symm ?_
      (hSequence.completes_of_reads hHere hFirst hCompletes)
    exact hSequence.joined hFirst (by rwa [List.head?_append] at hHere) hHere'

theorem decided (hFirst : Decided p first middle lexemes)
    (hSome : ∀ a, ∃ v b, Completes (q a) middle stops [] v b)
    (hNext : ∀ u rest a, lexemes = u ++ rest → Completes p first middle u [] a →
      Decided (q a) middle stops rest) :
    Decided r first stops lexemes := by
  cases hFirst with
  | rejects u rest fault v a hSplit hHere hCompletes =>
    -- What the first parser needs is completed by what the second could read at all.
    obtain ⟨w, b, hRest⟩ := hSome a
    exact .rejects u rest fault (v ++ w) b hSplit (hSequence.reject hHere)
      (hSequence.completes hCompletes hRest)
  | reads u rest a hSplit hHere hCompletes =>
    rw [hSplit]
    exact hSequence.decided_of_reads hHere hCompletes (hNext u rest a hSplit hCompletes)

theorem predictive {m : Nat} (hFirst : Predictive n p first middle)
    (hNext : ∀ a, Predictive m (q a) middle stops)
    (hShorter : ∀ u rest a, (u ++ rest).length < n → Completes p first middle u [] a →
      rest.length < m) :
    Predictive n r first stops where
  completes := by
    obtain ⟨v, a, hCompletes⟩ := hFirst.completes
    obtain ⟨w, b, hRest⟩ := (hNext a).completes
    exact ⟨v ++ w, b, hSequence.completes hCompletes hRest⟩
  decided lexemes hLength := by
    refine hSequence.decided (hFirst.decided lexemes hLength) (fun a => (hNext a).completes) ?_
    rintro u rest a rfl hCompletes
    exact (hNext a).decided rest (hShorter u rest a hLength hCompletes)

end Sequence

theorem sequence_bind :
    Sequence p q (fun n => p n >>= fun a => q a n) first middle where
  reject := Reads.bind_error
  join _ := Reads.bind

theorem Predictive.bind (hFirst : Predictive n p first middle)
    (hNext : ∀ a, Predictive n (q a) middle stops) :
    Predictive n (fun n => p n >>= fun a => q a n) first stops := by
  refine sequence_bind.predictive hFirst hNext fun u rest a hLength _ => ?_
  rw [List.length_append] at hLength
  omega

theorem predictive_pure {b : β} : Predictive n (fun _ => (pure b : Parser β)) stops stops where
  completes := ⟨[], b, fun _ _ => reads_pure b, fun _ _ hNext => hNext⟩
  decided lexemes _ :=
    .reads [] lexemes b rfl (reads_pure b) ⟨fun _ _ => reads_pure b, fun _ _ hNext => hNext⟩

/-- What leaves nothing to others can be followed by anything. -/
theorem Predictive.bind_closed (middle : Option Lexeme → Prop)
    (hFirst : Predictive n p first Anything)
    (hNext : ∀ a, Predictive n (q a) middle stops) :
    Predictive n (fun n => p n >>= fun a => q a n) first stops :=
  (hFirst.weaken (fun _ => id) fun _ _ => trivial).bind hNext

theorem Predictive.bind_pure {f : α → β} (h : Predictive n p first stops) :
    Predictive n (fun n => p n >>= fun a => pure (f a)) first stops := by
  exact h.bind fun a => predictive_pure

/-- Something must be consumed before lexemes that can be left to others. -/
def Consuming (first stops : Option Lexeme → Prop) : Prop :=
  ∃ next, stops next ∧ ¬first next

theorem Completes.ne_nil (h : Completes p first stops u v a) (hConsuming : Consuming first stops) :
    u ++ v ≠ [] := by
  obtain ⟨next, hStops, hFirst⟩ := hConsuming
  intro hNil
  obtain ⟨rfl, rfl⟩ := List.append_eq_nil_iff.mp hNil
  exact hFirst (h.first rfl next hStops)

theorem sequence_bind_succ (hConsuming : Consuming first middle) :
    Sequence p (fun a n => q a (n + 1)) (fun n => p n >>= fun a => q a n) first middle where
  reject := Reads.bind_error
  join hCompletes hFirst := Reads.bind_succ hFirst (hCompletes.ne_nil hConsuming)

theorem Predictive.bind_succ (hConsuming : Consuming first middle)
    (hFirst : Predictive n p first middle)
    (hNext : ∀ a, Predictive (n - 1) (fun n => q a (n + 1)) middle stops) :
    Predictive n (fun n => p n >>= fun a => q a n) first stops := by
  refine (sequence_bind_succ hConsuming).predictive hFirst hNext fun u rest a hLength hCompletes => ?_
  have hSome := List.length_pos_iff.mpr (hCompletes.ne_nil hConsuming)
  rw [List.append_nil] at hSome
  rw [List.length_append] at hLength
  omega

/-- What a parser rejects at once it has not consumed anything of. -/
theorem Decided.reject (fault : ParseFault) (hSome : ∃ v a, Completes p first stops [] v a)
    (hHere : Reads p [] (.error fault) lexemes.head?) : Decided p first stops lexemes := by
  obtain ⟨v, a, hCompletes⟩ := hSome
  exact .rejects [] lexemes fault v a rfl hHere hCompletes

/-- A lexeme that is read whatever comes next. -/
theorem Decided.read_one {l : Lexeme} {rest : List Lexeme}
    (hRead : ∀ next, Reads p [l] (.ok a) next) : Decided p first stops (l :: rest) :=
  .reads [l] rest a rfl (hRead _) ⟨fun next _ => hRead next, nofun⟩

/-- A parser that needs one token of some kind. -/
theorem predictive_of_token {p : Parser α} {found : Lexeme → α} (accepts : Lexeme → Prop)
    (l : Lexeme) (hAccepts : accepts l)
    (hFound : ∀ l next, accepts l → Reads (fun _ => p) [l] (.ok (found l)) next)
    (hOther : ∀ next : Option Lexeme, (∀ l ∈ next, ¬accepts l) →
      ∃ fault, Reads (fun _ => p) [] (.error fault) next) :
    Predictive n (fun _ => p) (Ahead l) Anything := by
  have hSome : Completes (fun _ => p) (Ahead l) Anything [] [l] (found l) :=
    ⟨fun next _ => hFound l next hAccepts, fun _ _ _ => rfl⟩
  refine ⟨⟨[l], found l, hSome⟩, fun lexemes _ => ?_⟩
  by_cases hHead : ∃ first ∈ lexemes.head?, accepts first
  · obtain ⟨first, hHead, hFirst⟩ := hHead
    obtain ⟨rest, rfl⟩ := List.head?_eq_some_iff.mp hHead
    exact .read_one fun next => hFound first next hFirst
  · obtain ⟨fault, hReject⟩ := hOther lexemes.head? (by simpa using hHead)
    exact .reject fault ⟨[l], found l, hSome⟩ hReject

theorem predictive_expect (text : String) :
    Predictive n (fun _ => expect text) (Ahead (.fixed text)) Anything :=
  predictive_of_token (·.text = text) (.fixed text) rfl (fun _ _ => reads_expect)
    fun _ hNext => ⟨_, reads_expect_error hNext⟩

theorem predictive_identifier (name : String) :
    Predictive n (fun _ => identifier) (Ahead (.name name)) Anything :=
  predictive_of_token (·.kind = .identifier) (.name name) rfl (fun _ _ => reads_identifier)
    fun _ hNext => ⟨_, reads_identifier_error hNext⟩

/-- Behind a lexeme that is read anyway. -/
theorem Decided.cons {p' : Nat → Parser α} {first' : Option Lexeme → Prop} {l : Lexeme}
    (h : Decided p first stops lexemes)
    (hCons : ∀ us outcome next, Reads p us outcome next → Reads p' (l :: us) outcome next) :
    Decided p' first' stops (l :: lexemes) := by
  cases h with
  | reads u rest a hSplit hHere hCompletes =>
    refine .reads (l :: u) rest a (by rw [hSplit]; rfl) (hCons _ _ _ hHere) ?_
    exact ⟨fun next hNext => hCons _ _ _ (hCompletes.reads next hNext), nofun⟩
  | rejects u rest fault v a hSplit hHere hCompletes =>
    refine .rejects (l :: u) rest fault v a (by rw [hSplit]; rfl) (hCons _ _ _ hHere) ?_
    exact ⟨fun next hNext => hCons _ _ _ (hCompletes.reads next hNext), nofun⟩

section EatElse

variable {here there : Nat → Parser α} {text : String}

theorem Completes.eat_else (hFirst : ∀ next, first next → ∀ l ∈ next, l.text ≠ text)
    (h : Completes there first stops u v a) (hHead : ∀ l ∈ u.head?, l.text ≠ text) :
    Completes (fun n => do if ← eat text then here n else there n) first stops u v a where
  reads next hNext := by
    refine Reads.eat_else ?_ (h.reads next hNext)
    cases u with
    | nil => exact hFirst _ (h.first rfl next hNext)
    | cons l u => exact hHead
  first := h.first

theorem Decided.eat_else (hFirst : ∀ next, first next → ∀ l ∈ next, l.text ≠ text)
    (hHere : ∀ l rest, lexemes = l :: rest → Decided (fun n => here (n + 1)) Anything stops rest)
    (hThere : Decided there first stops lexemes) :
    Decided (fun n => do if ← eat text then here n else there n) first stops lexemes := by
  by_cases hHead : ∃ l ∈ lexemes.head?, l.text = text
  · obtain ⟨l, hHead, hText⟩ := hHead
    obtain ⟨rest, rfl⟩ := List.head?_eq_some_iff.mp hHead
    exact (hHere l rest rfl).cons fun _ _ _ => Reads.eat_then hText
  · have hOther : ∀ l ∈ lexemes.head?, l.text ≠ text := by simpa using hHead
    have hConsumed : ∀ u rest, lexemes = u ++ rest → ∀ l ∈ u.head?, l.text ≠ text := by
      rintro (_ | ⟨l, u⟩) rest rfl
      · simp
      · exact hOther
    have hAhead : ∀ u rest, lexemes = u ++ rest → ∀ l ∈ u.head?.or rest.head?, l.text ≠ text := by
      rintro u rest rfl
      rwa [List.head?_append] at hOther
    cases hThere with
    | reads u rest a hSplit hRead hCompletes =>
      exact .reads u rest a hSplit (Reads.eat_else (hAhead u rest hSplit) hRead)
        (hCompletes.eat_else hFirst (hConsumed u rest hSplit))
    | rejects u rest fault v a hSplit hRead hCompletes =>
      exact .rejects u rest fault v a hSplit (Reads.eat_else (hAhead u rest hSplit) hRead)
        (hCompletes.eat_else hFirst (hConsumed u rest hSplit))

theorem Predictive.eat_else (hFirst : ∀ next, first next → ∀ l ∈ next, l.text ≠ text)
    (hHere : Predictive (n - 1) (fun n => here (n + 1)) Anything stops)
    (hThere : Predictive n there first stops) :
    Predictive n (fun n => do if ← eat text then here n else there n) first stops where
  completes := by
    obtain ⟨v, a, hCompletes⟩ := hThere.completes
    exact ⟨v, a, hCompletes.eat_else hFirst (by simp)⟩
  decided lexemes hLength := by
    have hBehind : ∀ l rest, lexemes = l :: rest →
        Decided (fun n => here (n + 1)) Anything stops rest := by
      rintro l rest rfl
      exact hHere.decided rest (Nat.lt_sub_of_add_lt hLength)
    exact Decided.eat_else hFirst hBehind (hThere.decided lexemes hLength)

theorem predictive_optional (hFirst : ∀ next, stops next → ∀ l ∈ next, l.text ≠ text)
    (h : Predictive (n - 1) p first stops) :
    Predictive n (fun n => optional text (p n)) stops stops :=
  Predictive.eat_else hFirst (h.shift.bind_pure.weaken (fun _ _ => trivial) fun _ => id)
    predictive_pure

end EatElse

section Many

variable {found? : Cursor → Option γ} {sees : Option Lexeme → Option γ} {each : Nat → γ → Parser α}

theorem Decided.relax {room : Nat → Nat} (hRoom : ∀ n, n ≤ room n)
    (h : Decided p first stops lexemes) : Decided (fun n => p (room n)) first stops lexemes :=
  h.map fun _ _ _ hRead => hRead.relax hRoom

variable (hSees : ∀ cursor, found? cursor = sees (cursor.current.map Token.lexeme))

include hSees

section Cons

variable {l : Lexeme} {found : γ} {w rest : List Lexeme} {as : List α}
  (hHead : u.head? = some l) (hFound : sees (some l) = some found)

include hHead hFound

/-- One item was read, and others are read or completed behind it. -/
theorem Completes.many_cons (hHere : Reads (fun n => each n found) u (.ok a) (w ++ rest).head?)
    (hItem : Completes (fun n => each n found) first stops u [] a)
    (hOthers : Completes (fun n => many found? (each (n + 1)) n) stops stops w v as) :
    Completes (fun n => many found? (each n) n) stops stops (u ++ w) v (a :: as) where
  reads next hNext := by
    rw [List.append_assoc]
    refine reads_many_cons each hSees hHead hFound ?_ (hOthers.reads next hNext)
    cases w with
    | nil =>
      have hRead := hItem.reads _ (hOthers.first rfl next hNext)
      rwa [List.append_nil] at hRead
    | cons l w => exact hHere
  first hNil := by
    cases u with
    | nil => cases hHead
    | cons l u => cases hNil

/-- One item is completed, and none is read behind it. -/
theorem Completes.many_singleton (hStops : ∀ next, stops next → sees next = none)
    (hItem : Completes (fun n => each n found) first stops u v a) :
    Completes (fun n => many found? (each n) n) stops stops u v [a] where
  reads next hNext := by
    have hHead' : (u ++ v).head? = some l := by rw [List.head?_append, hHead, Option.some_or]
    have hNone := reads_many_nil (fun n => each (n + 1)) hSees (hStops next hNext)
    have hRead := reads_many_cons each hSees hHead' hFound (hItem.reads next hNext) hNone
    rwa [List.append_nil] at hRead
  first hNil := by
    cases u with
    | nil => cases hHead
    | cons l u => cases hNil

/-- One item was read, and the others are decided behind it. -/
theorem Decided.many_cons (hHere : Reads (fun n => each n found) u (.ok a) rest.head?)
    (hItem : Completes (fun n => each n found) first stops u [] a)
    (hOthers : Decided (fun n => many found? (each (n + 1)) n) stops stops rest) :
    Decided (fun n => many found? (each n) n) stops stops (u ++ rest) := by
  cases hOthers with
  | reads w rest' as hSplit hHere' hCompletes =>
    subst hSplit
    refine .reads (u ++ w) rest' (a :: as) (List.append_assoc ..).symm ?_
      (hItem.many_cons hSees hHead hFound hHere hCompletes)
    rw [List.head?_append] at hHere
    exact reads_many_cons each hSees hHead hFound hHere hHere'
  | rejects w rest' fault v as hSplit hHere' hCompletes =>
    subst hSplit
    refine .rejects (u ++ w) rest' fault v (a :: as) (List.append_assoc ..).symm ?_
      (hItem.many_cons hSees hHead hFound hHere hCompletes)
    rw [List.head?_append] at hHere
    exact reads_many_cons each hSees hHead hFound hHere hHere'

end Cons

variable (hNone : sees none = none) (hStops : ∀ next, stops next → sees next = none)

theorem completes_many_nil (hStops : ∀ next, stops next → sees next = none) :
    Completes (fun n => many found? (each n) n) stops stops [] [] [] where
  reads next hNext := reads_many_nil each hSees (hStops next hNext)
  first _ _ hNext := hNext

include hStops

/-- The first item was rejected. If nothing of it was consumed, the items can end before it. -/
theorem Decided.many_of_rejects {l : Lexeme} {found : γ} {rest : List Lexeme} {fault : ParseFault}
    (hFound : sees (some l) = some found) (hAhead : u.head?.or rest.head? = some l)
    (hHere : Reads (fun n => each n found) u (.error fault) rest.head?)
    (hItem : Completes (fun n => each n found) first stops u v a) :
    Decided (fun n => many found? (each n) n) stops stops (u ++ rest) := by
  have hReject := reads_many_error each hSees hAhead hFound hHere
  cases u with
  | nil => exact .rejects [] rest fault [] [] rfl hReject (completes_many_nil hSees hStops)
  | cons head u =>
    exact .rejects (head :: u) rest fault v [a] rfl hReject
      (hItem.many_singleton hSees hAhead hFound hStops)

include hNone

/-- The induction is on the lexemes; the items behind the first have more room than they need. -/
theorem decided_many (hConsuming : Consuming first stops)
    (hItem : ∀ found l rest, (l :: rest).length < n → sees (some l) = some found →
      Decided (fun n => each n found) first stops (l :: rest))
    (room : Nat → Nat) (hRoom : ∀ n, n ≤ room n) (hLength : lexemes.length < n) :
    Decided (fun n => many found? (each (room n)) n) stops stops lexemes := by
  induction hSize : lexemes.length using Nat.strongRecOn generalizing lexemes room with
  | ind size ih =>
    cases hFound : sees lexemes.head? with
    | none =>
      exact .reads [] lexemes [] rfl (reads_many_nil (fun n => each (room n)) hSees hFound)
        (completes_many_nil hSees hStops)
    | some found =>
      obtain ⟨l, hAhead⟩ : ∃ l, lexemes.head? = some l := by
        refine Option.ne_none_iff_exists'.mp fun hNil => ?_
        rw [hNil, hNone] at hFound
        cases hFound
      obtain ⟨others, rfl⟩ := List.head?_eq_some_iff.mp hAhead
      cases (hItem found l others hLength hFound).relax hRoom with
      | rejects u rest fault v a hSplit hHere hCompletes =>
        rw [hSplit, List.head?_append] at hAhead
        rw [hSplit]
        exact .many_of_rejects hSees hStops hFound hAhead hHere hCompletes
      | reads u rest a hSplit hHere hCompletes =>
        have hSome := hCompletes.ne_nil hConsuming
        rw [List.append_nil] at hSome
        obtain ⟨head, u, rfl⟩ := List.exists_cons_of_ne_nil hSome
        obtain ⟨rfl, hOthers⟩ : l = head ∧ others = u ++ rest := List.cons.inj hSplit
        subst hOthers
        rw [List.length_cons, List.length_append] at hSize hLength
        refine Decided.many_cons hSees rfl hFound hHere hCompletes ?_
        exact ih rest.length (by omega) (fun n => room (n + 1))
          (fun n => (Nat.le_succ n).trans (hRoom (n + 1))) (by omega) rfl

theorem predictive_many (hConsuming : Consuming first stops)
    (hItem : ∀ found l rest, (l :: rest).length < n → sees (some l) = some found →
      Decided (fun n => each n found) first stops (l :: rest)) :
    Predictive n (fun n => many found? (each n) n) stops stops where
  completes := ⟨[], [], completes_many_nil hSees hStops⟩
  decided _ hLength :=
    decided_many hSees hNone hStops hConsuming hItem id (fun _ => le_rfl) hLength

end Many

theorem predictive_manyAt {text : String}
    (hStops : ∀ next, stops next → ∀ l ∈ next, l.text ≠ text) (hSome : ∃ next, stops next)
    (hItem : Predictive (n - 1) p first stops) :
    Predictive n (fun n => manyAt text (p n) n) stops stops := by
  have hConsuming : Consuming (fun _ => False) stops :=
    hSome.imp fun next hNext => ⟨hNext, id⟩
  refine predictive_many (sees_check text) rfl (fun next hNext => seesText_eq_none (hStops next hNext))
    hConsuming fun found l rest hLength _ => ?_
  have hRest := hItem.decided rest (Nat.lt_sub_of_add_lt hLength)
  exact hRest.cons fun us outcome next hRead => Reads.bind_succ (reads_skip l) (by simp) hRead.shift

theorem predictive_commaSeparated (hStops : ∀ next, stops next → ∀ l ∈ next, l.text ≠ ",")
    (hSome : ∃ next, stops next) (hItem : Predictive n p first stops) :
    Predictive n (fun n => commaSeparated (p n) n) first stops :=
  hItem.bind fun _ => (predictive_manyAt hStops hSome (hItem.mono (Nat.sub_le n 1))).bind_pure

end Rules

end ProcLang.Parser
