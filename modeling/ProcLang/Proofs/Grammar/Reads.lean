import ProcLang.Grammar.Parser
import ProcLang.Proofs.Grammar.Lexeme

/-! # What parsers read

Parsers look at the kinds and texts of tokens only, and one token ahead. A parser that takes a bound
on the tokens that remain is looked at as the family of its instances: `Reads` says what all
instances whose bound is large enough make of a list of lexemes, given the lexeme behind it.
-/

namespace ProcLang

set_option autoImplicit false

namespace Parser

variable {α β γ : Type}

/-- What a parser returns that ends at a cursor with a result or a fault. -/
def ending (cursor : Cursor) : Except ParseFault α → Except ParseError (α × Cursor)
  | .ok result => .ok (result, cursor)
  | .error fault => .error (cursor.error fault)

/-- The tokens in front are consumed, whatever their offsets are, and that is the outcome. -/
def Reads (p : Nat → Parser α) (lexemes : List Lexeme) (outcome : Except ParseFault α)
    (next : Option Lexeme) : Prop :=
  ∀ n tokens rest stop, tokens.map Token.lexeme = lexemes → rest.head?.map Token.lexeme = next →
    (tokens ++ rest).length ≤ n → p n ⟨tokens ++ rest, stop⟩ = ending ⟨rest, stop⟩ outcome

theorem bind_of_ok {first : Parser α} {next : α → Parser β} {cursor rest : Cursor} {a : α}
    (h : first cursor = .ok (a, rest)) : (first >>= next) cursor = next a rest := by
  change (first cursor >>= fun (a, rest) => next a rest) = _
  rw [h]
  rfl

theorem bind_of_error {first : Parser α} {next : α → Parser β} {cursor : Cursor}
    {error : ParseError} (h : first cursor = .error error) :
    (first >>= next) cursor = .error error := by
  change (first cursor >>= fun (a, rest) => next a rest) = _
  rw [h]
  rfl

theorem head?_append_map {tokens rest : List Token} {lexemes : List Lexeme} {next : Option Lexeme}
    (hTokens : tokens.map Token.lexeme = lexemes) (hNext : rest.head?.map Token.lexeme = next) :
    (tokens ++ rest).head?.map Token.lexeme = lexemes.head?.or next := by
  subst hTokens hNext
  cases tokens <;> rfl

section Rules

variable {p : Nat → Parser α} {q : α → Nat → Parser β} {u v : List Lexeme} {a : α}
  {outcome : Except ParseFault β} {next : Option Lexeme}

namespace Reads

/-- More room than the tokens need changes nothing. -/
theorem relax {room : Nat → Nat} {outcome : Except ParseFault α} (h : Reads p u outcome next)
    (hRoom : ∀ n, n ≤ room n) : Reads (fun n => p (room n)) u outcome next :=
  fun n tokens rest stop hTokens hNext hLength =>
    h (room n) tokens rest stop hTokens hNext (hLength.trans (hRoom n))

theorem shift {outcome : Except ParseFault α} (h : Reads p u outcome next) :
    Reads (fun n => p (n + 1)) u outcome next :=
  h.relax Nat.le_succ

theorem congr {p' : Nat → Parser α} {outcome : Except ParseFault α} (h : Reads p u outcome next)
    (hSame : ∀ n cursor, cursor.rest.length ≤ n → p' n cursor = p n cursor) :
    Reads p' u outcome next := by
  intro n tokens rest stop hTokens hNext hLength
  rw [hSame n _ hLength]
  exact h n tokens rest stop hTokens hNext hLength

theorem bind (hFirst : Reads p u (.ok a) (v.head?.or next)) (hNext : Reads (q a) v outcome next) :
    Reads (fun n => p n >>= fun a => q a n) (u ++ v) outcome next := by
  intro n tokens rest stop hTokens hRest hLength
  obtain ⟨front, back, rfl, hFront, hBack⟩ := List.map_eq_append_iff.mp hTokens
  rw [List.append_assoc] at hLength ⊢
  have hHead := head?_append_map hBack hRest
  refine (bind_of_ok (hFirst n front (back ++ rest) stop hFront hHead hLength)).trans ?_
  refine hNext n back rest stop hBack hRest ?_
  rw [List.length_append] at hLength
  omega

/-- What stands behind consumed tokens needs less room than all. -/
theorem bind_succ (hFirst : Reads p u (.ok a) (v.head?.or next)) (hConsumed : u ≠ [])
    (hNext : Reads (fun n => q a (n + 1)) v outcome next) :
    Reads (fun n => p n >>= fun a => q a n) (u ++ v) outcome next := by
  intro n tokens rest stop hTokens hRest hLength
  obtain ⟨front, back, rfl, hFront, hBack⟩ := List.map_eq_append_iff.mp hTokens
  rw [List.append_assoc] at hLength ⊢
  have hHead := head?_append_map hBack hRest
  refine (bind_of_ok (hFirst n front (back ++ rest) stop hFront hHead hLength)).trans ?_
  have hPositive : 0 < front.length := by
    rw [← hFront] at hConsumed
    exact List.length_pos_iff.mpr (by simpa using hConsumed)
  rw [List.length_append] at hLength
  obtain ⟨m, rfl⟩ : ∃ m, n = m + 1 := ⟨n - 1, by omega⟩
  exact hNext m back rest stop hBack hRest (by omega)

theorem bind_error {fault : ParseFault} (h : Reads p u (.error fault) next) :
    Reads (fun n => p n >>= fun a => q a n) u (.error fault) next :=
  fun n tokens rest stop hTokens hNext hLength =>
    bind_of_error (h n tokens rest stop hTokens hNext hLength)

end Reads

/-- A parser that consumes nothing. -/
theorem reads_of_nil {outcome : Except ParseFault α}
    (h : ∀ n rest stop, rest.head?.map Token.lexeme = next → rest.length ≤ n →
      p n ⟨rest, stop⟩ = ending ⟨rest, stop⟩ outcome) : Reads p [] outcome next := by
  intro n tokens rest stop hTokens hNext hLength
  obtain rfl := List.map_eq_nil_iff.mp hTokens
  exact h n rest stop hNext hLength

/-- A parser that consumes one token. -/
theorem reads_of_singleton {p : Parser α} {l : Lexeme}
    (h : ∀ token rest stop, token.lexeme = l → p ⟨token :: rest, stop⟩ = .ok (a, ⟨rest, stop⟩)) :
    Reads (fun _ => p) [l] (.ok a) next := by
  intro n tokens rest stop hTokens _ _
  obtain ⟨token, rfl, hToken⟩ := List.map_eq_singleton_iff.mp hTokens
  exact h token rest stop hToken

theorem reads_pure (a : α) : Reads (fun _ => pure a) [] (.ok a) next :=
  reads_of_nil fun _ _ _ _ _ => rfl

theorem Reads.bind_pure {f : α → β} (h : Reads p u (.ok a) next) :
    Reads (fun n => p n >>= fun a => pure (f a)) u (.ok (f a)) next := by
  rw [← List.append_nil u]
  refine Reads.bind ?_ (reads_pure (f a))
  exact h

theorem reads_fail (fault : ParseFault) :
    Reads (fun _ => (fail fault : Parser α)) [] (.error fault) next :=
  reads_of_nil fun _ _ _ _ _ => rfl

theorem reads_skip (l : Lexeme) : Reads (fun _ => skip) [l] (.ok ()) next :=
  reads_of_singleton fun _ _ _ _ => rfl

section OneToken

variable {rest : List Token} {stop : Nat} {text : String} {kind : TokenKind} {l : Lexeme}

theorem check_text :
    Cursor.check ⟨rest, stop⟩ (.text text) = (rest.head?.map Token.lexeme).any (·.text = text) := by
  cases rest <;> rfl

theorem check_kind :
    Cursor.check ⟨rest, stop⟩ (.kind kind) = (rest.head?.map Token.lexeme).any (·.kind = kind) := by
  cases rest <;> rfl

theorem check_text_of_ne (hNext : rest.head?.map Token.lexeme = next)
    (h : ∀ l ∈ next, l.text ≠ text) : Cursor.check ⟨rest, stop⟩ (.text text) = false := by
  rw [check_text, hNext, Option.any_eq_false]
  simpa using h

theorem check_kind_of_ne (hNext : rest.head?.map Token.lexeme = next)
    (h : ∀ l ∈ next, l.kind ≠ kind) : Cursor.check ⟨rest, stop⟩ (.kind kind) = false := by
  rw [check_kind, hNext, Option.any_eq_false]
  simpa using h

theorem reads_expect (h : l.text = text) : Reads (fun _ => expect text) [l] (.ok ()) next := by
  refine reads_of_singleton fun token rest stop hToken => ?_
  have hCheck : Cursor.check ⟨token :: rest, stop⟩ (.text text) = true := by
    simp [check_text, hToken, h]
  simp only [expect, Cursor.expect, Cursor.eat, hCheck]
  rfl

theorem reads_expect_error (h : ∀ l ∈ next, l.text ≠ text) :
    Reads (fun _ => expect text) []
      (.error (.expected (.text text) (next.map Lexeme.text))) next := by
  refine reads_of_nil fun n rest stop hNext _ => ?_
  have hCheck : Cursor.check ⟨rest, stop⟩ (.text text) = false := check_text_of_ne hNext h
  subst hNext
  simp only [expect, Cursor.expect, Cursor.eat, hCheck]
  cases rest <;> rfl

theorem reads_identifier (h : l.kind = .identifier) :
    Reads (fun _ => identifier) [l] (.ok l.text) next := by
  refine reads_of_singleton fun token rest stop hToken => ?_
  have hCheck : Cursor.check ⟨token :: rest, stop⟩ (.kind .identifier) = true := by
    simp [check_kind, hToken, h]
  subst hToken
  simp only [identifier, Cursor.expect, Cursor.eat, hCheck]
  rfl

theorem reads_identifier_error (h : ∀ l ∈ next, l.kind ≠ .identifier) :
    Reads (fun _ => identifier) []
      (.error (.expected (.kind .identifier) (next.map Lexeme.text))) next := by
  refine reads_of_nil fun n rest stop hNext _ => ?_
  have hCheck : Cursor.check ⟨rest, stop⟩ (.kind .identifier) = false := check_kind_of_ne hNext h
  subst hNext
  simp only [identifier, Cursor.expect, Cursor.eat, hCheck]
  cases rest <;> rfl

theorem reads_eat (h : l.text = text) : Reads (fun _ => eat text) [l] (.ok true) next := by
  refine reads_of_singleton fun token rest stop hToken => ?_
  have hCheck : Cursor.check ⟨token :: rest, stop⟩ (.text text) = true := by
    simp [check_text, hToken, h]
  simp only [eat, Cursor.eat, hCheck]
  rfl

theorem reads_eat_false (h : ∀ l ∈ next, l.text ≠ text) :
    Reads (fun _ => eat text) [] (.ok false) next := by
  refine reads_of_nil fun n rest stop hNext _ => ?_
  have hCheck : Cursor.check ⟨rest, stop⟩ (.text text) = false := check_text_of_ne hNext h
  simp only [eat, Cursor.eat, hCheck]
  rfl

end OneToken

end Rules

section Combinators

variable {item : Nat → Parser α} {u v : List Lexeme} {l : Lexeme} {text : String}
  {next : Option Lexeme}

theorem Reads.eat_then {here there : Nat → Parser α} {outcome : Except ParseFault α}
    (hText : l.text = text) (h : Reads (fun n => here (n + 1)) u outcome next) :
    Reads (fun n => do if ← eat text then here n else there n) (l :: u) outcome next :=
  Reads.bind_succ (q := fun found n => if found = true then here n else there n)
    (reads_eat hText) (by simp) h

theorem Reads.eat_else {here there : Nat → Parser α} {outcome : Except ParseFault α}
    (hText : ∀ l ∈ u.head?.or next, l.text ≠ text) (h : Reads there u outcome next) :
    Reads (fun n => do if ← eat text then here n else there n) u outcome next :=
  Reads.bind (q := fun found n => if found = true then here n else there n)
    (reads_eat_false hText) h

theorem reads_optional_none (hText : ∀ l ∈ next, l.text ≠ text) :
    Reads (fun n => optional text (item n)) [] (.ok none) next :=
  Reads.eat_else hText (reads_pure none)

theorem reads_optional_some {a : α} (hText : l.text = text) (hItem : Reads item u (.ok a) next) :
    Reads (fun n => optional text (item n)) (l :: u) (.ok (some a)) next := by
  exact Reads.eat_then hText hItem.bind_pure.shift

variable {found? : Cursor → Option γ} {sees : Option Lexeme → Option γ} {each : Nat → γ → Parser α}

theorem many_succ_of_found {cursor : Cursor} {item : γ → Parser α} {found : γ} {n : Nat}
    (h : found? cursor = some found) : many found? item (n + 1) cursor = (do
      let first ← item found
      let rest ← many found? item n
      return first :: rest) cursor := by
  refine (bind_of_ok (a := cursor) rfl).trans ?_
  simp only [h]

theorem many_succ_of_none {cursor : Cursor} {item : γ → Parser α} {n : Nat}
    (h : found? cursor = none) : many found? item (n + 1) cursor = .ok ([], cursor) := by
  refine (bind_of_ok (a := cursor) rfl).trans ?_
  simp only [h]
  rfl

section Many

variable (each) (hSees : ∀ cursor, found? cursor = sees (cursor.current.map Token.lexeme))

include hSees

theorem reads_many_nil (hNext : sees next = none) :
    Reads (fun n => many found? (each n) n) [] (.ok []) next := by
  refine reads_of_nil fun n rest stop hRest _ => ?_
  cases n with
  | zero => rfl
  | succ n =>
    have hFound : found? ⟨rest, stop⟩ = none := by
      rw [hSees, Cursor.current, hRest, hNext]
    exact many_succ_of_none hFound

theorem reads_many_cons {found : γ} {a : α} {outcome : Except ParseFault (List α)}
    (hHead : u.head? = some l) (hFound : sees (some l) = some found)
    (hItem : Reads (fun n => each n found) u (.ok a) (v.head?.or next))
    (hRest : Reads (fun n => many found? (each (n + 1)) n) v outcome next) :
    Reads (fun n => many found? (each n) n) (u ++ v) (outcome.map (a :: ·)) next := by
  intro n tokens rest stop hTokens hNext hLength
  have hCurrent := head?_append_map hTokens hNext
  obtain ⟨front, back, rfl, hFront, hBack⟩ := List.map_eq_append_iff.mp hTokens
  obtain ⟨token, front, rfl⟩ : ∃ token others, front = token :: others := by
    cases front with
    | nil => simp [← hFront] at hHead
    | cons token others => exact ⟨token, others, rfl⟩
  rw [List.append_assoc] at hLength ⊢
  have hShorter : (back ++ rest).length + front.length + 1 ≤ n := by
    simpa [Nat.add_comm, Nat.add_left_comm] using hLength
  obtain ⟨k, rfl⟩ : ∃ k, n = k + 1 := ⟨n - 1, by omega⟩
  have hCursor : found? ⟨token :: front ++ (back ++ rest), stop⟩ = some found := by
    rw [hSees, ← hFound, ← hHead, ← hFront]
    rfl
  have hRead := hItem (k + 1) _ _ stop hFront (head?_append_map hBack hNext) hLength
  refine (many_succ_of_found hCursor).trans ((bind_of_ok hRead).trans ?_)
  have hOthers := hRest k back rest stop hBack hNext (by omega)
  cases outcome with
  | ok as => exact bind_of_ok hOthers
  | error fault => exact bind_of_error hOthers

theorem reads_many_error {found : γ} {fault : ParseFault} (hHead : u.head?.or next = some l)
    (hFound : sees (some l) = some found)
    (hItem : Reads (fun n => each n found) u (.error fault) next) :
    Reads (fun n => many found? (each n) n) u (.error fault) next := by
  intro n tokens rest stop hTokens hNext hLength
  have hCurrent := head?_append_map hTokens hNext
  rw [hHead] at hCurrent
  obtain ⟨token, others, hSplit⟩ : ∃ token others, tokens ++ rest = token :: others := by
    cases hAll : tokens ++ rest with
    | nil => simp [hAll] at hCurrent
    | cons token others => exact ⟨token, others, rfl⟩
  have hCursor : found? ⟨tokens ++ rest, stop⟩ = some found := by
    rw [hSees, ← hFound, Cursor.current, hCurrent]
  obtain ⟨k, rfl⟩ : ∃ k, n = k + 1 := ⟨n - 1, by simp [hSplit] at hLength; omega⟩
  have hRead := hItem (k + 1) tokens rest stop hTokens hNext hLength
  exact (many_succ_of_found hCursor).trans (bind_of_error hRead)

theorem reads_many {spell : α → List Lexeme} {as : List α} (stops : Option Lexeme → Prop)
    (found : α → γ)
    (hHead : ∀ a ∈ as, ∃ l, (spell a).head? = some l ∧ sees (some l) = some (found a) ∧
      stops (some l))
    (hEach : ∀ a ∈ as, ∀ next, stops next → Reads (fun n => each n (found a)) (spell a) (.ok a) next)
    (hStops : stops next) (hNext : sees next = none) :
    Reads (fun n => many found? (each n) n) (as.flatMap spell) (.ok as) next := by
  induction as generalizing each with
  | nil => exact reads_many_nil each hSees hNext
  | cons a as ih =>
    obtain ⟨l, hFirst, hFound, -⟩ := hHead a List.mem_cons_self
    have hHeads := fun b hb => hHead b (List.mem_cons_of_mem a hb)
    have hOthers := ih (fun n => each (n + 1)) hHeads fun b hb next hNext =>
      (hEach b (List.mem_cons_of_mem a hb) next hNext).shift
    have hBehind : stops ((as.flatMap spell).head?.or next) := by
      cases as with
      | nil => exact hStops
      | cons b bs =>
        obtain ⟨l, hFirst, -, hStops⟩ := hHeads b List.mem_cons_self
        simpa [List.head?_append, hFirst] using hStops
    exact reads_many_cons each hSees hFirst hFound (hEach a List.mem_cons_self _ hBehind) hOthers

end Many

/-- What `manyAt` asks of the token ahead. -/
def seesText (text : String) (next : Option Lexeme) : Option Unit :=
  if next.any (·.text = text) then some () else none

theorem seesText_eq_none (hText : ∀ l ∈ next, l.text ≠ text) : seesText text next = none := by
  have hAny : next.any (·.text = text) = false := by
    rw [Option.any_eq_false]
    simpa using hText
  rw [seesText, hAny]
  rfl

theorem exists_of_seesText {found : Unit} (h : seesText text next = some found) :
    ∃ l, next = some l ∧ l.text = text := by
  unfold seesText at h
  split at h
  · rename_i hAny
    obtain ⟨l, hNext, hText⟩ := (Option.any_eq_true _ _).mp hAny
    exact ⟨l, hNext, of_decide_eq_true hText⟩
  · cases h

theorem sees_check (text : String) (cursor : Cursor) :
    (if cursor.check (.text text) then some () else none) =
      seesText text (cursor.current.map Token.lexeme) := by
  rw [seesText, check_text]
  rfl

theorem reads_manyAt {spell : α → List Lexeme} {as : List α} (stops : Option Lexeme → Prop)
    (hText : l.text = text) (hSeparator : stops (some l))
    (hItem : ∀ a ∈ as, ∀ next, stops next → Reads item (spell a) (.ok a) next)
    (hStops : stops next) (hNext : ∀ l ∈ next, l.text ≠ text) :
    Reads (fun n => manyAt text (item n) n) (as.flatMap fun a => l :: spell a) (.ok as) next := by
  refine reads_many (fun n _ => (do skip; item n)) (sees_check text) stops (fun _ => ()) ?_ ?_
    hStops ?_
  · intro a _
    exact ⟨l, rfl, by simp [seesText, hText], hSeparator⟩
  · intro a ha next hNext
    exact Reads.bind_succ (reads_skip l) (by simp) (hItem a ha next hNext).shift
  · exact seesText_eq_none hNext

theorem reads_commaSeparated {spell : α → List Lexeme} {a : α} {as : List α}
    (stops : Option Lexeme → Prop) (hText : l.text = ",") (hSeparator : stops (some l))
    (hItem : ∀ b ∈ a :: as, ∀ next, stops next → Reads item (spell b) (.ok b) next)
    (hStops : stops next) (hNext : ∀ l ∈ next, l.text ≠ ",") :
    Reads (fun n => commaSeparated (item n) n) (spell a ++ as.flatMap fun b => l :: spell b)
      (.ok (a :: as)) next := by
  have hFirst : stops ((as.flatMap fun b => l :: spell b).head?.or next) := by
    cases as with
    | nil => exact hStops
    | cons b bs => exact hSeparator
  have hOthers := reads_manyAt stops hText hSeparator
    (fun b hb => hItem b (List.mem_cons_of_mem a hb)) hStops hNext
  exact Reads.bind (hItem a List.mem_cons_self _ hFirst) hOthers.bind_pure

end Combinators

end Parser

end ProcLang
