import ProcLang.Proofs.Grammar.Ebnf
import ProcLang.Proofs.Grammar.Productions
import ProcLang.Proofs.Grammar.Yields

/-! # What parsers consume

A condition on the lexemes that a parser moves past and on what it makes of them. It holds of a
composed parser if it holds of the parts in turn, each for what the others have left.
-/

namespace ProcLang

set_option autoImplicit false

namespace Parser

variable {α β γ : Type}

/-- Whatever the parser yields at the cursor, it moved past lexemes of which the condition holds. -/
def ConsumesAt (cursor : Cursor) (p : Parser α) (post : List Lexeme → α → Prop) : Prop :=
  (∀ token ∈ cursor.rest, token.lexeme.Formed) → ∀ result rest, p cursor = .ok (result, rest) →
    ∃ tokens, cursor.rest = tokens ++ rest.rest ∧ post (tokens.map Token.lexeme) result

def Consumes (p : Parser α) (post : List Lexeme → α → Prop) : Prop :=
  ∀ cursor, ConsumesAt cursor p post

theorem ConsumesAt.congr {cursor : Cursor} {p p' : Parser α} {post : List Lexeme → α → Prop}
    (h : ConsumesAt cursor p post) (hSame : p' cursor = p cursor) : ConsumesAt cursor p' post := by
  intro hFormed result rest hResult
  exact h hFormed result rest (hSame ▸ hResult)

theorem exists_of_bind_ok {first : Parser α} {next : α → Parser β} {cursor rest : Cursor} {b : β}
    (h : (first >>= next) cursor = .ok (b, rest)) :
    ∃ a middle, first cursor = .ok (a, middle) ∧ next a middle = .ok (b, rest) := by
  obtain ⟨⟨a, middle⟩, hFirst, hNext⟩ := except_bind_ok h
  exact ⟨a, middle, hFirst, hNext⟩

section Rules

variable {p : Parser α} {q : α → Parser β} {middle : List Lexeme → α → Prop}
  {post : List Lexeme → β → Prop} {cursor : Cursor} {text : String}

theorem consumesAt_bind (hFirst : ConsumesAt cursor p middle)
    (hNext : ∀ a us, middle us a → Consumes (q a) fun vs b => post (us ++ vs) b) :
    ConsumesAt cursor (p >>= q) post := by
  intro hFormed b rest hResult
  obtain ⟨a, between, hStart, hEnd⟩ := exists_of_bind_ok hResult
  obtain ⟨front, hFront, hMiddle⟩ := hFirst hFormed a between hStart
  have hBehind : ∀ token ∈ between.rest, token.lexeme.Formed := fun token hToken =>
    hFormed token (hFront ▸ List.mem_append_right front hToken)
  obtain ⟨back, hBack, hPost⟩ := hNext a _ hMiddle between hBehind b rest hEnd
  refine ⟨front ++ back, by rw [hFront, hBack, List.append_assoc], ?_⟩
  rwa [List.map_append]

theorem consumes_bind (hFirst : Consumes p middle)
    (hNext : ∀ a us, middle us a → Consumes (q a) fun vs b => post (us ++ vs) b) :
    Consumes (p >>= q) post :=
  fun cursor => consumesAt_bind (hFirst cursor) hNext

theorem consumes_pure {b : β} (h : post [] b) : Consumes (pure b : Parser β) post := by
  intro cursor _ result rest hResult
  cases hResult
  exact ⟨[], rfl, h⟩

theorem consumes_fail (fault : ParseFault) : Consumes (fail fault : Parser β) post := by
  intro cursor _ result rest hResult
  cases hResult

theorem ConsumesAt.imp {weaker : List Lexeme → α → Prop} (h : ConsumesAt cursor p middle)
    (hWeaker : ∀ us a, middle us a → weaker us a) : ConsumesAt cursor p weaker := by
  intro hFormed result rest hResult
  obtain ⟨tokens, hTokens, hMiddle⟩ := h hFormed result rest hResult
  exact ⟨tokens, hTokens, hWeaker _ _ hMiddle⟩

theorem Consumes.imp {weaker : List Lexeme → α → Prop} (h : Consumes p middle)
    (hWeaker : ∀ us a, middle us a → weaker us a) : Consumes p weaker :=
  fun cursor => (h cursor).imp hWeaker

theorem Consumes.and_yields {also : α → Prop} (h : Consumes p middle) (hYields : p.Yields also) :
    Consumes p fun us a => middle us a ∧ also a := by
  intro cursor hFormed result rest hResult
  obtain ⟨tokens, hTokens, hMiddle⟩ := h cursor hFormed result rest hResult
  exact ⟨tokens, hTokens, hMiddle, hYields cursor result rest hResult⟩

theorem consumesAt_skip {token : Token} {others : List Token} {stop : Nat} :
    ConsumesAt ⟨token :: others, stop⟩ skip fun us _ => us = [token.lexeme] := by
  intro _ result rest hResult
  cases hResult
  exact ⟨[token], rfl, rfl⟩

/-- A parser that reads one token or none, by what the token is. -/
theorem consumes_of_token {p : Parser α} {post : List Lexeme → α → Prop} {found : Lexeme → α}
    (accepts : Lexeme → Prop)
    (hFound : ∀ l next, accepts l → Reads (fun _ => p) [l] (.ok (found l)) next)
    (hOther : ∀ next : Option Lexeme, (∀ l ∈ next, ¬accepts l) →
      ∃ other, Reads (fun _ => p) [] other next ∧ ∀ a, other = .ok a → post [] a)
    (hPost : ∀ l : Lexeme, l.Formed → accepts l → post [l] (found l)) : Consumes p post := by
  rintro ⟨rest, stop⟩ hFormed result after hResult
  by_cases hAccepts : ∃ token ∈ rest.head?, accepts token.lexeme
  · obtain ⟨token, hToken, hAccepts⟩ := hAccepts
    obtain ⟨others, rfl⟩ := List.head?_eq_some_iff.mp hToken
    have hRead := hFound token.lexeme _ hAccepts _ [token] others stop rfl rfl le_rfl
    cases hResult.symm.trans hRead
    exact ⟨[token], rfl, hPost _ (hFormed token List.mem_cons_self) hAccepts⟩
  · obtain ⟨other, hRead, hPost⟩ := hOther (rest.head?.map Token.lexeme) (by simpa using hAccepts)
    have hRead := hRead _ [] rest stop rfl rfl le_rfl
    cases other with
    | error fault => cases hResult.symm.trans hRead
    | ok a =>
      cases hResult.symm.trans hRead
      exact ⟨[], rfl, hPost _ rfl⟩

theorem consumes_expect (hFixed : Lexeme.isFixed text = true) :
    Consumes (expect text) fun us _ => us = [.fixed text] := by
  refine consumes_of_token (·.text = text) (fun l next => reads_expect) ?_ ?_
  · exact fun next hNext => ⟨_, reads_expect_error hNext, by simp⟩
  · exact fun l hFormed hText => by rw [hFormed.eq_fixed hText hFixed]

theorem consumes_identifier : Consumes identifier fun us name => us = [.name name] := by
  refine consumes_of_token (·.kind = .identifier) (fun l next => reads_identifier) ?_ ?_
  · exact fun next hNext => ⟨_, reads_identifier_error hNext, by simp⟩
  · rintro ⟨kind, text⟩ _ rfl
    rfl

theorem consumes_eat (hFixed : Lexeme.isFixed text = true) :
    Consumes (eat text) fun us found => us = if found then [.fixed text] else [] := by
  refine consumes_of_token (·.text = text) (fun l next => reads_eat) ?_ ?_
  · refine fun next hNext => ⟨_, reads_eat_false hNext, ?_⟩
    rintro _ ⟨⟩
    rfl
  · exact fun l hFormed hText => by rw [hFormed.eq_fixed hText hFixed]; rfl

theorem consumes_eat_else {here there : Parser β} (hFixed : Lexeme.isFixed text = true)
    (hHere : Consumes here fun us b => post (.fixed text :: us) b) (hThere : Consumes there post) :
    Consumes (do if ← eat text then here else there) post := by
  refine consumes_bind (consumes_eat hFixed) fun found us hFound => ?_
  cases found with
  | true => exact hFound ▸ hHere
  | false => exact hFound ▸ hThere

variable {g : Ebnf} {spell : α → List Lexeme}

theorem consumes_optional (hFixed : Lexeme.isFixed text = true)
    (hItem : Consumes p fun us a => Spells g us (spell a)) :
    Consumes (optional text p) fun us found => (us = [] ∧ found = none) ∨
      ∃ vs a, us = .fixed text :: vs ∧ found = some a ∧ Spells g vs (spell a) := by
  refine consumes_eat_else hFixed ?_ (consumes_pure (.inl ⟨rfl, rfl⟩))
  refine consumes_bind hItem fun a us ha => consumes_pure (.inr ⟨us, a, ?_, rfl, ha⟩)
  rw [List.append_nil]

theorem consumes_many {found? : Cursor → Option γ} {item : γ → Parser α}
    (hItem : ∀ cursor found, found? cursor = some found →
      ConsumesAt cursor (item found) fun us a => Spells g us (spell a)) (n : Nat) :
    Consumes (many found? item n) fun us as => Spells (.star g) us (as.flatMap spell) := by
  induction n with
  | zero => exact consumes_pure .done
  | succ n ih =>
    intro cursor
    cases hFound : found? cursor with
    | none => exact (consumes_pure .done cursor).congr (many_succ_of_none hFound)
    | some found =>
      refine ConsumesAt.congr ?_ (many_succ_of_found hFound)
      refine consumesAt_bind (hItem cursor found hFound) fun a us ha => ?_
      refine consumes_bind ih fun as vs has => consumes_pure ?_
      rw [List.append_nil]
      exact ha.more has

theorem consumes_manyAt (hFixed : Lexeme.isFixed text = true)
    (hItem : Consumes p fun us a => Spells g (.fixed text :: us) (spell a)) (n : Nat) :
    Consumes (manyAt text p n) fun us as => Spells (.star g) us (as.flatMap spell) := by
  refine consumes_many (fun cursor found hFound hFormed => ?_) n
  obtain ⟨rest, stop⟩ := cursor
  obtain ⟨l, hNext, hText⟩ := exists_of_seesText ((sees_check text _).symm.trans hFound)
  obtain ⟨token, hToken, rfl⟩ := Option.map_eq_some_iff.mp hNext
  obtain ⟨others, rfl⟩ := List.head?_eq_some_iff.mp hToken
  have hFirst := (hFormed token List.mem_cons_self).eq_fixed hText hFixed
  have hRead : ConsumesAt ⟨token :: others, stop⟩ (do skip; p) fun us a =>
      Spells g us (spell a) := by
    refine consumesAt_bind consumesAt_skip fun _ us hSkip => ?_
    rw [hSkip, hFirst]
    exact hItem
  exact hRead hFormed

theorem consumes_commaSeparated (hItem : Consumes p fun us a => Spells g us (spell a)) (n : Nat) :
    Consumes (commaSeparated p n) fun us as => ∃ first others, as = first :: others ∧
      Spells (.separated g) us (spell first ++ others.flatMap fun a => .fixed "," :: spell a) := by
  refine consumes_bind hItem fun first us hFirst => ?_
  have hOther : Consumes p fun us a =>
      Spells (.word "," ++ g) (.fixed "," :: us) (.fixed "," :: spell a) :=
    hItem.imp fun us a ha => (Spells.word ",").seq ha
  refine consumes_bind (consumes_manyAt (by decide) hOther n) fun others vs hOthers => ?_
  refine consumes_pure ⟨first, others, rfl, ?_⟩
  rw [List.append_nil]
  exact hFirst.seq hOthers

end Rules

end Parser

end ProcLang
