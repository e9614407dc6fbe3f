import ProcLang.Grammar.Program
import ProcLang.Proofs.Grammar.Reads

/-! # What parsers yield

A condition on all that a parser can yield. Conditions on parts make up conditions on the whole,
along the way in which parsers are put together.
-/

namespace ProcLang

set_option autoImplicit false

variable {α β : Type}

namespace Parser

def Yields (parser : Parser α) (post : α → Prop) : Prop :=
  ∀ cursor result rest, parser cursor = .ok (result, rest) → post result

section Combinators

variable {post : α → Prop} {post' : β → Prop}

theorem yields_of_forall {parser : Parser α} (h : ∀ result, post result) : parser.Yields post :=
  fun _ result _ _ => h result

theorem Yields.imp {parser : Parser α} {weaker : α → Prop} (h : parser.Yields post)
    (hWeaker : ∀ result, post result → weaker result) : parser.Yields weaker :=
  fun cursor result rest hResult => hWeaker result (h cursor result rest hResult)

theorem yields_pure {result : α} (h : post result) : (pure result : Parser α).Yields post := by
  intro cursor found rest hFound
  cases hFound
  exact h

theorem yields_fail (fault : ParseFault) : (fail fault : Parser α).Yields post := by
  intro cursor result rest hResult
  cases hResult

theorem yields_bind {first : Parser α} {next : α → Parser β} (hFirst : first.Yields post)
    (hNext : ∀ result, post result → (next result).Yields post') :
    (first >>= next).Yields post' := by
  intro cursor result rest hResult
  change (first cursor >>= fun (a, rest) => next a rest) = _ at hResult
  cases hStart : first cursor with
  | error error =>
    rw [hStart] at hResult
    cases hResult
  | ok start =>
    obtain ⟨a, middle⟩ := start
    rw [hStart] at hResult
    exact hNext a (hFirst cursor a middle hStart) middle result rest hResult

theorem yields_then {first : Parser α} {next : α → Parser β}
    (hNext : ∀ result, (next result).Yields post') : (first >>= next).Yields post' := by
  have hFirst : first.Yields fun _ => True := yields_of_forall fun _ => trivial
  exact yields_bind hFirst fun result _ => hNext result

section Many

variable {γ : Type} {found? : Cursor → Option γ} {item : γ → Parser α}

/-- Items begin with what was found at some cursor. -/
theorem yields_many_of_found
    (hItem : ∀ cursor found, found? cursor = some found → (item found).Yields post) (n : Nat) :
    (many found? item n).Yields fun results => ∀ result ∈ results, post result := by
  induction n with
  | zero => exact yields_pure fun _ hResult => nomatch hResult
  | succ n ih =>
    intro cursor results rest hResults
    cases hFound : found? cursor with
    | none =>
      cases (many_succ_of_none hFound).symm.trans hResults
      exact fun _ hResult => nomatch hResult
    | some found =>
      have hItems : Yields (do
          let first ← item found
          let rest ← many found? item n
          return first :: rest) fun results => ∀ result ∈ results, post result := by
        refine yields_bind (hItem cursor found hFound) fun first hFirst => ?_
        refine yields_bind ih fun rest hRest => yields_pure ?_
        exact List.forall_mem_cons.mpr ⟨hFirst, hRest⟩
      exact hItems cursor results rest ((many_succ_of_found hFound).symm.trans hResults)

theorem yields_many (hItem : ∀ found, (item found).Yields post) (n : Nat) :
    (many found? item n).Yields fun results => ∀ result ∈ results, post result :=
  yields_many_of_found (fun _ found _ => hItem found) n

end Many

theorem yields_manyAt {text : String} {item : Parser α} (hItem : item.Yields post) (n : Nat) :
    (manyAt text item n).Yields fun results => ∀ result ∈ results, post result :=
  yields_many (fun _ => yields_then fun _ => hItem) n

theorem yields_commaSeparated {item : Parser α} (hItem : item.Yields post) (n : Nat) :
    (commaSeparated item n).Yields fun results =>
      results ≠ [] ∧ ∀ result ∈ results, post result := by
  refine yields_bind hItem fun first hFirst => ?_
  refine yields_bind (yields_manyAt hItem n) fun others hOthers => yields_pure ?_
  exact ⟨List.cons_ne_nil first others, List.forall_mem_cons.mpr ⟨hFirst, hOthers⟩⟩

theorem yields_optional {text : String} {item : Parser α} (hItem : item.Yields post) :
    (optional text item).Yields fun result? => ∀ result, result? = some result → post result := by
  unfold optional
  refine yields_then fun found => ?_
  split
  · refine yields_bind hItem fun result hResult => yields_pure ?_
    simpa using hResult
  · exact yields_pure (by simp)

end Combinators

end Parser

end ProcLang
