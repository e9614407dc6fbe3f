import ProcLang.Proofs.Grammar.Faults
import ProcLang.Proofs.Grammar.Predictive
import ProcLang.Proofs.Grammar.Uncounted

/-! # Methods that end

A method that moves the cursor forward only, and repeats itself only behind tokens that it has moved
past, ends at last. It then does what the counted parser does whose count was enough.
-/

namespace ProcLang

set_option autoImplicit false

open ProcLang.Parser

namespace Method

variable {α β γ : Type}

/-- The method ends at the cursor, ahead of which it stops, and does what the parser does. -/
inductive EndsAt (cursor : Cursor) (method : Method α) (p : Parser α) : Prop
  | returns (a : α) (later : Cursor) (here : method cursor = some (.ok a, later))
    (counted : p cursor = .ok (a, later)) (leads : cursor.Leads later)
  | fails (error : ParseError) (later : Cursor)
    (here : method cursor = some (.error error, later))
    (counted : p cursor = .error error) (leads : cursor.Leads later)

/-- The method ends wherever no more than the given number of tokens remain. -/
def Ends (n : Nat) (method : Method α) (p : Parser α) : Prop :=
  ∀ cursor : Cursor, cursor.rest.length ≤ n → EndsAt cursor method p

section Rules

variable {n : Nat} {method : Method α} {p : Parser α} {next : α → Method β} {q : α → Parser β}
  {cursor : Cursor} {text : String}

theorem Ends.mono {m : Nat} (h : Ends n method p) (hLess : m ≤ n) : Ends m method p :=
  fun cursor hLength => h cursor (hLength.trans hLess)

theorem EndsAt.congr {method' : Method α} {p' : Parser α} (h : EndsAt cursor method p)
    (hMethod : method' cursor = method cursor) (hCounted : p' cursor = p cursor) :
    EndsAt cursor method' p' := by
  cases h with
  | returns a later hHere hSame hLeads =>
    exact .returns a later (hMethod.trans hHere) (hCounted.trans hSame) hLeads
  | fails error later hHere hSame hLeads =>
    exact .fails error later (hMethod.trans hHere) (hCounted.trans hSame) hLeads

theorem EndsAt.leads (h : EndsAt cursor method p) {a : α} {later : Cursor}
    (hOk : p cursor = .ok (a, later)) : cursor.Leads later := by
  cases h with
  | returns b other hHere hCounted hLeads =>
    cases hCounted.symm.trans hOk
    exact hLeads
  | fails error other hHere hCounted hLeads => cases hCounted.symm.trans hOk

/-- Whatever the method comes to, the parser comes to. -/
theorem EndsAt.counted (h : EndsAt cursor method p) {outcome : Except ParseError α}
    {later : Cursor} (hHere : method cursor = some (outcome, later)) :
    p cursor = outcome.map fun a => (a, later) := by
  cases h with
  | returns a other hReturns hCounted =>
    cases hReturns.symm.trans hHere
    exact hCounted
  | fails error other hFails hCounted =>
    cases hFails.symm.trans hHere
    exact hCounted

theorem bind_of_returns {a : α} {later : Cursor} (h : method cursor = some (.ok a, later)) :
    (method >>= next) cursor = next a later := by
  change (method cursor >>= fun (outcome, later) => _) = _
  rw [h]
  rfl

theorem bind_of_fails {error : ParseError} {later : Cursor}
    (h : method cursor = some (.error error, later)) :
    (method >>= next) cursor = some (.error error, later) := by
  change (method cursor >>= fun (outcome, later) => _) = _
  rw [h]
  rfl

theorem endsAt_bind (hFirst : EndsAt cursor method p)
    (hNext : ∀ a later, p cursor = .ok (a, later) → cursor.Leads later →
      EndsAt later (next a) (q a)) : EndsAt cursor (method >>= next) (p >>= q) := by
  cases hFirst with
  | fails error later hHere hCounted hLeads =>
    exact .fails error later (bind_of_fails hHere) (bind_of_error hCounted) hLeads
  | returns a middle hHere hCounted hLeads =>
    cases hNext a middle hCounted hLeads with
    | returns b later hHere' hCounted' hLeads' =>
      exact .returns b later ((bind_of_returns hHere).trans hHere')
        ((bind_of_ok hCounted).trans hCounted') (hLeads.trans hLeads')
    | fails error later hHere' hCounted' hLeads' =>
      exact .fails error later ((bind_of_returns hHere).trans hHere')
        ((bind_of_ok hCounted).trans hCounted') (hLeads.trans hLeads')

theorem Ends.bind (hFirst : Ends n method p) (hNext : ∀ a, Ends n (next a) (q a)) :
    Ends n (method >>= next) (p >>= q) := fun cursor hLength =>
  endsAt_bind (hFirst cursor hLength) fun a later _ hLeads =>
    hNext a later (hLeads.length_le.trans hLength)

theorem endsAt_pure (a : α) : EndsAt cursor (pure a) (pure a) :=
  .returns a cursor rfl rfl (.refl cursor)

theorem ends_pure (a : α) : Ends n (pure a) (pure a) :=
  fun _ _ => endsAt_pure a

theorem once_of_ok {step : Parser α} {a : α} {later : Cursor} (h : step cursor = .ok (a, later)) :
    once step cursor = some (.ok a, later) := by
  rw [once, h]

theorem endsAt_once {step : Parser α} (h : ReportsAt cursor step) :
    EndsAt cursor (once step) step := by
  cases hStep : step cursor with
  | ok found =>
    obtain ⟨a, later⟩ := found
    exact .returns a later (once_of_ok hStep) hStep (h.leads hStep)
  | error error => exact .fails error cursor (by rw [once, hStep]) hStep (.refl cursor)

theorem ends_once {step : Parser α} (h : Reports n step) : Ends n (once step) step :=
  fun cursor hLength => endsAt_once (h cursor hLength)

theorem endsAt_fail (fault : ParseFault) :
    EndsAt cursor (once (fail fault) : Method α) (fail fault) :=
  .fails _ cursor rfl rfl (.refl cursor)

/-- Behind a token that is skipped there is one token less. -/
theorem endsAt_skip {method : Method β} {p : Parser β} (h : Ends n method p)
    (hLength : cursor.rest.length ≤ n + 1) :
    EndsAt cursor (do once skip; method) (do skip; p) := by
  refine endsAt_bind (ends_once reports_skip cursor le_rfl) fun _ later hOk _ => h later ?_
  cases hOk
  rw [Cursor.next, List.length_tail]
  omega

theorem ne_nil_of_check {pattern : Pattern} (h : cursor.check pattern = true) :
    cursor.rest ≠ [] := by
  obtain ⟨_ | ⟨token, rest⟩, stop⟩ := cursor
  · cases h
  · exact List.cons_ne_nil token rest

theorem eat_of_check (h : cursor.check (.text text) = true) :
    eat text cursor = .ok (true, cursor.next) := by
  obtain ⟨_ | ⟨token, rest⟩, stop⟩ := cursor
  · cases h
  · simp only [eat, Cursor.eat, h]
    rfl

theorem eat_of_not_check (h : ¬cursor.check (.text text) = true) :
    eat text cursor = .ok (false, cursor) := by
  simp only [eat, Cursor.eat, h]
  rfl

theorem ends_eat_else {here there : Method α} {p q : Parser α} (hHere : Ends (n - 1) here p)
    (hThere : Ends n there q) :
    Ends n (do if ← once (eat text) then here else there)
      (do if ← eat text then p else q) := by
  intro cursor hLength
  have hBehind : cursor.rest.length ≤ n - 1 + 1 := by omega
  by_cases hCheck : cursor.check (.text text) = true
  · have hEat := eat_of_check hCheck
    exact (endsAt_skip hHere hBehind).congr (bind_of_returns (once_of_ok hEat)) (bind_of_ok hEat)
  · have hEat := eat_of_not_check hCheck
    exact (hThere cursor hLength).congr (bind_of_returns (once_of_ok hEat)) (bind_of_ok hEat)

theorem ends_optional {item : Method α} {p : Parser α} (h : Ends n item p) :
    Ends n (do if ← once (eat text) then return some (← item) else return none)
      (optional text p) :=
  ends_eat_else ((h.mono (Nat.sub_le n 1)).bind fun a => ends_pure (some a)) (ends_pure none)

/-- Whatever the parser reads at the cursor, it moves past a token. -/
def ProgressesAt (cursor : Cursor) (p : Parser α) : Prop :=
  ∀ a later, p cursor = .ok (a, later) → later.rest.length < cursor.rest.length

section Loops

variable {found? : Cursor → Option γ} {loop : Method (List α)}

/-- One turn of a loop that goes on as long as something is found ahead. -/
def turn (found? : Cursor → Option γ) (item : γ → Method α) (loop : Method (List α)) :
    Method (List α) := do
  match found? (← get) with
  | none => return []
  | some found =>
    let first ← item found
    let others ← loop
    return first :: others

theorem get_bind (next : Cursor → Method β) (cursor : Cursor) :
    ((get : Method Cursor) >>= next) cursor = next cursor cursor :=
  rfl

theorem turn_of_none {item : γ → Method α} (h : found? cursor = none) :
    turn found? item loop cursor = (pure [] : Method (List α)) cursor :=
  (get_bind _ cursor).trans (by rw [h])

theorem turn_of_found {item : γ → Method α} {found : γ} (h : found? cursor = some found) :
    turn found? item loop cursor = (do
      let first ← item found
      let others ← loop
      return first :: others : Method (List α)) cursor :=
  (get_bind _ cursor).trans (by rw [h])

/-- The induction is on the tokens that remain. Each turn moves past one at least, so that the count
of turns is not reached. -/
theorem ends_many {item : γ → Method α} {p : γ → Parser α} {count : Nat}
    (hLoop : loop = turn found? item loop)
    (hEnd : ∀ cursor : Cursor, cursor.rest = [] → found? cursor = none)
    (hItem : ∀ found, Ends n (item found) (p found))
    (hProgress : ∀ cursor found, cursor.rest.length ≤ n → found? cursor = some found →
      ProgressesAt cursor (p found))
    (hCount : n ≤ count) : Ends n loop (many found? p count) := by
  have hTurn (cursor : Cursor) : loop cursor = turn found? item loop cursor :=
    congrFun hLoop cursor
  have hTurns (count : Nat) (cursor : Cursor) (hLength : cursor.rest.length ≤ n)
      (hCount : cursor.rest.length ≤ count) : EndsAt cursor loop (many found? p count) := by
    induction count generalizing cursor with
    | zero =>
      have hNone := hEnd cursor (List.length_eq_zero_iff.mp (Nat.le_zero.mp hCount))
      exact (endsAt_pure []).congr ((hTurn cursor).trans (turn_of_none hNone)) rfl
    | succ count ih =>
      cases hFound : found? cursor with
      | none =>
        exact (endsAt_pure []).congr ((hTurn cursor).trans (turn_of_none hFound))
          (many_succ_of_none hFound)
      | some found =>
        refine EndsAt.congr ?_ ((hTurn cursor).trans (turn_of_found hFound))
          (many_succ_of_found hFound)
        refine endsAt_bind (hItem found cursor hLength) fun first later hOk hLeads => ?_
        have hLess := hProgress cursor found hLength hFound first later hOk
        refine endsAt_bind (ih later (by omega) (by omega)) fun others _ _ _ => ?_
        exact endsAt_pure (first :: others)
  exact fun cursor hLength => hTurns count cursor hLength (hLength.trans hCount)

/-- To skip a token that is there is progress. -/
theorem progressesAt_skip {method : Method β} {p : Parser β} (h : Ends n method p)
    (hLength : cursor.rest.length ≤ n + 1) (hSome : cursor.rest ≠ []) :
    ProgressesAt cursor (do skip; p) := by
  intro b later hOk
  have hPositive := List.length_pos_iff.mpr hSome
  have hNext : cursor.next.rest.length = cursor.rest.length - 1 := List.length_tail
  have hBehind := ((h cursor.next (by omega)).leads hOk).length_le
  omega

/-- One turn of a loop that goes on as long as a test succeeds. -/
def turnIf (test : Cursor → Bool) (item : Method α) (loop : Method (List α)) :
    Method (List α) := do
  if test (← get) then
    let first ← item
    let others ← loop
    return first :: others
  else
    return []

theorem turnIf_eq (test : Cursor → Bool) (item : Method α) (loop : Method (List α)) :
    turnIf test item loop =
      turn (fun cursor => if test cursor then some () else none) (fun _ => item) loop := by
  funext cursor
  refine (get_bind _ cursor).trans ?_
  by_cases hTest : test cursor = true
  · rw [turn_of_found (if_pos hTest), if_pos hTest]
  · rw [turn_of_none (if_neg hTest), if_neg hTest]

/-- One turn of a loop that goes on at a text, and moves past it. -/
def turnAt (text : String) (item : Method α) (loop : Method (List α)) : Method (List α) := do
  if ← once (eat text) then
    let first ← item
    let others ← loop
    return first :: others
  else
    return []

theorem turnAt_eq (text : String) (item : Method α) (loop : Method (List α)) :
    turnAt text item loop =
      turn (fun cursor => if cursor.check (.text text) then some () else none)
        (fun _ => do once skip; item) loop := by
  funext cursor
  by_cases hCheck : cursor.check (.text text) = true
  · refine (bind_of_returns (once_of_ok (eat_of_check hCheck))).trans ?_
    refine Eq.trans ?_ (turn_of_found (if_pos hCheck)).symm
    rw [bind_assoc]
    rfl
  · refine (bind_of_returns (once_of_ok (eat_of_not_check hCheck))).trans ?_
    exact (turn_of_none (if_neg hCheck)).symm

theorem ends_manyAt {item : Method α} {p : Parser α} {count : Nat}
    (hLoop : loop = turnAt text item loop) (hItem : Ends n item p) (hCount : n ≤ count) :
    Ends n loop (manyAt text p count) := by
  rw [turnAt_eq] at hLoop
  have hCheck (cursor : Cursor) (found : Unit)
      (hFound : (if cursor.check (.text text) then some () else none) = some found) :
      cursor.check (.text text) = true := by
    by_contra hOther
    rw [if_neg hOther] at hFound
    cases hFound
  refine ends_many hLoop (fun cursor hNil => ?_)
    (fun _ cursor hLength => endsAt_skip hItem (hLength.trans n.le_succ))
    (fun cursor found hLength hFound => ?_) hCount
  · exact if_neg fun hSome => ne_nil_of_check hSome hNil
  · have hSome := ne_nil_of_check (hCheck cursor found hFound)
    exact progressesAt_skip hItem (hLength.trans n.le_succ) hSome

end Loops

theorem endsAt_ite {c : Prop} [Decidable c] {here there : Method α} {p q : Parser α}
    (hHere : c → EndsAt cursor here p) (hThere : ¬c → EndsAt cursor there q) :
    EndsAt cursor (if c then here else there) (if c then p else q) := by
  split
  · rename_i hc
    exact hHere hc
  · rename_i hc
    exact hThere hc

/-- What decides by one lexeme, and consumes something before what can follow it, progresses. -/
theorem progressesAt_of_predictive {p : Nat → Parser α} {first stops : Option Lexeme → Prop}
    (h : Predictive (n + 1) p first stops) (hConsuming : Consuming first stops)
    (hLength : cursor.rest.length ≤ n) : ProgressesAt cursor (p n) := by
  intro b later hOk
  obtain ⟨tokens, stop⟩ := cursor
  have hLexemes : (tokens.map Token.lexeme).length < n + 1 := by
    rw [List.length_map]
    exact Nat.lt_succ_of_le hLength
  cases h.decided _ hLexemes with
  | reads u rest a hSplit hHere hCompletes =>
    obtain ⟨front, back, rfl, hFront, hBack⟩ := List.map_eq_append_iff.mp hSplit
    have hNext : back.head?.map Token.lexeme = rest.head? := by rw [← hBack, List.head?_map]
    cases (hHere n front back stop hFront hNext hLength).symm.trans hOk
    have hSome := hCompletes.ne_nil hConsuming
    rw [List.append_nil, ← hFront] at hSome
    have hPositive : 0 < front.length := List.length_pos_iff.mpr (by simpa using hSome)
    simp only [List.length_append]
    omega
  | rejects u rest fault v a hSplit hHere hCompletes =>
    obtain ⟨front, back, rfl, hFront, hBack⟩ := List.map_eq_append_iff.mp hSplit
    have hNext : back.head?.map Token.lexeme = rest.head? := by rw [← hBack, List.head?_map]
    cases (hHere n front back stop hFront hNext hLength).symm.trans hOk

end Rules

end Method

end ProcLang
