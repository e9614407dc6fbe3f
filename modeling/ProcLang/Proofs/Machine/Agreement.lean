import ProcLang.Proofs.Machine.Steps

/-! # Executions that end alike

Two executions agree if both end with the same result or error, or neither ends. Executions of the
same kind are compared step for step. Those that spend their steps differently are compared by what
they settle on once the steps are enough.
-/

namespace ProcLang

set_option autoImplicit false

variable {α β : Type} {R S : Machine → Machine → Prop} {machine machine' : Machine}

namespace Outcome.Agrees

theorem bind {first second : Exec α} {next next' : α → Exec β}
    (h : (first machine).Agrees R (second machine'))
    (hNext : ∀ result left left', R left left' → (next result left).Agrees S (next' result left'))
    (hFailed : ∀ left left', R left left' → S left left') :
    ((first >>= next) machine).Agrees S ((second >>= next') machine') := by
  generalize hOutcome : first machine = outcome at h
  generalize hOutcome' : second machine' = outcome' at h
  cases h with
  | done h =>
    rw [Exec.bind_of_done hOutcome, Exec.bind_of_done hOutcome']
    exact hNext _ _ _ h
  | failed h =>
    rw [Exec.bind_of_failed hOutcome, Exec.bind_of_failed hOutcome']
    exact .failed (hFailed _ _ h)
  | exhausted =>
    rw [Exec.bind_of_exhausted hOutcome, Exec.bind_of_exhausted hOutcome']
    exact .exhausted

theorem mapMachine {outcome outcome' : Outcome α} (h : outcome.Agrees R outcome')
    {f f' : Machine → Machine} (hRelated : ∀ left left', R left left' → S (f left) (f' left')) :
    (outcome.mapMachine f).Agrees S (outcome'.mapMachine f') := by
  cases h with
  | done h => exact .done (hRelated _ _ h)
  | failed h => exact .failed (hRelated _ _ h)
  | exhausted => exact .exhausted

theorem mapMachine_left {outcome outcome' : Outcome α} (h : outcome.Agrees R outcome')
    {f : Machine → Machine} (hRelated : ∀ left left', R left left' → S (f left) left') :
    (outcome.mapMachine f).Agrees S outcome' := by
  cases h with
  | done h => exact .done (hRelated _ _ h)
  | failed h => exact .failed (hRelated _ _ h)
  | exhausted => exact .exhausted

theorem mapMachine_right {outcome outcome' : Outcome α} (h : outcome.Agrees R outcome')
    {f' : Machine → Machine} (hRelated : ∀ left left', R left left' → S left (f' left')) :
    outcome.Agrees S (outcome'.mapMachine f') := by
  cases h with
  | done h => exact .done (hRelated _ _ h)
  | failed h => exact .failed (hRelated _ _ h)
  | exhausted => exact .exhausted

end Outcome.Agrees

/-- Started from related machines, both executions end alike with related machines. -/
def Exec.Agree (R : Machine → Machine → Prop) (first second : Exec α) : Prop :=
  ∀ machine machine', R machine machine' → (first machine).Agrees R (second machine')

namespace Exec.Agree

theorem of_exhausted : Agree R (exhausted : Exec α) exhausted :=
  fun _ _ _ => .exhausted

theorem of_pure (result : α) : Agree R (pure result : Exec α) (pure result) :=
  fun _ _ h => .done h

theorem of_fail (error : RuntimeError) : Agree R (fail error : Exec α) (fail error) :=
  fun _ _ h => .failed h

theorem of_ofExcept (result : Except RuntimeError α) :
    Agree R (ofExcept result) (ofExcept result) := by
  cases result with
  | ok value => exact of_pure value
  | error error => exact of_fail error

theorem of_bind {first second : Exec α} {next next' : α → Exec β} (hFirst : Agree R first second)
    (hNext : ∀ result, Agree R (next result) (next' result)) :
    Agree R (first >>= next) (second >>= next') :=
  fun machine machine' h => (hFirst machine machine' h).bind hNext fun _ _ hLeft => hLeft

theorem of_ite {c : Prop} [Decidable c] {first first' second second' : Exec α}
    (hFirst : Agree R first first') (hSecond : Agree R second second') :
    Agree R (if c then first else second) (if c then first' else second') := by
  split
  · exact hFirst
  · exact hSecond

end Exec.Agree

namespace Outcome

variable {f f' : Nat → Outcome α} {outcome : Outcome α}

/-- With steps enough, this is the outcome. -/
def Settles (f : Nat → Outcome α) (outcome : Outcome α) : Prop :=
  ∃ enough, ∀ n, enough ≤ n → f n = outcome

/-- An outcome other than giving up stays when there are more steps. -/
def Steady (f : Nat → Outcome α) : Prop :=
  ∀ n n', n ≤ n' → f n ≠ .exhausted → f n' = f n

theorem Settles.of_shift {k : Nat} (h : Settles (fun n => f (n + k)) outcome) :
    Settles f outcome := by
  obtain ⟨enough, h⟩ := h
  refine ⟨enough + k, ?_⟩
  intro n hn
  obtain ⟨n, rfl⟩ : ∃ j, n = j + k := ⟨n - k, by omega⟩
  exact h n (by omega)

theorem Settles.shift (h : Settles f outcome) (k : Nat) : Settles (fun n => f (n + k)) outcome := by
  obtain ⟨enough, h⟩ := h
  exact ⟨enough, fun n hn => h (n + k) (by omega)⟩

theorem Steady.settles_of_ne (hf : Steady f) {n : Nat} (hEnds : f n ≠ .exhausted) :
    Settles f (f n) :=
  ⟨n, fun n' hn => hf n n' hn hEnds⟩

theorem Steady.exists_settles (hf : Steady f) : ∃ outcome, Settles f outcome := by
  by_cases hEnds : ∃ n, f n ≠ .exhausted
  · obtain ⟨n, hEnds⟩ := hEnds
    exact ⟨f n, hf.settles_of_ne hEnds⟩
  · refine ⟨.exhausted, 0, ?_⟩
    intro n _
    by_contra hEnd
    exact hEnds ⟨n, hEnd⟩

theorem Settles.unique {outcome' : Outcome α} (h : Settles f outcome) (h' : Settles f outcome') :
    outcome = outcome' := by
  obtain ⟨enough, h⟩ := h
  obtain ⟨enough', h'⟩ := h'
  rw [← h (max enough enough') (by omega), h' (max enough enough') (by omega)]

/-- With steps enough, both outcomes agree, however many steps either of them takes. -/
def EndAlike (R : Machine → Machine → Prop) (f f' : Nat → Outcome α) : Prop :=
  ∃ outcome outcome', Settles f outcome ∧ Settles f' outcome' ∧ outcome.Agrees R outcome'

namespace EndAlike

theorem of_agrees (hf : Steady f) (hf' : Steady f') (h : ∀ n, (f n).Agrees R (f' n)) :
    EndAlike R f f' := by
  obtain ⟨outcome, enough, hSettles⟩ := hf.exists_settles
  obtain ⟨outcome', enough', hSettles'⟩ := hf'.exists_settles
  have hAgrees := h (max enough enough')
  rw [hSettles _ (Nat.le_max_left ..), hSettles' _ (Nat.le_max_right ..)] at hAgrees
  exact ⟨outcome, outcome', ⟨enough, hSettles⟩, ⟨enough', hSettles'⟩, hAgrees⟩

theorem of_done {result : α} (h : R machine machine') :
    EndAlike R (fun _ => .done result machine) fun _ => .done result machine' :=
  ⟨_, _, ⟨0, fun _ _ => rfl⟩, ⟨0, fun _ _ => rfl⟩, .done h⟩

theorem congr {g g' : Nat → Outcome α} (h : EndAlike R g g') (hf : ∀ n, f n = g n)
    (hf' : ∀ n, f' n = g' n) : EndAlike R f f' := by
  rw [funext hf, funext hf']
  exact h

theorem of_shift (k k' : Nat) (h : EndAlike R (fun n => f (n + k)) fun n => f' (n + k')) :
    EndAlike R f f' := by
  obtain ⟨outcome, outcome', hSettles, hSettles', hAgrees⟩ := h
  exact ⟨outcome, outcome', hSettles.of_shift, hSettles'.of_shift, hAgrees⟩

theorem shift (h : EndAlike R f f') (k k' : Nat) :
    EndAlike R (fun n => f (n + k)) fun n => f' (n + k') := by
  obtain ⟨outcome, outcome', hSettles, hSettles', hAgrees⟩ := h
  exact ⟨outcome, outcome', hSettles.shift k, hSettles'.shift k', hAgrees⟩

/-- Whichever of the two ends, the other one ends alike. -/
theorem ends (h : EndAlike R f f') (hf : Steady f) (hf' : Steady f') :
    (∀ n, f n ≠ .exhausted → ∃ n', (f n).Agrees R (f' n')) ∧
      ∀ n', f' n' ≠ .exhausted → ∃ n, (f n).Agrees R (f' n') := by
  obtain ⟨outcome, outcome', hSettles, hSettles', hAgrees⟩ := h
  constructor
  · intro n hEnds
    obtain ⟨n', hn'⟩ := hSettles'
    refine ⟨n', ?_⟩
    rwa [(hf.settles_of_ne hEnds).unique hSettles, hn' n' (Nat.le_refl _)]
  · intro n' hEnds
    obtain ⟨n, hn⟩ := hSettles
    refine ⟨n, ?_⟩
    rwa [(hf'.settles_of_ne hEnds).unique hSettles', hn n (Nat.le_refl _)]

end EndAlike

end Outcome

namespace Exec

open Outcome

section Bind

variable {first : Nat → Exec α} {next : Nat → α → Exec β}

theorem settles_bind_done {result : α} {left : Machine} {outcome : Outcome β}
    (h : Settles (fun n => first n machine) (.done result left))
    (hNext : Settles (fun n => next n result left) outcome) :
    Settles (fun n => (first n >>= next n) machine) outcome := by
  obtain ⟨enough, h⟩ := h
  obtain ⟨enough', hNext⟩ := hNext
  refine ⟨max enough enough', ?_⟩
  intro n hn
  exact (bind_of_done (h n (by omega))).trans (hNext n (by omega))

theorem settles_bind_failed {error : RuntimeError} {left : Machine}
    (h : Settles (fun n => first n machine) (.failed error left)) :
    Settles (fun n => (first n >>= next n) machine) (.failed error left) := by
  obtain ⟨enough, h⟩ := h
  exact ⟨enough, fun n hn => bind_of_failed (h n hn)⟩

theorem settles_bind_exhausted (h : Settles (fun n => first n machine) .exhausted) :
    Settles (fun n => (first n >>= next n) machine) .exhausted := by
  obtain ⟨enough, h⟩ := h
  exact ⟨enough, fun n hn => bind_of_exhausted (h n hn)⟩

end Bind

theorem endAlike_bind {first second : Nat → Exec α} {next next' : Nat → α → Exec β}
    (h : EndAlike R (fun n => first n machine) fun n => second n machine')
    (hNext : ∀ result left left', R left left' →
      EndAlike S (fun n => next n result left) fun n => next' n result left')
    (hFailed : ∀ left left', R left left' → S left left') :
    EndAlike S (fun n => (first n >>= next n) machine)
      fun n => (second n >>= next' n) machine' := by
  obtain ⟨outcome, outcome', hSettles, hSettles', hAgrees⟩ := h
  cases hAgrees with
  | done h =>
    obtain ⟨outcome, outcome', hGoesOn, hGoesOn', hAgrees⟩ := hNext _ _ _ h
    exact ⟨outcome, outcome', settles_bind_done hSettles hGoesOn,
      settles_bind_done hSettles' hGoesOn', hAgrees⟩
  | failed h =>
    exact ⟨_, _, settles_bind_failed hSettles, settles_bind_failed hSettles', .failed (hFailed _ _ h)⟩
  | exhausted =>
    exact ⟨_, _, settles_bind_exhausted hSettles, settles_bind_exhausted hSettles', .exhausted⟩

theorem settles_inScope {body : Nat → Exec α} {outcome : Outcome α}
    (h : Settles (fun n => body n machine.pushScope) outcome) :
    Settles (fun n => inScope (body n) machine) (outcome.mapMachine Machine.popScope) := by
  obtain ⟨enough, h⟩ := h
  exact ⟨enough, fun n hn => congrArg (Outcome.mapMachine Machine.popScope) (h n hn)⟩

theorem endAlike_inScope {body body' : Nat → Exec α}
    (h : EndAlike R (fun n => body n machine.pushScope) fun n => body' n machine'.pushScope)
    (hPop : ∀ left left', R left left' → S left.popScope left'.popScope) :
    EndAlike S (fun n => inScope (body n) machine) fun n => inScope (body' n) machine' := by
  obtain ⟨outcome, outcome', hSettles, hSettles', hAgrees⟩ := h
  exact ⟨_, _, settles_inScope hSettles, settles_inScope hSettles', hAgrees.mapMachine hPop⟩

/-- Only the first execution is inside a new scope. -/
theorem endAlike_inScope_left {body : Nat → Exec α} {f' : Nat → Outcome α}
    (h : EndAlike R (fun n => body n machine.pushScope) f')
    (hPop : ∀ left left', R left left' → S left.popScope left') :
    EndAlike S (fun n => inScope (body n) machine) f' := by
  obtain ⟨outcome, outcome', hSettles, hSettles', hAgrees⟩ := h
  exact ⟨_, _, settles_inScope hSettles, hSettles', hAgrees.mapMachine_left hPop⟩

/-- Only the second execution is inside a new scope. -/
theorem endAlike_inScope_right {f : Nat → Outcome α} {body : Nat → Exec α}
    (h : EndAlike R f fun n => body n machine.pushScope)
    (hPop : ∀ left left', R left left' → S left left'.popScope) :
    EndAlike S f fun n => inScope (body n) machine := by
  obtain ⟨outcome, outcome', hSettles, hSettles', hAgrees⟩ := h
  exact ⟨_, _, hSettles, settles_inScope hSettles', hAgrees.mapMachine_right hPop⟩

theorem steady_of_follows {f : Nat → Outcome α}
    (h : ∀ n n', n ≤ n' → (f n).Follows Eq False (f n')) : Steady f :=
  fun n n' hSteps hEnds => (h n n' hSteps).eq_of_ne hEnds

theorem steady_evaluate (e : Expr) (machine : Machine) :
    Steady fun n => evaluate n e machine :=
  steady_of_follows fun _ _ hSteps =>
    ((AllCouple.all simulation_eq hSteps).evaluate (e.alike_of_erase_eq e rfl)).follows rfl

theorem steady_execute (s : Stmt) (machine : Machine) : Steady fun n => execute n s machine :=
  steady_of_follows fun _ _ hSteps =>
    ((AllCouple.all simulation_eq hSteps).execute (s.alike_of_erase_eq s rfl)).follows rfl

theorem steady_executeBlock (statements : List Stmt) (machine : Machine) :
    Steady fun n => executeBlock n statements machine :=
  steady_of_follows fun _ _ hSteps =>
    ((AllCouple.all simulation_eq hSteps).executeBlock
      (Stmt.alike_of_eraseBlock_eq statements statements rfl)).follows rfl

theorem steady_inScope {body : Nat → Exec α} (h : Steady fun n => body n machine.pushScope) :
    Steady fun n => inScope (body n) machine := by
  intro n n' hSteps hEnds
  apply congrArg (Outcome.mapMachine Machine.popScope)
  apply h n n' hSteps
  intro hExhausted
  exact hEnds (congrArg (Outcome.mapMachine Machine.popScope) hExhausted)

end Exec

end ProcLang
