import ProcLang.Proofs.Machine.Steps

/-! # The limit of calls

A larger limit of calls does not change a run that the smaller one did not cut short. A run that was
cut short has printed the beginning of what it prints under the larger limit.
-/

namespace ProcLang

set_option autoImplicit false

/-- The second machine differs from the first one in a larger limit of calls. -/
def Machine.Roomier (machine machine' : Machine) : Prop :=
  ∃ limit, machine.callLimit ≤ limit ∧ machine' = { machine with callLimit := limit }

theorem simulation_roomier : Simulation Machine.Roomier True where
  lookup_eq := by
    rintro machine _ ⟨limit, hLimit, rfl⟩ name
    rfl
  define := by
    rintro machine _ ⟨limit, hLimit, rfl⟩ name value isMutable
    exact .done ⟨limit, hLimit, rfl⟩
  assign := by
    rintro machine _ ⟨limit, hLimit, rfl⟩ name value
    unfold Exec.assign
    dsimp only
    split
    · exact .done ⟨limit, hLimit, rfl⟩
    · exact .failed ⟨limit, hLimit, rfl⟩
    · exact .failed ⟨limit, hLimit, rfl⟩
  print := by
    rintro machine _ ⟨limit, hLimit, rfl⟩ values
    exact .done ⟨limit, hLimit, rfl⟩
  pushScope := by
    rintro machine _ ⟨limit, hLimit, rfl⟩
    exact ⟨limit, hLimit, rfl⟩
  popScope := by
    rintro machine _ ⟨limit, hLimit, rfl⟩
    exact ⟨limit, hLimit, rfl⟩
  callable := by
    rintro machine _ ⟨limit, hLimit, rfl⟩ name arity
    dsimp only
    cases machine.store.lookupFunction machine.env.current name arity with
    | none => exact .none
    | some callable =>
      cases callable with
      | print => exact .some .print
      | user function closure =>
        exact .some (.user (Function.alike_of_erase_eq rfl) fun _ _ => ⟨limit, hLimit, rfl⟩)
  leaveFrame := by
    rintro machine _ left _ ⟨limit, hLimit, rfl⟩ ⟨limit', hLimit', rfl⟩
    exact ⟨limit', hLimit', rfl⟩
  callDepth_lt := by
    rintro machine _ ⟨limit, hLimit, rfl⟩ hDepth
    exact Nat.lt_of_lt_of_le hDepth hLimit
  callLimit_le := by
    rintro machine _ ⟨limit, hLimit, rfl⟩ hReached
    exact .inr ⟨trivial, rfl⟩

theorem Outcome.Follows.prints_of_roomier {error : RuntimeError} {machine machine' : Machine}
    {outcome : Outcome Value}
    (h : (Outcome.failed error machine).Follows Machine.Roomier True outcome)
    (hLeft : outcome.machine? = some machine') : machine.Prints machine' := by
  cases h with
  | failed hRoomier =>
    obtain ⟨limit, -, rfl⟩ := hRoomier
    cases hLeft
    exact refl_of Machine.Prints machine
  | cut _ hPrints => exact hPrints.of_machine? hLeft

namespace Exec

variable {source : Source} {destination : Destination} {limit limit' : Nat}

theorem run_follows (h : limit ≤ limit') (n : Nat) (source : Source) (destination : Destination) :
    (run n source (Machine.new destination limit)).Follows Machine.Roomier True
      (run n source (Machine.new destination limit')) := by
  have hFunctions : Couples Machine.Roomier True (defineFunctions source.functions)
      (defineFunctions source.functions) := by
    refine Couples.of_defineFunctions (Q := Eq) ?_ (List.forall₂_refl source.functions)
    rintro function _ machine _ rfl ⟨limit, hLimit, rfl⟩
    exact .done ⟨limit, hLimit, rfl⟩
  have hRun := simulation_roomier.couples_run (Nat.le_refl n) (Source.alike_of_erase_eq rfl) hFunctions
  exact hRun.follows ⟨limit', h, rfl⟩

/-- However far a run gets, a larger limit of calls only lets it get further. -/
theorem run_of_callLimit_le (h : limit ≤ limit') (source : Source) (destination : Destination) :
    (∀ n value machine, run n source (Machine.new destination limit) = .done value machine →
      ∃ machine', run n source (Machine.new destination limit') = .done value machine' ∧
        machine'.printer = machine.printer) ∧
    (∀ n error machine, run n source (Machine.new destination limit) = .failed error machine →
      (∀ reached, error ≠ .stackOverflow reached) →
      ∃ machine', run n source (Machine.new destination limit') = .failed error machine' ∧
        machine'.printer = machine.printer) ∧
    (∀ n n' reached machine machine',
      run n source (Machine.new destination limit) = .failed (.stackOverflow reached) machine →
      (run n' source (Machine.new destination limit')).machine? = some machine' →
      ∃ text, machine'.printer.text = machine.printer.text ++ text) := by
  refine ⟨?_, ?_, ?_⟩
  · intro n value machine hDone
    have hFollows := run_follows h n source destination
    rw [hDone] at hFollows
    obtain ⟨machine', hDone', limit, -, rfl⟩ := hFollows.of_done
    exact ⟨_, hDone', rfl⟩
  · intro n error machine hFailed hOther
    have hFollows := run_follows h n source destination
    rw [hFailed] at hFollows
    obtain ⟨machine', hFailed', limit, -, rfl⟩ := hFollows.of_failed fun _ => hOther
    exact ⟨_, hFailed', rfl⟩
  · intro n n' reached machine machine' hFailed hLeft
    -- Only runs of equally many steps are compared, so both are given the larger number.
    have hFirst : run (max n n') source (Machine.new destination limit) =
        .failed (.stackOverflow reached) machine := by
      rw [run_eq_of_le (Nat.le_max_left n n') (by simp [hFailed]), hFailed]
    have hSecond : (run (max n n') source (Machine.new destination limit')).machine? =
        some machine' := by
      rw [run_eq_of_le (Nat.le_max_right n n'), hLeft]
      intro hExhausted
      simp [hExhausted, Outcome.machine?] at hLeft
    have hFollows := run_follows h (max n n') source destination
    rw [hFirst] at hFollows
    obtain ⟨text, hText⟩ := hFollows.prints_of_roomier hSecond
    exact ⟨text, congrArg Printer.text hText⟩

end Exec

namespace Countdown

def number (n : Int) : Expr :=
  .literal (.integer n) none

def parameter : Expr :=
  .access "n" none none

/-- Prints its argument and calls itself with the number before, down to zero. -/
def down : Function :=
  ⟨"down", ["n"], ["Integer"], some "Integer",
    [.expression (.call "print" [parameter] none none),
      .conditional (.binary .equal parameter (number 0) none) [.returns (number 7)] [],
      .returns (.call "down" [.binary .subtract parameter (number 1) none] none none)], none⟩

def source : Source :=
  ⟨[], [down, ⟨"main", [], [], some "Integer", [.returns (.call "down" [number 3] none none)], none⟩]⟩

end Countdown

namespace Exec

open Countdown

theorem run_of_callLimit_le_countdown :
    (∃ machine machine' text,
      run 60 source (Machine.new .buffer 3) = .failed (.stackOverflow 3) machine ∧
      run 80 source (Machine.new .buffer 9) = .done (.integer 7) machine' ∧
      machine'.printer.text = machine.printer.text ++ text) ∧
    ∃ machine machine',
      run 80 source (Machine.new .buffer 9) = .done (.integer 7) machine ∧
      run 80 source (Machine.new .buffer 20) = .done (.integer 7) machine' ∧
      machine'.printer = machine.printer := by
  have hCut : ∃ machine, run 60 source (Machine.new .buffer 3) =
      .failed (.stackOverflow 3) machine := ⟨_, rfl⟩
  have hDone : ∃ machine, run 80 source (Machine.new .buffer 9) = .done (.integer 7) machine :=
    ⟨_, rfl⟩
  obtain ⟨machine, hCut⟩ := hCut
  obtain ⟨machine', hDone⟩ := hDone
  constructor
  · obtain ⟨text, hText⟩ := (run_of_callLimit_le (by decide : 3 ≤ 9) source .buffer).2.2 60 80 3
      machine machine' hCut (by rw [hDone]; rfl)
    exact ⟨machine, machine', text, hCut, hDone, hText⟩
  · obtain ⟨machine₂, hDone₂, hPrinter⟩ :=
      (run_of_callLimit_le (by decide : 9 ≤ 20) source .buffer).1 80 _ machine' hDone
    exact ⟨machine', machine₂, hDone, hDone₂, hPrinter⟩

end Exec

end ProcLang
