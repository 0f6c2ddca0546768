import Stacklang.Proofs.Machine.Effect

namespace Stacklang.Machine

open Fallible

/-- What holds after a run of a machine that keeps an invariant with every step. -/
theorem runFor_keeps {holds done : Machine → Prop} {bad : Stop → Machine → Prop}
    (hstep : ∀ machine, holds machine → Meets step machine
      (fun more after => (more = true → holds after) ∧ (more = false → done after)) bad)
    (fuel : Nat) {machine : Machine} (hholds : holds machine) :
    match runFor fuel machine with
    | (.unfinished, after) => holds after
    | (.finished, after) => done after
    | (outcome, after) => ∃ stop, outcome = after.outcome stop ∧ bad stop after := by
  induction fuel generalizing machine with
  | zero => exact hholds
  | succ fuel ih =>
      have hmeets := hstep machine hholds
      rw [runFor]
      unfold Meets at hmeets
      cases hrun : step.run machine with
      | mk result after =>
          rw [hrun] at hmeets
          cases result with
          | error stop =>
              cases stop with
              | fault fault => exact ⟨_, rfl, hmeets⟩
              | builtinFault builtin fault => exact ⟨_, rfl, hmeets⟩
              | crash => exact ⟨_, rfl, hmeets⟩
          | ok more =>
              cases more with
              | true => exact ih (hmeets.1 rfl)
              | false => exact hmeets.2 rfl

/-- The states that a machine goes through in any number of runs, whatever ends them. -/
inductive Visits (start : Machine) : Machine → Prop where
  | start : Visits start start
  | step {machine : Machine} (visits : Visits start machine) :
      Visits start (step.run machine).2
  | again {machine : Machine} (visits : Visits start machine) :
      Visits start { machine with steps := 0 }

theorem Visits.always {holds : Machine → Prop} {start machine : Machine}
    (visits : Visits start machine) (hstart : holds start)
    (hstep : ∀ machine, holds machine →
      Meets Machine.step machine (fun _ after => holds after) fun _ after => holds after)
    (hagain : ∀ machine, holds machine → holds { machine with steps := 0 }) : holds machine := by
  induction visits with
  | start => exact hstart
  | @step machine _ induction =>
      have hmeets := hstep machine induction
      unfold Meets at hmeets
      split at hmeets
      next hrun =>
        rw [hrun]
        exact hmeets
      next hrun =>
        rw [hrun]
        exact hmeets
  | again _ induction => exact hagain _ induction

def runs (machine : Machine) (fuels : List Nat) : Machine :=
  fuels.foldl (fun machine fuel => (run fuel machine).2) machine

end Stacklang.Machine
