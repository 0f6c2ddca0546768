import Stacklang.Proofs.Machine.Effect

namespace Stacklang.Machine

open Fallible Instruction

def cut (reach : Nat) (machine : Machine) : Machine :=
  { machine with globals := machine.globals.extract 0 reach }

/-- The step does the same whether or not there are globals behind the first ones. -/
def Within {α : Type} (reach : Nat) (step : MachineM α) : Prop :=
  ∀ machine, step.run (machine.cut reach) = ((step.run machine).1, (step.run machine).2.cut reach)

section

variable {α β : Type} {reach : Nat}

theorem within_pure (value : α) : Within reach (pure value) :=
  fun _ => rfl

theorem within_throw (stop : Stop) : Within reach (throw stop : MachineM α) :=
  fun _ => rfl

theorem within_modify {change : Machine → Machine}
    (hchange : ∀ machine, change (machine.cut reach) = (change machine).cut reach) :
    Within reach (modify change) := by
  intro machine
  rw [run_modify, run_modify, hchange]

theorem Within.bind {step : MachineM α} {next : α → MachineM β} (hstep : Within reach step)
    (hnext : ∀ result, Within reach (next result)) : Within reach (step >>= next) := by
  intro machine
  rw [run_bind, run_bind, hstep machine]
  cases step.run machine with
  | mk outcome after =>
      cases outcome with
      | ok result => exact hnext result after
      | error stop => rfl

theorem within_get {next : Machine → MachineM α}
    (hsame : ∀ machine, next (machine.cut reach) = next machine)
    (hnext : ∀ machine, Within reach (next machine)) : Within reach (get >>= next) := by
  intro machine
  rw [run_bind, run_bind, run_get, run_get]
  change (next (machine.cut reach)).run (machine.cut reach) = _
  rw [hsame]
  exact hnext machine machine

theorem Within.discard {step : MachineM α} (hstep : Within reach step) :
    Within reach (Functor.discard step) := by
  intro machine
  rw [run_discard, run_discard, hstep machine]
  cases step.run machine with
  | mk outcome after => cases outcome <;> rfl

theorem push_within (value : Value) : Within reach (push value) := by
  refine within_get (fun _ => rfl) fun machine => ?_
  split
  next => exact within_modify fun _ => rfl
  next => exact within_throw _

theorem pop_within : Within reach pop := by
  refine within_get (fun _ => rfl) fun machine => ?_
  split
  next => exact within_throw _
  next => exact Within.bind (within_modify fun _ => rfl) fun _ => within_pure _

theorem takeRun_within (count : Nat) : Within reach (takeRun count) := by
  refine within_get (fun _ => rfl) fun machine => ?_
  split
  next => exact Within.bind (within_modify fun _ => rfl) fun _ => within_pure _
  next => exact within_throw _

theorem newRef_within : Within reach newRef :=
  fun _ => rfl

theorem jump_within (target : Nat) : Within reach (jump target) :=
  within_modify fun _ => rfl

theorem pop_pop_within {next : Value → Value → MachineM α}
    (hnext : ∀ right left, Within reach (next right left)) :
    Within reach (pop >>= fun right => pop >>= next right) :=
  pop_within.bind fun right => pop_within.bind (hnext right)

theorem arithmetic_within (op : Arithmetic) : Within reach (arithmetic op) := by
  refine pop_pop_within fun right left => ?_
  split
  next l r =>
    cases op.eval l r with
    | ok n => exact push_within _
    | error fault => exact within_throw _
  next =>
    split
    next => exact newRef_within.bind fun _ => push_within _
    next => exact within_throw _
  next => exact within_throw _

theorem callClosure_within (ref : Ref) (template : Template) (captured : List Value) (count : Nat) :
    Within reach (callClosure ref template captured count) := by
  refine within_get (fun _ => rfl) fun machine => ?_
  dsimp only
  split
  next => exact within_throw _
  next =>
    split
    next => exact within_throw _
    next =>
      split
      next => exact within_throw _
      next =>
        split
        next => exact within_throw _
        next => exact within_modify fun _ => rfl

theorem callBuiltin_within (builtin : Builtin) (count : Nat) :
    Within reach (callBuiltin builtin count) := by
  refine within_get (fun _ => rfl) fun machine => ?_
  dsimp only
  split
  next => exact within_throw _
  next => exact Within.bind (within_modify fun _ => rfl) fun _ => push_within _

theorem call_within (count : Nat) : Within reach (call count) := by
  refine within_get (fun _ => rfl) fun machine => ?_
  split
  next => exact within_throw _
  next =>
    split
    next => exact callClosure_within _ _ _ _
    next => exact callBuiltin_within _ _
    next => exact within_throw _

theorem leave_within (result : Value) : Within reach (leave result) := by
  refine within_get (fun _ => rfl) fun machine => ?_
  split
  next => exact within_throw _
  next => exact Within.bind (within_modify fun _ => rfl) fun _ => push_within _

theorem pushClosure_within (index count : Nat) : Within reach (pushClosure index count) := by
  refine within_get (fun _ => rfl) fun machine => ?_
  split
  next => exact within_throw _
  next =>
    exact (takeRun_within _).bind fun _ => newRef_within.bind fun _ => push_within _
  next => exact within_throw _

theorem cut_globals (machine : Machine) (index : Nat) :
    (machine.cut reach).globals[index]? =
      if index < reach then machine.globals[index]? else none := by
  rw [cut, Array.getElem?_extract, Nat.zero_add, Nat.sub_zero]
  by_cases hindex : index < reach
  · rw [if_pos hindex]
    split
    next => rfl
    next houtside => exact (Array.getElem?_eq_none (by omega)).symm
  · rw [if_neg hindex, if_neg (by omega)]

theorem getGlobal_within {index : Nat} (hindex : index < reach) :
    Within reach (getGlobal index) := by
  refine within_get (fun machine => ?_) fun machine => ?_
  · rw [cut_globals, if_pos hindex]
  · split
    next => exact within_throw _
    next => exact push_within _

theorem setGlobal_within {index : Nat} (hindex : index < reach) :
    Within reach (setGlobal index) := by
  refine pop_within.bind fun value => within_get (fun machine => ?_) fun machine => ?_
  · have hsize : index < (machine.cut reach).globals.size ↔ index < machine.globals.size := by
      simp only [cut, Array.size_extract]
      omega
    simp only [hsize]
  · split
    next =>
      refine within_modify fun machine => ?_
      have hset : (machine.globals.extract 0 reach).setIfInBounds index value =
          (machine.globals.setIfInBounds index value).extract 0 reach := by
        refine Array.ext (by simp) fun position hleft hright => ?_
        simp only [Array.size_setIfInBounds, Array.size_extract] at hleft
        rw [Array.getElem_setIfInBounds (by simpa using hleft), Array.getElem_extract,
          Array.getElem_extract, Array.getElem_setIfInBounds (by omega)]
        simp only [Nat.zero_add]
      simp only [cut, hset]
    next => exact within_throw _

theorem execute_within {instruction : Instruction}
    (hglobal : instruction.op = .getGlobal ∨ instruction.op = .setGlobal →
      instruction.operand 0 < reach) : Within reach (execute instruction) := by
  obtain ⟨op, operands⟩ := instruction
  cases op with
  | constant =>
      refine within_get (fun _ => rfl) fun machine => ?_
      split
      next => exact within_throw _
      next => exact push_within _
  | pop => exact pop_within.discard
  | add => exact arithmetic_within .add
  | sub => exact arithmetic_within .sub
  | mul => exact arithmetic_within .mul
  | div => exact arithmetic_within .div
  | pushTrue | pushFalse => exact push_within (.boolean _)
  | pushNull => exact push_within .null
  | equal | notEqual => exact pop_pop_within fun _ _ => push_within _
  | greaterThan =>
      refine pop_pop_within fun right left => ?_
      split
      next => exact push_within _
      next => exact within_throw _
  | not => exact pop_within.bind fun _ => push_within _
  | negate =>
      refine pop_within.bind fun value => ?_
      split
      next => exact push_within _
      next => exact within_throw _
  | jump => exact jump_within _
  | jumpNotTruthy =>
      refine pop_within.bind fun condition => ?_
      cases condition.isTruthy with
      | true => exact within_pure _
      | false => exact jump_within _
  | getGlobal => exact getGlobal_within (hglobal (.inl rfl))
  | setGlobal => exact setGlobal_within (hglobal (.inr rfl))
  | getLocal | getFree =>
      refine within_get (fun _ => rfl) fun machine => ?_
      split
      next => exact within_throw _
      next => exact push_within _
  | setLocal =>
      refine pop_within.bind fun value => within_get (fun _ => rfl) fun machine => ?_
      split
      next => exact within_modify fun _ => rfl
      next => exact within_throw _
  | getBuiltin =>
      simp only [execute]
      split
      next => exact within_throw _
      next => exact push_within _
  | currentClosure => exact within_get (fun _ => rfl) fun _ => push_within _
  | array => exact (takeRun_within _).bind fun _ => newRef_within.bind fun _ => push_within _
  | hash =>
      refine (takeRun_within _).bind fun run => ?_
      cases hashEntries [] run with
      | error fault => exact within_throw _
      | ok entries => exact newRef_within.bind fun _ => push_within _
  | index =>
      refine pop_pop_within fun index container => ?_
      cases lookUp container index with
      | error fault => exact within_throw _
      | ok value => exact push_within _
  | call => exact call_within _
  | returnValue => exact pop_within.bind fun value => leave_within value
  | returnNull => exact leave_within _
  | closure => exact pushClosure_within _ _

theorem fetch_within : Within reach fetch := by
  refine within_get (fun _ => rfl) fun machine => ?_
  dsimp only
  split
  next =>
    split
    next => exact within_pure _
    next => exact within_throw _
  next =>
    split
    next => exact within_throw _
    next =>
      split
      next => exact within_throw _
      next => exact (jump_within _).bind fun _ => within_pure _

theorem tick_within : Within reach tick := by
  refine Within.bind (within_modify fun _ => rfl) fun _ => within_get (fun _ => rfl) fun machine => ?_
  split
  next => exact within_pure _
  next =>
    split
    next => exact within_throw _
    next => exact within_pure _

end

theorem fetch_of_run {machine after : Machine} {fetched : Instruction}
    (hrun : fetch.run machine = (.ok (some fetched), after)) :
    ∃ instruction : Instruction, fetched = instruction.slotted ∧
      machine.frame.template.code.fetch? machine.frame.ip = some (.ok instruction) := by
  cases hfetch : machine.frame.template.code.fetch? machine.frame.ip with
  | none =>
      rw [fetch_end hfetch] at hrun
      split at hrun <;> cases hrun
  | some outcome =>
      cases outcome with
      | error fault =>
          rw [fetch_undecodable hfetch] at hrun
          cases hrun
      | ok instruction =>
          rw [fetch_run hfetch] at hrun
          cases hrun
          exact ⟨instruction, rfl, rfl⟩

theorem step_cut {reach : Nat} {machine : Machine}
    (hglobal : ∀ instruction,
      machine.frame.template.code.fetch? machine.frame.ip = some (.ok instruction) →
      instruction.op = .getGlobal ∨ instruction.op = .setGlobal → instruction.operand 0 < reach) :
    step.run (machine.cut reach) = ((step.run machine).1, (step.run machine).2.cut reach) := by
  rw [step, run_bind, run_bind, fetch_within machine]
  cases hrun : fetch.run machine with
  | mk outcome after =>
      cases outcome with
      | error stop => rfl
      | ok fetched =>
          cases fetched with
          | none => rfl
          | some fetched =>
              obtain ⟨instruction, rfl, hfetch⟩ := fetch_of_run hrun
              simp only [execute_slotted]
              exact (tick_within.bind fun _ =>
                (execute_within (hglobal instruction hfetch)).bind fun _ => within_pure _) after

end Stacklang.Machine
