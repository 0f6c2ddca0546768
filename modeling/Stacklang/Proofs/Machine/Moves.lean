import Stacklang.Proofs.Machine.Live

namespace Stacklang.Machine

open Fallible Instruction

/-- The machine `after` is what an instruction that does not stop the run makes of the machine
`before`. Which value is computed is left open, except for what a call returns. -/
inductive Moves (before : Machine) (instruction : Instruction) : Machine → Prop where
  | pushes (value : Value) (world : World) {height : Nat} (hfalls : instruction.FallsThrough)
      (hpushes : instruction.pushes = 1) (hheight : height + instruction.pops = before.sp)
      (hroom : height < before.stack.size) :
      Moves before instruction (before.replaced height value world)
  | drops {height : Nat} (hop : instruction.op = .pop ∨ instruction.op = .jumpNotTruthy)
      (hheight : height + 1 = before.sp) :
      Moves before instruction { before with sp := height }
  | jumps {height target : Nat} (htarget : instruction.target? = some target)
      (hheight : height + instruction.pops = before.sp) :
      Moves before instruction
        { before with sp := height, frame := { before.frame with ip := target } }
  | storesGlobal (value : Value) {height : Nat} (hop : instruction.op = .setGlobal)
      (hheight : height + 1 = before.sp) :
      Moves before instruction
        { before with
          sp := height
          globals := before.globals.setIfInBounds (instruction.operand 0) value }
  | storesLocal (value : Value) {height : Nat} (hop : instruction.op = .setLocal)
      (hheight : height + 1 = before.sp) :
      Moves before instruction
        { before with
          sp := height
          stack := before.stack.setIfInBounds (before.frame.base + instruction.operand 0) value }
  | enters {ref : Ref} {template : Template} {captured : List Value} {callee : Nat}
      (hop : instruction.op = .call)
      (hcallee : callee + (template.parameters + 1) = before.sp)
      (hclosure : before.stack.getD callee Value.null = .closure ref template captured)
      (hcount : instruction.operand 0 = template.parameters)
      (hframes : before.frames.length < before.config.maxFrames)
      (hroom : callee + 1 + template.locals ≤ before.stack.size)
      (hlocals : template.parameters ≤ template.locals) :
      Moves before instruction (before.entered ref template captured template.parameters)
  | leaves {result : Value} {caller : Frame} {callers : List Frame}
      (hresult : instruction.op = .returnNull ∧ result = .null ∨
        instruction.op = .returnValue ∧ 1 ≤ before.sp ∧
          result = before.stack.getD (before.sp - 1) Value.null)
      (hcallers : before.callers = caller :: callers)
      (hroom : before.frame.base - 1 < before.stack.size) :
      Moves before instruction
        ({ before with frame := caller, callers }.replaced (before.frame.base - 1) result
          before.world)

structure Rests (before after : Machine) : Prop where
  stack : after.stack = before.stack
  globals : after.globals = before.globals
  steps : after.steps = before.steps

def Makes (before : Machine) (instruction : Instruction) (step : MachineM Unit)
    (machine : Machine) : Prop :=
  Meets step machine (fun _ after => Moves before instruction after) fun _ after =>
    Rests before after

section

variable {before machine : Machine} {instruction : Instruction} {height : Nat} {world : World}

theorem get_makes {next : Machine → MachineM Unit}
    (hnext : Makes before instruction (next machine) machine) :
    Makes before instruction (get >>= next) machine :=
  .bind hnext

theorem stop_makes (stop : Stop) :
    Makes before instruction (throw stop) { before with sp := height, world } :=
  ⟨rfl, rfl, rfl⟩

theorem push_makes (value : Value) {count : Nat} (hplain : instruction.Plain count)
    (hheight : height + count = before.sp) :
    Makes before instruction (push value) { before with sp := height, world } := by
  apply get_makes
  change Makes before instruction (if _ then _ else _) _
  by_cases hroom : height < before.stack.size
  · rw [if_pos hroom]
    exact .pushes value world hplain.falls hplain.pushes (by rw [hplain.pops]; exact hheight) hroom
  · rw [if_neg hroom]
    exact stop_makes _

theorem pop_makes {next : Value → MachineM Unit}
    (hnext : ∀ lower, lower + 1 = height →
      Makes before instruction (next (before.stack.getD lower Value.null))
        { before with sp := lower, world }) :
    Makes before instruction (pop >>= next) { before with sp := height, world } := by
  apply Meets.bind
  apply Meets.bind
  cases height with
  | zero => exact ⟨rfl, rfl, rfl⟩
  | succ lower => exact hnext lower rfl

theorem takeRun_makes {next : List Value → MachineM Unit} (count : Nat)
    (hnext : ∀ values lower, lower + count = before.sp →
      Makes before instruction (next values) { before with sp := lower }) :
    Makes before instruction (takeRun count >>= next) before := by
  apply Meets.bind
  apply Meets.bind
  change Meets (if _ then _ else _) _ _ _
  by_cases henough : count ≤ before.sp
  · rw [if_pos henough]
    exact hnext _ (before.sp - count) (by omega)
  · rw [if_neg henough]
    exact ⟨rfl, rfl, rfl⟩

theorem newRef_makes {next : Ref → MachineM Unit}
    (hnext : ∀ ref world, Makes before instruction (next ref) { before with sp := height, world }) :
    Makes before instruction (newRef >>= next) { before with sp := height, world } :=
  .bind (hnext _ _)

theorem pop_pop_makes {next : Value → Value → MachineM Unit}
    (hnext : ∀ left right lower, lower + 2 = before.sp →
      Makes before instruction (next right left) { before with sp := lower }) :
    Makes before instruction (pop >>= fun right => pop >>= next right) before := by
  refine pop_makes fun middle hmiddle => pop_makes fun lower hlower => ?_
  exact hnext _ _ lower (by omega)

theorem arithmetic_makes (op : Arithmetic) (hplain : instruction.Plain 2) :
    Makes before instruction (arithmetic op) before := by
  refine pop_pop_makes fun left right lower hlower => ?_
  split
  next l r =>
    cases op.eval l r with
    | ok n => exact push_makes _ hplain hlower
    | error fault => exact stop_makes _
  next =>
    split
    next => exact newRef_makes fun ref world => push_makes _ hplain hlower
    next => exact stop_makes _
  next => exact stop_makes _

theorem compareIdentity_makes (wanted : Bool) (hplain : instruction.Plain 2) :
    Makes before instruction (compareIdentity wanted) before :=
  pop_pop_makes fun _ _ _ hlower => push_makes _ hplain hlower

theorem callClosure_makes {ref : Ref} {template : Template} {captured : List Value} {callee : Nat}
    (hop : instruction.op = .call) (hcallee : callee + (instruction.operand 0 + 1) = before.sp)
    (hclosure : before.stack.getD callee Value.null = .closure ref template captured) :
    Makes before instruction (callClosure ref template captured (instruction.operand 0)) before := by
  apply get_makes
  dsimp only
  split
  next => exact stop_makes _
  next harity =>
    split
    next => exact stop_makes _
    next hframes =>
      split
      next => exact stop_makes _
      next hroom =>
        split
        next => exact stop_makes _
        next hlocals =>
          have hcount : instruction.operand 0 = template.parameters := Classical.not_not.mp harity
          rw [hcount] at hcallee hroom ⊢
          exact .enters hop hcallee hclosure hcount (Nat.lt_of_not_le hframes) (by omega)
            (Nat.le_of_not_lt hlocals)

theorem callBuiltin_makes (operands : List Nat) (builtin : Builtin) {callee : Nat}
    (hcallee : callee + (operand ⟨.call, operands⟩ 0 + 1) = before.sp) :
    Makes before ⟨.call, operands⟩ (callBuiltin builtin (operand ⟨.call, operands⟩ 0)) before := by
  apply get_makes
  dsimp only
  split
  next => exact stop_makes _
  next result world _ =>
    have hplain : Plain ⟨.call, operands⟩ (operand ⟨.call, operands⟩ 0 + 1) := plain_op
    apply Meets.bind
    exact push_makes _ hplain (by omega)

theorem call_makes (operands : List Nat) :
    Makes before ⟨.call, operands⟩ (call (operand ⟨.call, operands⟩ 0)) before := by
  apply get_makes
  split
  next => exact stop_makes _
  next henough =>
    have hcallee : before.sp - (operand ⟨.call, operands⟩ 0 + 1) +
        (operand ⟨.call, operands⟩ 0 + 1) = before.sp := by omega
    split
    next ref template captured hclosure => exact callClosure_makes rfl hcallee hclosure
    next builtin _ => exact callBuiltin_makes operands builtin hcallee
    next => exact stop_makes _

theorem leave_makes {result : Value}
    (hresult : instruction.op = .returnNull ∧ result = .null ∨
      instruction.op = .returnValue ∧ 1 ≤ before.sp ∧
        result = before.stack.getD (before.sp - 1) Value.null) :
    Makes before instruction (leave result) { before with sp := height } := by
  apply get_makes
  dsimp only
  cases hcallers : before.callers with
  | nil => exact ⟨rfl, rfl, rfl⟩
  | cons caller callers =>
      apply Meets.bind
      apply Meets.bind
      change Meets (if _ then _ else _) _ _ _
      by_cases hroom : before.frame.base - 1 < before.stack.size
      · rw [if_pos hroom]
        exact .leaves hresult hcallers hroom
      · rw [if_neg hroom]
        exact ⟨rfl, rfl, rfl⟩

theorem setGlobal_makes (operands : List Nat) :
    Makes before ⟨.setGlobal, operands⟩ (setGlobal (operand ⟨.setGlobal, operands⟩ 0)) before := by
  refine pop_makes fun lower hlower => get_makes ?_
  split
  next => exact .storesGlobal _ rfl hlower
  next => exact stop_makes _

theorem setLocal_makes (operands : List Nat) :
    Makes before ⟨.setLocal, operands⟩ (setLocal (operand ⟨.setLocal, operands⟩ 0)) before := by
  refine pop_makes fun lower hlower => get_makes ?_
  split
  next => exact .storesLocal _ rfl hlower
  next => exact stop_makes _

theorem execute_makes (before : Machine) (instruction : Instruction) :
    Makes before instruction (execute instruction) before := by
  have hpush : ∀ {instruction : Instruction} (value : Value), instruction.Plain 0 →
      Makes before instruction (push value) before :=
    fun value hplain => push_makes value hplain rfl
  obtain ⟨op, operands⟩ := instruction
  cases op with
  | constant =>
      apply get_makes
      split
      next => exact stop_makes _
      next => exact hpush _ plain_op
  | pop =>
      apply Meets.discard
      apply Meets.bind
      cases hsp : before.sp with
      | zero =>
          simp only [Meets, run_get, hsp]
          exact ⟨rfl, rfl, rfl⟩
      | succ lower =>
          simp only [Meets, run_get, hsp]
          exact .drops (.inl rfl) hsp.symm
  | add => exact arithmetic_makes .add plain_op
  | sub => exact arithmetic_makes .sub plain_op
  | mul => exact arithmetic_makes .mul plain_op
  | div => exact arithmetic_makes .div plain_op
  | pushTrue | pushFalse => exact hpush (.boolean _) plain_op
  | pushNull => exact hpush .null plain_op
  | equal => exact compareIdentity_makes true plain_op
  | notEqual => exact compareIdentity_makes false plain_op
  | greaterThan =>
      refine pop_pop_makes fun left right lower hlower => ?_
      split
      next => exact push_makes _ plain_op hlower
      next => exact stop_makes _
  | not => exact pop_makes fun lower hlower => push_makes _ plain_op hlower
  | negate =>
      refine pop_makes fun lower hlower => ?_
      split
      next => exact push_makes _ plain_op hlower
      next => exact stop_makes _
  | jump => exact .jumps rfl rfl
  | jumpNotTruthy =>
      refine pop_makes fun lower hlower => ?_
      cases (before.stack.getD lower Value.null).isTruthy with
      | true => exact .drops (.inr rfl) hlower
      | false => exact .jumps rfl hlower
  | getGlobal | getFree =>
      apply get_makes
      split
      next => exact stop_makes _
      next => exact hpush _ plain_op
  | setGlobal => exact setGlobal_makes operands
  | getLocal =>
      apply get_makes
      split
      next => exact stop_makes _
      next => exact hpush _ plain_op
  | setLocal => exact setLocal_makes operands
  | getBuiltin =>
      simp only [execute]
      split
      next => exact stop_makes _
      next => exact hpush _ plain_op
  | currentClosure => exact get_makes (hpush _ plain_op)
  | array =>
      refine takeRun_makes _ fun values lower hlower => newRef_makes fun ref world => ?_
      exact push_makes _ plain_op hlower
  | hash =>
      refine takeRun_makes _ fun values lower hlower => ?_
      cases hashEntries [] values with
      | error fault => exact stop_makes _
      | ok entries =>
          refine newRef_makes fun ref world => ?_
          exact push_makes _ plain_op hlower
  | index =>
      refine pop_pop_makes fun container index lower hlower => ?_
      cases lookUp container index with
      | error fault => exact stop_makes _
      | ok value => exact push_makes _ plain_op hlower
  | call => exact call_makes operands
  | returnValue =>
      refine pop_makes fun lower hlower => leave_makes (.inr ⟨rfl, by omega, ?_⟩)
      rw [← hlower, Nat.add_sub_cancel]
  | returnNull => exact leave_makes (.inl ⟨rfl, rfl⟩)
  | closure =>
      apply get_makes
      split
      next => exact stop_makes _
      next =>
        refine takeRun_makes _ fun values lower hlower => newRef_makes fun ref world => ?_
        exact push_makes _ plain_op hlower
      next => exact stop_makes _

end

/-- A step goes past an instruction and makes one of its moves. If it stops the run, it has counted
its instruction, if there is one, and done nothing else to the data. -/
theorem step_makes (machine : Machine) :
    Meets step machine
      (fun more after => (more = false → after = machine) ∧ (more = true → ∃ instruction,
        machine.frame.template.code.fetch? machine.frame.ip = some (.ok instruction) ∧
        Moves (machine.advance instruction) instruction after))
      (fun _ after => Rests machine after ∨ ∃ instruction,
        machine.frame.template.code.fetch? machine.frame.ip = some (.ok instruction) ∧
        Rests (machine.advance instruction) after) := by
  refine step_meets_of ⟨fun _ => rfl, by simp⟩ (fun _ => .inl ⟨rfl, rfl, rfl⟩)
    (fun _ instruction hfetch => .inr ⟨instruction, hfetch, rfl, rfl, rfl⟩) ?_
  intro instruction hfetch
  refine (execute_makes (machine.advance instruction) instruction).mono ?_ ?_
  · exact fun _ after hmoves => ⟨by simp, fun _ => ⟨instruction, hfetch, hmoves⟩⟩
  · exact fun _ after hrests => .inr ⟨instruction, hfetch, hrests⟩

theorem step_moves {before after : Machine} (hstep : step.run before = (.ok true, after)) :
    ∃ instruction,
      before.frame.template.code.fetch? before.frame.ip = some (.ok instruction) ∧
      Moves (before.advance instruction) instruction after := by
  have hmakes := step_makes before
  rw [Meets, hstep] at hmakes
  exact hmakes.2 rfl

theorem Moves.steps {before after : Machine} {instruction : Instruction}
    (moves : Moves before instruction after) : after.steps = before.steps := by
  cases moves <;> rfl

theorem Moves.config {before after : Machine} {instruction : Instruction}
    (moves : Moves before instruction after) : after.config = before.config := by
  cases moves <;> rfl

/-- What becomes of the calls in progress: the running one goes on, or it begins another, or it
returns. -/
theorem Moves.frames {machine after : Machine} {instruction : Instruction}
    (moves : Moves (machine.advance instruction) instruction after) :
    (∃ ip, after.frames = { machine.frame with ip } :: machine.callers ∧
      (instruction.FallsThrough ∧ ip = machine.frame.ip + instruction.size ∨
        instruction.target? = some ip)) ∨
      (∃ called, called.ip = 0 ∧ instruction.op = .call ∧
        after.frames = called ::
          { machine.frame with ip := machine.frame.ip + instruction.size } :: machine.callers) ∨
      after.frames = machine.callers := by
  cases moves with
  | pushes _ _ hfalls => exact .inl ⟨_, rfl, .inl ⟨hfalls, rfl⟩⟩
  | drops hop =>
      refine .inl ⟨_, rfl, .inl ⟨?_, rfl⟩⟩
      rcases hop with hop | hop <;> simp [FallsThrough, hop]
  | storesGlobal _ hop | storesLocal _ hop =>
      exact .inl ⟨_, rfl, .inl ⟨by simp [FallsThrough, hop], rfl⟩⟩
  | jumps htarget => exact .inl ⟨_, rfl, .inr htarget⟩
  | enters hop => exact .inr (.inl ⟨_, rfl, hop, rfl⟩)
  | leaves _ hcallers => exact .inr (.inr hcallers.symm)

end Stacklang.Machine
