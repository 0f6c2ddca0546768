import Stacklang.Proofs.Code.Stream
import Stacklang.Proofs.Machine.Moves

namespace Stacklang

/-- Whether a step has been cut off, rather than failed on its own account. -/
def Stop.cutsOff : Stop → Bool
  | .fault cause => cause.ofLimits
  | .builtinFault .. => false
  | .crash => true

namespace Machine

open Fallible Instruction

/-- What can be added to a machine: values behind its stack and its globals, and other limits. -/
structure Extension where
  stack : Array Value
  globals : Array Value
  config : Config

def extend (extension : Extension) (machine : Machine) : Machine :=
  { machine with
    stack := machine.stack ++ extension.stack
    globals := machine.globals ++ extension.globals
    config := extension.config }

variable {extension : Extension} {α β : Type}

@[simp] theorem extend_sp (machine : Machine) : (machine.extend extension).sp = machine.sp := rfl

@[simp] theorem extend_frame (machine : Machine) :
    (machine.extend extension).frame = machine.frame := rfl

@[simp] theorem extend_callers (machine : Machine) :
    (machine.extend extension).callers = machine.callers := rfl

@[simp] theorem extend_frames (machine : Machine) :
    (machine.extend extension).frames = machine.frames := rfl

@[simp] theorem extend_constants (machine : Machine) :
    (machine.extend extension).constants = machine.constants := rfl

@[simp] theorem extend_pool (machine : Machine) :
    (machine.extend extension).pool = machine.pool := rfl

@[simp] theorem extend_config (machine : Machine) :
    (machine.extend extension).config = extension.config := rfl

@[simp] theorem extend_world (machine : Machine) :
    (machine.extend extension).world = machine.world := rfl

/-- In the extended machine the step `wider` does what `step` does in the machine itself, unless that
is cut off. -/
def Follows (extension : Extension) (machine : Machine) (step wider : MachineM α) : Prop :=
  Meets step machine
    (fun result after => after.sp ≤ after.stack.size ∧
      wider.run (machine.extend extension) = (.ok result, after.extend extension))
    (fun stop after => stop.cutsOff = true ∨
      wider.run (machine.extend extension) = (.error stop, after.extend extension))

section

variable {machine : Machine} {step wider : MachineM α}

theorem follows_pure (hinside : machine.sp ≤ machine.stack.size) (value : α) :
    Follows extension machine (pure value) (pure value) :=
  ⟨hinside, rfl⟩

theorem follows_throw (stop : Stop) :
    Follows extension machine (throw stop : MachineM α) (throw stop) :=
  .inr rfl

theorem follows_cutOff {fault : Fault} (hlimit : fault.ofLimits = true) :
    Follows extension machine (fail fault) wider :=
  .inl hlimit

theorem follows_modify {change widerChange : Machine → Machine}
    (hinside : (change machine).sp ≤ (change machine).stack.size)
    (hchange : widerChange (machine.extend extension) = (change machine).extend extension) :
    Follows extension machine (modify change) (modify widerChange) := by
  refine ⟨hinside, ?_⟩
  rw [run_modify, hchange]

theorem Follows.bind {next widerNext : α → MachineM β}
    (follows : Follows extension machine step wider)
    (hnext : ∀ result after, after.sp ≤ after.stack.size →
      Follows extension after (next result) (widerNext result)) :
    Follows extension machine (step >>= next) (wider >>= widerNext) := by
  unfold Follows Meets at follows ⊢
  rw [run_bind, run_bind]
  cases hrun : step.run machine with
  | mk outcome after =>
      rw [hrun] at follows
      cases outcome with
      | ok result =>
          obtain ⟨hinside, hwider⟩ := follows
          rw [hwider]
          exact hnext result after hinside
      | error stop =>
          apply follows.imp_right
          intro hwider
          rw [hwider]

theorem Follows.changed {change widerChange : Machine → Machine}
    (follows : Follows extension (change machine) step wider)
    (hchange : widerChange (machine.extend extension) = (change machine).extend extension) :
    Follows extension machine (modify change >>= fun _ => step)
      (modify widerChange >>= fun _ => wider) := by
  unfold Follows Meets at follows ⊢
  rw [run_bind, run_bind, run_modify, run_modify, hchange]
  exact follows

theorem follows_get {next widerNext : Machine → MachineM α}
    (follows : Follows extension machine (next machine) (widerNext (machine.extend extension))) :
    Follows extension machine (get >>= next) (get >>= widerNext) := by
  unfold Follows Meets at follows ⊢
  rw [run_bind, run_bind]
  exact follows

theorem Follows.discard (follows : Follows extension machine step wider) :
    Follows extension machine (Functor.discard step) (Functor.discard wider) := by
  unfold Follows Meets at follows ⊢
  rw [run_discard, run_discard]
  cases hrun : step.run machine with
  | mk outcome after =>
      rw [hrun] at follows
      cases outcome with
      | ok result =>
          refine ⟨follows.1, ?_⟩
          rw [follows.2]
      | error stop =>
          apply follows.imp_right
          intro hwider
          rw [hwider]

end

/-! The values that are added stand behind the others. -/

theorem extend_slot (machine : Machine) {slot : Nat} (hslot : slot < machine.stack.size) :
    (machine.extend extension).stack.getD slot Value.null = machine.stack.getD slot Value.null := by
  rw [Array.getD_eq_getD_getElem?, Array.getD_eq_getD_getElem?]
  exact congrArg (·.getD Value.null) (Array.getElem?_append_left hslot)

theorem extend_run (machine : Machine) (first : Nat) {last : Nat}
    (hlast : last ≤ machine.stack.size) :
    (machine.extend extension).stack.extract first last = machine.stack.extract first last := by
  have hnone : last - machine.stack.size = 0 := by omega
  change (machine.stack ++ extension.stack).extract first last = _
  rw [Array.extract_append, hnone]
  simp

theorem extend_size (extension : Extension) (machine : Machine) :
    machine.stack.size ≤ (machine.extend extension).stack.size := by
  simp [extend]

section

variable {machine : Machine}

theorem push_follows (value : Value) :
    Follows extension machine (push value) (push value) := by
  apply follows_get
  change Follows extension machine (if _ then _ else _) (if _ then _ else _)
  by_cases hroom : machine.sp < machine.stack.size
  · have hmore : (machine.extend extension).sp < (machine.extend extension).stack.size :=
      Nat.lt_of_lt_of_le hroom (extend_size extension machine)
    rw [if_pos hroom, if_pos hmore]
    apply follows_modify
    · simpa [Nat.succ_le_iff] using hroom
    · simp only [extend, Array.setIfInBounds_append_left hroom]
  · rw [if_neg hroom]
    exact follows_cutOff rfl

variable (hinside : machine.sp ≤ machine.stack.size)

include hinside

theorem pop_follows : Follows extension machine pop pop := by
  apply follows_get
  rw [extend_sp]
  split
  next => exact follows_throw _
  next sp hsp =>
    have hslot : sp < machine.stack.size := by omega
    rw [extend_slot machine hslot]
    apply Follows.bind
    · exact follows_modify (Nat.le_of_lt hslot) rfl
    · exact fun _ after hafter => follows_pure hafter _

theorem takeRun_follows (count : Nat) :
    Follows extension machine (takeRun count) (takeRun count) := by
  apply follows_get
  rw [extend_sp, extend_run machine _ hinside]
  split
  next =>
    apply Follows.bind
    · exact follows_modify (by dsimp only; omega) rfl
    · exact fun _ after hafter => follows_pure hafter _
  next => exact follows_throw _

theorem pop_pop_follows {next : Value → Value → MachineM α}
    (hnext : ∀ right left after, after.sp ≤ after.stack.size →
      Follows extension after (next right left) (next right left)) :
    Follows extension machine (pop >>= fun right => pop >>= next right)
      (pop >>= fun right => pop >>= next right) := by
  apply (pop_follows hinside).bind
  intro right middle hmiddle
  exact (pop_follows hmiddle).bind (hnext right)

theorem newRef_follows : Follows extension machine newRef newRef :=
  ⟨hinside, rfl⟩

theorem jump_follows (target : Nat) :
    Follows extension machine (jump target) (jump target) :=
  follows_modify hinside rfl

theorem newRef_push_follows (value : Ref → Value) :
    Follows extension machine (newRef >>= fun ref => push (value ref))
      (newRef >>= fun ref => push (value ref)) := by
  apply (newRef_follows hinside).bind
  intro ref _ _
  exact push_follows (value ref)

theorem arithmetic_follows (op : Arithmetic) :
    Follows extension machine (arithmetic op) (arithmetic op) := by
  apply pop_pop_follows hinside
  intro right left after hafter
  split
  next l r =>
    cases op.eval l r with
    | ok n => exact push_follows _
    | error fault => exact follows_throw _
  next =>
    split
    next => exact newRef_push_follows hafter _
    next => exact follows_throw _
  next => exact follows_throw _

omit hinside in
theorem callClosure_follows (hframes : machine.config.maxFrames ≤ extension.config.maxFrames)
    (ref : Ref) (template : Template) (captured : List Value) (count : Nat) :
    Follows extension machine (callClosure ref template captured count)
      (callClosure ref template captured count) := by
  apply follows_get
  dsimp only
  split
  next => exact follows_throw _
  next harity =>
    split
    next => exact follows_cutOff rfl
    next hdepth =>
      split
      next => exact follows_cutOff rfl
      next hroom =>
        have hsize := extend_size extension machine
        have hdepth' : ¬ machine.frames.length ≥ extension.config.maxFrames := by omega
        have hroom' : ¬ machine.sp - count + template.locals >
            (machine.extend extension).stack.size := by omega
        rw [extend_frames, extend_config, extend_sp, if_neg hdepth', if_neg hroom']
        split
        next => exact follows_throw _
        next => exact follows_modify (Nat.le_of_not_lt hroom) rfl

theorem callBuiltin_follows (builtin : Builtin) (count : Nat) :
    Follows extension machine (callBuiltin builtin count) (callBuiltin builtin count) := by
  apply follows_get
  dsimp only
  rw [extend_sp, extend_world, extend_run machine _ hinside]
  split
  next => exact follows_throw _
  next => exact (push_follows _).changed rfl

theorem call_follows (hframes : machine.config.maxFrames ≤ extension.config.maxFrames)
    (count : Nat) : Follows extension machine (call count) (call count) := by
  apply follows_get
  rw [extend_sp]
  split
  next => exact follows_throw _
  next henough =>
    rw [extend_slot machine (show machine.sp - (count + 1) < _ by omega)]
    split
    next => exact callClosure_follows hframes _ _ _ _
    next => exact callBuiltin_follows hinside _ _
    next => exact follows_throw _

omit hinside in
theorem leave_follows (result : Value) :
    Follows extension machine (leave result) (leave result) := by
  apply follows_get
  rw [extend_callers]
  split
  next => exact follows_throw _
  -- The frame may lie anywhere: if its callee has no slot, pushing the result is cut off.
  next => exact (push_follows result).changed rfl

theorem pushClosure_follows (index count : Nat) :
    Follows extension machine (pushClosure index count) (pushClosure index count) := by
  apply follows_get
  rw [extend_constants, extend_pool]
  split
  next => exact follows_throw _
  next =>
    apply (takeRun_follows hinside count).bind
    exact fun _ after hafter => newRef_push_follows hafter _
  next => exact follows_throw _

omit hinside in
theorem getLocal_follows (slot : Nat) :
    Follows extension machine (getLocal slot) (getLocal slot) := by
  apply follows_get
  rw [extend_frame]
  split
  next => exact .inl rfl
  next value hvalue =>
    have hslot := (Array.getElem?_eq_some_iff.mp hvalue).1
    have hvalue' : (machine.extend extension).stack[machine.frame.base + slot]? = some value :=
      (Array.getElem?_append_left hslot).trans hvalue
    rw [hvalue']
    exact push_follows value

theorem setLocal_follows (slot : Nat) :
    Follows extension machine (setLocal slot) (setLocal slot) := by
  apply (pop_follows hinside).bind
  intro value after hafter
  apply follows_get
  rw [extend_frame]
  split
  next hslot =>
    have hsize := extend_size extension after
    rw [if_pos (Nat.lt_of_lt_of_le hslot hsize)]
    apply follows_modify
    · simpa using hafter
    · simp only [extend, Array.setIfInBounds_append_left hslot]
  next => exact .inl rfl

omit hinside in
theorem getGlobal_follows (index : Nat) :
    Follows extension machine (getGlobal index) (getGlobal index) := by
  apply follows_get
  split
  next => exact follows_cutOff rfl
  next value hvalue =>
    have hindex := (Array.getElem?_eq_some_iff.mp hvalue).1
    have hvalue' : (machine.extend extension).globals[index]? = some value :=
      (Array.getElem?_append_left hindex).trans hvalue
    rw [hvalue']
    exact push_follows value

theorem setGlobal_follows (index : Nat) :
    Follows extension machine (setGlobal index) (setGlobal index) := by
  apply (pop_follows hinside).bind
  intro value after hafter
  apply follows_get
  split
  next hindex =>
    have hsize : after.globals.size ≤ (after.extend extension).globals.size := by simp [extend]
    rw [if_pos (Nat.lt_of_lt_of_le hindex hsize)]
    apply follows_modify
    · exact hafter
    · simp only [extend, Array.setIfInBounds_append_left hindex]
  next => exact follows_cutOff rfl

theorem execute_follows (hframes : machine.config.maxFrames ≤ extension.config.maxFrames)
    (instruction : Instruction) :
    Follows extension machine (execute instruction) (execute instruction) := by
  obtain ⟨op, operands⟩ := instruction
  cases op with
  | constant =>
      apply follows_get
      rw [extend_constants, extend_pool]
      split
      next => exact follows_throw _
      next => exact push_follows _
  | pop => exact (pop_follows hinside).discard
  | add => exact arithmetic_follows hinside .add
  | sub => exact arithmetic_follows hinside .sub
  | mul => exact arithmetic_follows hinside .mul
  | div => exact arithmetic_follows hinside .div
  | pushTrue | pushFalse => exact push_follows (.boolean _)
  | pushNull => exact push_follows .null
  | equal | notEqual => exact pop_pop_follows hinside fun _ _ _ _ => push_follows _
  | greaterThan =>
      apply pop_pop_follows hinside
      intro right left after _
      split
      next => exact push_follows _
      next => exact follows_throw _
  | not => exact (pop_follows hinside).bind fun _ _ _ => push_follows _
  | negate =>
      apply (pop_follows hinside).bind
      intro value after _
      split
      next => exact push_follows _
      next => exact follows_throw _
  | jump => exact jump_follows hinside _
  | jumpNotTruthy =>
      apply (pop_follows hinside).bind
      intro condition after hafter
      cases condition.isTruthy with
      | true => exact follows_pure hafter _
      | false => exact jump_follows hafter _
  | getGlobal => exact getGlobal_follows _
  | setGlobal => exact setGlobal_follows hinside _
  | getLocal => exact getLocal_follows _
  | setLocal => exact setLocal_follows hinside _
  | getFree =>
      apply follows_get
      rw [extend_frame]
      split
      next => exact follows_throw _
      next => exact push_follows _
  | getBuiltin =>
      simp only [execute]
      split
      next => exact follows_throw _
      next => exact push_follows _
  | currentClosure =>
      apply follows_get
      exact push_follows _
  | array =>
      apply (takeRun_follows hinside _).bind
      exact fun _ after hafter => newRef_push_follows hafter _
  | hash =>
      apply (takeRun_follows hinside _).bind
      intro run after hafter
      cases hashEntries [] run with
      | error fault => exact follows_throw _
      | ok entries => exact newRef_push_follows hafter _
  | index =>
      apply pop_pop_follows hinside
      intro index container after _
      cases lookUp container index with
      | error fault => exact follows_throw _
      | ok value => exact push_follows _
  | call => exact call_follows hinside hframes _
  | returnValue => exact (pop_follows hinside).bind fun value _ _ => leave_follows value
  | returnNull => exact leave_follows _
  | closure => exact pushClosure_follows hinside _ _

theorem step_follows (hframes : machine.config.maxFrames ≤ extension.config.maxFrames)
    (hsteps : ∀ instruction,
      machine.frame.template.code.fetch? machine.frame.ip = some (.ok instruction) →
      ∀ limit, extension.config.maxSteps = some limit → machine.steps < limit) :
    Follows extension machine step step := by
  unfold Follows Meets
  have hfetched : ∀ {found}, machine.frame.template.code.fetch? machine.frame.ip = found →
      (machine.extend extension).frame.template.code.fetch? (machine.extend extension).frame.ip =
        found := fun hfound => hfound
  cases hfetch : machine.frame.template.code.fetch? machine.frame.ip with
  | none =>
      rw [step_end hfetch, step_end (hfetched hfetch), extend_callers]
      cases machine.callers.isEmpty with
      | true => exact ⟨hinside, rfl⟩
      | false => exact .inr rfl
  | some decoded =>
      cases decoded with
      | error fault =>
          rw [step_undecodable hfetch, step_undecodable (hfetched hfetch)]
          exact .inr rfl
      | ok instruction =>
          rcases step_run hfetch with ⟨limit, -, -, hrun⟩ | ⟨-, hrun⟩
          · rw [hrun]
            exact .inl rfl
          rcases step_run (hfetched hfetch) with ⟨limit, hlimit, hmore, -⟩ | ⟨-, hrun'⟩
          · have hless := hsteps instruction hfetch limit hlimit
            exact absurd hmore (Nat.not_lt_of_le hless)
          rw [hrun, hrun']
          have hinside' : (machine.advance instruction).sp ≤
              (machine.advance instruction).stack.size := hinside
          have hexecute : Follows extension _ _ _ := execute_follows hinside' hframes instruction
          exact hexecute.bind fun _ after hafter => follows_pure hafter true

end

theorem step_finishes {machine after : Machine} (hstep : step.run machine = (.ok false, after)) :
    machine.frame.template.code.fetch? machine.frame.ip = none ∧ after = machine := by
  cases hfetch : machine.frame.template.code.fetch? machine.frame.ip with
  | none =>
      rw [step_end hfetch] at hstep
      exact ⟨rfl, (congrArg Prod.snd hstep).symm⟩
  | some decoded =>
      exfalso
      cases decoded with
      | error fault =>
          rw [step_undecodable hfetch] at hstep
          cases hstep
      | ok instruction =>
          rcases step_run hfetch with ⟨limit, -, -, hrun⟩ | ⟨-, hrun⟩
          · rw [hrun] at hstep
            cases hstep
          · rw [hrun, run_bind] at hstep
            split at hstep <;> cases hstep

theorem steps_le_of_runFor {fuel : Nat} {machine after : Machine}
    (hrun : runFor fuel machine = (.finished, after)) : machine.steps ≤ after.steps := by
  induction fuel generalizing machine with
  | zero => cases hrun
  | succ fuel induction =>
      rw [runFor] at hrun
      split at hrun
      next middle hstep =>
        obtain ⟨instruction, -, moves⟩ := step_moves hstep
        have hmore : middle.steps = machine.steps + 1 := moves.steps
        have hrest := induction hrun
        omega
      next hstep =>
        cases hrun
        exact Nat.le_of_eq (congrArg Machine.steps (step_finishes hstep).2).symm
      next stop _ _ => cases stop <;> cases hrun

/-- A run that finishes does so in an extended machine too, if there are as many steps to take. -/
theorem runFor_extend {fuel : Nat} {machine after : Machine}
    (hinside : machine.sp ≤ machine.stack.size)
    (hframes : machine.config.maxFrames ≤ extension.config.maxFrames)
    (hrun : runFor fuel machine = (.finished, after))
    (hsteps : ∀ limit, extension.config.maxSteps = some limit → after.steps ≤ limit) :
    after.sp ≤ after.stack.size ∧
      runFor fuel (machine.extend extension) = (.finished, after.extend extension) := by
  induction fuel generalizing machine with
  | zero => cases hrun
  | succ fuel induction =>
      rw [runFor] at hrun ⊢
      split at hrun
      next middle hstep =>
        obtain ⟨instruction, -, moves⟩ := step_moves hstep
        have hmore : middle.steps = machine.steps + 1 := moves.steps
        have hconfig : middle.config = machine.config := moves.config
        have hrest := steps_le_of_runFor hrun
        have hfollows : Follows extension machine step step :=
          step_follows hinside hframes fun _ _ limit hlimit => by
            have := hsteps limit hlimit
            omega
        rw [Follows, Meets, hstep] at hfollows
        rw [hfollows.2]
        exact induction hfollows.1 (hconfig ▸ hframes) hrun
      next hstep =>
        cases hrun
        have hfollows : Follows extension machine step step :=
          step_follows hinside hframes fun _ hfetch => by
            rw [(step_finishes hstep).1] at hfetch
            cases hfetch
        rw [Follows, Meets, hstep] at hfollows
        rw [hfollows.2]
        exact ⟨hfollows.1, rfl⟩
      next stop _ _ => cases stop <;> cases hrun

theorem extend_lastPopped {machine : Machine} (hinside : machine.sp ≤ machine.stack.size)
    (hnull : ∀ value ∈ extension.stack, value = Value.null) :
    (machine.extend extension).lastPopped = machine.lastPopped := by
  rcases Nat.lt_or_eq_of_le hinside with hless | hfull
  · exact extend_slot machine hless
  · have hnothing : machine.stack[machine.sp]? = none := Array.getElem?_eq_none (by omega)
    have hadded : (machine.extend extension).stack[machine.sp]? = extension.stack[0]? := by
      have hbehind : (machine.stack ++ extension.stack)[machine.sp]? =
          extension.stack[machine.sp - machine.stack.size]? :=
        Array.getElem?_append_right (Nat.le_of_eq hfull.symm)
      rwa [hfull, Nat.sub_self, ← hfull] at hbehind
    rw [lastPopped, lastPopped, Array.getD_eq_getD_getElem?, Array.getD_eq_getD_getElem?, extend_sp,
      hnothing, hadded]
    cases hfirst : extension.stack[0]? with
    | none => rfl
    | some value => exact hnull value (Array.mem_of_getElem? hfirst)

def Extension.ofLimits (globals : Array Value) (config larger : Config) : Extension where
  stack := Array.replicate (larger.stackSize - config.stackSize) Value.null
  globals := Array.replicate
    (larger.globalsSize - globals.size - (config.globalsSize - globals.size)) Value.null
  config := larger

theorem start_extend (bytecode : Bytecode) (pool : Nat) (globals : Array Value)
    {config larger : Config} (world : World) (hstack : config.stackSize ≤ larger.stackSize)
    (hglobals : config.globalsSize ≤ larger.globalsSize) :
    start bytecode pool globals larger world =
      (start bytecode pool globals config world).extend (.ofLimits globals config larger) := by
  have hslots : larger.stackSize =
      config.stackSize + (larger.stackSize - config.stackSize) := by omega
  have hmore : larger.globalsSize - globals.size = config.globalsSize - globals.size +
      (larger.globalsSize - globals.size - (config.globalsSize - globals.size)) := by omega
  simp only [start, extend, Extension.ofLimits, extendGlobals, Array.append_assoc,
    Array.replicate_append_replicate, ← hslots, ← hmore]

/-- Larger limits do not change the answer of a run that has finished: stack, globals and all that has
been printed and made are the same, and there are nulls where there is more room. -/
theorem larger_limits_keep_answer (bytecode : Bytecode) (pool : Nat) (globals : Array Value)
    (config larger : Config) (world : World) (hstack : config.stackSize ≤ larger.stackSize)
    (hframes : config.maxFrames ≤ larger.maxFrames)
    (hglobals : config.globalsSize ≤ larger.globalsSize) (fuel : Nat) (after : Machine)
    (hrun : run fuel (start bytecode pool globals config world) = (.finished, after))
    (hsteps : ∀ limit, larger.maxSteps = some limit → after.steps ≤ limit) :
    ∃ later, run fuel (start bytecode pool globals larger world) = (.finished, later) ∧
      later.sp = after.sp ∧
      (∀ slot < after.sp, later.stack[slot]? = after.stack[slot]?) ∧
      later.lastPopped = after.lastPopped ∧
      later.world = after.world ∧
      (∀ index < after.globals.size, later.globals[index]? = after.globals[index]?) ∧
      ∀ index value, after.globals.size ≤ index → later.globals[index]? = some value →
        value = .null := by
  let extension := Extension.ofLimits globals config larger
  have hinside : (start bytecode pool globals config world).sp ≤
      (start bytecode pool globals config world).stack.size := Nat.zero_le _
  obtain ⟨hinside, hwider⟩ : _ ∧ runFor fuel (extend extension _) = _ :=
    runFor_extend hinside hframes hrun hsteps
  rw [start_extend bytecode pool globals world hstack hglobals]
  refine ⟨after.extend extension, hwider, rfl, ?_, ?_, rfl, ?_, ?_⟩
  · intro slot hslot
    exact Array.getElem?_append_left (by omega)
  · apply extend_lastPopped hinside
    intro value member
    exact (Array.mem_replicate.mp member).2
  · intro index hindex
    exact Array.getElem?_append_left hindex
  · intro index value hindex hvalue
    have hadded : (after.extend extension).globals[index]? =
        extension.globals[index - after.globals.size]? := Array.getElem?_append_right hindex
    rw [hadded] at hvalue
    exact (Array.mem_replicate.mp (Array.mem_of_getElem? hvalue)).2

/-- Calls a function that returns its argument, and keeps the result in a global. -/
def returning : Bytecode :=
  ⟨(encodeAll [⟨.closure, [0, 0]⟩, ⟨.constant, [1]⟩, ⟨.call, [1]⟩, ⟨.setGlobal, [0]⟩,
      ⟨.getGlobal, [0]⟩, ⟨.pop, []⟩]).toArray,
    #[.function ⟨(encodeAll [⟨.getLocal, [0]⟩, ⟨.returnValue, []⟩]).toArray, 1, 1⟩, .integer 7]⟩

theorem larger_limits_keep_returning :
    ∃ after, run 9 (start returning 0 #[] ⟨3, 2, 1, some 8⟩ .fresh) = (.finished, after) ∧
      after.steps = 8 ∧ after.lastPopped = .integer 7 ∧
      ∃ later, run 9 (start returning 0 #[] ⟨40, 5, 6, some 8⟩ .fresh) = (.finished, later) ∧
        later.lastPopped = .integer 7 := by
  have hfinished : (run 9 (start returning 0 #[] ⟨3, 2, 1, some 8⟩ .fresh)).1 = .finished := by
    decide +kernel
  have hsteps : (run 9 (start returning 0 #[] ⟨3, 2, 1, some 8⟩ .fresh)).2.steps = 8 := by
    decide +kernel
  have hlast : (run 9 (start returning 0 #[] ⟨3, 2, 1, some 8⟩ .fresh)).2.lastPopped =
      .integer 7 := by
    rfl
  refine ⟨_, Prod.ext hfinished rfl, hsteps, hlast, ?_⟩
  obtain ⟨later, hrun, -, -, hsame, -⟩ := larger_limits_keep_answer returning 0 #[] ⟨3, 2, 1, some 8⟩
    ⟨40, 5, 6, some 8⟩ .fresh (by decide) (by decide) (by decide) 9 _ (Prod.ext hfinished rfl)
    (by
      rintro _ ⟨⟩
      exact Nat.le_of_eq hsteps)
  exact ⟨later, hrun, hsame.trans hlast⟩

end Machine

end Stacklang
