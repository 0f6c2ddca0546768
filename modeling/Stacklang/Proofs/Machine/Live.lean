import Stacklang.Proofs.Machine.Effect

namespace Stacklang.Machine

open Fallible Instruction

structure Stacks (machine : Machine) (values : List Value) : Prop where
  taken : machine.stack.toList.take machine.sp = values
  height : values.length = machine.sp

namespace Stacks

variable {machine : Machine} {values more : List Value}

theorem inside (hstack : machine.Stacks values) : machine.sp ≤ machine.stack.size := by
  have hlength := congrArg List.length hstack.taken
  rw [List.length_take, hstack.height, Array.length_toList] at hlength
  omega

theorem cut (hstack : machine.Stacks (values ++ more)) :
    Stacks { machine with sp := values.length } values := by
  have hheight := hstack.height
  refine ⟨?_, rfl⟩
  change machine.stack.toList.take values.length = values
  have htaken := congrArg (List.take values.length) hstack.taken
  rw [List.take_take, List.take_left] at htaken
  rwa [Nat.min_eq_left (by simp only [List.length_append] at hheight; omega)] at htaken

theorem run (hstack : machine.Stacks (values ++ more)) :
    (machine.stack.extract values.length machine.sp).toList = more := by
  rw [Array.toList_extract, List.extract_eq_take_drop, ← List.drop_take, hstack.taken]
  simp

theorem getElem? (hstack : machine.Stacks values) (slot : Nat) (hslot : slot < values.length) :
    machine.stack[slot]? = values[slot]? := by
  have hheight := hstack.height
  rw [← hstack.taken, List.getElem?_take_of_lt (by omega), Array.getElem?_toList]

theorem top {value : Value} (hstack : machine.Stacks (values ++ [value])) :
    machine.stack.getD values.length Value.null = value := by
  have hfound := hstack.getElem? values.length (by simp)
  rw [Array.getD_eq_getD_getElem?, hfound]
  simp

theorem push (hstack : machine.Stacks values) (hroom : values.length < machine.stack.size)
    (value : Value) :
    Stacks
      { machine with
        stack := machine.stack.setIfInBounds values.length value, sp := values.length + 1 }
      (values ++ [value]) := by
  have hheight := hstack.height
  refine ⟨?_, by simp⟩
  change (machine.stack.setIfInBounds values.length value).toList.take (values.length + 1) = _
  rw [Array.toList_setIfInBounds, List.take_succ_eq_append_getElem (by simpa using hroom),
    List.take_set_of_le (Nat.le_refl _)]
  have htaken := hstack.taken
  rw [← hheight] at htaken
  rw [htaken, List.getElem_set_self]

theorem set (hstack : machine.Stacks values) (slot : Nat) (value : Value) :
    Stacks { machine with stack := machine.stack.setIfInBounds slot value }
      (values.set slot value) := by
  refine ⟨?_, by rw [List.length_set]; exact hstack.height⟩
  change (machine.stack.setIfInBounds slot value).toList.take machine.sp = _
  rw [Array.toList_setIfInBounds, List.take_set, hstack.taken]

end Stacks

def replaced (machine : Machine) (height : Nat) (value : Value) (world : World) : Machine :=
  { machine with
    stack := machine.stack.setIfInBounds height value, sp := height + 1, world }

section

variable {machine : Machine} {rest values : List Value} {value : Value}

theorem push_run (hstack : machine.Stacks values) (hroom : values.length < machine.stack.size)
    (value : Value) :
    (push value).run machine = (.ok (), machine.replaced values.length value machine.world) := by
  have hheight := hstack.height
  rw [Machine.push, run_bind, run_get]
  dsimp only
  rw [if_pos (by omega), run_modify, replaced, hheight]

theorem pop_run (hstack : machine.Stacks (rest ++ [value])) :
    pop.run machine = (.ok value, { machine with sp := rest.length }) := by
  have hheight := hstack.height
  rw [List.length_append, List.length_singleton] at hheight
  rw [pop, run_bind, run_get]
  simp only [← hheight]
  rw [run_bind, run_modify]
  exact congrArg (fun value => (Except.ok value, _)) hstack.top

theorem takeRun_run (hstack : machine.Stacks (rest ++ values)) :
    (takeRun values.length).run machine = (.ok values, { machine with sp := rest.length }) := by
  have hheight := hstack.height
  rw [List.length_append] at hheight
  rw [takeRun, run_bind, run_get]
  dsimp only
  rw [if_pos (by omega), run_bind, run_modify, show machine.sp - values.length = rest.length by omega,
    hstack.run]
  rfl

theorem setLocal_run {slot : Nat} (hstack : machine.Stacks (rest ++ [value]))
    (hslot : machine.frame.base + slot < machine.stack.size) :
    (setLocal slot).run machine =
      (.ok (), { machine with
        stack := machine.stack.setIfInBounds (machine.frame.base + slot) value
        sp := rest.length }) := by
  rw [setLocal, run_bind, pop_run hstack]
  dsimp only
  rw [run_bind, run_get]
  dsimp only
  rw [if_pos hslot, run_modify]

theorem setGlobal_run {index : Nat} (hstack : machine.Stacks (rest ++ [value]))
    (hindex : index < machine.globals.size) :
    (setGlobal index).run machine =
      (.ok (), { machine with
        sp := rest.length, globals := machine.globals.setIfInBounds index value }) := by
  rw [setGlobal, run_bind, pop_run hstack]
  dsimp only
  rw [run_bind, run_get]
  dsimp only
  rw [if_pos hindex, run_modify]

/-- A call ends: its locals and its callee make room for its result. -/
theorem leave_run {caller : Frame} {callers : List Frame} {below more : List Value}
    (hstack : machine.Stacks (below ++ more)) (hbase : machine.frame.base = below.length)
    (hbelow : below ≠ []) (hcallers : machine.callers = caller :: callers) (result : Value) :
    (leave result).run machine =
      (.ok (), { machine with frame := caller, callers }.replaced below.dropLast.length result
        machine.world) := by
  have hlength : 0 < below.length := List.length_pos_iff.mpr hbelow
  have hinside := hstack.inside
  have hheight := hstack.height
  rw [List.length_append] at hheight
  have hlower : machine.frame.base - 1 = below.dropLast.length := by
    rw [hbase, List.length_dropLast]
  have hroom : below.dropLast.length < machine.stack.size := by
    rw [List.length_dropLast]
    omega
  rw [← List.dropLast_append_getLast hbelow, List.append_assoc] at hstack
  have hcut : Stacks { machine with frame := caller, callers, sp := below.dropLast.length }
      below.dropLast := ⟨hstack.cut.taken, hstack.cut.height⟩
  rw [leave, run_bind, run_get]
  simp only [hcallers]
  rw [run_bind, run_modify, hlower]
  exact push_run hcut hroom result

theorem push_cut (hstack : machine.Stacks (rest ++ values)) (hroom : rest.length < machine.stack.size)
    (value : Value) (world : World) :
    (push value).run { machine with sp := rest.length, world } =
      (.ok (), machine.replaced rest.length value world) := by
  have hcut : Stacks { machine with sp := rest.length, world } rest :=
    ⟨hstack.cut.taken, hstack.cut.height⟩
  rw [push_run hcut hroom]
  rfl

theorem popTwo_run {α : Type} {lower upper : Value}
    (hstack : machine.Stacks (rest ++ [lower, upper])) (next : Value → Value → MachineM α) :
    (do
      let right ← pop
      let left ← pop
      next left right).run machine = (next lower upper).run { machine with sp := rest.length } := by
  have hboth : machine.Stacks (rest ++ [lower] ++ [upper]) := by simpa using hstack
  rw [run_bind, pop_run hboth]
  dsimp only
  rw [run_bind, pop_run hboth.cut]

theorem newRef_run (machine : Machine) :
    newRef.run machine =
      (.ok machine.world.allocate.1, { machine with world := machine.world.allocate.2 }) := rfl

end

/-! Calls. -/

def entered (machine : Machine) (ref : Ref) (template : Template) (captured : List Value)
    (count : Nat) : Machine :=
  { machine with
    frame := ⟨ref, template, captured, 0, machine.sp - count⟩
    callers := machine.frame :: machine.callers
    sp := machine.sp - count + template.locals }

section

variable {machine : Machine} {rest arguments captured : List Value} {callee : Value} {ref : Ref}
  {template : Template}

theorem call_run (hstack : machine.Stacks (rest ++ callee :: arguments)) :
    (call arguments.length).run machine =
      (match callee with
        | .closure ref template captured => callClosure ref template captured arguments.length
        | .builtin builtin => callBuiltin builtin arguments.length
        | other => fail (.notCallable other.kind)).run machine := by
  have hheight := hstack.height
  rw [List.length_append, List.length_cons] at hheight
  have hfound : machine.stack.getD (machine.sp - (arguments.length + 1)) Value.null = callee := by
    rw [show machine.sp - (arguments.length + 1) = rest.length by omega,
      Array.getD_eq_getD_getElem?, hstack.getElem? _ (by simp)]
    simp
  rw [call, run_bind, run_get]
  dsimp only
  rewrite [if_neg (by omega), hfound]
  cases callee <;> rfl

theorem callClosure_run (hcount : arguments.length = template.parameters)
    (hframes : machine.frames.length < machine.config.maxFrames)
    (hroom : machine.sp - arguments.length + template.locals ≤ machine.stack.size)
    (hlocals : template.parameters ≤ template.locals) :
    (callClosure ref template captured arguments.length).run machine =
      (.ok (), machine.entered ref template captured arguments.length) := by
  rw [callClosure, run_bind, run_get]
  dsimp only
  rw [if_neg (by omega), if_neg (by omega), if_neg (by omega), if_neg (by omega), run_modify, entered]

theorem Stacks.entered (hstack : machine.Stacks (rest ++ callee :: arguments)) (ref : Ref)
    (template : Template) (captured : List Value)
    (hroom : rest.length + 1 + template.locals ≤ machine.stack.size)
    (hcount : arguments.length ≤ template.locals) :
    ∃ slots, (machine.entered ref template captured arguments.length).Stacks
        (rest ++ [callee] ++ slots) ∧
      slots.length = template.locals ∧ arguments <+: slots := by
  rw [List.append_cons rest] at hstack
  have hheight := hstack.height
  rw [List.length_append] at hheight
  have hlower : (rest ++ [callee]).length = rest.length + 1 := by simp
  have hbase : machine.sp - arguments.length = (rest ++ [callee]).length := by omega
  refine ⟨(machine.stack.toList.drop (rest ++ [callee]).length).take template.locals, ⟨?_, ?_⟩, ?_, ?_⟩
  · change machine.stack.toList.take (machine.sp - arguments.length + template.locals) = _
    have hcut : machine.stack.toList.take (rest ++ [callee]).length = rest ++ [callee] :=
      hstack.cut.taken
    rw [hbase, List.take_add, hcut]
  · change _ = machine.sp - arguments.length + template.locals
    simp only [List.length_append, List.length_take, List.length_drop, Array.length_toList] at *
    omega
  · rw [List.length_take, List.length_drop, Array.length_toList]
    omega
  · have hrun := hstack.run
    rw [Array.toList_extract, List.extract_eq_take_drop,
      show machine.sp - (rest ++ [callee]).length = arguments.length by omega] at hrun
    rw [← hrun]
    exact List.take_prefix_take_left hcount

end

/-- The machine `after` is in the same calls as `before`, though it may be at another point of the
running one. -/
structure Near (before after : Machine) : Prop where
  alike : Alike before after
  pool : after.pool = before.pool
  frame : after.frame = { before.frame with ip := after.frame.ip }
  callers : after.callers = before.callers

theorem Near.refl (machine : Machine) : Near machine machine :=
  ⟨.refl _, rfl, rfl, rfl⟩

theorem Near.trans {first second third : Machine} (hleft : Near first second)
    (hright : Near second third) : Near first third := by
  refine ⟨hleft.alike.trans hright.alike, hright.pool.trans hleft.pool, ?_,
    hright.callers.trans hleft.callers⟩
  rw [hright.frame, hleft.frame]

theorem near_advance (machine : Machine) (instruction : Instruction) :
    Near machine (machine.advance instruction) :=
  ⟨⟨rfl, rfl, rfl, rfl⟩, rfl, rfl, rfl⟩

theorem near_replaced (machine : Machine) (height : Nat) (value : Value) (world : World) :
    Near machine (machine.replaced height value world) :=
  ⟨⟨by simp [replaced], rfl, rfl, rfl⟩, rfl, rfl, rfl⟩

def Reaches (bound : Nat) (before after : Machine) : Prop :=
  ∃ count ≤ bound, after.steps = before.steps + count ∧
    ∀ fuel, runFor (fuel + count) before = runFor fuel after

def Fails (bound : Nat) (before : Machine) (error : RuntimeError) (after : Machine) : Prop :=
  ∃ count ≤ bound, ∀ fuel, runFor (fuel + count) before = (.failed error, after)

theorem Reaches.refl (bound : Nat) (machine : Machine) : Reaches bound machine machine :=
  ⟨0, Nat.zero_le _, rfl, fun _ => rfl⟩

theorem Reaches.trans {first second third : Machine} {bound more : Nat}
    (hleft : Reaches bound first second) (hright : Reaches more second third) :
    Reaches (bound + more) first third := by
  obtain ⟨count, hcount, hsteps, hrun⟩ := hleft
  obtain ⟨count', hcount', hsteps', hrun'⟩ := hright
  refine ⟨count + count', Nat.add_le_add hcount hcount', by omega, fun fuel => ?_⟩
  rw [Nat.add_comm count, ← Nat.add_assoc, hrun, hrun']

theorem Reaches.fails {first second third : Machine} {bound more : Nat} {error : RuntimeError}
    (hleft : Reaches bound first second) (hright : Fails more second error third) :
    Fails (bound + more) first error third := by
  obtain ⟨count, hcount, -, hrun⟩ := hleft
  obtain ⟨count', hcount', hrun'⟩ := hright
  refine ⟨count + count', Nat.add_le_add hcount hcount', fun fuel => ?_⟩
  rw [Nat.add_comm count, ← Nat.add_assoc, hrun, hrun']

theorem Reaches.mono {before after : Machine} {bound more : Nat}
    (reaches : Reaches bound before after) (hmore : bound ≤ more) : Reaches more before after := by
  obtain ⟨count, hcount, hrun⟩ := reaches
  exact ⟨count, Nat.le_trans hcount hmore, hrun⟩

theorem Fails.mono {before after : Machine} {bound more : Nat} {error : RuntimeError}
    (fails : Fails bound before error after) (hmore : bound ≤ more) :
    Fails more before error after := by
  obtain ⟨count, hcount, hrun⟩ := fails
  exact ⟨count, Nat.le_trans hcount hmore, hrun⟩

theorem Reaches.finishes {before after : Machine} {bound fuel : Nat}
    (reaches : Reaches bound before after)
    (hend : after.frame.template.code.fetch? after.frame.ip = none) (hcallers : after.callers = [])
    (hfuel : bound < fuel) : runFor fuel before = (.finished, after) := by
  obtain ⟨count, hcount, -, hrun⟩ := reaches
  have hmore := hrun (fuel - count)
  rw [Nat.sub_add_cancel (by omega), show fuel - count = fuel - count - 1 + 1 by omega] at hmore
  rw [hmore, runFor, step_end hend, hcallers]
  rfl

theorem Fails.run {before after : Machine} {bound fuel : Nat} {error : RuntimeError}
    (fails : Fails bound before error after) (hfuel : bound ≤ fuel) :
    runFor fuel before = (.failed error, after) := by
  obtain ⟨count, hcount, hrun⟩ := fails
  have hmore := hrun (fuel - count)
  rwa [Nat.sub_add_cancel (by omega)] at hmore

def maxGlobals : Nat := 65536

/-- There is room for so many more values, calls and steps, and for all globals. -/
structure Room (amount : Nat) (machine : Machine) : Prop where
  stack : machine.sp + amount ≤ machine.stack.size
  frames : machine.frames.length + amount ≤ machine.config.maxFrames
  steps : ∀ limit, machine.config.maxSteps = some limit → machine.steps + amount ≤ limit
  globals : maxGlobals ≤ machine.globals.size

theorem Room.mono {machine : Machine} {amount less : Nat} (room : machine.Room amount)
    (hless : less ≤ amount) : machine.Room less := by
  refine ⟨Nat.le_trans (Nat.add_le_add_left hless _) room.stack,
    Nat.le_trans (Nat.add_le_add_left hless _) room.frames, fun limit hlimit => ?_, room.globals⟩
  exact Nat.le_trans (Nat.add_le_add_left hless _) (room.steps limit hlimit)

theorem Room.after {before after : Machine} {amount more : Nat} (room : before.Room (amount + more))
    (reaches : Reaches amount before after) (near : Near before after)
    (hheight : after.sp ≤ before.sp + amount) : after.Room more := by
  obtain ⟨count, hcount, hsteps, -⟩ := reaches
  refine ⟨?_, ?_, fun limit hlimit => ?_, ?_⟩
  · have := room.stack
    rw [near.alike.slots]
    omega
  · have := room.frames
    simp only [Machine.frames, List.length_cons] at this ⊢
    rw [near.callers, near.alike.config]
    omega
  · rw [near.alike.config] at hlimit
    have := room.steps limit hlimit
    omega
  · rw [near.alike.globals]
    exact room.globals

theorem step_execute {machine : Machine} {instruction : Instruction} (room : machine.Room 1)
    (hfetch : machine.frame.template.code.fetch? machine.frame.ip = some (.ok instruction)) :
    step.run machine =
      (do
        execute instruction
        return true).run (machine.advance instruction) := by
  rcases step_run hfetch with ⟨limit, hlimit, hless, -⟩ | ⟨-, hrun⟩
  · have := room.steps limit hlimit
    omega
  · exact hrun

theorem reaches_execute {machine after : Machine} {instruction : Instruction}
    (room : machine.Room 1)
    (hfetch : machine.frame.template.code.fetch? machine.frame.ip = some (.ok instruction))
    (hrun : (execute instruction).run (machine.advance instruction) = (.ok (), after))
    (hsteps : after.steps = machine.steps + 1) : Reaches 1 machine after := by
  refine ⟨1, Nat.le_refl _, hsteps, fun fuel => ?_⟩
  rw [runFor, step_execute room hfetch, run_bind, hrun]
  rfl

theorem fails_execute {machine after : Machine} {instruction : Instruction} {stop : Stop}
    {error : RuntimeError} (room : machine.Room 1)
    (hfetch : machine.frame.template.code.fetch? machine.frame.ip = some (.ok instruction))
    (hrun : (execute instruction).run (machine.advance instruction) = (.error stop, after))
    (hstop : after.outcome stop = .failed error) : Fails 1 machine error after := by
  refine ⟨1, Nat.le_refl _, fun fuel => ?_⟩
  rw [runFor, step_execute room hfetch, run_bind, hrun]
  exact congrArg (·, after) hstop

end Stacklang.Machine
