import Stacklang.Proofs.Machine.Extended
import Stacklang.Proofs.Machine.Visits

namespace Stacklang

theorem Value.good_of_forall {property : Template → Nat → Prop}
    (hall : ∀ template count, property template count) : ∀ value : Value, value.Good property
  | .integer value => .integer value
  | .boolean value => .boolean value
  | .null => .null
  | .string ref text => .string ref text
  | .array _ items => good_array.mpr fun item _ => good_of_forall hall item
  | .hash ref entries => by
      refine .hash ref rfl (forall₂_good.mpr ?_) (forall₂_good.mpr ?_)
      · intro key member
        obtain ⟨⟨hashKey, key, value⟩, hentry, rfl⟩ := List.mem_map.mp member
        exact good_of_forall hall key
      · intro value member
        obtain ⟨⟨hashKey, key, value⟩, hentry, rfl⟩ := List.mem_map.mp member
        exact good_of_forall hall value
  | .function ref _ => .function ref rfl
  | .closure _ template captured =>
      good_closure.mpr ⟨hall template captured.length, fun value _ => good_of_forall hall value⟩
  | .builtin entry => .builtin entry
  termination_by value => sizeOf value
  decreasing_by
    · have hless := List.sizeOf_lt_of_mem ‹_ ∈ items›
      simp only [array.sizeOf_spec]
      omega
    · have hless := List.sizeOf_lt_of_mem hentry
      simp only [hash.sizeOf_spec, Prod.mk.sizeOf_spec] at *
      omega
    · have hless := List.sizeOf_lt_of_mem hentry
      simp only [hash.sizeOf_spec, Prod.mk.sizeOf_spec] at *
      omega
    · have hless := List.sizeOf_lt_of_mem ‹_ ∈ captured›
      simp only [closure.sizeOf_spec]
      omega

/-- The call of a function: its callee lies below its locals, its parameters are among these, and all
of them have slots. -/
structure Frame.Seated (slots : Nat) (frame : Frame) : Prop where
  callee : 1 ≤ frame.base
  parameters : frame.template.parameters ≤ frame.template.locals
  locals : frame.base + frame.template.locals ≤ slots

namespace Machine

open Fallible Instruction

def Seats (code : Code) (slots : Nat) (frames : List Frame) : Prop :=
  ∃ inner main, frames = inner ++ [main] ∧ main.template = ⟨code, 0, 0⟩ ∧ main.base = 0 ∧
    ∀ frame ∈ inner, frame.Seated slots

/-- The invariant of machines with given limits that run any code. -/
structure Orderly (code : Code) (config : Config) (size : Nat) (machine : Machine) : Prop where
  slots : machine.stack.size = config.stackSize
  inside : machine.sp ≤ config.stackSize
  depth : machine.frames.length ≤ max 1 config.maxFrames
  seats : Seats code config.stackSize machine.frames
  globals : machine.globals.size = size
  limits : machine.config = config

section

variable {code : Code} {slots : Nat} {frame caller called : Frame} {callers frames : List Frame}

theorem Seats.goto (seats : Seats code slots (frame :: callers)) (ip : Nat) :
    Seats code slots ({ frame with ip } :: callers) := by
  obtain ⟨inner, main, hframes, hmain, hbase, hinner⟩ := seats
  cases inner with
  | nil =>
      cases hframes
      exact ⟨[], _, rfl, hmain, hbase, hinner⟩
  | cons top inner =>
      cases hframes
      obtain ⟨⟨hcallee, hparameters, hlocals⟩, hrest⟩ := List.forall_mem_cons.mp hinner
      refine ⟨{ frame with ip } :: inner, main, rfl, hmain, hbase, ?_⟩
      exact List.forall_mem_cons.mpr ⟨⟨hcallee, hparameters, hlocals⟩, hrest⟩

theorem Seats.enter (seats : Seats code slots frames) (seated : called.Seated slots) :
    Seats code slots (called :: frames) := by
  obtain ⟨inner, main, rfl, hmain, hbase, hinner⟩ := seats
  exact ⟨called :: inner, main, rfl, hmain, hbase, List.forall_mem_cons.mpr ⟨seated, hinner⟩⟩

theorem Seats.leave (seats : Seats code slots (frame :: caller :: callers)) :
    frame.Seated slots ∧ Seats code slots (caller :: callers) := by
  obtain ⟨inner, main, hframes, hmain, hbase, hinner⟩ := seats
  cases inner with
  | nil => cases hframes
  | cons top inner =>
      obtain ⟨rfl, hcallers⟩ := List.cons.inj hframes
      obtain ⟨htop, hrest⟩ := List.forall_mem_cons.mp hinner
      exact ⟨htop, inner, main, hcallers, hmain, hbase, hrest⟩

theorem Seats.calls (seats : Seats code slots (frame :: callers)) :
    Calls (fun _ _ => True) slots frame callers := by
  induction callers generalizing frame with
  | nil => trivial
  | cons caller callers induction =>
      obtain ⟨hseated, hrest⟩ := seats.leave
      exact ⟨hseated.callee, hseated.locals, trivial, induction hrest⟩

end

theorem start_orderly (bytecode : Bytecode) (pool : Nat) (globals : Array Value) (config : Config)
    (world : World) :
    (start bytecode pool globals config world).Orderly bytecode.code config
      (max globals.size config.globalsSize) := by
  refine ⟨by simp [start], Nat.zero_le _, Nat.le_max_left _ _, ?_, ?_, rfl⟩
  · exact ⟨[], _, rfl, rfl, rfl, by simp⟩
  · simp only [start, extendGlobals, Array.size_append, Array.size_replicate]
    omega

section

variable {code : Code} {config : Config} {size : Nat} {machine before after : Machine}
  {instruction : Instruction}

/-- How a step stops the run: it finds no instruction where it has to, there have been too many, or
one is to blame, and then the calls in progress are as they were. -/
inductive Quits (machine : Machine) : Stop → Machine → Prop where
  | unread (fault : Fault) : Quits machine (.fault fault) machine
  | limited {instruction : Instruction} (limit : Nat)
      (hfetch : machine.frame.template.code.fetch? machine.frame.ip = some (.ok instruction)) :
      Quits machine (.fault (.stepLimit limit)) (machine.advance instruction)
  | executing {instruction : Instruction} {stop : Stop} {after : Machine} {height : Nat}
      (hfetch : machine.frame.template.code.fetch? machine.frame.ip = some (.ok instruction))
      (hlimit : ∀ limit, machine.config.maxSteps = some limit → machine.steps < limit)
      (blame : Blame (fun _ _ => True) (machine.advance instruction) instruction stop)
      (beside : Beside (fun _ _ => True) (machine.advance instruction) height after) :
      Quits machine stop after

namespace Orderly

theorem again (orderly : machine.Orderly code config size) :
    Orderly code config size { machine with steps := 0 } :=
  ⟨orderly.slots, orderly.inside, orderly.depth, orderly.seats, orderly.globals, orderly.limits⟩

theorem advance (orderly : machine.Orderly code config size) (instruction : Instruction) :
    (machine.advance instruction).Orderly code config size :=
  ⟨orderly.slots, orderly.inside, orderly.depth, orderly.seats.goto _, orderly.globals,
    orderly.limits⟩

theorem sound (orderly : machine.Orderly code config size) : machine.Sound fun _ _ => True := by
  have hgood : ∀ value : Value, value.Good fun _ _ => True :=
    Value.good_of_forall fun _ _ => trivial
  have hinside := orderly.inside
  have hcalls := orderly.seats.calls
  rw [← orderly.slots] at hinside hcalls
  exact ⟨fun value _ => hgood value, fun value _ => hgood value, fun _ _ value _ => hgood value,
    hinside, hcalls⟩

theorem beside (orderly : before.Orderly code config size) {height : Nat}
    (beside : Beside (fun _ _ => True) before height after) : after.Orderly code config size := by
  have hslots := beside.alike.slots.trans orderly.slots
  have hframes : after.frames = before.frames := by
    rw [frames, frames, beside.frame, beside.callers]
  refine ⟨hslots, hslots ▸ beside.sound.inside, ?_, ?_, beside.alike.globals.trans orderly.globals,
    beside.alike.config.trans orderly.limits⟩
  · rw [hframes]
    exact orderly.depth
  · rw [hframes]
    exact orderly.seats

theorem moves (orderly : before.Orderly code config size)
    (moves : Moves before instruction after) : after.Orderly code config size := by
  obtain ⟨hslots, hinside, hdepth, hseats, hglobals, hlimits⟩ := orderly
  cases moves with
  | pushes value world _ _ hheight hroom =>
      exact ⟨by simpa [replaced] using hslots, hslots ▸ hroom, hdepth, hseats, hglobals, hlimits⟩
  | drops _ hheight => exact ⟨hslots, by dsimp only; omega, hdepth, hseats, hglobals, hlimits⟩
  | jumps _ hheight =>
      exact ⟨hslots, by dsimp only; omega, hdepth, hseats.goto _, hglobals, hlimits⟩
  | storesGlobal value _ hheight =>
      exact ⟨hslots, by dsimp only; omega, hdepth, hseats, by simpa using hglobals, hlimits⟩
  | storesLocal value _ hheight =>
      exact ⟨by simpa using hslots, by dsimp only; omega, hdepth, hseats, hglobals, hlimits⟩
  | @enters ref template captured callee _ hcallee _ _ hframes hroom hlocals =>
      -- The callee has been counted off the stack, so the new base lies above it.
      have hbase : before.sp - template.parameters = callee + 1 := by omega
      rw [hslots] at hroom
      rw [hlimits] at hframes
      refine ⟨hslots, ?_, ?_, hseats.enter ⟨?_, hlocals, ?_⟩, hglobals, hlimits⟩
      · dsimp only [entered]
        omega
      · exact Nat.le_trans hframes (Nat.le_max_right _ _)
      · dsimp only [entered]
        omega
      · dsimp only [entered]
        omega
  | @leaves result caller callers _ hcallers hroom =>
      rw [frames, hcallers] at hdepth hseats
      refine ⟨by simpa [replaced] using hslots, hslots ▸ hroom, ?_, hseats.leave.2, hglobals,
        hlimits⟩
      exact Nat.le_trans (Nat.le_succ _) hdepth

theorem quits (orderly : machine.Orderly code config size) {stop : Stop}
    (hstep : Machine.step.run machine = (.error stop, after)) : Quits machine stop after := by
  cases hfetch : machine.frame.template.code.fetch? machine.frame.ip with
  | none =>
      rw [step_end hfetch] at hstep
      split at hstep
      next => cases hstep
      next =>
        cases hstep
        exact .unread _
  | some decoded =>
      cases decoded with
      | error fault =>
          rw [step_undecodable hfetch] at hstep
          cases hstep
          exact .unread _
      | ok instruction =>
          have hmeets := step_meets orderly.sound hfetch (fun _ => trivial) fun _ _ _ => trivial
          rw [Meets, hstep] at hmeets
          rcases step_run hfetch with ⟨limit, -, -, hrun⟩ | ⟨hlimit, -⟩
          · rw [hstep] at hrun
            cases hrun
            exact .limited limit hfetch
          · rcases hmeets with ⟨limit, rfl, rfl⟩ | ⟨blame, height, beside⟩
            · exact .limited limit hfetch
            · exact .executing hfetch hlimit blame beside

theorem step (orderly : machine.Orderly code config size) :
    Meets Machine.step machine (fun _ after => after.Orderly code config size)
      (fun _ after => after.Orderly code config size) := by
  unfold Meets
  split
  next more after hstep =>
    cases more with
    | false =>
        rw [(step_finishes hstep).2]
        exact orderly
    | true =>
        obtain ⟨instruction, -, moves⟩ := step_moves hstep
        exact (orderly.advance instruction).moves moves
  next stop after hstep =>
    cases orderly.quits hstep with
    | unread => exact orderly
    | limited => exact orderly.advance _
    | executing _ _ _ beside => exact (orderly.advance _).beside beside

theorem visits {start : Machine} (orderly : start.Orderly code config size)
    (visits : Visits start machine) : machine.Orderly code config size :=
  visits.always orderly (fun _ => step) fun _ => again

end Orderly

/-- How high the stack is after a step that goes on. What is taken from it has been there, so that no
subtraction goes below zero. -/
inductive Counts (machine : Machine) (instruction : Instruction) (after : Machine) : Prop where
  | worked (hcallers : after.callers = machine.callers) (hpops : instruction.pops ≤ machine.sp)
      (hsp : after.sp + instruction.pops = machine.sp + instruction.pushes)
  | entered (hcallers : after.callers.length = machine.callers.length + 1)
      (hpops : instruction.pops ≤ machine.sp)
      (hbase : after.frame.base + instruction.operand 0 = machine.sp)
      (hsp : after.sp = after.frame.base + after.frame.template.locals)
  | returned (hcallers : machine.callers = after.frame :: after.callers)
      (hpops : instruction.pops ≤ machine.sp) (hcallee : 1 ≤ machine.frame.base)
      (hsp : after.sp = machine.frame.base)

theorem Orderly.counts (orderly : machine.Orderly code config size)
    (moves : Moves (machine.advance instruction) instruction after) :
    Counts machine instruction after := by
  have hsame : (machine.advance instruction).sp = machine.sp := rfl
  cases moves with
  | pushes value world _ hpushes hheight =>
      refine .worked rfl (by omega) ?_
      rw [hpushes]
      dsimp only [replaced]
      omega
  | drops hop hheight =>
      have htakes : instruction.pops = 1 ∧ instruction.pushes = 0 := by
        rcases hop with hop | hop <;> simp [pops, pushes, hop]
      exact .worked rfl (by omega) (by dsimp only; omega)
  | jumps htarget hheight =>
      have hnone : instruction.pushes = 0 := by
        obtain ⟨op, operands⟩ := instruction
        cases op <;> first | rfl | cases htarget
      exact .worked rfl (by omega) (by dsimp only; omega)
  | storesGlobal _ hop hheight | storesLocal _ hop hheight =>
      have htakes : instruction.pops = 1 ∧ instruction.pushes = 0 := by simp [pops, pushes, hop]
      exact .worked rfl (by omega) (by dsimp only; omega)
  | enters hop hcallee _ hcount =>
      have htakes : instruction.pops = instruction.operand 0 + 1 := by simp [pops, hop]
      refine .entered rfl (by omega) ?_ rfl
      dsimp only [entered]
      omega
  | leaves hresult hcallers =>
      have hpops : instruction.pops ≤ machine.sp := by
        rcases hresult with ⟨hop, -⟩ | ⟨hop, hone, -⟩
        · simp [pops, hop]
        · simp only [pops, hop]
          exact hone
      have hseats := orderly.seats
      change Seats code config.stackSize (machine.frame :: (machine.advance instruction).callers)
        at hseats
      rw [hcallers] at hseats
      have hcallee := hseats.leave.1.callee
      exact .returned hcallers hpops hcallee (Nat.sub_add_cancel hcallee)

def Overreaches (machine : Machine) : Prop :=
  ∃ instruction,
    machine.frame.template.code.fetch? machine.frame.ip = some (.ok instruction) ∧
    (∀ limit, machine.config.maxSteps = some limit → machine.steps < limit) ∧
    (instruction.op = .getLocal ∨ instruction.op = .setLocal ∧ 0 < machine.sp) ∧
    machine.stack.size ≤ machine.frame.base + instruction.operand 0

theorem execute_crashes
    (hop : instruction.op = .getLocal ∨ instruction.op = .setLocal ∧ 0 < machine.sp)
    (houtside : machine.stack.size ≤ machine.frame.base + instruction.operand 0) :
    ∃ after, (execute instruction).run machine = (.error .crash, after) := by
  obtain ⟨op, operands⟩ := instruction
  rcases hop with hop | ⟨hop, hsp⟩
  · cases hop
    refine ⟨machine, ?_⟩
    simp only [execute, getLocal, run_bind, run_get, Array.getElem?_eq_none houtside]
    rfl
  · cases hop
    obtain ⟨sp, hsp⟩ := Nat.exists_eq_succ_of_ne_zero (Nat.ne_of_gt hsp)
    have hpop : pop.run machine =
        (.ok (machine.stack.getD sp Value.null), { machine with sp }) := by
      simp only [pop, run_bind, run_get, hsp]
      rfl
    refine ⟨{ machine with sp }, ?_⟩
    simp only [execute, setLocal, run_bind, hpop, run_get, if_neg (Nat.not_lt_of_le houtside)]
    rfl

/-- The accesses to locals are the only ones that can lead out of the stack. -/
theorem Orderly.crashes_iff (orderly : machine.Orderly code config size) :
    (Machine.step.run machine).1 = .error .crash ↔ machine.Overreaches := by
  constructor
  · intro hcrash
    obtain ⟨after, hstep⟩ : ∃ after, Machine.step.run machine = (.error .crash, after) :=
      ⟨_, Prod.ext hcrash rfl⟩
    cases orderly.quits hstep with
    | @executing instruction _ _ _ hfetch hlimit blame =>
        cases blame with
        | crash hop houtside hpops =>
            refine ⟨instruction, hfetch, hlimit, hop.imp_right ?_, houtside⟩
            intro hset
            have hone : instruction.pops = 1 := by simp [pops, hset]
            rw [hone] at hpops
            exact ⟨hset, hpops⟩
  · rintro ⟨instruction, hfetch, hlimit, hop, houtside⟩
    rcases step_run hfetch with ⟨limit, hsome, hmore, -⟩ | ⟨-, hrun⟩
    · have hless := hlimit limit hsome
      omega
    · obtain ⟨after, hcrash⟩ : ∃ after,
          (execute instruction).run (machine.advance instruction) = (.error .crash, after) :=
        execute_crashes hop houtside
      rw [hrun, run_bind, hcrash]

def backed (behind : Array Value) (machine : Machine) : Machine :=
  { machine with stack := machine.stack ++ behind }

theorem Orderly.extend (orderly : machine.Orderly code config size) (behind : Array Value) :
    machine.extend ⟨behind, #[], config⟩ = machine.backed behind := by
  simp [Machine.extend, backed, ← orderly.limits]

/-- What lies behind the stack is neither read nor written. -/
theorem Orderly.step_backed (orderly : machine.Orderly code config size) (behind : Array Value)
    (hcuts : ∀ stop, (Machine.step.run machine).1 = .error stop → stop.cutsOff = false) :
    Machine.step.run (machine.backed behind) =
      ((Machine.step.run machine).1, (Machine.step.run machine).2.backed behind) := by
  have hfollows : Follows ⟨behind, #[], config⟩ machine Machine.step Machine.step := by
    apply step_follows
    · rw [orderly.slots]
      exact orderly.inside
    · exact Nat.le_of_eq (congrArg Config.maxFrames orderly.limits)
    · intro instruction hfetch limit hlimit
      rcases step_run hfetch with ⟨limit, -, -, hrun⟩ | ⟨hless, -⟩
      · rw [hrun] at hcuts
        cases hcuts _ rfl
      · rw [orderly.limits] at hless
        exact hless limit hlimit
  have hafter := orderly.step
  rw [Follows, orderly.extend] at hfollows
  unfold Meets at hfollows hafter
  cases hrun : Machine.step.run machine with
  | mk result after =>
      rw [hrun] at hfollows hafter hcuts
      cases result with
      | ok more => rw [hfollows.2, hafter.extend]
      | error stop =>
          rcases hfollows with hcut | hsame
          · rw [hcuts stop rfl] at hcut
            cases hcut
          · rw [hsame, hafter.extend]

end

/-- Whatever code a machine runs, with any limits and globals and as often as one likes, it keeps its
shape: the stack and the globals keep their sizes, the top stays inside the stack, and there are no
more calls than allowed, of functions in their slots and, below these, of the main program. A step
leads out of the stack exactly if it accesses a local without a slot. Any other step that goes on takes
only what is there, and unless it meets a limit nothing behind the stack matters to it. -/
theorem only_locals_lead_outside (bytecode : Bytecode) (pool : Nat) (globals : Array Value)
    (config : Config) (world : World) (machine : Machine)
    (visits : Visits (start bytecode pool globals config world) machine) :
    machine.Orderly bytecode.code config (max globals.size config.globalsSize) ∧
      ((step.run machine).1 = .error .crash ↔ machine.Overreaches) ∧
      (∀ after, step.run machine = (.ok true, after) → ∃ instruction,
        machine.frame.template.code.fetch? machine.frame.ip = some (.ok instruction) ∧
        Counts machine instruction after) ∧
      ∀ behind, (∀ stop, (step.run machine).1 = .error stop → stop.cutsOff = false) →
        step.run (machine.backed behind) =
          ((step.run machine).1, (step.run machine).2.backed behind) := by
  have orderly := (start_orderly bytecode pool globals config world).visits visits
  refine ⟨orderly, orderly.crashes_iff, ?_, orderly.step_backed⟩
  intro after hstep
  obtain ⟨instruction, hfetch, moves⟩ := step_moves hstep
  exact ⟨instruction, hfetch, orderly.counts moves⟩

/-- Calls a function that reads a local far above all slots. -/
def straying : Bytecode :=
  ⟨(encodeAll [⟨.closure, [0, 0]⟩, ⟨.call, [0]⟩]).toArray,
    #[.function ⟨(encodeAll [⟨.getLocal, [200]⟩, ⟨.returnValue, []⟩]).toArray, 1, 0⟩]⟩

theorem straying_leads_outside :
    ∃ machine, Visits (start straying 0 #[] ⟨4, 2, 0, none⟩ .fresh) machine ∧
      machine.frames.length = 2 ∧ machine.frame.base = 1 ∧ machine.stack.size = 4 ∧
      (step.run machine).1 = .error .crash := by
  have hvisits : Visits (start straying 0 #[] ⟨4, 2, 0, none⟩ .fresh) _ := .step (.step .start)
  obtain ⟨orderly, hcrash, -⟩ :=
    only_locals_lead_outside straying 0 #[] ⟨4, 2, 0, none⟩ .fresh _ hvisits
  refine ⟨_, hvisits, rfl, rfl, orderly.slots, hcrash.mpr ⟨⟨.getLocal, [200]⟩, ?_⟩⟩
  refine ⟨rfl, ?_, .inl rfl, ?_⟩
  · rintro limit ⟨⟩
  · decide +kernel

end Machine

end Stacklang
