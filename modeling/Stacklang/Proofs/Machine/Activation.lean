import Stacklang.Proofs.Compile.Functions
import Stacklang.Proofs.Compile.Ready
import Stacklang.Proofs.Machine.Everywhere
import Stacklang.Proofs.Machine.Moves
import Stacklang.Proofs.Machine.Verified

namespace Stacklang

def Instruction.stores (instruction : Instruction) : List Nat :=
  if instruction.op = .setLocal then [instruction.operand 0] else []

theorem Ready.pops_le {constants : Array Constant} {shape : Shape} {ip height : Nat}
    {instruction : Instruction} (ready : Ready constants shape ip height)
    (hfetch : shape.code.fetch? ip = some (.ok instruction)) : instruction.pops ≤ height := by
  cases ready with
  | done _ hend =>
      rw [hend] at hfetch
      simp [Code.fetch?] at hfetch
  | next hfetch' =>
      rw [hfetch'] at hfetch
      cases hfetch
      exact Nat.le_add_left _ _
  | jump hfetch' =>
      rw [hfetch'] at hfetch
      cases hfetch
      exact Nat.zero_le _
  | leave _ hfetch' =>
      rw [hfetch'] at hfetch
      cases hfetch
      exact Nat.le_add_left _ _

namespace Machine

open Fallible Instruction

def stores (machine : Machine) : List Nat :=
  match machine.frame.template.code.fetch? machine.frame.ip with
  | some (.ok instruction) => instruction.stores
  | _ => []

/-- The states of the call that a machine begins with its next step, until it returns, each with the
locals that have got a value in this call: the arguments, and those that it has stored. -/
inductive Activation (caller : Machine) : List Nat → Machine → Prop where
  | entered {machine : Machine} (hstep : step.run caller = (.ok true, machine))
      (hdeeper : machine.callers.length = caller.callers.length + 1) :
      Activation caller (List.range machine.frame.template.parameters) machine
  | own {written : List Nat} {before after : Machine}
      (activation : Activation caller written before)
      (hown : before.callers.length = caller.callers.length + 1)
      (hstep : step.run before = (.ok true, after))
      (hdeeper : caller.callers.length < after.callers.length) :
      Activation caller (before.stores ++ written) after
  | inner {written : List Nat} {before after : Machine}
      (activation : Activation caller written before)
      (hinner : caller.callers.length + 1 < before.callers.length)
      (hstep : step.run before = (.ok true, after)) :
      Activation caller written after

theorem Activation.passes {start caller machine : Machine} {written : List Nat}
    (activation : Activation caller written machine) (hcaller : Passes start caller) :
    Passes start machine := by
  induction activation with
  | entered hstep => exact hcaller.step hstep
  | own _ _ hstep _ ih | inner _ _ hstep ih => exact ih.step hstep

theorem Typed.passes {start machine : Machine} (typed : start.Typed)
    (passes : Passes start machine) : machine.Typed := by
  induction passes with
  | start => exact typed
  | step _ hstep ih =>
      have hmeets := ih.step
      rw [Meets, hstep] at hmeets
      exact hmeets.2.1

theorem Typed.pops {machine : Machine} {instruction : Instruction} (typed : machine.Typed)
    (hfetch : machine.frame.template.code.fetch? machine.frame.ip = some (.ok instruction)) :
    floor machine.frame machine.callers + instruction.pops ≤ machine.sp := by
  have habove := typed.runs.goes.above
  have hpops := typed.runs.goes.ready.pops_le (by rw [shape_code]; exact hfetch)
  omega

/-- The stack reaches above the locals of every call in progress, and a call above it has its own
further up. -/
theorem Runs.above {constants : Array Constant} {sp : Nat} {frame called : Frame}
    {callers inner rest : List Frame} (runs : Runs constants sp frame callers)
    (hframes : frame :: callers = inner ++ called :: rest) (hrest : rest ≠ []) :
    called.base + called.template.locals ≤ sp ∧ called.base ≤ frame.base := by
  induction inner generalizing sp frame callers with
  | nil =>
      obtain ⟨rfl, rfl⟩ := List.cons.inj hframes
      have habove := runs.goes.above
      cases callers with
      | nil => exact absurd rfl hrest
      | cons caller callers => exact ⟨habove, Nat.le_refl _⟩
  | cons first inner ih =>
      obtain ⟨rfl, hcallers⟩ := List.cons.inj hframes
      cases callers with
      | nil => simp at hcallers
      | cons caller callers =>
          obtain ⟨goes, hruns⟩ := runs
          obtain ⟨hlocals, -⟩ := ih hruns hcallers
          have habove := goes.above
          simp only [floor] at habove
          omega

theorem step_depth {before after : Machine} (hstep : step.run before = (.ok true, after)) :
    before.callers.length ≤ after.callers.length + 1 ∧
      after.callers.length ≤ before.callers.length + 1 := by
  obtain ⟨instruction, -, moves⟩ := step_moves hstep
  have hlength : after.callers.length + 1 = after.frames.length := rfl
  rcases moves.frames with ⟨ip, hframes, -⟩ | ⟨called, -, -, hframes⟩ | hframes <;>
    simp only [hframes, List.length_cons] at hlength <;> omega

theorem Moves.waiting {machine after : Machine} {instruction : Instruction} {top frame : Frame}
    {inner rest : List Frame} (moves : Moves (machine.advance instruction) instruction after)
    (hframes : machine.frames = top :: inner ++ frame :: rest) :
    ∃ inner, after.frames = inner ++ frame :: rest := by
  obtain ⟨-, hcallers⟩ := List.cons.inj hframes
  have hlater := moves.frames
  rw [hcallers] at hlater
  rcases hlater with ⟨ip, hafter, -⟩ | ⟨called, -, -, hafter⟩ | hafter
  · exact ⟨{ machine.frame with ip } :: inner, hafter⟩
  · exact ⟨called :: { machine.frame with ip := _ } :: inner, hafter⟩
  · exact ⟨inner, hafter⟩

theorem Moves.calling {machine after : Machine} {instruction : Instruction} {called : Frame}
    {inner rest : List Frame} {ip : Nat}
    (moves : Moves (machine.advance instruction) instruction after)
    (hframes : machine.frames = inner ++ { called with ip } :: rest) :
    (∃ inner ip, after.frames = inner ++ { called with ip } :: rest) ∨
      inner = [] ∧ after.frames = rest := by
  cases inner with
  | nil =>
      obtain ⟨hframe, hcallers⟩ := List.cons.inj hframes
      have hlater := moves.frames
      rw [hframe, hcallers] at hlater
      rcases hlater with ⟨next, hafter, -⟩ | ⟨entered, -, -, hafter⟩ | hafter
      · exact .inl ⟨[], next, hafter⟩
      · exact .inl ⟨[entered], _, hafter⟩
      · exact .inr ⟨rfl, hafter⟩
  | cons top inner =>
      obtain ⟨inner, hafter⟩ := moves.waiting hframes
      exact .inl ⟨inner, ip, hafter⟩

theorem Typed.below {machine after : Machine} {instruction : Instruction} (typed : machine.Typed)
    (hcallers : machine.callers ≠ [])
    (hfetch : machine.frame.template.code.fetch? machine.frame.ip = some (.ok instruction))
    (moves : Moves (machine.advance instruction) instruction after) {slot : Nat}
    (hslot : slot + 1 < machine.frame.base) : after.stack[slot]? = machine.stack[slot]? := by
  have hpops := typed.pops hfetch
  have hfloor : machine.frame.base ≤ floor machine.frame machine.callers := by
    cases hcase : machine.callers with
    | nil => exact absurd hcase hcallers
    | cons caller callers => exact Nat.le_add_right _ _
  have hsp : (machine.advance instruction).sp = machine.sp := rfl
  have hbase : (machine.advance instruction).frame.base = machine.frame.base := rfl
  cases moves with
  | pushes value world _ _ hheight => exact Array.getElem?_setIfInBounds_ne (by omega)
  | drops | jumps | storesGlobal | enters => rfl
  | storesLocal => exact Array.getElem?_setIfInBounds_ne (by omega)
  | leaves => exact Array.getElem?_setIfInBounds_ne (by omega)

theorem Moves.returns {machine after : Machine} {instruction : Instruction}
    (moves : Moves (machine.advance instruction) instruction after)
    (hinside : machine.sp ≤ machine.stack.size)
    (hframes : after.callers.length < machine.callers.length) :
    after.sp = machine.frame.base - 1 + 1 ∧
      ∃ result, after.stack[machine.frame.base - 1]? = some result ∧
        (instruction.op = .returnNull ∧ result = .null ∨
          instruction.op = .returnValue ∧ machine.top? = some result) := by
  cases moves with
  | pushes | drops | storesGlobal | storesLocal | jumps => exact absurd hframes (Nat.lt_irrefl _)
  | enters => exact absurd hframes (Nat.not_lt_of_le (Nat.le_succ _))
  | @leaves result _ _ hresult _ hroom =>
      refine ⟨rfl, result, Array.getElem?_setIfInBounds_self_of_lt hroom, hresult.imp_right ?_⟩
      rintro ⟨hop, hsp, rfl⟩
      have hnonzero : 1 ≤ machine.sp := hsp
      have htop : machine.sp - 1 < machine.stack.size := by omega
      refine ⟨hop, ?_⟩
      change machine.top? = some (machine.stack.getD (machine.sp - 1) Value.null)
      rw [top?, if_neg (by omega), Array.getD_eq_getD_getElem?, Array.getElem?_eq_getElem htop]
      rfl

theorem call_enters {caller machine : Machine} {count : Nat} {ref : Ref} {template : Template}
    {captured : List Value}
    (hfetch : caller.frame.template.code.fetch? caller.frame.ip = some (.ok ⟨.call, [count]⟩))
    (hcallee : caller.stack[caller.sp - 1 - count]? = some (.closure ref template captured))
    (hstep : step.run caller = (.ok true, machine))
    (hdeeper : machine.callers.length = caller.callers.length + 1) :
    machine = (caller.advance ⟨.call, [count]⟩).entered ref template captured count := by
  obtain ⟨instruction, hfetch', moves⟩ := step_moves hstep
  rw [hfetch] at hfetch'
  cases hfetch'
  cases moves with
  | pushes => exact absurd hdeeper (Nat.ne_of_lt (Nat.lt_succ_self _))
  | drops hop => rcases hop with hop | hop <;> cases hop
  | jumps htarget => cases htarget
  | storesGlobal _ hop | storesLocal _ hop => cases hop
  | leaves hresult => rcases hresult with ⟨hop, -⟩ | ⟨hop, -⟩ <;> cases hop
  | @enters _ _ _ callee _ hsp hclosure hcount =>
      have hcount' : count = _ := hcount
      have hsp' : callee + (_ + 1) = caller.sp := hsp
      rw [show caller.sp - 1 - count = callee by omega] at hcallee
      rw [Array.getD_eq_getD_getElem?, show (caller.advance _).stack[callee]? = _ from hcallee]
        at hclosure
      cases hclosure
      rw [hcount']

/-- What a call leaves as it was while it is in progress: the calls that wait for it, and the stack
below its callee. -/
structure Undisturbed (caller : Machine) (called : Frame) (rest : List Frame) (machine : Machine) :
    Prop where
  frames : ∃ inner ip, machine.frames = inner ++ { called with ip } :: rest
  stack : ∀ slot, slot + 1 < called.base → machine.stack[slot]? = caller.stack[slot]?

theorem Undisturbed.step {caller machine after : Machine} {called : Frame} {rest : List Frame}
    (undisturbed : Undisturbed caller called rest machine) (hrest : rest ≠ [])
    (typed : machine.Typed) (hstep : Machine.step.run machine = (.ok true, after)) :
    (∀ slot, slot + 1 < called.base → after.stack[slot]? = caller.stack[slot]?) ∧
      ((∃ inner ip, after.frames = inner ++ { called with ip } :: rest) ∨
        ∃ ip, machine.frames = { called with ip } :: rest ∧ after.frames = rest) := by
  obtain ⟨instruction, hfetch, moves⟩ := step_moves hstep
  obtain ⟨⟨inner, ip, hframes⟩, hstack⟩ := undisturbed
  have hbase := (typed.runs.above hframes hrest).2
  have hcallers : machine.callers ≠ [] := by
    intro hnone
    rw [Machine.frames, hnone] at hframes
    have hlength := congrArg List.length hframes
    have := List.length_pos_iff.mpr hrest
    simp only [List.length_append, List.length_cons, List.length_nil] at hlength
    omega
  constructor
  · intro slot hslot
    rw [typed.below hcallers hfetch moves (Nat.lt_of_lt_of_le hslot hbase), hstack slot hslot]
  · rcases moves.calling hframes with hlater | ⟨rfl, hreturned⟩
    · exact .inl hlater
    · exact .inr ⟨ip, hframes, hreturned⟩

theorem Activation.undisturbed {caller machine : Machine} {written : List Nat} {count : Nat}
    {ref : Ref} {template : Template} {captured : List Value}
    (activation : Activation caller written machine) (typed : caller.Typed)
    (hfetch : caller.frame.template.code.fetch? caller.frame.ip = some (.ok ⟨.call, [count]⟩))
    (hcallee : caller.stack[caller.sp - 1 - count]? = some (.closure ref template captured)) :
    Undisturbed caller ⟨ref, template, captured, 0, caller.sp - count⟩
      (caller.advance ⟨.call, [count]⟩).frames machine := by
  have hlater : ∀ {before after : Machine}, Passes caller before →
      Undisturbed caller ⟨ref, template, captured, 0, caller.sp - count⟩
        (caller.advance ⟨.call, [count]⟩).frames before →
      step.run before = (.ok true, after) → caller.callers.length < after.callers.length →
      Undisturbed caller ⟨ref, template, captured, 0, caller.sp - count⟩
        (caller.advance ⟨.call, [count]⟩).frames after := by
    intro before after passes hbefore hstep hdeeper
    obtain ⟨hstack, hframes | ⟨ip, -, hreturned⟩⟩ :=
      hbefore.step (by simp [frames]) (typed.passes passes) hstep
    · exact ⟨hframes, hstack⟩
    · have hlength := congrArg List.length hreturned
      simp only [frames, List.length_cons, advance] at hlength
      omega
  induction activation with
  | entered hstep hdeeper =>
      rw [call_enters hfetch hcallee hstep hdeeper]
      exact ⟨⟨[], 0, rfl⟩, fun _ _ => rfl⟩
  | own activation _ hstep hdeeper ih => exact hlater (activation.passes .start) ih hstep hdeeper
  | inner activation hinner hstep ih =>
      have := (step_depth hstep).1
      exact hlater (activation.passes .start) ih hstep (by omega)

theorem start_typed {program : Program} {bytecode : Bytecode}
    (hcompile : program.bytecode = .ok bytecode) (pool : Nat) {globals : Array Value}
    (hglobals : ∀ value ∈ globals, value.ClosureFree) (config : Config) (world : World) :
    (start bytecode pool globals config world).Typed := by
  obtain ⟨code, finish, hemits, hcode, hconstants⟩ := Program.bytecode_emits hcompile
  obtain ⟨valid, htop⟩ := Scope.withBuiltins_valid
  have hready := hemits.ready_main valid htop hcode
  rw [← hconstants] at hready
  refine ⟨start_sound bytecode pool ?_ config world, ⟨Nat.le_refl _, hready⟩, ?_⟩
  · exact fun value member => (hglobals value member).mono False.elim
  · simp only [start, extendGlobals, Array.size_append, Array.size_replicate]
    omega

/-- A callee cannot disturb its caller. While a call that compiled code has begun is in progress, the
calls below it wait as they were, the caller behind its instruction, and the locals of the call are on
the stack. When it returns, the caller goes on with the stack that it had below the callee, and with the
returned value in the callee's place. -/
theorem callee_keeps_caller (program : Program) (bytecode : Bytecode)
    (hcompile : program.bytecode = .ok bytecode) (pool : Nat) (globals : Array Value)
    (hglobals : ∀ value ∈ globals, value.ClosureFree) (config : Config) (world : World)
    (caller : Machine) (hcaller : Passes (start bytecode pool globals config world) caller)
    (count : Nat)
    (hfetch : caller.frame.template.code.fetch? caller.frame.ip = some (.ok ⟨.call, [count]⟩))
    (ref : Ref) (template : Template) (captured : List Value)
    (hcallee : caller.stack[caller.sp - 1 - count]? = some (.closure ref template captured)) :
    (∀ written machine, Activation caller written machine →
      (∃ inner ip, machine.frames =
        inner ++ ⟨ref, template, captured, ip, caller.sp - count⟩ ::
          { caller.frame with ip := caller.frame.ip + 2 } :: caller.callers) ∧
      caller.sp - count + template.locals ≤ machine.sp) ∧
    ∀ written last after, Activation caller written last →
      step.run last = (.ok true, after) → after.callers.length ≤ caller.callers.length →
      after.frame = { caller.frame with ip := caller.frame.ip + 2 } ∧
      after.callers = caller.callers ∧
      after.sp = caller.sp - 1 - count + 1 ∧
      (∀ slot < caller.sp - 1 - count, after.stack[slot]? = caller.stack[slot]?) ∧
      ∃ instruction value,
        last.frame.template.code.fetch? last.frame.ip = some (.ok instruction) ∧
        after.stack[caller.sp - 1 - count]? = some value ∧
        (instruction.op = .returnNull ∧ value = .null ∨
          instruction.op = .returnValue ∧ last.top? = some value) := by
  have hstart := start_typed hcompile pool hglobals config world
  have htyped := hstart.passes hcaller
  have hbase : caller.sp - count - 1 = caller.sp - 1 - count := Nat.sub_right_comm _ _ _
  have hrest : (caller.advance ⟨.call, [count]⟩).frames ≠ [] := by simp [frames]
  constructor
  · intro written machine activation
    obtain ⟨inner, ip, hframes⟩ := (activation.undisturbed htyped hfetch hcallee).frames
    have hruns := (hstart.passes (activation.passes hcaller)).runs
    exact ⟨⟨inner, ip, hframes⟩, (hruns.above hframes hrest).1⟩
  · intro written last after activation hstep hback
    have hlast := hstart.passes (activation.passes hcaller)
    obtain ⟨hstack, hframes | ⟨ip, hframes, hreturned⟩⟩ :=
      (activation.undisturbed htyped hfetch hcallee).step hrest hlast hstep
    · obtain ⟨inner, ip, hframes⟩ := hframes
      have hlength := congrArg List.length hframes
      simp only [frames, List.length_append, List.length_cons, advance] at hlength
      omega
    · obtain ⟨instruction, hfetch', moves⟩ := step_moves hstep
      obtain ⟨hframe, hcallers⟩ := List.cons.inj hframes
      obtain ⟨hafter, hafterCallers⟩ := List.cons.inj hreturned
      have hless : after.callers.length < last.callers.length := by
        rw [hcallers, hafterCallers]
        exact Nat.lt_succ_self _
      obtain ⟨hsp, value, hvalue, hresult⟩ := moves.returns hlast.sound.inside hless
      rw [hframe] at hsp hvalue
      dsimp only at hsp hvalue
      rw [hbase] at hsp hvalue
      refine ⟨hafter, hafterCallers, hsp, ?_, instruction, value, hfetch', hvalue, hresult⟩
      intro slot hslot
      exact hstack slot (by dsimp only; omega)

def adding : Program :=
  ⟨[.bind "same" (.function (some "same") ["x"] [.expr (.ident "x")]),
    .expr (.binary .add (.integer 10) (.call (.ident "same") [.integer 4]))]⟩

def addingStart : Machine :=
  start (Compiler.fresh.add adding).2.bytecode 0 #[] ⟨8, 2, 1, none⟩ .fresh

theorem callee_keeps_adding :
    ∃ caller last after : Machine, Passes addingStart caller ∧
      caller.frame.template.code.fetch? caller.frame.ip = some (.ok ⟨.call, [1]⟩) ∧
      (∃ written, Activation caller written last) ∧ step.run last = (.ok true, after) ∧
      after.frame = { caller.frame with ip := caller.frame.ip + 2 } ∧ after.sp = 2 ∧
      after.stack[0]? = caller.stack[0]? ∧ after.stack[1]? = last.top? := by
  have hadd : (Compiler.fresh.add adding).1 = .ok () := by decide +kernel
  have hcompile : adding.bytecode = .ok (Compiler.fresh.add adding).2.bytecode := by
    unfold Program.bytecode
    split <;> simp_all
  have hmore : ∀ count < 8, (step.run (addingStart.afterSteps count)).1 = .ok true := by
    decide +kernel
  have hpasses := passes_afterSteps fun less (hless : less < 5) => hmore less (by omega)
  have hfetch : (addingStart.afterSteps 5).frame.template.code.fetch?
      (addingStart.afterSteps 5).frame.ip = some (.ok ⟨.call, [1]⟩) := by decide +kernel
  have hkind : (addingStart.afterSteps 5).stack[1]?.map Value.kind = some "CLOSURE" := by
    decide +kernel
  have hsp : (addingStart.afterSteps 5).sp = 3 := by decide +kernel
  have hactivation : Activation (addingStart.afterSteps 5) _ (addingStart.afterSteps 7) :=
    .own (.entered (step_afterSteps (hmore 5 (by omega))) (by decide +kernel)) (by decide +kernel)
      (step_afterSteps (hmore 6 (by omega))) (by decide +kernel)
  have hlast := step_afterSteps (hmore 7 (by omega))
  obtain ⟨callee, hcallee, hclosure⟩ := Option.map_eq_some_iff.mp hkind
  cases callee with
  | closure ref template captured =>
      obtain ⟨hframe, -, htop, hbelow, instruction, value, hfetch', hvalue, hresult⟩ :=
        (callee_keeps_caller adding _ hcompile 0 #[] (by simp) ⟨8, 2, 1, none⟩ .fresh _ hpasses 1
          hfetch ref template captured (by rw [hsp]; exact hcallee)).2 _ _ _ hactivation hlast
          (by decide +kernel)
      have hreturn : (addingStart.afterSteps 7).frame.template.code.fetch?
          (addingStart.afterSteps 7).frame.ip = some (.ok ⟨.returnValue, []⟩) := by decide +kernel
      rw [hreturn] at hfetch'
      cases hfetch'
      rw [hsp] at htop hbelow hvalue
      refine ⟨_, _, _, hpasses, hfetch, ⟨_, hactivation⟩, hlast, hframe, htop, hbelow 0 (by omega), ?_⟩
      rcases hresult with ⟨hop, -⟩ | ⟨-, hresult⟩
      · cases hop
      · rw [hresult]
        exact hvalue
  | _ => simp [Value.kind] at hclosure

end Machine

end Stacklang
