import Stacklang.Proofs.Compile.Verified
import Stacklang.Proofs.Machine.Visits

namespace Stacklang

/-- Whether only bytecode that fails its checks can cause a fault. -/
def Fault.malformed : Fault → Bool
  | undecodable .. | constantOutOfRange _ | notFunction _ | builtinOutOfRange _
  | tooFewLocals .. => true
  | _ => false

def Stop.malformed : Stop → Bool
  | .fault cause | .builtinFault _ cause => cause.malformed
  | .crash => true

/-- The value holds no closures, however deep. -/
def Value.ClosureFree (value : Value) : Prop :=
  value.Good fun _ _ => False

namespace Machine

open Fallible Instruction Verify

structure Proper (constants : Array Constant) (template : Template) : Prop where
  parameters : template.parameters ≤ template.locals
  stream : Accepted constants (some template.locals) template.code

/-- The invariant of machines that run accepted bytecode. -/
structure Verified (machine : Machine) : Prop where
  sound : machine.Sound fun template _ => Proper machine.constants template
  functions : ∀ template, .function template ∈ machine.constants →
    Proper machine.constants template
  frames : ∀ frame ∈ machine.frames, Proper machine.constants frame.template ∧
    frame.template.code.Boundary frame.ip ∧
      frame.base + frame.template.locals ≤ machine.stack.size

/-- The main program takes no locals, so it can do with any number of them. -/
theorem accepted_main {constants : Array Constant} {code : Code}
    (accepted : Accepted constants none code) : Proper constants ⟨code, 0, 0⟩ :=
  ⟨Nat.le_refl _, accepted.whole,
    fun entry member => instruction_mono (.refl _) (by simp) (accepted.checked entry member),
    accepted.landing⟩

theorem start_verified {bytecode : Bytecode} (hverify : bytecode.verify = .ok ()) (pool : Nat)
    {globals : Array Value} (hglobals : ∀ value ∈ globals, value.ClosureFree) (config : Config)
    (world : World) : (start bytecode pool globals config world).Verified := by
  obtain ⟨hmain, hfunctions⟩ := Bytecode.verify_ok_iff.mp hverify
  refine ⟨start_sound bytecode pool ?_ config world, ?_, ?_⟩
  · exact fun value member => (hglobals value member).mono False.elim
  · intro template member
    have haccepted := hfunctions template member
    exact ⟨haccepted.parameters, haccepted.stream⟩
  · intro frame member
    rw [List.mem_singleton.mp member]
    exact ⟨accepted_main hmain, Code.boundary_zero hmain.whole, Nat.zero_le _⟩

theorem Verified.again {machine : Machine} (verified : machine.Verified) :
    Verified { machine with steps := 0 } :=
  ⟨verified.sound.again, verified.functions, verified.frames⟩

theorem Verified.beside {before after : Machine} {height : Nat} (verified : before.Verified)
    (beside : Beside (fun template _ => Proper before.constants template) before height after) :
    after.Verified := by
  obtain ⟨hsound, -, hframe, hcallers, halike⟩ := beside
  refine ⟨?_, ?_, ?_⟩
  · rw [halike.constants]
    exact hsound
  · rw [halike.constants]
    exact verified.functions
  · rw [Machine.frames, hframe, hcallers, halike.constants, halike.slots]
    exact verified.frames

theorem Verified.goto {machine : Machine} (verified : machine.Verified) {ip : Nat}
    (boundary : machine.frame.template.code.Boundary ip) :
    Verified { machine with frame := { machine.frame with ip } } := by
  refine ⟨verified.sound.goto ip, verified.functions, ?_⟩
  intro frame member
  rcases List.mem_cons.mp member with rfl | member
  · obtain ⟨hproper, -, hroom⟩ := verified.frames machine.frame (by simp [Machine.frames])
    exact ⟨hproper, boundary, hroom⟩
  · exact verified.frames frame (by simp [Machine.frames, member])

theorem Verified.effect {before after : Machine} {instruction : Instruction}
    (verified : before.Verified)
    (hlanding : ∀ target, instruction.target? = some target →
      before.frame.template.code.Boundary target)
    (effect : Effect (fun template _ => Proper before.constants template) before instruction after) :
    after.Verified := by
  cases effect with
  | worked _ _ beside => exact verified.beside beside
  | jumped htarget _ beside =>
      exact (verified.goto (hlanding _ htarget)).beside beside
  | @called template ref captured _ _ _ sound alike hframe _ hcallers _ =>
      have hcalls := sound.calls
      rw [hframe, hcallers] at hcalls
      obtain ⟨-, hroom, hproper, -⟩ := hcalls
      refine ⟨by rw [alike.constants]; exact sound, by rw [alike.constants]; exact verified.functions,
        ?_⟩
      rw [Machine.frames, hframe, hcallers, alike.constants]
      intro frame member
      rcases List.mem_cons.mp member with rfl | member
      · exact ⟨hproper, Code.boundary_zero hproper.stream.whole, hroom⟩
      · rw [alike.slots]
        exact verified.frames frame member
  | returned _ _ sound alike hcallers _ =>
      refine ⟨by rw [alike.constants]; exact sound, by rw [alike.constants]; exact verified.functions,
        ?_⟩
      rw [alike.constants, alike.slots]
      intro frame member
      refine verified.frames frame (List.mem_cons_of_mem _ ?_)
      rw [hcallers]
      exact member

theorem Verified.blame {machine : Machine} {instruction : Instruction} {stop : Stop}
    (verified : machine.Verified)
    (hchecked : Verify.instruction machine.constants (some machine.frame.template.locals) instruction =
      .ok ())
    (blame : Blame (fun template _ => Proper machine.constants template) machine instruction stop) :
    stop.malformed = false := by
  have hlanguage : ∀ {fault : Fault}, fault.ofLanguage = true → fault.malformed = false := by
    intro fault hfault
    cases fault <;> first | rfl | cases hfault
  cases blame with
  | language hfault => exact hlanguage hfault
  | builtin hfault => exact hlanguage hfault
  | stackOverflow | frameOverflow | globalOutOfRange | underflow | captureOutOfRange
  | returnOutsideFunction => rfl
  | constantOutOfRange hop houtside =>
      rcases hop with hop | hop
      · exact absurd ((constant_ok_iff hop).mp hchecked) (Nat.not_lt_of_le houtside)
      · obtain ⟨template, hfound⟩ := (closure_ok_iff hop).mp hchecked
        rw [Array.getElem?_eq_none houtside] at hfound
        cases hfound
  | notFunction hop hfound hkind =>
      obtain ⟨template, hfound'⟩ := (closure_ok_iff hop).mp hchecked
      rw [hfound] at hfound'
      exact absurd (Option.some.inj hfound') (hkind template)
  | builtinOutOfRange hop houtside =>
      exact absurd ((getBuiltin_ok_iff hop).mp hchecked) (Nat.not_lt_of_le houtside)
  | tooFewLocals hproper hlocals =>
      exact absurd hproper.parameters (Nat.not_le_of_lt hlocals)
  | crash hop houtside =>
      obtain ⟨locals, hsome, hslot⟩ := (local_ok_iff hop).mp hchecked
      cases hsome
      obtain ⟨-, -, hroom⟩ := verified.frames machine.frame (by simp [Machine.frames])
      omega

theorem Verified.fetch {machine : Machine} (verified : machine.Verified) :
    machine.frame.template.code.fetch? machine.frame.ip = none ∨
      ∃ instruction,
        machine.frame.template.code.fetch? machine.frame.ip = some (.ok instruction) ∧
        machine.frame.template.code.Boundary (machine.frame.ip + instruction.size) ∧
        Verify.instruction machine.constants (some machine.frame.template.locals) instruction =
          .ok () ∧
        ∀ target, instruction.target? = some target →
          machine.frame.template.code.Boundary target := by
  obtain ⟨hproper, hboundary, -⟩ := verified.frames machine.frame (by simp [Machine.frames])
  rcases hboundary.fetch hproper.stream.whole with hend | ⟨instruction, hfetch, member, hnext⟩
  · exact .inl hend
  · exact .inr ⟨instruction, hfetch, hnext, hproper.stream.checked _ member,
      hproper.stream.landing _ member⟩

theorem Verified.advance {machine : Machine} (verified : machine.Verified)
    {instruction : Instruction}
    (hnext : machine.frame.template.code.Boundary (machine.frame.ip + instruction.size)) :
    (machine.advance instruction).Verified := by
  have hgoto := verified.goto hnext
  exact ⟨⟨hgoto.sound.stack, hgoto.sound.globals, hgoto.sound.captured, hgoto.sound.inside,
    hgoto.sound.calls⟩, hgoto.functions, hgoto.frames⟩

theorem Verified.step {machine : Machine} (verified : machine.Verified) :
    Meets Machine.step machine (fun _ after => after.Verified)
      (fun stop after => stop.malformed = false ∧ after.Verified) := by
  rcases verified.fetch with hend | ⟨instruction, hfetch, hnext, hchecked, hlanding⟩
  · rw [Meets, step_end hend]
    cases machine.callers.isEmpty with
    | true => exact verified
    | false => exact ⟨rfl, verified⟩
  · have hadvanced := verified.advance hnext
    have hmeets := step_meets verified.sound hfetch
      (fun _ => (verified.frames machine.frame (by simp [Machine.frames])).1)
      (fun _ template hfound =>
        verified.functions template (Array.mem_of_getElem? hfound))
    refine hmeets.mono ?_ ?_
    · rintro _ after ⟨-, heffect⟩
      exact hadvanced.effect hlanding heffect
    · rintro stop after (⟨limit, rfl, rfl⟩ | ⟨hblame, height, hbeside⟩)
      · exact ⟨rfl, hadvanced⟩
      · exact ⟨hadvanced.blame hchecked hblame, hadvanced.beside hbeside⟩

theorem Verified.visits {start machine : Machine} (verified : start.Verified)
    (visits : Visits start machine) : machine.Verified := by
  refine visits.always verified ?_ fun _ => again
  intro machine hverified
  exact hverified.step.mono (fun _ _ hafter => hafter) fun _ _ hafter => hafter.2

theorem Verified.run {machine : Machine} (verified : machine.Verified) (fuel : Nat) :
    (Machine.run fuel machine).2.Verified ∧ (Machine.run fuel machine).1 ≠ .crashed ∧
      ∀ error, (Machine.run fuel machine).1 = .failed error → error.fault.malformed = false := by
  have hkeeps := runFor_keeps
    (fun machine hverified => hverified.step.mono (fun _ _ h => ⟨fun _ => h, fun _ => h⟩)
      fun _ _ h => h) fuel verified.again
  rw [Machine.run]
  cases hrun : runFor fuel { machine with steps := 0 } with
  | mk outcome after =>
      rw [hrun] at hkeeps
      cases outcome with
      | finished => exact ⟨hkeeps, by simp, by simp⟩
      | unfinished => exact ⟨hkeeps, by simp, by simp⟩
      | crashed =>
          obtain ⟨stop, houtcome, hmalformed, -⟩ := hkeeps
          cases stop <;> cases houtcome
          cases hmalformed
      | failed error =>
          obtain ⟨stop, houtcome, hmalformed, hafter⟩ := hkeeps
          refine ⟨hafter, by simp, ?_⟩
          rintro _ ⟨⟩
          cases stop <;> cases houtcome <;> exact hmalformed

theorem Verified.runs {machine : Machine} (verified : machine.Verified) (fuels : List Nat) :
    (machine.runs fuels).Verified := by
  induction fuels generalizing machine with
  | nil => exact verified
  | cons fuel rest ih => exact ih (verified.run fuel).1

/-- The machine's next step stays in bounds: what lies below the top of the stack is there, a call of
a function has its callee below its locals, and the local that is accessed has a slot. -/
structure InBounds (machine : Machine) : Prop where
  top : machine.sp ≤ machine.stack.size
  callee : ∀ frame ∈ machine.frames.dropLast, 1 ≤ frame.base
  slot : ∀ instruction, machine.frame.template.code.fetch? machine.frame.ip = some (.ok instruction) →
    instruction.op = .getLocal ∨ instruction.op = .setLocal →
    machine.frame.base + instruction.operand 0 < machine.stack.size

theorem Calls.callee {property : Template → Nat → Prop} {slots : Nat} {frame : Frame}
    {callers : List Frame} (calls : Calls property slots frame callers) :
    ∀ call ∈ (frame :: callers).dropLast, 1 ≤ call.base := by
  induction callers generalizing frame with
  | nil => simp
  | cons caller callers ih =>
      intro call member
      rw [List.dropLast_cons_of_ne_nil (by simp), List.mem_cons] at member
      rcases member with rfl | member
      · exact calls.1
      · exact ih calls.2.2.2 call member

theorem Verified.inBounds {machine : Machine} (verified : machine.Verified) :
    machine.InBounds := by
  refine ⟨verified.sound.inside, verified.sound.calls.callee, ?_⟩
  intro instruction hfetch hop
  rcases verified.fetch with hend | ⟨next, hfetch', -, hchecked, -⟩
  · rw [hend] at hfetch
    cases hfetch
  · rw [hfetch] at hfetch'
    cases hfetch'
    obtain ⟨locals, hsome, hslot⟩ := (local_ok_iff hop).mp hchecked
    cases hsome
    obtain ⟨-, -, hroom⟩ := verified.frames machine.frame (by simp [Machine.frames])
    omega

/-- Bytecode that passes its checks is safe to run, with any limits, on globals without closures and
as often as one likes, also after faults: every state it comes to is in bounds and all its calls are
at instructions or ends of their streams, and no run crashes or ends with a fault of malformed
bytecode. -/
theorem verified_bytecode_safe (bytecode : Bytecode) (hverify : bytecode.verify = .ok ())
    (pool : Nat) (globals : Array Value) (hglobals : ∀ value ∈ globals, value.ClosureFree)
    (config : Config) (world : World) :
    (∀ machine, Visits (start bytecode pool globals config world) machine →
      machine.InBounds ∧
        ∀ frame ∈ machine.frames, frame.template.code.Boundary frame.ip) ∧
    ∀ fuels fuel outcome machine,
      run fuel ((start bytecode pool globals config world).runs fuels) = (outcome, machine) →
      outcome ≠ .crashed ∧ ∀ error, outcome = .failed error → error.fault.malformed = false := by
  have hstart := start_verified hverify pool hglobals config world
  constructor
  · intro machine visits
    have hverified := hstart.visits visits
    exact ⟨hverified.inBounds, fun frame member => (hverified.frames frame member).2.1⟩
  · intro fuels fuel outcome machine hrun
    have hends := ((hstart.runs fuels).run fuel).2
    rw [hrun] at hends
    exact hends

def selfCalling : Bytecode :=
  ⟨(encodeAll [⟨.currentClosure, []⟩, ⟨.call, [0]⟩, ⟨.pop, []⟩, ⟨.jump, [0]⟩]).toArray, #[]⟩

theorem selfCalling_safe :
    selfCalling.verify = .ok () ∧ (∀ value ∈ #[Value.integer 5], Value.ClosureFree value) ∧
      ∀ fuels fuel,
        (run fuel ((start selfCalling 0 #[.integer 5] ⟨8, 4, 2, none⟩ .fresh).runs fuels)).1 ≠
          .crashed := by
  have hverify : selfCalling.verify = .ok () := by decide +kernel
  have hglobals : ∀ value ∈ #[Value.integer 5], Value.ClosureFree value := by
    intro value member
    rw [Array.mem_singleton.mp member]
    exact .integer 5
  refine ⟨hverify, hglobals, fun fuels fuel => ?_⟩
  exact ((verified_bytecode_safe selfCalling hverify 0 _ hglobals ⟨8, 4, 2, none⟩ .fresh).2 fuels fuel
    _ _ rfl).1

end Machine

end Stacklang
