import Stacklang.Proofs.Compile.Emits
import Stacklang.Proofs.Machine.Visits

namespace Stacklang

/-- A stream and what there is for it: locals, captured values, and a call to return from. -/
structure Shape where
  code : Code
  locals : Nat
  captured : Nat
  function : Bool

def Template.shape (template : Template) (captured : Nat) : Shape :=
  ⟨template.code, template.locals, captured, true⟩

def Code.mainShape (code : Code) : Shape :=
  ⟨code, 0, 0, false⟩

def Shape.Allows (shape : Shape) (constants : Array Constant) (instruction : Instruction) : Prop :=
  match instruction.op with
  | .constant => instruction.operand 0 < constants.size
  | .getLocal | .setLocal => instruction.operand 0 < shape.locals
  | .getFree => instruction.operand 0 < shape.captured
  | .getBuiltin => instruction.operand 0 < Builtin.all.length
  | .currentClosure => shape.function = true
  | .closure => ∃ template, constants[instruction.operand 0]? = some (.function template) ∧
      template.parameters ≤ template.locals
  | _ => True

/-- A stream can be run from an offset on, with so many values on the stack above the locals. -/
inductive Ready (constants : Array Constant) : Shape → Nat → Nat → Prop where
  | done {shape : Shape} {ip : Nat} (hmain : shape.function = false) (hend : ip = shape.code.size) :
      Ready constants shape ip 0
  | next {shape : Shape} {ip height : Nat} {instruction : Instruction}
      (hfetch : shape.code.fetch? ip = some (.ok instruction))
      (hfalls : instruction.FallsThrough) (hallowed : shape.Allows constants instruction)
      (hclosure : ∀ template, instruction.op = .closure →
        constants[instruction.operand 0]? = some (.function template) →
          Ready constants (template.shape (instruction.operand 1)) 0 0)
      (htarget : ∀ target, instruction.target? = some target →
        Ready constants shape target height)
      (hnext : Ready constants shape (ip + instruction.size) (height + instruction.pushes)) :
      Ready constants shape ip (height + instruction.pops)
  | jump {shape : Shape} {ip height target : Nat}
      (hfetch : shape.code.fetch? ip = some (.ok ⟨.jump, [target]⟩))
      (htarget : Ready constants shape target height) : Ready constants shape ip height
  | leave {shape : Shape} {ip height : Nat} {instruction : Instruction}
      (hfunction : shape.function = true)
      (hfetch : shape.code.fetch? ip = some (.ok instruction))
      (hop : instruction.op = .returnValue ∨ instruction.op = .returnNull) :
      Ready constants shape ip (height + instruction.pops)

structure Callable (constants : Array Constant) (template : Template) (captured : Nat) : Prop where
  parameters : template.parameters ≤ template.locals
  ready : Ready constants (template.shape captured) 0 0

theorem Shape.Allows.mono {shape : Shape} {constants later : Array Constant}
    {instruction : Instruction} (allows : shape.Allows constants instruction)
    (grows : Constant.Grows constants later) : shape.Allows later instruction := by
  unfold Shape.Allows at allows ⊢
  split at allows
  next hop => exact Nat.lt_of_lt_of_le allows grows.size_le
  next hop => exact allows
  next hop => exact allows
  next hop => exact allows
  next hop => exact allows
  next hop => exact allows
  next hop =>
    obtain ⟨template, hfound, hparameters⟩ := allows
    exact ⟨template, grows hfound, hparameters⟩
  next => trivial

theorem Ready.mono {constants later : Array Constant} {shape : Shape} {ip height : Nat}
    (ready : Ready constants shape ip height) (grows : Constant.Grows constants later) :
    Ready later shape ip height := by
  induction ready with
  | done hmain hend => exact .done hmain hend
  | @next shape ip height instruction hfetch hfalls hallowed _ _ _ ihclosure ihtarget ihnext =>
      refine .next hfetch hfalls (hallowed.mono grows) ?_ ihtarget ihnext
      intro template hop hfound
      have hclosure : ∃ template, constants[instruction.operand 0]? = some (.function template) ∧
          template.parameters ≤ template.locals := by
        simpa only [Shape.Allows, hop] using hallowed
      obtain ⟨found, hfound', -⟩ := hclosure
      rw [grows hfound'] at hfound
      cases hfound
      exact ihclosure template hop hfound'
  | jump hfetch _ ih => exact .jump hfetch ih
  | leave hfunction hfetch hop => exact .leave hfunction hfetch hop

theorem Callable.mono {constants later : Array Constant} {template : Template} {captured : Nat}
    (callable : Callable constants template captured) (grows : Constant.Grows constants later) :
    Callable later template captured :=
  ⟨callable.parameters, callable.ready.mono grows⟩

namespace Machine

open Fallible Instruction

def shape (frame : Frame) : List Frame → Shape
  | [] => frame.template.code.mainShape
  | _ :: _ => frame.template.shape frame.captured.length

/-- Where the values of the topmost of some calls begin, above its locals. -/
def floor (frame : Frame) : List Frame → Nat
  | [] => 0
  | _ :: _ => frame.base + frame.template.locals

structure Goes (constants : Array Constant) (sp : Nat) (frame : Frame) (callers : List Frame) :
    Prop where
  above : floor frame callers ≤ sp
  ready : Ready constants (shape frame callers) frame.ip (sp - floor frame callers)

/-- All calls in progress can be gone on with: the running one from where it is, and each of the
others when the one above it has returned a value. -/
def Runs (constants : Array Constant) : Nat → Frame → List Frame → Prop
  | sp, frame, [] => Goes constants sp frame []
  | sp, frame, caller :: callers =>
      Goes constants sp frame (caller :: callers) ∧ Runs constants frame.base caller callers

theorem shape_goto (frame : Frame) (ip : Nat) (callers : List Frame) :
    shape { frame with ip } callers = shape frame callers := by
  cases callers <;> rfl

theorem floor_goto (frame : Frame) (ip : Nat) (callers : List Frame) :
    floor { frame with ip } callers = floor frame callers := by
  cases callers <;> rfl

theorem shape_code (frame : Frame) (callers : List Frame) :
    (shape frame callers).code = frame.template.code := by
  cases callers <;> rfl

theorem Runs.goes {constants : Array Constant} {sp : Nat} {frame : Frame} {callers : List Frame}
    (runs : Runs constants sp frame callers) : Goes constants sp frame callers := by
  cases callers with
  | nil => exact runs
  | cons caller callers => exact runs.1

theorem Runs.goto {constants : Array Constant} {sp ip height : Nat} {frame : Frame}
    {callers : List Frame} (runs : Runs constants sp frame callers)
    (ready : Ready constants (shape frame callers) ip height) :
    Runs constants (floor frame callers + height) { frame with ip } callers := by
  have goes : Goes constants (floor frame callers + height) { frame with ip } callers := by
    refine ⟨?_, ?_⟩
    · rw [floor_goto frame ip callers]
      exact Nat.le_add_right _ _
    · rw [shape_goto frame ip callers, floor_goto frame ip callers, Nat.add_sub_cancel_left]
      exact ready
  cases callers with
  | nil => exact goes
  | cons caller callers => exact ⟨goes, runs.2⟩

/-- The invariant of machines that run compiled code. -/
structure Typed (machine : Machine) : Prop where
  sound : machine.Sound (Callable machine.constants)
  runs : Runs machine.constants machine.sp machine.frame machine.callers
  globals : machine.config.globalsSize ≤ machine.globals.size

/-- A run that compiled code stops: the program is to blame, or a limit has been reached. -/
def Stop.Ordinary (config : Config) : Stop → Prop
  | .fault fault => (fault.ofLanguage = true ∨ fault.ofLimits = true) ∧
      ∀ index, fault = .globalOutOfRange index → config.globalsSize ≤ index
  | .builtinFault _ fault => fault.ofLanguage = true
  | .crash => False

theorem room {machine : Machine} (sound : machine.Sound (Callable machine.constants)) {slot : Nat}
    (hslot : slot < (shape machine.frame machine.callers).locals) :
    machine.frame.base + slot < machine.stack.size := by
  have hcalls := sound.calls
  cases hcallers : machine.callers with
  | nil => simp [hcallers, shape, Code.mainShape] at hslot
  | cons caller callers =>
      rw [hcallers] at hcalls hslot
      have hroom := hcalls.2.1
      simp only [shape, Template.shape] at hslot
      omega

theorem shape_captured {frame : Frame} {callers : List Frame} {index : Nat}
    (hindex : index < (shape frame callers).captured) : index < frame.captured.length := by
  cases callers with
  | nil => simp [shape, Code.mainShape] at hindex
  | cons caller callers => exact hindex

theorem callable {machine : Machine} (sound : machine.Sound (Callable machine.constants))
    (hfunction : (shape machine.frame machine.callers).function = true) :
    Callable machine.constants machine.frame.template machine.frame.captured.length := by
  have hcalls := sound.calls
  cases hcallers : machine.callers with
  | nil => simp [hcallers, shape, Code.mainShape] at hfunction
  | cons caller callers =>
      rw [hcallers] at hcalls
      exact hcalls.2.2.1

/-- An instruction that finds what it takes and what its operands refer to is to blame for ordinary
stops only. -/
theorem ordinary_of_blame {machine : Machine} {instruction : Instruction} {stop : Stop}
    (sound : machine.Sound (Callable machine.constants))
    (hglobals : machine.config.globalsSize ≤ machine.globals.size)
    (hpops : instruction.pops ≤ machine.sp)
    (hallowed : (shape machine.frame machine.callers).Allows machine.constants instruction)
    (hreturn : instruction.op = .returnValue ∨ instruction.op = .returnNull →
      machine.callers ≠ [])
    (blame : Blame (Callable machine.constants) machine instruction stop) :
    Stop.Ordinary machine.config stop := by
  cases blame with
  | language hfault =>
      refine ⟨.inl hfault, ?_⟩
      rintro index rfl
      cases hfault
  | builtin hfault => exact hfault
  | stackOverflow | frameOverflow => exact ⟨.inr rfl, by simp⟩
  | globalOutOfRange houtside =>
      refine ⟨.inr rfl, ?_⟩
      rintro index ⟨⟩
      exact Nat.le_trans hglobals houtside
  | underflow hlow => omega
  | constantOutOfRange hop houtside =>
      rcases hop with hop | hop
      · simp only [Shape.Allows, hop] at hallowed
        omega
      · simp only [Shape.Allows, hop] at hallowed
        obtain ⟨template, hfound, -⟩ := hallowed
        rw [Array.getElem?_eq_none houtside] at hfound
        cases hfound
  | notFunction hop hfound hkind =>
      simp only [Shape.Allows, hop] at hallowed
      obtain ⟨template, hfound', -⟩ := hallowed
      rw [hfound] at hfound'
      exact absurd (Option.some.inj hfound') (hkind template)
  | builtinOutOfRange hop houtside =>
      simp only [Shape.Allows, hop] at hallowed
      omega
  | captureOutOfRange hop houtside =>
      simp only [Shape.Allows, hop] at hallowed
      have := shape_captured hallowed
      omega
  | tooFewLocals hcallable hlocals => exact absurd hcallable.parameters (Nat.not_le_of_lt hlocals)
  | returnOutsideFunction hop hmain => exact absurd hmain (hreturn hop)
  | crash hop houtside =>
      have hslot : instruction.operand 0 < (shape machine.frame machine.callers).locals := by
        rcases hop with hop | hop <;> simpa only [Shape.Allows, hop] using hallowed
      have := room sound hslot
      omega

theorem typed_of_beside {machine before after : Machine} {height : Nat}
    (beside : Beside (Callable machine.constants) before height after)
    (alike : Alike machine before) (hglobals : machine.config.globalsSize ≤ machine.globals.size)
    (hruns : Runs machine.constants height before.frame before.callers) :
    after.Typed ∧ Alike machine after := by
  have halike := alike.trans beside.alike
  refine ⟨⟨?_, ?_, ?_⟩, halike⟩
  · rw [halike.constants]
    exact beside.sound
  · rw [halike.constants, beside.sp, beside.frame, beside.callers]
    exact hruns
  · rw [halike.config, halike.globals]
    exact hglobals

theorem alike_advance (machine : Machine) (instruction : Instruction) :
    Alike machine (machine.advance instruction) :=
  ⟨rfl, rfl, rfl, rfl⟩

theorem Typed.next {machine after : Machine} {instruction : Instruction} {height : Nat}
    (typed : machine.Typed)
    (hsp : machine.sp = floor machine.frame machine.callers + (height + instruction.pops))
    (hfalls : instruction.FallsThrough)
    (htarget : ∀ target, instruction.target? = some target →
      Ready machine.constants (shape machine.frame machine.callers) target height)
    (hnext : Ready machine.constants (shape machine.frame machine.callers)
      (machine.frame.ip + instruction.size) (height + instruction.pushes))
    (effect : Effect (Callable machine.constants) (machine.advance instruction) instruction after) :
    after.Typed ∧ Alike machine after := by
  have hadvanced : (machine.advance instruction).sp = machine.sp := rfl
  cases effect with
  | worked _ _ beside =>
      rw [hadvanced, show machine.sp - instruction.pops + instruction.pushes =
        floor machine.frame machine.callers + (height + instruction.pushes) by omega] at beside
      exact typed_of_beside beside ⟨rfl, rfl, rfl, rfl⟩ typed.globals (typed.runs.goto hnext)
  | @jumped target htarget' _ beside =>
      rw [hadvanced, show machine.sp - instruction.pops =
        floor machine.frame machine.callers + height by omega] at beside
      exact typed_of_beside beside ⟨rfl, rfl, rfl, rfl⟩ typed.globals
        (typed.runs.goto (htarget target htarget'))
  | @called template ref captured hop _ _ sound alike hframe hcount hcallers hafter =>
      have halike : Alike machine after := (alike_advance machine instruction).trans alike
      have hcalls := sound.calls
      rw [hframe, hcallers] at hcalls
      obtain ⟨-, -, hcallable, -⟩ := hcalls
      have hbase : machine.sp - template.parameters =
          floor machine.frame machine.callers + (height + instruction.pushes) := by
        simp only [pops, pushes, hop, hcount] at hsp ⊢
        omega
      refine ⟨⟨by rw [halike.constants]; exact sound, ?_,
        by rw [halike.config, halike.globals]; exact typed.globals⟩, halike⟩
      rw [halike.constants, hafter, hframe, hcallers, hadvanced]
      refine ⟨⟨Nat.le_refl _, ?_⟩, ?_⟩
      · rw [floor, Nat.sub_self]
        exact hcallable.ready
      · simp only [hbase]
        exact typed.runs.goto hnext
  | returned hop =>
      rcases hop with hop | hop
      · exact absurd hop hfalls.2.1
      · exact absurd hop hfalls.2.2

theorem Typed.jump {machine after : Machine} {target : Nat} (typed : machine.Typed)
    (htarget : Ready machine.constants (shape machine.frame machine.callers) target
      (machine.sp - floor machine.frame machine.callers))
    (effect : Effect (Callable machine.constants) (machine.advance ⟨.jump, [target]⟩)
      ⟨.jump, [target]⟩ after) :
    after.Typed ∧ Alike machine after := by
  have habove := typed.runs.goes.above
  cases effect with
  | worked hfalls => exact absurd rfl hfalls.1
  | jumped htarget' _ beside =>
      cases htarget'
      have hruns := typed.runs.goto htarget
      rw [show floor machine.frame machine.callers +
        (machine.sp - floor machine.frame machine.callers) = machine.sp by omega] at hruns
      exact typed_of_beside beside ⟨rfl, rfl, rfl, rfl⟩ typed.globals hruns
  | called _ _ hop => cases hop
  | returned hop => rcases hop with hop | hop <;> cases hop

theorem Typed.leave {machine after : Machine} {instruction : Instruction} (typed : machine.Typed)
    (hop : instruction.op = .returnValue ∨ instruction.op = .returnNull)
    (effect : Effect (Callable machine.constants) (machine.advance instruction) instruction after) :
    after.Typed ∧ Alike machine after := by
  cases effect with
  | worked hfalls =>
      rcases hop with hop | hop
      · exact absurd hop hfalls.2.1
      · exact absurd hop hfalls.2.2
  | jumped htarget =>
      rcases hop with hop | hop <;> simp [target?, Opcode.isJump, hop] at htarget
  | called _ _ hcall => rcases hop with hop | hop <;> simp [hop] at hcall
  | returned _ _ sound alike hcallers hafter =>
      have halike : Alike machine after := (alike_advance machine instruction).trans alike
      have hruns := typed.runs
      have hcalling : machine.callers = after.frame :: after.callers := hcallers
      rw [hcalling] at hruns
      refine ⟨⟨by rw [halike.constants]; exact sound, ?_,
        by rw [halike.config, halike.globals]; exact typed.globals⟩, halike⟩
      rw [halike.constants, hafter]
      exact hruns.2

theorem Typed.stop {machine after : Machine} {instruction : Instruction} {stop : Stop}
    (typed : machine.Typed) (hpops : instruction.pops ≤ machine.sp)
    (hallowed : (shape machine.frame machine.callers).Allows machine.constants instruction)
    (hreturn : instruction.op = .returnValue ∨ instruction.op = .returnNull →
      machine.callers ≠ [])
    (hstop : (∃ limit, stop = .fault (.stepLimit limit) ∧ after = machine.advance instruction) ∨
      Stops (Callable machine.constants) (machine.advance instruction) instruction stop after) :
    Alike machine after ∧ after.Sound (Callable machine.constants) ∧
      Stop.Ordinary machine.config stop := by
  have hsound := typed.sound.advance instruction
  rcases hstop with ⟨limit, rfl, rfl⟩ | ⟨hblame, height, beside⟩
  · exact ⟨alike_advance _ _, hsound, .inr rfl, by simp⟩
  · refine ⟨(alike_advance _ _).trans beside.alike, beside.sound, ?_⟩
    change Stop.Ordinary (machine.advance instruction).config stop
    refine ordinary_of_blame hsound typed.globals hpops ?_ hreturn hblame
    change (shape { machine.frame with ip := _ } machine.callers).Allows machine.constants instruction
    rw [shape_goto machine.frame _ machine.callers]
    exact hallowed

/-- Every step of a typed machine leaves it typed; the run ends with an empty stack, or it stops for
an ordinary reason. -/
theorem Typed.step {machine : Machine} (typed : machine.Typed) :
    Meets Machine.step machine
      (fun more after => Alike machine after ∧ after.Typed ∧ (more = false → after.sp = 0))
      (fun stop after => Alike machine after ∧ after.Sound (Callable machine.constants) ∧
        Stop.Ordinary machine.config stop) := by
  have habove := typed.runs.goes.above
  have hready := typed.runs.goes.ready
  generalize htotal : machine.sp - floor machine.frame machine.callers = total at hready
  cases hready with
  | done hmain hend =>
      have hcallers : machine.callers = [] := by
        cases hcase : machine.callers with
        | nil => rfl
        | cons caller callers => simp [hcase, shape, Template.shape] at hmain
      have hfetch : machine.frame.template.code.fetch? machine.frame.ip = none := by
        rw [hend, shape_code]
        simp [Code.fetch?]
      rw [Meets, step_end hfetch, hcallers]
      refine ⟨.refl _, typed, fun _ => ?_⟩
      rw [hcallers, floor] at htotal
      exact htotal
  | @next _ _ height instruction hfetch hfalls hallowed hclosure htarget hnext =>
      rw [shape_code] at hfetch
      refine (step_meets typed.sound hfetch ?_ ?_).mono ?_ ?_
      · intro hop
        refine callable typed.sound ?_
        simpa only [Shape.Allows, hop] using hallowed
      · intro hop template hfound
        have hfound' : ∃ template, machine.constants[instruction.operand 0]? =
            some (.function template) ∧ template.parameters ≤ template.locals := by
          simpa only [Shape.Allows, hop] using hallowed
        obtain ⟨template', hsame, hparameters⟩ := hfound'
        rw [hfound] at hsame
        cases hsame
        exact ⟨hparameters, hclosure template hop hfound⟩
      · rintro more after ⟨rfl, heffect⟩
        obtain ⟨htyped, halike⟩ := typed.next (by omega) hfalls htarget hnext heffect
        exact ⟨halike, htyped, by simp⟩
      · intro stop after hstop
        refine typed.stop (by omega) hallowed ?_ hstop
        rintro (hop | hop)
        · exact absurd hop hfalls.2.1
        · exact absurd hop hfalls.2.2
  | @jump _ _ _ target hfetch htarget =>
      rw [shape_code] at hfetch
      refine (step_meets typed.sound hfetch (by simp) (by simp)).mono ?_ ?_
      · rintro more after ⟨rfl, heffect⟩
        rw [← htotal] at htarget
        obtain ⟨htyped, halike⟩ := typed.jump htarget heffect
        exact ⟨halike, htyped, by simp⟩
      · intro stop after hstop
        refine typed.stop ?_ ?_ ?_ hstop
        · exact Nat.zero_le _
        · trivial
        · simp
  | @leave _ _ height instruction hfunction hfetch hop =>
      rw [shape_code] at hfetch
      refine (step_meets typed.sound hfetch ?_ ?_).mono ?_ ?_
      · intro hcurrent
        rcases hop with hop | hop <;> simp [hop] at hcurrent
      · intro hclosure
        rcases hop with hop | hop <;> simp [hop] at hclosure
      · rintro more after ⟨rfl, heffect⟩
        obtain ⟨htyped, halike⟩ := typed.leave hop heffect
        exact ⟨halike, htyped, by simp⟩
      · intro stop after hstop
        refine typed.stop (by omega) ?_ ?_ hstop
        · rcases hop with hop | hop <;> simp [Shape.Allows, hop]
        · intro _ hcallers
          simp [hcallers, shape, Code.mainShape] at hfunction

/-- A run of a typed machine ends with an empty stack, or it stops for an ordinary reason, or it needs
more steps. What it leaves in the globals can be called with its constants. -/
theorem Typed.run {machine : Machine} (typed : machine.Typed) (fuel : Nat) :
    (∀ value ∈ (Machine.run fuel machine).2.globals, value.Good (Callable machine.constants)) ∧
      match Machine.run fuel machine with
      | (.unfinished, _) => True
      | (.finished, after) => after.sp = 0
      | (outcome, after) => ∃ stop, outcome = after.outcome stop ∧
          Stop.Ordinary machine.config stop := by
  have hagain : Alike machine { machine with steps := 0 } ∧ Typed { machine with steps := 0 } :=
    ⟨⟨rfl, rfl, rfl, rfl⟩, typed.sound.again, typed.runs, typed.globals⟩
  have hstep : ∀ before, Alike machine before ∧ before.Typed →
      Meets Machine.step before
        (fun more after =>
          (more = true → Alike machine after ∧ after.Typed) ∧
            (more = false → Alike machine after ∧ after.Typed ∧ after.sp = 0))
        (fun stop after => Alike machine after ∧ after.Sound (Callable machine.constants) ∧
          Stop.Ordinary machine.config stop) := by
    rintro before ⟨halike, htyped⟩
    refine htyped.step.mono ?_ ?_
    · rintro more after ⟨halike', htyped', hdone⟩
      exact ⟨fun _ => ⟨halike.trans halike', htyped'⟩,
        fun hmore => ⟨halike.trans halike', htyped', hdone hmore⟩⟩
    · rintro stop after ⟨halike', hsound, hordinary⟩
      rw [halike.constants] at hsound
      rw [halike.config] at hordinary
      exact ⟨halike.trans halike', hsound, hordinary⟩
  have hkeeps := runFor_keeps hstep fuel hagain
  rw [Machine.run]
  cases hrun : runFor fuel { machine with steps := 0 } with
  | mk outcome after =>
      rw [hrun] at hkeeps
      cases outcome with
      | unfinished =>
          obtain ⟨halike, htyped⟩ := hkeeps
          exact ⟨halike.constants ▸ htyped.sound.globals, trivial⟩
      | finished =>
          obtain ⟨halike, htyped, hsp⟩ := hkeeps
          exact ⟨halike.constants ▸ htyped.sound.globals, hsp⟩
      | crashed =>
          obtain ⟨stop, houtcome, -, hsound, hordinary⟩ := hkeeps
          exact ⟨hsound.globals, stop, houtcome, hordinary⟩
      | failed error =>
          obtain ⟨stop, houtcome, -, hsound, hordinary⟩ := hkeeps
          exact ⟨hsound.globals, stop, houtcome, hordinary⟩

end Machine

end Stacklang
