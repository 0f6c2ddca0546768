import Stacklang.Proofs.Machine.Fetched
import Stacklang.Proofs.Machine.Sound

namespace Stacklang

def Instruction.pops (instruction : Instruction) : Nat :=
  match instruction.op with
  | .constant | .pushTrue | .pushFalse | .pushNull | .jump | .getGlobal | .getLocal | .getFree
  | .getBuiltin | .currentClosure | .returnNull => 0
  | .pop | .not | .negate | .jumpNotTruthy | .setGlobal | .setLocal | .returnValue => 1
  | .add | .sub | .mul | .div | .equal | .notEqual | .greaterThan | .index => 2
  | .array | .hash => instruction.operand 0
  | .call => instruction.operand 0 + 1
  | .closure => instruction.operand 1

def Instruction.pushes (instruction : Instruction) : Nat :=
  match instruction.op with
  | .pop | .jump | .jumpNotTruthy | .setGlobal | .setLocal => 0
  | _ => 1

def Instruction.FallsThrough (instruction : Instruction) : Prop :=
  instruction.op ≠ .jump ∧ instruction.op ≠ .returnValue ∧ instruction.op ≠ .returnNull

structure Instruction.Plain (instruction : Instruction) (count : Nat) : Prop where
  pops : instruction.pops = count
  pushes : instruction.pushes = 1
  falls : instruction.FallsThrough

theorem Instruction.plain_op {op : Opcode} {operands : List Nat} {count : Nat}
    (hpops : pops ⟨op, operands⟩ = count := by rfl)
    (hpushes : pushes ⟨op, operands⟩ = 1 := by rfl)
    (hfalls : FallsThrough ⟨op, operands⟩ := by simp [FallsThrough]) : Plain ⟨op, operands⟩ count :=
  ⟨hpops, hpushes, hfalls⟩

namespace Machine

open Fallible Instruction

variable {property : Template → Nat → Prop}

theorem mem_of_mem_extract {stack : Array Value} {start stop : Nat} {value : Value}
    (member : value ∈ (stack.extract start stop).toList) : value ∈ stack := by
  rw [Array.toList_extract, List.extract_eq_take_drop] at member
  exact Array.mem_toList_iff.mp (List.mem_of_mem_drop (List.mem_of_mem_take member))

section

variable {before machine : Machine} {height : Nat} (beside : Beside property before height machine)

include beside

theorem push_meets {value : Value} (hvalue : value.Good property) :
    Meets (push value) machine (fun _ after => Beside property before (height + 1) after)
      (fun stop after => stop = .fault (.stackOverflow before.stack.size) ∧
        before.stack.size ≤ height ∧ Beside property before height after) := by
  refine .bind ?_
  change Meets (if _ then _ else _) _ _ _
  by_cases hroom : machine.sp < machine.stack.size
  · rw [if_pos hroom]
    have hwritten := beside.write machine.sp hvalue
    refine ⟨⟨hwritten.sound.stack, hwritten.sound.globals, hwritten.sound.captured, ?_,
      hwritten.sound.calls⟩, ?_, hwritten.frame, hwritten.callers,
      hwritten.alike.trans ⟨rfl, rfl, rfl, rfl⟩⟩
    · simpa [Nat.succ_le_iff] using hroom
    · exact congrArg (· + 1) beside.sp
  · rw [if_neg hroom]
    rw [beside.sp, beside.alike.slots] at hroom
    exact ⟨by rw [beside.alike.slots], Nat.le_of_not_lt hroom, beside⟩

theorem pop_meets :
    Meets pop machine
      (fun value after => 1 ≤ height ∧ value.Good property ∧
        Beside property before (height - 1) after)
      (fun stop after => stop = .fault .stackUnderflow ∧ height < 1 ∧
        Beside property before height after) := by
  refine .bind ?_
  have hsp := beside.sp
  cases hcase : machine.sp with
  | zero =>
      simp only [Meets, run_get, hcase]
      exact ⟨rfl, by omega, beside⟩
  | succ sp =>
      simp only [Meets, run_get, hcase]
      refine ⟨by omega, forall_getD beside.sound.stack .null sp, ?_⟩
      have hcut := beside.cut sp (by omega)
      rwa [show height - 1 = sp by omega]

theorem takeRun_meets (count : Nat) :
    Meets (takeRun count) machine
      (fun values after => count ≤ height ∧ values.length = count ∧
        (∀ value ∈ values, value.Good property) ∧
        Beside property before (height - count) after)
      (fun stop after => stop = .fault .stackUnderflow ∧ height < count ∧
        Beside property before height after) := by
  refine .bind ?_
  have hsp := beside.sp
  change Meets (if _ then _ else _) _ _ _
  by_cases henough : count ≤ machine.sp
  · rw [if_pos henough]
    refine ⟨by omega, ?_, ?_, ?_⟩
    · have hinside := beside.sound.inside
      simp only [Array.length_toList, Array.size_extract]
      omega
    · exact fun value member => beside.sound.stack value (mem_of_mem_extract member)
    · have hcut := beside.cut (machine.sp - count) (by omega)
      rw [← hsp]
      exact hcut
  · rw [if_neg henough]
    exact ⟨rfl, by omega, beside⟩

theorem newRef_meets {bad : Stop → Machine → Prop} :
    Meets newRef machine (fun _ after => Beside property before height after) bad :=
  beside.move _

end

structure FailsIn (machine : Machine) (instruction : Instruction) (builtin : Builtin)
    (fault : Fault) : Prop where
  op : instruction.op = .call
  enough : instruction.operand 0 + 1 ≤ machine.sp
  callee : machine.stack.getD (machine.sp - (instruction.operand 0 + 1)) Value.null =
    .builtin builtin
  fails : (builtin.apply (machine.stack.extract (machine.sp - instruction.operand 0)
    machine.sp).toList).run machine.world = .error fault

inductive Blame (property : Template → Nat → Prop) (machine : Machine) (instruction : Instruction) :
    Stop → Prop where
  | language {fault : Fault} (hfault : fault.ofLanguage = true) :
      Blame property machine instruction (.fault fault)
  | builtin {builtin : Builtin} {fault : Fault} (hfault : fault.ofLanguage = true)
      (fails : FailsIn machine instruction builtin fault) :
      Blame property machine instruction (.builtinFault builtin fault)
  | stackOverflow : Blame property machine instruction (.fault (.stackOverflow machine.stack.size))
  | frameOverflow :
      Blame property machine instruction (.fault (.frameOverflow machine.config.maxFrames))
  | globalOutOfRange (houtside : machine.globals.size ≤ instruction.operand 0) :
      Blame property machine instruction (.fault (.globalOutOfRange (instruction.operand 0)))
  | underflow (hlow : machine.sp < instruction.pops) :
      Blame property machine instruction (.fault .stackUnderflow)
  | constantOutOfRange (hop : instruction.op = .constant ∨ instruction.op = .closure)
      (houtside : machine.constants.size ≤ instruction.operand 0) :
      Blame property machine instruction (.fault (.constantOutOfRange (instruction.operand 0)))
  | notFunction {kind : String} {constant : Constant} (hop : instruction.op = .closure)
      (hfound : machine.constants[instruction.operand 0]? = some constant)
      (hkind : ∀ template, constant ≠ .function template) :
      Blame property machine instruction (.fault (.notFunction kind))
  | builtinOutOfRange (hop : instruction.op = .getBuiltin)
      (houtside : Builtin.all.length ≤ instruction.operand 0) :
      Blame property machine instruction (.fault (.builtinOutOfRange (instruction.operand 0)))
  | captureOutOfRange (hop : instruction.op = .getFree)
      (houtside : machine.frame.captured.length ≤ instruction.operand 0) :
      Blame property machine instruction (.fault (.captureOutOfRange (instruction.operand 0)))
  | tooFewLocals {template : Template} {count : Nat} (hproperty : property template count)
      (hlocals : template.locals < template.parameters) :
      Blame property machine instruction
        (.fault (.tooFewLocals template.parameters template.locals))
  | returnOutsideFunction (hop : instruction.op = .returnValue ∨ instruction.op = .returnNull)
      (hmain : machine.callers = []) :
      Blame property machine instruction (.fault .returnOutsideFunction)
  | crash (hop : instruction.op = .getLocal ∨ instruction.op = .setLocal)
      (houtside : machine.stack.size ≤ machine.frame.base + instruction.operand 0)
      (hpops : instruction.pops ≤ machine.sp) :
      Blame property machine instruction .crash

/-- What an instruction that does not stop the run does: it works on the stack, which may end in a
jump, it begins a call, or it ends one. -/
inductive Effect (property : Template → Nat → Prop) (before : Machine) (instruction : Instruction)
    (after : Machine) : Prop where
  | worked (hfalls : instruction.FallsThrough) (hpops : instruction.pops ≤ before.sp)
      (beside : Beside property before (before.sp - instruction.pops + instruction.pushes) after)
  | jumped {target : Nat} (htarget : instruction.target? = some target)
      (hpops : instruction.pops ≤ before.sp)
      (beside : Beside property { before with frame := { before.frame with ip := target } }
        (before.sp - instruction.pops) after)
  | called {template : Template} (ref : Ref) (captured : List Value) (hop : instruction.op = .call)
      (hpops : instruction.pops ≤ before.sp) (hparameters : template.parameters ≤ template.locals)
      (sound : after.Sound property) (alike : Alike before after)
      (hframe : after.frame = ⟨ref, template, captured, 0, before.sp - template.parameters⟩)
      (hcount : instruction.operand 0 = template.parameters)
      (hcallers : after.callers = before.frame :: before.callers)
      (hsp : after.sp = before.sp - template.parameters + template.locals)
  | returned (hop : instruction.op = .returnValue ∨ instruction.op = .returnNull)
      (hpops : instruction.pops ≤ before.sp)
      (sound : after.Sound property) (alike : Alike before after)
      (hcallers : before.callers = after.frame :: after.callers)
      (hsp : after.sp = before.frame.base)

def Stops (property : Template → Nat → Prop) (before : Machine) (instruction : Instruction)
    (stop : Stop) (after : Machine) : Prop :=
  Blame property before instruction stop ∧ ∃ height, Beside property before height after

def Executes (property : Template → Nat → Prop) (before : Machine) (instruction : Instruction)
    (step : MachineM Unit) (machine : Machine) : Prop :=
  Meets step machine (fun _ after => Effect property before instruction after)
    (Stops property before instruction)

section

variable {before machine : Machine} {instruction : Instruction} {height : Nat}

theorem get_executes {next : Machine → MachineM Unit}
    (hnext : Executes property before instruction (next machine) machine) :
    Executes property before instruction (get >>= next) machine :=
  .bind hnext

theorem push_executes (beside : Beside property before height machine) {value : Value}
    (hvalue : value.Good property) {count : Nat} (hplain : instruction.Plain count)
    (hheight : height + count = before.sp) :
    Executes property before instruction (push value) machine := by
  refine (push_meets beside hvalue).mono ?_ ?_
  · intro _ after hafter
    refine .worked hplain.falls (by rw [hplain.pops]; omega) ?_
    rwa [hplain.pushes, hplain.pops, show before.sp - count = height by omega]
  · rintro _ after ⟨rfl, -, hafter⟩
    exact ⟨.stackOverflow, height, hafter⟩

theorem pop_executes {next : Value → MachineM Unit}
    (beside : Beside property before height machine) (taken : Nat) (hheight : height + taken = before.sp)
    (hpops : taken < instruction.pops)
    (hnext : ∀ value after, 1 ≤ height → value.Good property →
      Beside property before (height - 1) after →
      Executes property before instruction (next value) after) :
    Executes property before instruction (pop >>= next) machine := by
  refine (pop_meets beside).andThen ?_ ?_
  · rintro value after ⟨hless, hvalue, hafter⟩
    exact hnext value after hless hvalue hafter
  · rintro _ after ⟨rfl, hempty, hafter⟩
    exact ⟨.underflow (by omega), height, hafter⟩

theorem takeRun_executes {next : List Value → MachineM Unit}
    (sound : before.Sound property) (count : Nat) (hpops : instruction.pops = count)
    (hnext : ∀ values after, count ≤ before.sp → values.length = count →
      (∀ value ∈ values, value.Good property) →
      Beside property before (before.sp - count) after →
      Executes property before instruction (next values) after) :
    Executes property before instruction (takeRun count >>= next) before := by
  refine (takeRun_meets sound.beside count).andThen ?_ ?_
  · rintro values after ⟨hless, hlength, hvalues, hafter⟩
    exact hnext values after hless hlength hvalues hafter
  · rintro _ after ⟨rfl, hempty, hafter⟩
    exact ⟨.underflow (by omega), _, hafter⟩

theorem newRef_executes {next : Ref → MachineM Unit} (beside : Beside property before height machine)
    (hnext : ∀ ref after, Beside property before height after →
      Executes property before instruction (next ref) after) :
    Executes property before instruction (newRef >>= next) machine :=
  (newRef_meets beside).andThen hnext fun _ _ hbad => hbad

theorem fail_executes (beside : Beside property before height machine) {fault : Fault}
    (hblame : Blame property before instruction (.fault fault)) :
    Executes property before instruction (fail fault) machine :=
  ⟨hblame, height, beside⟩

theorem ofLanguage_operandFault (op : String) (left right : Value) :
    (operandFault op left right).ofLanguage = true := by
  unfold operandFault
  split <;> rfl

theorem ofLanguage_eval {op : Arithmetic} {left right : Int64} {fault : Fault}
    (hfault : op.eval left right = .error fault) : fault.ofLanguage = true := by
  cases op with
  | div =>
      simp only [Arithmetic.eval] at hfault
      split at hfault
      next =>
        cases hfault
        rfl
      next => cases hfault
  | _ => cases hfault

theorem pop_pop_executes {next : Value → Value → MachineM Unit} (sound : before.Sound property)
    (hpops : instruction.pops = 2)
    (hnext : ∀ left right after height, left.Good property → right.Good property →
      height + 2 = before.sp → Beside property before height after →
      Executes property before instruction (next right left) after) :
    Executes property before instruction (pop >>= fun right => pop >>= next right) before := by
  refine pop_executes sound.beside 0 rfl (by omega) fun right after hone hright hafter => ?_
  refine pop_executes hafter 1 (by omega) (by omega)
    fun left after' htwo hleft hafter' => ?_
  exact hnext left right after' _ hleft hright (by omega) hafter'

theorem arithmetic_executes (sound : before.Sound property) (op : Arithmetic)
    (hplain : instruction.Plain 2) :
    Executes property before instruction (arithmetic op) before := by
  refine pop_pop_executes sound hplain.pops
    fun left right after height hleft hright hheight hafter => ?_
  split
  next l r =>
    cases heval : op.eval l r with
    | ok n => exact push_executes hafter (.integer n) hplain hheight
    | error fault => exact fail_executes hafter (.language (ofLanguage_eval heval))
  next =>
    split
    next =>
      refine newRef_executes hafter fun ref after' hafter' => ?_
      exact push_executes hafter' (.string ref _) hplain hheight
    next => exact fail_executes hafter (.language (ofLanguage_operandFault _ _ _))
  next => exact fail_executes hafter (.language (ofLanguage_operandFault _ _ _))

theorem compareIdentity_executes (sound : before.Sound property) (wanted : Bool)
    (hplain : instruction.Plain 2) :
    Executes property before instruction (compareIdentity wanted) before := by
  refine pop_pop_executes sound hplain.pops fun left right after height _ _ hheight hafter => ?_
  exact push_executes hafter (.boolean _) hplain hheight

theorem compareGreater_executes (sound : before.Sound property) (hplain : instruction.Plain 2) :
    Executes property before instruction compareGreater before := by
  refine pop_pop_executes sound hplain.pops fun left right after height _ _ hheight hafter => ?_
  split
  next => exact push_executes hafter (.boolean _) hplain hheight
  next => exact fail_executes hafter (.language (ofLanguage_operandFault _ _ _))

theorem pushConstant_executes (sound : before.Sound property) (operands : List Nat) :
    Executes property before ⟨.constant, operands⟩
      (pushConstant (operand ⟨.constant, operands⟩ 0)) before := by
  refine get_executes ?_
  cases hfound : before.constants[operand ⟨.constant, operands⟩ 0]? with
  | none =>
      exact fail_executes sound.beside
        (.constantOutOfRange (.inl rfl) (Array.getElem?_eq_none_iff.mp hfound))
  | some constant =>
      exact push_executes sound.beside (Value.good_constant _ _ _) plain_op rfl

theorem pushClosure_executes (sound : before.Sound property) (operands : List Nat)
    (hclosure : ∀ template,
      before.constants[operand ⟨.closure, operands⟩ 0]? = some (.function template) →
        property template (operand ⟨.closure, operands⟩ 1)) :
    Executes property before ⟨.closure, operands⟩
      (pushClosure (operand ⟨.closure, operands⟩ 0) (operand ⟨.closure, operands⟩ 1)) before := by
  refine get_executes ?_
  cases hfound : before.constants[operand ⟨.closure, operands⟩ 0]? with
  | none =>
      exact fail_executes sound.beside
        (.constantOutOfRange (.inr rfl) (Array.getElem?_eq_none_iff.mp hfound))
  | some constant =>
      cases constant with
      | integer value =>
          exact fail_executes sound.beside (.notFunction rfl hfound (by simp))
      | string text =>
          exact fail_executes sound.beside (.notFunction rfl hfound (by simp))
      | function template =>
          refine takeRun_executes sound _ rfl fun values after henough hlength hvalues hafter => ?_
          refine newRef_executes hafter fun ref after' hafter' => ?_
          refine push_executes hafter' (Value.good_closure.mpr ⟨?_, hvalues⟩)
            plain_op (by simp only [pops]; omega)
          rw [hlength]
          exact hclosure template hfound

theorem getGlobal_executes (sound : before.Sound property) (operands : List Nat) :
    Executes property before ⟨.getGlobal, operands⟩
      (getGlobal (operand ⟨.getGlobal, operands⟩ 0)) before := by
  refine get_executes ?_
  cases hfound : before.globals[operand ⟨.getGlobal, operands⟩ 0]? with
  | none =>
      exact fail_executes sound.beside (.globalOutOfRange (Array.getElem?_eq_none_iff.mp hfound))
  | some value =>
      exact push_executes sound.beside (sound.globals value (Array.mem_of_getElem? hfound))
        plain_op rfl

theorem setGlobal_executes (sound : before.Sound property) (operands : List Nat) :
    Executes property before ⟨.setGlobal, operands⟩
      (setGlobal (operand ⟨.setGlobal, operands⟩ 0)) before := by
  refine pop_executes sound.beside 0 rfl Nat.one_pos
    fun value after hone hvalue hafter => get_executes ?_
  by_cases hinside : operand ⟨.setGlobal, operands⟩ 0 < after.globals.size
  · rw [if_pos hinside]
    exact .worked (by simp [FallsThrough]) hone (hafter.writeGlobal _ hvalue)
  · rw [if_neg hinside]
    refine fail_executes hafter (.globalOutOfRange ?_)
    rw [← hafter.alike.globals]
    exact Nat.le_of_not_lt hinside

theorem getLocal_executes (sound : before.Sound property) (operands : List Nat) :
    Executes property before ⟨.getLocal, operands⟩
      (getLocal (operand ⟨.getLocal, operands⟩ 0)) before := by
  refine get_executes ?_
  cases hfound : before.stack[before.frame.base + operand ⟨.getLocal, operands⟩ 0]? with
  | none =>
      exact ⟨.crash (.inl rfl) (Array.getElem?_eq_none_iff.mp hfound) (Nat.zero_le _), _,
        sound.beside⟩
  | some value =>
      exact push_executes sound.beside (sound.stack value (Array.mem_of_getElem? hfound))
        plain_op rfl

theorem setLocal_executes (sound : before.Sound property) (operands : List Nat) :
    Executes property before ⟨.setLocal, operands⟩
      (setLocal (operand ⟨.setLocal, operands⟩ 0)) before := by
  refine pop_executes sound.beside 0 rfl Nat.one_pos
    fun value after hone hvalue hafter => get_executes ?_
  by_cases hinside :
      after.frame.base + operand ⟨.setLocal, operands⟩ 0 < after.stack.size
  · rw [if_pos hinside]
    exact .worked (by simp [FallsThrough]) hone (hafter.write _ hvalue)
  · rw [if_neg hinside]
    rw [hafter.frame, hafter.alike.slots] at hinside
    exact ⟨.crash (.inr rfl) (Nat.le_of_not_lt hinside) hone, _, hafter⟩

theorem callClosure_executes (sound : before.Sound property) (operands : List Nat) {ref : Ref}
    {template : Template} {captured : List Value}
    (henough : operand ⟨.call, operands⟩ 0 + 1 ≤ before.sp)
    (hproperty : property template captured.length)
    (hcaptured : ∀ value ∈ captured, value.Good property) :
    Executes property before ⟨.call, operands⟩
      (callClosure ref template captured (operand ⟨.call, operands⟩ 0)) before := by
  refine get_executes ?_
  dsimp only
  by_cases harity : operand ⟨.call, operands⟩ 0 ≠ template.parameters
  · rw [if_pos harity]
    exact fail_executes sound.beside (.language rfl)
  · rw [if_neg harity]
    rw [Classical.not_not] at harity
    by_cases hframes : before.frames.length ≥ before.config.maxFrames
    · rw [if_pos hframes]
      exact fail_executes sound.beside .frameOverflow
    · rw [if_neg hframes]
      by_cases hroom : before.sp - operand ⟨.call, operands⟩ 0 + template.locals > before.stack.size
      · rw [if_pos hroom]
        exact fail_executes sound.beside .stackOverflow
      · rw [if_neg hroom]
        by_cases hlocals : template.parameters > template.locals
        · rw [if_pos hlocals]
          exact fail_executes sound.beside (.tooFewLocals hproperty hlocals)
        · rw [if_neg hlocals]
          refine .called ref captured rfl henough (Nat.le_of_not_lt hlocals)
            ⟨sound.stack, sound.globals, ?_, Nat.le_of_not_lt hroom, ?_⟩ ⟨rfl, rfl, rfl, rfl⟩ ?_ harity
            rfl ?_
          · intro frame member
            rcases List.mem_cons.mp member with rfl | member
            · exact hcaptured
            · exact sound.captured frame member
          · exact ⟨by dsimp only; omega, Nat.le_of_not_lt hroom, hproperty, sound.calls⟩
          · rw [← harity]
          · rw [← harity]

theorem callBuiltin_executes (sound : before.Sound property) (operands : List Nat)
    (builtin : Builtin) (henough : operand ⟨.call, operands⟩ 0 + 1 ≤ before.sp)
    (hcallee : before.stack.getD (before.sp - (operand ⟨.call, operands⟩ 0 + 1)) Value.null =
      .builtin builtin) :
    Executes property before ⟨.call, operands⟩
      (callBuiltin builtin (operand ⟨.call, operands⟩ 0)) before := by
  refine get_executes ?_
  dsimp only
  have harguments : ∀ value ∈
      (before.stack.extract (before.sp - operand ⟨.call, operands⟩ 0) before.sp).toList,
      value.Good property :=
    fun value member => sound.stack value (mem_of_mem_extract member)
  have hgood := Builtin.apply_good builtin harguments before.world
  split
  next fault happly =>
    rw [happly] at hgood
    exact ⟨.builtin hgood ⟨rfl, henough, hcallee, happly⟩, _, sound.beside⟩
  next result world happly =>
    rw [happly] at hgood
    have hcut := (sound.beside.move world).cut (before.sp - (operand ⟨.call, operands⟩ 0 + 1))
      (Nat.sub_le _ _)
    refine Meets.bind ?_
    exact push_executes hcut hgood plain_op
      (by simp only [pops]; omega)

theorem call_executes (sound : before.Sound property) (operands : List Nat) :
    Executes property before ⟨.call, operands⟩ (call (operand ⟨.call, operands⟩ 0)) before := by
  refine get_executes ?_
  by_cases hlow : before.sp < operand ⟨.call, operands⟩ 0 + 1
  · rw [if_pos hlow]
    exact fail_executes sound.beside (.underflow hlow)
  · rw [if_neg hlow]
    have henough := Nat.le_of_not_lt hlow
    have hgood := forall_getD sound.stack .null (before.sp - (operand ⟨.call, operands⟩ 0 + 1))
    cases hcallee : before.stack.getD (before.sp - (operand ⟨.call, operands⟩ 0 + 1))
      Value.null with
    | closure ref template captured =>
        rw [hcallee] at hgood
        obtain ⟨hproperty, hcaptured⟩ := Value.good_closure.mp hgood
        exact callClosure_executes sound operands henough hproperty hcaptured
    | builtin builtin => exact callBuiltin_executes sound operands builtin henough hcallee
    | _ => exact fail_executes sound.beside (.language rfl)

theorem leave_executes (beside : Beside property before height machine) {result : Value}
    (hresult : result.Good property)
    (hop : instruction.op = .returnValue ∨ instruction.op = .returnNull)
    (hpops : instruction.pops ≤ before.sp) :
    Executes property before instruction (leave result) machine := by
  refine get_executes ?_
  have hcalls := beside.sound.calls
  have hcallers := beside.callers
  cases hcase : machine.callers with
  | nil =>
      rw [hcase] at hcallers
      exact fail_executes beside (.returnOutsideFunction hop hcallers.symm)
  | cons caller callers =>
      rw [hcase] at hcalls hcallers
      obtain ⟨hbase, hroom, -, hrest⟩ := hcalls
      have hleft : Sound property
          { machine with frame := caller, callers, sp := machine.frame.base - 1 } := by
        refine ⟨beside.sound.stack, beside.sound.globals, ?_, ?_, hrest⟩
        · intro frame member
          refine beside.sound.captured frame ?_
          rw [frames, hcase]
          exact List.mem_cons_of_mem _ member
        · dsimp only
          omega
      refine Meets.bind ((push_meets hleft.beside hresult).mono ?_ ?_)
      · intro _ after hafter
        refine .returned hop hpops hafter.sound
          (beside.alike.trans ⟨hafter.alike.slots, hafter.alike.globals, hafter.alike.constants,
            hafter.alike.config⟩) ?_ ?_
        · rw [hafter.frame, hafter.callers]
          exact hcallers.symm
        · have hsp := hafter.sp
          dsimp only at hsp
          rw [hsp, ← beside.frame]
          omega
      · rintro _ after ⟨-, hfull, -⟩
        dsimp only at hfull
        omega

/-- Every instruction does one of the things it can do, or stops the run for one of its reasons. -/
theorem execute_executes (sound : before.Sound property) (instruction : Instruction)
    (hcurrent : instruction.op = .currentClosure →
      property before.frame.template before.frame.captured.length)
    (hclosure : instruction.op = .closure → ∀ template,
      before.constants[instruction.operand 0]? = some (.function template) →
        property template (instruction.operand 1)) :
    Executes property before instruction (execute instruction) before := by
  obtain ⟨op, operands⟩ := instruction
  cases op with
  | constant => exact pushConstant_executes sound operands
  | pop =>
      refine Meets.discard ((pop_meets sound.beside).mono ?_ ?_)
      · rintro _ after ⟨hone, -, hafter⟩
        exact .worked (by simp [FallsThrough]) hone hafter
      · rintro _ after ⟨rfl, hlow, hafter⟩
        exact ⟨.underflow hlow, _, hafter⟩
  | add => exact arithmetic_executes sound .add plain_op
  | sub => exact arithmetic_executes sound .sub plain_op
  | mul => exact arithmetic_executes sound .mul plain_op
  | div => exact arithmetic_executes sound .div plain_op
  | pushTrue | pushFalse =>
      exact push_executes sound.beside (.boolean _) plain_op rfl
  | pushNull => exact push_executes sound.beside .null plain_op rfl
  | equal => exact compareIdentity_executes sound true plain_op
  | notEqual => exact compareIdentity_executes sound false plain_op
  | greaterThan => exact compareGreater_executes sound plain_op
  | not =>
      refine pop_executes sound.beside 0 rfl Nat.one_pos
        fun value after hone _ hafter => ?_
      have hplain : Plain ⟨.not, operands⟩ 1 := plain_op
      exact push_executes hafter (.boolean _) hplain (by omega)
  | negate =>
      refine pop_executes sound.beside 0 rfl Nat.one_pos
        fun value after hone _ hafter => ?_
      split
      next n =>
        have hplain : Plain ⟨.negate, operands⟩ 1 := plain_op
        exact push_executes hafter (.integer _) hplain (by omega)
      next => exact fail_executes hafter (.language rfl)
  | jump => exact .jumped rfl (Nat.zero_le _) (sound.goto _).beside
  | jumpNotTruthy =>
      refine pop_executes sound.beside 0 rfl Nat.one_pos
        fun condition after hone _ hafter => ?_
      cases condition.isTruthy with
      | true => exact .worked (by simp [FallsThrough]) hone hafter
      | false =>
          refine .jumped rfl hone ⟨hafter.sound.goto _, hafter.sp, ?_, hafter.callers,
            ⟨hafter.alike.slots, hafter.alike.globals, hafter.alike.constants,
              hafter.alike.config⟩⟩
          exact congrArg (fun frame : Frame => { frame with ip := operands.getD 0 0 }) hafter.frame
  | getGlobal => exact getGlobal_executes sound operands
  | setGlobal => exact setGlobal_executes sound operands
  | getLocal => exact getLocal_executes sound operands
  | setLocal => exact setLocal_executes sound operands
  | getFree =>
      refine get_executes ?_
      cases hfound : before.frame.captured[operand ⟨.getFree, operands⟩ 0]? with
      | none =>
          exact fail_executes sound.beside
            (.captureOutOfRange rfl (List.getElem?_eq_none_iff.mp hfound))
      | some value =>
          exact push_executes sound.beside
            (sound.captured _ (by simp [frames]) value (List.mem_of_getElem? hfound)) plain_op rfl
  | getBuiltin =>
      simp only [execute]
      split
      next hfound =>
        exact fail_executes sound.beside
          (.builtinOutOfRange rfl (List.getElem?_eq_none_iff.mp hfound))
      next builtin _ =>
        exact push_executes sound.beside (.builtin builtin) plain_op rfl
  | currentClosure =>
      refine get_executes (push_executes sound.beside (Value.good_closure.mpr ⟨hcurrent rfl, ?_⟩)
        plain_op rfl)
      exact sound.captured _ (by simp [frames])
  | array =>
      refine takeRun_executes sound _ rfl fun values after henough hlength hvalues hafter => ?_
      refine newRef_executes hafter fun ref after' hafter' => ?_
      exact push_executes hafter' (Value.good_array.mpr hvalues)
        plain_op (by simp only [pops]; omega)
  | hash =>
      refine takeRun_executes sound _ rfl fun values after henough hlength hvalues hafter => ?_
      have hentries := hashEntries_good hvalues
      generalize hashEntries [] values = outcome at hentries
      cases outcome with
      | error fault => exact fail_executes hafter (.language hentries)
      | ok entries =>
          refine newRef_executes hafter fun ref after' hafter' => ?_
          exact push_executes hafter' (hentries ref) plain_op
            (by simp only [pops]; omega)
  | index =>
      refine pop_pop_executes sound rfl
        fun container index after height hcontainer hindex hheight hafter => ?_
      have hfound := lookUp_good hcontainer hindex
      generalize lookUp container index = outcome at hfound
      cases outcome with
      | ok value =>
          exact push_executes hafter hfound plain_op hheight
      | error fault => exact fail_executes hafter (.language hfound)
  | call => exact call_executes sound operands
  | returnValue =>
      refine pop_executes sound.beside 0 rfl Nat.one_pos
        fun value after hone hvalue hafter => ?_
      exact leave_executes hafter hvalue (.inl rfl) hone
  | returnNull => exact leave_executes sound.beside .null (.inr rfl) (Nat.zero_le _)
  | closure => exact pushClosure_executes sound operands (hclosure rfl)

end

def advance (machine : Machine) (instruction : Instruction) : Machine :=
  { machine with
    frame := { machine.frame with ip := machine.frame.ip + instruction.size }
    steps := machine.steps + 1 }

theorem step_end {machine : Machine}
    (hfetch : machine.frame.template.code.fetch? machine.frame.ip = none) :
    step.run machine =
      (if machine.callers.isEmpty then .ok false else .error (.fault .missingReturn), machine) := by
  rw [step, run_bind, fetch_end hfetch]
  cases machine.callers.isEmpty <;> rfl

theorem step_undecodable {machine : Machine} {fault : DecodeFault}
    (hfetch : machine.frame.template.code.fetch? machine.frame.ip = some (.error fault)) :
    step.run machine = (.error (.fault (.undecodable fault machine.frame.ip)), machine) := by
  rw [step, run_bind, fetch_undecodable hfetch]

theorem step_run {machine : Machine} {instruction : Instruction}
    (hfetch : machine.frame.template.code.fetch? machine.frame.ip = some (.ok instruction)) :
    (∃ limit, machine.config.maxSteps = some limit ∧ limit < machine.steps + 1 ∧
        step.run machine = (.error (.fault (.stepLimit limit)), machine.advance instruction)) ∨
      (∀ limit, machine.config.maxSteps = some limit → machine.steps + 1 ≤ limit) ∧
        step.run machine =
          (do
            execute instruction
            return true).run (machine.advance instruction) := by
  have hstep : step.run machine =
      (do
        tick
        execute instruction
        return true).run
        { machine with
          frame := { machine.frame with ip := machine.frame.ip + instruction.size } } := by
    rw [step, run_bind, fetch_run hfetch]
    simp only [execute_slotted]
  rw [hstep]
  cases hlimit : machine.config.maxSteps with
  | none =>
      refine .inr ⟨by simp, ?_⟩
      simp only [tick, run_bind, run_modify, run_get, hlimit]
      rfl
  | some limit =>
      by_cases hmore : machine.steps + 1 > limit
      · refine .inl ⟨limit, rfl, hmore, ?_⟩
        simp only [tick, run_bind, run_modify, run_get, hlimit, if_pos hmore]
        rfl
      · refine .inr ⟨by simpa using Nat.le_of_not_lt hmore, ?_⟩
        simp only [tick, run_bind, run_modify, run_get, hlimit, if_neg hmore]
        rfl

/-- A step ends the run or stops it before anything is executed, or it is what its instruction is. -/
theorem step_meets_of {machine : Machine} {good : Bool → Machine → Prop}
    {bad : Stop → Machine → Prop} (hend : good false machine)
    (hunread : ∀ fault, bad (.fault fault) machine)
    (hlimited : ∀ limit instruction,
      machine.frame.template.code.fetch? machine.frame.ip = some (.ok instruction) →
        bad (.fault (.stepLimit limit)) (machine.advance instruction))
    (hexecute : ∀ instruction,
      machine.frame.template.code.fetch? machine.frame.ip = some (.ok instruction) →
        Meets (execute instruction) (machine.advance instruction) (fun _ after => good true after)
          bad) :
    Meets step machine good bad := by
  cases hfetch : machine.frame.template.code.fetch? machine.frame.ip with
  | none =>
      rw [Meets, step_end hfetch]
      cases machine.callers.isEmpty with
      | true => exact hend
      | false => exact hunread _
  | some decoded =>
      cases decoded with
      | error fault =>
          rw [Meets, step_undecodable hfetch]
          exact hunread _
      | ok instruction =>
          rcases step_run hfetch with ⟨limit, -, -, hrun⟩ | ⟨-, hrun⟩
          · rw [Meets, hrun]
            exact hlimited limit instruction hfetch
          · rw [Meets, hrun]
            exact (hexecute instruction hfetch).andThen (fun _ _ h => h) fun _ _ h => h

theorem Sound.advance {machine : Machine} (sound : machine.Sound property)
    (instruction : Instruction) : (machine.advance instruction).Sound property := by
  have hgoto := sound.goto (machine.frame.ip + instruction.size)
  exact ⟨hgoto.stack, hgoto.globals, hgoto.captured, hgoto.inside, hgoto.calls⟩

theorem step_meets {machine : Machine} {instruction : Instruction}
    (sound : machine.Sound property)
    (hfetch : machine.frame.template.code.fetch? machine.frame.ip = some (.ok instruction))
    (hcurrent : instruction.op = .currentClosure →
      property machine.frame.template machine.frame.captured.length)
    (hclosure : instruction.op = .closure → ∀ template,
      machine.constants[instruction.operand 0]? = some (.function template) →
        property template (instruction.operand 1)) :
    Meets step machine
      (fun more after => more = true ∧
        Effect property (machine.advance instruction) instruction after)
      (fun stop after =>
        (∃ limit, stop = .fault (.stepLimit limit) ∧ after = machine.advance instruction) ∨
          Stops property (machine.advance instruction) instruction stop after) := by
  rcases step_run hfetch with ⟨limit, -, -, hrun⟩ | ⟨-, hrun⟩
  · rw [Meets, hrun]
    exact .inl ⟨limit, rfl, rfl⟩
  · rw [Meets, hrun]
    refine Meets.andThen (execute_executes (sound.advance instruction) instruction hcurrent hclosure)
      ?_ ?_
    · intro _ after heffect
      exact ⟨rfl, heffect⟩
    · exact fun stop after hstops => .inr hstops

end Machine

end Stacklang
