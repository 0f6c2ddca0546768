import Stacklang.Machine

namespace Stacklang.Machine

variable {Body : Type}

def fail {α : Type} (fault : Fault) : MachineM α :=
  throw (.fault fault)

def push (value : Value) : MachineM Unit := do
  let machine ← get
  if machine.sp < machine.stack.size then
    modify fun machine =>
      { machine with
        stack := machine.stack.setIfInBounds machine.sp value
        sp := machine.sp + 1 }
  else fail (.stackOverflow machine.stack.size)

def pop : MachineM Value := do
  let machine ← get
  match machine.sp with
  | 0 => fail .stackUnderflow
  | sp + 1 =>
      modify fun machine => { machine with sp }
      return machine.stack.getD sp Value.null

def takeRun (count : Nat) : MachineM (List Value) := do
  let machine ← get
  if count ≤ machine.sp then
    modify fun machine => { machine with sp := machine.sp - count }
    return (machine.stack.extract (machine.sp - count) machine.sp).toList
  else fail .stackUnderflow

def newRef : MachineM Ref :=
  modifyGet fun machine =>
    let (ref, world) := machine.world.allocate
    (ref, { machine with world })

def jump (target : Nat) : MachineM Unit :=
  modify fun machine => { machine with frame := { machine.frame with ip := target } }

def operandFault (op : String) (left right : Value Body) : Fault :=
  if left.kind == right.kind then .unknownBinary op left.kind right.kind
  else .typeMismatch op left.kind right.kind

/-- Arithmetic wraps around, and division goes toward zero. -/
inductive Arithmetic where
  | add
  | sub
  | mul
  | div
  deriving Repr, DecidableEq

def Arithmetic.symbol : Arithmetic → String
  | add => "+"
  | sub => "-"
  | mul => "*"
  | div => "/"

def Arithmetic.eval : Arithmetic → Int64 → Int64 → Except Fault Int64
  | add, left, right => .ok (left + right)
  | sub, left, right => .ok (left - right)
  | mul, left, right => .ok (left * right)
  | div, left, right => if right = 0 then .error .divisionByZero else .ok (left / right)

/-- Pops two operands and pushes the result. Strings can be added. -/
def arithmetic (op : Arithmetic) : MachineM Unit := do
  let right ← pop
  let left ← pop
  match left, right with
  | .integer l, .integer r =>
      match op.eval l r with
      | .ok n => push (.integer n)
      | .error fault => fail fault
  | .string _ l, .string _ r =>
      if op = .add then
        let ref ← newRef
        push (.string ref (l ++ r))
      else fail (operandFault op.symbol left right)
  | _, _ => fail (operandFault op.symbol left right)

def compareIdentity (wanted : Bool) : MachineM Unit := do
  let right ← pop
  let left ← pop
  push (.boolean (left.identical right == wanted))

def compareGreater : MachineM Unit := do
  let right ← pop
  let left ← pop
  match left, right with
  | .integer l, .integer r => push (.boolean (decide (r < l)))
  | _, _ => fail (operandFault ">" left right)

/-- The entries of a hash from keys and values in turn. Of equal keys the last one counts. -/
def hashEntries (entries : Entries (Value Body × Value Body)) :
    List (Value Body) → Except Fault (Entries (Value Body × Value Body))
  | key :: value :: rest =>
      match key.hashKey? with
      | none => .error (.unusableHashKey key.kind)
      | some hashKey => hashEntries (entries.insert hashKey (key, value)) rest
  | _ => .ok entries

/-- What a container holds at an index; null where there is nothing. -/
def lookUp (container index : Value Body) : Except Fault (Value Body) :=
  match container, index with
  | .array _ items, .integer position =>
      .ok (if position < 0 then .null else items.getD position.toInt.toNat .null)
  | .hash _ entries, key =>
      match key.hashKey? with
      | none => .error (.unusableHashKey key.kind)
      | some hashKey =>
          .ok (match Entries.find? hashKey entries with
            | some (_, value) => value
            | none => .null)
  | _, _ => .error (.unsupportedIndex container.kind index.kind)

/-- Calls a closure whose arguments are on the stack: they become its first locals. -/
def callClosure (ref : Ref) (template : Template) (captured : List Value) (count : Nat) :
    MachineM Unit := do
  let machine ← get
  let base := machine.sp - count
  if count ≠ template.parameters then fail (.wrongArity template.parameters count)
  else if machine.frames.length ≥ machine.config.maxFrames then
    fail (.frameOverflow machine.config.maxFrames)
  else if base + template.locals > machine.stack.size then
    fail (.stackOverflow machine.stack.size)
  else if template.parameters > template.locals then
    fail (.tooFewLocals template.parameters template.locals)
  else
    modify fun machine =>
      { machine with
        frame := ⟨ref, template, captured, 0, base⟩
        callers := machine.frame :: machine.callers
        sp := base + template.locals }

/-- Calls a builtin on the arguments on the stack; they and the callee make room for the result. -/
def callBuiltin (builtin : Builtin) (count : Nat) : MachineM Unit := do
  let machine ← get
  let arguments := (machine.stack.extract (machine.sp - count) machine.sp).toList
  match (builtin.apply arguments).run machine.world with
  | .error fault => throw (.builtinFault builtin fault)
  | .ok (result, world) =>
      modify fun machine => { machine with world, sp := machine.sp - (count + 1) }
      push (result.getD .null)

def call (count : Nat) : MachineM Unit := do
  let machine ← get
  if machine.sp < count + 1 then fail .stackUnderflow
  else
    match machine.stack.getD (machine.sp - (count + 1)) Value.null with
    | .closure ref template captured => callClosure ref template captured count
    | .builtin builtin => callBuiltin builtin count
    | other => fail (.notCallable other.kind)

def leave (result : Value) : MachineM Unit := do
  match (← get).callers with
  | [] => fail .returnOutsideFunction
  | caller :: callers =>
      modify fun machine =>
        { machine with frame := caller, callers, sp := machine.frame.base - 1 }
      push result

def pushConstant (index : Nat) : MachineM Unit := do
  let machine ← get
  match machine.constants[index]? with
  | none => fail (.constantOutOfRange index)
  | some constant => push (constant.toValue machine.pool index)

def pushClosure (index count : Nat) : MachineM Unit := do
  let machine ← get
  match machine.constants[index]? with
  | none => fail (.constantOutOfRange index)
  | some (.function template) =>
      let captured ← takeRun count
      let ref ← newRef
      push (.closure ref template captured)
  | some other => fail (.notFunction (other.toValue machine.pool index).kind)

def getGlobal (index : Nat) : MachineM Unit := do
  match (← get).globals[index]? with
  | none => fail (.globalOutOfRange index)
  | some value => push value

def setGlobal (index : Nat) : MachineM Unit := do
  let value ← pop
  if index < (← get).globals.size then
    modify fun machine =>
      { machine with globals := machine.globals.setIfInBounds index value }
  else fail (.globalOutOfRange index)

def getLocal (slot : Nat) : MachineM Unit := do
  let machine ← get
  match machine.stack[machine.frame.base + slot]? with
  | none => throw .crash
  | some value => push value

def setLocal (slot : Nat) : MachineM Unit := do
  let value ← pop
  let machine ← get
  if machine.frame.base + slot < machine.stack.size then
    modify fun machine =>
      { machine with
        stack := machine.stack.setIfInBounds (machine.frame.base + slot) value }
  else throw .crash

def execute (instruction : Instruction) : MachineM Unit :=
  let operand := instruction.operand 0
  match instruction.op with
  | .constant => pushConstant operand
  | .pop => discard pop
  | .add => arithmetic .add
  | .sub => arithmetic .sub
  | .mul => arithmetic .mul
  | .div => arithmetic .div
  | .pushTrue => push (.boolean true)
  | .pushFalse => push (.boolean false)
  | .pushNull => push .null
  | .equal => compareIdentity true
  | .notEqual => compareIdentity false
  | .greaterThan => compareGreater
  | .not => do
      let value ← pop
      push (.boolean !value.isTruthy)
  | .negate => do
      match ← pop with
      | .integer n => push (.integer (-n))
      | other => fail (.unknownUnary "-" other.kind)
  | .jump => jump operand
  | .jumpNotTruthy => do
      let condition ← pop
      unless condition.isTruthy do jump operand
  | .getGlobal => getGlobal operand
  | .setGlobal => setGlobal operand
  | .getLocal => getLocal operand
  | .setLocal => setLocal operand
  | .getFree => do
      match (← get).frame.captured[operand]? with
      | none => fail (.captureOutOfRange operand)
      | some value => push value
  | .getBuiltin =>
      match Builtin.all[operand]? with
      | none => fail (.builtinOutOfRange operand)
      | some builtin => push (.builtin builtin)
  | .currentClosure => do
      let frame := (← get).frame
      push (.closure frame.ref frame.template frame.captured)
  | .array => do
      let items ← takeRun operand
      let ref ← newRef
      push (.array ref items)
  | .hash => do
      let run ← takeRun operand
      match hashEntries [] run with
      | .error fault => fail fault
      | .ok entries =>
          let ref ← newRef
          push (.hash ref entries)
  | .index => do
      let index ← pop
      let container ← pop
      match lookUp container index with
      | .error fault => fail fault
      | .ok value => push value
  | .call => call operand
  | .returnValue => do
      let value ← pop
      leave value
  | .returnNull => leave .null
  | .closure => pushClosure operand (instruction.operand 1)

/-- An operand of two bytes, or else of one. -/
def readSlot (code : Code) (offset : Nat) (width : Width) : Option Nat :=
  match width.size with
  | 2 => Width.word.read? code offset
  | _ => Width.byte.read? code offset

/-- Reads operands into slots, as long as there are both; a slot without an operand keeps what it
holds. The answer is also where the operands end. -/
def fillSlots (code : Code) (offset : Nat) : (slots : List Nat) → List Width →
    Option (List Nat × Nat)
  | _ :: slots, width :: widths => do
      let operand ← readSlot code offset width
      let (filled, stop) ← fillSlots code (offset + width.size) slots widths
      return (operand :: filled, stop)
  | slots, _ => some (slots, offset)

/-- Decodes the next instruction and goes past it; nothing at the end of the main program. There are
two slots for operands, whatever the instruction. -/
def fetch : MachineM (Option Instruction) := do
  let machine ← get
  let code := machine.frame.template.code
  let ip := machine.frame.ip
  match code[ip]? with
  | none => if machine.callers.isEmpty then return none else fail .missingReturn
  | some byte =>
      match Opcode.ofByte? byte with
      | none => fail (.undecodable (.unknownOpcode byte) ip)
      | some op =>
          match fillSlots code (ip + 1) [0, 0] op.widths with
          | none => fail (.undecodable (.truncated op) ip)
          | some (operands, stop) =>
              jump stop
              return some ⟨op, operands⟩

def tick : MachineM Unit := do
  modify fun machine => { machine with steps := machine.steps + 1 }
  let machine ← get
  match machine.config.maxSteps with
  | none => pure ()
  | some limit => if machine.steps > limit then fail (.stepLimit limit)

/-- Runs one instruction. The answer is whether there was one. -/
def step : MachineM Bool := do
  match ← fetch with
  | none => return false
  | some instruction =>
      tick
      execute instruction
      return true

end Stacklang.Machine
