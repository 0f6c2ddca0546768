import Stacklang.Builtin
import Stacklang.Bytecode

namespace Stacklang

inductive VerifyFault where
  | decode (fault : DecodeFault)
  | constantOutOfRange (index : Nat)
  | notFunction (index : Nat)
  | builtinOutOfRange (index : Nat)
  | localOutOfRange (slot : Nat)
  | localOutsideFunction
  | jumpInsideInstruction (target : Nat)
  | tooManyLocals (locals : Nat)
  | tooFewLocals (parameters locals : Nat)
  deriving Repr, DecidableEq

/-- How many locals the one-byte slots of a function reach. -/
def maxLocals : Nat := 256

def VerifyFault.message : VerifyFault → String
  | decode fault => fault.message
  | constantOutOfRange index => "constant index " ++ Text.padded 1 index ++ " out of range"
  | notFunction index => "constant " ++ Text.padded 1 index ++ " is not a function"
  | builtinOutOfRange index => "builtin index " ++ Text.padded 1 index ++ " out of range"
  | localOutOfRange slot => "local slot " ++ Text.padded 1 slot ++ " out of range"
  | localOutsideFunction => "local access outside a function"
  | jumpInsideInstruction target =>
      "jump target " ++ Text.offset target ++ " is not an instruction boundary"
  | tooManyLocals locals =>
      "function has " ++ Text.padded 1 locals ++ " locals, max " ++ Text.padded 1 maxLocals
  | tooFewLocals parameters locals =>
      "function has " ++ Text.padded 1 parameters ++ " parameters but only " ++
        Text.padded 1 locals ++ " locals"

structure VerifyError where
  fault : VerifyFault
  offset : Nat
  deriving Repr, DecidableEq

def VerifyError.describe (offset : Nat) (text : String) : String :=
  "verify error at " ++ Text.offset offset ++ ": " ++ text

def VerifyError.message (error : VerifyError) : String :=
  VerifyError.describe error.offset error.fault.message

namespace Verify

/-- Checks one instruction of a stream with `locals?` local slots, none in the main stream. -/
def instruction (constants : Array Constant) (locals? : Option Nat) (instruction : Instruction) :
    Except VerifyFault Unit :=
  let operand := instruction.operand 0
  match instruction.op with
  | .constant =>
      if operand < constants.size then .ok () else .error (.constantOutOfRange operand)
  | .closure =>
      match constants[operand]? with
      | some (.function _) => .ok ()
      | _ => .error (.notFunction operand)
  | .getBuiltin =>
      if operand < Builtin.all.length then .ok () else .error (.builtinOutOfRange operand)
  | .getLocal | .setLocal =>
      match locals? with
      | some locals => if operand < locals then .ok () else .error (.localOutOfRange operand)
      | none => .error .localOutsideFunction
  | _ => .ok ()

/-- What the checks have met in a stream, latest first: where its instructions begin, and its jumps
with the offsets that they lead to. -/
structure Passed where
  boundaries : List Nat
  jumps : List (Nat × Nat)
  deriving Repr, DecidableEq

def Passed.add (passed : Passed) (offset : Nat) (next : Instruction) : Passed where
  boundaries := offset :: passed.boundaries
  jumps :=
    match next.target? with
    | none => passed.jumps
    | some target => (offset, target) :: passed.jumps

def walk (constants : Array Constant) (locals? : Option Nat) (code : Code) (offset : Nat)
    (passed : Passed) : Except VerifyError Passed :=
  if inside : offset < code.size then
    match Opcode.ofByte? code[offset] with
    | none => .error ⟨.decode (.unknownOpcode code[offset]), offset⟩
    | some op =>
        match code.readOperands? (offset + 1) op.widths with
        | none => .error ⟨.decode (.truncated op), offset⟩
        | some (operands, read) =>
            match instruction constants locals? ⟨op, operands⟩ with
            | .error fault => .error ⟨fault, offset⟩
            | .ok () =>
                walk constants locals? code (offset + (1 + read)) (passed.add offset ⟨op, operands⟩)
  else .ok passed
  termination_by code.size - offset

def jumps (size : Nat) (boundaries : List Nat) : List (Nat × Nat) → Except VerifyError Unit
  | [] => .ok ()
  | (offset, target) :: rest =>
      if target ≠ size ∧ !boundaries.contains target then
        .error ⟨.jumpInsideInstruction target, offset⟩
      else jumps size boundaries rest

def stream (constants : Array Constant) (locals? : Option Nat) (code : Code) :
    Except VerifyError Unit := do
  let passed ← walk constants locals? code 0 ⟨[], []⟩
  jumps code.size passed.boundaries passed.jumps.reverse

def template (constants : Array Constant) (template : Template) : Except VerifyError Unit :=
  if template.locals > maxLocals then .error ⟨.tooManyLocals template.locals, 0⟩
  else if template.parameters > template.locals then
    .error ⟨.tooFewLocals template.parameters template.locals, 0⟩
  else stream constants (some template.locals) template.code

def templates (constants : Array Constant) : List Constant → Except VerifyError Unit
  | [] => .ok ()
  | .function function :: rest => do
      template constants function
      templates constants rest
  | _ :: rest => templates constants rest

end Verify

def Bytecode.verify (bytecode : Bytecode) : Except VerifyError Unit := do
  Verify.stream bytecode.constants none bytecode.code
  Verify.templates bytecode.constants bytecode.constants.toList

end Stacklang
