import Stacklang.Code.Opcode
import Stacklang.Text.Decimal

namespace Stacklang

structure Instruction where
  op : Opcode
  operands : List Nat
  deriving Repr, DecidableEq

abbrev Code := Array UInt8

namespace Instruction

def operand (instruction : Instruction) (position : Nat) : Nat :=
  instruction.operands.getD position 0

def Fits (instruction : Instruction) : Prop :=
  instruction.operands.length = instruction.op.widths.length ∧
    ∀ pair ∈ instruction.operands.zip instruction.op.widths, pair.1 ≤ pair.2.maximum

def encode (instruction : Instruction) : List UInt8 :=
  instruction.op.toByte ::
    ((instruction.operands.zip instruction.op.widths).flatMap fun (operand, width) =>
      width.encode operand)

def encode? (instruction : Instruction) : Option (List UInt8) :=
  if instruction.operands.length = instruction.op.widths.length then some instruction.encode
  else none

def size (instruction : Instruction) : Nat :=
  instruction.op.size

def target? (instruction : Instruction) : Option Nat :=
  if instruction.op.isJump then some (instruction.operand 0) else none

def display (instruction : Instruction) : String :=
  " ".intercalate (instruction.op.mnemonic :: instruction.operands.map (Text.padded 1))

end Instruction

inductive DecodeFault where
  | unknownOpcode (byte : UInt8)
  | truncated (op : Opcode)
  deriving Repr, DecidableEq

def DecodeFault.message : DecodeFault → String
  | unknownOpcode byte => "unknown opcode " ++ Text.padded 1 byte.toNat
  | truncated op => "truncated " ++ op.mnemonic

def Width.read? (width : Width) (code : Code) (offset : Nat) : Option Nat :=
  match width with
  | byte => code[offset]?.map (·.toNat)
  | word =>
      match code[offset]?, code[offset + 1]? with
      | some high, some low => some (256 * high.toNat + low.toNat)
      | _, _ => none

namespace Code

/-- The operands that stand one behind the other from an offset on, and how many bytes they take. -/
def readOperands? (code : Code) (offset : Nat) : List Width → Option (List Nat × Nat)
  | [] => some ([], 0)
  | width :: widths =>
      match width.read? code offset with
      | none => none
      | some operand =>
          match readOperands? code (offset + width.size) widths with
          | none => none
          | some (operands, read) => some (operand :: operands, width.size + read)

def operands? (code : Code) (offset : Nat) (widths : List Width) : Option (List Nat) :=
  (code.readOperands? offset widths).map (·.1)

def append (code : Code) (bytes : List UInt8) : Code :=
  bytes.foldl Array.push code

def overwrite (code : Code) (offset : Nat) : List UInt8 → Code
  | [] => code
  | byte :: bytes => overwrite (code.setIfInBounds offset byte) (offset + 1) bytes

def overwrite? (code : Code) (offset : Nat) (bytes : List UInt8) : Option Code :=
  if offset + bytes.length ≤ code.size then some (code.overwrite offset bytes) else none

def truncate (code : Code) (length : Nat) : Code :=
  code.shrink length

@[simp] theorem toList_append (code : Code) (bytes : List UInt8) :
    (code.append bytes).toList = code.toList ++ bytes := by
  simp [append]

end Code

end Stacklang
