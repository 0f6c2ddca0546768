namespace Stacklang

/-- How many bytes an operand takes; words are big-endian. -/
inductive Width where
  | byte
  | word
  deriving Repr, DecidableEq

namespace Width

def size : Width → Nat
  | byte => 1
  | word => 2

def maximum : Width → Nat
  | byte => 255
  | word => 65535

/-- The operand's bytes; bits beyond the width are cut off. -/
def encode : Width → Nat → List UInt8
  | byte, operand => [UInt8.ofNat operand]
  | word, operand => [UInt8.ofNat (operand / 256), UInt8.ofNat operand]

@[simp] theorem length_encode (width : Width) (operand : Nat) :
    (width.encode operand).length = width.size := by
  cases width <;> rfl

def sizes : List Width → Nat
  | [] => 0
  | first :: rest => first.size + sizes rest

end Width

inductive Opcode where
  | constant
  | pop
  | add
  | sub
  | mul
  | div
  | pushTrue
  | pushFalse
  | equal
  | notEqual
  | greaterThan
  | not
  | negate
  | jump
  /-- Pops a value and goes on at an offset if it is falsy. -/
  | jumpNotTruthy
  | pushNull
  | getGlobal
  | setGlobal
  | getLocal
  | setLocal
  | getFree
  | getBuiltin
  | currentClosure
  | array
  | hash
  | index
  /-- Calls the value below its arguments. -/
  | call
  | returnValue
  | returnNull
  /-- Collects captured values into a closure of a function constant. -/
  | closure
  deriving Repr, DecidableEq, Inhabited

namespace Opcode

def all : Array Opcode :=
  #[.constant, .pop, .add, .sub, .mul, .div, .pushTrue, .pushFalse, .equal, .notEqual,
    .greaterThan, .not, .negate, .jump, .jumpNotTruthy, .pushNull, .getGlobal, .setGlobal,
    .getLocal, .setLocal, .getFree, .getBuiltin, .currentClosure, .array, .hash, .index,
    .call, .returnValue, .returnNull, .closure]

def toByte : Opcode → UInt8
  | constant => 0
  | pop => 1
  | add => 2
  | sub => 3
  | mul => 4
  | div => 5
  | pushTrue => 6
  | pushFalse => 7
  | equal => 8
  | notEqual => 9
  | greaterThan => 10
  | not => 11
  | negate => 12
  | jump => 13
  | jumpNotTruthy => 14
  | pushNull => 15
  | getGlobal => 16
  | setGlobal => 17
  | getLocal => 18
  | setLocal => 19
  | getFree => 20
  | getBuiltin => 21
  | currentClosure => 22
  | array => 23
  | hash => 24
  | index => 25
  | call => 26
  | returnValue => 27
  | returnNull => 28
  | closure => 29

def ofByte? (byte : UInt8) : Option Opcode :=
  all[byte.toNat]?

@[simp] theorem ofByte?_toByte (op : Opcode) : ofByte? op.toByte = some op := by
  cases op <;> rfl

def mnemonic : Opcode → String
  | constant => "OpConstant"
  | pop => "OpPop"
  | add => "OpAdd"
  | sub => "OpSub"
  | mul => "OpMul"
  | div => "OpDiv"
  | pushTrue => "OpTrue"
  | pushFalse => "OpFalse"
  | equal => "OpEqual"
  | notEqual => "OpNotEqual"
  | greaterThan => "OpGreaterThan"
  | not => "OpBang"
  | negate => "OpMinus"
  | jump => "OpJump"
  | jumpNotTruthy => "OpJumpNotTruthy"
  | pushNull => "OpNull"
  | getGlobal => "OpGetGlobal"
  | setGlobal => "OpSetGlobal"
  | getLocal => "OpGetLocal"
  | setLocal => "OpSetLocal"
  | getFree => "OpGetFree"
  | getBuiltin => "OpGetBuiltin"
  | currentClosure => "OpCurrentClosure"
  | array => "OpArray"
  | hash => "OpHash"
  | index => "OpIndex"
  | call => "OpCall"
  | returnValue => "OpReturnValue"
  | returnNull => "OpReturn"
  | closure => "OpClosure"

def widths : Opcode → List Width
  | constant | jump | jumpNotTruthy | getGlobal | setGlobal | array | hash => [.word]
  | getLocal | setLocal | getFree | getBuiltin | call => [.byte]
  | closure => [.word, .byte]
  | _ => []

def size (op : Opcode) : Nat :=
  1 + Width.sizes op.widths

theorem size_pos (op : Opcode) : 0 < op.size := by
  simp only [size]
  omega

def isJump : Opcode → Bool
  | jump | jumpNotTruthy => true
  | _ => false

end Opcode

end Stacklang
