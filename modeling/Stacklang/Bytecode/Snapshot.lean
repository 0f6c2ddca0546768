import Stacklang.Bytecode.Verify

namespace Stacklang

inductive SnapshotFault where
  | endOfData
  | badCount
  | badText
  | unknownVariant
  deriving Repr, DecidableEq

def SnapshotFault.message : SnapshotFault → String
  | endOfData => "Hit the end of buffer, expected more data"
  | badCount => "Found a varint that didn't terminate. Is the usize too big for this platform?"
  | badText => "Tried to parse invalid utf-8"
  | unknownVariant => "Serde Deserialization Error"

namespace Snapshot

/-- A count in base 128, low digits first. -/
def count (n : Nat) : List UInt8 :=
  if n < 128 then [UInt8.ofNat n] else UInt8.ofNat (n % 128 + 128) :: count (n / 128)

/-- Zero, minus one, one, minus two, … in the order of the naturals. -/
def interleave (value : Int64) : Nat :=
  let n := value.toInt
  if n < 0 then (-2 * n - 1).toNat else (2 * n).toNat

def uninterleave (place : Nat) : Int64 :=
  Int64.ofInt (if place % 2 = 0 then (place / 2 : Nat) else -((place / 2 : Nat) : Int) - 1)

def code (code : Code) : List UInt8 :=
  count code.size ++ code.toList

def text (s : String) : List UInt8 :=
  count s.utf8ByteSize ++ s.toUTF8.toList

def constant : Constant → List UInt8
  | .integer value => count 0 ++ count (interleave value)
  | .string s => count 1 ++ text s
  | .function template =>
      count 2 ++ code template.code ++ count template.locals ++ count template.parameters

abbrev Reader (α : Type) := List UInt8 → Except SnapshotFault (α × List UInt8)

/-- Reads a count of at most `digits` digits, the last of which is at most `top`. -/
def readCount (top : Nat) : (digits : Nat) → Reader Nat
  | 0, _ => .error .badCount
  | _ + 1, [] => .error .endOfData
  | digits + 1, byte :: rest =>
      if byte.toNat < 128 then
        if digits = 0 ∧ top < byte.toNat then .error .badCount else .ok (byte.toNat, rest)
      else
        match readCount top digits rest with
        | .error fault => .error fault
        | .ok (high, rest) => .ok (byte.toNat - 128 + 128 * high, rest)

def readWord : Reader Nat :=
  readCount 1 10

def readHalfWord : Reader Nat :=
  readCount 15 5

def readBytes (length : Nat) : Reader (List UInt8) := fun bytes =>
  let taken := bytes.take length
  if taken.length = length then .ok (taken, bytes.drop length) else .error .endOfData

def readCode : Reader Code := fun bytes => do
  let (length, rest) ← readWord bytes
  let (taken, rest) ← readBytes length rest
  return (taken.toArray, rest)

def readText : Reader String := fun bytes => do
  let (length, rest) ← readWord bytes
  let (taken, rest) ← readBytes length rest
  match String.fromUTF8? ⟨taken.toArray⟩ with
  | some s => return (s, rest)
  | none => throw .badText

def readConstant : Reader Constant := fun bytes => do
  let (variant, rest) ← readHalfWord bytes
  match variant with
  | 0 =>
      let (place, rest) ← readWord rest
      return (.integer (uninterleave place), rest)
  | 1 =>
      let (s, rest) ← readText rest
      return (.string s, rest)
  | 2 =>
      let (body, rest) ← readCode rest
      let (locals, rest) ← readWord rest
      let (parameters, rest) ← readWord rest
      return (.function ⟨body, locals, parameters⟩, rest)
  | _ => throw .unknownVariant

def readConstants (done : Array Constant) : (number : Nat) → Reader (Array Constant)
  | 0, bytes => .ok (done, bytes)
  | number + 1, bytes =>
      match readConstant bytes with
      | .error fault => .error fault
      | .ok (constant, rest) => readConstants (done.push constant) number rest

def readBytecode : Reader Bytecode := fun bytes => do
  let (main, rest) ← readCode bytes
  let (number, rest) ← readWord rest
  let (constants, rest) ← readConstants #[] number rest
  return (⟨main, constants⟩, rest)

end Snapshot

def Bytecode.toBytes (bytecode : Bytecode) : List UInt8 :=
  Snapshot.code bytecode.code ++ Snapshot.count bytecode.constants.size ++
    bytecode.constants.toList.flatMap Snapshot.constant

inductive LoadError where
  | undecodable (fault : SnapshotFault)
  | unverified (error : VerifyError)
  deriving Repr, DecidableEq

/-- The offset of the refused instruction; zero if there are none yet. -/
def LoadError.offset : LoadError → Nat
  | undecodable _ => 0
  | unverified error => error.offset

def LoadError.message : LoadError → String
  | undecodable fault => VerifyError.describe 0 ("cannot decode bytecode: " ++ fault.message)
  | unverified error => error.message

/-- The bytecode at the front of a snapshot, if it passes the checks. Bytes behind it are
ignored. -/
def Bytecode.ofBytes (bytes : List UInt8) : Except LoadError Bytecode :=
  match Snapshot.readBytecode bytes with
  | .error fault => .error (.undecodable fault)
  | .ok (bytecode, _) =>
      match bytecode.verify with
      | .error error => .error (.unverified error)
      | .ok () => .ok bytecode

end Stacklang
