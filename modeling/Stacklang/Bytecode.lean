import Stacklang.Code.Instruction

namespace Stacklang

/-- A compiled function body, before it has captured anything. Its first locals are its
parameters. -/
structure Template where
  code : Code
  locals : Nat
  parameters : Nat
  deriving Repr, DecidableEq, Inhabited

inductive Constant where
  | integer (value : Int64)
  | string (text : String)
  | function (template : Template)
  deriving DecidableEq, Inhabited

/-- A compiled program: the main stream and the constants of all streams. -/
structure Bytecode where
  code : Code
  constants : Array Constant
  deriving DecidableEq, Inhabited

def Bytecode.empty : Bytecode := ⟨#[], #[]⟩

end Stacklang
