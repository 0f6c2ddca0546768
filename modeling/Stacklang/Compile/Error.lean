import Stacklang.Text.Decimal

namespace Stacklang

/-- What a program can have too many of for the instructions to express. -/
inductive Resource where
  | constants
  | freeVariables
  | globals
  | locals
  | builtins
  | arrayElements
  | hashOperands
  | arguments
  | jumpDistance
  | parameters
  | operands
  deriving Repr, DecidableEq

def Resource.describe : Resource → String
  | constants => "constants"
  | freeVariables => "free variables"
  | globals => "globals"
  | locals => "locals"
  | builtins => "builtins"
  | arrayElements => "array elements"
  | hashOperands => "hash operands"
  | arguments => "arguments"
  | jumpDistance => "bytes of code before a jump target"
  | parameters => "parameters"
  | operands => "operands"

inductive CompileError where
  | unresolved (name : String)
  | unknownOperator (symbol : String)
  | outOfRange (resource : Resource) (value maximum : Nat)
  | returnOutsideFunction
  /-- A broken invariant of the compiler. -/
  | internal (detail : String)
  deriving Repr, DecidableEq

namespace CompileError

def hint? : CompileError → Option String
  | unresolved _ => some "bind it with `let` before using it"
  | unknownOperator symbol =>
      if symbol == "<=" then some "write `!(a > b)` instead"
      else if symbol == ">=" then some "write `!(a < b)` instead"
      else none
  | returnOutsideFunction => some "the value of the last expression is the program's result"
  | _ => none

def reason : CompileError → String
  | unresolved name => "undefined variable '" ++ name ++ "'"
  | unknownOperator symbol => "unknown operator '" ++ symbol ++ "'"
  | outOfRange resource value maximum =>
      "too many " ++ resource.describe ++ " (" ++ Text.padded 1 value ++ ", at most " ++
        Text.padded 1 maximum ++ ")"
  | returnOutsideFunction => "return: return statements cannot appear at the top level"
  | internal detail => "internal error: " ++ detail

def message (error : CompileError) : String :=
  "compile error: " ++ error.reason ++
    match error.hint? with
    | some hint => "\n  hint: " ++ hint
    | none => ""

end CompileError

end Stacklang
