import Stacklang.Code.Instruction

namespace Stacklang

inductive Fault where
  | typeMismatch (op left right : String)
  | unknownBinary (op left right : String)
  | unknownUnary (op operand : String)
  | divisionByZero
  | stackOverflow (slots : Nat)
  | frameOverflow (frames : Nat)
  | wrongArity (want got : Nat)
  | notCallable (kind : String)
  | unusableHashKey (kind : String)
  | unsupportedIndex (container index : String)
  | stackUnderflow
  | stepLimit (steps : Nat)
  | builtinArity (name want : String) (got : Nat)
  | builtinArgument (name expected got : String)
  | undecodable (fault : DecodeFault) (offset : Nat)
  | constantOutOfRange (index : Nat)
  | notFunction (kind : String)
  | globalOutOfRange (index : Nat)
  | builtinOutOfRange (index : Nat)
  | captureOutOfRange (index : Nat)
  | missingReturn
  | returnOutsideFunction
  | tooFewLocals (parameters locals : Nat)
  deriving Repr, DecidableEq

def Fault.message : Fault → String
  | typeMismatch op left right => "type mismatch: " ++ left ++ " " ++ op ++ " " ++ right
  | unknownBinary op left right => "unknown operator: " ++ left ++ " " ++ op ++ " " ++ right
  | unknownUnary op operand => "unknown operator: " ++ op ++ operand
  | divisionByZero => "division by zero"
  | stackOverflow slots => "stack overflow (limit " ++ Text.padded 1 slots ++ " slots)"
  | frameOverflow frames =>
      "frame stack overflow (limit " ++ Text.padded 1 frames ++
        " frames) - possible infinite recursion"
  | wrongArity want got =>
      "wrong number of arguments: want=" ++ Text.padded 1 want ++ ", got=" ++ Text.padded 1 got
  | notCallable kind => "calling non-function: " ++ kind
  | unusableHashKey kind => "unusable as hash key: " ++ kind
  | unsupportedIndex container index =>
      "index operator not supported: " ++ container ++ "[" ++ index ++ "]"
  | stackUnderflow => "stack underflow"
  | stepLimit steps => "execution step limit exceeded (" ++ Text.padded 1 steps ++ ")"
  | builtinArity name want got =>
      "wrong number of arguments to `" ++ name ++ "`: got=" ++ Text.padded 1 got ++ ", want=" ++
        want
  | builtinArgument name expected got =>
      "argument to `" ++ name ++ "` must be " ++ expected ++ ", got " ++ got
  | undecodable fault offset => fault.message ++ " at " ++ Text.offset offset
  | constantOutOfRange index => "constant " ++ Text.padded 1 index ++ " out of range"
  | notFunction kind => "not a function: " ++ kind
  | globalOutOfRange index => "global " ++ Text.padded 1 index ++ " out of range"
  | builtinOutOfRange index => "builtin " ++ Text.padded 1 index ++ " out of range"
  | captureOutOfRange index => "free variable " ++ Text.padded 1 index ++ " out of range"
  | missingReturn => "function body ended without a return"
  | returnOutsideFunction => "return outside a function"
  | tooFewLocals parameters locals =>
      "function declares " ++ Text.padded 1 parameters ++ " parameters but " ++
        Text.padded 1 locals ++ " locals"

/-- Whether a program is to blame for what it asks: its operands, its callees and their arguments,
its keys and indices. -/
def Fault.ofLanguage : Fault → Bool
  | typeMismatch .. | unknownBinary .. | unknownUnary .. | divisionByZero | wrongArity ..
  | notCallable _ | unusableHashKey _ | unsupportedIndex .. | builtinArity ..
  | builtinArgument .. => true
  | _ => false

def Fault.ofLimits : Fault → Bool
  | stackOverflow _ | frameOverflow _ | stepLimit _ | globalOutOfRange _ => true
  | _ => false

inductive TraceLine where
  | inBuiltin (name : String)
  | inFunction (parameters offset : Nat)
  | inMain (offset : Nat)
  | note (text : String)
  deriving Repr, DecidableEq

def TraceLine.display : TraceLine → String
  | inBuiltin name => "in builtin " ++ name
  | inFunction parameters offset =>
      "in fn/" ++ Text.padded 1 parameters ++ " near " ++ Text.offset offset
  | inMain offset => "in main near " ++ Text.offset offset
  | note text => text

/-- A fault and the calls it was met in, innermost first. -/
structure RuntimeError where
  fault : Fault
  trace : List TraceLine
  deriving Repr, DecidableEq

def RuntimeError.within (error : RuntimeError) (line : TraceLine) : RuntimeError :=
  { error with trace := error.trace ++ [line] }

def RuntimeError.message (error : RuntimeError) : String :=
  "runtime error: " ++ error.fault.message ++
    if error.trace.isEmpty then ""
    else
      "\n  call stack:" ++ String.join (error.trace.reverse.mapIdx fun depth line =>
        "\n    " ++ Text.padded 1 depth ++ ": " ++ line.display)

end Stacklang
