import Stacklang.Builtin
import Stacklang.Bytecode
import Stacklang.Value.HashKey

namespace Stacklang

/-- The identity of a value: a constant is known by its pool and its place there, a value that a
program made by its serial number. -/
inductive Ref where
  | pooled (pool index : Nat)
  | made (serial : Nat)
  deriving Repr, DecidableEq, Inhabited

/-- What programs compute with. A hash entry keeps the key it was made with beside its value. What
stands for the body of a function is left open: for the machine it is compiled code. -/
inductive Value (Body : Type := Template) where
  | integer (value : Int64)
  | boolean (value : Bool)
  | null
  | string (ref : Ref) (text : String)
  | array (ref : Ref) (items : List (Value Body))
  | hash (ref : Ref) (entries : List (HashKey × Value Body × Value Body))
  | function (ref : Ref) (body : Body)
  | closure (ref : Ref) (body : Body) (captured : List (Value Body))
  | builtin (entry : Builtin)
  deriving Inhabited

class Arity (Body : Type) where
  parameters : Body → Nat

instance : Arity Template := ⟨Template.parameters⟩

def Constant.toValue (pool index : Nat) : Constant → Value
  | integer value => .integer value
  | string text => .string (.pooled pool index) text
  | function template => .function (.pooled pool index) template

namespace Value

variable {Body : Type}

def kind : Value Body → String
  | integer _ => "INTEGER"
  | boolean _ => "BOOLEAN"
  | null => "NULL"
  | string .. => "STRING"
  | array .. => "ARRAY"
  | hash .. => "HASH"
  | function .. => "COMPILED_FUNCTION"
  | closure .. => "CLOSURE"
  | builtin _ => "BUILTIN"

/-- Only `false` and `null` are falsy. -/
def isTruthy : Value Body → Bool
  | boolean false | null => false
  | _ => true

def hashKey? : Value Body → Option HashKey
  | integer value => some (.integer value)
  | boolean value => some (.boolean value)
  | string _ text => some (.string text)
  | _ => none

/-- Equality in programs: integers, booleans, null and builtins by value, the rest by identity. -/
def identical : Value Body → Value Body → Bool
  | integer left, integer right => left == right
  | boolean left, boolean right => left == right
  | null, null => true
  | string left _, string right _ => left == right
  | array left _, array right _ => left == right
  | hash left _, hash right _ => left == right
  | function left _, function right _ => left == right
  | closure left .., closure right .. => left == right
  | builtin left, builtin right => left == right
  | _, _ => false

mutual

/-- Equality of contents: strings, arrays and hashes by what they hold, the rest as `identical`. -/
def same : Value Body → Value Body → Bool
  | string _ left, string _ right => left == right
  | array _ left, array _ right => sameItems left right
  | hash _ left, hash _ right => sameEntries left right
  | left, right => left.identical right

def sameItems : List (Value Body) → List (Value Body) → Bool
  | [], [] => true
  | left :: lefts, right :: rights => left.same right && sameItems lefts rights
  | _, _ => false

def sameEntries :
    List (HashKey × Value Body × Value Body) → List (HashKey × Value Body × Value Body) → Bool
  | [], [] => true
  | (leftKey, _, left) :: lefts, (rightKey, _, right) :: rights =>
      leftKey == rightKey && left.same right && sameEntries lefts rights
  | _, _ => false

end

variable [Arity Body]

mutual

def display : Value Body → String
  | integer value => Text.integer value
  | boolean value => if value then "true" else "false"
  | null => "null"
  | string _ text => text
  | array _ items => "[" ++ ", ".intercalate (displayItems items) ++ "]"
  | hash _ entries => "\x7b" ++ ", ".intercalate (displayEntries entries) ++ "\x7d"
  | function _ body => "CompiledFunction[" ++ Text.padded 1 (Arity.parameters body) ++ " params]"
  | closure _ body captured =>
      "Closure[" ++ Text.padded 1 (Arity.parameters body) ++ " params, " ++
        Text.padded 1 captured.length ++ " free]"
  | builtin entry => "builtin function " ++ entry.name

def displayItems : List (Value Body) → List String
  | [] => []
  | item :: rest => item.display :: displayItems rest

def displayEntries : List (HashKey × Value Body × Value Body) → List String
  | [] => []
  | (_, key, value) :: rest => (key.display ++ ": " ++ value.display) :: displayEntries rest

end

end Value

end Stacklang
