import Stacklang.Fault
import Stacklang.Text.Lowercase
import Stacklang.Text.Pieces
import Stacklang.Text.Uppercase
import Stacklang.Text.WhiteSpace
import Stacklang.Value

namespace Stacklang

/-- What running programs leave behind besides values: the text they print, and how many values
with an identity have been made. -/
structure World where
  printed : String
  made : Nat
  deriving Repr, DecidableEq

def World.fresh : World := ⟨"", 0⟩

def World.allocate (world : World) : Ref × World :=
  (.made world.made, { world with made := world.made + 1 })

/-- A call of a builtin. It may print and make values, and it may end without a value. -/
abbrev BuiltinM := StateT World (Except Fault)

namespace Builtin

variable {Body : Type}

def print (text : String) : BuiltinM Unit :=
  modify fun world => { world with printed := world.printed ++ text }

def newRef : BuiltinM Ref :=
  modifyGet World.allocate

def newString (text : String) : BuiltinM (Option (Value Body)) := do
  return some (.string (← newRef) text)

def newArray (items : List (Value Body)) : BuiltinM (Option (Value Body)) := do
  return some (.array (← newRef) items)

def newHash (entries : Entries (Value Body × Value Body)) : BuiltinM (Option (Value Body)) := do
  return some (.hash (← newRef) entries)

def newStrings (texts : List String) : BuiltinM (List (Value Body)) :=
  modifyGet fun world =>
    (texts.mapIdx fun position text => .string (.made (world.made + position)) text,
      { world with made := world.made + texts.length })

def arityFault (builtin : Builtin) (want : String) (arguments : List (Value Body)) : Fault :=
  .builtinArity builtin.name want arguments.length

def argumentFault (builtin : Builtin) (expected : String) (argument : Value Body) : Fault :=
  .builtinArgument builtin.name expected argument.kind

def one (builtin : Builtin) (arguments : List (Value Body)) : BuiltinM (Value Body) :=
  match arguments with
  | [argument] => pure argument
  | arguments => throw (builtin.arityFault "1" arguments)

def two (builtin : Builtin) (arguments : List (Value Body)) : BuiltinM (Value Body × Value Body) :=
  match arguments with
  | [left, right] => pure (left, right)
  | arguments => throw (builtin.arityFault "2" arguments)

def three (builtin : Builtin) (arguments : List (Value Body)) :
    BuiltinM (Value Body × Value Body × Value Body) :=
  match arguments with
  | [left, middle, right] => pure (left, middle, right)
  | arguments => throw (builtin.arityFault "3" arguments)

def asString (builtin : Builtin) : Value Body → BuiltinM String
  | .string _ text => pure text
  | other => throw (builtin.argumentFault "STRING" other)

def asArray (builtin : Builtin) : Value Body → BuiltinM (List (Value Body))
  | .array _ items => pure items
  | other => throw (builtin.argumentFault "ARRAY" other)

def mapString (builtin : Builtin) (f : String → String) (arguments : List (Value Body)) :
    BuiltinM (Option (Value Body)) := do
  let text ← builtin.asString (← builtin.one arguments)
  newString (f text)

variable [Arity Body]

def applyJoin (arguments : List (Value Body)) : BuiltinM (Option (Value Body)) :=
  match arguments with
  | [] => throw (join.arityFault "2 or 3" arguments)
  | .array _ items :: _ => do
      let (_, between) ← join.two arguments
      let separator ← join.asString between
      newString (separator.intercalate (Value.displayItems items))
  | .string _ left :: _ => do
      let (_, other, between) ← join.three arguments
      let right ← join.asString other
      let separator ← join.asString between
      newString (left ++ separator ++ right)
  | other :: _ => throw (join.argumentFault "ARRAY or STRING" other)

def apply (builtin : Builtin) (arguments : List (Value Body)) : BuiltinM (Option (Value Body)) :=
  match builtin with
  | puts => do
      print (String.join (arguments.map (·.display ++ "\n")))
      return none
  | typeOf => do
      newString (← typeOf.one arguments).kind
  | len => do
      match ← len.one arguments with
      | .string _ text => return some (.integer (Int64.ofNat text.utf8ByteSize))
      | .array _ items => return some (.integer (Int64.ofNat items.length))
      | other => throw (len.argumentFault "STRING or ARRAY" other)
  | first => do
      return (← first.asArray (← first.one arguments)).head?
  | last => do
      return (← last.asArray (← last.one arguments)).getLast?
  | rest => do
      match ← rest.asArray (← rest.one arguments) with
      | [] => return none
      | _ :: items => newArray items
  | push => do
      let (container, item) ← push.two arguments
      newArray ((← push.asArray container) ++ [item])
  | pop => do
      let container ← pop.one arguments
      match ← pop.asArray container with
      | [] => return some container
      | items => newArray items.dropLast
  | reverse => do
      match ← reverse.one arguments with
      | .string _ text => newString (String.ofList text.toList.reverse)
      | .array _ items => newArray items.reverse
      | other => throw (reverse.argumentFault "STRING or ARRAY" other)
  | join => applyJoin arguments
  | split => do
      let (whole, between) ← split.two arguments
      let text ← split.asString whole
      let separator ← split.asString between
      newArray (← newStrings (Text.split text separator))
  | replace => do
      let (whole, old, new) ← replace.three arguments
      let text ← replace.asString whole
      let part ← replace.asString old
      let fresh ← replace.asString new
      newString (Text.replace text part fresh)
  | toLower => toLower.mapString Text.toLower arguments
  | toUpper => toUpper.mapString Text.toUpper arguments
  | trim => trim.mapString Text.trim arguments
  | trimLeft => trimLeft.mapString Text.trimLeft arguments
  | trimRight => trimRight.mapString Text.trimRight arguments
  | contains => do
      let (container, item) ← contains.two arguments
      match container with
      | .string _ text => do
          let part ← contains.asString item
          return some (.boolean (Text.contains text part))
      | .array _ items => return some (.boolean (items.any (·.same item)))
      | other => throw (contains.argumentFault "STRING or ARRAY" other)
  | merge => do
      let (base, overlay) ← merge.two arguments
      match base, overlay with
      | .hash _ left, .hash _ right => newHash (Entries.union left right)
      | .hash .., other | other, _ => throw (merge.argumentFault "HASH" other)
  | findIndex => do
      let (container, item) ← findIndex.two arguments
      match (← findIndex.asArray container).findIdx? (·.same item) with
      | some position => return some (.integer (Int64.ofNat position))
      | none => return some (.integer (-1))

end Builtin

end Stacklang
