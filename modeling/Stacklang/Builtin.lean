namespace Stacklang

/-- The functions that every program can call. -/
inductive Builtin where
  | puts
  | typeOf
  | len
  | first
  | last
  | rest
  | push
  | pop
  | reverse
  | join
  | split
  | replace
  | toLower
  | toUpper
  | trim
  | trimLeft
  | trimRight
  | contains
  | merge
  | findIndex
  deriving Repr, DecidableEq, Inhabited

namespace Builtin

/-- The registry: instructions name a builtin by its place here. -/
def all : List Builtin :=
  [.puts, .typeOf, .len, .first, .last, .rest, .push, .pop, .reverse, .join, .split, .replace,
    .toLower, .toUpper, .trim, .trimLeft, .trimRight, .contains, .merge, .findIndex]

def name : Builtin → String
  | puts => "puts"
  | typeOf => "typeOf"
  | len => "len"
  | first => "first"
  | last => "last"
  | rest => "rest"
  | push => "push"
  | pop => "pop"
  | reverse => "reverse"
  | join => "join"
  | split => "split"
  | replace => "replace"
  | toLower => "toLower"
  | toUpper => "toUpper"
  | trim => "trim"
  | trimLeft => "trimLeft"
  | trimRight => "trimRight"
  | contains => "contains"
  | merge => "merge"
  | findIndex => "findIndex"

end Builtin

end Stacklang
