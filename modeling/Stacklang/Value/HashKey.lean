namespace Stacklang

inductive HashKey where
  | integer (value : Int64)
  | boolean (value : Bool)
  | string (text : String)
  deriving DecidableEq, Inhabited

namespace HashKey

/-- Integers come before booleans and booleans before strings; strings go by code point. -/
def order : HashKey → HashKey → Ordering
  | integer left, integer right => compareOfLessAndEq left right
  | integer _, _ => .lt
  | boolean _, integer _ => .gt
  | boolean left, boolean right => compare left right
  | boolean _, string _ => .lt
  | string left, string right => compareOfLessAndEq left right
  | string _, _ => .gt

end HashKey

/-- A map, as pairs in strictly ascending order of keys. -/
abbrev Entries (α : Type) := List (HashKey × α)

namespace Entries

variable {α : Type}

def find? (key : HashKey) : Entries α → Option α
  | [] => none
  | (other, value) :: rest => if key = other then some value else find? key rest

def insert (key : HashKey) (value : α) : Entries α → Entries α
  | [] => [(key, value)]
  | (other, previous) :: rest =>
      match key.order other with
      | .lt => (key, value) :: (other, previous) :: rest
      | .eq => (key, value) :: rest
      | .gt => (other, previous) :: insert key value rest

/-- All entries of two maps; those of the second win. -/
def union (left right : Entries α) : Entries α :=
  right.foldl (fun entries (key, value) => insert key value entries) left

end Entries

end Stacklang
