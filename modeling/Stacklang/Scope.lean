import Stacklang.Builtin

namespace Stacklang

/-- Where a binding is found when the program runs. -/
inductive Place where
  | global
  | localSlot
  | builtin
  | captured
  | self
  deriving Repr, DecidableEq, Inhabited

structure Symbol where
  name : String
  place : Place
  index : Nat
  deriving Repr, DecidableEq, Inhabited

structure Table where
  bindings : List (String × Symbol)
  definitions : Nat
  /-- What is captured from the table around this one, in order. -/
  captures : List Symbol
  deriving Repr, DecidableEq, Inhabited

namespace Table

def empty : Table := ⟨[], 0, []⟩

def lookup? (table : Table) (name : String) : Option Symbol :=
  table.bindings.lookup name

def insert (table : Table) (name : String) (symbol : Symbol) : Table :=
  { table with bindings := (name, symbol) :: table.bindings.filter (·.1 != name) }

def define (table : Table) (place : Place) (name : String) : Symbol × Table :=
  let symbol : Symbol := ⟨name, place, table.definitions⟩
  (symbol, { table.insert name symbol with definitions := table.definitions + 1 })

/-- Captures a symbol of the table around this one, and remembers that under its name. -/
def capture (table : Table) (outer : Symbol) : Symbol × Table :=
  let symbol : Symbol := ⟨outer.name, .captured, table.captures.length⟩
  (symbol, { table.insert outer.name symbol with captures := table.captures ++ [outer] })

end Table

/-- A chain of tables, from the innermost to the top level. -/
structure Scope where
  table : Table
  outer : List Table
  deriving Repr, DecidableEq, Inhabited

namespace Scope

def bare : Scope := ⟨.empty, []⟩

def isTopLevel (scope : Scope) : Bool :=
  scope.outer.isEmpty

/-- Binds a name to the next slot: a global at top level, a local in a function. The slot of an
earlier binding of the name is not used again. -/
def define (scope : Scope) (name : String) : Symbol × Scope :=
  let place := if scope.isTopLevel then Place.global else Place.localSlot
  let (symbol, table) := scope.table.define place name
  (symbol, { scope with table })

def defineBuiltin (scope : Scope) (index : Nat) (name : String) : Symbol × Scope :=
  let symbol : Symbol := ⟨name, .builtin, index⟩
  (symbol, { scope with table := scope.table.insert name symbol })

/-- Binds a name to the function whose body the innermost table belongs to. -/
def defineSelf (scope : Scope) (name : String) : Symbol × Scope :=
  let symbol : Symbol := ⟨name, .self, 0⟩
  (symbol, { scope with table := scope.table.insert name symbol })

def withBuiltins : Scope :=
  (Builtin.all.mapIdx Prod.mk).foldl
    (fun scope (index, builtin) => (scope.defineBuiltin index builtin.name).2) bare

def enter (scope : Scope) : Scope :=
  ⟨.empty, scope.table :: scope.outer⟩

def leave? (scope : Scope) : Option Scope :=
  match scope.outer with
  | [] => none
  | table :: outer => some ⟨table, outer⟩

/-- Looks a name up from the inside out. What belongs to a function further out is captured by every
table between it and the innermost one. -/
def resolveFrom (name : String) (table : Table) :
    (outer : List Table) → Option (Symbol × Table × List Table)
  | [] => (table.lookup? name).map fun symbol => (symbol, table, [])
  | next :: rest =>
      match table.lookup? name with
      | some symbol => some (symbol, table, next :: rest)
      | none =>
          match resolveFrom name next rest with
          | none => none
          | some (symbol, next, rest) =>
              match symbol.place with
              | .global | .builtin => some (symbol, table, next :: rest)
              | .localSlot | .captured | .self =>
                  let (symbol, table) := table.capture symbol
                  some (symbol, table, next :: rest)

/-- The meaning of a name, and the chain with what had to be captured for it. -/
def resolve (scope : Scope) (name : String) : Option (Symbol × Scope) :=
  (resolveFrom name scope.table scope.outer).map fun (symbol, table, outer) =>
    (symbol, ⟨table, outer⟩)

end Scope

end Stacklang
