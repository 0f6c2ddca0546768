import Mathlib.Data.List.Forall2
import Stacklang.Scope

namespace Stacklang

def Place.ofFunction : Place → Bool
  | global | builtin => false
  | localSlot | captured | self => true

/-- A symbol that a table can hold: its slot or its captured value is one of the table's. The table
is that of a function or that of the top level. -/
def Symbol.Valid (function : Bool) (table : Table) (symbol : Symbol) : Prop :=
  symbol.place.ofFunction = function ∧
    match symbol.place with
    | .global | .localSlot => symbol.index < table.definitions
    | .builtin => symbol.index < Builtin.all.length
    | .captured => symbol.index < table.captures.length
    | .self => True

namespace Table

@[simp] theorem lookup?_empty (name : String) : empty.lookup? name = none := rfl

theorem lookup_filter_ne (bindings : List (String × Symbol)) {name other : String}
    (hne : other ≠ name) :
    (bindings.filter (·.1 != name)).lookup other = bindings.lookup other := by
  induction bindings with
  | nil => rfl
  | cons entry rest ih =>
      obtain ⟨key, symbol⟩ := entry
      by_cases hkey : key = name
      · subst key
        have hother : (other == name) = false := by simpa using hne
        simp [List.lookup_cons, hother, ih]
      · simp [hkey, List.lookup_cons, ih]

theorem lookup?_insert (table : Table) (name other : String) (symbol : Symbol) :
    (table.insert name symbol).lookup? other =
      if other = name then some symbol else table.lookup? other := by
  by_cases heq : other = name
  · subst other
    simp [insert, lookup?]
  · have hother : (other == name) = false := by simpa using heq
    simp [insert, lookup?, List.lookup_cons, hother, heq, lookup_filter_ne _ heq]

@[simp] theorem definitions_insert (table : Table) (name : String) (symbol : Symbol) :
    (table.insert name symbol).definitions = table.definitions := rfl

@[simp] theorem captures_insert (table : Table) (name : String) (symbol : Symbol) :
    (table.insert name symbol).captures = table.captures := rfl

def own? (table : Table) (name : String) : Option Symbol :=
  (table.lookup? name).filter (·.place != .captured)

theorem own?_eq_some {table : Table} {name : String} {symbol : Symbol} :
    table.own? name = some symbol ↔
      table.lookup? name = some symbol ∧ symbol.place ≠ .captured := by
  simp [own?, Option.filter_eq_some_iff]

theorem own?_insert (table : Table) (name other : String) (symbol : Symbol) :
    (table.insert name symbol).own? other =
      if other = name then if symbol.place = .captured then none else some symbol
      else table.own? other := by
  rw [own?, lookup?_insert]
  by_cases hother : other = name
  · by_cases hplace : symbol.place = .captured <;> simp [hother, hplace]
  · simp [hother, own?]

theorem own?_define (table : Table) {place : Place} (hplace : place ≠ .captured)
    (name other : String) :
    (table.define place name).2.own? other =
      if other = name then some ⟨name, place, table.definitions⟩ else table.own? other := by
  have hinsert := table.own?_insert name other ⟨name, place, table.definitions⟩
  rw [if_neg hplace] at hinsert
  exact hinsert

theorem own?_capture {table : Table} {outer : Symbol} (hfresh : table.lookup? outer.name = none)
    (name : String) : (table.capture outer).2.own? name = table.own? name := by
  have hinsert := table.own?_insert outer.name name ⟨outer.name, .captured, table.captures.length⟩
  rw [if_pos rfl] at hinsert
  refine hinsert.trans ?_
  split
  next heq => rw [heq, own?, hfresh, Option.filter_none]
  next => rfl

def Valid (function : Bool) (table : Table) : Prop :=
  ∀ name symbol, table.lookup? name = some symbol →
    symbol.name = name ∧ symbol.Valid function table

/-- The table `later` has given out more slots than `table` and captured more. -/
structure Grows (table later : Table) : Prop where
  definitions : table.definitions ≤ later.definitions
  captures : table.captures <+: later.captures

/-- The table `later` has captured more than `table`, and nothing else has changed. -/
structure Extends (table later : Table) : Prop where
  definitions : later.definitions = table.definitions
  captures : table.captures <+: later.captures
  lookup : ∀ {name symbol}, table.lookup? name = some symbol → later.lookup? name = some symbol
  own : ∀ name, later.own? name = table.own? name

theorem Grows.refl (table : Table) : table.Grows table :=
  ⟨Nat.le_refl _, List.prefix_refl _⟩

theorem Grows.trans {first second third : Table} (hleft : first.Grows second)
    (hright : second.Grows third) : first.Grows third :=
  ⟨Nat.le_trans hleft.definitions hright.definitions, hleft.captures.trans hright.captures⟩

theorem Extends.refl (table : Table) : table.Extends table :=
  ⟨rfl, List.prefix_refl _, id, fun _ => rfl⟩

theorem Extends.trans {first second third : Table} (hleft : first.Extends second)
    (hright : second.Extends third) : first.Extends third :=
  ⟨hright.definitions.trans hleft.definitions, hleft.captures.trans hright.captures,
    fun found => hright.lookup (hleft.lookup found),
    fun name => (hright.own name).trans (hleft.own name)⟩

theorem Extends.grows {table later : Table} (extends_ : table.Extends later) :
    table.Grows later :=
  ⟨Nat.le_of_eq extends_.definitions.symm, extends_.captures⟩

end Table

theorem Symbol.Valid.mono {function : Bool} {table later : Table} {symbol : Symbol}
    (valid : symbol.Valid function table) (grows : table.Grows later) :
    symbol.Valid function later := by
  refine ⟨valid.1, ?_⟩
  have hindex := valid.2
  have hcaptures := grows.captures.length_le
  have hdefinitions := grows.definitions
  cases hplace : symbol.place <;> simp only [hplace] at hindex ⊢ <;> omega

namespace Table

theorem Valid.insert {function : Bool} {table : Table} (valid : table.Valid function)
    (symbol : Symbol) (hsymbol : symbol.Valid function table) :
    (table.insert symbol.name symbol).Valid function := by
  intro name found hfound
  rw [lookup?_insert] at hfound
  split at hfound
  next heq =>
    cases hfound
    exact ⟨heq.symm, hsymbol⟩
  next => exact valid name found hfound

theorem valid_empty (function : Bool) : empty.Valid function := by
  intro name symbol hfound
  simp at hfound

theorem Valid.moreDefinitions {function : Bool} {table : Table} (valid : table.Valid function) :
    ({ table with definitions := table.definitions + 1 } : Table).Valid function := by
  intro name symbol hfound
  have := valid name symbol hfound
  exact ⟨this.1, this.2.mono ⟨by simp, List.prefix_refl _⟩⟩

theorem Valid.define {table : Table} (place : Place) (valid : table.Valid place.ofFunction)
    (hplace : place = .global ∨ place = .localSlot) (name : String) :
    (table.define place name).2.Valid place.ofFunction := by
  have hsymbol : Symbol.Valid place.ofFunction
      { table with definitions := table.definitions + 1 } ⟨name, place, table.definitions⟩ := by
    rcases hplace with rfl | rfl <;> simp [Symbol.Valid]
  exact valid.moreDefinitions.insert _ hsymbol

theorem Valid.capture {table : Table} (valid : table.Valid true) (outer : Symbol) :
    (table.capture outer).2.Valid true := by
  have hmore : ({ table with captures := table.captures ++ [outer] } : Table).Valid true := by
    intro name symbol hfound
    have := valid name symbol hfound
    exact ⟨this.1, this.2.mono ⟨by simp, List.prefix_append _ _⟩⟩
  exact hmore.insert ⟨outer.name, .captured, table.captures.length⟩ ⟨rfl, by simp⟩

theorem grows_define (table : Table) (place : Place) (name : String) :
    table.Grows (table.define place name).2 :=
  ⟨by simp [define], List.prefix_refl _⟩

theorem extends_capture {table : Table} {outer : Symbol}
    (hfresh : table.lookup? outer.name = none) : table.Extends (table.capture outer).2 := by
  refine ⟨rfl, List.prefix_append _ _, ?_, own?_capture hfresh⟩
  intro name symbol hfound
  have hne : name ≠ outer.name := by
    rintro rfl
    rw [hfresh] at hfound
    cases hfound
  change (table.insert outer.name _).lookup? name = _
  rw [lookup?_insert, if_neg hne, hfound]

end Table

namespace Scope

abbrev ExtendsAll (outer later : List Table) : Prop :=
  List.Forall₂ Table.Extends outer later

theorem extendsAll_refl (outer : List Table) : ExtendsAll outer outer :=
  List.forall₂_same.mpr fun table _ => Table.Extends.refl table

theorem ExtendsAll.trans {first second third : List Table} (hleft : ExtendsAll first second)
    (hright : ExtendsAll second third) : ExtendsAll first third := by
  induction hleft generalizing third with
  | nil => exact hright
  | cons head _ ih =>
      cases hright with
      | cons head' tail' => exact .cons (head.trans head') (ih tail')

/-- Every table of the chain is valid, and what it captures is something of the next table, which
belongs to a function as well. -/
def ValidFrom : Table → List Table → Prop
  | table, [] => table.Valid false ∧ table.captures = []
  | table, next :: rest =>
      table.Valid true ∧
        (∀ symbol ∈ table.captures,
          symbol.place.ofFunction = true ∧ symbol.Valid (!rest.isEmpty) next) ∧
        ValidFrom next rest

def Valid (scope : Scope) : Prop :=
  ValidFrom scope.table scope.outer

theorem ValidFrom.valid {table : Table} {outer : List Table} (valid : ValidFrom table outer) :
    table.Valid (!outer.isEmpty) := by
  cases outer with
  | nil => exact valid.1
  | cons next rest => exact valid.1

structure Grows (scope later : Scope) : Prop where
  table : scope.table.Grows later.table
  outer : ExtendsAll scope.outer later.outer

def root : Table → List Table → Table
  | table, [] => table
  | _, next :: rest => root next rest

theorem root_own? {table later : Table} {outer laterOuter : List Table}
    (extends_ : table.Extends later) (hall : ExtendsAll outer laterOuter) (name : String) :
    (root later laterOuter).own? name = (root table outer).own? name := by
  induction hall generalizing table later with
  | nil => exact extends_.own name
  | cons head _ ih => exact ih head

theorem Grows.refl (scope : Scope) : scope.Grows scope :=
  ⟨.refl _, extendsAll_refl _⟩

theorem Grows.trans {first second third : Scope} (hleft : first.Grows second)
    (hright : second.Grows third) : first.Grows third :=
  ⟨hleft.table.trans hright.table, hleft.outer.trans hright.outer⟩

theorem Grows.isTopLevel {scope later : Scope} (grows : scope.Grows later) :
    later.isTopLevel = scope.isTopLevel := by
  obtain ⟨table, outer⟩ := scope
  obtain ⟨laterTable, laterOuter⟩ := later
  cases grows.outer <;> rfl

/-- Whether a name belongs to one of the functions around a point, the innermost of which has the
first table. -/
def inFunctions : List Table → String → Bool
  | [], _ | [_], _ => false
  | table :: next :: rest, name => (table.lookup? name).isSome || inFunctions (next :: rest) name

/-- The three ways to resolve a name: the innermost table has it, the top level has it and no
function does, or it is captured from the next function. -/
inductive Resolved (name : String) (table : Table) (outer : List Table) :
    Symbol → Table → List Table → Prop
  | found {symbol : Symbol} (hfound : table.lookup? name = some symbol) :
      Resolved name table outer symbol table outer
  | topLevel {symbol : Symbol} (habsent : table.lookup? name = none) (hinside : outer ≠ [])
      (hfunctions : inFunctions outer name = false)
      (hfound : (root table outer).lookup? name = some symbol) :
      Resolved name table outer symbol table outer
  | captured {original : Symbol} {next : Table} {rest : List Table}
      (habsent : table.lookup? name = none) (hfunctions : inFunctions outer name = true)
      (hname : original.name = name)
      (hfound : next.lookup? name = some original) (extends_ : ExtendsAll outer (next :: rest)) :
      Resolved name table outer ⟨name, .captured, table.captures.length⟩
        (table.capture original).2 (next :: rest)

theorem ExtendsAll.isEmpty {outer later : List Table} (extends_ : ExtendsAll outer later) :
    later.isEmpty = outer.isEmpty := by
  cases extends_ <;> rfl

theorem ValidFrom.root {table : Table} {outer : List Table} (valid : ValidFrom table outer) :
    (root table outer).Valid false := by
  induction outer generalizing table with
  | nil => exact valid.1
  | cons next rest ih => exact ih valid.2.2

theorem inFunctions_cons {table : Table} {outer : List Table} {name : String}
    (hinside : outer ≠ []) :
    inFunctions (table :: outer) name = ((table.lookup? name).isSome || inFunctions outer name) := by
  cases outer with
  | nil => exact absurd rfl hinside
  | cons next rest => rfl

theorem ne_nil_of_inFunctions {outer : List Table} {name : String}
    (hfunctions : inFunctions outer name = true) : outer ≠ [] := by
  rintro rfl
  simp [inFunctions] at hfunctions

theorem ValidFrom.capture {table next later : Table} {rest laterRest : List Table}
    {original : Symbol} (valid : ValidFrom table (next :: rest))
    (hlater : ValidFrom later laterRest) (extends_ : ExtendsAll (next :: rest) (later :: laterRest))
    (hplace : original.place.ofFunction = true)
    (horiginal : original.Valid (!laterRest.isEmpty) later) :
    ValidFrom (table.capture original).2 (later :: laterRest) := by
  refine ⟨valid.1.capture original, ?_, hlater⟩
  intro symbol member
  obtain ⟨hextends, hrest⟩ := List.forall₂_cons.mp extends_
  have hcaptures : (table.capture original).2.captures = table.captures ++ [original] := rfl
  rw [hcaptures, List.mem_append, List.mem_singleton] at member
  rcases member with member | rfl
  · obtain ⟨hfunction, hvalid⟩ := valid.2.1 symbol member
    rw [ExtendsAll.isEmpty hrest]
    exact ⟨hfunction, hvalid.mono hextends.grows⟩
  · exact ⟨hplace, horiginal⟩

section

variable {name : String} {table later : Table} {outer laterOuter : List Table} {symbol : Symbol}

theorem resolveFrom_found (hfound : table.lookup? name = some symbol) (outer : List Table) :
    resolveFrom name table outer = some (symbol, table, outer) := by
  cases outer with
  | nil => rw [resolveFrom, hfound, Option.map_some]
  | cons next rest => simp only [resolveFrom, hfound]

inductive Carried (table next : Table) (rest : List Table) (original : Symbol) :
    Symbol → Table → List Table → Prop
  | along (hplace : original.place.ofFunction = false) :
      Carried table next rest original original table (next :: rest)
  | captured (hplace : original.place.ofFunction = true) :
      Carried table next rest original (table.capture original).1 (table.capture original).2
        (next :: rest)

theorem resolveFrom_carried {next : Table} {rest : List Table}
    (habsent : table.lookup? name = none)
    (hresolve : resolveFrom name table (next :: rest) = some (symbol, later, laterOuter)) :
    ∃ original nextLater restLater,
      resolveFrom name next rest = some (original, nextLater, restLater) ∧
        Carried table nextLater restLater original symbol later laterOuter := by
  simp only [resolveFrom, habsent] at hresolve
  cases hinner : resolveFrom name next rest with
  | none => simp [hinner] at hresolve
  | some inner =>
      obtain ⟨original, nextLater, restLater⟩ := inner
      refine ⟨original, nextLater, restLater, rfl, ?_⟩
      simp only [hinner] at hresolve
      cases hplace : original.place with
      | global | builtin =>
          simp only [hplace, Option.some.injEq, Prod.mk.injEq] at hresolve
          obtain ⟨rfl, rfl, rfl⟩ := hresolve
          exact .along (by rw [hplace]; rfl)
      | localSlot | captured | self =>
          simp only [hplace, Option.some.injEq, Prod.mk.injEq] at hresolve
          obtain ⟨rfl, rfl, rfl⟩ := hresolve
          exact .captured (by rw [hplace]; rfl)

/-- A resolution, table by table: the innermost one has the name, or what those around it have for it
is carried inwards. -/
inductive Resolves (name : String) : Table → List Table → Symbol → Table → List Table → Prop where
  | found {table : Table} {outer : List Table} {symbol : Symbol}
      (hfound : table.lookup? name = some symbol) : Resolves name table outer symbol table outer
  | carried {table next nextLater later : Table} {rest restLater laterOuter : List Table}
      {original symbol : Symbol} (habsent : table.lookup? name = none)
      (inner : Resolves name next rest original nextLater restLater)
      (carried : Carried table nextLater restLater original symbol later laterOuter) :
      Resolves name table (next :: rest) symbol later laterOuter

theorem resolves_of_resolveFrom
    (hresolve : resolveFrom name table outer = some (symbol, later, laterOuter)) :
    Resolves name table outer symbol later laterOuter := by
  induction outer generalizing table symbol later laterOuter with
  | nil =>
      rw [resolveFrom, Option.map_eq_some_iff] at hresolve
      obtain ⟨_, hfound, ⟨⟩⟩ := hresolve
      exact .found hfound
  | cons next rest ih =>
      cases hfound : table.lookup? name with
      | some found =>
          rw [resolveFrom_found hfound] at hresolve
          cases hresolve
          exact .found hfound
      | none =>
          obtain ⟨original, nextLater, restLater, hinner, carried⟩ :=
            resolveFrom_carried hfound hresolve
          exact .carried hfound (ih hinner) carried

theorem Resolves.resolved (resolves : Resolves name table outer symbol later laterOuter)
    (valid : ValidFrom table outer) :
    Resolved name table outer symbol later laterOuter ∧ ValidFrom later laterOuter := by
  induction resolves with
  | found hfound => exact ⟨.found hfound, valid⟩
  | @carried table next _ _ rest _ _ original _ habsent _ carried ih =>
      obtain ⟨hresolved, hvalid⟩ := ih valid.2.2
      cases hresolved with
      | found hnext =>
          obtain ⟨hname, hplace, hindex⟩ := valid.2.2.valid name original hnext
          cases carried with
          | along hglobal =>
              obtain rfl : rest = [] := by simpa [hglobal] using hplace
              exact ⟨.topLevel habsent (by simp) rfl hnext, valid⟩
          | captured hfunction =>
              subst hname
              refine ⟨.captured habsent ?_ rfl hnext (extendsAll_refl _), ?_⟩
              · rw [inFunctions_cons (by rintro rfl; simp [hfunction] at hplace), hnext]
                rfl
              · exact valid.capture valid.2.2 (extendsAll_refl _) hfunction ⟨hplace, hindex⟩
      | topLevel habsent' hinside hfunctions hroot =>
          cases carried with
          | along =>
              refine ⟨.topLevel habsent (by simp) ?_ hroot, valid⟩
              rw [inFunctions_cons hinside, habsent', hfunctions]
              rfl
          | captured hfunction =>
              rw [(valid.2.2.root name original hroot).2.1] at hfunction
              cases hfunction
      | @captured first third rest' habsent' hfunctions hname hfirst hextends =>
          cases carried with
          | along hglobal => cases hglobal
          | captured =>
              subst hname
              have hnext : ExtendsAll (next :: rest) ((next.capture first).2 :: third :: rest') :=
                .cons (Table.extends_capture habsent') hextends
              refine ⟨.captured habsent ?_ rfl ?_ hnext, ?_⟩
              · rw [inFunctions_cons (ne_nil_of_inFunctions hfunctions), hfunctions, Bool.or_true]
              · change (next.insert _ _).lookup? _ = _
                rw [Table.lookup?_insert, if_pos rfl]
              · refine valid.capture hvalid hnext rfl ⟨rfl, ?_⟩
                simp [Table.capture]

end

theorem Resolved.extends {name : String} {table later : Table} {outer laterOuter : List Table}
    {symbol : Symbol} (resolved : Resolved name table outer symbol later laterOuter) :
    table.Extends later ∧ ExtendsAll outer laterOuter := by
  cases resolved with
  | found => exact ⟨.refl _, extendsAll_refl _⟩
  | topLevel => exact ⟨.refl _, extendsAll_refl _⟩
  | captured habsent _ hname _ hextends =>
      subst hname
      exact ⟨Table.extends_capture habsent, hextends⟩

theorem Resolved.grows {name : String} {table later : Table} {outer laterOuter : List Table}
    {symbol : Symbol} (resolved : Resolved name table outer symbol later laterOuter) :
    Grows ⟨table, outer⟩ ⟨later, laterOuter⟩ :=
  ⟨resolved.extends.1.grows, resolved.extends.2⟩

/-- What has been resolved to something of a function is in the table of the function at hand. -/
theorem Resolved.lookup {name : String} {table later : Table} {outer laterOuter : List Table}
    {symbol : Symbol} (resolved : Resolved name table outer symbol later laterOuter)
    (valid : ValidFrom table outer) (hplace : symbol.place.ofFunction = true) :
    symbol.name = name ∧ later.lookup? name = some symbol := by
  cases resolved with
  | found hfound => exact ⟨(valid.valid name symbol hfound).1, hfound⟩
  | topLevel _ _ _ hfound =>
      rw [(valid.root name symbol hfound).2.1] at hplace
      cases hplace
  | captured _ _ hname =>
      subst hname
      refine ⟨rfl, ?_⟩
      change (table.insert _ _).lookup? _ = _
      rw [Table.lookup?_insert, if_pos rfl]

theorem Resolved.global {name : String} {table later : Table} {outer laterOuter : List Table}
    {symbol : Symbol} (resolved : Resolved name table outer symbol later laterOuter)
    (valid : ValidFrom table outer) (hplace : symbol.place.ofFunction = false) :
    (root later laterOuter).own? name = some symbol ∧ (outer ≠ [] → later.own? name = none) := by
  have hkind : symbol.place ≠ .captured := by
    intro hcaptured
    rw [hcaptured] at hplace
    cases hplace
  cases resolved with
  | found hfound =>
      have hvalid := (valid.valid name symbol hfound).2.1
      rw [hplace] at hvalid
      cases outer with
      | nil => exact ⟨Table.own?_eq_some.mpr ⟨hfound, hkind⟩, fun hinside => absurd rfl hinside⟩
      | cons next rest => cases hvalid
  | topLevel habsent _ _ hfound =>
      exact ⟨Table.own?_eq_some.mpr ⟨hfound, hkind⟩, fun _ => by simp [Table.own?, habsent]⟩
  | captured => cases hplace

/-- A symbol that stands for something at a point: for something of the function at hand, or of the
top level. -/
def Loadable (scope : Scope) (symbol : Symbol) : Prop :=
  symbol.Valid true scope.table ∧ scope.isTopLevel = false ∨
    symbol.Valid false (root scope.table scope.outer)

theorem loadable_of_valid {scope : Scope} {symbol : Symbol}
    (valid : symbol.Valid (!scope.outer.isEmpty) scope.table) : scope.Loadable symbol := by
  obtain ⟨table, outer⟩ := scope
  cases outer with
  | nil => exact .inr valid
  | cons next rest => exact .inl ⟨valid, rfl⟩

theorem resolve_valid {scope later : Scope} {name : String} {symbol : Symbol}
    (valid : scope.Valid) (hresolve : scope.resolve name = some (symbol, later)) :
    Resolved name scope.table scope.outer symbol later.table later.outer ∧ later.Valid ∧
      later.Loadable symbol := by
  cases hfrom : resolveFrom name scope.table scope.outer with
  | none => simp [resolve, hfrom] at hresolve
  | some result =>
      obtain ⟨found, table, outer⟩ := result
      simp only [resolve, hfrom, Option.map_some, Option.some.injEq, Prod.mk.injEq] at hresolve
      obtain ⟨rfl, rfl⟩ := hresolve
      obtain ⟨hresolved, hvalid⟩ := (resolves_of_resolveFrom hfrom).resolved valid
      refine ⟨hresolved, hvalid, ?_⟩
      cases hresolved with
      | found hfound => exact loadable_of_valid (valid.valid name found hfound).2
      | topLevel _ _ _ hfound => exact .inr (valid.root name found hfound).2
      | captured => exact .inl ⟨⟨rfl, by simp [Table.capture]⟩, rfl⟩

theorem Valid.define {scope : Scope} (valid : scope.Valid) (name : String) :
    (scope.define name).2.Valid := by
  obtain ⟨table, outer⟩ := scope
  cases outer with
  | nil => exact ⟨Table.Valid.define .global valid.1 (.inl rfl) name, valid.2⟩
  | cons next rest =>
      exact ⟨Table.Valid.define .localSlot valid.1 (.inr rfl) name, valid.2⟩

theorem grows_define (scope : Scope) (name : String) : scope.Grows (scope.define name).2 :=
  ⟨Table.grows_define _ _ _, extendsAll_refl _⟩

theorem Valid.enter {scope : Scope} (valid : scope.Valid) : scope.enter.Valid :=
  ⟨Table.valid_empty _, by simp [Table.empty, Scope.enter], valid⟩

theorem Valid.defineSelf {scope : Scope} (valid : scope.Valid) (hinside : scope.isTopLevel = false)
    (name : String) : (scope.defineSelf name).2.Valid := by
  obtain ⟨table, outer⟩ := scope
  cases outer with
  | nil => simp [isTopLevel] at hinside
  | cons next rest =>
      exact ⟨Table.Valid.insert valid.1 ⟨name, .self, 0⟩ ⟨rfl, trivial⟩, valid.2⟩

theorem Valid.defineBuiltin {table : Table} (valid : (⟨table, []⟩ : Scope).Valid) {index : Nat}
    (hindex : index < Builtin.all.length) (name : String) :
    ((⟨table, []⟩ : Scope).defineBuiltin index name).2.Valid :=
  ⟨Table.Valid.insert valid.1 ⟨name, .builtin, index⟩ ⟨rfl, hindex⟩, valid.2⟩

theorem Valid.leave {scope outer : Scope} (valid : scope.Valid)
    (hleave : scope.leave? = some outer) :
    outer.Valid ∧ ∀ symbol ∈ scope.table.captures, outer.Loadable symbol := by
  obtain ⟨table, tables⟩ := scope
  cases tables with
  | nil => simp [leave?] at hleave
  | cons next rest =>
      simp only [leave?, Option.some.injEq] at hleave
      subst hleave
      exact ⟨valid.2.2, fun symbol member => loadable_of_valid (valid.2.1 symbol member).2⟩

theorem defineBuiltins_valid (builtins : List (Nat × Builtin)) (scope : Scope)
    (hroot : scope.outer = []) (valid : scope.Valid)
    (hbounds : ∀ entry ∈ builtins, entry.1 < Builtin.all.length) :
    (builtins.foldl (fun scope (index, builtin) =>
      (scope.defineBuiltin index builtin.name).2) scope).Valid ∧
    (builtins.foldl (fun scope (index, builtin) =>
      (scope.defineBuiltin index builtin.name).2) scope).outer = [] := by
  induction builtins generalizing scope with
  | nil => exact ⟨valid, hroot⟩
  | cons entry rest ih =>
      obtain ⟨table, outer⟩ := scope
      subst hroot
      exact ih _ rfl (valid.defineBuiltin (hbounds entry (by simp)) _)
        fun entry member => hbounds entry (by simp [member])

theorem withBuiltins_valid : withBuiltins.Valid ∧ withBuiltins.isTopLevel = true := by
  have hall := defineBuiltins_valid (Builtin.all.mapIdx Prod.mk) bare rfl
    ⟨Table.valid_empty _, rfl⟩ (by decide)
  exact ⟨hall.1, by simp [isTopLevel, withBuiltins, hall.2]⟩

theorem resolve_top {scope : Scope} (valid : scope.Valid) (htop : scope.isTopLevel = true)
    (name : String) : scope.resolve name = (scope.table.own? name).map (·, scope) := by
  obtain ⟨table, outer⟩ := scope
  cases outer with
  | cons => cases htop
  | nil =>
      have hown : table.own? name = table.lookup? name := by
        cases hfound : table.lookup? name with
        | none => rw [Table.own?, hfound, Option.filter_none]
        | some symbol =>
            refine Table.own?_eq_some.mpr ⟨hfound, fun hcaptured => ?_⟩
            have hplace := (valid.valid name symbol hfound).2.1
            rw [hcaptured] at hplace
            cases hplace
      simp only [resolve, resolveFrom, Option.map_map, hown]
      rfl

end Scope

end Stacklang
