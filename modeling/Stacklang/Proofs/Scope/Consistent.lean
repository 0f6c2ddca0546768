import Mathlib.Data.List.Nodup
import Stacklang.Proofs.Scope.Lexical

namespace Stacklang

def Place.hasSlot : Place → Bool
  | global | localSlot => true
  | builtin | captured | self => false

theorem Place.ofFunction_iff {place : Place} :
    place.ofFunction = true ↔ place = .localSlot ∨ place = .captured ∨ place = .self := by
  cases place <;> simp [ofFunction]

namespace Table

variable {table : Table} {place : Place}

/-- The slots of a table are of one kind, have been given out, and have one name each. -/
structure Slotted (place : Place) (table : Table) : Prop where
  place : ∀ {name symbol}, table.lookup? name = some symbol → symbol.place.hasSlot = true →
    symbol.place = place
  below : ∀ {name symbol}, table.lookup? name = some symbol → symbol.place.hasSlot = true →
    symbol.index < table.definitions
  apart : ∀ {name other symbol second}, table.lookup? name = some symbol →
    table.lookup? other = some second → symbol.place.hasSlot = true →
    second.place.hasSlot = true → symbol.index = second.index → name = other

structure Listed (table : Table) : Prop where
  known : ∀ original ∈ table.captures, (table.lookup? original.name).isSome = true
  once : (table.captures.map Symbol.name).Nodup

structure Kept (place : Place) (table : Table) : Prop where
  slotted : table.Slotted place
  listed : table.Listed

theorem kept_empty (place : Place) : empty.Kept place where
  slotted := ⟨nofun, nofun, nofun⟩
  listed := ⟨nofun, .nil⟩

theorem Slotted.insert (slotted : table.Slotted place) {symbol : Symbol} {definitions : Nat}
    (hmore : table.definitions ≤ definitions)
    (hsymbol : symbol.place.hasSlot = true →
      symbol.place = place ∧ symbol.index = table.definitions ∧ table.definitions < definitions)
    (name : String) (captures : List Symbol) :
    Slotted place
      { table.insert name symbol with definitions := definitions, captures := captures } := by
  have hlookup : ∀ other, lookup?
      { table.insert name symbol with definitions := definitions, captures := captures } other =
        if other = name then some symbol else table.lookup? other :=
    fun other => table.lookup?_insert name other symbol
  constructor
  case place =>
    intro other found hfound hslot
    rw [hlookup] at hfound
    split at hfound
    next =>
      cases hfound
      exact (hsymbol hslot).1
    next => exact slotted.place hfound hslot
  case below =>
    intro other found hfound hslot
    rw [hlookup] at hfound
    split at hfound
    next =>
      cases hfound
      obtain ⟨-, hindex, hless⟩ := hsymbol hslot
      exact hindex ▸ hless
    next => exact Nat.lt_of_lt_of_le (slotted.below hfound hslot) hmore
  case apart =>
    intro first second found other hfound hother hslot hslot' hsame
    rw [hlookup] at hfound hother
    split at hfound <;> split at hother
    next hfirst hsecond => exact hfirst.trans hsecond.symm
    next =>
      cases hfound
      have hbelow := slotted.below hother hslot'
      have hnext := (hsymbol hslot).2.1
      omega
    next =>
      cases hother
      have hbelow := slotted.below hfound hslot
      have hnext := (hsymbol hslot').2.1
      omega
    next => exact slotted.apart hfound hother hslot hslot' hsame

theorem isSome_lookup?_insert (table : Table) (name other : String) (symbol : Symbol) :
    ((table.insert name symbol).lookup? other).isSome = true ↔
      other = name ∨ (table.lookup? other).isSome = true := by
  rw [lookup?_insert]
  by_cases hother : other = name <;> simp [hother]

theorem Kept.insert (kept : table.Kept place) {symbol : Symbol} {definitions : Nat}
    (hmore : table.definitions ≤ definitions)
    (hsymbol : symbol.place.hasSlot = true →
      symbol.place = place ∧ symbol.index = table.definitions ∧ table.definitions < definitions)
    (name : String) : Kept place { table.insert name symbol with definitions := definitions } where
  slotted := kept.slotted.insert hmore hsymbol name _
  listed :=
    { known := fun original member =>
        (isSome_lookup?_insert ..).mpr (.inr (kept.listed.known original member))
      once := kept.listed.once }

theorem Listed.capture (listed : table.Listed) {original : Symbol}
    (hfresh : table.lookup? original.name = none) : (table.capture original).2.Listed where
  known source member := by
    refine (isSome_lookup?_insert ..).mpr ?_
    rcases List.mem_append.mp member with member | member
    · exact .inr (listed.known source member)
    · exact .inl (congrArg Symbol.name (List.mem_singleton.mp member))
  once := by
    have habsent : original.name ∉ table.captures.map Symbol.name := by
      intro member
      obtain ⟨source, hsource, hname⟩ := List.mem_map.mp member
      have hknown := listed.known source hsource
      rw [hname, hfresh] at hknown
      cases hknown
    change ((table.captures ++ [original]).map Symbol.name).Nodup
    rw [List.map_append, List.map_singleton, ← List.concat_eq_append]
    exact List.Nodup.concat habsent listed.once

theorem Kept.capture (kept : table.Kept place) {original : Symbol}
    (hfresh : table.lookup? original.name = none) : (table.capture original).2.Kept place where
  slotted := kept.slotted.insert (Nat.le_refl _) (by simp [Place.hasSlot]) original.name _
  listed := kept.listed.capture hfresh

/-- What can be said of a table in a chain, where `next?` is the table around it. Its symbols are
filed under their names. Its slots are globals at the top level and locals in a function, have been
given out, and have one name each. What is captured is listed, under one name each, and is the
meaning that this name has in the table around it, where it belongs to a function. -/
structure Consistent (table : Table) (next? : Option Table) : Prop where
  named : ∀ name symbol, table.lookup? name = some symbol → symbol.name = name
  slotted : table.Slotted (if next?.isNone then .global else .localSlot)
  captured : ∀ name symbol, table.lookup? name = some symbol → symbol.place = .captured →
    ∃ original, table.captures[symbol.index]? = some original ∧ original.name = name
  once : (table.captures.map Symbol.name).Nodup
  linked : ∀ original ∈ table.captures,
    (original.place = .localSlot ∨ original.place = .captured ∨ original.place = .self) ∧
      next?.bind (·.lookup? original.name) = some original

theorem Indexed.consistent (indexed : table.Indexed) {next? : Option Table}
    (kept : table.Kept (if next?.isNone then .global else .localSlot))
    (hlinked : ∀ original ∈ table.captures, original.place.ofFunction = true ∧
      next?.bind (·.lookup? original.name) = some original) : table.Consistent next? where
  named name symbol hfound := (indexed name symbol hfound).1
  slotted := kept.slotted
  captured name symbol hfound := (indexed name symbol hfound).2
  once := kept.listed.once
  linked original member := (hlinked original member).imp_left Place.ofFunction_iff.mp

end Table

namespace Scope

def slotPlace (outer : List Table) : Place :=
  if outer.isEmpty then .global else .localSlot

def KeptFrom : Table → List Table → Prop
  | table, [] => table.Kept .global
  | table, next :: rest => table.Kept .localSlot ∧ KeptFrom next rest

variable {name : String} {table later : Table} {outer laterOuter : List Table} {symbol : Symbol}

theorem KeptFrom.bind (kept : KeptFrom table outer) {definitions : Nat}
    (hmore : table.definitions ≤ definitions)
    (hsymbol : symbol.place.hasSlot = true →
      symbol.place = slotPlace outer ∧ symbol.index = table.definitions ∧
        table.definitions < definitions) (name : String) :
    KeptFrom { table.insert name symbol with definitions := definitions } outer := by
  cases outer with
  | nil => exact Table.Kept.insert kept hmore hsymbol name
  | cons next rest => exact ⟨kept.1.insert hmore hsymbol name, kept.2⟩

theorem KeptFrom.resolve (kept : KeptFrom table outer) (linked : LinkedFrom table outer)
    (hresolve : resolveFrom name table outer = some (symbol, later, laterOuter)) :
    KeptFrom later laterOuter := by
  suffices hall : KeptFrom later laterOuter ∧ symbol.name = name from hall.1
  have resolves := resolves_of_resolveFrom hresolve
  clear hresolve
  induction resolves with
  | found hfound => exact ⟨kept, (linked.indexed name _ hfound).1⟩
  | carried habsent _ carried ih =>
      obtain ⟨hkept, rfl⟩ := ih kept.2 linked.2.2
      cases carried with
      | along => exact ⟨⟨kept.1, hkept⟩, rfl⟩
      | captured => exact ⟨⟨kept.1.capture habsent, hkept⟩, rfl⟩

theorem KeptFrom.consistent (kept : KeptFrom table outer) (linked : LinkedFrom table outer)
    {depth : Nat} {found : Table} (hfound : (table :: outer)[depth]? = some found) :
    found.Consistent (table :: outer)[depth + 1]? := by
  induction outer generalizing table depth with
  | nil =>
      cases depth with
      | succ depth => cases hfound
      | zero =>
          cases hfound
          obtain ⟨hindexed, hcaptures⟩ := linked
          exact hindexed.consistent kept (by simp [hcaptures])
  | cons next rest ih =>
      obtain ⟨hindexed, hsources, hnext⟩ := linked
      cases depth with
      | succ depth => exact ih kept.2 hnext hfound
      | zero =>
          cases hfound
          exact hindexed.consistent kept.1 hsources

theorem ExtendsAll.definitions {tables laterTables : List Table}
    (extends_ : ExtendsAll tables laterTables) :
    laterTables.map Table.definitions = tables.map Table.definitions := by
  induction extends_ with
  | nil => rfl
  | cons head _ ih => exact congrArg₂ List.cons head.definitions ih

/-- The chains that can be made from the bare top level, by any operations in any order, with the
symbols that `define` has given for each of the tables, in this order. -/
inductive Made : List (List Symbol) → Scope → Prop where
  | bare : Made [[]] bare
  | define {given : List Symbol} {around : List (List Symbol)} {scope : Scope}
      (made : Made (given :: around) scope) (name : String) :
      Made ((given ++ [(scope.define name).1]) :: around) (scope.define name).2
  | defineBuiltin {given : List (List Symbol)} {scope : Scope} (made : Made given scope)
      (index : Nat) (name : String) : Made given (scope.defineBuiltin index name).2
  | defineSelf {given : List (List Symbol)} {scope : Scope} (made : Made given scope)
      (name : String) : Made given (scope.defineSelf name).2
  | resolve {given : List (List Symbol)} {scope later : Scope} {name : String} {symbol : Symbol}
      (made : Made given scope) (hresolve : scope.resolve name = some (symbol, later)) :
      Made given later
  | enter {given : List (List Symbol)} {scope : Scope} (made : Made given scope) :
      Made ([] :: given) scope.enter
  | leave {given : List Symbol} {around : List (List Symbol)} {scope outer : Scope}
      (made : Made (given :: around) scope) (hleave : scope.leave? = some outer) :
      Made around outer

namespace Made

variable {given : List (List Symbol)} {scope : Scope}

theorem reached (made : Made given scope) : scope.Reached := by
  induction made with
  | bare => exact .bare
  | define _ name ih => exact ih.define name
  | defineBuiltin _ index name ih => exact ih.defineBuiltin index name
  | defineSelf _ name ih => exact ih.defineSelf name
  | resolve _ hresolve ih => exact ih.resolve hresolve
  | enter _ ih => exact ih.enter
  | leave _ hleave ih => exact ih.leave hleave

theorem kept (made : Made given scope) : KeptFrom scope.table scope.outer := by
  induction made with
  | bare => exact Table.kept_empty _
  | define _ name ih => exact ih.bind (Nat.le_succ _) (fun _ => ⟨rfl, rfl, Nat.lt_succ_self _⟩) name
  | defineBuiltin _ index name ih => exact ih.bind (Nat.le_refl _) (by simp [Place.hasSlot]) name
  | defineSelf _ name ih => exact ih.bind (Nat.le_refl _) (by simp [Place.hasSlot]) name
  | resolve made hresolve ih => exact ih.resolve made.reached.linked (resolve_eq_some.mp hresolve)
  | enter _ ih => exact ⟨Table.kept_empty _, ih⟩
  | leave _ hleave ih =>
      rw [leave?_tables hleave] at ih
      exact ih.2

/-- The slots of every table have been given out one after the other. -/
theorem counts (made : Made given scope) :
    given.map (List.map Symbol.index) =
      (scope.tables.map Table.definitions).map List.range := by
  induction made with
  | bare => rfl
  | @define given around scope _ name ih =>
      obtain ⟨hhere, haround⟩ := List.cons.inj ih
      have hindex : (scope.define name).1.index = scope.table.definitions := rfl
      have hmore : (scope.define name).2.table.definitions = scope.table.definitions + 1 := rfl
      have hnext : (given ++ [(scope.define name).1]).map Symbol.index =
          List.range (scope.define name).2.table.definitions := by
        rw [List.map_append, List.map_singleton, hhere, hindex, hmore, List.range_succ]
      exact congrArg₂ List.cons hnext haround
  | defineBuiltin _ _ _ ih => exact ih
  | defineSelf _ _ ih => exact ih
  | resolve made hresolve ih =>
      obtain ⟨-, hhere, haround, -, -⟩ :=
        LinkedFrom.resolve made.reached.linked (resolve_eq_some.mp hresolve)
      have hsame := ExtendsAll.definitions (.cons hhere haround)
      exact ih.trans (congrArg (List.map List.range) hsame.symm)
  | enter _ ih => exact congrArg ([] :: ·) ih
  | leave _ hleave ih =>
      rw [tables, leave?_tables hleave] at ih
      exact (List.cons.inj ih).2

end Made

/-- However a chain has been made, each of its tables is consistent with the one around it, and
binding names in a table has given the slots 0, 1, 2 and so on. -/
theorem tables_consistent {given : List (List Symbol)} {scope : Scope} (made : Made given scope)
    {depth : Nat} {table : Table} (hfound : scope.tables[depth]? = some table) :
    table.Consistent scope.tables[depth + 1]? ∧
      given[depth]?.map (List.map Symbol.index) = some (List.range table.definitions) := by
  refine ⟨made.kept.consistent made.reached.linked hfound, ?_⟩
  rw [← List.getElem?_map, made.counts, List.getElem?_map, List.getElem?_map, hfound]
  rfl

/-- A function that has captured a name and then bound it, with a function of its own inside. -/
theorem tables_consistent_rebound :
    ∃ (given : List (List Symbol)) (scope : Scope) (table around : Table), Made given scope ∧
      scope.tables[1]? = some table ∧ scope.tables[2]? = some around ∧
      table.lookup? "x" = some ⟨"x", .localSlot, 2⟩ ∧
      table.captures = [⟨"x", .localSlot, 0⟩] ∧ table.Consistent (some around) ∧
      given[1]?.map (List.map Symbol.index) = some [0, 1, 2] := by
  let around : Scope := (bare.enter.define "x").2
  let capturing : Scope := ⟨(Table.empty.capture ⟨"x", .localSlot, 0⟩).2, around.tables⟩
  let binding : Scope := (((capturing.define "y").2.define "z").2.define "x").2
  have hcapture : around.enter.resolve "x" = some (⟨"x", .captured, 0⟩, capturing) := by decide
  have made : Made _ (binding.enter.defineSelf "f").2 :=
    (((((Made.bare.enter.define "x").enter.resolve hcapture).define "y").define "z").define
      "x").enter.defineSelf "f"
  have hfound : (binding.enter.defineSelf "f").2.tables[1]? = some binding.table := rfl
  obtain ⟨hconsistent, hgiven⟩ := tables_consistent made hfound
  exact ⟨_, _, binding.table, around.table, made, rfl, rfl, by decide, by decide, hconsistent,
    hgiven⟩

end Scope

end Stacklang
