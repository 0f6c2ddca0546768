import Mathlib.Logic.Function.Basic
import Stacklang.Scope

namespace Stacklang

variable {newName : String → String}

def Symbol.rename (newName : String → String) (symbol : Symbol) : Symbol :=
  { symbol with name := newName symbol.name }

namespace Table

def rename (newName : String → String) (table : Table) : Table where
  bindings := table.bindings.map fun binding => (newName binding.1, binding.2.rename newName)
  definitions := table.definitions
  captures := table.captures.map (Symbol.rename newName)

theorem lookup?_rename (hinjective : newName.Injective) (table : Table) (name : String) :
    (table.rename newName).lookup? (newName name) =
      (table.lookup? name).map (Symbol.rename newName) := by
  obtain ⟨bindings, definitions, captures⟩ := table
  simp only [lookup?, rename]
  induction bindings with
  | nil => rfl
  | cons binding rest ih =>
      obtain ⟨known, symbol⟩ := binding
      by_cases hname : name = known
      · subst hname
        rw [List.map_cons, List.lookup_cons_self, List.lookup_cons_self]
        rfl
      · have hother : newName name ≠ newName known := hinjective.ne hname
        rw [List.map_cons, List.lookup_cons, List.lookup_cons, beq_false_of_ne hname,
          beq_false_of_ne hother]
        exact ih

theorem insert_rename (hinjective : newName.Injective) (table : Table) (name : String)
    (symbol : Symbol) :
    (table.rename newName).insert (newName name) (symbol.rename newName) =
      (table.insert name symbol).rename newName := by
  have hkept : ∀ binding : String × Symbol,
      (newName binding.1 != newName name) = (binding.1 != name) := by
    intro binding
    apply Bool.eq_iff_iff.mpr
    rw [bne_iff_ne, bne_iff_ne]
    exact hinjective.ne_iff
  simp only [insert, rename, List.filter_map, List.map_cons, Function.comp_def, hkept]

theorem define_rename (hinjective : newName.Injective) (table : Table) (place : Place)
    (name : String) :
    (table.rename newName).define place (newName name) =
      ((table.define place name).1.rename newName, (table.define place name).2.rename newName) := by
  have hinsert := table.insert_rename hinjective name ⟨name, place, table.definitions⟩
  exact Prod.ext rfl (congrArg ({ · with definitions := table.definitions + 1 }) hinsert)

theorem capture_rename (hinjective : newName.Injective) (table : Table) (outer : Symbol) :
    (table.rename newName).capture (outer.rename newName) =
      ((table.capture outer).1.rename newName, (table.capture outer).2.rename newName) := by
  have hinsert :=
    table.insert_rename hinjective outer.name ⟨outer.name, .captured, table.captures.length⟩
  have hbindings := congrArg Table.bindings hinsert
  simp only [capture, rename, Symbol.rename, List.length_map, List.map_append, List.map_cons,
    List.map_nil, Prod.mk.injEq, Table.mk.injEq, true_and, and_true]
  exact ⟨hbindings, rfl⟩

end Table

namespace Scope

def rename (newName : String → String) (scope : Scope) : Scope where
  table := scope.table.rename newName
  outer := scope.outer.map (Table.rename newName)

@[simp] theorem isTopLevel_rename (scope : Scope) :
    (scope.rename newName).isTopLevel = scope.isTopLevel :=
  List.isEmpty_map

theorem define_rename (hinjective : newName.Injective) (scope : Scope) (name : String) :
    (scope.rename newName).define (newName name) =
      ((scope.define name).1.rename newName, (scope.define name).2.rename newName) := by
  simp only [define, isTopLevel_rename]
  rw [show (scope.rename newName).table = scope.table.rename newName from rfl,
    Table.define_rename hinjective]
  rfl

theorem defineSelf_rename (hinjective : newName.Injective) (scope : Scope) (name : String) :
    ((scope.rename newName).defineSelf (newName name)).2 =
      (scope.defineSelf name).2.rename newName :=
  congrArg ({ scope.rename newName with table := · })
    (scope.table.insert_rename hinjective name ⟨name, .self, 0⟩)

theorem defineBuiltin_rename (hinjective : newName.Injective) (scope : Scope) (index : Nat)
    (name : String) :
    ((scope.rename newName).defineBuiltin index (newName name)).2 =
      (scope.defineBuiltin index name).2.rename newName :=
  congrArg ({ scope.rename newName with table := · })
    (scope.table.insert_rename hinjective name ⟨name, .builtin, index⟩)

theorem leave?_rename (scope : Scope) :
    (scope.rename newName).leave? = scope.leave?.map (rename newName) := by
  obtain ⟨table, outer⟩ := scope
  cases outer with
  | nil => rfl
  | cons next rest => rfl

theorem resolveFrom_rename (hinjective : newName.Injective) (name : String) (table : Table)
    (outer : List Table) :
    resolveFrom (newName name) (table.rename newName) (outer.map (Table.rename newName)) =
      (resolveFrom name table outer).map fun (symbol, table, outer) =>
        (symbol.rename newName, table.rename newName, outer.map (Table.rename newName)) := by
  induction outer generalizing table with
  | nil =>
      rw [List.map_nil, resolveFrom, resolveFrom, Table.lookup?_rename hinjective, Option.map_map,
        Option.map_map]
      rfl
  | cons next rest ih =>
      rw [List.map_cons, resolveFrom, resolveFrom, Table.lookup?_rename hinjective]
      cases hfound : table.lookup? name with
      | some symbol => rfl
      | none =>
          dsimp only [Option.map_none]
          rw [ih]
          cases hresolve : resolveFrom name next rest with
          | none => rfl
          | some found =>
              obtain ⟨symbol, next, rest⟩ := found
              have hcapture := table.capture_rename hinjective symbol
              obtain ⟨known, place, index⟩ := symbol
              cases place with
              | global => rfl
              | builtin => rfl
              | localSlot | captured | self =>
                  exact congrArg (fun captured =>
                    some (captured.1, captured.2, next.rename newName :: rest.map _)) hcapture

theorem resolve_rename (hinjective : newName.Injective) (scope : Scope) (name : String) :
    (scope.rename newName).resolve (newName name) =
      (scope.resolve name).map fun (symbol, scope) =>
        (symbol.rename newName, scope.rename newName) := by
  rw [resolve, resolve, rename, resolveFrom_rename hinjective, Option.map_map, Option.map_map]
  rfl

theorem defineBuiltins_rename (hinjective : newName.Injective) (builtins : List (Nat × Builtin))
    (hbuiltins : ∀ entry ∈ builtins, newName entry.2.name = entry.2.name) (scope : Scope) :
    (builtins.foldl (fun scope (index, builtin) =>
        (scope.defineBuiltin index builtin.name).2) scope).rename newName =
      builtins.foldl (fun scope (index, builtin) =>
        (scope.defineBuiltin index builtin.name).2) (scope.rename newName) := by
  induction builtins generalizing scope with
  | nil => rfl
  | cons entry rest ih =>
      obtain ⟨index, builtin⟩ := entry
      have hname : newName builtin.name = builtin.name := hbuiltins _ (List.mem_cons_self ..)
      have hfirst := scope.defineBuiltin_rename hinjective index builtin.name
      rw [hname] at hfirst
      rw [List.foldl_cons, List.foldl_cons]
      dsimp only
      rw [hfirst]
      exact ih (fun later member => hbuiltins later (List.mem_cons_of_mem _ member)) _

theorem withBuiltins_rename (hinjective : newName.Injective)
    (hbuiltins : ∀ builtin ∈ Builtin.all, newName builtin.name = builtin.name) :
    withBuiltins.rename newName = withBuiltins := by
  apply defineBuiltins_rename hinjective
  intro entry member
  obtain ⟨index, inside, rfl⟩ := List.mem_mapIdx.mp member
  exact hbuiltins _ (List.getElem_mem inside)

end Scope

end Stacklang
