import Stacklang.Proofs.Compile.Survey
import Stacklang.Proofs.Scope.Lexical

namespace Stacklang

namespace Scope

/-- How a chain changes while a function is compiled: names are bound, the latest of which comes
first here, and in between others are resolved. -/
inductive Becomes (scope : Scope) : List String → Scope → Prop where
  | refl : Becomes scope [] scope
  | define {names : List String} {later : Scope} (becomes : Becomes scope names later)
      (name : String) : Becomes scope (name :: names) (later.define name).2
  | resolve {names : List String} {later further : Scope} {name : String} {symbol : Symbol}
      (becomes : Becomes scope names later)
      (hresolve : later.resolve name = some (symbol, further)) : Becomes scope names further

theorem Becomes.trans {scope middle later : Scope} {first second : List String}
    (hfirst : scope.Becomes first middle) (hsecond : middle.Becomes second later) :
    scope.Becomes (second ++ first) later := by
  induction hsecond with
  | refl => exact hfirst
  | define _ name ih => exact ih.define name
  | resolve _ hresolve ih => exact ih.resolve hresolve

/-- What happens inside a function resolves names around it, and does no more there. -/
theorem Becomes.around {scope later : Scope} {next : Table} {rest : List Table}
    {names : List String} (becomes : scope.Becomes names later)
    (houter : scope.outer = next :: rest) :
    ∃ around, later.leave? = some around ∧ Becomes ⟨next, rest⟩ [] around := by
  induction becomes with
  | refl =>
      obtain ⟨table, outer⟩ := scope
      subst houter
      exact ⟨⟨next, rest⟩, rfl, .refl⟩
  | define _ _ ih => exact ih
  | @resolve _ middle further name symbol _ hresolve ih =>
      obtain ⟨around, hleave, becomes⟩ := ih
      obtain ⟨table, outer⟩ := middle
      cases outer with
      | nil => cases hleave
      | cons next' rest' =>
          cases hleave
          have hfrom := resolve_eq_some.mp hresolve
          obtain ⟨later, laterOuter⟩ := further
          cases hfound : table.lookup? name with
          | some found =>
              rw [resolveFrom_found hfound] at hfrom
              cases hfrom
              exact ⟨_, rfl, becomes⟩
          | none =>
              obtain ⟨original, nextLater, restLater, hinner, carried⟩ :=
                resolveFrom_carried hfound hfrom
              have hnext : Becomes ⟨next, rest⟩ [] ⟨nextLater, restLater⟩ :=
                becomes.resolve (resolve_eq_some.mpr hinner)
              cases carried with
              | along | captured => exact ⟨_, rfl, hnext⟩

theorem Becomes.top {scope later : Scope} {names : List String}
    (becomes : scope.Becomes names later) (htop : scope.outer = []) :
    later = scope.defineAll names := by
  obtain ⟨table, outer⟩ := scope
  subst htop
  have hall : later = defineAll ⟨table, []⟩ names ∧ later.outer = [] := by
    induction becomes with
    | refl => exact ⟨rfl, rfl⟩
    | define _ name ih =>
        obtain ⟨rfl, houter⟩ := ih
        exact ⟨rfl, houter⟩
    | @resolve _ middle further name symbol _ hresolve ih =>
        obtain ⟨hmiddle, houter⟩ := ih
        rw [resolve_eq_some, houter, resolveFrom, Option.map_eq_some_iff] at hresolve
        obtain ⟨_, -, hsame⟩ := hresolve
        obtain ⟨later, laterOuter⟩ := further
        obtain ⟨middleTable, middleOuter⟩ := middle
        cases hsame
        subst houter
        exact ⟨hmiddle, rfl⟩
  exact hall.1

theorem Becomes.reached {scope later : Scope} {names : List String}
    (becomes : scope.Becomes names later) (reached : scope.Reached) : later.Reached := by
  induction becomes with
  | refl => exact reached
  | define _ name ih => exact ih.define name
  | resolve _ hresolve ih => exact ih.resolve hresolve

/-- What holds inside a function and is kept by binding names holds where its body begins. -/
theorem entry_induction {P : Scope → Prop} {scope : Scope} (henter : P scope.enter)
    (hself : ∀ name, P (scope.enter.defineSelf name).2)
    (hdefine : ∀ later name, P later → P (later.define name).2) (name : Option String)
    (parameters : List String) : P (scope.entry name parameters) := by
  have hall : ∀ start : Scope, P start →
      P (parameters.foldl (fun scope parameter => (scope.define parameter).2) start) := by
    induction parameters with
    | nil => exact fun _ hstart => hstart
    | cons parameter rest ih => exact fun start hstart => ih _ (hdefine start parameter hstart)
  cases name with
  | none => exact hall _ henter
  | some name => exact hall _ (hself name)

theorem outer_entry (scope : Scope) (name : Option String) (parameters : List String) :
    (scope.entry name parameters).outer = scope.table :: scope.outer :=
  entry_induction (P := fun later => later.outer = scope.table :: scope.outer) rfl (fun _ => rfl)
    (fun _ _ houter => houter) name parameters

theorem reached_entry {scope : Scope} (reached : scope.Reached) (name : Option String)
    (parameters : List String) : (scope.entry name parameters).Reached :=
  entry_induction reached.enter (fun name => reached.enter.defineSelf name)
    (fun _ name reached => reached.define name) name parameters

@[simp] theorem outer_defineAll (scope : Scope) (names : List String) :
    (scope.defineAll names).outer = scope.outer := by
  induction names with
  | nil => rfl
  | cons name rest ih => exact ih

theorem definitions_defineAll (scope : Scope) (names : List String) :
    (scope.defineAll names).table.definitions = scope.table.definitions + names.length := by
  induction names with
  | nil => rfl
  | cons name rest ih => exact congrArg (· + 1) ih

theorem lookup?_defineAll {scope : Scope} (houter : scope.outer = []) (name other : String)
    (rest : List String) :
    (scope.defineAll (name :: rest)).table.lookup? other =
      if other = name then some ⟨name, .global, scope.table.definitions + rest.length⟩
      else (scope.defineAll rest).table.lookup? other := by
  have htop : (scope.defineAll rest).isTopLevel = true := by simp [isTopLevel, houter]
  change (((scope.defineAll rest).define name).2).table.lookup? other = _
  rw [← definitions_defineAll, define, htop]
  exact (scope.defineAll rest).table.lookup?_insert name other _

theorem lookup?_defineAll_unbound {scope : Scope} (houter : scope.outer = []) {names : List String}
    {name : String} (hunbound : name ∉ names) :
    (scope.defineAll names).table.lookup? name = scope.table.lookup? name := by
  induction names with
  | nil => rfl
  | cons first rest ih =>
      rw [List.mem_cons, not_or] at hunbound
      rw [lookup?_defineAll houter, if_neg hunbound.1, ih hunbound.2]

theorem lookup?_defineAll_bound {scope : Scope} (houter : scope.outer = []) {name : String}
    {later : List String} (hunbound : name ∉ later) (earlier : List String) :
    (scope.defineAll (later ++ name :: earlier)).table.lookup? name =
      some ⟨name, .global, scope.table.definitions + earlier.length⟩ := by
  induction later with
  | nil => rw [List.nil_append, lookup?_defineAll houter, if_pos rfl]
  | cons first rest ih =>
      rw [List.mem_cons, not_or] at hunbound
      rw [List.cons_append, lookup?_defineAll houter, if_neg hunbound.1, ih hunbound.2]

/-! Names with a meaning. -/

def Has (scope : Scope) (name : String) : Prop :=
  (owner? name scope.tables).isSome = true

theorem owner?_isSome (name : String) (table : Table) (outer : List Table) :
    (owner? name (table :: outer)).isSome = true ↔
      (table.own? name).isSome = true ∨ (owner? name outer).isSome = true := by
  rw [owner?]
  cases table.own? name with
  | none => simp
  | some symbol => simp

theorem not_has_bare (name : String) : ¬bare.Has name := by
  simp [Has, bare, tables, owner?, Table.own?]

theorem has_insert (scope : Scope) (symbol : Symbol) (hplace : symbol.place ≠ .captured)
    (other : String) :
    Has ⟨scope.table.insert symbol.name symbol, scope.outer⟩ other ↔
      other = symbol.name ∨ scope.Has other := by
  rw [Has, tables, owner?_isSome, Table.own?_insert, if_neg hplace, Has, tables, owner?_isSome]
  by_cases hother : other = symbol.name <;> simp [hother]

theorem has_define (scope : Scope) (name other : String) :
    (scope.define name).2.Has other ↔ other = name ∨ scope.Has other := by
  have hplace : (if scope.isTopLevel then Place.global else Place.localSlot) ≠ .captured := by
    split <;> simp
  exact scope.has_insert ⟨name, _, scope.table.definitions⟩ hplace other

theorem has_enter (scope : Scope) (name : String) : scope.enter.Has name ↔ scope.Has name := by
  change (owner? name (Table.empty :: scope.tables)).isSome = true ↔ _
  rw [owner?_isSome]
  simp [Has, Table.own?]

theorem has_entry (scope : Scope) (name : Option String) (parameters : List String)
    (other : String) :
    (scope.entry name parameters).Has other ↔
      other ∈ parameters ++ name.toList ∨ scope.Has other := by
  have hall : ∀ start : Scope,
      (parameters.foldl (fun scope parameter => (scope.define parameter).2) start).Has other ↔
        other ∈ parameters ∨ start.Has other := by
    induction parameters with
    | nil => simp
    | cons parameter rest ih =>
        intro start
        rw [List.foldl_cons, ih, has_define, List.mem_cons]
        tauto
  rw [List.mem_append, or_assoc]
  cases name with
  | none => exact (hall scope.enter).trans (by simp [has_enter])
  | some name =>
      refine (hall (scope.enter.defineSelf name).2).trans (or_congr_right ?_)
      have hself := scope.enter.has_insert ⟨name, .self, 0⟩ (by simp) other
      exact hself.trans (by simp [has_enter])

theorem has_resolve {scope later : Scope} {name : String} {symbol : Symbol}
    (reached : scope.Reached) (hresolve : scope.resolve name = some (symbol, later))
    (other : String) : later.Has other ↔ scope.Has other := by
  obtain ⟨-, hextends, hall, -, -⟩ :=
    LinkedFrom.resolve reached.linked (resolve_eq_some.mp hresolve)
  rw [Has, tables, owner?_extends (.cons hextends hall), Has, tables]

theorem Becomes.has {scope later : Scope} {names : List String}
    (becomes : scope.Becomes names later) (reached : scope.Reached) (name : String) :
    later.Has name ↔ name ∈ names ∨ scope.Has name := by
  induction becomes with
  | refl => simp
  | define _ first ih => rw [has_define, ih, List.mem_cons, or_assoc]
  | resolve becomes hresolve ih =>
      exact (has_resolve (becomes.reached reached) hresolve name).trans ih

theorem resolve_isSome {scope : Scope} (reached : scope.Reached) (name : String) :
    (scope.resolve name).isSome = true ↔ scope.Has name := by
  constructor
  · intro hsome
    obtain ⟨⟨symbol, later⟩, hresolve⟩ := Option.isSome_iff_exists.mp hsome
    obtain ⟨distance, owner, howner, -⟩ :=
      LinkedFrom.resolve_owner reached.linked (resolve_eq_some.mp hresolve)
    rw [Has, tables, howner]
    rfl
  · intro hhas
    by_contra hnone
    rw [Option.not_isSome_iff_eq_none, Scope.resolve, Option.map_eq_none_iff,
      resolveFrom_eq_none] at hnone
    have hall : ∀ tables : List Table, (∀ table ∈ tables, table.lookup? name = none) →
        owner? name tables = none := by
      intro tables
      induction tables with
      | nil => exact fun _ => rfl
      | cons table rest ih =>
          intro habsent
          rw [List.forall_mem_cons] at habsent
          simp [owner?, Table.own?, habsent.1, ih habsent.2]
    rw [Has, tables, hall _ hnone] at hhas
    cases hhas

theorem withBuiltins_has :
    withBuiltins.Reached ∧ ∀ name, withBuiltins.Has name ↔ name ∈ Builtin.all.map Builtin.name := by
  have hall : ∀ (entries : List (Nat × Builtin)) (scope : Scope), scope.Reached →
      let later := entries.foldl
        (fun scope entry => (scope.defineBuiltin entry.1 entry.2.name).2) scope
      later.Reached ∧
        ∀ name, later.Has name ↔ name ∈ entries.map (·.2.name) ∨ scope.Has name := by
    intro entries
    induction entries with
    | nil => exact fun _ reached => ⟨reached, by simp⟩
    | cons entry rest ih =>
        intro scope reached
        obtain ⟨hreached, hhas⟩ := ih _ (reached.defineBuiltin entry.1 entry.2.name)
        refine ⟨hreached, fun name => (hhas name).trans ?_⟩
        have hbuiltin := scope.has_insert ⟨entry.2.name, .builtin, entry.1⟩ (by simp) name
        refine (or_congr_right hbuiltin).trans ?_
        rw [List.map_cons, List.mem_cons]
        tauto
  obtain ⟨hreached, hhas⟩ := hall (Builtin.all.mapIdx Prod.mk) bare .bare
  refine ⟨hreached, fun name => (hhas name).trans ?_⟩
  rw [or_iff_left (not_has_bare name)]
  rfl

end Scope

end Stacklang
