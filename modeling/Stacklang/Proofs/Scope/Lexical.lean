import Stacklang.Proofs.Scope.Valid

namespace Stacklang

def Table.Indexed (table : Table) : Prop :=
  ∀ name symbol, table.lookup? name = some symbol →
    symbol.name = name ∧
      (symbol.place = .captured → ∃ original,
        table.captures[symbol.index]? = some original ∧ original.name = name)

namespace Table.Indexed

variable {table : Table}

theorem empty : Table.empty.Indexed := by
  intro name symbol hfound
  simp at hfound

theorem insert (indexed : table.Indexed) (symbol : Symbol) (hplace : symbol.place ≠ .captured) :
    (table.insert symbol.name symbol).Indexed := by
  intro name found hfound
  rw [lookup?_insert] at hfound
  split at hfound
  next heq =>
    cases hfound
    exact ⟨heq.symm, fun hcaptured => absurd hcaptured hplace⟩
  next => exact indexed name found hfound

theorem capture (indexed : table.Indexed) (original : Symbol) :
    (table.capture original).2.Indexed := by
  intro name found hfound
  change (table.insert original.name _).lookup? name = _ at hfound
  rw [lookup?_insert] at hfound
  split at hfound
  next heq =>
    cases hfound
    exact ⟨heq.symm, fun _ => ⟨original, by simp [Table.capture], heq.symm⟩⟩
  next =>
    obtain ⟨hname, hcaptured⟩ := indexed name found hfound
    refine ⟨hname, fun hplace => ?_⟩
    obtain ⟨source, hsource, hsourceName⟩ := hcaptured hplace
    obtain ⟨hinside, -⟩ := List.getElem?_eq_some_iff.mp hsource
    exact ⟨source, (List.getElem?_append_left hinside).trans hsource, hsourceName⟩

end Table.Indexed

namespace Scope

/-- The chains that can be made from the bare top level, by any operations in any order. -/
inductive Reached : Scope → Prop where
  | bare : Reached bare
  | define {scope : Scope} (reached : Reached scope) (name : String) :
      Reached (scope.define name).2
  | defineBuiltin {scope : Scope} (reached : Reached scope) (index : Nat) (name : String) :
      Reached (scope.defineBuiltin index name).2
  | defineSelf {scope : Scope} (reached : Reached scope) (name : String) :
      Reached (scope.defineSelf name).2
  | resolve {scope later : Scope} {name : String} {symbol : Symbol} (reached : Reached scope)
      (hresolve : scope.resolve name = some (symbol, later)) : Reached later
  | enter {scope : Scope} (reached : Reached scope) : Reached scope.enter
  | leave {scope outer : Scope} (reached : Reached scope) (hleave : scope.leave? = some outer) :
      Reached outer

def tables (scope : Scope) : List Table :=
  scope.table :: scope.outer

theorem leave?_tables {scope outer : Scope} (hleave : scope.leave? = some outer) :
    scope.outer = outer.tables := by
  obtain ⟨table, around⟩ := scope
  cases around with
  | nil => cases hleave
  | cons next rest =>
      cases hleave
      rfl

/-- The nearest of some tables that has a meaning of its own for a name: how many tables further out
it lies than the first one, and that meaning. -/
def owner? (name : String) : List Table → Option (Nat × Symbol)
  | [] => none
  | table :: outer =>
      match table.own? name with
      | some symbol => some (0, symbol)
      | none => (owner? name outer).map fun (distance, symbol) => (distance + 1, symbol)

def origin? : Nat → List Table → Symbol → Option Symbol
  | 0, _, symbol => some symbol
  | distance + 1, table :: outer, symbol =>
      if symbol.place = .captured then
        table.captures[symbol.index]?.bind (origin? distance outer)
      else none
  | _ + 1, [], _ => none

/-- What each table has captured is the meaning that its name has in the next table. -/
def LinkedFrom : Table → List Table → Prop
  | table, [] => table.Indexed ∧ table.captures = []
  | table, next :: rest =>
      table.Indexed ∧
        (∀ symbol ∈ table.captures,
          symbol.place.ofFunction = true ∧ next.lookup? symbol.name = some symbol) ∧
        LinkedFrom next rest

def Linked (scope : Scope) : Prop :=
  LinkedFrom scope.table scope.outer

variable {name : String} {table later : Table} {outer laterOuter : List Table} {symbol : Symbol}

theorem LinkedFrom.indexed (linked : LinkedFrom table outer) : table.Indexed := by
  cases outer with
  | nil => exact linked.1
  | cons next rest => exact linked.1

theorem LinkedFrom.exchange (linked : LinkedFrom table outer) (hindexed : later.Indexed)
    (hcaptures : later.captures = table.captures) : LinkedFrom later outer := by
  cases outer with
  | nil => exact ⟨hindexed, hcaptures.trans linked.2⟩
  | cons next rest => exact ⟨hindexed, by rw [hcaptures]; exact linked.2.1, linked.2.2⟩

/-! One resolution. -/

theorem resolveFrom_eq_none :
    resolveFrom name table outer = none ↔
      ∀ member ∈ table :: outer, member.lookup? name = none := by
  induction outer generalizing table with
  | nil => simp [resolveFrom]
  | cons next rest ih =>
      cases hfound : table.lookup? name with
      | some symbol => simp [resolveFrom, hfound]
      | none =>
          rw [List.forall_mem_cons, ← ih]
          simp only [resolveFrom, hfound, true_and]
          cases resolveFrom name next rest with
          | none => simp
          | some inner =>
              obtain ⟨original, nextLater, restLater⟩ := inner
              cases hplace : original.place <;> simp [hplace]

theorem resolveFrom_unchanged
    (hresolve : resolveFrom name table outer = some (symbol, later, laterOuter))
    (hplace : symbol.place.ofFunction = false) : later = table ∧ laterOuter = outer := by
  have resolves := resolves_of_resolveFrom hresolve
  clear hresolve
  induction resolves with
  | found => exact ⟨rfl, rfl⟩
  | carried _ _ carried ih =>
      cases carried with
      | along =>
          obtain ⟨rfl, rfl⟩ := ih hplace
          exact ⟨rfl, rfl⟩
      | captured => cases hplace

theorem LinkedFrom.resolve (linked : LinkedFrom table outer)
    (hresolve : resolveFrom name table outer = some (symbol, later, laterOuter)) :
    LinkedFrom later laterOuter ∧ table.Extends later ∧ ExtendsAll outer laterOuter ∧
      symbol.name = name ∧
      (symbol.place.ofFunction = true → later.lookup? name = some symbol) := by
  have resolves := resolves_of_resolveFrom hresolve
  clear hresolve
  induction resolves with
  | found hfound =>
      exact ⟨linked, .refl _, extendsAll_refl _, (linked.indexed name _ hfound).1, fun _ => hfound⟩
  | @carried table next nextLater _ _ _ _ original _ hfound _ carried ih =>
      obtain ⟨hlinked, hnext, hrest, hname, hlookup⟩ := ih linked.2.2
      have hsources : ∀ source ∈ table.captures, source.place.ofFunction = true ∧
          nextLater.lookup? source.name = some source := by
        intro source member
        obtain ⟨hplace, hsource⟩ := linked.2.1 source member
        exact ⟨hplace, hnext.lookup hsource⟩
      cases carried with
      | along hplace =>
          refine ⟨⟨linked.1, hsources, hlinked⟩, .refl _, .cons hnext hrest, hname, ?_⟩
          intro hfunction
          rw [hplace] at hfunction
          cases hfunction
      | captured hplace =>
          subst hname
          refine ⟨⟨linked.1.capture original, ?_, hlinked⟩, Table.extends_capture hfound,
            .cons hnext hrest, rfl, ?_⟩
          · intro source member
            rcases List.mem_append.mp member with member | member
            · exact hsources source member
            · rw [List.mem_singleton.mp member]
              exact ⟨hplace, hlookup hplace⟩
          · intro _
            change (table.insert original.name _).lookup? original.name = _
            rw [Table.lookup?_insert, if_pos rfl]
            rfl

/-! Owners. -/

theorem owner?_extends (hall : ExtendsAll outer laterOuter) (name : String) :
    owner? name laterOuter = owner? name outer := by
  induction hall with
  | nil => rfl
  | cons head _ ih => rw [owner?, owner?, head.own, ih]

def Leads (tables : List Table) (symbol : Symbol) (distance : Nat) (owner : Symbol) : Prop :=
  owner.place.ofFunction = false ∧ symbol = owner ∨
    owner.place.ofFunction = true ∧ origin? distance tables symbol = some owner

theorem leads_self (tables : List Table) (symbol : Symbol) : Leads tables symbol 0 symbol := by
  cases hplace : symbol.place.ofFunction with
  | false => exact .inl ⟨hplace, rfl⟩
  | true => exact .inr ⟨hplace, rfl⟩

theorem owner?_here (hown : table.own? name = some symbol) (outer : List Table) :
    owner? name (table :: outer) = some (0, symbol) := by
  rw [owner?, hown]

theorem owner?_further {distance : Nat} (hown : table.own? name = none)
    (howner : owner? name outer = some (distance, symbol)) :
    owner? name (table :: outer) = some (distance + 1, symbol) := by
  rw [owner?, hown, howner]
  rfl

theorem LinkedFrom.owner (linked : LinkedFrom table outer)
    (hfound : table.lookup? name = some symbol) :
    ∃ distance owner, owner? name (table :: outer) = some (distance, owner) ∧
      Leads (table :: outer) symbol distance owner := by
  induction outer generalizing table symbol with
  | nil =>
      have hplace : symbol.place ≠ .captured := by
        intro hcaptured
        obtain ⟨original, hcapture, -⟩ := (linked.1 name symbol hfound).2 hcaptured
        rw [linked.2] at hcapture
        cases hcapture
      exact ⟨0, symbol, owner?_here (Table.own?_eq_some.mpr ⟨hfound, hplace⟩) _, leads_self _ _⟩
  | cons next rest ih =>
      by_cases hplace : symbol.place = .captured
      · obtain ⟨original, hcapture, hname⟩ := (linked.1 name symbol hfound).2 hplace
        obtain ⟨hfunction, hnext⟩ := linked.2.1 original (List.mem_of_getElem? hcapture)
        rw [hname] at hnext
        obtain ⟨distance, owner, howner, hleads⟩ := ih linked.2.2 hnext
        have hown : table.own? name = none := by simp [Table.own?, hfound, hplace]
        refine ⟨distance + 1, owner, owner?_further hown howner, ?_⟩
        rcases hleads with ⟨hglobal, rfl⟩ | ⟨howned, horigin⟩
        · -- What belongs to the top level is not captured.
          rw [hfunction] at hglobal
          cases hglobal
        · refine .inr ⟨howned, ?_⟩
          rw [origin?, if_pos hplace, hcapture]
          exact horigin
      · exact ⟨0, symbol, owner?_here (Table.own?_eq_some.mpr ⟨hfound, hplace⟩) _, leads_self _ _⟩

theorem owner?_unchanged
    (hresolve : resolveFrom name table outer = some (symbol, later, laterOuter))
    (hplace : symbol.place.ofFunction = false) :
    ∃ distance, owner? name (table :: outer) = some (distance, symbol) := by
  have hown : ∀ {table : Table}, table.lookup? name = some symbol →
      table.own? name = some symbol := by
    intro table hfound
    refine Table.own?_eq_some.mpr ⟨hfound, fun hcaptured => ?_⟩
    rw [hcaptured] at hplace
    cases hplace
  have resolves := resolves_of_resolveFrom hresolve
  clear hresolve
  induction resolves with
  | found hfound => exact ⟨0, owner?_here (hown hfound) _⟩
  | carried habsent _ carried ih =>
      cases carried with
      | along =>
          obtain ⟨distance, howner⟩ := ih hplace hown
          exact ⟨distance + 1, owner?_further (by simp [Table.own?, habsent]) howner⟩
      | captured => cases hplace

theorem LinkedFrom.resolve_owner (linked : LinkedFrom table outer)
    (hresolve : resolveFrom name table outer = some (symbol, later, laterOuter)) :
    ∃ distance owner, owner? name (table :: outer) = some (distance, owner) ∧
      Leads (later :: laterOuter) symbol distance owner := by
  cases hplace : symbol.place.ofFunction with
  | false =>
      obtain ⟨distance, howner⟩ := owner?_unchanged hresolve hplace
      exact ⟨distance, symbol, howner, .inl ⟨hplace, rfl⟩⟩
  | true =>
      obtain ⟨hlinked, hextends, hall, -, hlookup⟩ := linked.resolve hresolve
      obtain ⟨distance, owner, howner, hleads⟩ := hlinked.owner (hlookup hplace)
      rw [owner?_extends (.cons hextends hall)] at howner
      exact ⟨distance, owner, howner, hleads⟩

theorem LinkedFrom.resolve_again (linked : LinkedFrom table outer)
    (hresolve : resolveFrom name table outer = some (symbol, later, laterOuter)) :
    resolveFrom name later laterOuter = some (symbol, later, laterOuter) := by
  cases hplace : symbol.place.ofFunction with
  | false =>
      obtain ⟨rfl, rfl⟩ := resolveFrom_unchanged hresolve hplace
      exact hresolve
  | true =>
      obtain ⟨-, -, -, -, hlookup⟩ := linked.resolve hresolve
      exact resolveFrom_found (hlookup hplace) _

/-! Chains that can be reached. -/

theorem resolve_eq_some {scope later : Scope} :
    scope.resolve name = some (symbol, later) ↔
      resolveFrom name scope.table scope.outer = some (symbol, later.table, later.outer) := by
  obtain ⟨table, outer⟩ := later
  rw [Scope.resolve, Option.map_eq_some_iff]
  constructor
  · intro hresolve
    obtain ⟨⟨_, _, _⟩, hfrom, ⟨⟩⟩ := hresolve
    exact hfrom
  · intro hfrom
    exact ⟨_, hfrom, rfl⟩

theorem Reached.linked {scope : Scope} (reached : scope.Reached) : scope.Linked := by
  induction reached with
  | bare => exact ⟨.empty, rfl⟩
  | @define scope _ name ih =>
      have hplace : (if scope.isTopLevel then Place.global else Place.localSlot) ≠ .captured := by
        split <;> simp
      exact ih.exchange (ih.indexed.insert ⟨name, _, scope.table.definitions⟩ hplace) rfl
  | defineBuiltin _ index name ih =>
      exact ih.exchange (ih.indexed.insert ⟨name, .builtin, index⟩ (by simp)) rfl
  | defineSelf _ name ih =>
      exact ih.exchange (ih.indexed.insert ⟨name, .self, 0⟩ (by simp)) rfl
  | resolve _ hresolve ih => exact (LinkedFrom.resolve ih (resolve_eq_some.mp hresolve)).1
  | enter _ ih => exact ⟨.empty, by simp [Table.empty, Scope.enter], ih⟩
  | leave _ hleave ih =>
      rw [Linked, leave?_tables hleave] at ih
      exact ih.2.2

/-- Resolving finds nothing exactly if no table has the name. Otherwise it gives the owner's symbol
as it is, where the owner is the innermost table or the symbol belongs to the top level, and a
captured one that leads to the owner's symbol from table to table, where it does not. A second
resolution gives the same and captures nothing more. -/
theorem resolve_lexical {scope : Scope} (reached : scope.Reached) (name : String) :
    (scope.resolve name = none ↔ ∀ table ∈ scope.tables, table.lookup? name = none) ∧
      ∀ symbol later, scope.resolve name = some (symbol, later) →
        (∃ distance owner, owner? name scope.tables = some (distance, owner) ∧
          (distance = 0 ∨ owner.place = .global ∨ owner.place = .builtin → symbol = owner) ∧
          (¬(distance = 0 ∨ owner.place = .global ∨ owner.place = .builtin) →
            symbol.place = .captured ∧ origin? distance later.tables symbol = some owner)) ∧
        later.resolve name = some (symbol, later) := by
  have linked := reached.linked
  constructor
  · rw [Scope.resolve, Option.map_eq_none_iff]
    exact resolveFrom_eq_none
  intro symbol later hresolve
  have hfrom := resolve_eq_some.mp hresolve
  obtain ⟨distance, owner, howner, hleads⟩ := LinkedFrom.resolve_owner linked hfrom
  have hagain := resolve_eq_some.mpr (LinkedFrom.resolve_again linked hfrom)
  refine ⟨⟨distance, owner, howner, ?_, ?_⟩, hagain⟩
  · intro hsame
    rcases hleads with ⟨-, hsymbol⟩ | ⟨hplace, horigin⟩
    · exact hsymbol
    · rcases hsame with rfl | hglobal | hbuiltin
      · exact Option.some.inj horigin
      · rw [hglobal] at hplace
        cases hplace
      · rw [hbuiltin] at hplace
        cases hplace
  · intro hother
    rcases hleads with ⟨hplace, -⟩ | ⟨-, horigin⟩
    · exfalso
      apply hother
      cases hcase : owner.place <;> simp_all [Place.ofFunction]
    · refine ⟨?_, horigin⟩
      obtain ⟨further, rfl⟩ := Nat.exists_eq_succ_of_ne_zero fun hzero => hother (.inl hzero)
      by_contra hplace
      rw [origin?, if_neg hplace] at horigin
      cases horigin

/-- Two functions inside one that has captured a name and then bound it. -/
theorem resolve_lexical_rebound :
    ∃ scope later : Scope, scope.Reached ∧
      owner? "x" scope.tables = some (2, ⟨"x", .localSlot, 0⟩) ∧
      scope.resolve "x" = some (⟨"x", .captured, 0⟩, later) ∧
      origin? 2 later.tables ⟨"x", .captured, 0⟩ = some ⟨"x", .localSlot, 0⟩ ∧
      later.resolve "x" = some (⟨"x", .captured, 0⟩, later) := by
  let around : Scope := (bare.enter.define "x").2
  let capturing : Scope := ⟨(Table.empty.capture ⟨"x", .localSlot, 0⟩).2, around.tables⟩
  let scope : Scope := (capturing.define "x").2.enter.enter
  let later : Scope :=
    ⟨(Table.empty.capture ⟨"x", .captured, 0⟩).2,
      (Table.empty.capture ⟨"x", .localSlot, 0⟩).2 :: (capturing.define "x").2.tables⟩
  have hcapture : around.enter.resolve "x" = some (⟨"x", .captured, 0⟩, capturing) := by decide
  have hreached : scope.Reached :=
    (((Reached.bare.enter.define "x").enter.resolve hcapture).define "x").enter.enter
  have howner : owner? "x" scope.tables = some (2, ⟨"x", .localSlot, 0⟩) := by decide
  have hresolve : scope.resolve "x" = some (⟨"x", .captured, 0⟩, later) := by decide
  obtain ⟨⟨distance, owner, hfound, -, hother⟩, hagain⟩ :=
    (resolve_lexical hreached "x").2 _ _ hresolve
  rw [howner] at hfound
  cases hfound
  exact ⟨scope, later, hreached, howner, hresolve, (hother (by decide)).2, hagain⟩

end Scope

end Stacklang
