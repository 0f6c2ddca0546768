import Stacklang.Program.Evaluate
import Stacklang.Proofs.Compile.Emits

namespace Stacklang

namespace Survey

theorem use_of_known {survey : Survey} {name : String}
    (hknown : name ∈ survey.bound ∨ name ∈ survey.free) : survey.use name = survey :=
  if_pos hknown

theorem use_of_new {survey : Survey} {name : String}
    (hnew : ¬(name ∈ survey.bound ∨ name ∈ survey.free)) :
    survey.use name = { survey with free := survey.free ++ [name] } :=
  if_neg hnew

@[simp] theorem bound_use (survey : Survey) (name : String) :
    (survey.use name).bound = survey.bound := by
  unfold use
  split <;> rfl

@[simp] theorem literals_use (survey : Survey) (name : String) :
    (survey.use name).literals = survey.literals := by
  unfold use
  split <;> rfl

theorem known_use (survey : Survey) (name : String) :
    name ∈ (survey.use name).bound ∨ name ∈ (survey.use name).free := by
  by_cases hknown : name ∈ survey.bound ∨ name ∈ survey.free
  · rwa [use_of_known hknown]
  · rw [use_of_new hknown]
    simp

theorem mem_free_use {survey : Survey} {name other : String} (member : other ∈ survey.free) :
    other ∈ (survey.use name).free := by
  unfold use
  split
  next => exact member
  next => simp [member]

theorem once_use {survey : Survey} (once : survey.free.Nodup) (name : String) :
    (survey.use name).free.Nodup := by
  by_cases hknown : name ∈ survey.bound ∨ name ∈ survey.free
  · rwa [use_of_known hknown]
  · rw [use_of_new hknown, List.nodup_append]
    refine ⟨once, by simp, ?_⟩
    rintro other member _ hname rfl
    rw [List.mem_singleton.mp hname] at member
    exact hknown (.inr member)

@[simp] theorem bound_uses (survey : Survey) (names : List String) :
    (names.foldl use survey).bound = survey.bound := by
  induction names generalizing survey with
  | nil => rfl
  | cons name rest ih => rw [List.foldl_cons, ih, bound_use]

@[simp] theorem literals_uses (survey : Survey) (names : List String) :
    (names.foldl use survey).literals = survey.literals := by
  induction names generalizing survey with
  | nil => rfl
  | cons name rest ih => rw [List.foldl_cons, ih, literals_use]

theorem mem_free_uses {survey : Survey} (names : List String) {other : String}
    (member : other ∈ survey.free) : other ∈ (names.foldl use survey).free := by
  induction names generalizing survey with
  | nil => exact member
  | cons name rest ih => exact ih (mem_free_use member)

theorem known_uses (survey : Survey) {names : List String} {name : String}
    (member : name ∈ names) :
    name ∈ (names.foldl use survey).bound ∨ name ∈ (names.foldl use survey).free := by
  induction names generalizing survey with
  | nil => cases member
  | cons first rest ih =>
      rcases List.mem_cons.mp member with rfl | member
      · rw [List.foldl_cons, bound_uses]
        exact (survey.known_use name).imp_right (mem_free_uses rest)
      · exact ih _ member

theorem uses_use {survey : Survey} {name : String} (hunbound : name ∉ survey.bound) :
    (survey.use name).free.foldl use = (·.use name) ∘ survey.free.foldl use := by
  funext around
  by_cases hknown : name ∈ survey.bound ∨ name ∈ survey.free
  · rw [use_of_known hknown]
    exact (use_of_known (known_uses _ (hknown.resolve_left hunbound))).symm
  · rw [use_of_new hknown, List.foldl_append]
    rfl

def onFirst (change : Survey → Survey) : List Survey → List Survey
  | [] => []
  | survey :: rest => change survey :: rest

theorem onFirst_onFirst (first second : Survey → Survey) (surveys : List Survey) :
    onFirst second (onFirst first surveys) = onFirst (second ∘ first) surveys := by
  cases surveys <;> rfl

theorem onFirst_id (surveys : List Survey) : onFirst id surveys = surveys := by
  cases surveys <;> rfl

def anyBinds (surveys : List Survey) (name : String) : Bool :=
  surveys.any fun survey => name ∈ survey.bound

theorem anyBinds_onFirst {change : Survey → Survey} (hbound : ∀ survey, (change survey).bound =
    survey.bound) (surveys : List Survey) : anyBinds (onFirst change surveys) = anyBinds surveys := by
  funext name
  cases surveys with
  | nil => rfl
  | cons survey rest => simp only [onFirst, anyBinds, List.any_cons, hbound]

end Survey

open Survey

/-- The survey of a function up to a point tells what is in its table there: the table has the names
that the function binds, and has captured, in order, what it uses of what the functions around it
bind. -/
structure Table.Charted (survey : Survey) (around : String → Bool) (table next : Table) : Prop where
  own : ∀ name, name ∈ survey.bound ↔ (table.own? name).isSome = true
  found : ∀ name, (table.lookup? name).isSome = true ↔
    name ∈ survey.bound ∨ name ∈ survey.free ∧ around name = true
  captures : table.captures.map Symbol.name = survey.free.filter around
  index : ∀ {name symbol}, table.lookup? name = some symbol → symbol.place = .captured →
    (table.captures[symbol.index]?).map Symbol.name = some name
  source : ∀ symbol ∈ table.captures, next.lookup? symbol.name = some symbol
  once : survey.free.Nodup

/-- The surveys of all functions around a point tell what is in their tables. What a function uses and
does not bind is used by the function around it as well. -/
def Scope.ChartedFrom : List Survey → Table → List Table → Prop
  | [], _, [] => True
  | survey :: surveys, table, next :: outer =>
      table.Charted survey (anyBinds surveys) next ∧
        ChartedFrom (onFirst (survey.free.foldl use) surveys) next outer
  | _, _, _ => False

def Scope.Charted (surveys : List Survey) (scope : Scope) : Prop :=
  ChartedFrom surveys scope.table scope.outer

namespace Table.Charted

variable {survey : Survey} {around : String → Bool} {table next : Table}

theorem later {laterNext : Table} (charted : table.Charted survey around next)
    (extends_ : next.Extends laterNext) : table.Charted survey around laterNext :=
  { charted with source := fun symbol member => extends_.lookup (charted.source symbol member) }

theorem useGlobal (charted : table.Charted survey around next) {name : String}
    (hglobal : around name = false) : table.Charted (survey.use name) around next := by
  have honce := once_use charted.once name
  by_cases hknown : name ∈ survey.bound ∨ name ∈ survey.free
  · rwa [use_of_known hknown]
  · rw [use_of_new hknown] at honce ⊢
    refine { charted with found := ?_, captures := ?_, once := honce }
    · intro other
      rw [charted.found other]
      by_cases hother : other = name
      · subst hother
        simp [hglobal]
      · simp [hother]
    · simp [charted.captures, hglobal]

theorem capture (charted : table.Charted survey around next) {original : Symbol}
    (habsent : table.lookup? original.name = none) (haround : around original.name = true)
    (hfound : next.lookup? original.name = some original) :
    (table.capture original).2.Charted (survey.use original.name) around next := by
  have hnew : ¬(original.name ∈ survey.bound ∨ original.name ∈ survey.free) := by
    intro hknown
    have := (charted.found original.name).mpr (hknown.imp_right fun member => ⟨member, haround⟩)
    rw [habsent] at this
    cases this
  have hlookup : ∀ name, (table.capture original).2.lookup? name =
      if name = original.name then some ⟨original.name, .captured, table.captures.length⟩
      else table.lookup? name :=
    fun name => table.lookup?_insert original.name name _
  have honce := once_use charted.once original.name
  rw [use_of_new hnew] at honce ⊢
  refine ⟨?_, ?_, ?_, ?_, ?_, honce⟩
  · intro name
    rw [own?_capture habsent]
    exact charted.own name
  · intro name
    rw [hlookup]
    split
    next heq => simp [heq, haround]
    next hne => simp [charted.found name, hne]
  · change (table.captures ++ [original]).map Symbol.name = _
    simp [charted.captures, haround]
  · intro name symbol hname hplace
    rw [hlookup] at hname
    change ((table.captures ++ [original])[symbol.index]?).map Symbol.name = _
    split at hname
    next heq =>
      cases hname
      simp [heq]
    next =>
      have hindex := charted.index hname hplace
      have hinside : symbol.index < table.captures.length := by
        refine Nat.lt_of_not_le fun houtside => ?_
        simp [List.getElem?_eq_none houtside] at hindex
      rwa [List.getElem?_append_left hinside]
  · intro symbol member
    change symbol ∈ table.captures ++ [original] at member
    rcases List.mem_append.mp member with member | member
    · exact charted.source symbol member
    · rw [List.mem_singleton.mp member]
      exact hfound

theorem insert (charted : table.Charted survey around next) (name : String) (symbol : Symbol)
    (hplace : symbol.place ≠ .captured) :
    (table.insert name symbol).Charted (survey.bind name) around next := by
  refine { charted with own := ?_, found := ?_, index := ?_ }
  · intro other
    rw [own?_insert, if_neg hplace]
    split
    next heq => simp [heq, Survey.bind]
    next hne => simp [hne, Survey.bind, charted.own other]
  · intro other
    rw [lookup?_insert]
    split
    next heq => simp [heq, Survey.bind]
    next hne => simp [hne, Survey.bind, charted.found other]
  · intro other found hother hcaptured
    rw [lookup?_insert] at hother
    split at hother
    next =>
      cases hother
      exact absurd hcaptured hplace
    next => exact charted.index hother hcaptured

theorem define (charted : table.Charted survey around next) (place : Place)
    (hplace : place ≠ .captured) (name : String) :
    (table.define place name).2.Charted (survey.bind name) around next := by
  have hinsert := charted.insert name ⟨name, place, table.definitions⟩ hplace
  exact ⟨hinsert.own, hinsert.found, hinsert.captures, hinsert.index, hinsert.source, hinsert.once⟩

end Table.Charted

namespace Scope

/-- Resolving a name keeps the chain charted. The name is found in a function exactly if one binds
it. -/
theorem ChartedFrom.resolve {name : String} {surveys : List Survey} {table later : Table}
    {outer laterOuter : List Table} {symbol : Symbol} (valid : ValidFrom table outer)
    (charted : ChartedFrom surveys table outer)
    (resolves : Resolves name table outer symbol later laterOuter) :
    ChartedFrom (onFirst (·.use name) surveys) later laterOuter ∧
      symbol.place.ofFunction = anyBinds surveys name := by
  induction resolves generalizing surveys with
  | @found table outer symbol hfound =>
      have hplace := (valid.valid name symbol hfound).2.1
      cases surveys with
      | nil =>
          cases outer with
          | nil => exact ⟨trivial, hplace⟩
          | cons next rest => cases charted
      | cons survey surveys =>
          cases outer with
          | nil => cases charted
          | cons next rest =>
              have hknown := (charted.1.found name).mp (by simp [hfound])
              refine ⟨?_, hplace.trans ?_⟩
              · rw [onFirst, use_of_known (hknown.imp_right And.left)]
                exact charted
              · rcases hknown with hbound | ⟨-, hbinds⟩
                · simp [anyBinds, hbound]
                · simp only [anyBinds, List.any_cons] at hbinds ⊢
                  simp [hbinds]
  | @carried table next nextLater _ rest restLater _ original _ habsent inner carried ih =>
      cases surveys with
      | nil => cases charted
      | cons survey surveys =>
          obtain ⟨hhere, haround⟩ := charted
          have hunbound : name ∉ survey.bound := by
            intro hbound
            have := (hhere.found name).mpr (.inl hbound)
            rw [habsent] at this
            cases this
          have hbinds : anyBinds (survey :: surveys) name = anyBinds surveys name := by
            simp [anyBinds, hunbound]
          obtain ⟨hcharted, horiginal⟩ := ih valid.2.2 haround
          rw [anyBinds_onFirst (fun survey => bound_uses survey _)] at horiginal
          rw [onFirst_onFirst, ← uses_use hunbound] at hcharted
          have hresolved := (inner.resolved valid.2.2).1
          have hextends := hresolved.extends.1
          rw [hbinds]
          cases carried with
          | along hplace =>
              rw [hplace] at horiginal
              exact ⟨⟨(hhere.later hextends).useGlobal horiginal.symm, hcharted⟩,
                hplace.trans horiginal⟩
          | captured hplace =>
              rw [hplace] at horiginal
              obtain ⟨rfl, hlookup⟩ := hresolved.lookup valid.2.2 hplace
              exact ⟨⟨(hhere.later hextends).capture habsent horiginal.symm hlookup, hcharted⟩,
                horiginal⟩

theorem Charted.table {survey : Survey} {surveys : List Survey} {scope : Scope}
    (charted : scope.Charted (survey :: surveys)) :
    ∃ next, scope.table.Charted survey (anyBinds surveys) next := by
  obtain ⟨table, outer⟩ := scope
  cases outer with
  | nil => cases charted
  | cons next rest => exact ⟨next, charted.1⟩

theorem charted_nil {scope : Scope} (htop : scope.isTopLevel = true) : scope.Charted [] := by
  rw [Charted, List.isEmpty_iff.mp htop]
  trivial

theorem Charted.isTopLevel {surveys : List Survey} {scope : Scope}
    (charted : scope.Charted surveys) : scope.isTopLevel = surveys.isEmpty := by
  obtain ⟨table, outer⟩ := scope
  cases outer <;> cases surveys <;> first | rfl | cases charted

theorem Charted.resolve {surveys : List Survey} {scope later : Scope} {name : String}
    {symbol : Symbol} (charted : scope.Charted surveys) (valid : scope.Valid)
    (hresolve : scope.resolve name = some (symbol, later)) :
    later.Charted (onFirst (·.use name) surveys) ∧
      symbol.place.ofFunction = anyBinds surveys name := by
  cases hfrom : resolveFrom name scope.table scope.outer with
  | none => simp [Scope.resolve, hfrom] at hresolve
  | some result =>
      obtain ⟨found, table, outer⟩ := result
      simp only [Scope.resolve, hfrom, Option.map_some, Option.some.injEq, Prod.mk.injEq] at hresolve
      obtain ⟨rfl, rfl⟩ := hresolve
      exact ChartedFrom.resolve valid charted (resolves_of_resolveFrom hfrom)

theorem Charted.define {surveys : List Survey} {scope : Scope} (charted : scope.Charted surveys)
    (name : String) : (scope.define name).2.Charted (onFirst (·.bind name) surveys) := by
  obtain ⟨table, outer⟩ := scope
  cases surveys with
  | nil =>
      cases outer with
      | nil => trivial
      | cons next rest => cases charted
  | cons survey surveys =>
      cases outer with
      | nil => cases charted
      | cons next rest => exact ⟨charted.1.define .localSlot (by simp) name, charted.2⟩

theorem Charted.entry {surveys : List Survey} {scope : Scope} (charted : scope.Charted surveys)
    (name : Option String) (parameters : List String) :
    (scope.entry name parameters).Charted (.enter name parameters :: surveys) := by
  have hall : ∀ (names : List String) (start : Scope) (survey : Survey),
      start.Charted (survey :: surveys) →
      (names.foldl (fun scope parameter => (scope.define parameter).2) start).Charted
        (names.foldl Survey.bind survey :: surveys) := by
    intro names
    induction names with
    | nil => exact fun _ _ hstart => hstart
    | cons parameter rest ih => exact fun start survey hstart => ih _ _ (hstart.define parameter)
  have hempty : scope.enter.Charted (.empty :: surveys) := by
    refine ⟨⟨?_, ?_, rfl, ?_, ?_, List.nodup_nil⟩, ?_⟩
    · simp [Survey.empty, Scope.enter, Table.own?]
    · simp [Survey.empty, Scope.enter]
    · simp [Scope.enter]
    · simp [Scope.enter, Table.empty]
    · exact (onFirst_id surveys).symm ▸ charted
  cases name with
  | none => exact hall parameters _ _ hempty
  | some name =>
      have hself : (scope.enter.defineSelf name).2.Charted (Survey.empty.bind name :: surveys) :=
        ⟨hempty.1.insert name ⟨name, .self, 0⟩ (by simp), hempty.2⟩
      exact hall parameters _ _ hself

theorem Charted.recount {surveys : List Survey} {scope : Scope} (charted : scope.Charted surveys)
    (count : Survey → Nat) :
    scope.Charted (onFirst (fun survey => { survey with literals := count survey }) surveys) := by
  obtain ⟨table, outer⟩ := scope
  cases surveys with
  | nil => exact charted
  | cons survey surveys =>
      cases outer with
      | nil => cases charted
      | cons next rest =>
          obtain ⟨hhere, haround⟩ := charted
          exact ⟨⟨hhere.own, hhere.found, hhere.captures, hhere.index, hhere.source, hhere.once⟩,
            haround⟩

theorem Charted.leave {survey : Survey} {surveys : List Survey} {scope outer : Scope}
    (charted : scope.Charted (survey :: surveys)) (hleave : scope.leave? = some outer) :
    scope.table.Charted survey (anyBinds surveys) outer.table ∧
      outer.Charted (onFirst (survey.free.foldl use) surveys) := by
  obtain ⟨table, tables⟩ := scope
  cases tables with
  | nil => cases hleave
  | cons next rest =>
      cases hleave
      exact charted

end Scope

namespace Scope

/-- Two chains give names the same meanings, except that one may have captured more. -/
structure Alike (scope later : Scope) : Prop where
  own : ∀ name, later.table.own? name = scope.table.own? name
  definitions : later.table.definitions = scope.table.definitions
  root : ∀ name, (root later.table later.outer).own? name = (root scope.table scope.outer).own? name
  top : later.isTopLevel = scope.isTopLevel

theorem Alike.refl (scope : Scope) : scope.Alike scope :=
  ⟨fun _ => rfl, rfl, fun _ => rfl, rfl⟩

theorem Alike.trans {first second third : Scope} (hleft : first.Alike second)
    (hright : second.Alike third) : first.Alike third :=
  ⟨fun name => (hright.own name).trans (hleft.own name),
    hright.definitions.trans hleft.definitions,
    fun name => (hright.root name).trans (hleft.root name), hright.top.trans hleft.top⟩

theorem alike_of_extends {scope later : Scope} (extends_ : scope.table.Extends later.table)
    (hall : ExtendsAll scope.outer later.outer) : scope.Alike later :=
  ⟨extends_.own, extends_.definitions, root_own? extends_ hall,
    (Grows.isTopLevel ⟨extends_.grows, hall⟩)⟩

theorem Alike.define {scope later : Scope} (alike : scope.Alike later) (name : String) :
    (scope.define name).2.Alike (later.define name).2 := by
  obtain ⟨table, outer⟩ := scope
  obtain ⟨table', outer'⟩ := later
  obtain ⟨hown, hdefinitions, hroot, htop⟩ := alike
  have hdefine : ∀ place : Place, place ≠ .captured → ∀ other,
      (table'.define place name).2.own? other = (table.define place name).2.own? other := by
    intro place hplace other
    rw [Table.own?_define _ hplace, Table.own?_define _ hplace, hown, hdefinitions]
  have hmore : (table'.define .global name).2.definitions =
      (table.define .global name).2.definitions := congrArg (· + 1) hdefinitions
  cases outer with
  | nil =>
      cases outer' with
      | nil =>
          exact ⟨hdefine .global (by simp), hmore, hdefine .global (by simp), rfl⟩
      | cons next rest => cases htop
  | cons next rest =>
      cases outer' with
      | nil => cases htop
      | cons next' rest' => exact ⟨hdefine .localSlot (by simp), hmore, hroot, rfl⟩

def defineAll (scope : Scope) (names : List String) : Scope :=
  names.foldr (fun name scope => (scope.define name).2) scope

theorem Alike.defineAll {scope later : Scope} (alike : scope.Alike later) (names : List String) :
    (scope.defineAll names).Alike (later.defineAll names) := by
  induction names with
  | nil => exact alike
  | cons name rest ih => exact ih.define name

end Scope

/-- A survey that binds the same names, whatever there was before, and counts as many literals. -/
structure Survey.Adds (survey : Survey → Survey) (names : List String) (literals : Nat) : Prop where
  bound : ∀ before, (survey before).bound = names ++ before.bound
  literals : ∀ before, (survey before).literals = before.literals + literals

namespace Compile

/-- The survey of a part tells what its compilation does: which names it binds, how many constants it
adds, and what it captures. -/
structure Surveyed (survey : Survey → Survey) (stage finish : Stage) : Prop where
  adds : ∃ names literals, Survey.Adds survey names literals ∧
    (stage.scope.defineAll names).Alike finish.scope ∧
    finish.constants.size = stage.constants.size + literals
  charted : ∀ {surveys}, stage.scope.Charted surveys →
    finish.scope.Charted (onFirst survey surveys)

theorem Surveyed.refl (stage : Stage) : Surveyed id stage stage :=
  ⟨⟨[], 0, ⟨fun _ => rfl, fun _ => rfl⟩, .refl _, rfl⟩,
    fun charted => (onFirst_id _).symm ▸ charted⟩

theorem Surveyed.comp {first second : Survey → Survey} {stage middle finish : Stage}
    (hfirst : Surveyed first stage middle) (hsecond : Surveyed second middle finish) :
    Surveyed (second ∘ first) stage finish := by
  obtain ⟨names, literals, hadds, halike, hsize⟩ := hfirst.adds
  obtain ⟨names', literals', hadds', halike', hsize'⟩ := hsecond.adds
  refine ⟨⟨names' ++ names, literals + literals', ⟨fun before => ?_, fun before => ?_⟩, ?_, ?_⟩, ?_⟩
  · rw [Function.comp, hadds'.bound, hadds.bound, List.append_assoc]
  · rw [Function.comp, hadds'.literals, hadds.literals, Nat.add_assoc]
  · rw [Scope.defineAll, List.foldr_append]
    exact (halike.defineAll names').trans halike'
  · rw [hsize', hsize, Nat.add_assoc]
  · intro surveys charted
    have := hsecond.charted (hfirst.charted charted)
    rwa [onFirst_onFirst] at this

theorem surveyed_literal {stage : Stage} (constant : Constant) :
    Surveyed Survey.literal stage ⟨stage.scope, stage.constants.push constant⟩ := by
  refine ⟨⟨[], 1, ⟨fun _ => rfl, fun _ => rfl⟩, .refl _, by simp⟩, ?_⟩
  exact fun charted => charted.recount fun survey => survey.literals + 1

theorem surveyed_use {stage : Stage} {name : String} {symbol : Symbol} {scope : Scope}
    (valid : stage.scope.Valid) (hresolve : stage.scope.resolve name = some (symbol, scope)) :
    Surveyed (·.use name) stage ⟨scope, stage.constants⟩ := by
  obtain ⟨hextends, hall⟩ := (Scope.resolve_valid valid hresolve).1.extends
  exact ⟨⟨[], 0, ⟨fun before => bound_use before name, fun before => literals_use before name⟩,
    Scope.alike_of_extends hextends hall, rfl⟩, fun charted => (charted.resolve valid hresolve).1⟩

theorem surveyed_bind (stage : Stage) (name : String) :
    Surveyed (·.bind name) stage ⟨(stage.scope.define name).2, stage.constants⟩ :=
  ⟨⟨[name], 0, ⟨fun _ => rfl, fun _ => rfl⟩, .refl _, rfl⟩, fun charted => charted.define name⟩

@[simp] theorem literals_enter (name : Option String) (parameters : List String) :
    (Survey.enter name parameters).literals = 0 := by
  have hall : ∀ (names : List String) (survey : Survey),
      (names.foldl Survey.bind survey).literals = survey.literals := by
    intro names
    induction names with
    | nil => exact fun _ => rfl
    | cons name rest ih => exact fun survey => ih _
  exact hall parameters _

theorem surveyed_function {survey : Survey → Survey} {name : Option String}
    {parameters : List String} {stage inner : Stage} {outer : Scope} {function : Constant}
    (hentry : (stage.scope.entry name parameters).Grows inner.scope)
    (houter : (stage.scope.entry name parameters).outer = stage.scope.table :: stage.scope.outer)
    (hbody : Surveyed survey ⟨stage.scope.entry name parameters, stage.constants⟩ inner)
    (hleave : inner.scope.leave? = some outer) :
    Surveyed (·.function (survey (.enter name parameters))) stage
      ⟨outer, inner.constants.push function⟩ := by
  obtain ⟨names, literals, hadds, -, hsize⟩ := hbody.adds
  obtain ⟨hextends, hall⟩ := extends_leave houter hentry hleave
  have hliterals : (survey (.enter name parameters)).literals = literals := by
    rw [hadds.literals, literals_enter, Nat.zero_add]
  refine ⟨⟨[], literals + 1, ⟨fun before => bound_uses before _, fun before => ?_⟩,
    Scope.alike_of_extends hextends hall, ?_⟩, fun charted => ?_⟩
  · simp only [Survey.function, literals_uses, hliterals]
    omega
  · simp only [Array.size_push, hsize, Nat.add_assoc]
  · have hleft := ((hbody.charted (charted.entry name parameters)).leave hleave).2
    have hcounted := hleft.recount fun around =>
      around.literals + (survey (.enter name parameters)).literals + 1
    rwa [onFirst_onFirst] at hcounted

def Part.survey : Part → Survey → Survey
  | .expr value => value.survey
  | .exprs items => Expr.surveyAll items
  | .pairs entries => fun survey =>
      entries.foldl (fun survey entry => entry.2.survey (entry.1.survey survey)) survey
  | .stmt statement => statement.survey
  | .block stmts | .branch stmts | .body stmts => Stmt.surveyAll stmts
  | .otherwise none => id
  | .otherwise (some stmts) => Stmt.surveyAll stmts

theorem surveyPairs_eq (pairs : List (Expr × Expr)) :
    Expr.surveyPairs pairs =
      pairs.map fun pair => (pair.1.display, fun survey => pair.2.survey (pair.1.survey survey)) := by
  induction pairs with
  | nil => rw [Expr.surveyPairs, List.map_nil]
  | cons pair rest ih => rw [Expr.surveyPairs, ih, List.map_cons]

theorem survey_hash (pairs : List (Expr × Expr)) :
    (Expr.hash pairs).survey = (Part.pairs (Expr.keyOrder pairs)).survey := by
  have hall : ∀ (entries : List (Expr × Expr)) (survey : Survey),
      Survey.inOrder (entries.map fun pair =>
        (pair.1.display, fun survey => pair.2.survey (pair.1.survey survey))) survey =
      (Part.pairs entries).survey survey := by
    intro entries
    induction entries with
    | nil => exact fun _ => rfl
    | cons entry rest ih => exact fun survey => ih _
  funext survey
  rw [Expr.survey, surveyPairs_eq, Expr.inKeyOrder_map, hall]

theorem survey_binary {op : BinaryOp} {opcode : Opcode} (hopcode : binaryOpcode? op = some opcode)
    (left right : Expr) : (Expr.binary op left right).survey = right.survey ∘ left.survey := by
  cases op <;> simp only [binaryOpcode?, reduceCtorEq] at hopcode <;> rfl

theorem survey_cond (condition : Expr) (consequence : List Stmt) (alternative : Option (List Stmt)) :
    (Expr.cond condition consequence alternative).survey =
      (Part.otherwise alternative).survey ∘ Stmt.surveyAll consequence ∘ condition.survey := by
  cases alternative <;> rfl

theorem Emits.surveyed {part : Part} {stage finish : Stage} {offset : Nat}
    {code : List Instruction} (emits : Emits part stage offset code finish)
    (valid : stage.scope.Valid) : Surveyed part.survey stage finish := by
  induction emits with
  | @literal expr constant _ _ hconstant _ =>
      have hsurvey : (Part.expr expr).survey = Survey.literal := by
        cases expr <;> simp only [Expr.constant?, reduceCtorEq] at hconstant <;> rfl
      rw [hsurvey]
      exact surveyed_literal constant
  | boolean => exact .refl _
  | ident hresolve _ => exact surveyed_use valid hresolve
  | noAlternative | noExprs | noPairs | noStmts | emptyBranch | emptyBody => exact .refl _
  | unary _ ih | alternative _ ih | exprStmt _ ih | array _ _ ih | ret _ _ ih => exact ih valid
  | branchValue _ ih | bodyValue _ ih | bodyReturn _ ih => exact ih valid
  | hash _ _ ih =>
      rw [Part.survey, survey_hash]
      exact ih valid
  | binary hopcode hfirst _ ihfirst ihsecond =>
      rw [Part.survey, survey_binary hopcode]
      exact (ihfirst valid).comp (ihsecond (hfirst.valid valid).1)
  | less hfirst _ ihfirst ihsecond | index hfirst _ ihfirst ihsecond
  | call hfirst _ _ ihfirst ihsecond | exprs hfirst _ ihfirst ihsecond
  | stmts hfirst _ ihfirst ihsecond
  | branchStmt _ hfirst _ ihfirst ihsecond | bodyStmt _ hfirst _ ihfirst ihsecond =>
      exact (ihfirst valid).comp (ihsecond (hfirst.valid valid).1)
  | pairs hkey hvalue _ ihkey ihvalue ihrest =>
      have hfirst := (hkey.valid valid).1
      exact ((ihkey valid).comp (ihvalue hfirst)).comp (ihrest (hvalue.valid hfirst).1)
  | cond hcondition hconsequence _ _ _ _ _ ihcondition ihconsequence ihalternative =>
      have hfirst := (hcondition.valid valid).1
      rw [Part.survey, survey_cond]
      exact ((ihcondition valid).comp (ihconsequence hfirst)).comp
        (ihalternative (hconsequence.valid hfirst).1)
  | function _ hbody hleave _ _ _ ih =>
      obtain ⟨hentry, houter, -, -⟩ := entry_valid valid _ _
      exact surveyed_function (hbody.valid hentry).2 houter (ih hentry) hleave
  | bind _ _ ih => exact (ih valid).comp (surveyed_bind _ _)

theorem Emits.valid_charted {part : Part} {stage finish : Stage} {offset : Nat}
    {code : List Instruction} (emits : Emits part stage offset code finish)
    (valid : stage.scope.Valid) (hcharted : ∃ surveys, stage.scope.Charted surveys) :
    finish.scope.Valid ∧ ∃ surveys, finish.scope.Charted surveys := by
  obtain ⟨surveys, hsurveys⟩ := hcharted
  exact ⟨(emits.valid valid).1, _, (emits.surveyed valid).charted hsurveys⟩

end Compile

end Stacklang
