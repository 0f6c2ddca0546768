import Stacklang.Proofs.Compile.Survey
import Stacklang.Proofs.Machine.Live

namespace Stacklang

open Survey

/-- A chain and the numbers of the globals in sight agree on what the names of the top level mean. -/
def Scope.Numbered (scope : Scope) (names : List (String × Nat)) : Prop :=
  ∀ ⦃name symbol⦄, (Scope.root scope.table scope.outer).own? name = some symbol →
    symbol.place = .global ∧ names.lookup name = some symbol.index ∨
      symbol.place = .builtin ∧ names.lookup name = none ∧
        ∃ builtin, Builtin.all[symbol.index]? = some builtin ∧
          Builtin.all.find? (·.name == name) = some builtin

namespace Compile

/-- Where and how the body of a literal was compiled to a template, for closures over so many
values. -/
structure Origin (pool : Array Constant) (literal : Literal) (template : Template) (count : Nat)
    (scope : Scope) (constants : Array Constant) (surveys : List Survey) (inner : Stage)
    (instructions : List Instruction) : Prop where
  valid : scope.Valid
  charted : scope.Charted surveys
  numbered : scope.Numbered literal.globals
  place : constants.size = literal.place
  emits : Emits (.body literal.body)
    ⟨scope.entry literal.name literal.parameters, constants⟩ 0 instructions inner
  code : template.code.toList = Instruction.encodeAll instructions
  locals : template.locals = inner.scope.table.definitions
  captures : inner.scope.table.captures.map Symbol.name = literal.captures
  count : literal.captures.length = count
  grows : Constant.Grows inner.constants pool

/-- A template is what became of a literal in a program with the given constants. It is found among
them behind the literals of its body. -/
structure Translates (pool : Array Constant) (literal : Literal) (template : Template) (count : Nat) :
    Prop where
  stored : pool[literal.place +
    (Stmt.surveyAll literal.body (.enter literal.name literal.parameters)).literals]? =
      some (.function template)
  parameters : template.parameters = literal.parameters.length
  origin : ∃ scope constants surveys inner instructions,
    Origin pool literal template count scope constants surveys inner instructions

def link (pool : Array Constant) : Link Literal Template where
  function _ _ := False
  closure := Translates pool
  function_parameters := False.elim
  closure_parameters translates := translates.parameters.symm

/-- What there is for the code of a function, or of the main program, in a machine: the names of what
it captures, how many slots it has, and how many globals there are while it runs. -/
structure Home where
  captures : List String
  slots : Nat
  globals : Nat

structure Houses (pool : Array Constant) (home : Home) (stage : Stage) : Prop where
  constants : Constant.Grows stage.constants pool
  slots : stage.scope.isTopLevel = false → stage.scope.table.definitions ≤ home.slots
  captures : stage.scope.table.captures.map Symbol.name <+: home.captures

theorem Houses.earlier {pool : Array Constant} {home : Home} {stage later : Stage}
    (houses : Houses pool home later) (hscope : stage.scope.Grows later.scope)
    (hconstants : Constant.Grows stage.constants later.constants) : Houses pool home stage := by
  refine ⟨hconstants.trans houses.constants, ?_, ?_⟩
  · intro hinside
    exact Nat.le_trans hscope.table.definitions
      (houses.slots (by rw [hscope.isTopLevel, hinside]))
  · exact (hscope.table.captures.map Symbol.name).trans houses.captures

end Compile

def Frame.cell? (frame : Frame) (slots : List Value) (symbol : Symbol) : Option Value :=
  match symbol.place with
  | .localSlot => slots[symbol.index]?
  | .captured => frame.captured[symbol.index]?
  | .self => some (.closure frame.ref frame.template frame.captured)
  | .global | .builtin => none

namespace Compile

variable {pool : Array Constant}

/-- What the names of a function stand for is found in a call of it. -/
structure LocalsAgree (pool : Array Constant) (captures : List String) (table : Table)
    (locals : List (String × Option Datum)) (frame : Frame) (slots : List Value) : Prop where
  own : ∀ {name : String} {symbol : Symbol}, table.own? name = some symbol →
    ∃ cell, locals.lookup name = some cell ∧ ∀ value, cell = some value →
      ∃ found, frame.cell? slots symbol = some found ∧ value.Related (link pool) found
  captured : ∀ {index : Nat} {name : String}, captures[index]? = some name → table.own? name = none →
    ∃ value found, locals.lookup name = some (some value) ∧
      frame.captured[index]? = some found ∧ value.Related (link pool) found
  free : ∀ {name : String}, table.own? name = none → name ∉ captures → locals.lookup name = none

/-- The globals of an evaluation are those of a machine; the others that a machine has are null. -/
def GlobalsAgree (pool : Array Constant) (globals : List Datum) (others : Array Value) : Prop :=
  ∀ index : Nat, Value.Related (link pool) (globals[index]?.getD .null) (others[index]?.getD .null)

/-- The situation of an evaluation at a stage is found in a machine with the given frame, slots for
locals and globals. -/
structure Situated (pool : Array Constant) (home : Home) (stage : Stage) (situation : Situation)
    (frame : Frame) (slots : List Value) (globals : Array Value) : Prop where
  place : situation.place = stage.constants.size
  numbered : stage.scope.Numbered situation.names
  globals : GlobalsAgree pool situation.globals globals
  locals :
    match situation.locals? with
    | none => stage.scope.isTopLevel = true ∧
        situation.globals.length = stage.scope.table.definitions
    | some locals => stage.scope.isTopLevel = false ∧ situation.globals.length = home.globals ∧
        LocalsAgree pool home.captures stage.scope.table locals frame slots

theorem LocalsAgree.alike {captures : List String} {table later : Table}
    {locals : List (String × Option Datum)} {frame : Frame} {slots : List Value}
    (agree : LocalsAgree pool captures table locals frame slots)
    (hown : ∀ name, later.own? name = table.own? name) :
    LocalsAgree pool captures later locals frame slots := by
  refine ⟨?_, ?_, ?_⟩
  · intro name symbol hsymbol
    rw [hown] at hsymbol
    exact agree.own hsymbol
  · intro index name hname hnone
    rw [hown] at hnone
    exact agree.captured hname hnone
  · intro name hnone
    rw [hown] at hnone
    exact agree.free hnone

theorem Situated.alike {home : Home} {stage : Stage} {situation : Situation} {frame : Frame}
    {slots : List Value} {globals : Array Value} {scope : Scope}
    (situated : Situated pool home stage situation frame slots globals)
    (alike : stage.scope.Alike scope) :
    Situated pool home ⟨scope, stage.constants⟩ situation frame slots globals := by
  refine ⟨situated.place, ?_, situated.globals, ?_⟩
  · intro name symbol hsymbol
    rw [alike.root] at hsymbol
    exact situated.numbered hsymbol
  · have hlocals := situated.locals
    cases hcase : situation.locals? with
    | none =>
        rw [hcase] at hlocals
        exact ⟨alike.top.trans hlocals.1, hlocals.2.trans alike.definitions.symm⟩
    | some locals =>
        rw [hcase] at hlocals
        exact ⟨alike.top.trans hlocals.1, hlocals.2.1, hlocals.2.2.alike alike.own⟩

theorem LocalsAgree.held {home : Home} {stage : Stage} {surveys : List Survey} {survey : Survey}
    {locals : List (String × Option Datum)} {frame : Frame} {slots : List Value}
    {name : String} {symbol : Symbol}
    (agree : LocalsAgree pool home.captures stage.scope.table locals frame slots)
    (charted : stage.scope.Charted (survey :: surveys)) (houses : Houses pool home stage)
    (hlookup : stage.scope.table.lookup? name = some symbol) :
    ∃ cell, locals.lookup name = some cell ∧ ∀ value, cell = some value →
      ∃ found, frame.cell? slots symbol = some found ∧ value.Related (link pool) found := by
  by_cases hplace : symbol.place = .captured
  · have hnone : stage.scope.table.own? name = none := by
      simp [Table.own?, hlookup, hplace]
    have hindex : home.captures[symbol.index]? = some name := by
      obtain ⟨next, htable⟩ := charted.table
      obtain ⟨rest, hrest⟩ := houses.captures
      have hcaptured := htable.index hlookup hplace
      rw [← List.getElem?_map] at hcaptured
      rw [← hrest, List.getElem?_append_left ((List.getElem?_eq_some_iff.mp hcaptured).1), hcaptured]
    obtain ⟨value, found, hvalue, hfound, hrelated⟩ := agree.captured hindex hnone
    refine ⟨some value, hvalue, ?_⟩
    rintro _ ⟨⟩
    refine ⟨found, ?_, hrelated⟩
    rw [Frame.cell?, hplace]
    exact hfound
  · exact agree.own (Table.own?_eq_some.mpr ⟨hlookup, hplace⟩)

def cell? (frame : Frame) (slots : List Value) (globals : Array Value) (symbol : Symbol) :
    Option Value :=
  match symbol.place with
  | .global => globals[symbol.index]?
  | .builtin => Builtin.all[symbol.index]?.map .builtin
  | _ => frame.cell? slots symbol

theorem cell?_ofFunction {symbol : Symbol} (hplace : symbol.place.ofFunction = true) (frame : Frame)
    (slots : List Value) (globals : Array Value) :
    cell? frame slots globals symbol = frame.cell? slots symbol := by
  unfold cell?
  cases hcase : symbol.place <;> simp_all [Place.ofFunction]

theorem Situated.global {home : Home} {stage : Stage} {situation : Situation} {frame : Frame}
    {slots : List Value} {globals : Array Value} {name : String} {symbol : Symbol}
    (situated : Situated pool home stage situation frame slots globals)
    (hroot : (Scope.root stage.scope.table stage.scope.outer).own? name = some symbol)
    (hfits : symbol.load.Fits) (hroom : Machine.maxGlobals ≤ globals.size)
    (hlocals : (situation.locals?.getD []).lookup name = none) :
    ∃ value found, situation.cell? name = some (some value) ∧
      cell? frame slots globals symbol = some found ∧ value.Related (link pool) found := by
  simp only [Situation.cell?, hlocals]
  rcases situated.numbered hroot with ⟨hplace, hname⟩ | ⟨hplace, hname, builtin, hindex, hfind⟩
  · have hless : symbol.index < globals.size := by
      have hbound := hfits.2 (symbol.index, .word) (by simp [Symbol.load, hplace, Opcode.widths])
      simp only [Width.maximum] at hbound
      simp only [Machine.maxGlobals] at hroom
      omega
    have hrelated := situated.globals symbol.index
    rw [Array.getElem?_eq_getElem hless, ← List.getD_eq_getElem?_getD] at hrelated
    refine ⟨_, globals[symbol.index], by rw [hname], ?_, hrelated⟩
    rw [cell?, hplace]
    exact Array.getElem?_eq_getElem hless
  · refine ⟨.builtin builtin, .builtin builtin, by simp [hname, hfind], ?_, .builtin builtin⟩
    rw [cell?, hplace]
    simp only [hindex, Option.map_some]

theorem Situated.read {home : Home} {stage : Stage} {situation : Situation} {frame : Frame}
    {slots : List Value} {globals : Array Value} {surveys : List Survey} {name : String}
    {symbol : Symbol} {scope : Scope}
    (situated : Situated pool home stage situation frame slots globals)
    (valid : stage.scope.Valid) (charted : stage.scope.Charted surveys)
    (haround : ∀ name ∈ home.captures, anyBinds surveys.tail name = true)
    (hresolve : stage.scope.resolve name = some (symbol, scope))
    (houses : Houses pool home ⟨scope, stage.constants⟩)
    (hfits : symbol.load.Fits) (hroom : Machine.maxGlobals ≤ globals.size) :
    ∃ cell, situation.cell? name = some cell ∧ ∀ value, cell = some value →
      ∃ found, cell? frame slots globals symbol = some found ∧ value.Related (link pool) found := by
  obtain ⟨hresolved, hvalid, -⟩ := Scope.resolve_valid valid hresolve
  obtain ⟨hcharted, hbinds⟩ := charted.resolve valid hresolve
  have hsituated := situated.alike (Scope.alike_of_extends hresolved.extends.1 hresolved.extends.2)
  have hlocals := hsituated.locals
  cases hplace : symbol.place.ofFunction with
  | true =>
      obtain ⟨-, hlookup⟩ := hresolved.lookup valid hplace
      cases surveys with
      | nil =>
          rw [hplace] at hbinds
          cases hbinds
      | cons survey surveys =>
          cases hcase : situation.locals? with
          | none =>
              rw [hcase] at hlocals
              have htop := hcharted.isTopLevel
              rw [hlocals.1] at htop
              cases htop
          | some locals =>
              rw [hcase] at hlocals
              obtain ⟨cell, hcell, hheld⟩ := hlocals.2.2.held
                hcharted houses hlookup
              rw [cell?_ofFunction hplace]
              exact ⟨cell, by simp only [Situation.cell?, hcase, Option.getD_some, hcell], hheld⟩
  | false =>
      rw [hplace] at hbinds
      obtain ⟨hroot, habsent⟩ := hresolved.global valid hplace
      have hnone : (situation.locals?.getD []).lookup name = none := by
        cases hcase : situation.locals? with
        | none => rfl
        | some locals =>
            rw [hcase] at hlocals
            refine hlocals.2.2.free (habsent ?_) ?_
            · intro houter
              have htop := hresolved.grows.isTopLevel
              rw [hlocals.1, Scope.isTopLevel, houter] at htop
              cases htop
            · intro member
              have := haround name member
              cases surveys with
              | nil => cases this
              | cons survey surveys =>
                  simp only [anyBinds, List.any_cons, List.tail_cons] at hbinds this
                  rw [this, Bool.or_true] at hbinds
                  cases hbinds
      obtain ⟨value, found, hcell, hfound, hrelated⟩ := hsituated.global hroot hfits hroom hnone
      refine ⟨some value, hcell, ?_⟩
      rintro _ ⟨⟩
      exact ⟨found, hfound, hrelated⟩

/-- Of what a function literal uses, an evaluation finds with the function at hand what some function
around binds. -/
theorem Situated.ofFunction {home : Home} {stage : Stage} {situation : Situation} {frame : Frame}
    {slots : List Value} {globals : Array Value} {surveys : List Survey} {outer : Scope}
    {inner : Survey} (situated : Situated pool home stage situation frame slots globals)
    (charted : stage.scope.Charted surveys)
    (haround : ∀ name ∈ home.captures, anyBinds surveys.tail name = true)
    (alike : stage.scope.Alike outer)
    (hcharted : outer.Charted (onFirst (inner.free.foldl use) surveys))
    (houses : Houses pool home ⟨outer, stage.constants⟩) :
    situation.ofFunction inner.free = inner.free.filter (anyBinds surveys) := by
  refine List.filter_congr fun name member => ?_
  have hlocals := situated.locals
  have hlater := (situated.alike alike).locals
  cases hcase : situation.locals? with
  | none =>
      rw [hcase] at hlocals
      have htop := charted.isTopLevel
      rw [hlocals.1] at htop
      rw [List.isEmpty_iff.mp htop.symm]
      rfl
  | some locals =>
      rw [hcase] at hlocals hlater
      cases surveys with
      | nil =>
          have htop := charted.isTopLevel
          rw [hlocals.1] at htop
          cases htop
      | cons survey surveys =>
          obtain ⟨next, htable⟩ := charted.table
          obtain ⟨next', htable'⟩ := hcharted.table
          rw [Option.getD_some]
          cases hbinds : anyBinds (survey :: surveys) name with
          | true =>
              have hknown := known_uses survey member
              have hfound : (outer.table.lookup? name).isSome = true := by
                refine (htable'.found name).mpr ?_
                by_cases hbound : name ∈ survey.bound
                · exact .inl (by rwa [bound_uses])
                · simp only [anyBinds, List.any_cons, hbound, decide_false, Bool.false_or] at hbinds
                  rw [bound_uses] at hknown
                  exact .inr ⟨hknown.resolve_left hbound, hbinds⟩
              obtain ⟨symbol, hsymbol⟩ := Option.isSome_iff_exists.mp hfound
              obtain ⟨cell, hcell, -⟩ := hlater.2.2.held hcharted houses hsymbol
              rw [hcell]
              rfl
          | false =>
              simp only [anyBinds, List.any_cons, Bool.or_eq_false_iff, decide_eq_false_iff_not]
                at hbinds
              have hown : stage.scope.table.own? name = none := by
                cases hown : stage.scope.table.own? name with
                | none => rfl
                | some symbol => exact absurd ((htable.own name).mpr (by simp [hown])) hbinds.1
              rw [hlocals.2.2.free hown ?_]
              · rfl
              · intro captured
                have := haround name captured
                simp only [anyBinds, List.tail_cons] at this
                rw [hbinds.2] at this
                cases this

/-! Binding a name. -/

theorem lookup_of_ne {α : Type} {name other : String} (hne : other ≠ name) (entry : α)
    (rest : List (String × α)) : ((name, entry) :: rest).lookup other = rest.lookup other := by
  have hother : (other == name) = false := by simpa using hne
  rw [List.lookup_cons, hother]

theorem LocalsAgree.insert {captures : List String} {table : Table}
    {locals : List (String × Option Datum)} {frame : Frame} {slots later : List Value}
    (agree : LocalsAgree pool captures table locals frame slots) (name : String) (symbol : Symbol)
    (hplace : symbol.place ≠ .captured) (cell : Option Datum)
    (hcell : ∀ value, cell = some value →
      ∃ found, frame.cell? later symbol = some found ∧ value.Related (link pool) found)
    (hothers : ∀ {other symbol}, table.own? other = some symbol →
      frame.cell? later symbol = frame.cell? slots symbol) :
    LocalsAgree pool captures (table.insert name symbol) ((name, cell) :: locals) frame later := by
  have hown : ∀ other, (table.insert name symbol).own? other =
      if other = name then some symbol else table.own? other := by
    intro other
    rw [Table.own?_insert, if_neg hplace]
  refine ⟨?_, ?_, ?_⟩
  · intro other found hother
    rw [hown] at hother
    split at hother
    next heq =>
      cases hother
      subst heq
      exact ⟨cell, by simp, hcell⟩
    next hne =>
      rw [lookup_of_ne hne, hothers hother]
      exact agree.own hother
  · intro index other hother hnone
    rw [hown] at hnone
    split at hnone
    next => cases hnone
    next hne =>
      rw [lookup_of_ne hne]
      exact agree.captured hother hnone
  · intro other hnone habsent
    rw [hown] at hnone
    split at hnone
    next => cases hnone
    next hne =>
      rw [lookup_of_ne hne]
      exact agree.free hnone habsent

theorem LocalsAgree.define {captures : List String} {table : Table}
    {locals : List (String × Option Datum)} {frame : Frame} {slots later : List Value}
    (agree : LocalsAgree pool captures table locals frame slots) (valid : table.Valid true)
    (name : String) (cell : Option Datum)
    (hcell : ∀ value, cell = some value →
      ∃ found, later[table.definitions]? = some found ∧ value.Related (link pool) found)
    (hslots : ∀ index < table.definitions, later[index]? = slots[index]?) :
    LocalsAgree pool captures (table.define .localSlot name).2 ((name, cell) :: locals) frame
      later := by
  have hinserted := agree.insert name ⟨name, .localSlot, table.definitions⟩ (by simp) cell hcell
    ?_
  · exact hinserted.alike fun _ => rfl
  · intro other symbol hother
    have hvalid := (valid other symbol (Table.own?_eq_some.mp hother).1).2.2
    unfold Frame.cell?
    cases hplace : symbol.place <;> simp only [hplace] at hvalid ⊢
    exact hslots _ hvalid

theorem numbered_define {table : Table} {names : List (String × Nat)}
    (numbered : Scope.Numbered ⟨table, []⟩ names) (name : String) :
    Scope.Numbered ⟨(table.define .global name).2, []⟩ ((name, table.definitions) :: names) := by
  intro other symbol hother
  change (table.define .global name).2.own? other = _ at hother
  rw [Table.own?_define table (by simp)] at hother
  split at hother
  next heq =>
    cases hother
    exact .inl ⟨rfl, by simp [heq]⟩
  next hne =>
    rw [lookup_of_ne hne]
    exact numbered hother

theorem GlobalsAgree.append {globals : List Datum} {others later : Array Value}
    (agree : GlobalsAgree pool globals others) {value : Datum}
    (hvalue : value.Related (link pool) (later[globals.length]?.getD .null))
    (hothers : ∀ index, index ≠ globals.length → later[index]? = others[index]?) :
    GlobalsAgree pool (globals ++ [value]) later := by
  intro index
  by_cases hindex : index = globals.length
  · subst hindex
    simpa using hvalue
  · rw [hothers index hindex]
    have hrelated := agree index
    rcases Nat.lt_or_gt_of_ne hindex with hless | hmore
    · rwa [List.getElem?_append_left hless]
    · rw [List.getElem?_eq_none (by omega)] at hrelated
      rwa [List.getElem?_eq_none (by simp; omega)]

theorem Situated.define {home : Home} {stage : Stage} {situation : Situation} {frame : Frame}
    {slots laterSlots : List Value} {globals laterGlobals : Array Value}
    (situated : Situated pool home stage situation frame slots globals)
    (valid : stage.scope.Valid) (name : String) (cell : Option Datum)
    (hlocal : stage.scope.isTopLevel = false → laterGlobals = globals ∧
      (∀ value, cell = some value → ∃ found,
        laterSlots[stage.scope.table.definitions]? = some found ∧
          value.Related (link pool) found) ∧
      ∀ index < stage.scope.table.definitions, laterSlots[index]? = slots[index]?)
    (hglobal : stage.scope.isTopLevel = true →
      (cell.getD .null).Related (link pool)
        (laterGlobals[stage.scope.table.definitions]?.getD .null) ∧
      ∀ index, index ≠ stage.scope.table.definitions → laterGlobals[index]? = globals[index]?) :
    Situated pool home ⟨(stage.scope.define name).2, stage.constants⟩ (situation.bind name cell)
      frame laterSlots laterGlobals := by
  obtain ⟨⟨table, outer⟩, constants⟩ := stage
  have hlocals := situated.locals
  unfold Situation.bind
  cases hcase : situation.locals? with
  | none =>
      rw [hcase] at hlocals
      obtain ⟨htop, hcount⟩ := hlocals
      cases outer with
      | cons next rest => cases htop
      | nil =>
          obtain ⟨hvalue, hothers⟩ := hglobal rfl
          refine ⟨situated.place, ?_, ?_, ?_⟩
          · rw [hcount]
            exact numbered_define situated.numbered name
          · rw [← hcount] at hvalue hothers
            exact situated.globals.append hvalue hothers
          · refine ⟨rfl, ?_⟩
            rw [List.length_append, hcount]
            rfl
  | some locals =>
      rw [hcase] at hlocals
      obtain ⟨hinside, hcount, hagree⟩ := hlocals
      cases outer with
      | nil => cases hinside
      | cons next rest =>
          obtain ⟨rfl, hcell, hslots⟩ := hlocal rfl
          exact ⟨situated.place, situated.numbered, situated.globals, rfl, hcount,
            hagree.define valid.1 name cell hcell hslots⟩

theorem Situated.bindNothing {home : Home} {stage : Stage} {situation : Situation} {frame : Frame}
    {slots : List Value} {globals : Array Value}
    (situated : Situated pool home stage situation frame slots globals)
    (valid : stage.scope.Valid) (name : String) :
    Situated pool home ⟨(stage.scope.define name).2, stage.constants⟩ (situation.bind name none)
      frame slots globals := by
  refine situated.define valid name none (fun _ => ⟨rfl, by simp, fun _ _ => rfl⟩) fun htop => ?_
  refine ⟨?_, fun _ _ => rfl⟩
  have hlocals := situated.locals
  cases hcase : situation.locals? with
  | none =>
      rw [hcase] at hlocals
      have hrelated := situated.globals stage.scope.table.definitions
      rwa [List.getElem?_eq_none (Nat.le_of_eq hlocals.2)] at hrelated
  | some locals =>
      rw [hcase, htop] at hlocals
      cases hlocals.1

/-- The situation after some names have been passed over, the last of which comes first, and some
literals. -/
def passOver (situation : Situation) (names : List String) (literals : Nat) : Situation :=
  names.foldr (fun name situation => situation.bind name none)
    { situation with place := situation.place + literals }

theorem defineAll_valid {scope : Scope} (valid : scope.Valid) (names : List String) :
    (scope.defineAll names).Valid := by
  induction names with
  | nil => exact valid
  | cons name rest ih => exact ih.define name

theorem Situated.pass {home : Home} {stage : Stage} {situation : Situation} {frame : Frame}
    {slots : List Value} {globals : Array Value} {constants : Array Constant} {literals : Nat}
    (situated : Situated pool home stage situation frame slots globals)
    (hsize : constants.size = stage.constants.size + literals) :
    Situated pool home ⟨stage.scope, constants⟩
      { situation with place := situation.place + literals } frame slots globals :=
  ⟨by rw [hsize, ← situated.place], situated.numbered, situated.globals, situated.locals⟩

theorem Situated.passOver {home : Home} {stage finish : Stage} {situation : Situation}
    {frame : Frame} {slots : List Value} {globals : Array Value} {survey : Survey → Survey}
    (situated : Situated pool home stage situation frame slots globals)
    (valid : stage.scope.Valid) (surveyed : Surveyed survey stage finish) :
    Situated pool home finish
      (passOver situation (survey .empty).bound (survey .empty).literals) frame slots globals := by
  obtain ⟨names, literals, hadds, halike, hsize⟩ := surveyed.adds
  have hpassed := situated.pass hsize
  have hall : Situated pool home ⟨stage.scope.defineAll names, finish.constants⟩
      (Compile.passOver situation names literals) frame slots globals := by
    clear hadds halike
    induction names with
    | nil => exact hpassed
    | cons name rest ih => exact ih.bindNothing (defineAll_valid valid rest) name
  have hbound : (survey .empty).bound = names := (hadds.bound .empty).trans (List.append_nil names)
  have hliterals : (survey .empty).literals = literals :=
    (hadds.literals .empty).trans (Nat.zero_add literals)
  rw [hbound, hliterals]
  exact hall.alike halike

theorem skip_run (statements : List Stmt) (situation : Situation) :
    (Evaluate.skip statements).run situation =
      (.ok (), passOver situation (Stmt.surveyAll statements .empty).bound
        (Stmt.surveyAll statements .empty).literals) := by
  have hall : ∀ (names : List String) (situation : Situation),
      (Evaluate.bindAll names).run situation =
        (.ok (), names.foldl (fun situation name => situation.bind name none) situation) := by
    intro names
    induction names with
    | nil => exact fun _ => rfl
    | cons name rest ih =>
        intro situation
        rw [Evaluate.bindAll, Fallible.run_bind]
        exact ih _
  rw [Evaluate.skip, Fallible.run_bind, Fallible.run_discard]
  refine (hall _ _).trans ?_
  rw [List.foldl_reverse]
  rfl

/-! The beginning of a call. -/

theorem LocalsAgree.parameters {captures names : List String} {arguments : List Datum}
    {start : Scope} {locals : List (String × Option Datum)} {frame : Frame} {slots : List Value}
    (agree : LocalsAgree pool captures start.table locals frame slots) (valid : start.Valid)
    (hinside : start.isTopLevel = false) (hlength : arguments.length = names.length)
    (harguments : ∀ (index : Nat) (value : Datum), arguments[index]? = some value →
      ∃ found, slots[start.table.definitions + index]? = some found ∧
        value.Related (link pool) found) :
    LocalsAgree pool captures
      (names.foldl (fun scope parameter => (scope.define parameter).2) start).table
      ((names.zip (arguments.map some)).reverse ++ locals) frame slots := by
  induction names generalizing arguments start locals with
  | nil => exact agree
  | cons name rest ih =>
      cases arguments with
      | nil => cases hlength
      | cons argument arguments =>
          obtain ⟨table, outer⟩ := start
          cases outer with
          | nil => cases hinside
          | cons next outer =>
              have hdefined := agree.define valid.1 name (some argument)
                (by
                  rintro _ ⟨⟩
                  exact harguments 0 argument rfl)
                (fun _ _ => rfl)
              have hrest := ih hdefined (valid.define name) rfl (Nat.succ.inj hlength) ?_
              · simpa using hrest
              · intro index value hvalue
                have hfound := harguments (index + 1) value hvalue
                rwa [← Nat.add_assoc, Nat.add_right_comm] at hfound

theorem lookup_zip {α : Type} {names : List String} {values : List α} (honce : names.Nodup)
    {index : Nat} {name : String} {value : α} (hname : names[index]? = some name)
    (hvalue : values[index]? = some value) : (names.zip values).lookup name = some value := by
  induction names generalizing index values with
  | nil => simp at hname
  | cons first rest ih =>
      obtain ⟨habsent, honce⟩ := List.nodup_cons.mp honce
      cases values with
      | nil => simp at hvalue
      | cons head tail =>
          cases index with
          | zero =>
              cases hname
              cases hvalue
              simp
          | succ index =>
              have hne : name ≠ first := by
                rintro rfl
                exact habsent (List.mem_of_getElem? hname)
              rw [List.zip_cons_cons, lookup_of_ne hne]
              exact ih honce hname hvalue

theorem lookup_zip_none {α : Type} {names : List String} (values : List α) {name : String}
    (habsent : name ∉ names) : (names.zip values).lookup name = none := by
  rw [List.lookup_eq_none_iff]
  rintro ⟨other, value⟩ member
  have hother := (List.of_mem_zip member).1
  rw [bne_iff_ne]
  rintro rfl
  exact habsent hother

theorem Origin.captured {literal : Literal} {template : Template} {count : Nat} {scope : Scope}
    {constants : Array Constant} {surveys : List Survey} {inner : Stage}
    {instructions : List Instruction}
    (origin : Origin pool literal template count scope constants surveys inner instructions) :
    literal.captures.Nodup ∧ ∀ name ∈ literal.captures, anyBinds surveys name = true := by
  obtain ⟨hentry, -, -, -⟩ := entry_valid origin.valid literal.name literal.parameters
  have hinner := (origin.emits.surveyed hentry).charted (origin.charted.entry _ _)
  obtain ⟨next, htable⟩ := hinner.table
  rw [← origin.captures, htable.captures]
  refine ⟨htable.once.filter _, fun name member => ?_⟩
  exact (List.mem_filter.mp member).2

theorem Origin.situated {literal : Literal} {template : Template} {scope : Scope}
    {constants : Array Constant} {surveys : List Survey} {inner : Stage}
    {instructions : List Instruction} {ref : Ref} {captured : List Datum} {others : List Value}
    (origin : Origin pool literal template others.length scope constants surveys inner instructions)
    (hcallee : Value.Related (link pool) (.closure ref literal captured)
      (.closure ref template others))
    {situation : Situation} {globals : Array Value}
    (hglobals : GlobalsAgree pool situation.globals globals) {arguments : List Datum}
    (hlength : arguments.length = literal.parameters.length) {slots : List Value}
    (harguments : ∀ (index : Nat) (value : Datum), arguments[index]? = some value →
      ∃ found, slots[index]? = some found ∧ value.Related (link pool) found) (ip base : Nat) :
    Situated pool ⟨literal.captures, template.locals, situation.globals.length⟩
      ⟨scope.entry literal.name literal.parameters, constants⟩
      { situation with
        locals? := some (Evaluate.entry (.closure ref literal captured) literal captured arguments)
        names := literal.globals
        place := literal.place }
      ⟨ref, template, others, ip, base⟩ slots globals := by
  have hcaptured : List.Forall₂ (Value.Related (link pool)) captured others := by
    cases hcallee with
    | closure _ _ hcaptured => exact hcaptured
  obtain ⟨hentry, houter, -, -⟩ := entry_valid origin.valid literal.name literal.parameters
  obtain ⟨honce, -⟩ := origin.captured
  have hlookup : ∀ {index : Nat} {name : String}, literal.captures[index]? = some name →
      ∃ value found, (literal.captures.zip (captured.map some)).lookup name = some (some value) ∧
        others[index]? = some found ∧ value.Related (link pool) found := by
    intro index name hname
    have hless : index < others.length := by
      rw [← origin.count]
      exact (List.getElem?_eq_some_iff.mp hname).1
    have hrelated := forall₂_getElem? hcaptured index
    rw [List.getElem?_eq_getElem hless] at hrelated
    cases hvalue : captured[index]? with
    | none =>
        rw [hvalue] at hrelated
        cases hrelated
    | some value =>
        rw [hvalue] at hrelated
        cases hrelated with
        | some hrelated =>
            exact ⟨value, _, lookup_zip honce hname (by simp [hvalue]),
              List.getElem?_eq_getElem hless, hrelated⟩
  have hstart : LocalsAgree pool literal.captures scope.enter.table
      (literal.captures.zip (captured.map some)) ⟨ref, template, others, ip, base⟩ slots := by
    refine ⟨?_, fun hname _ => hlookup hname, fun _ habsent => lookup_zip_none _ habsent⟩
    intro name symbol hsymbol
    simp [Scope.enter, Table.own?] at hsymbol
  refine ⟨origin.place.symm, ?_, hglobals, ?_, rfl, ?_⟩
  · intro name symbol hsymbol
    rw [houter] at hsymbol
    exact origin.numbered hsymbol
  · rw [Scope.isTopLevel, houter]
    rfl
  · have hfirst : ∀ (index : Nat) (value : Datum), arguments[index]? = some value →
        ∃ found, slots[0 + index]? = some found ∧ value.Related (link pool) found := by
      simpa only [Nat.zero_add] using harguments
    rw [Evaluate.entry, List.append_assoc]
    cases hname : literal.name with
    | none =>
        exact hstart.parameters origin.valid.enter rfl hlength hfirst
    | some name =>
        have hself := hstart.insert name ⟨name, .self, 0⟩ (by simp)
          (some (.closure ref literal captured))
          (by
            rintro _ ⟨⟩
            exact ⟨_, rfl, hcallee⟩)
          (fun _ => rfl)
        exact hself.parameters (origin.valid.enter.defineSelf rfl name) rfl hlength hfirst

end Compile

end Stacklang
