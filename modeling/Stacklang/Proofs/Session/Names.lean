import Stacklang.Proofs.Compile.Completion
import Stacklang.Proofs.Session.Globals
import Stacklang.Proofs.Session.Rejected

namespace Stacklang

def Program.name? (source : String) : Option String :=
  match Program.ofSource source with
  | .ok ⟨[.expr (.ident name)]⟩ => some name
  | _ => none

theorem Program.name?_eq_some {source name : String} :
    name? source = some name ↔ Program.ofSource source = .ok ⟨[.expr (.ident name)]⟩ := by
  unfold name?
  split
  next hparse => simp [hparse]
  next hother =>
    constructor
    · intro hname
      cases hname
    · intro hparse
      exact absurd hparse (hother name)

def Symbol.read? (globals : Array Value) (symbol : Symbol) : Option Value :=
  match symbol.place with
  | .global => globals[symbol.index]?
  | .builtin => Builtin.all[symbol.index]?.map .builtin
  | .localSlot | .captured | .self => none

structure Config.Affords (config : Config) (fuel : Nat) : Prop where
  fuel : 2 < fuel
  stack : 0 < config.stackSize
  steps : ∀ limit, config.maxSteps = some limit → 2 ≤ limit

namespace Machine

open Fallible Instruction

variable {machine next after : Machine}

theorem runFor_fetched {fuel : Nat} {instruction : Instruction}
    (hfetch : machine.frame.template.code.fetch? machine.frame.ip = some (.ok instruction)) :
    runFor fuel machine = (.finished, after) ↔
      ∃ rest next, fuel = rest + 1 ∧
        (∀ limit, machine.config.maxSteps = some limit → machine.steps + 1 ≤ limit) ∧
        (execute instruction).run (machine.advance instruction) = (.ok (), next) ∧
        runFor rest next = (.finished, after) := by
  cases fuel with
  | zero => simp [runFor]
  | succ rest =>
      rw [runFor]
      rcases step_run hfetch with ⟨limit, hlimit, hless, hrun⟩ | ⟨hlimits, hrun⟩
      · rw [hrun]
        constructor
        · intro hfinished
          cases hfinished
        · rintro ⟨_, _, -, hlimits, -⟩
          have hmore := hlimits limit hlimit
          omega
      · rw [hrun, run_bind]
        rcases hexecute : (execute instruction).run (machine.advance instruction) with
          ⟨stop | _, between⟩
        · constructor
          · intro hfinished
            cases stop <;> cases hfinished
          · rintro ⟨_, _, -, -, hok, -⟩
            cases hok
        · constructor
          · intro hfinished
            exact ⟨rest, between, rfl, hlimits, rfl, hfinished⟩
          · rintro ⟨_, _, ⟨⟩, -, ⟨⟩, hfinished⟩
            exact hfinished

theorem runFor_end {fuel : Nat} (hmain : machine.callers = [])
    (hfetch : machine.frame.template.code.fetch? machine.frame.ip = none) :
    runFor fuel machine = (.finished, after) ↔ 0 < fuel ∧ after = machine := by
  cases fuel with
  | zero => simp [runFor]
  | succ rest =>
      rw [runFor, step_end hfetch, hmain]
      change (Outcome.finished, machine) = (Outcome.finished, after) ↔ _
      simp [eq_comm]

theorem push_succeeds {value : Value} :
    (push value).run machine = (.ok (), next) ↔ machine.sp < machine.stack.size ∧
      next = { machine with
        stack := machine.stack.setIfInBounds machine.sp value
        sp := machine.sp + 1 } := by
  rw [push, run_bind, run_get]
  dsimp only
  split
  next hroom =>
    rw [run_modify]
    constructor
    · intro hpushed
      cases hpushed
      exact ⟨hroom, rfl⟩
    · rintro ⟨-, rfl⟩
      rfl
  next hfull =>
    constructor
    · intro hpushed
      cases hpushed
    · rintro ⟨hroom, -⟩
      exact absurd hroom hfull

theorem execute_load_succeeds {symbol : Symbol} (hplace : symbol.place.ofFunction = false) :
    (execute symbol.load).run machine = (.ok (), next) ↔
      ∃ value, symbol.read? machine.globals = some value ∧
        (push value).run machine = (.ok (), next) := by
  unfold Symbol.load Symbol.read?
  cases hcase : symbol.place with
  | global =>
      change (getGlobal symbol.index).run machine = _ ↔ _
      rw [getGlobal, run_bind, run_get]
      dsimp only
      cases machine.globals[symbol.index]? with
      | none =>
          constructor
          · intro hloaded
            cases hloaded
          · rintro ⟨_, ⟨⟩, -⟩
      | some value => simp
  | builtin =>
      simp only [execute, Instruction.operand, List.getD_cons_zero]
      cases Builtin.all[symbol.index]? with
      | none =>
          constructor
          · intro hloaded
            cases hloaded
          · rintro ⟨_, ⟨⟩, -⟩
      | some builtin => simp
  | localSlot | captured | self =>
      rw [hcase] at hplace
      cases hplace

theorem execute_pop_succeeds {height : Nat} (hheight : machine.sp = height + 1) :
    (execute ⟨.pop, []⟩).run machine = (.ok (), next) ↔ next = { machine with sp := height } := by
  change (discard pop).run machine = _ ↔ _
  rw [run_discard, pop, run_bind, run_get]
  simp only [hheight, run_bind, run_modify, run_pure]
  constructor
  · intro hpopped
    cases hpopped
    rfl
  · rintro rfl
    rfl

theorem fits_pop : Fits ⟨.pop, []⟩ :=
  Compile.fits_nil rfl

theorem run_symbol {bytecode : Bytecode} {symbol : Symbol}
    (hcode : bytecode.code.toList = encodeAll [symbol.load, ⟨.pop, []⟩])
    (hfits : symbol.load.Fits) (hplace : symbol.place.ofFunction = false) (fuel pool : Nat)
    (globals : Array Value) (config : Config) (world : World) (value : Value) :
    (∃ after, run fuel (start bytecode pool globals config world) = (.finished, after) ∧
        after.lastPopped = value) ↔
      config.Affords fuel ∧
        symbol.read? (extendGlobals globals config.globalsSize) = some value := by
  have hload := Code.holds_all hcode
  have hpop := hload.tail hfits
  have hover : bytecode.code.fetch? (0 + symbol.load.size + 1) = none := by
    have hsize : bytecode.code.size = symbol.load.size + 1 := by
      rw [← Array.length_toList, hcode, length_encodeAll (by simpa using ⟨hfits, fits_pop⟩)]
      rfl
    rw [Code.fetch?, Array.getElem?_eq_none (by omega), Option.map_none]
  have hlast : 0 < config.stackSize → ∀ found : Value,
      ((Array.replicate config.stackSize Value.null).setIfInBounds 0 found).getD 0 .null = found := by
    intro hroom found
    rw [Array.getD_eq_getD_getElem?, Array.getElem?_setIfInBounds_self_of_lt (by simpa using hroom)]
    rfl
  constructor
  · rintro ⟨after, hrun, rfl⟩
    obtain ⟨_, loaded, rfl, -, hloads, hrun⟩ := (runFor_fetched (hload.fetch hfits)).mp hrun
    obtain ⟨value, hread, hpush⟩ := (execute_load_succeeds hplace).mp hloads
    obtain ⟨hroom, rfl⟩ := push_succeeds.mp hpush
    obtain ⟨rest, popped, rfl, hlimit, hpops, hrun⟩ := (runFor_fetched (hpop.fetch fits_pop)).mp hrun
    cases (execute_pop_succeeds rfl).mp hpops
    obtain ⟨hfuel, rfl⟩ := (runFor_end rfl hover).mp hrun
    have hstack : 0 < config.stackSize := by simpa [start, advance] using hroom
    exact ⟨⟨by omega, hstack, hlimit⟩, hread.trans (congrArg some (hlast hstack value).symm)⟩
  · rintro ⟨⟨hfuel, hstack, hsteps⟩, hread⟩
    obtain ⟨rest, rfl⟩ : ∃ rest, fuel = rest + 1 + 1 + 1 := ⟨fuel - 3, by omega⟩
    refine ⟨_, (runFor_fetched (hload.fetch hfits)).mpr ⟨rest + 1 + 1, _, rfl, ?_,
      (execute_load_succeeds hplace).mpr ⟨value, hread, push_succeeds.mpr ⟨?_, rfl⟩⟩,
      (runFor_fetched (hpop.fetch fits_pop)).mpr ⟨rest + 1, _, rfl, hsteps,
        (execute_pop_succeeds rfl).mpr rfl, (runFor_end rfl hover).mpr ⟨?_, rfl⟩⟩⟩, ?_⟩
    · intro limit hlimit
      exact Nat.le_of_succ_le (hsteps limit hlimit)
    · simpa [start, advance] using hstack
    · exact Nat.succ_pos rest
    · exact hlast hstack value

end Machine

namespace Session

open Machine Compile Instruction

def Input.source : Input → String
  | .compile source | .eval _ source => source

variable {session later : Session} {source name : String} {symbol : Symbol} {value : Value}

theorem Consistent.symbol_valid (consistent : session.Consistent)
    (hown : session.scope.table.own? name = some symbol) :
    symbol.Valid false session.scope.table := by
  have hvalid := (consistent.valid.valid name symbol (Table.own?_eq_some.mp hown).1).2
  rwa [show session.scope.outer.isEmpty = true from consistent.top] at hvalid

theorem Consistent.compile_name (consistent : session.Consistent)
    (hname : Program.name? source = some name)
    (hown : session.scope.table.own? name = some symbol) (hfits : symbol.load.Fits) :
    ∃ image, session.compile source = (.ok image, session) ∧
      image.bytecode.code.toList = encodeAll [symbol.load, ⟨.pop, []⟩] := by
  have hresolve : session.scope.resolve name = some (symbol, session.scope) := by
    rw [Scope.resolve_top consistent.valid consistent.top, hown, Option.map_some]
  have hemits : Emits (.block [.expr (.ident name)]) ⟨session.scope, session.constants⟩ 0
      [symbol.load, ⟨.pop, []⟩] ⟨session.scope, session.constants⟩ :=
    .stmts (.exprStmt (.ident hresolve hfits)) .noStmts
  obtain ⟨compiler, hadd, hcode, hstage⟩ :=
    Compiler.add_completes consistent.valid consistent.top hemits
  refine ⟨⟨compiler.bytecode, 0⟩, ?_, hcode⟩
  have hscope : compiler.scope = session.scope := congrArg Stage.scope hstage
  have hconstants : compiler.constants = session.constants := congrArg Stage.constants hstage
  simp only [Session.compile, Program.name?_eq_some.mp hname, hadd, hscope, hconstants]

theorem Consistent.compiled_name (consistent : session.Consistent) {image : Image}
    (hname : Program.name? source = some name)
    (hcompile : session.compile source = (.ok image, later)) :
    ∃ symbol, session.scope.table.own? name = some symbol ∧ symbol.load.Fits ∧
      image.bytecode.code.toList = encodeAll [symbol.load, ⟨.pop, []⟩] ∧ later = session := by
  obtain ⟨program, finish, code, hparse, hemits, hcode, -, rfl⟩ :=
    compile_succeeds consistent hcompile
  rw [Program.name?_eq_some.mp hname] at hparse
  cases hparse
  cases hemits with
  | stmts hstmt hrest =>
      cases hrest
      cases hstmt with
      | exprStmt hvalue =>
          cases hvalue with
          | literal hconstant => cases hconstant
          | ident hresolve hfits =>
              rw [Scope.resolve_top consistent.valid consistent.top] at hresolve
              obtain ⟨_, hown, ⟨⟩⟩ := Option.map_eq_some_iff.mp hresolve
              exact ⟨_, hown, hfits, hcode, rfl⟩

theorem read?_agree {table : Table} (hvalid : symbol.Valid false table) {globals others : Array Value}
    (hagree : ∀ index < table.definitions, globals[index]? = others[index]?) :
    symbol.read? globals = symbol.read? others := by
  obtain ⟨hplace, hindex⟩ := hvalid
  unfold Symbol.read?
  cases hcase : symbol.place with
  | global =>
      rw [hcase] at hindex
      exact hagree _ hindex
  | builtin | localSlot | captured | self => rfl

theorem run_value (fuel : Nat) (session : Session) (image : Image) (value : Value) :
    (session.run fuel image).1 = .ok value ↔
      ∃ after, Machine.run fuel (start image.bytecode image.pool session.globals session.config
          session.world) = (.finished, after) ∧ after.lastPopped = value := by
  unfold run
  rcases Machine.run fuel _ with ⟨outcome, after⟩
  cases outcome <;> simp

theorem Consistent.run_name (consistent : session.Consistent) {image : Image}
    (hown : session.scope.table.own? name = some symbol) (hfits : symbol.load.Fits)
    (hcode : image.bytecode.code.toList = encodeAll [symbol.load, ⟨.pop, []⟩]) (fuel : Nat) :
    (session.run fuel image).1 = .ok value ↔
      session.config.Affords fuel ∧ symbol.read? session.slots = some value := by
  rw [run_value]
  exact run_symbol hcode hfits (consistent.symbol_valid hown).1 ..

theorem Consistent.eval_name (consistent : session.Consistent)
    (hname : Program.name? source = some name) (fuel : Nat) :
    (session.eval fuel source).1 = .ok value ↔
      session.config.Affords fuel ∧ ∃ symbol, session.scope.table.own? name = some symbol ∧
        symbol.load.Fits ∧ symbol.read? session.slots = some value := by
  constructor
  · intro hvalue
    unfold Session.eval at hvalue
    cases hcompile : session.compile source with
    | mk outcome later =>
        rw [hcompile] at hvalue
        cases outcome with
        | error error => cases hvalue
        | ok image =>
            obtain ⟨symbol, hown, hfits, hcode, rfl⟩ := consistent.compiled_name hname hcompile
            obtain ⟨hafford, hread⟩ := (consistent.run_name hown hfits hcode fuel).mp hvalue
            exact ⟨hafford, symbol, hown, hfits, hread⟩
  · rintro ⟨hafford, symbol, hown, hfits, hread⟩
    obtain ⟨image, hcompile, hcode⟩ := consistent.compile_name hname hown hfits
    unfold Session.eval
    rw [hcompile]
    exact (consistent.run_name hown hfits hcode fuel).mpr ⟨hafford, hread⟩

theorem Consistent.globals_top (consistent : session.Consistent) :
    session.scope.globals = session.scope.table.definitions := by
  rw [Scope.globals, List.isEmpty_iff.mp consistent.top]
  rfl

theorem slots_compile (session : Session) (source : String) :
    (session.compile source).2.slots = session.slots := by
  unfold compile
  split
  next => rfl
  next => split <;> rfl

/-- In the session the name means the symbol, which stands for the value. -/
structure Means (session : Session) (name : String) (symbol : Symbol) (value : Value) : Prop where
  own : session.scope.table.own? name = some symbol
  read : symbol.read? session.slots = some value

theorem Means.give {config : Config} {inputs : List Input}
    (means : ((new config).giveAll inputs).Means name symbol value) {input : Input}
    (hunbound : ¬Program.Binds input.source name) :
    (((new config).giveAll inputs).give input).Means name symbol value := by
  have consistent := (new_consistent config).giveAll inputs
  have hown := (consistent.compile_extends input.source).2 name hunbound
  cases input with
  | compile source =>
      refine ⟨hown.trans means.own, ?_⟩
      rw [Session.give, slots_compile]
      exact means.read
  | eval fuel source =>
      refine ⟨?_, ?_⟩
      · rw [Session.give, (eval_keeps _ fuel source).1]
        exact hown.trans means.own
      · rw [Session.give, ← means.read]
        apply read?_agree (consistent.symbol_valid means.own)
        intro index hgiven
        apply eval_slots
        rwa [consistent.globals_top]

theorem Means.giveAll {config : Config} {inputs : List Input}
    (means : ((new config).giveAll inputs).Means name symbol value) {further : List Input}
    (hunbound : ∀ input ∈ further, ¬Program.Binds input.source name) :
    (((new config).giveAll inputs).giveAll further).Means name symbol value := by
  induction further generalizing inputs with
  | nil => exact means
  | cons input rest ih =>
      obtain ⟨hfirst, hrest⟩ := List.forall_mem_cons.mp hunbound
      have hgiven : ((new config).giveAll inputs).give input =
          (new config).giveAll (inputs ++ [input]) := by
        rw [Session.giveAll, Session.giveAll, List.foldl_append]
        rfl
      have hlater := means.give hfirst
      rw [hgiven] at hlater
      have hall := ih hlater hrest
      rw [← hgiven] at hall
      exact hall

theorem not_binds_name (hname : Program.name? source = some name)
    (other : String) : ¬Program.Binds source other := by
  rintro ⟨program, hparse, member⟩
  rw [Program.name?_eq_some.mp hname] at hparse
  cases hparse
  have hnone : Stmt.boundIn [.expr (.ident name)] = [] := Survey.bound_use _ _
  rw [hnone] at member
  cases member

/-- A name that has a value keeps it through every further input that has no `let` for it outside
function literals, also if the input fails when it runs. -/
theorem names_survive_failures (config : Config) (inputs further : List Input) (fuel : Nat)
    (source name : String) (hname : Program.name? source = some name) (value : Value)
    (shown : Session)
    (hvalue : ((new config).giveAll inputs).eval fuel source = (.ok value, shown))
    (hunbound : ∀ input ∈ further, ¬Program.Binds input.source name) :
    ((shown.giveAll further).eval fuel source).1 = .ok value := by
  have consistent := (new_consistent config).giveAll inputs
  have hshown : shown.giveAll further =
      ((new config).giveAll inputs).giveAll (.eval fuel source :: further) := by
    change _ = (((new config).giveAll inputs).eval fuel source).2.giveAll further
    rw [hvalue]
  obtain ⟨hafford, symbol, hown, hfits, hread⟩ :=
    (consistent.eval_name hname fuel).mp (congrArg Prod.fst hvalue)
  have hnever : ∀ input ∈ .eval fuel source :: further, ¬Program.Binds input.source name :=
    List.forall_mem_cons.mpr ⟨not_binds_name hname name, hunbound⟩
  have hmeans := Means.giveAll ⟨hown, hread⟩ hnever
  rw [hshown]
  apply ((consistent.giveAll _).eval_name hname fuel).mpr
  rw [config_giveAll]
  exact ⟨hafford, symbol, hmeans.own, hfits, hmeans.read⟩

def failure? (session : Session) (fuel : Nat) (source : String) : Option RuntimeError :=
  match (session.eval fuel source).1 with
  | .error (.runtime error) => some error
  | _ => none

def failing : Session :=
  (new ⟨16, 8, 4, none⟩).giveAll
    [.eval 50 "let a = [10]; let f = fn() \x7b let a = 1; a / 0 \x7d;"]

theorem names_survive_division :
    ∃ value shown, failing.eval 50 "a" = (.ok value, shown) ∧
      (shown.failure? 50 "let b = f(); b").map RuntimeError.fault = some .divisionByZero ∧
      ((shown.eval 50 "let b = f(); b").2.eval 50 "a").1 = .ok value := by
  have hname : Program.name? "a" = some "a" := by decide +kernel
  have hunbound : ¬Program.Binds "let b = f(); b" "a" := by decide +kernel
  have hfacts : (failing.eval 50 "a").1.isOk = true ∧
      ((failing.eval 50 "a").2.failure? 50 "let b = f(); b").map RuntimeError.fault =
        some .divisionByZero := by decide +kernel
  rcases hvalue : failing.eval 50 "a" with ⟨_ | value, shown⟩
  · rw [hvalue] at hfacts
    cases hfacts.1
  · rw [hvalue] at hfacts
    refine ⟨value, shown, rfl, hfacts.2, ?_⟩
    exact names_survive_failures _ _ [.eval 50 "let b = f(); b"] 50 "a" "a" hname value shown hvalue
      (by simpa [Input.source] using hunbound)

theorem eq_ok_of_identical {outcome : Except EvalError Value} {expected : Value}
    (hplain : ∀ value : Value, value.identical expected = true → value = expected)
    (hsame : outcome.toOption.map (·.identical expected) = some true) : outcome = .ok expected := by
  cases outcome with
  | error error => cases hsame
  | ok value => rw [hplain value (Option.some.inj hsame)]

/-- A `let` that is not come to because of an error takes the name away all the same. -/
theorem name_lost_before_binding :
    let session := (new ⟨16, 8, 4, none⟩).giveAll [.eval 50 "let a = 10;"]
    let shown := (session.eval 50 "a").2
    let failed := (shown.eval 50 "a / 0; let a = 3;").2
    (session.eval 50 "a").1 = .ok (.integer 10) ∧
    shown.failure? 50 "a / 0; let a = 3;" = some ⟨.divisionByZero, [.inMain 7]⟩ ∧
    (failed.eval 50 "a").1 = .ok .null := by
  intro session shown failed
  obtain ⟨hbefore, hfails, hafter⟩ :
      (session.eval 50 "a").1.toOption.map (·.identical (.integer 10)) = some true ∧
      shown.failure? 50 "a / 0; let a = 3;" = some ⟨.divisionByZero, [.inMain 7]⟩ ∧
      (failed.eval 50 "a").1.toOption.map (·.identical .null) = some true := by
    decide +kernel
  refine ⟨eq_ok_of_identical ?_ hbefore, hfails, eq_ok_of_identical ?_ hafter⟩
  · intro value hsame
    cases value with
    | integer => rw [eq_of_beq hsame]
    | _ => cases hsame
  · intro value hsame
    cases value with
    | null => rfl
    | _ => cases hsame

end Session

end Stacklang
