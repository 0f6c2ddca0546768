import Mathlib
import Stacklang.Proofs.Compile.Success
import Stacklang.Proofs.Program.Renaming
import Stacklang.Proofs.Scope.Renaming

namespace Stacklang

open Fallible

def CompileError.rename (newName : String → String) : CompileError → CompileError
  | unresolved name => unresolved (newName name)
  | error => error

def Compiler.rename (newName : String → String) (compiler : Compiler) : Compiler :=
  { compiler with scope := compiler.scope.rename newName }

namespace Compile

def renameOutcome {α : Type} (newName : String → String) (via : α → α) :
    Except CompileError α × Compiler → Except CompileError α × Compiler
  | (.ok result, later) => (.ok (via result), later.rename newName)
  | (.error error, later) => (.error (error.rename newName), later.rename newName)

/-- The second step does with the new names what the first one does with the old ones. -/
def Renames {α : Type} (newName : String → String) (via : α → α) (step renamed : CompileM α) :
    Prop :=
  ∀ compiler : Compiler,
    renamed.run (compiler.rename newName) = renameOutcome newName via (step.run compiler)

variable {newName : String → String} {α β : Type} {via : α → α} {via' : β → β}

theorem Renames.bind {step renamed : CompileM α} {next renamedNext : α → CompileM β}
    (hstep : Renames newName via step renamed)
    (hnext : ∀ result, Renames newName via' (next result) (renamedNext (via result))) :
    Renames newName via' (step >>= next) (renamed >>= renamedNext) := by
  intro compiler
  rw [run_bind, run_bind, hstep compiler]
  cases hrun : step.run compiler with
  | mk outcome later =>
      cases outcome with
      | ok result => exact hnext result later
      | error error => rfl

theorem Renames.discard {step renamed : CompileM α} (hstep : Renames newName via step renamed) :
    Renames newName id (Functor.discard step) (Functor.discard renamed) := by
  intro compiler
  rw [run_discard, run_discard, hstep compiler]
  cases hrun : step.run compiler with
  | mk outcome later =>
      cases outcome with
      | ok result => rfl
      | error error => rfl

theorem renames_pure (result : α) : Renames newName via (pure result) (pure (via result)) :=
  fun _ => rfl

theorem renames_throw (error : CompileError) :
    Renames newName via (throw error) (throw (error.rename newName)) :=
  fun _ => rfl

theorem renames_get : Renames newName (Compiler.rename newName) get get :=
  fun _ => rfl

theorem renames_set (later : Compiler) :
    Renames newName id (set later) (set (later.rename newName)) :=
  fun _ => rfl

theorem renames_modify {update renamedUpdate : Compiler → Compiler}
    (hupdate : ∀ compiler,
      renamedUpdate (compiler.rename newName) = (update compiler).rename newName) :
    Renames newName id (modify update) (modify renamedUpdate) := by
  intro compiler
  rw [run_modify, run_modify, hupdate]
  rfl

/-! The steps that do not look at names. -/

theorem renames_modifyDraft (update : Draft → Draft) :
    Renames newName id (modifyDraft update) (modifyDraft update) :=
  renames_modify fun _ => rfl

theorem renames_here : Renames newName id here here :=
  renames_get.bind fun _ => renames_pure _

theorem renames_lastIs (op : Opcode) : Renames newName id (lastIs op) (lastIs op) :=
  renames_get.bind fun _ => renames_pure _

theorem misfit?_rename {op : Opcode} {position : Nat} {operands : List (Nat × Width)}
    {error : CompileError} (hmisfit : misfit? op position operands = some error) :
    error.rename newName = error := by
  induction operands generalizing position with
  | nil => cases hmisfit
  | cons operand rest ih =>
      rw [misfit?] at hmisfit
      split at hmisfit
      · cases hmisfit
        rfl
      · exact ih hmisfit

theorem renames_checkOperands (op : Opcode) (operands : List Nat) :
    Renames newName id (checkOperands op operands) (checkOperands op operands) := by
  unfold checkOperands
  cases hmisfit : misfit? op 0 (operands.zip op.widths) with
  | none => exact renames_pure ()
  | some error =>
      have hthrow : Renames newName (id : Unit → Unit) _ (throw (error.rename newName)) :=
        renames_throw error
      rw [misfit?_rename hmisfit] at hthrow
      exact hthrow

theorem renames_emit (op : Opcode) (operands : List Nat) :
    Renames newName id (emit op operands) (emit op operands) :=
  (renames_checkOperands op operands).bind fun _ =>
    renames_here.bind fun _ => (renames_modifyDraft _).bind fun _ => renames_pure _

theorem Renames.thenEmit {step renamed : CompileM Unit} (hstep : Renames newName id step renamed)
    (op : Opcode) (operands : List Nat) :
    Renames newName id (step >>= fun _ => Functor.discard (emit op operands))
      (renamed >>= fun _ => Functor.discard (emit op operands)) :=
  hstep.bind fun _ => (renames_emit op operands).discard

theorem renames_patch (offset operand : Nat) :
    Renames newName id (patch offset operand) (patch offset operand) := by
  apply renames_get.bind
  intro compiler
  dsimp only [Compiler.rename]
  cases compiler.draft.code[offset]? with
  | none => exact renames_throw _
  | some byte =>
      dsimp only
      cases Opcode.ofByte? byte with
      | none => exact renames_throw _
      | some op =>
          exact (renames_checkOperands op [operand]).bind fun _ => renames_modifyDraft _

theorem renames_addConstant (constant : Constant) :
    Renames newName id (addConstant constant) (addConstant constant) :=
  fun _ => rfl

theorem renames_load (symbol : Symbol) :
    Renames newName id (load symbol) (load (symbol.rename newName)) := by
  obtain ⟨name, place, index⟩ := symbol
  cases place with
  | global | localSlot | builtin | captured | self => exact (renames_emit _ _).discard

theorem renames_loadAll (symbols : List Symbol) :
    Renames newName id (loadAll symbols) (loadAll (symbols.map (Symbol.rename newName))) := by
  induction symbols with
  | nil => exact renames_pure ()
  | cons symbol rest ih => exact (renames_load symbol).bind fun _ => ih

theorem renames_enterFunction : Renames newName id enterFunction enterFunction :=
  renames_modify fun _ => rfl

theorem renames_leaveFunction : Renames newName id leaveFunction leaveFunction := by
  apply renames_get.bind
  rintro ⟨constants, scope, draft, pending⟩
  dsimp only [Compiler.rename]
  rw [Scope.leave?_rename]
  cases pending with
  | nil => exact renames_throw _
  | cons outerDraft pending =>
      cases scope.leave? with
      | none => exact renames_throw _
      | some outer =>
          exact (renames_set ⟨constants, outer, outerDraft, pending⟩).bind fun _ => renames_pure _

theorem renames_attempt {step renamed : CompileM Unit} (hstep : Renames newName id step renamed) :
    Renames newName (Except.mapError (CompileError.rename newName)) (attempt step)
      (attempt renamed) := by
  intro compiler
  have hattempt : ∀ (tried : CompileM Unit) (before : Compiler),
      (attempt tried).run before = (.ok (tried.run before).1, (tried.run before).2) :=
    fun _ _ => rfl
  rw [hattempt, hattempt, hstep compiler]
  cases hrun : step.run compiler with
  | mk outcome later =>
      cases outcome with
      | ok result => rfl
      | error error => rfl

/-! The steps that bind a name or look one up. -/

section Names

variable (hinjective : newName.Injective)
include hinjective

theorem renames_define (name : String) :
    Renames newName (Symbol.rename newName) (define name) (define (newName name)) := by
  intro compiler
  have hdefine : ∀ (bound : String) (before : Compiler), (define bound).run before =
      (.ok (before.scope.define bound).1,
        { before with scope := (before.scope.define bound).2 }) :=
    fun _ _ => rfl
  rw [hdefine, hdefine, Compiler.rename, Scope.define_rename hinjective]
  rfl

theorem renames_defineSelf (name : String) :
    Renames newName id (defineSelf name) (defineSelf (newName name)) := by
  apply renames_modify
  intro compiler
  exact congrArg ({ compiler with scope := · }) (compiler.scope.defineSelf_rename hinjective name)

theorem renames_defineAll (names : List String) :
    Renames newName id (defineAll names) (defineAll (names.map newName)) := by
  induction names with
  | nil => exact renames_pure ()
  | cons name rest ih => exact (renames_define hinjective name).discard.bind fun _ => ih

theorem renames_resolve (name : String) :
    Renames newName (Symbol.rename newName) (resolve name) (resolve (newName name)) := by
  apply renames_get.bind
  intro compiler
  dsimp only [Compiler.rename]
  rw [Scope.resolve_rename hinjective]
  cases compiler.scope.resolve name with
  | none => exact renames_throw _
  | some found => exact Renames.bind (renames_modify fun _ => rfl) fun _ => renames_pure _

end Names

/-! The forms of programs, out of the steps for their parts. -/

section Forms

variable {step renamed : CompileM Unit}

theorem renames_binary (op : BinaryOp) {left renamedLeft right renamedRight : CompileM Unit}
    (hleft : Renames newName id left renamedLeft)
    (hright : Renames newName id right renamedRight) :
    Renames newName id (binary op left right) (binary op renamedLeft renamedRight) := by
  by_cases hless : op = .less
  · subst hless
    exact hright.bind fun _ => hleft.thenEmit .greaterThan []
  · rw [binary_eq hless, binary_eq hless]
    cases binaryOpcode? op with
    | none => exact renames_throw _
    | some opcode => exact hleft.bind fun _ => hright.thenEmit opcode []

theorem renames_branch (hstep : Renames newName id step renamed) :
    Renames newName id (branch step) (branch renamed) := by
  apply hstep.bind
  intro _
  apply (renames_lastIs .pop).bind
  intro popped
  cases popped with
  | true => exact renames_modifyDraft _
  | false => exact (renames_emit _ _).discard

theorem renames_choose {condition renamedCondition consequence renamedConsequence alternative
      renamedAlternative : CompileM Unit}
    (hcondition : Renames newName id condition renamedCondition)
    (hconsequence : Renames newName id consequence renamedConsequence)
    (halternative : Renames newName id alternative renamedAlternative) :
    Renames newName id (choose condition consequence alternative)
      (choose renamedCondition renamedConsequence renamedAlternative) := by
  apply hcondition.bind
  intro _
  apply (renames_emit _ _).bind
  intro toAlternative
  apply hconsequence.bind
  intro _
  apply (renames_emit _ _).bind
  intro toEnd
  apply renames_here.bind
  intro target
  apply (renames_patch _ _).bind
  intro _
  apply halternative.bind
  intro _
  apply renames_here.bind
  intro finish
  exact renames_patch _ _

theorem renames_functionBody (hstep : Renames newName id step renamed) :
    Renames newName id (functionBody step) (functionBody renamed) := by
  have hreturn : Renames newName id
      (do unless ← lastIs .returnValue do discard (emit .returnNull))
      (do unless ← lastIs .returnValue do discard (emit .returnNull)) := by
    apply (renames_lastIs _).bind
    intro returns
    cases returns with
    | true => exact renames_pure ()
    | false => exact (renames_emit _ _).discard
  apply hstep.bind
  intro _
  apply (renames_lastIs .pop).bind
  intro popped
  cases popped with
  | true => exact (renames_modifyDraft _).bind fun _ => hreturn
  | false => exact hreturn

theorem renames_closure (table : Table) (code : Code) (parameters : Nat) :
    Renames newName id
      (do
        loadAll table.captures
        let index ← addConstant (.function ⟨code, table.definitions, parameters⟩)
        discard (emit .closure [index, table.captures.length]))
      (do
        loadAll (table.rename newName).captures
        let index ← addConstant (.function ⟨code, (table.rename newName).definitions, parameters⟩)
        discard (emit .closure [index, (table.rename newName).captures.length])) := by
  have hlength : (table.rename newName).captures.length = table.captures.length :=
    List.length_map ..
  rw [hlength]
  apply (renames_loadAll table.captures).bind
  intro _
  apply (renames_addConstant _).bind
  intro index
  exact (renames_emit _ _).discard

def fromParameters (parameters : List String) (statements : CompileM Unit) : CompileM Unit := do
  defineAll parameters
  let outcome ← attempt (functionBody statements)
  let table := (← get).scope.table
  let code ← leaveFunction
  match outcome with
  | .error error => throw error
  | .ok () =>
      loadAll table.captures
      let index ← addConstant (.function ⟨code, table.definitions, parameters.length⟩)
      discard (emit .closure [index, table.captures.length])

theorem renames_fromParameters (hinjective : newName.Injective) (parameters : List String)
    (hstep : Renames newName id step renamed) :
    Renames newName id (fromParameters parameters step)
      (fromParameters (parameters.map newName) renamed) := by
  unfold fromParameters
  apply (renames_defineAll hinjective parameters).bind
  intro _
  apply (renames_attempt (renames_functionBody hstep)).bind
  intro outcome
  apply renames_get.bind
  intro inner
  apply renames_leaveFunction.bind
  intro code
  cases outcome with
  | error error => exact renames_throw error
  | ok _ =>
      rw [List.length_map]
      exact renames_closure inner.scope.table code parameters.length

theorem renames_function (hinjective : newName.Injective) (name : Option String)
    (parameters : List String) (hstep : Renames newName id step renamed) :
    Renames newName id (function name parameters step)
      (function (name.map newName) (parameters.map newName) renamed) := by
  have hrest := renames_fromParameters hinjective parameters hstep
  unfold function
  by_cases hmany : parameters.length > maxParameters
  · rw [List.length_map, if_pos hmany, if_pos hmany]
    exact renames_throw _
  · rw [if_neg hmany, if_neg (by rwa [List.length_map])]
    apply renames_enterFunction.bind
    intro _
    cases name with
    | none => exact hrest
    | some name => exact (renames_defineSelf hinjective name).bind fun _ => hrest

theorem renames_inOrder {pairs : List (Expr × Expr)}
    (hpairs : ∀ pair ∈ pairs,
      Renames newName id pair.1.compile (pair.1.rename newName).compile ∧
        Renames newName id pair.2.compile (pair.2.rename newName).compile) :
    Renames newName id
      (inOrder (pairs.map fun pair =>
        (pair.1.display, pair.1.compile >>= fun _ => pair.2.compile)))
      (inOrder (pairs.map fun pair => (pair.1.display,
        (pair.1.rename newName).compile >>= fun _ => (pair.2.rename newName).compile))) := by
  induction pairs with
  | nil => exact renames_pure ()
  | cons pair rest ih =>
      obtain ⟨hkey, hvalue⟩ := hpairs pair (List.mem_cons_self ..)
      apply (hkey.bind fun _ => hvalue).bind
      intro _
      exact ih fun later member => hpairs later (List.mem_cons_of_mem _ member)

theorem renames_hash {pairs : List (Expr × Expr)}
    (hnameless : ∀ pair ∈ pairs, pair.1.nameless = true)
    (hpairs : ∀ pair ∈ pairs,
      Renames newName id pair.1.compile (pair.1.rename newName).compile ∧
        Renames newName id pair.2.compile (pair.2.rename newName).compile) :
    Renames newName id (Expr.hash pairs).compile ((Expr.hash pairs).rename newName).compile := by
  have htexts : Expr.compilePairs (Expr.renamePairs newName pairs) =
      pairs.map fun pair => (pair.1.display,
        (pair.1.rename newName).compile >>= fun _ => (pair.2.rename newName).compile) := by
    rw [compilePairs_eq, Expr.renamePairs_eq, List.map_map]
    apply List.map_congr_left
    intro pair member
    rw [Function.comp_apply, Expr.rename_nameless pair.1 (hnameless pair member)]
  have hlength : (Expr.renamePairs newName pairs).length = pairs.length := by
    rw [Expr.renamePairs_eq, List.length_map]
  rw [Expr.rename, Expr.compile, Expr.compile, htexts, hlength, compilePairs_eq,
    Expr.inKeyOrder_map, Expr.inKeyOrder_map]
  apply Renames.thenEmit
  apply renames_inOrder
  intro pair member
  exact hpairs pair (List.mem_mergeSort.mp member)

end Forms

end Compile

open Compile

variable {newName : String → String}

mutual

theorem Expr.renames (hinjective : newName.Injective) : ∀ expr : Expr, expr.keysNameless = true →
    Renames newName id expr.compile (expr.rename newName).compile
  | .integer value, _ => (renames_addConstant _).bind fun _ => (renames_emit _ _).discard
  | .string text, _ => (renames_addConstant _).bind fun _ => (renames_emit _ _).discard
  | .boolean true, _ => (renames_emit _ _).discard
  | .boolean false, _ => (renames_emit _ _).discard
  | .ident name, _ => (renames_resolve hinjective name).bind renames_load
  | .unary op operand, hkeys => (Expr.renames hinjective operand hkeys).thenEmit (unaryOpcode op) []
  | .binary op left right, hkeys => by
      obtain ⟨hleft, hright⟩ := Bool.and_eq_true_iff.mp hkeys
      exact renames_binary op (Expr.renames hinjective left hleft)
        (Expr.renames hinjective right hright)
  | .cond condition consequence none, hkeys => by
      obtain ⟨hcondition, hconsequence⟩ := Bool.and_eq_true_iff.mp hkeys
      exact renames_choose (Expr.renames hinjective condition hcondition)
        (renames_branch (Block.renames hinjective consequence hconsequence))
        (renames_emit _ _).discard
  | .cond condition consequence (some alternative), hkeys => by
      obtain ⟨hfirst, halternative⟩ := Bool.and_eq_true_iff.mp hkeys
      obtain ⟨hcondition, hconsequence⟩ := Bool.and_eq_true_iff.mp hfirst
      exact renames_choose (Expr.renames hinjective condition hcondition)
        (renames_branch (Block.renames hinjective consequence hconsequence))
        (renames_branch (Block.renames hinjective alternative halternative))
  | .array items, hkeys => by
      rw [Expr.rename, Expr.compile, Expr.compile, Expr.length_renameAll]
      exact (Expr.renamesAll hinjective items hkeys).thenEmit .array [items.length]
  | .hash pairs, hkeys => by
      have hpairs := Expr.renamesPairs hinjective pairs hkeys
      exact renames_hash (fun pair member => (hpairs pair member).1)
        fun pair member => (hpairs pair member).2
  | .index container index, hkeys => by
      obtain ⟨hcontainer, hindex⟩ := Bool.and_eq_true_iff.mp hkeys
      exact (Expr.renames hinjective container hcontainer).bind fun _ =>
        (Expr.renames hinjective index hindex).thenEmit .index []
  | .function name parameters body, hkeys =>
      renames_function hinjective name parameters (Block.renames hinjective body hkeys)
  | .call callee arguments, hkeys => by
      obtain ⟨hcallee, harguments⟩ := Bool.and_eq_true_iff.mp hkeys
      rw [Expr.rename, Expr.compile, Expr.compile, Expr.length_renameAll]
      exact (Expr.renames hinjective callee hcallee).bind fun _ =>
        (Expr.renamesAll hinjective arguments harguments).thenEmit .call [arguments.length]

theorem Expr.renamesAll (hinjective : newName.Injective) : ∀ items : List Expr,
    Expr.allKeysNameless items = true →
    Renames newName id (Expr.compileAll items) (Expr.compileAll (Expr.renameAll newName items))
  | [], _ => renames_pure ()
  | item :: items, hkeys => by
      obtain ⟨hitem, hitems⟩ := Bool.and_eq_true_iff.mp hkeys
      exact (Expr.renames hinjective item hitem).bind fun _ =>
        Expr.renamesAll hinjective items hitems

theorem Expr.renamesPairs (hinjective : newName.Injective) : ∀ pairs : List (Expr × Expr),
    Expr.pairsKeysNameless pairs = true → ∀ pair ∈ pairs, pair.1.nameless = true ∧
      Renames newName id pair.1.compile (pair.1.rename newName).compile ∧
      Renames newName id pair.2.compile (pair.2.rename newName).compile
  | [], _ => by simp
  | (key, value) :: pairs, hkeys => by
      obtain ⟨hpair, hpairs⟩ := Bool.and_eq_true_iff.mp hkeys
      obtain ⟨hfirst, hvalue⟩ := Bool.and_eq_true_iff.mp hpair
      obtain ⟨hnameless, hkey⟩ := Bool.and_eq_true_iff.mp hfirst
      exact List.forall_mem_cons.mpr
        ⟨⟨hnameless, Expr.renames hinjective key hkey, Expr.renames hinjective value hvalue⟩,
          Expr.renamesPairs hinjective pairs hpairs⟩

theorem Stmt.renames (hinjective : newName.Injective) : ∀ stmt : Stmt, stmt.keysNameless = true →
    Renames newName id stmt.compile (stmt.rename newName).compile
  | .expr value, hkeys => (Expr.renames hinjective value hkeys).thenEmit .pop []
  | .bind name value, hkeys => by
      apply (Expr.renames hinjective value hkeys).bind
      intro _
      apply (renames_define hinjective name).bind
      intro symbol
      obtain ⟨bound, place, index⟩ := symbol
      cases place with
      | global | localSlot | builtin | captured | self => exact (renames_emit _ _).discard
  | .ret value, hkeys => by
      apply renames_get.bind
      rintro ⟨constants, scope, draft, pending⟩
      cases pending with
      | nil => exact renames_throw _
      | cons outer pending => exact (Expr.renames hinjective value hkeys).thenEmit .returnValue []

theorem Block.renames (hinjective : newName.Injective) : ∀ stmts : List Stmt,
    Block.keysNameless stmts = true →
    Renames newName id (Stmt.compileAll stmts) (Stmt.compileAll (Block.rename newName stmts))
  | [], _ => renames_pure ()
  | stmt :: stmts, hkeys => by
      obtain ⟨hstmt, hstmts⟩ := Bool.and_eq_true_iff.mp hkeys
      exact (Stmt.renames hinjective stmt hstmt).bind fun _ => Block.renames hinjective stmts hstmts

end

/-- Compiling from the start gives the same code and the same constants whatever the names are, and
an error can differ in the name it tells only. -/
theorem Compiler.fresh_add_rename (hinjective : newName.Injective)
    (hbuiltins : ∀ builtin ∈ Builtin.all, newName builtin.name = builtin.name) {program : Program}
    (hkeys : program.keysNameless = true) :
    (Compiler.fresh.add (program.rename newName)).1 =
        (Compiler.fresh.add program).1.mapError (CompileError.rename newName) ∧
      (Compiler.fresh.add (program.rename newName)).2.bytecode =
        (Compiler.fresh.add program).2.bytecode := by
  have hfresh : Compiler.fresh.rename newName = Compiler.fresh :=
    congrArg (Compiler.resume · #[]) (Scope.withBuiltins_rename hinjective hbuiltins)
  have hrun := Block.renames hinjective program.statements hkeys Compiler.fresh
  rw [hfresh] at hrun
  have hadd : Compiler.fresh.add (program.rename newName) =
      renameOutcome newName id (Compiler.fresh.add program) := hrun
  rw [hadd]
  cases Compiler.fresh.add program with
  | mk outcome later =>
      cases outcome with
      | ok _ => exact ⟨rfl, rfl⟩
      | error error => exact ⟨rfl, rfl⟩

/-- Two names change places, where one of them is captured and the other one is bound nowhere. -/
theorem Compiler.fresh_add_rename_swapped :
    let newName : String → String := Equiv.swap "x" "y"
    let program : Program := ⟨[
      .bind "f" (.function (some "f") ["x"] [.expr (.function none [] [
        .expr (.call (.ident "f") [.ident "x"])])]),
      .expr (.hash [(.integer 2, .ident "f"), (.integer 1, .ident "len")]),
      .expr (.ident "y")]⟩
    program.keysNameless = true ∧
      (Compiler.fresh.add program).1 = .error (.unresolved "y") ∧
      (Compiler.fresh.add (program.rename newName)).1 = .error (.unresolved "x") ∧
      (Compiler.fresh.add (program.rename newName)).2.bytecode =
        (Compiler.fresh.add program).2.bytecode := by
  intro newName program
  have hbuiltins : ∀ builtin ∈ Builtin.all, newName builtin.name = builtin.name := by decide
  have hkeys : program.keysNameless = true := by decide
  have hfails : (Compiler.fresh.add program).1 = .error (.unresolved "y") := by cbv
  obtain ⟨herror, hbytecode⟩ :=
    Compiler.fresh_add_rename (Equiv.injective _) hbuiltins hkeys
  refine ⟨hkeys, hfails, ?_, hbytecode⟩
  rw [herror, hfails]
  rfl

end Stacklang
