import Stacklang.Proofs.Compile.Success

namespace Stacklang

def Compiler.stage (compiler : Compiler) : Compile.Stage :=
  ⟨compiler.scope, compiler.constants⟩

namespace Compile

open Fallible Instruction

def Part.step : Part → CompileM Unit
  | .expr value => value.compile
  | .exprs items => Expr.compileAll items
  | .pairs entries =>
      inOrder (entries.map fun pair =>
        (pair.1.display, pair.1.compile >>= fun _ => pair.2.compile))
  | .stmt statement => statement.compile
  | .block stmts => Stmt.compileAll stmts
  | .branch stmts => Compile.branch (Stmt.compileAll stmts)
  | .otherwise none => discard (emit .pushNull)
  | .otherwise (some stmts) => Compile.branch (Stmt.compileAll stmts)
  | .body stmts => functionBody (Stmt.compileAll stmts)

/-- An empty branch or body takes the instruction before it for its own, so that must not be one whose
value it could leave or return. -/
def Part.Follows : Part → Draft → Prop
  | .branch [], draft | .otherwise (some []), draft => draft.endsWith .pop = false
  | .body [], draft => draft.endsWith .pop = false ∧ draft.endsWith .returnValue = false
  | _, _ => True

/-- The compilation has come to a stage, with so many bytes of code for the function at hand. -/
structure Stands (stage : Stage) (offset : Nat) (compiler : Compiler) : Prop where
  balanced : Balanced compiler
  stage : compiler.stage = stage
  offset : compiler.draft.code.size = offset

def Succeeds (step : CompileM Unit) (before : Compiler) (code : List Instruction)
    (finish : Stage) : Prop :=
  ∃ after, step.run before = (.ok (), after) ∧ Adds code before after ∧ after.stage = finish

theorem Succeeds.andThen {first second : CompileM Unit} {before : Compiler}
    {code more : List Instruction} {middle finish : Stage}
    (hfirst : Succeeds first before code middle)
    (hsecond : ∀ between, first.run before = (.ok (), between) → Adds code before between →
      between.stage = middle → Succeeds second between more finish) :
    Succeeds (first >>= fun _ => second) before (code ++ more) finish := by
  obtain ⟨between, hrun, hadds, hmiddle⟩ := hfirst
  obtain ⟨after, hrun', hadds', hfinish⟩ := hsecond between hrun hadds hmiddle
  exact ⟨after, bind_succeeds.mpr ⟨(), between, hrun, hrun'⟩, hadds.trans hadds', hfinish⟩

theorem succeeds_emit {op : Opcode} {operands : List Nat} (hfits : Fits ⟨op, operands⟩)
    (before : Compiler) :
    Succeeds (discard (emit op operands)) before [⟨op, operands⟩] before.stage :=
  ⟨_, (discard_emit_succeeds hfits.1).mpr ⟨hfits, rfl⟩, adds_push _ _, rfl⟩

theorem Succeeds.thenEmit {step : CompileM Unit} {before : Compiler} {code : List Instruction}
    {finish : Stage} {op : Opcode} {operands : List Nat}
    (hstep : Succeeds step before code finish) (hfits : Fits ⟨op, operands⟩) :
    Succeeds (step >>= fun _ => discard (emit op operands)) before (code ++ [⟨op, operands⟩])
      finish := by
  apply hstep.andThen
  intro between _ _ hfinish
  rw [← hfinish]
  exact succeeds_emit hfits between

theorem Stands.after {part : Part} {stage finish : Stage} {offset : Nat} {code : List Instruction}
    {before after : Compiler} (stands : Stands stage offset before)
    (emits : Emits part stage offset code finish) (adds : Adds code before after)
    (hfinish : after.stage = finish) : Stands finish (offset + sizeAll code) after := by
  obtain ⟨balanced, rfl, rfl⟩ := stands
  subst hfinish
  exact ⟨Lays.balanced ⟨code, emits, adds⟩ balanced, rfl, adds.offset emits.fits⟩

def Completes (part : Part) (stage : Stage) (offset : Nat) (code : List Instruction)
    (finish : Stage) : Prop :=
  ∀ before, Stands stage offset before → part.Follows before.draft →
    Succeeds part.step before code finish

section

variable {stage middle finish : Stage} {offset : Nat} {code more : List Instruction}
  {before : Compiler}

theorem Completes.andThen {first second : Part} (hfirst : Completes first stage offset code middle)
    (emits : Emits first stage offset code middle)
    (hsecond : Completes second middle (offset + sizeAll code) more finish)
    (stands : Stands stage offset before) (hbefore : first.Follows before.draft)
    (hbetween : ∀ draft, second.Follows draft) :
    Succeeds (first.step >>= fun _ => second.step) before (code ++ more) finish := by
  apply (hfirst before stands hbefore).andThen
  intro between _ adds hmiddle
  exact hsecond between (stands.after emits adds hmiddle) (hbetween _)

theorem Completes.andThenEmit {first second : Part} {op : Opcode} {operands : List Nat}
    (hfirst : Completes first stage offset code middle)
    (emits : Emits first stage offset code middle)
    (hsecond : Completes second middle (offset + sizeAll code) more finish)
    (hfits : Fits ⟨op, operands⟩) (stands : Stands stage offset before)
    (hbefore : first.Follows before.draft) (hbetween : ∀ draft, second.Follows draft) :
    Succeeds (first.step >>= fun _ => second.step >>= fun _ => discard (emit op operands)) before
      (code ++ more ++ [⟨op, operands⟩]) finish := by
  have hboth := (hfirst.andThen emits hsecond stands hbefore hbetween).thenEmit hfits
  rwa [bind_assoc] at hboth

end

theorem literal_completes {expr : Expr} {constant : Constant} {stage : Stage} {offset : Nat}
    (hconstant : expr.constant? = some constant)
    (hfits : Fits ⟨.constant, [stage.constants.size]⟩) :
    Completes (.expr expr) stage offset [⟨.constant, [stage.constants.size]⟩]
      ⟨stage.scope, stage.constants.push constant⟩ := by
  intro before stands _
  obtain ⟨-, rfl, rfl⟩ := stands
  have hstep : Part.step (.expr expr) = (do
      let index ← addConstant constant
      discard (emit .constant [index])) := by
    cases expr with
    | integer | string =>
        cases hconstant
        rfl
    | _ => cases hconstant
  let added : Compiler := { before with constants := before.constants.push constant }
  rw [hstep]
  refine ⟨added.push ⟨.constant, [before.constants.size]⟩, ?_,
    ⟨(adds_push before _).code, rfl⟩, rfl⟩
  exact bind_succeeds.mpr ⟨_, added, rfl, (discard_emit_succeeds rfl).mpr ⟨hfits, rfl⟩⟩

theorem resolve_run {name : String} {before : Compiler} {symbol : Symbol} {scope : Scope}
    (hresolve : before.scope.resolve name = some (symbol, scope)) :
    (resolve name).run before = (.ok symbol, { before with scope }) := by
  rw [resolve, run_bind, run_get]
  simp only [hresolve]
  rfl

theorem ident_completes {name : String} {stage : Stage} {offset : Nat} {symbol : Symbol}
    {scope : Scope} (hresolve : stage.scope.resolve name = some (symbol, scope))
    (hfits : symbol.load.Fits) :
    Completes (.expr (.ident name)) stage offset [symbol.load] ⟨scope, stage.constants⟩ := by
  intro before stands _
  obtain ⟨-, rfl, rfl⟩ := stands
  refine ⟨Compiler.push { before with scope } symbol.load, ?_,
    ⟨(adds_push before symbol.load).code, rfl⟩, rfl⟩
  exact bind_succeeds.mpr ⟨_, _, resolve_run hresolve, load_succeeds.mpr ⟨hfits, rfl⟩⟩

/-! Choices. -/

theorem Adds.patch_run {op : Opcode} {old operand : Nat} {before middle : Compiler}
    {code rest : List Instruction} (adds : Adds (code ++ ⟨op, [old]⟩ :: rest) before middle)
    (hfits : ∀ instruction ∈ code, instruction.Fits) (hoperand : Fits ⟨op, [operand]⟩) :
    ∃ after, (Compile.patch (before.draft.code.size + sizeAll code) operand).run middle =
      (.ok (), after) := by
  have hbyte : middle.draft.code[before.draft.code.size + sizeAll code]? = some op.toByte := by
    rw [← Array.getElem?_toList, adds.code, encodeAll_append, ← List.append_assoc,
      List.getElem?_append_right (by simp [length_encodeAll hfits])]
    simp [length_encodeAll hfits, encode_eq]
  rw [Compile.patch, run_bind, run_get]
  simp only [hbyte, Opcode.ofByte?_toByte]
  have hcheck : (checkOperands op [operand]).run middle = (.ok (), middle) :=
    checkOperands_succeeds.mpr ⟨hoperand.2, rfl⟩
  rw [run_bind, hcheck]
  exact ⟨_, rfl⟩

theorem Stands.patched {stage : Stage} {offset : Nat} {middle after : Compiler}
    {first second : List Instruction} {before : Compiler} (stands : Stands stage offset middle)
    (hmiddle : Adds first before middle) (hafter : Adds second before after)
    (hlength : (encodeAll second).length = (encodeAll first).length)
    (hscope : after.scope = middle.scope) (hconstants : after.constants = middle.constants) :
    Stands stage offset after := by
  obtain ⟨⟨valid, depth⟩, rfl, rfl⟩ := stands
  refine ⟨⟨hscope ▸ valid, ?_⟩, ?_, ?_⟩
  · rw [hafter.pending, hscope, ← hmiddle.pending, depth]
  · rw [Compiler.stage, Compiler.stage, hscope, hconstants]
  · rw [← Array.length_toList, hafter.code, ← Array.length_toList, hmiddle.code, List.length_append,
      List.length_append, hlength]

theorem Stands.push {stage : Stage} {offset : Nat} {compiler : Compiler}
    (stands : Stands stage offset compiler) {instruction : Instruction}
    (hfits : instruction.Fits) : Stands stage (offset + instruction.size)
      (compiler.push instruction) := by
  obtain ⟨balanced, rfl, rfl⟩ := stands
  exact ⟨balanced.push instruction, rfl,
    (adds_push compiler instruction).offset (by simpa using hfits)⟩

theorem fits_placeholder {op : Opcode} (hword : op.widths = [.word]) :
    Fits ⟨op, [jumpPlaceholder]⟩ := by
  simp [Fits, hword, Width.maximum, jumpPlaceholder]

theorem follows_branch {draft : Draft} (hends : draft.endsWith .pop = false) (stmts : List Stmt) :
    (Part.branch stmts).Follows draft := by
  cases stmts with
  | nil => exact hends
  | cons => trivial

theorem follows_otherwise {draft : Draft} (hends : draft.endsWith .pop = false)
    (alternative : Option (List Stmt)) : (Part.otherwise alternative).Follows draft := by
  cases alternative with
  | none => trivial
  | some stmts =>
      cases stmts with
      | nil => exact hends
      | cons => trivial

theorem cond_completes {condition : Expr} {consequence : List Stmt}
    {alternative : Option (List Stmt)} {stage first second finish : Stage}
    {offset toAlternative toEnd : Nat}
    {conditionCode consequenceCode alternativeCode : List Instruction}
    (hcondition : Emits (.expr condition) stage offset conditionCode first)
    (hconsequence : Emits (.branch consequence) first (offset + sizeAll conditionCode + 3)
      consequenceCode second)
    (hto : toAlternative = offset + sizeAll conditionCode + 3 + sizeAll consequenceCode + 3)
    (halternative : Emits (.otherwise alternative) second toAlternative alternativeCode finish)
    (hend : toEnd = toAlternative + sizeAll alternativeCode)
    (hfirst : Fits ⟨.jumpNotTruthy, [toAlternative]⟩) (hsecond : Fits ⟨.jump, [toEnd]⟩)
    (ihcondition : Completes (.expr condition) stage offset conditionCode first)
    (ihconsequence : Completes (.branch consequence) first (offset + sizeAll conditionCode + 3)
      consequenceCode second)
    (ihalternative : Completes (.otherwise alternative) second toAlternative alternativeCode
      finish) :
    Completes (.expr (.cond condition consequence alternative)) stage offset
      (conditionCode ++ ⟨.jumpNotTruthy, [toAlternative]⟩ ::
        (consequenceCode ++ ⟨.jump, [toEnd]⟩ :: alternativeCode)) finish := by
  intro before stands _
  obtain ⟨conditioned, hrun, hadds, hstage⟩ := ihcondition before stands trivial
  have hstands := (stands.after hcondition hadds hstage).push
    (fits_placeholder (rfl : Opcode.jumpNotTruthy.widths = _))
  obtain ⟨consequent, hrun', hadds', hstage'⟩ :=
    ihconsequence _ hstands (follows_branch rfl consequence)
  have hstands' := (hstands.after hconsequence hadds' hstage').push
    (fits_placeholder (rfl : Opcode.jump.widths = _))
  have hjumps : Adds (conditionCode ++ ⟨.jumpNotTruthy, [jumpPlaceholder]⟩ ::
      (consequenceCode ++ [⟨.jump, [jumpPlaceholder]⟩])) before
      (consequent.push ⟨.jump, [jumpPlaceholder]⟩) := by
    simpa using (hadds.trans (adds_push _ _)).trans (hadds'.trans (adds_push _ _))
  obtain ⟨patched, hpatch⟩ := hjumps.patch_run hcondition.fits hfirst
  obtain ⟨-, hpatched, hscope, hconstants, hlast⟩ := hjumps.patch rfl hcondition.fits hpatch
  have hbehind : Stands second toAlternative patched := by
    rw [hto]
    exact hstands'.patched hjumps hpatched (by simp [encode_eq, operandBytes, Opcode.widths])
      hscope hconstants
  have hends : patched.draft.endsWith .pop = false := by
    rw [Draft.endsWith, hlast]
    rfl
  obtain ⟨chosen, hrun'', hadds'', hstage''⟩ :=
    ihalternative patched hbehind (follows_otherwise hends alternative)
  have hall : Adds ((conditionCode ++ ⟨.jumpNotTruthy, [toAlternative]⟩ :: consequenceCode) ++
      ⟨.jump, [jumpPlaceholder]⟩ :: alternativeCode) before chosen := by
    simpa using hpatched.trans hadds''
  have hfits : ∀ instruction ∈ conditionCode ++ ⟨.jumpNotTruthy, [toAlternative]⟩ ::
      consequenceCode, instruction.Fits :=
    List.forall_mem_append.mpr
      ⟨hcondition.fits, List.forall_mem_cons.mpr ⟨hfirst, hconsequence.fits⟩⟩
  obtain ⟨after, hpatch'⟩ := hall.patch_run hfits hsecond
  obtain ⟨-, hdone, hscope', hconstants', -⟩ := hall.patch rfl hfits hpatch'
  refine ⟨after, ?_, by simpa using hdone, ?_⟩
  · -- Each jump is patched where it stands, to the offset that has been reached.
    have hstart := stands.offset
    have hat : conditioned.draft.code.size = before.draft.code.size + sizeAll conditionCode :=
      hadds.offset hcondition.fits
    have hat' : consequent.draft.code.size = before.draft.code.size + sizeAll (conditionCode ++
        ⟨.jumpNotTruthy, [toAlternative]⟩ :: consequenceCode) := by
      rw [(hstands.after hconsequence hadds' hstage').offset, hstart, sizeAll_jump rfl,
        Nat.add_assoc, Nat.add_assoc, Nat.add_assoc]
      rfl
    have htarget : (consequent.push ⟨.jump, [jumpPlaceholder]⟩).draft.code.size = toAlternative :=
      hstands'.offset.trans hto.symm
    have htarget' : chosen.draft.code.size = toEnd :=
      (hbehind.after halternative hadds'' hstage'').offset.trans hend.symm
    have hstep : (Part.expr (.cond condition consequence alternative)).step =
        choose (Part.expr condition).step (Part.branch consequence).step
          (Part.otherwise alternative).step := by
      cases alternative <;> rfl
    rw [← hat, ← htarget] at hpatch
    rw [← hat', ← htarget'] at hpatch'
    rw [hstep]
    simp only [choose, bind_succeeds]
    exact ⟨(), conditioned, hrun, _, _,
      (emit_succeeds rfl).mpr ⟨fits_placeholder rfl, rfl, rfl⟩, (), consequent, hrun', _, _,
      (emit_succeeds rfl).mpr ⟨fits_placeholder rfl, rfl, rfl⟩, _, _, rfl, (), patched, hpatch,
      (), chosen, hrun'', _, _, rfl, hpatch'⟩
  · rw [← hstage'', Compiler.stage, Compiler.stage, hscope', hconstants']

/-! Statements, branches and bodies. -/

theorem endsWith_stmt {stmt : Stmt} {before after : Compiler}
    (hrun : stmt.compile.run before = (.ok (), after)) :
    after.draft.endsWith .pop = stmt.isExpr ∧
      ((∃ name value, stmt = .bind name value) → after.draft.endsWith .returnValue = false) := by
  obtain ⟨middle, -, rfl, -, -⟩ := stmt_succeeds hrun
  cases stmt with
  | expr => exact ⟨rfl, fun _ => rfl⟩
  | ret => exact ⟨rfl, by simp⟩
  | bind name value =>
      simp only [finishStmt, endsWith_push, Symbol.store]
      cases (middle.scope.define name).1.place <;> exact ⟨rfl, fun _ => rfl⟩

theorem bind_completes {name : String} {value : Expr} {stage finish : Stage} {offset : Nat}
    {code : List Instruction} (ih : Completes (.expr value) stage offset code finish)
    (hfits : (finish.scope.define name).1.store.Fits) :
    Completes (.stmt (.bind name value)) stage offset
      (code ++ [(finish.scope.define name).1.store])
      ⟨(finish.scope.define name).2, finish.constants⟩ := by
  intro before stands _
  change Succeeds (Stmt.compile (.bind name value)) before _ _
  rw [Stmt.compile]
  apply (ih before stands trivial).andThen
  intro between _ _ hbetween
  subst hbetween
  let defined : Compiler := { between with scope := (between.scope.define name).2 }
  refine ⟨defined.push (between.scope.define name).1.store, ?_,
    ⟨(adds_push between _).code, rfl⟩, rfl⟩
  exact bind_succeeds.mpr ⟨_, defined, rfl, store_succeeds.mpr ⟨hfits, rfl⟩⟩

theorem ret_completes {value : Expr} {stage finish : Stage} {offset : Nat}
    {code : List Instruction} (hinside : stage.scope.isTopLevel = false)
    (ih : Completes (.expr value) stage offset code finish) :
    Completes (.stmt (.ret value)) stage offset (code ++ [⟨.returnValue, []⟩]) finish := by
  intro before stands _
  have hpending : before.pending.isEmpty = false := by
    obtain ⟨⟨-, hdepth⟩, rfl, -⟩ := stands
    change before.scope.outer.isEmpty = false at hinside
    rw [List.isEmpty_eq_false_iff, ← List.length_pos_iff] at hinside ⊢
    omega
  obtain ⟨after, hrun, hadds, hstage⟩ :=
    (ih before stands trivial).thenEmit (fits_nil (rfl : Opcode.returnValue.widths = []))
  refine ⟨after, ?_, hadds, hstage⟩
  change (Stmt.compile (.ret value)).run before = _
  rw [Stmt.compile, run_bind, run_get]
  simp only [hpending]
  exact hrun

theorem exprStmt_run {value : Expr} {before valued : Compiler}
    (hrun : value.compile.run before = (.ok (), valued)) :
    (Stmt.compile (.expr value)).run before = (.ok (), valued.push ⟨.pop, []⟩) :=
  bind_succeeds.mpr ⟨(), valued, hrun, (discard_emit_succeeds rfl).mpr ⟨fits_nil rfl, rfl⟩⟩

/-- The value of the last statement stays, since the instruction that drops it is taken away. -/
theorem branchValue_completes {value : Expr} {stage finish : Stage} {offset : Nat}
    {code : List Instruction} (ih : Completes (.expr value) stage offset code finish) :
    Completes (.branch [.expr value]) stage offset code finish := by
  intro before stands _
  obtain ⟨valued, hrun, hadds, hstage⟩ := ih before stands trivial
  let dropped : Compiler :=
    { valued.push ⟨.pop, []⟩ with draft := (valued.push ⟨.pop, []⟩).draft.dropLast }
  refine ⟨dropped, ?_, ⟨?_, hadds.pending⟩, hstage⟩
  · change (branch (Stmt.compile (.expr value) >>= fun _ => pure ())).run before = _
    rw [branch_andThen]
    exact bind_succeeds.mpr ⟨(), _, exprStmt_run hrun, branch_pure_run _⟩
  · rw [← hadds.code]
    exact Code.toList_truncate (adds_push valued ⟨.pop, []⟩).code

theorem branchStmt_completes {stmt : Stmt} {rest : List Stmt} {stage middle finish : Stage}
    {offset : Nat} {code more : List Instruction} (hmore : stmt.isExpr = false ∨ rest ≠ [])
    (hstmt : Emits (.stmt stmt) stage offset code middle)
    (ihstmt : Completes (.stmt stmt) stage offset code middle)
    (ihrest : Completes (.branch rest) middle (offset + sizeAll code) more finish) :
    Completes (.branch (stmt :: rest)) stage offset (code ++ more) finish := by
  intro before stands _
  change Succeeds (branch (stmt.compile >>= fun _ => Stmt.compileAll rest)) before _ _
  rw [branch_andThen]
  apply (ihstmt before stands trivial).andThen
  intro between hrun hadds hmiddle
  apply ihrest between (stands.after hstmt hadds hmiddle)
  cases rest with
  | nil => exact (endsWith_stmt hrun).1.trans (hmore.resolve_right (by simp))
  | cons => trivial

theorem bodyValue_completes {value : Expr} {stage finish : Stage} {offset : Nat}
    {code : List Instruction} (ih : Completes (.expr value) stage offset code finish) :
    Completes (.body [.expr value]) stage offset (code ++ [⟨.returnValue, []⟩]) finish := by
  intro before stands _
  obtain ⟨valued, hrun, hadds, hstage⟩ := ih before stands trivial
  let popping : Compiler := valued.push ⟨.pop, []⟩
  let returning : Compiler :=
    { popping with draft := popping.draft.replaceLast .returnValue }
  refine ⟨returning, ?_, ⟨?_, hadds.pending⟩, hstage⟩
  · change (functionBody (Stmt.compile (.expr value) >>= fun _ => pure ())).run before = _
    rw [functionBody_andThen]
    exact bind_succeeds.mpr ⟨(), popping, exprStmt_run hrun, functionBody_pure_run _⟩
  · have hcode := Code.toList_overwrite popping.draft.code valued.draft.code.toList
      (encode ⟨.pop, []⟩) [] (encode ⟨.returnValue, []⟩)
      (by simpa using (adds_push valued ⟨.pop, []⟩).code) rfl
    rw [Array.length_toList, hadds.code] at hcode
    rw [encodeAll_append, ← List.append_assoc]
    exact hcode.trans (by simp)

theorem bodyReturn_completes {value : Expr} {stage finish : Stage} {offset : Nat}
    {code : List Instruction} (ih : Completes (.stmt (.ret value)) stage offset code finish) :
    Completes (.body [.ret value]) stage offset code finish := by
  intro before stands _
  obtain ⟨returning, hrun, hadds, hstage⟩ := ih before stands trivial
  have hends : returning.draft.endsWith .pop = false ∧
      returning.draft.endsWith .returnValue = true := by
    obtain ⟨middle, -, rfl, -, -⟩ := stmt_succeeds hrun
    exact ⟨rfl, rfl⟩
  refine ⟨returning, ?_, hadds, hstage⟩
  change (functionBody (Stmt.compile (.ret value) >>= fun _ => pure ())).run before = _
  rw [functionBody_andThen]
  refine bind_succeeds.mpr ⟨(), returning, hrun, ?_⟩
  rw [functionBody_pure_run, hends.1, hends.2]
  rfl

theorem bodyStmt_completes {stmt : Stmt} {rest : List Stmt} {stage middle finish : Stage}
    {offset : Nat} {code more : List Instruction}
    (hmore : (∃ name value, stmt = .bind name value) ∨ rest ≠ [])
    (hstmt : Emits (.stmt stmt) stage offset code middle)
    (ihstmt : Completes (.stmt stmt) stage offset code middle)
    (ihrest : Completes (.body rest) middle (offset + sizeAll code) more finish) :
    Completes (.body (stmt :: rest)) stage offset (code ++ more) finish := by
  intro before stands _
  change Succeeds (functionBody (stmt.compile >>= fun _ => Stmt.compileAll rest)) before _ _
  rw [functionBody_andThen]
  apply (ihstmt before stands trivial).andThen
  intro between hrun hadds hmiddle
  apply ihrest between (stands.after hstmt hadds hmiddle)
  cases rest with
  | nil =>
      have hbind := hmore.resolve_right (by simp)
      obtain ⟨hpop, hreturn⟩ := endsWith_stmt hrun
      obtain ⟨name, value, rfl⟩ := hbind
      exact ⟨hpop, hreturn ⟨name, value, rfl⟩⟩
  | cons => trivial

/-! Function literals. -/

theorem loadAll_run {symbols : List Symbol} (hfits : ∀ symbol ∈ symbols, symbol.load.Fits)
    (before : Compiler) :
    Succeeds (loadAll symbols) before (symbols.map Symbol.load) before.stage := by
  induction symbols generalizing before with
  | nil => exact ⟨before, rfl, adds_nil before, rfl⟩
  | cons symbol rest ih =>
      obtain ⟨hfirst, hrest⟩ := List.forall_mem_cons.mp hfits
      have hload : Succeeds (load symbol) before [symbol.load] before.stage :=
        ⟨_, load_succeeds.mpr ⟨hfirst, rfl⟩, adds_push _ _, rfl⟩
      apply hload.andThen
      intro between _ _ hbetween
      rw [← hbetween]
      exact ih hrest between

theorem function_run {name : Option String} {parameters : List String} {step : CompileM Unit}
    {before inner : Compiler} {outer : Scope} {draft : Draft} {drafts : List Draft}
    (hparameters : parameters.length ≤ maxParameters)
    (hbody : (functionBody step).run (entered before name parameters) = (.ok (), inner))
    (hleave : inner.scope.leave? = some outer) (hpending : inner.pending = draft :: drafts) :
    (function name parameters step).run before =
      (loadAll inner.scope.table.captures >>= fun _ => (do
        let index ← addConstant (.function
          ⟨inner.draft.code, inner.scope.table.definitions, parameters.length⟩)
        discard (emit .closure [index, inner.scope.table.captures.length]))).run
        { inner with scope := outer, draft, pending := drafts } := by
  have hleft : leaveFunction.run inner =
      (.ok inner.draft.code, { inner with scope := outer, draft, pending := drafts }) := by
    rw [leaveFunction, run_bind, run_get]
    simp only [hpending, hleave]
    rfl
  rw [function, if_neg (by omega)]
  refine (enter_run name parameters before _).trans ?_
  rw [run_bind, attempt_succeeds.mpr hbody]
  dsimp only
  rw [run_bind, run_get]
  dsimp only
  rw [run_bind, hleft]

theorem function_completes {name : Option String} {parameters : List String} {body : List Stmt}
    {stage inner : Stage} {outer : Scope} {offset : Nat} {instructions : List Instruction}
    {code : Code} (hparameters : parameters.length ≤ maxParameters)
    (hleave : inner.scope.leave? = some outer) (hcode : code.toList = encodeAll instructions)
    (hloads : ∀ symbol ∈ inner.scope.table.captures, symbol.load.Fits)
    (hfits : Fits ⟨.closure, [inner.constants.size, inner.scope.table.captures.length]⟩)
    (ih : Completes (.body body) ⟨stage.scope.entry name parameters, stage.constants⟩ 0
      instructions inner) :
    Completes (.expr (.function name parameters body)) stage offset
      (inner.scope.table.captures.map Symbol.load ++
        [⟨.closure, [inner.constants.size, inner.scope.table.captures.length]⟩])
      ⟨outer, inner.constants.push
        (.function ⟨code, inner.scope.table.definitions, parameters.length⟩)⟩ := by
  intro before stands _
  obtain ⟨⟨valid, hdepth⟩, rfl, rfl⟩ := stands
  obtain ⟨hentry, houter, -, -⟩ := entry_valid valid name parameters
  have hentered : Stands ⟨before.scope.entry name parameters, before.constants⟩ 0
      (entered before name parameters) :=
    ⟨⟨hentry, by simp [entered, houter, hdepth]⟩, rfl, rfl⟩
  have hfollows : (Part.body body).Follows (entered before name parameters).draft := by
    cases body with
    | nil => exact ⟨rfl, rfl⟩
    | cons => trivial
  obtain ⟨bodied, hrun, hadds, hinner⟩ := ih _ hentered hfollows
  subst hinner
  have hencoded : bodied.draft.code = code := by
    apply Array.toList_inj.mp
    rw [hcode, hadds.code]
    simp [entered, Draft.empty]
  let left : Compiler :=
    { bodied with scope := outer, draft := before.draft, pending := before.pending }
  have hstep := function_run hparameters hrun hleave hadds.pending
  change Succeeds (function name parameters (Stmt.compileAll body)) before _ _
  have hrest : Succeeds (loadAll bodied.scope.table.captures >>= fun _ => (do
      let index ← addConstant (.function
        ⟨bodied.draft.code, bodied.scope.table.definitions, parameters.length⟩)
      discard (emit .closure [index, bodied.scope.table.captures.length]))) left
      (bodied.scope.table.captures.map Symbol.load ++
        [⟨.closure, [bodied.constants.size, bodied.scope.table.captures.length]⟩])
      ⟨outer, bodied.constants.push
        (.function ⟨code, bodied.scope.table.definitions, parameters.length⟩)⟩ := by
    apply (loadAll_run hloads left).andThen
    intro between _ _ hbetween
    have hconstants : between.constants = bodied.constants := congrArg Stage.constants hbetween
    have hscope : between.scope = outer := congrArg Stage.scope hbetween
    let added : Compiler :=
      { between with
        constants := between.constants.push
          (.function ⟨code, bodied.scope.table.definitions, parameters.length⟩) }
    refine ⟨added.push ⟨.closure, [between.constants.size, bodied.scope.table.captures.length]⟩,
      ?_, ⟨?_, rfl⟩, ?_⟩
    · rw [hencoded]
      apply bind_succeeds.mpr
      refine ⟨_, added, rfl, (discard_emit_succeeds rfl).mpr ⟨?_, rfl⟩⟩
      rw [hconstants]
      exact hfits
    · rw [hconstants]
      exact (adds_push between _).code
    · rw [← hscope, ← hconstants]
      rfl
  obtain ⟨after, hrun', hadds', hfinish⟩ := hrest
  exact ⟨after, hstep.trans hrun', ⟨hadds'.code, hadds'.pending⟩, hfinish⟩

/-! All forms. -/

theorem pairs_completes {key value : Expr} {rest : List (Expr × Expr)}
    {stage first second finish : Stage} {offset : Nat}
    {keyCode valueCode restCode : List Instruction}
    (hkey : Emits (.expr key) stage offset keyCode first)
    (hvalue : Emits (.expr value) first (offset + sizeAll keyCode) valueCode second)
    (ihkey : Completes (.expr key) stage offset keyCode first)
    (ihvalue : Completes (.expr value) first (offset + sizeAll keyCode) valueCode second)
    (ihrest : Completes (.pairs rest) second (offset + sizeAll keyCode + sizeAll valueCode)
      restCode finish) :
    Completes (.pairs ((key, value) :: rest)) stage offset (keyCode ++ valueCode ++ restCode)
      finish := by
  intro before stands _
  have hstep : (Part.pairs ((key, value) :: rest)).step =
      (key.compile >>= fun _ => value.compile) >>= fun _ => (Part.pairs rest).step := rfl
  rw [hstep, bind_assoc, List.append_assoc]
  apply (ihkey before stands trivial).andThen
  intro keyed _ hadds hfirst
  have hkeyed := stands.after hkey hadds hfirst
  exact ihvalue.andThen hvalue ihrest hkeyed trivial fun _ => trivial

theorem binary_completes {op : BinaryOp} {opcode : Opcode} {left right : Expr}
    {stage middle finish : Stage} {offset : Nat} {leftCode rightCode : List Instruction}
    (hopcode : binaryOpcode? op = some opcode)
    (hleft : Emits (.expr left) stage offset leftCode middle)
    (ihleft : Completes (.expr left) stage offset leftCode middle)
    (ihright : Completes (.expr right) middle (offset + sizeAll leftCode) rightCode finish) :
    Completes (.expr (.binary op left right)) stage offset
      (leftCode ++ rightCode ++ [⟨opcode, []⟩]) finish := by
  intro before stands _
  have hless : op ≠ .less := by
    rintro rfl
    cases hopcode
  change Succeeds (binary op left.compile right.compile) before _ _
  rw [binary_eq hless, hopcode]
  exact ihleft.andThenEmit hleft ihright (fits_binaryOpcode hopcode) stands trivial
    fun _ => trivial

theorem Emits.completes {part : Part} {stage finish : Stage} {offset : Nat}
    {code : List Instruction} (emits : Emits part stage offset code finish) :
    Completes part stage offset code finish := by
  induction emits with
  | literal hconstant hfits => exact literal_completes hconstant hfits
  | @boolean value =>
      intro before stands _
      rw [← stands.stage]
      cases value <;> exact succeeds_emit (fits_nil rfl) before
  | ident hresolve hfits => exact ident_completes hresolve hfits
  | @unary op _ _ _ _ _ _ ih =>
      intro before stands _
      exact (ih before stands trivial).thenEmit (fits_unaryOpcode op)
  | binary hopcode hleft _ ihleft ihright => exact binary_completes hopcode hleft ihleft ihright
  | less hright _ ihright ihleft =>
      intro before stands _
      exact ihright.andThenEmit hright ihleft (fits_nil rfl) stands trivial fun _ => trivial
  | cond hcondition hconsequence hto halternative hend hfirst hsecond ihcondition ihconsequence
      ihalternative =>
      exact cond_completes hcondition hconsequence hto halternative hend hfirst hsecond ihcondition
        ihconsequence ihalternative
  | noAlternative =>
      intro before stands _
      rw [← stands.stage]
      exact succeeds_emit (fits_nil rfl) before
  | @alternative stmts _ _ _ _ _ ih =>
      intro before stands hfollows
      apply ih before stands
      cases stmts with
      | nil => exact hfollows
      | cons => trivial
  | array _ hfits ih =>
      intro before stands _
      exact (ih before stands trivial).thenEmit hfits
  | @hash pairs _ _ _ _ _ hfits ih =>
      intro before stands _
      change Succeeds (inOrder (Expr.inKeyOrder (Expr.compilePairs pairs)) >>= _) before _ _
      rw [compilePairs_eq, Expr.inKeyOrder_map]
      exact (ih before stands trivial).thenEmit hfits
  | index hcontainer _ ihcontainer ihindex =>
      intro before stands _
      exact ihcontainer.andThenEmit hcontainer ihindex (fits_nil rfl) stands trivial
        fun _ => trivial
  | function hparameters hbody hleave hcode hloads hfits ih =>
      exact function_completes hparameters hleave hcode hloads hfits ih
  | call hcallee _ hfits ihcallee iharguments =>
      intro before stands _
      exact ihcallee.andThenEmit hcallee iharguments hfits stands trivial fun _ => trivial
  | noExprs | noPairs | noStmts =>
      intro before stands _
      exact ⟨before, rfl, adds_nil before, stands.stage⟩
  | exprs hfirst _ ihfirst ihrest | stmts hfirst _ ihfirst ihrest =>
      intro before stands _
      exact ihfirst.andThen hfirst ihrest stands trivial fun _ => trivial
  | pairs hkey hvalue _ ihkey ihvalue ihrest =>
      exact pairs_completes hkey hvalue ihkey ihvalue ihrest
  | exprStmt _ ih =>
      intro before stands _
      exact (ih before stands trivial).thenEmit (fits_nil rfl)
  | bind _ hfits ih => exact bind_completes ih hfits
  | ret hinside _ ih => exact ret_completes hinside ih
  | emptyBranch =>
      intro before stands hends
      change before.draft.endsWith .pop = false at hends
      obtain ⟨after, hrun, hadds, hstage⟩ :=
        succeeds_emit (fits_nil (rfl : Opcode.pushNull.widths = [])) before
      refine ⟨after, ?_, hadds, hstage.trans stands.stage⟩
      rw [← hrun]
      exact (branch_pure_run before).trans (by rw [hends]; rfl)
  | branchValue _ ih => exact branchValue_completes ih
  | branchStmt hmore hstmt _ ihstmt ihrest => exact branchStmt_completes hmore hstmt ihstmt ihrest
  | emptyBody =>
      intro before stands hends
      obtain ⟨hpop, hreturn⟩ := hends
      obtain ⟨after, hrun, hadds, hstage⟩ :=
        succeeds_emit (fits_nil (rfl : Opcode.returnNull.widths = [])) before
      refine ⟨after, ?_, hadds, hstage.trans stands.stage⟩
      rw [← hrun]
      exact (functionBody_pure_run before).trans (by rw [hpop, hreturn]; rfl)
  | bodyValue _ ih => exact bodyValue_completes ih
  | bodyReturn _ ih => exact bodyReturn_completes ih
  | bodyStmt hmore hstmt _ ihstmt ihrest => exact bodyStmt_completes hmore hstmt ihstmt ihrest

end Compile

open Compile

theorem Compiler.add_completes {scope : Scope} {constants : Array Constant} {program : Program}
    {finish : Stage} {code : List Instruction} (valid : scope.Valid)
    (htop : scope.isTopLevel = true)
    (emits : Emits (.block program.statements) ⟨scope, constants⟩ 0 code finish) :
    ∃ compiler, (Compiler.resume scope constants).add program = (.ok (), compiler) ∧
      compiler.draft.code.toList = Instruction.encodeAll code ∧ compiler.stage = finish := by
  have stands : Stands ⟨scope, constants⟩ 0 (Compiler.resume scope constants) :=
    ⟨⟨valid, by rw [Compiler.resume, List.isEmpty_iff.mp htop]; rfl⟩, rfl, rfl⟩
  obtain ⟨compiler, hrun, hadds, hfinish⟩ := emits.completes _ stands trivial
  exact ⟨compiler, hrun, by simpa [Compiler.resume, Draft.empty] using hadds.code, hfinish⟩

end Stacklang
