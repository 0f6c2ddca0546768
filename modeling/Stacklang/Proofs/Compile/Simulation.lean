import Stacklang.Proofs.Compile.Flow

namespace Stacklang.Compile

open Machine Fallible Instruction

variable {pool : Array Constant} {home : Home} {call : Evaluate.Call}

/-! Evaluation in the order of the code. -/

theorem eval_binary {op : BinaryOp} {opcode : Opcode} (hopcode : binaryOpcode? op = some opcode)
    (left right : Expr) :
    (Expr.binary op left right).eval call =
      (do
        let l ← left.eval call
        let r ← right.eval call
        Evaluate.binary op l r) := by
  cases op <;> simp only [binaryOpcode?, reduceCtorEq] at hopcode <;> rw [Expr.eval] <;> simp

def evalOtherwise (call : Evaluate.Call) : Option (List Stmt) → EvalM Datum
  | none => return .null
  | some stmts => Stmt.evalBlock call stmts

def skipOtherwise : Option (List Stmt) → EvalM Unit
  | none => return
  | some stmts => Evaluate.skip stmts

theorem eval_cond (condition : Expr) (consequence : List Stmt) (alternative : Option (List Stmt)) :
    (Expr.cond condition consequence alternative).eval call =
      (do
        let value ← condition.eval call
        if value.isTruthy then
          let result ← Stmt.evalBlock call consequence
          skipOtherwise alternative
          return result
        else
          Evaluate.skip consequence
          evalOtherwise call alternative) := by
  cases alternative with
  | none =>
      rw [Expr.eval]
      simp only [skipOtherwise, evalOtherwise, pure_bind, bind_pure]
  | some stmts =>
      rw [Expr.eval]
      rfl

theorem evalPairs_eq (pairs : List (Expr × Expr)) :
    Expr.evalPairs call pairs =
      pairs.map fun pair => (pair.1.display, do
        let k ← pair.1.eval call
        let v ← pair.2.eval call
        return (k, v)) := by
  induction pairs with
  | nil => rw [Expr.evalPairs, List.map_nil]
  | cons pair rest ih => rw [Expr.evalPairs, ih, List.map_cons]

/-- The pairs are evaluated in the order of their keys' texts (`Expr.keyOrder_ascending`), and those
with the same text as they are written (`Expr.filter_keyOrder`). -/
theorem eval_hash (pairs : List (Expr × Expr)) :
    (Expr.hash pairs).eval call =
      (do
        let run ← Evaluate.inOrder (Expr.evalPairs call (Expr.keyOrder pairs))
        let entries ← Evaluate.lift (hashEntries [] run)
        return .hash (← Evaluate.newRef) entries) := by
  rw [Expr.eval, evalPairs_eq, Expr.inKeyOrder_map, ← evalPairs_eq]

theorem inOrder_evalPairs (key value : Expr) (rest : List (Expr × Expr)) :
    Evaluate.inOrder (Expr.evalPairs call ((key, value) :: rest)) =
      (do
        let k ← key.eval call
        let v ← value.eval call
        let values ← Evaluate.inOrder (Expr.evalPairs call rest)
        return k :: v :: values) := by
  rw [Expr.evalPairs, Evaluate.inOrder]
  simp only [bind_assoc, pure_bind]

theorem evalBlock_cons {stmt : Stmt} {rest : List Stmt} (hmore : stmt.isExpr = false ∨ rest ≠ []) :
    Stmt.evalBlock call (stmt :: rest) =
      (do
        let _ ← stmt.eval call
        Stmt.evalBlock call rest) := by
  rw [Stmt.evalBlock]
  · exact bind_map_left _ _ _
  · rintro value ⟨⟩ rfl
    simp [Stmt.isExpr] at hmore

def evalBody (call : Evaluate.Call) (stmts : List Stmt) : EvalM Empty := do
  let value ← Stmt.evalBlock call stmts
  throw (.returned value)

theorem evalAll_length {items : List Expr} {values : List Datum} {situation later : Situation}
    (hrun : (Expr.evalAll call items).run situation = (.ok values, later)) :
    values.length = items.length := by
  induction items generalizing values situation later with
  | nil =>
      rw [Expr.evalAll] at hrun
      cases hrun
      rfl
  | cons item rest ih =>
      rw [Expr.evalAll, bind_succeeds] at hrun
      obtain ⟨first, _, -, hrun⟩ := hrun
      rw [bind_succeeds] at hrun
      obtain ⟨others, _, hothers, hrun⟩ := hrun
      cases hrun
      rw [List.length_cons, List.length_cons, ih hothers]

theorem evalPairs_length {pairs : List (Expr × Expr)} {values : List Datum}
    {situation later : Situation}
    (hrun : (Evaluate.inOrder (Expr.evalPairs call pairs)).run situation = (.ok values, later)) :
    values.length = 2 * pairs.length := by
  induction pairs generalizing values situation later with
  | nil =>
      rw [Expr.evalPairs] at hrun
      cases hrun
      rfl
  | cons pair rest ih =>
      rw [inOrder_evalPairs, bind_succeeds] at hrun
      obtain ⟨key, _, -, hrun⟩ := hrun
      rw [bind_succeeds] at hrun
      obtain ⟨value, _, -, hrun⟩ := hrun
      rw [bind_succeeds] at hrun
      obtain ⟨others, _, hothers, hrun⟩ := hrun
      cases hrun
      rw [List.length_cons, List.length_cons, List.length_cons, ih hothers]
      omega

/-! Every part. -/

def CallSimulates (pool : Array Constant) (call : Evaluate.Call) : Prop :=
  ∀ home stage offset callee arguments, Fits ⟨.call, [arguments.length]⟩ →
    Simulates pool home (.of (callee :: arguments)) (call callee arguments) (fun value => .of [value])
      stage offset [⟨.call, [arguments.length]⟩] stage

/-- A stage in the code that has the given home: what is captured belongs to functions around. -/
structure Inside (home : Home) (stage : Stage) : Prop where
  valid : stage.scope.Valid
  charted : ∃ surveys, stage.scope.Charted surveys ∧
    ∀ name ∈ home.captures, Survey.anyBinds surveys.tail name = true

theorem Emits.inside {part : Part} {stage finish : Stage} {offset : Nat} {code : List Instruction}
    (emits : Emits part stage offset code finish) (inside : Inside home stage) :
    Inside home finish := by
  obtain ⟨surveys, hcharted, haround⟩ := inside.charted
  refine ⟨(emits.valid inside.valid).1, _, (emits.surveyed inside.valid).charted hcharted, ?_⟩
  cases surveys <;> exact haround

theorem Emits.houses {part : Part} {stage finish : Stage} {offset : Nat} {code : List Instruction}
    (emits : Emits part stage offset code finish) (inside : Inside home stage)
    (houses : Houses pool home finish) : Houses pool home stage :=
  houses.earlier (emits.valid inside.valid).2 emits.constants

def Part.Simulated (pool : Array Constant) (home : Home) (call : Evaluate.Call) (stage : Stage)
    (offset : Nat) (code : List Instruction) (finish : Stage) : Part → Prop
  | .expr value =>
      Simulates pool home (.of []) (value.eval call) (fun value => .of [value]) stage offset code
        finish
  | .exprs items =>
      Simulates pool home (.of []) (Expr.evalAll call items) .of stage offset code finish
  | .pairs entries =>
      Simulates pool home (.of []) (Evaluate.inOrder (Expr.evalPairs call entries)) .of stage offset
        code finish
  | .stmt statement =>
      Simulates pool home (.of []) (statement.eval call) (fun value => ⟨[], some value⟩) stage offset code
        finish
  | .block stmts => ∀ last,
      Simulates pool home ⟨[], some last⟩ (Evaluate.topLevel call last stmts)
        (fun value => ⟨[], some value⟩) stage offset code finish
  | .branch stmts =>
      Simulates pool home (.of []) (Stmt.evalBlock call stmts) (fun value => .of [value]) stage offset
        code finish
  | .otherwise alternative =>
      Simulates pool home (.of []) (evalOtherwise call alternative) (fun value => .of [value]) stage
        offset code finish
  | .body stmts => stage.scope.isTopLevel = false →
      Simulates pool home (.of []) (evalBody call stmts) Empty.elim stage offset code finish

theorem Simulates.ofPopped {α : Type} {step : EvalM α} {after : α → Top} {stage finish : Stage}
    {offset : Nat} {code : List Instruction} {data : List Datum}
    (hstep : Simulates pool home (.of data) step after stage offset code finish) (last : Datum) :
    Simulates pool home ⟨data, some last⟩ step after stage offset code finish :=
  hstep.weaken fun _ _ htop => Top.holds_of htop.1

theorem Simulates.operate {first second : EvalM Datum} {operate : Datum → Datum → EvalM Datum}
    {stage middle finish : Stage} {offset : Nat} {firstCode secondCode : List Instruction}
    {last : Instruction}
    (hfirst : Simulates pool home (.of []) first (fun value => .of [value]) stage offset firstCode
      middle)
    (hfirstFits : ∀ instruction ∈ firstCode, instruction.Fits)
    (hsecond : Simulates pool home (.of []) second (fun value => .of [value]) middle
      (offset + sizeAll firstCode) secondCode finish)
    (hsecondFits : ∀ instruction ∈ secondCode, instruction.Fits)
    (hlast : ∀ offset lower upper, Simulates pool home (.of [lower, upper]) (operate lower upper)
      (fun value => .of [value]) finish offset [last] finish) :
    Simulates pool home (.of [])
      (do
        let lower ← first
        let upper ← second
        operate lower upper)
      (fun value => .of [value]) stage offset (firstCode ++ secondCode ++ [last]) finish := by
  rw [List.append_assoc]
  refine hfirst.bind hfirstFits fun lower _ => ?_
  refine (hsecond.beneath [lower]).bind hsecondFits fun upper _ => ?_
  exact hlast _ lower upper

theorem simulates_constant {expr : Expr} {constant : Constant} {stage : Stage} {offset : Nat}
    (hconstant : expr.constant? = some constant) (hfits : Fits ⟨.constant, [stage.constants.size]⟩)
    (houses : Houses pool home ⟨stage.scope, stage.constants.push constant⟩) :
    Simulates pool home (.of []) (expr.eval call) (fun value => .of [value]) stage offset
      [⟨.constant, [stage.constants.size]⟩] ⟨stage.scope, stage.constants.push constant⟩ := by
  cases expr <;> simp only [Expr.constant?, reduceCtorEq, Option.some.injEq] at hconstant <;>
    subst hconstant <;> rw [Expr.eval]
  case integer n =>
    exact simulates_literal hfits houses (fun _ => rfl)
      fun _ => .integer n
  case string text =>
    exact simulates_literal hfits houses
      (fun _ => rfl) fun place => .string _ text

theorem simulates_skipOtherwise {data : List Datum} {alternative : Option (List Stmt)}
    {stage finish : Stage} {offset start : Nat} {code : List Instruction} (valid : stage.scope.Valid)
    (emits : Emits (.otherwise alternative) stage start code finish) :
    Simulates pool home (.of data) (skipOtherwise alternative) (fun _ => .of data) stage offset []
      finish := by
  cases emits with
  | noAlternative => exact simulates_pure () fun _ _ htop => htop
  | alternative hbranch =>
      exact simulates_skip valid (hbranch.valid valid).2 (hbranch.surveyed valid)

theorem simulates_cond {condition : Expr} {consequence : List Stmt}
    {alternative : Option (List Stmt)} {stage first second finish : Stage}
    {offset toAlternative toEnd : Nat}
    {conditionCode consequenceCode alternativeCode : List Instruction}
    (inside : Inside home stage)
    (hcondition : Emits (.expr condition) stage offset conditionCode first)
    (hconsequence : Emits (.branch consequence) first (offset + sizeAll conditionCode + 3)
      consequenceCode second)
    (hto : toAlternative = offset + sizeAll conditionCode + 3 + sizeAll consequenceCode + 3)
    (halternative : Emits (.otherwise alternative) second toAlternative alternativeCode finish)
    (hend : toEnd = toAlternative + sizeAll alternativeCode)
    (hfirst : Fits ⟨.jumpNotTruthy, [toAlternative]⟩) (hsecond : Fits ⟨.jump, [toEnd]⟩)
    (ihcondition : (Part.expr condition).Simulated pool home call stage offset conditionCode first)
    (ihconsequence : (Part.branch consequence).Simulated pool home call first
      (offset + sizeAll conditionCode + 3) consequenceCode second)
    (ihalternative : (Part.otherwise alternative).Simulated pool home call second toAlternative
      alternativeCode finish) :
    Simulates pool home (.of []) ((Expr.cond condition consequence alternative).eval call)
      (fun value => .of [value]) stage offset
      (conditionCode ++ ⟨.jumpNotTruthy, [toAlternative]⟩ ::
        (consequenceCode ++ ⟨.jump, [toEnd]⟩ :: alternativeCode)) finish := by
  have hinside := hcondition.inside inside
  have hvalid := (hconsequence.inside hinside).valid
  rw [eval_cond]
  refine ihcondition.bind hcondition.fits fun value _ => ?_
  have hsize : Instruction.size ⟨.jumpNotTruthy, [toAlternative]⟩ = 3 := rfl
  have hsize' : Instruction.size ⟨.jump, [toEnd]⟩ = 3 := rfl
  have hcode : consequenceCode ++ ⟨.jump, [toEnd]⟩ :: alternativeCode =
      (consequenceCode ++ [⟨.jump, [toEnd]⟩]) ++ alternativeCode := by simp
  rw [hcode]
  refine simulates_branch hfirst ?_ ?_ ?_ ?_
  · simpa [or_imp, forall_and] using ⟨hconsequence.fits, hsecond⟩
  · simp only [sizeAll_cons, sizeAll_append, sizeAll_nil, hsize, hsize']
    omega
  · rw [← hcode]
    refine Simulates.bind hconsequence.fits ihconsequence fun result _ => ?_
    refine Simulates.bind (by simp)
      (simulates_skipOtherwise hvalid halternative) fun _ _ => ?_
    refine simulates_jump hsecond result ?_ fun _ _ htop => htop
    simp only [sizeAll_cons, sizeAll_nil, hsize, hsize']
    omega
  · have hskip : Simulates pool home (.of []) (Evaluate.skip consequence) (fun _ => .of []) first
        toAlternative [] second :=
      simulates_skip hinside.valid (hconsequence.valid hinside.valid).2
        (hconsequence.surveyed hinside.valid)
    exact hskip.bind (by simp) fun _ _ => ihalternative

theorem Emits.simulates {part : Part} {stage finish : Stage} {offset : Nat}
    {code : List Instruction} (emits : Emits part stage offset code finish)
    (calls : CallSimulates pool call) (inside : Inside home stage)
    (houses : Houses pool home finish) :
    part.Simulated pool home call stage offset code finish := by
  induction emits with
  | literal hconstant hfits => exact simulates_constant hconstant hfits houses
  | @boolean value =>
      rw [Part.Simulated, Expr.eval]
      cases value with
      | true => exact simulates_push rfl (.boolean true) rfl
      | false => exact simulates_push rfl (.boolean false) rfl
  | ident hresolve hfits =>
      obtain ⟨surveys, hcharted, haround⟩ := inside.charted
      rw [Part.Simulated, Expr.eval]
      exact simulates_read inside.valid hcharted haround hresolve houses hfits
  | @unary op _ _ _ _ _ hoperand ih =>
      rw [Part.Simulated, Expr.eval]
      exact Simulates.bind hoperand.fits (ih inside houses) fun value _ => simulates_unary op value
  | binary hopcode hleft hright ihleft ihright =>
      have hmiddle := hleft.inside inside
      rw [Part.Simulated, eval_binary hopcode]
      exact Simulates.operate (ihleft inside (hright.houses hmiddle houses)) hleft.fits
        (ihright hmiddle houses) hright.fits fun _ => simulates_binary hopcode
  | less hright hleft ihright ihleft =>
      have hmiddle := hright.inside inside
      rw [Part.Simulated, Expr.eval]
      exact Simulates.operate (ihright inside (hleft.houses hmiddle houses)) hright.fits
        (ihleft hmiddle houses) hleft.fits fun _ => simulates_greater
  | cond hcondition hconsequence hto halternative hend hfirst hsecond ihcondition ihconsequence
      ihalternative =>
      have hmiddle := hcondition.inside inside
      have hlater := hconsequence.inside hmiddle
      have hhouses := halternative.houses hlater houses
      exact simulates_cond inside hcondition hconsequence hto halternative hend hfirst hsecond
        (ihcondition inside (hconsequence.houses hmiddle hhouses)) (ihconsequence hmiddle hhouses)
        (ihalternative hlater houses)
  | noAlternative => exact simulates_push rfl .null rfl
  | alternative _ ih => exact ih inside houses
  | array hitems hfits ih =>
      rw [Part.Simulated, Expr.eval]
      refine Simulates.bind hitems.fits (ih inside houses) ?_
      rintro values ⟨situation, later, hrun⟩
      rw [← evalAll_length hrun] at hfits ⊢
      exact simulates_array hfits
  | hash hpairs hfits ih =>
      rw [Part.Simulated, eval_hash]
      refine Simulates.bind hpairs.fits (ih inside houses) ?_
      rintro values ⟨situation, later, hrun⟩
      have hlength := evalPairs_length hrun
      rw [Expr.length_keyOrder] at hlength
      rw [← hlength] at hfits ⊢
      exact simulates_hash hfits
  | index hcontainer hindex ihcontainer ihindex =>
      have hmiddle := hcontainer.inside inside
      rw [Part.Simulated, Expr.eval]
      exact Simulates.operate (ihcontainer inside (hindex.houses hmiddle houses)) hcontainer.fits
        (ihindex hmiddle houses) hindex.fits fun _ => simulates_index
  | function _ hbody hleave hcode hloads hfits _ =>
      obtain ⟨surveys, hcharted, haround⟩ := inside.charted
      rw [Part.Simulated, Expr.eval]
      exact simulates_makeClosure inside.valid hcharted haround hbody hleave hcode hloads hfits houses
  | call hcallee harguments hfits ihcallee iharguments =>
      have hmiddle := hcallee.inside inside
      rw [Part.Simulated, Expr.eval, List.append_assoc]
      refine Simulates.bind hcallee.fits (ihcallee inside (harguments.houses hmiddle houses))
        fun callee _ => ?_
      refine Simulates.bind harguments.fits ((iharguments hmiddle houses).beneath [callee]) ?_
      rintro values ⟨situation, later, hrun⟩
      rw [← evalAll_length hrun] at hfits ⊢
      exact calls _ _ _ callee values hfits
  | noExprs =>
      rw [Part.Simulated, Expr.evalAll]
      exact simulates_pure [] fun _ _ htop => htop
  | exprs hexpr hrest ihexpr ihrest =>
      have hmiddle := hexpr.inside inside
      rw [Part.Simulated, Expr.evalAll]
      refine Simulates.bind hexpr.fits (ihexpr inside (hrest.houses hmiddle houses)) fun value _ => ?_
      exact ((ihrest hmiddle houses).beneath [value]).map hrest.fits (value :: ·)
        fun _ _ _ htop => htop
  | noPairs =>
      rw [Part.Simulated, Expr.evalPairs]
      exact simulates_pure [] fun _ _ htop => htop
  | pairs hkey hvalue hrest ihkey ihvalue ihrest =>
      have hmiddle := hkey.inside inside
      have hlater := hvalue.inside hmiddle
      have hhouses := hrest.houses hlater houses
      rw [Part.Simulated, inOrder_evalPairs, List.append_assoc]
      refine Simulates.bind hkey.fits (ihkey inside (hvalue.houses hmiddle hhouses)) fun k _ => ?_
      refine Simulates.bind hvalue.fits ((ihvalue hmiddle hhouses).beneath [k]) fun v _ => ?_
      exact ((ihrest hlater houses).beneath [k, v]).map hrest.fits (k :: v :: ·)
        fun _ _ _ htop => htop
  | exprStmt hvalue ih =>
      rw [Part.Simulated, Stmt.eval, ← bind_pure (Expr.eval call _)]
      exact Simulates.bind hvalue.fits (ih inside houses) fun value _ => simulates_pop value
  | bind hvalue hfits ih =>
      have hmiddle := hvalue.inside inside
      rw [Part.Simulated, Stmt.eval]
      refine Simulates.bind hvalue.fits (ih inside ?_) fun value _ => ?_
      · exact houses.earlier (Scope.grows_define _ _) (.refl _)
      · exact simulates_store hmiddle.valid houses hfits
  | ret hinside hvalue ih =>
      rw [Part.Simulated, Stmt.eval]
      refine Simulates.bind hvalue.fits (ih inside houses) fun value _ => ?_
      refine simulates_returnValue ?_ value
      rw [(hvalue.valid inside.valid).2.isTopLevel, hinside]
  | noStmts => exact fun last => simulates_pure last fun _ _ htop => htop
  | stmts hstmt hrest ihstmt ihrest =>
      have hmiddle := hstmt.inside inside
      intro last
      rw [Evaluate.topLevel]
      refine Simulates.bind hstmt.fits
        (Simulates.ofPopped (ihstmt inside (hrest.houses hmiddle houses)) last) fun value _ => ?_
      exact ihrest hmiddle houses value
  | emptyBranch =>
      rw [Part.Simulated, Stmt.evalBlock]
      exact simulates_push rfl .null rfl
  | branchValue _ ih =>
      rw [Part.Simulated, Stmt.evalBlock]
      exact ih inside houses
  | branchStmt hmore hstmt hrest ihstmt ihrest =>
      have hmiddle := hstmt.inside inside
      rw [Part.Simulated, evalBlock_cons hmore]
      refine Simulates.bind hstmt.fits (ihstmt inside (hrest.houses hmiddle houses)) fun value _ => ?_
      exact Simulates.ofPopped (ihrest hmiddle houses) value
  | emptyBody =>
      intro hinside
      rw [evalBody, Stmt.evalBlock, pure_bind]
      exact simulates_returnNull hinside
  | bodyValue hvalue ih =>
      intro hinside
      rw [evalBody, Stmt.evalBlock]
      refine Simulates.bind hvalue.fits (ih inside houses) fun value _ => ?_
      refine simulates_returnValue ?_ value
      rw [(hvalue.valid inside.valid).2.isTopLevel, hinside]
  | @bodyReturn _ _ _ _ code hreturn ih =>
      intro _
      rw [evalBody, evalBlock_cons (.inl rfl), bind_assoc, ← List.append_nil code]
      refine Simulates.bind hreturn.fits (ih inside houses) ?_
      rintro value ⟨situation, later, hrun⟩
      rw [Stmt.eval, bind_succeeds] at hrun
      obtain ⟨_, _, _, hthrow⟩ := hrun
      cases hthrow
  | bodyStmt hmore hstmt hrest ihstmt ihrest =>
      intro hinside
      have hmiddle := hstmt.inside inside
      rw [evalBody, evalBlock_cons, bind_assoc]
      · refine Simulates.bind hstmt.fits (ihstmt inside (hrest.houses hmiddle houses))
          fun value _ => ?_
        refine Simulates.ofPopped (ihrest hmiddle houses ?_) value
        rw [(hstmt.valid inside.valid).2.isTopLevel, hinside]
      · refine hmore.imp_left ?_
        rintro ⟨name, value, rfl⟩
        rfl

end Stacklang.Compile
