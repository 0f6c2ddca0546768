import Stacklang.Proofs.Compile.Emits
import Stacklang.Proofs.Fallible

namespace Stacklang

def Compiler.push (compiler : Compiler) (instruction : Instruction) : Compiler :=
  { compiler with draft := compiler.draft.push instruction }

namespace Compile
open Fallible Instruction

theorem misfit?_eq_none {op : Opcode} {position : Nat} {pairs : List (Nat × Width)} :
    misfit? op position pairs = none ↔ ∀ pair ∈ pairs, pair.1 ≤ pair.2.maximum := by
  induction pairs generalizing position with
  | nil => simp [misfit?]
  | cons pair rest ih =>
      obtain ⟨operand, width⟩ := pair
      by_cases hfits : operand > width.maximum
      · simp only [misfit?, if_pos hfits, List.mem_cons, forall_eq_or_imp]
        constructor
        · intro hsome
          cases hsome
        · intro hall
          exact absurd hall.1 (by omega)
      · simp only [misfit?, if_neg hfits, ih, List.mem_cons, forall_eq_or_imp]
        constructor
        · intro hall
          exact ⟨by omega, hall⟩
        · exact fun hall => hall.2

theorem checkOperands_succeeds {op : Opcode} {operands : List Nat} {before after : Compiler}
    {result : Unit} :
    (checkOperands op operands).run before = (.ok result, after) ↔
      (∀ pair ∈ operands.zip op.widths, pair.1 ≤ pair.2.maximum) ∧ before = after := by
  unfold checkOperands
  rw [← misfit?_eq_none]
  cases misfit? op 0 (operands.zip op.widths) with
  | some error =>
      constructor
      · intro h
        cases h
      · intro h
        cases h.1
  | none =>
      constructor
      · intro h
        cases h
        exact ⟨rfl, rfl⟩
      · rintro ⟨-, rfl⟩
        rfl

theorem emit_succeeds {op : Opcode} {operands : List Nat} {before after : Compiler} {offset : Nat}
    (hlength : operands.length = op.widths.length) :
    (emit op operands).run before = (.ok offset, after) ↔
      Fits ⟨op, operands⟩ ∧ offset = before.draft.code.size ∧
        after = before.push ⟨op, operands⟩ := by
  unfold emit
  simp only [bind_succeeds, checkOperands_succeeds]
  constructor
  · rintro ⟨_, _, ⟨hfits, rfl⟩, _, _, hhere, _, _, hpush, hpure⟩
    cases hhere
    cases hpush
    cases hpure
    exact ⟨⟨hlength, hfits⟩, rfl, rfl⟩
  · rintro ⟨⟨-, hfits⟩, rfl, rfl⟩
    exact ⟨(), before, ⟨hfits, rfl⟩, _, before, rfl, (), _, rfl, rfl⟩

theorem discard_emit_succeeds {op : Opcode} {operands : List Nat} {before after : Compiler}
    {result : Unit}
    (hlength : operands.length = op.widths.length) :
    (discard (emit op operands)).run before = (.ok result, after) ↔
      Fits ⟨op, operands⟩ ∧ after = before.push ⟨op, operands⟩ := by
  rw [discard_succeeds]
  simp only [emit_succeeds hlength]
  constructor
  · rintro ⟨_, hfits, -, rfl⟩
    exact ⟨hfits, rfl⟩
  · rintro ⟨hfits, rfl⟩
    exact ⟨_, hfits, rfl, rfl⟩

theorem load_succeeds {symbol : Symbol} {before after : Compiler} {result : Unit} :
    (load symbol).run before = (.ok result, after) ↔
      symbol.load.Fits ∧ after = before.push symbol.load := by
  unfold load Symbol.load
  cases symbol.place <;> exact discard_emit_succeeds rfl

structure Adds (code : List Instruction) (before after : Compiler) : Prop where
  code : after.draft.code.toList = before.draft.code.toList ++ encodeAll code
  pending : after.pending = before.pending

theorem Adds.trans {first second : List Instruction} {before middle after : Compiler}
    (hfirst : Adds first before middle) (hsecond : Adds second middle after) :
    Adds (first ++ second) before after :=
  ⟨by rw [hsecond.code, hfirst.code]; simp, hsecond.pending.trans hfirst.pending⟩

theorem Adds.offset {code : List Instruction} {before after : Compiler}
    (adds : Adds code before after) (hfits : ∀ instruction ∈ code, instruction.Fits) :
    after.draft.code.size = before.draft.code.size + sizeAll code := by
  rw [← Array.length_toList, adds.code, List.length_append, length_encodeAll hfits,
    Array.length_toList]

theorem adds_nil (compiler : Compiler) : Adds [] compiler compiler :=
  ⟨by simp, rfl⟩

theorem adds_push (compiler : Compiler) (instruction : Instruction) :
    Adds [instruction] compiler (compiler.push instruction) :=
  ⟨by simp [Compiler.push, Draft.push], rfl⟩

theorem loadAll_succeeds {symbols : List Symbol} {before after : Compiler} {result : Unit}
    (hrun : (loadAll symbols).run before = (.ok result, after)) :
    (∀ symbol ∈ symbols, symbol.load.Fits) ∧ Adds (symbols.map Symbol.load) before after ∧
      after.scope = before.scope ∧ after.constants = before.constants := by
  induction symbols generalizing before with
  | nil =>
      cases hrun
      exact ⟨by simp, ⟨by simp, rfl⟩, rfl, rfl⟩
  | cons symbol rest ih =>
      rw [loadAll, bind_succeeds] at hrun
      obtain ⟨_, middle, hload, hrest⟩ := hrun
      obtain ⟨hfits, rfl⟩ := load_succeeds.mp hload
      obtain ⟨hall, hadds, hscope, hconstants⟩ := ih hrest
      refine ⟨?_, (adds_push before symbol.load).trans hadds, hscope, hconstants⟩
      simpa using ⟨hfits, hall⟩

/-- The names in scope are valid, and there is a draft for each function around the point. -/
structure Balanced (compiler : Compiler) : Prop where
  valid : compiler.scope.Valid
  depth : compiler.pending.length = compiler.scope.outer.length

def Lays (part : Part) (before after : Compiler) : Prop :=
  ∃ code, Emits part ⟨before.scope, before.constants⟩ before.draft.code.size code
      ⟨after.scope, after.constants⟩ ∧
    Adds code before after

def Compiles (part : Part) (step : CompileM Unit) : Prop :=
  ∀ ⦃before after : Compiler⦄, Balanced before → step.run before = (.ok (), after) →
    Lays part before after

theorem Lays.balanced {part : Part} {before after : Compiler} (lays : Lays part before after)
    (balanced : Balanced before) : Balanced after := by
  obtain ⟨code, hemits, hadds⟩ := lays
  obtain ⟨hvalid, hgrows⟩ := hemits.valid balanced.valid
  refine ⟨hvalid, ?_⟩
  rw [hadds.pending, balanced.depth, hgrows.outer.length_eq]

theorem Balanced.push {compiler : Compiler} (balanced : Balanced compiler)
    (instruction : Instruction) : Balanced (compiler.push instruction) :=
  ⟨balanced.valid, balanced.depth⟩

theorem Lays.andThen {first second : Part} {before middle after : Compiler}
    (hfirst : Lays first before middle) (hsecond : Lays second middle after) :
    ∃ firstCode secondCode,
      Emits first ⟨before.scope, before.constants⟩ before.draft.code.size firstCode
        ⟨middle.scope, middle.constants⟩ ∧
      Emits second ⟨middle.scope, middle.constants⟩
        (before.draft.code.size + sizeAll firstCode) secondCode
        ⟨after.scope, after.constants⟩ ∧
      Adds (firstCode ++ secondCode) before after := by
  obtain ⟨firstCode, hemits, hadds⟩ := hfirst
  obtain ⟨secondCode, hemits', hadds'⟩ := hsecond
  rw [hadds.offset hemits.fits] at hemits'
  exact ⟨firstCode, secondCode, hemits, hemits', hadds.trans hadds'⟩

theorem Compiles.andThen {first second : Part} {firstStep secondStep : CompileM Unit}
    (hfirst : Compiles first firstStep) (hsecond : Compiles second secondStep)
    {before after : Compiler} (balanced : Balanced before)
    (hrun : (firstStep >>= fun _ => secondStep).run before = (.ok (), after)) :
    ∃ middle firstCode secondCode,
      Emits first ⟨before.scope, before.constants⟩ before.draft.code.size firstCode middle ∧
      Emits second middle (before.draft.code.size + sizeAll firstCode) secondCode
        ⟨after.scope, after.constants⟩ ∧
      Adds (firstCode ++ secondCode) before after := by
  rw [bind_succeeds] at hrun
  obtain ⟨_, middle, hstep, hstep'⟩ := hrun
  have hlays := hfirst balanced hstep
  exact ⟨_, hlays.andThen (hsecond (hlays.balanced balanced) hstep')⟩

theorem Compiles.thenEmit {part : Part} {step : CompileM Unit} {op : Opcode} {operands : List Nat}
    (hpart : Compiles part step) (hlength : operands.length = op.widths.length)
    {before after : Compiler} (balanced : Balanced before)
    (hrun : (step >>= fun _ => discard (emit op operands)).run before = (.ok (), after)) :
    ∃ code,
      Emits part ⟨before.scope, before.constants⟩ before.draft.code.size code
        ⟨after.scope, after.constants⟩ ∧
      Fits ⟨op, operands⟩ ∧ Adds (code ++ [⟨op, operands⟩]) before after := by
  rw [bind_succeeds] at hrun
  obtain ⟨_, middle, hstep, hemit⟩ := hrun
  obtain ⟨hfits, rfl⟩ := (discard_emit_succeeds hlength).mp hemit
  obtain ⟨code, hemits, hadds⟩ := hpart balanced hstep
  exact ⟨code, hemits, hfits, hadds.trans (adds_push _ _)⟩

theorem Compiles.andThenEmit {first second : Part} {firstStep secondStep : CompileM Unit}
    {op : Opcode} {operands : List Nat} (hfirst : Compiles first firstStep)
    (hsecond : Compiles second secondStep) (hlength : operands.length = op.widths.length)
    {before after : Compiler} (balanced : Balanced before)
    (hrun : (firstStep >>= fun _ => secondStep >>= fun _ => discard (emit op operands)).run before =
      (.ok (), after)) :
    ∃ middle firstCode secondCode,
      Emits first ⟨before.scope, before.constants⟩ before.draft.code.size firstCode middle ∧
      Emits second middle (before.draft.code.size + sizeAll firstCode) secondCode
        ⟨after.scope, after.constants⟩ ∧
      Fits ⟨op, operands⟩ ∧ Adds (firstCode ++ secondCode ++ [⟨op, operands⟩]) before after := by
  simp only [bind_succeeds] at hrun
  obtain ⟨_, middle, hstep, _, last, hstep', hemit⟩ := hrun
  obtain ⟨hfits, rfl⟩ := (discard_emit_succeeds hlength).mp hemit
  have hlays := hfirst balanced hstep
  obtain ⟨firstCode, secondCode, hemits, hemits', hadds⟩ :=
    hlays.andThen (hsecond (hlays.balanced balanced) hstep')
  exact ⟨_, firstCode, secondCode, hemits, hemits', hfits, hadds.trans (adds_push _ _)⟩

/-! Expressions. -/

theorem literal_compiles {expr : Expr} {constant : Constant}
    (hconstant : expr.constant? = some constant) :
    Compiles (.expr expr) (do
      let index ← addConstant constant
      discard (emit .constant [index])) := by
  intro before after _ hrun
  rw [bind_succeeds] at hrun
  obtain ⟨index, middle, hadd, hemit⟩ := hrun
  cases hadd
  obtain ⟨hfits, rfl⟩ := (discard_emit_succeeds rfl).mp hemit
  exact ⟨_, .literal hconstant hfits, by simp [Compiler.push, Draft.push], rfl⟩

theorem boolean_compiles (value : Bool) :
    Compiles (.expr (.boolean value))
      (discard (emit (if value then .pushTrue else .pushFalse))) := by
  intro before after _ hrun
  have hwidths : ([] : List Nat).length =
      (if value then Opcode.pushTrue else .pushFalse).widths.length := by
    cases value <;> rfl
  obtain ⟨-, rfl⟩ := (discard_emit_succeeds hwidths).mp hrun
  exact ⟨_, .boolean, adds_push _ _⟩

theorem resolve_succeeds {name : String} {before after : Compiler} {symbol : Symbol}
    (hrun : (resolve name).run before = (.ok symbol, after)) :
    ∃ scope, before.scope.resolve name = some (symbol, scope) ∧
      after = { before with scope } := by
  unfold resolve at hrun
  rw [bind_succeeds] at hrun
  obtain ⟨_, _, hget, hrest⟩ := hrun
  cases hget
  cases hresolve : before.scope.resolve name with
  | none =>
      rw [hresolve] at hrest
      cases hrest
  | some found =>
      obtain ⟨symbol', scope⟩ := found
      rw [hresolve] at hrest
      cases hrest
      exact ⟨scope, rfl, rfl⟩

theorem ident_compiles (name : String) :
    Compiles (.expr (.ident name)) (do
      let symbol ← resolve name
      load symbol) := by
  intro before after _ hrun
  rw [bind_succeeds] at hrun
  obtain ⟨symbol, middle, hresolve, hload⟩ := hrun
  obtain ⟨scope, hfound, rfl⟩ := resolve_succeeds hresolve
  obtain ⟨hfits, rfl⟩ := load_succeeds.mp hload
  exact ⟨_, .ident hfound hfits, (adds_push before symbol.load).code, rfl⟩

theorem binary_eq {op : BinaryOp} (hless : op ≠ .less) (left right : CompileM Unit) :
    binary op left right =
      match binaryOpcode? op with
      | none => throw (.unknownOperator op.symbol)
      | some opcode => left >>= fun _ => right >>= fun _ => discard (emit opcode) := by
  cases op <;> first | rfl | exact absurd rfl hless

theorem binary_compiles {left right : Expr} {leftStep rightStep : CompileM Unit} (op : BinaryOp)
    (hleft : Compiles (.expr left) leftStep) (hright : Compiles (.expr right) rightStep) :
    Compiles (.expr (.binary op left right)) (binary op leftStep rightStep) := by
  intro before after balanced hrun
  by_cases hless : op = .less
  · subst hless
    obtain ⟨_, _, _, hemits, hemits', -, hadds⟩ := hright.andThenEmit hleft rfl balanced hrun
    exact ⟨_, .less hemits hemits', hadds⟩
  · rw [binary_eq hless] at hrun
    cases hopcode : binaryOpcode? op with
    | none =>
        rw [hopcode] at hrun
        cases hrun
    | some opcode =>
        rw [hopcode] at hrun
        obtain ⟨_, _, _, hemits, hemits', -, hadds⟩ :=
          hleft.andThenEmit hright (fits_binaryOpcode hopcode).1 balanced hrun
        exact ⟨_, .binary hopcode hemits hemits', hadds⟩

/-! Branches and bodies. -/

/-- As `Compiles`, where the latest instruction before the part is not one that drops a value. -/
def CompilesBehind (part : Part) (step : CompileM Unit) : Prop :=
  ∀ ⦃before after : Compiler⦄, Balanced before → before.draft.endsWith .pop = false →
    step.run before = (.ok (), after) → Lays part before after

theorem endsWith_push (compiler : Compiler) (instruction : Instruction) (op : Opcode) :
    (compiler.push instruction).draft.endsWith op = (instruction.op == op) := rfl

theorem Adds.patch {op : Opcode} {old operand : Nat} {before middle after : Compiler}
    {code rest : List Instruction}
    (adds : Adds (code ++ ⟨op, [old]⟩ :: rest) before middle)
    (hword : op.widths = [.word]) (hfits : ∀ instruction ∈ code, instruction.Fits)
    (hrun : (patch (before.draft.code.size + sizeAll code) operand).run middle =
      (.ok (), after)) :
    Fits ⟨op, [operand]⟩ ∧ Adds (code ++ ⟨op, [operand]⟩ :: rest) before after ∧
      after.scope = middle.scope ∧ after.constants = middle.constants ∧
      after.draft.last? = middle.draft.last? := by
  have hlength : before.draft.code.size + sizeAll code =
      (before.draft.code.toList ++ encodeAll code).length := by
    rw [List.length_append, length_encodeAll hfits, Array.length_toList]
  have hcode : middle.draft.code.toList =
      (before.draft.code.toList ++ encodeAll code) ++
        (encode ⟨op, [old]⟩ ++ encodeAll rest) := by
    rw [adds.code]
    simp
  rw [hlength] at hrun
  have hbyte : middle.draft.code[(before.draft.code.toList ++ encodeAll code).length]? =
      some op.toByte := by
    rw [← Array.getElem?_toList, hcode, List.getElem?_append_right (Nat.le_refl _)]
    simp [encode_eq]
  unfold Compile.patch at hrun
  rw [bind_succeeds] at hrun
  obtain ⟨_, _, hget, hrest⟩ := hrun
  cases hget
  simp only [hbyte, Opcode.ofByte?_toByte] at hrest
  rw [bind_succeeds] at hrest
  obtain ⟨_, _, hcheck, hmodify⟩ := hrest
  obtain ⟨hoperand, rfl⟩ := checkOperands_succeeds.mp hcheck
  cases hmodify
  refine ⟨⟨by simp [hword], hoperand⟩, ⟨?_, adds.pending⟩, rfl, rfl, rfl⟩
  have hpatched := Code.toList_overwrite middle.draft.code _ (encode ⟨op, [old]⟩)
    (encodeAll rest) (encode ⟨op, [operand]⟩) hcode
    (by simp [encode_eq, operandBytes, hword])
  rw [hpatched]
  simp

theorem choose_compiles {condition : Expr} {consequence : List Stmt}
    {alternative : Option (List Stmt)}
    {conditionStep consequenceStep alternativeStep : CompileM Unit}
    (hcondition : Compiles (.expr condition) conditionStep)
    (hconsequence : CompilesBehind (.branch consequence) consequenceStep)
    (halternative : CompilesBehind (.otherwise alternative) alternativeStep) :
    Compiles (.expr (.cond condition consequence alternative))
      (choose conditionStep consequenceStep alternativeStep) := by
  intro before after balanced hrun
  simp only [choose, bind_succeeds] at hrun
  obtain ⟨_, first, hfirst, toAlternative, _, hjumpNot, _, second, hsecond, toEnd, _, hjump,
    _, _, hhere, _, patched, hpatch, _, third, hthird, _, _, hhere', hpatch'⟩ := hrun
  cases hhere
  cases hhere'
  obtain ⟨hfitsNot, rfl, rfl⟩ := (emit_succeeds rfl).mp hjumpNot
  obtain ⟨hfits, rfl, rfl⟩ := (emit_succeeds rfl).mp hjump
  have hfirstLays := hcondition balanced hfirst
  have hfirstBalanced := (hfirstLays.balanced balanced).push ⟨.jumpNotTruthy, [jumpPlaceholder]⟩
  have hsecondLays := hconsequence hfirstBalanced rfl hsecond
  have hsecondBalanced := (hsecondLays.balanced hfirstBalanced).push ⟨.jump, [jumpPlaceholder]⟩
  obtain ⟨conditionCode, hemits, hadds⟩ := hfirstLays
  obtain ⟨consequenceCode, hemits', hadds'⟩ := hsecondLays
  have haddsNot := hadds.trans (adds_push first ⟨.jumpNotTruthy, [jumpPlaceholder]⟩)
  have hoffset := hadds.offset hemits.fits
  have hoffsetNot : (first.push ⟨.jumpNotTruthy, [jumpPlaceholder]⟩).draft.code.size =
      before.draft.code.size + sizeAll conditionCode + 3 := by
    rw [(adds_push first ⟨.jumpNotTruthy, [jumpPlaceholder]⟩).offset (by simpa using hfitsNot),
      hoffset]
    rfl
  have hoffset' := hadds'.offset hemits'.fits
  have hoffsetJump : (second.push ⟨.jump, [jumpPlaceholder]⟩).draft.code.size =
      before.draft.code.size + sizeAll conditionCode + 3 + sizeAll consequenceCode + 3 := by
    rw [(adds_push second ⟨.jump, [jumpPlaceholder]⟩).offset (by simpa using hfits), hoffset',
      hoffsetNot]
    rfl
  have hboth : Adds (conditionCode ++ ⟨.jumpNotTruthy, [jumpPlaceholder]⟩ ::
      (consequenceCode ++ [⟨.jump, [jumpPlaceholder]⟩])) before
      (second.push ⟨.jump, [jumpPlaceholder]⟩) := by
    simpa using haddsNot.trans (hadds'.trans (adds_push second ⟨.jump, [jumpPlaceholder]⟩))
  rw [hoffset] at hpatch
  obtain ⟨hfitsTarget, haddsTarget, hscope, hconstants, hlast⟩ :=
    hboth.patch rfl hemits.fits hpatch
  have hpatchedSize : patched.draft.code.size =
      (second.push ⟨.jump, [jumpPlaceholder]⟩).draft.code.size := by
    rw [← Array.length_toList, haddsTarget.code, ← Array.length_toList, hboth.code]
    simp [encode_eq, operandBytes, Opcode.widths]
  have hpatchedBalanced : Balanced patched :=
    ⟨hscope ▸ hsecondBalanced.valid, by
      rw [haddsTarget.pending, hscope, ← hboth.pending, hsecondBalanced.depth]⟩
  have hends : patched.draft.endsWith .pop = false := by
    rw [Draft.endsWith, hlast]
    rfl
  obtain ⟨alternativeCode, hemits'', hadds''⟩ := halternative hpatchedBalanced hends hthird
  rw [hscope, hconstants, hpatchedSize] at hemits''
  have hall : Adds ((conditionCode ++ ⟨.jumpNotTruthy,
      [(second.push ⟨.jump, [jumpPlaceholder]⟩).draft.code.size]⟩ :: consequenceCode) ++
      ⟨.jump, [jumpPlaceholder]⟩ :: alternativeCode) before third := by
    simpa using haddsTarget.trans hadds''
  have hfitsBefore : ∀ instruction ∈ conditionCode ++ ⟨.jumpNotTruthy,
      [(second.push ⟨.jump, [jumpPlaceholder]⟩).draft.code.size]⟩ :: consequenceCode,
      instruction.Fits :=
    List.forall_mem_append.mpr
      ⟨hemits.fits, List.forall_mem_cons.mpr ⟨hfitsTarget, hemits'.fits⟩⟩
  have hthirdSize : third.draft.code.size =
      (second.push ⟨.jump, [jumpPlaceholder]⟩).draft.code.size + sizeAll alternativeCode := by
    rw [hadds''.offset hemits''.fits, hpatchedSize]
  have hat : second.draft.code.size = before.draft.code.size + sizeAll (conditionCode ++
      ⟨.jumpNotTruthy, [(second.push ⟨.jump, [jumpPlaceholder]⟩).draft.code.size]⟩ ::
        consequenceCode) := by
    rw [hoffset', hoffsetNot, sizeAll_jump rfl]
    omega
  rw [hat] at hpatch'
  obtain ⟨hfitsEnd, haddsEnd, hscope', hconstants', -⟩ := hall.patch rfl hfitsBefore hpatch'
  rw [hoffsetNot] at hemits'
  have hcode := Emits.cond hemits hemits' hoffsetJump hemits'' hthirdSize hfitsTarget hfitsEnd
  rw [← hscope', ← hconstants'] at hcode
  exact ⟨_, hcode, by simpa using haddsEnd⟩

theorem store_succeeds {symbol : Symbol} {before after : Compiler} {result : Unit} :
    (match symbol.place with
      | .global => discard (emit .setGlobal [symbol.index])
      | _ => discard (emit .setLocal [symbol.index])).run before = (.ok result, after) ↔
      symbol.store.Fits ∧ after = before.push symbol.store := by
  unfold Symbol.store
  cases symbol.place <;> exact discard_emit_succeeds rfl

def finishStmt : Stmt → Compiler → Compiler
  | .expr _, compiler => compiler.push ⟨.pop, []⟩
  | .ret _, compiler => compiler.push ⟨.returnValue, []⟩
  | .bind name _, compiler =>
      Compiler.push { compiler with scope := (compiler.scope.define name).2 }
        (compiler.scope.define name).1.store

theorem stmt_succeeds {stmt : Stmt} {before after : Compiler}
    (hrun : stmt.compile.run before = (.ok (), after)) :
    ∃ middle, stmt.value.compile.run before = (.ok (), middle) ∧ after = finishStmt stmt middle ∧
      (∀ name value, stmt = .bind name value → (middle.scope.define name).1.store.Fits) ∧
      (∀ value, stmt = .ret value → before.pending ≠ []) := by
  cases stmt with
  | expr value =>
      rw [Stmt.compile, bind_succeeds] at hrun
      obtain ⟨_, middle, hstep, hemit⟩ := hrun
      obtain ⟨-, rfl⟩ := (discard_emit_succeeds rfl).mp hemit
      exact ⟨middle, hstep, rfl, by simp, by simp⟩
  | bind name value =>
      simp only [Stmt.compile, bind_succeeds] at hrun
      obtain ⟨_, middle, hstep, symbol, later, hdefine, hemit⟩ := hrun
      obtain ⟨hfits, rfl⟩ := store_succeeds.mp hemit
      have hsymbol : symbol = (middle.scope.define name).1 ∧
          later = { middle with scope := (middle.scope.define name).2 } := by
        cases hdefine
        exact ⟨rfl, rfl⟩
      obtain ⟨rfl, rfl⟩ := hsymbol
      refine ⟨middle, hstep, rfl, ?_, by simp⟩
      rintro _ _ ⟨⟩
      exact hfits
  | ret value =>
      rw [Stmt.compile, bind_succeeds] at hrun
      obtain ⟨_, _, hget, hrest⟩ := hrun
      cases hget
      cases hpending : before.pending with
      | nil =>
          simp only [hpending, List.isEmpty_nil, if_true] at hrest
          cases hrest
      | cons draft drafts =>
          simp only [hpending, List.isEmpty_cons, Bool.false_eq_true, if_false,
            bind_succeeds] at hrest
          obtain ⟨_, middle, hstep, hemit⟩ := hrest
          obtain ⟨-, rfl⟩ := (discard_emit_succeeds rfl).mp hemit
          exact ⟨middle, hstep, rfl, by simp, by simp⟩

theorem stmt_compiles {stmt : Stmt} (hvalue : Compiles (.expr stmt.value) stmt.value.compile) :
    Compiles (.stmt stmt) stmt.compile := by
  intro before after balanced hrun
  obtain ⟨middle, hstep, rfl, hstore, hreturn⟩ := stmt_succeeds hrun
  obtain ⟨code, hemits, hadds⟩ := hvalue balanced hstep
  cases stmt with
  | expr value => exact ⟨_, .exprStmt hemits, hadds.trans (adds_push middle _)⟩
  | bind name value =>
      exact ⟨_, .bind hemits (hstore name value rfl), (hadds.trans (adds_push middle _)).code,
        hadds.pending⟩
  | ret value =>
      have hinside : before.scope.isTopLevel = false := by
        have hdepth := balanced.depth
        cases houter : before.scope.outer with
        | nil => simp_all
        | cons next rest => simp [Scope.isTopLevel, houter]
      exact ⟨_, .ret hinside hemits, hadds.trans (adds_push middle _)⟩

theorem branch_andThen (first rest : CompileM Unit) :
    branch (first >>= fun _ => rest) = first >>= fun _ => branch rest := by
  simp [branch]

theorem functionBody_andThen (first rest : CompileM Unit) :
    functionBody (first >>= fun _ => rest) = first >>= fun _ => functionBody rest := by
  simp [functionBody]

theorem lastIs_run (op : Opcode) (compiler : Compiler) :
    (lastIs op).run compiler = (.ok (compiler.draft.endsWith op), compiler) := rfl

theorem branch_pure_run (before : Compiler) :
    (branch (pure ())).run before =
      if before.draft.endsWith .pop then (.ok (), { before with draft := before.draft.dropLast })
      else (discard (emit .pushNull)).run before := by
  rw [branch, pure_bind, run_bind, lastIs_run]
  cases before.draft.endsWith .pop <;> rfl

theorem branch_pure_succeeds {before after : Compiler}
    (hrun : (branch (pure ())).run before = (.ok (), after)) :
    after = if before.draft.endsWith .pop then { before with draft := before.draft.dropLast }
      else before.push ⟨.pushNull, []⟩ := by
  rw [branch_pure_run] at hrun
  split at hrun
  next hends =>
    cases hrun
    rw [if_pos hends]
  next hends =>
    rw [if_neg hends]
    exact ((discard_emit_succeeds rfl).mp hrun).2

theorem branch_lays {stmts : List Stmt}
    (hvalues : ∀ stmt ∈ stmts, Compiles (.expr stmt.value) stmt.value.compile)
    {before after : Compiler} (balanced : Balanced before)
    (hends : stmts = [] → before.draft.endsWith .pop = false)
    (hrun : (branch (Stmt.compileAll stmts)).run before = (.ok (), after)) :
    Lays (.branch stmts) before after := by
  induction stmts generalizing before with
  | nil =>
      have := branch_pure_succeeds hrun
      rw [hends rfl] at this
      subst this
      exact ⟨_, .emptyBranch, adds_push _ _⟩
  | cons stmt rest ih =>
      rw [Stmt.compileAll, branch_andThen, bind_succeeds] at hrun
      obtain ⟨_, middle, hstmt, hrest⟩ := hrun
      have hvalue := hvalues stmt (by simp)
      by_cases hlast : stmt.isExpr = true ∧ rest = []
      · -- The last statement leaves its value, so the instruction that drops it goes.
        obtain ⟨hexpr, rfl⟩ := hlast
        cases stmt with
        | bind => cases hexpr
        | ret => cases hexpr
        | expr value =>
            obtain ⟨valued, hstep, rfl, -, -⟩ := stmt_succeeds hstmt
            have := branch_pure_succeeds hrest
            rw [finishStmt, endsWith_push] at this
            subst this
            obtain ⟨code, hemits, hadds⟩ := hvalue balanced hstep
            refine ⟨code, .branchValue hemits, ?_, hadds.pending⟩
            rw [← hadds.code]
            exact Code.toList_truncate (adds_push valued ⟨.pop, []⟩).code
      · have hlays := stmt_compiles hvalue balanced hstmt
        have hmore : stmt.isExpr = false ∨ rest ≠ [] := by
          by_cases hrest : rest = []
          · exact .inl (by simpa [hrest] using hlast)
          · exact .inr hrest
        have hmiddle : rest = [] → middle.draft.endsWith .pop = false := by
          rintro rfl
          obtain ⟨valued, -, rfl, -, -⟩ := stmt_succeeds hstmt
          cases stmt with
          | expr => simp [Stmt.isExpr] at hmore
          | ret => rfl
          | bind name value =>
              rw [finishStmt, endsWith_push, Symbol.store]
              cases (valued.scope.define name).1.place <;> rfl
        obtain ⟨_, _, hemits, hemits', hadds⟩ := hlays.andThen
          (ih (fun stmt member => hvalues stmt (by simp [member])) (hlays.balanced balanced)
            hmiddle hrest)
        exact ⟨_, .branchStmt hmore hemits hemits', hadds⟩

theorem endsWith_replaceLast {draft : Draft} {old new : Opcode}
    (hends : draft.endsWith old = true) : (draft.replaceLast new).endsWith new = true := by
  obtain ⟨code, last?, previous?⟩ := draft
  cases last? with
  | none => cases hends
  | some last => simp [Draft.replaceLast, Draft.endsWith]

theorem functionBody_pure_run (before : Compiler) :
    (functionBody (pure ())).run before =
      if before.draft.endsWith .pop then
        (.ok (), { before with draft := before.draft.replaceLast .returnValue })
      else if before.draft.endsWith .returnValue then (.ok (), before)
      else (discard (emit .returnNull)).run before := by
  rw [functionBody, pure_bind, run_bind, lastIs_run]
  dsimp only
  cases hends : before.draft.endsWith .pop with
  | true =>
      simp only [if_true]
      rw [run_bind]
      change (lastIs .returnValue >>= _).run
        { before with draft := before.draft.replaceLast .returnValue } = _
      rw [run_bind, lastIs_run, endsWith_replaceLast hends]
      rfl
  | false =>
      simp only [Bool.false_eq_true, if_false]
      rw [run_bind, lastIs_run]
      cases before.draft.endsWith .returnValue <;> rfl

theorem functionBody_pure_succeeds {before after : Compiler}
    (hrun : (functionBody (pure ())).run before = (.ok (), after)) :
    after =
      if before.draft.endsWith .pop then
        { before with draft := before.draft.replaceLast .returnValue }
      else if before.draft.endsWith .returnValue then before
      else before.push ⟨.returnNull, []⟩ := by
  rw [functionBody_pure_run] at hrun
  split at hrun
  next hends =>
    cases hrun
    rw [if_pos hends]
  next hends =>
    rw [if_neg hends]
    split at hrun
    next hreturns =>
      cases hrun
      rw [if_pos hreturns]
    next hreturns =>
      rw [if_neg hreturns]
      exact ((discard_emit_succeeds rfl).mp hrun).2

theorem functionBody_lays {stmts : List Stmt}
    (hvalues : ∀ stmt ∈ stmts, Compiles (.expr stmt.value) stmt.value.compile)
    {before after : Compiler} (balanced : Balanced before)
    (hends : stmts = [] → before.draft.endsWith .pop = false ∧
      before.draft.endsWith .returnValue = false)
    (hrun : (functionBody (Stmt.compileAll stmts)).run before = (.ok (), after)) :
    Lays (.body stmts) before after := by
  induction stmts generalizing before with
  | nil =>
      have := functionBody_pure_succeeds hrun
      rw [(hends rfl).1, (hends rfl).2] at this
      subst this
      exact ⟨_, .emptyBody, adds_push _ _⟩
  | cons stmt rest ih =>
      rw [Stmt.compileAll, functionBody_andThen, bind_succeeds] at hrun
      obtain ⟨_, middle, hstmt, hrest⟩ := hrun
      have hvalue := hvalues stmt (by simp)
      have hlays := stmt_compiles hvalue balanced hstmt
      by_cases hlast : rest = [] ∧ ∀ name value, stmt ≠ .bind name value
      · obtain ⟨rfl, hbind⟩ := hlast
        obtain ⟨valued, hstep, rfl, -, -⟩ := stmt_succeeds hstmt
        have := functionBody_pure_succeeds hrest
        cases stmt with
        | bind name value => exact absurd rfl (hbind name value)
        | ret value =>
            rw [finishStmt, endsWith_push, endsWith_push] at this
            subst this
            obtain ⟨code, hemits, hadds⟩ := hlays
            exact ⟨code, .bodyReturn hemits, hadds⟩
        | expr value =>
            rw [finishStmt, endsWith_push] at this
            subst this
            obtain ⟨code, hemits, hadds⟩ := hvalue balanced hstep
            refine ⟨_, .bodyValue hemits, ?_, hadds.pending⟩
            have hcode := Code.toList_overwrite (valued.push ⟨.pop, []⟩).draft.code
              valued.draft.code.toList (encode ⟨.pop, []⟩) [] (encode ⟨.returnValue, []⟩)
              (by simpa using (adds_push valued ⟨.pop, []⟩).code) rfl
            rw [Array.length_toList, hadds.code] at hcode
            refine hcode.trans ?_
            simp
      · have hmore : (∃ name value, stmt = .bind name value) ∨ rest ≠ [] := by
          by_cases hrest : rest = []
          · left
            by_contra hnot
            exact hlast ⟨hrest, fun name value heq => hnot ⟨name, value, heq⟩⟩
          · exact .inr hrest
        have hmiddle : rest = [] → middle.draft.endsWith .pop = false ∧
            middle.draft.endsWith .returnValue = false := by
          rintro rfl
          obtain ⟨valued, -, rfl, -, -⟩ := stmt_succeeds hstmt
          obtain ⟨name, value, rfl⟩ := hmore.resolve_right (by simp)
          rw [finishStmt, endsWith_push, endsWith_push, Symbol.store]
          cases (valued.scope.define name).1.place <;> exact ⟨rfl, rfl⟩
        obtain ⟨_, _, hemits, hemits', hadds⟩ := hlays.andThen
          (ih (fun stmt member => hvalues stmt (by simp [member])) (hlays.balanced balanced)
            hmiddle hrest)
        exact ⟨_, .bodyStmt hmore hemits hemits', hadds⟩

theorem defineAll_run (names : List String) (before : Compiler) :
    (defineAll names).run before =
      (.ok (), { before with
        scope := names.foldl (fun scope name => (scope.define name).2) before.scope }) := by
  induction names generalizing before with
  | nil => rfl
  | cons name rest ih =>
      rw [defineAll, run_bind]
      exact ih { before with scope := (before.scope.define name).2 }

theorem attempt_succeeds {step : CompileM Unit} {before after : Compiler}
    {outcome : Except CompileError Unit} :
    (attempt step).run before = (.ok outcome, after) ↔ step.run before = (outcome, after) := by
  have hrun : (attempt step).run before =
      (.ok (step.run before).1, (step.run before).2) := rfl
  rw [hrun]
  cases step.run before with
  | mk result later =>
      constructor
      · intro heq
        cases heq
        rfl
      · intro heq
        cases heq
        rfl

def entered (compiler : Compiler) (name : Option String) (parameters : List String) : Compiler :=
  { constants := compiler.constants
    scope := compiler.scope.entry name parameters
    draft := .empty
    pending := compiler.draft :: compiler.pending }

theorem enter_run {α : Type} (name : Option String) (parameters : List String) (before : Compiler)
    (next : CompileM α) :
    (do
      enterFunction
      if let some name := name then defineSelf name
      defineAll parameters
      next).run before = next.run (entered before name parameters) := by
  cases name with
  | none =>
      rw [run_bind]
      change (defineAll parameters >>= fun _ => next).run _ = _
      rw [run_bind, defineAll_run]
      rfl
  | some name =>
      rw [run_bind]
      change (defineSelf name >>= fun _ => defineAll parameters >>= fun _ => next).run _ = _
      rw [run_bind]
      change (defineAll parameters >>= fun _ => next).run _ = _
      rw [run_bind, defineAll_run]
      rfl

theorem function_succeeds {name : Option String} {parameters : List String}
    {step : CompileM Unit} {before after : Compiler}
    (hrun : (function name parameters step).run before = (.ok (), after)) :
    parameters.length ≤ maxParameters ∧ ∃ inner outer draft drafts,
      (functionBody step).run (entered before name parameters) = (.ok (), inner) ∧
      inner.scope.leave? = some outer ∧ inner.pending = draft :: drafts ∧
      (do
        loadAll inner.scope.table.captures
        let index ← addConstant (.function
          ⟨inner.draft.code, inner.scope.table.definitions, parameters.length⟩)
        discard (emit .closure [index, inner.scope.table.captures.length])).run
        { inner with scope := outer, draft, pending := drafts } = (.ok (), after) := by
  unfold function at hrun
  by_cases hparameters : parameters.length > maxParameters
  · simp only [hparameters, if_true] at hrun
    cases hrun
  · refine ⟨by omega, ?_⟩
    rw [if_neg hparameters] at hrun
    have hbody := (enter_run name parameters before _).symm.trans hrun
    simp only [bind_succeeds] at hbody
    obtain ⟨outcome, inner, hattempt, _, _, hget, code, later, hleave, hrest⟩ := hbody
    cases hget
    have hinner := attempt_succeeds.mp hattempt
    simp only [leaveFunction, bind_succeeds] at hleave
    obtain ⟨_, _, hget, hleave⟩ := hleave
    cases hget
    cases hpending : inner.pending with
    | nil =>
        simp only [hpending] at hleave
        cases hleave
    | cons draft drafts =>
        cases hscope : inner.scope.leave? with
        | none =>
            simp only [hpending, hscope] at hleave
            cases hleave
        | some outer =>
            simp only [hpending, hscope] at hleave
            cases hleave
            cases outcome with
            | error error => cases hrest
            | ok => exact ⟨inner, outer, draft, drafts, hinner, hscope, hpending, hrest⟩

theorem function_compiles (name : Option String) (parameters : List String) {body : List Stmt}
    (hvalues : ∀ stmt ∈ body, Compiles (.expr stmt.value) stmt.value.compile) :
    Compiles (.expr (.function name parameters body))
      (function name parameters (Stmt.compileAll body)) := by
  intro before after balanced hrun
  obtain ⟨hparameters, inner, outer, draft, drafts, hbody, hleave, hpending, hrest⟩ :=
    function_succeeds hrun
  obtain ⟨hentry, houter, -, -⟩ := entry_valid balanced.valid name parameters
  have hentered : Balanced (entered before name parameters) :=
    ⟨hentry, by simp [entered, houter, balanced.depth]⟩
  obtain ⟨code, hemits, hadds⟩ :=
    functionBody_lays hvalues hentered (fun _ => ⟨rfl, rfl⟩) hbody
  have hdrafts : draft = before.draft ∧ drafts = before.pending := by
    have := hadds.pending
    rw [hpending] at this
    exact List.cons.inj this
  obtain ⟨rfl, rfl⟩ := hdrafts
  rw [bind_succeeds] at hrest
  obtain ⟨_, loaded, hloads, hrest⟩ := hrest
  rw [bind_succeeds] at hrest
  obtain ⟨index, _, hconstant, hclosure⟩ := hrest
  obtain ⟨hfits, haddsLoads, hscope, hconstants⟩ := loadAll_succeeds hloads
  cases hconstant
  obtain ⟨hfitsClosure, rfl⟩ := (discard_emit_succeeds rfl).mp hclosure
  rw [hconstants] at hfitsClosure
  have hencoded : inner.draft.code.toList = encodeAll code := by
    simpa [entered, Draft.empty] using hadds.code
  have hcode : Emits (.expr (.function name parameters body)) ⟨before.scope, before.constants⟩
      before.draft.code.size _ _ :=
    .function hparameters hemits hleave hencoded hfits hfitsClosure
  simp only at hscope hconstants
  refine ⟨_, by simpa only [Compiler.push, hscope, hconstants] using hcode, ?_,
    haddsLoads.pending⟩
  simp [Compiler.push, Draft.push, haddsLoads.code, hconstants]

/-! Whole programs. -/

theorem exprs_compiles {expr : Expr} {rest : List Expr} (hexpr : Compiles (.expr expr) expr.compile)
    (hrest : Compiles (.exprs rest) (Expr.compileAll rest)) :
    Compiles (.exprs (expr :: rest)) (Expr.compileAll (expr :: rest)) := by
  intro before after balanced hrun
  obtain ⟨_, _, _, hemits, hemits', hadds⟩ := hexpr.andThen hrest balanced hrun
  exact ⟨_, .exprs hemits hemits', hadds⟩

theorem inOrder_compiles (pairs : List (Expr × Expr))
    (hpairs : ∀ pair ∈ pairs, Compiles (.expr pair.1) pair.1.compile ∧
      Compiles (.expr pair.2) pair.2.compile) :
    Compiles (.pairs pairs) (inOrder (pairs.map fun pair =>
      (pair.1.display, pair.1.compile >>= fun _ => pair.2.compile))) := by
  induction pairs with
  | nil =>
      intro before after _ hrun
      cases hrun
      exact ⟨[], .noPairs, adds_nil _⟩
  | cons pair rest ih =>
      intro before after balanced hrun
      obtain ⟨key, value⟩ := pair
      obtain ⟨hkey, hvalue⟩ := hpairs (key, value) (by simp)
      rw [List.map_cons, inOrder] at hrun
      simp only [bind_succeeds] at hrun
      obtain ⟨_, second, ⟨_, first, hfirst, hsecond⟩, hrest⟩ := hrun
      have hkeyLays := hkey balanced hfirst
      have hfirstBalanced := hkeyLays.balanced balanced
      have hvalueLays := hvalue hfirstBalanced hsecond
      have hrestLays := ih (fun pair member => hpairs pair (by simp [member]))
        (hvalueLays.balanced hfirstBalanced) hrest
      obtain ⟨keyCode, hemits, hadds⟩ := hkeyLays
      obtain ⟨valueCode, restCode, hemits', hemits'', hadds'⟩ := hvalueLays.andThen hrestLays
      rw [hadds.offset hemits.fits] at hemits' hemits''
      exact ⟨_, .pairs hemits hemits' hemits'', by simpa using hadds.trans hadds'⟩

theorem stmts_compiles {stmts : List Stmt}
    (hvalues : ∀ stmt ∈ stmts, Compiles (.expr stmt.value) stmt.value.compile) :
    Compiles (.block stmts) (Stmt.compileAll stmts) := by
  induction stmts with
  | nil =>
      intro before after _ hrun
      cases hrun
      exact ⟨[], .noStmts, adds_nil _⟩
  | cons stmt rest ih =>
      intro before after balanced hrun
      obtain ⟨_, _, _, hemits, hemits', hadds⟩ :=
        (stmt_compiles (hvalues stmt (by simp))).andThen
          (ih fun stmt member => hvalues stmt (by simp [member])) balanced hrun
      exact ⟨_, .stmts hemits hemits', hadds⟩

theorem compilePairs_eq (pairs : List (Expr × Expr)) :
    Expr.compilePairs pairs = pairs.map fun pair =>
      (pair.1.display, pair.1.compile >>= fun _ => pair.2.compile) := by
  induction pairs with
  | nil => rfl
  | cons pair rest ih => rw [List.map_cons, ← ih]; rfl

end Compile

open Compile

mutual

theorem Expr.compiles : ∀ expr : Expr, Compiles (.expr expr) expr.compile
  | .integer value => literal_compiles rfl
  | .string text => literal_compiles rfl
  | .boolean true => boolean_compiles true
  | .boolean false => boolean_compiles false
  | .ident name => ident_compiles name
  | .unary op operand => by
      intro before after balanced hrun
      obtain ⟨_, hemits, -, hadds⟩ :=
        operand.compiles.thenEmit (fits_unaryOpcode op).1 balanced hrun
      exact ⟨_, .unary hemits, hadds⟩
  | .binary op left right => binary_compiles op left.compiles right.compiles
  | .cond condition consequence none => by
      refine choose_compiles condition.compiles ?_ ?_
      · intro before after balanced hends hrun
        exact branch_lays (Stmt.compiles consequence) balanced (fun _ => hends) hrun
      · intro before after _ _ hrun
        obtain ⟨-, rfl⟩ := (discard_emit_succeeds rfl).mp hrun
        exact ⟨_, .noAlternative, adds_push _ _⟩
  | .cond condition consequence (some alternative) => by
      refine choose_compiles condition.compiles ?_ ?_
      · intro before after balanced hends hrun
        exact branch_lays (Stmt.compiles consequence) balanced (fun _ => hends) hrun
      · intro before after balanced hends hrun
        obtain ⟨_, hemits, hadds⟩ :=
          branch_lays (Stmt.compiles alternative) balanced (fun _ => hends) hrun
        exact ⟨_, .alternative hemits, hadds⟩
  | .array items => by
      intro before after balanced hrun
      obtain ⟨_, hemits, hfits, hadds⟩ := (Expr.allCompile items).thenEmit rfl balanced hrun
      exact ⟨_, .array hemits hfits, hadds⟩
  | .hash pairs => by
      intro before after balanced hrun
      rw [Expr.compile, compilePairs_eq, Expr.inKeyOrder_map] at hrun
      have hpairs := inOrder_compiles (Expr.keyOrder pairs) fun pair member =>
        Expr.pairsCompile pairs pair (List.mem_mergeSort.mp member)
      obtain ⟨_, hemits, hfits, hadds⟩ := hpairs.thenEmit rfl balanced hrun
      exact ⟨_, .hash hemits hfits, hadds⟩
  | .index container index => by
      intro before after balanced hrun
      obtain ⟨_, _, _, hemits, hemits', -, hadds⟩ :=
        container.compiles.andThenEmit index.compiles rfl balanced hrun
      exact ⟨_, .index hemits hemits', hadds⟩
  | .function name parameters body => function_compiles name parameters (Stmt.compiles body)
  | .call callee arguments => by
      intro before after balanced hrun
      obtain ⟨_, _, _, hemits, hemits', hfits, hadds⟩ :=
        callee.compiles.andThenEmit (Expr.allCompile arguments) rfl balanced hrun
      exact ⟨_, .call hemits hemits' hfits, hadds⟩

theorem Expr.allCompile : ∀ exprs : List Expr, Compiles (.exprs exprs) (Expr.compileAll exprs)
  | [] => by
      intro before after _ hrun
      cases hrun
      exact ⟨[], .noExprs, adds_nil _⟩
  | expr :: rest => exprs_compiles expr.compiles (Expr.allCompile rest)

theorem Expr.pairsCompile : ∀ pairs : List (Expr × Expr), ∀ pair ∈ pairs,
    Compiles (.expr pair.1) pair.1.compile ∧ Compiles (.expr pair.2) pair.2.compile
  | [], _, member => absurd member (by simp)
  | (key, value) :: rest, pair, member => by
      rw [List.mem_cons] at member
      rcases member with rfl | member
      · exact ⟨key.compiles, value.compiles⟩
      · exact Expr.pairsCompile rest pair member

theorem Stmt.compiles : ∀ stmts : List Stmt, ∀ stmt ∈ stmts,
    Compiles (.expr stmt.value) stmt.value.compile
  | [], _, member => absurd member (by simp)
  | .bind name value :: rest, stmt, member => by
      rw [List.mem_cons] at member
      rcases member with rfl | member
      · exact value.compiles
      · exact Stmt.compiles rest stmt member
  | .ret value :: rest, stmt, member => by
      rw [List.mem_cons] at member
      rcases member with rfl | member
      · exact value.compiles
      · exact Stmt.compiles rest stmt member
  | .expr value :: rest, stmt, member => by
      rw [List.mem_cons] at member
      rcases member with rfl | member
      · exact value.compiles
      · exact Stmt.compiles rest stmt member

end

theorem Compiler.add_succeeds {scope : Scope} {constants : Array Constant} {program : Program}
    {compiler : Compiler} (valid : scope.Valid) (htop : scope.isTopLevel = true)
    (hadd : (Compiler.resume scope constants).add program = (.ok (), compiler)) :
    ∃ code, Emits (.block program.statements) ⟨scope, constants⟩ 0 code
        ⟨compiler.scope, compiler.constants⟩ ∧
      compiler.draft.code.toList = Instruction.encodeAll code := by
  have balanced : Balanced (Compiler.resume scope constants) :=
    ⟨valid, by rw [Compiler.resume, List.isEmpty_iff.mp htop]; rfl⟩
  obtain ⟨code, hemits, hadds⟩ :=
    stmts_compiles (Stmt.compiles program.statements) balanced hadd
  exact ⟨code, hemits, by simpa [Compiler.resume, Draft.empty] using hadds.code⟩

end Stacklang
