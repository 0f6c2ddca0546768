import Stacklang.Proofs.Compile.Completion
import Stacklang.Proofs.Scope.Becomes

namespace Stacklang

def CompileError.Exceeds (error : CompileError) : Prop :=
  ∃ resource value maximum, error = .outOfRange resource value maximum

namespace Compile

open Fallible Instruction

/-! The single steps, with both outcomes. -/

variable {α β : Type}

theorem misfit?_exceeds {op : Opcode} {position : Nat} {operands : List (Nat × Width)}
    {error : CompileError} (hmisfit : misfit? op position operands = some error) :
    error.Exceeds := by
  induction operands generalizing position with
  | nil => cases hmisfit
  | cons operand rest ih =>
      rw [misfit?] at hmisfit
      split at hmisfit
      · cases hmisfit
        exact ⟨_, _, _, rfl⟩
      · exact ih hmisfit

theorem checkOperands_meets (op : Opcode) (operands : List Nat) (before : Compiler) :
    Meets (checkOperands op operands) before (fun _ after => after = before)
      (fun error after => error.Exceeds ∧ after = before) := by
  unfold checkOperands
  cases hmisfit : misfit? op 0 (operands.zip op.widths) with
  | none => exact rfl
  | some error => exact ⟨misfit?_exceeds hmisfit, rfl⟩

theorem emit_meets (op : Opcode) (operands : List Nat) (before : Compiler) :
    Meets (emit op operands) before
      (fun offset after => offset = before.draft.code.size ∧ after = before.push ⟨op, operands⟩)
      (fun error after => error.Exceeds ∧ after = before) := by
  unfold emit
  apply (checkOperands_meets op operands before).andThen
  · intro _ after hafter
    subst hafter
    exact ⟨rfl, rfl⟩
  · exact fun _ _ hbad => hbad

theorem patch_meets {op : Opcode} {offset operand : Nat} {before : Compiler}
    (hbyte : before.draft.code[offset]? = some op.toByte) :
    Meets (patch offset operand) before
      (fun _ after => after = { before with draft := { before.draft with
        code := before.draft.code.overwrite offset (encode ⟨op, [operand]⟩) } })
      (fun error after => error.Exceeds ∧ after = before) := by
  unfold Meets
  rw [patch, run_bind, run_get]
  simp only [hbyte, Opcode.ofByte?_toByte]
  apply (checkOperands_meets op [operand] before).andThen
  · intro _ after hafter
    subst hafter
    rfl
  · exact fun _ _ hbad => hbad

/-! What every outcome keeps. -/

/-- What was there before is still there, and nothing but the names has been bound; the latest of
them comes first. -/
structure Keeps (names : List String) (before after : Compiler) : Prop where
  pending : after.pending = before.pending
  scope : before.scope.Becomes names after.scope
  constants : before.constants.toList <+: after.constants.toList
  code : before.draft.code.toList <+: after.draft.code.toList

def Leaves (names : List String) (before after : Compiler) : Prop :=
  ∃ bound, bound <:+ names ∧ Keeps bound before after

/-- Whatever the step comes to from here, it keeps what was there. -/
def KeepsFrom (before : Compiler) (step : CompileM α) (names : List String) : Prop :=
  Meets step before (fun _ after => Keeps names before after)
    (fun _ after => Leaves names before after)

def Keeping (step : CompileM α) (names : List String) : Prop :=
  ∀ before, KeepsFrom before step names

theorem Keeps.refl (compiler : Compiler) : Keeps [] compiler compiler :=
  ⟨rfl, .refl, List.prefix_refl _, List.prefix_refl _⟩

theorem Keeps.trans {first second : List String} {before middle after : Compiler}
    (hfirst : Keeps first before middle) (hsecond : Keeps second middle after) :
    Keeps (second ++ first) before after :=
  ⟨hsecond.pending.trans hfirst.pending, hfirst.scope.trans hsecond.scope,
    hfirst.constants.trans hsecond.constants, hfirst.code.trans hsecond.code⟩

theorem keeps_push (compiler : Compiler) (instruction : Instruction) :
    Keeps [] compiler (compiler.push instruction) :=
  ⟨rfl, .refl, List.prefix_refl _, by simp [Compiler.push, Draft.push]⟩

theorem Keeps.size_le {names : List String} {before after : Compiler}
    (keeps : Keeps names before after) : before.draft.code.size ≤ after.draft.code.size := by
  simpa using keeps.code.length_le

theorem Keeps.leaves {names : List String} {before after : Compiler}
    (keeps : Keeps names before after) : Leaves names before after :=
  ⟨names, List.suffix_refl _, keeps⟩

theorem Leaves.more {names : List String} {before after : Compiler}
    (leaves : Leaves names before after) (more : List String) :
    Leaves (more ++ names) before after := by
  obtain ⟨bound, hbound, keeps⟩ := leaves
  exact ⟨bound, hbound.trans (List.suffix_append _ _), keeps⟩

theorem Keeps.thenLeaves {first second : List String} {before middle after : Compiler}
    (hfirst : Keeps first before middle) (hsecond : Leaves second middle after) :
    Leaves (second ++ first) before after := by
  obtain ⟨bound, hbound, keeps⟩ := hsecond
  exact ⟨bound ++ first, (List.suffix_append_inj_of_length_eq rfl).mpr ⟨hbound, rfl⟩,
    hfirst.trans keeps⟩

theorem KeepsFrom.after {step : CompileM α} {first second : List String} {before middle : Compiler}
    (hstep : KeepsFrom middle step second) (hfirst : Keeps first before middle) :
    Meets step middle (fun _ after => Keeps (second ++ first) before after)
      (fun _ after => Leaves (second ++ first) before after) :=
  hstep.mono (fun _ _ hsecond => hfirst.trans hsecond) (fun _ _ hleft => hfirst.thenLeaves hleft)

theorem KeepsFrom.andThen {step : CompileM α} {next : α → CompileM β} {first second : List String}
    {before : Compiler} (hstep : KeepsFrom before step first)
    (hnext : ∀ result middle, Keeps first before middle → KeepsFrom middle (next result) second) :
    KeepsFrom before (step >>= next) (second ++ first) := by
  apply Meets.andThen hstep
  · intro result middle hfirst
    exact (hnext result middle hfirst).after hfirst
  · intro _ _ hleft
    exact hleft.more second

theorem Keeping.bind {step : CompileM α} {next : α → CompileM β} {first second : List String}
    (hstep : Keeping step first) (hnext : ∀ result, Keeping (next result) second) :
    Keeping (step >>= next) (second ++ first) :=
  fun before => (hstep before).andThen fun result middle _ => hnext result middle

theorem keeping_pure (result : α) : Keeping (pure result) [] :=
  fun before => .refl before

theorem keeping_throw (error : CompileError) (names : List String) :
    Keeping (throw error : CompileM α) names :=
  fun before => ⟨[], List.nil_suffix, .refl before⟩

theorem keeping_emit (op : Opcode) (operands : List Nat) : Keeping (emit op operands) [] := by
  intro before
  apply (emit_meets op operands before).mono
  · intro _ after hafter
    rw [hafter.2]
    exact keeps_push before _
  · intro _ after hafter
    rw [hafter.2]
    exact (Keeps.refl before).leaves

theorem Keeping.discard {step : CompileM α} {names : List String} (hstep : Keeping step names) :
    Keeping (Functor.discard step) names :=
  fun before => Meets.discard (hstep before)

theorem Keeping.thenEmit {step : CompileM Unit} {names : List String} (hstep : Keeping step names)
    (op : Opcode) (operands : List Nat) :
    Keeping (step >>= fun _ => Functor.discard (emit op operands)) names :=
  hstep.bind fun _ => (keeping_emit op operands).discard

theorem keeping_addConstant (constant : Constant) : Keeping (addConstant constant) [] := by
  intro before
  exact ⟨rfl, .refl, by simp, List.prefix_refl _⟩

theorem keeping_define (name : String) : Keeping (define name) [name] := by
  intro before
  exact ⟨rfl, .define .refl name, List.prefix_refl _, List.prefix_refl _⟩

theorem keeping_resolve (name : String) : Keeping (resolve name) [] := by
  intro before
  unfold KeepsFrom Meets
  cases hresolve : before.scope.resolve name with
  | none =>
      rw [resolve, run_bind, run_get]
      simp only [hresolve]
      exact (Keeps.refl before).leaves
  | some found =>
      rw [resolve_run hresolve]
      exact ⟨rfl, .resolve .refl hresolve, List.prefix_refl _, List.prefix_refl _⟩

theorem keeping_load (symbol : Symbol) : Keeping (load symbol) [] := by
  unfold load
  cases symbol.place <;> exact (keeping_emit _ _).discard

theorem keeping_loadAll (symbols : List Symbol) : Keeping (loadAll symbols) [] := by
  induction symbols with
  | nil => exact keeping_pure ()
  | cons symbol rest ih => exact (keeping_load symbol).bind fun _ => ih

/-! Code that is changed after it has been emitted. -/

theorem prefix_overwrite {start : List UInt8} {code : Code} {offset : Nat}
    (hstart : start <+: code.toList) (hoffset : start.length ≤ offset) (bytes : List UInt8) :
    start <+: (code.overwrite offset bytes).toList := by
  induction bytes generalizing code offset with
  | nil => exact hstart
  | cons byte rest ih =>
      apply ih
      · obtain ⟨after, hafter⟩ := hstart
        rw [Array.toList_setIfInBounds, ← hafter, List.set_append_right _ _ hoffset]
        exact List.prefix_append _ _
      · omega

theorem prefix_truncate {start : List UInt8} {code : Code} {length : Nat}
    (hstart : start <+: code.toList) (hlength : start.length ≤ length) :
    start <+: (code.truncate length).toList := by
  rw [Code.truncate, Array.toList_shrink]
  exact List.prefix_take_iff.mpr ⟨hstart, hlength⟩

theorem Keeps.recode {names : List String} {before after : Compiler}
    (keeps : Keeps names before after) {draft : Draft}
    (hcode : before.draft.code.toList <+: draft.code.toList) :
    Keeps names before { after with draft } :=
  ⟨keeps.pending, keeps.scope, keeps.constants, hcode⟩

theorem Keeps.patch {names : List String} {before middle : Compiler} {op : Opcode}
    {offset operand : Nat} (keeps : Keeps names before middle)
    (hoffset : before.draft.code.size ≤ offset)
    (hbyte : middle.draft.code[offset]? = some op.toByte) :
    Meets (patch offset operand) middle
      (fun _ after => Keeps names before after ∧
        after = { middle with draft := { middle.draft with
          code := middle.draft.code.overwrite offset (encode ⟨op, [operand]⟩) } })
      (fun error after => error.Exceeds ∧ Keeps names before after) := by
  apply (patch_meets hbyte).mono
  · intro _ after hafter
    subst hafter
    exact ⟨keeps.recode (prefix_overwrite keeps.code (by simpa using hoffset) _), rfl⟩
  · intro error after hbad
    rw [hbad.2]
    exact ⟨hbad.1, keeps⟩

theorem Keeps.byte {names : List String} {before after : Compiler}
    (keeps : Keeps names before after) {offset : Nat} {byte : UInt8}
    (hbyte : before.draft.code[offset]? = some byte) :
    after.draft.code[offset]? = some byte := by
  obtain ⟨rest, hrest⟩ := keeps.code
  rw [← Array.getElem?_toList] at hbyte ⊢
  obtain ⟨hinside, -⟩ := List.getElem?_eq_some_iff.mp hbyte
  rw [← hrest, List.getElem?_append_left hinside, hbyte]

theorem byte_push (compiler : Compiler) (instruction : Instruction) :
    (compiler.push instruction).draft.code[compiler.draft.code.size]? =
      some instruction.op.toByte := by
  have hcode := (adds_push compiler instruction).code
  rw [← Array.getElem?_toList, hcode, List.getElem?_append_right (by simp)]
  simp [encode_eq]

theorem size_push_jump (compiler : Compiler) {op : Opcode} (hword : op.widths = [.word])
    (operand : Nat) :
    (compiler.push ⟨op, [operand]⟩).draft.code.size = compiler.draft.code.size + 3 := by
  have hcode := (adds_push compiler ⟨op, [operand]⟩).code
  rw [← Array.length_toList, hcode]
  simp [encode_eq, operandBytes, hword, Width.size]

theorem getElem?_overwrite_behind {code : Code} {offset index : Nat} {bytes : List UInt8}
    (hbehind : offset + bytes.length ≤ index) :
    (code.overwrite offset bytes)[index]? = code[index]? := by
  induction bytes generalizing code offset with
  | nil => rfl
  | cons byte rest ih =>
      rw [List.length_cons] at hbehind
      rw [Code.overwrite, ih (by omega), Array.getElem?_setIfInBounds_ne (by omega)]

/-- The end of a branch takes an instruction away only if it is one of the branch. -/
theorem branch_end_keeps {names : List String} {before middle : Compiler}
    (keeps : Keeps names before middle)
    (hlast : ∀ last, middle.draft.last? = some last → last.op = .pop →
      before.draft.code.size ≤ last.offset) :
    Meets (branch (pure ())) middle (fun _ after => Keeps names before after)
      (fun _ after => Leaves names before after) := by
  unfold Meets
  rw [branch_pure_run]
  cases hends : middle.draft.endsWith .pop with
  | false => exact ((keeping_emit .pushNull []).discard middle).after keeps
  | true =>
      apply keeps.recode
      obtain ⟨constants, scope, ⟨code, last?, previous?⟩, pending⟩ := middle
      cases last? with
      | none => cases hends
      | some last =>
          have hpop : last.op = .pop := by simpa [Draft.endsWith] using hends
          exact prefix_truncate keeps.code (by simpa using hlast last rfl hpop)

/-! Statements. -/

/-- The latest instruction, if it drops a value, is one that was added since. -/
def PopsSince (before after : Compiler) : Prop :=
  ∀ last, after.draft.last? = some last → last.op = .pop → before.draft.code.size ≤ last.offset

theorem Keeps.emit {names : List String} {before middle : Compiler}
    (keeps : Keeps names before middle) (op : Opcode) (operands : List Nat) :
    Meets (discard (emit op operands)) middle
      (fun _ after => Keeps names before after ∧ PopsSince before after)
      (fun _ after => Leaves names before after) := by
  apply Meets.discard
  apply (emit_meets op operands middle).mono
  · intro _ after hafter
    rw [hafter.2]
    refine ⟨keeps.trans (keeps_push middle _), ?_⟩
    intro last hlast _
    cases hlast
    exact keeps.size_le
  · intro _ after hafter
    rw [hafter.2]
    exact keeps.leaves

def Binds (survey : Survey → Survey) (names : List String) : Prop :=
  ∀ before, (survey before).bound = names ++ before.bound

theorem Binds.comp {first second : Survey → Survey} {names more : List String}
    (hfirst : Binds first names) (hsecond : Binds second more) :
    Binds (second ∘ first) (more ++ names) := by
  intro before
  rw [Function.comp, hsecond, hfirst, List.append_assoc]

/-- Whatever the step comes to, it keeps what was there and binds what the survey does. -/
def Tidy (step : CompileM Unit) (survey : Survey → Survey) : Prop :=
  ∃ names, Binds survey names ∧ Keeping step names

theorem Tidy.comp {step next : CompileM Unit} {first second : Survey → Survey}
    (hstep : Tidy step first) (hnext : Tidy next second) :
    Tidy (step >>= fun _ => next) (second ∘ first) := by
  obtain ⟨names, hbinds, hkeeps⟩ := hstep
  obtain ⟨more, hbinds', hkeeps'⟩ := hnext
  exact ⟨more ++ names, hbinds.comp hbinds', hkeeps.bind fun _ => hkeeps'⟩

theorem Tidy.thenEmit {step : CompileM Unit} {survey : Survey → Survey} (hstep : Tidy step survey)
    (op : Opcode) (operands : List Nat) :
    Tidy (step >>= fun _ => discard (emit op operands)) survey := by
  obtain ⟨names, hbinds, hkeeps⟩ := hstep
  exact ⟨names, hbinds, hkeeps.thenEmit op operands⟩

theorem stmt_meets {stmt : Stmt} (hvalue : Tidy stmt.value.compile stmt.value.survey) :
    ∃ names, Binds stmt.survey names ∧ ∀ before,
      Meets stmt.compile before (fun _ after => Keeps names before after ∧ PopsSince before after)
        (fun _ after => Leaves names before after) := by
  obtain ⟨names, hbinds, hkeeps⟩ := hvalue
  cases stmt with
  | expr value =>
      refine ⟨names, hbinds, fun before => ?_⟩
      rw [Stmt.compile]
      apply Meets.andThen (hkeeps before)
      · intro _ middle hmiddle
        exact hmiddle.emit .pop []
      · exact fun _ _ hleft => hleft
  | ret value =>
      refine ⟨names, hbinds, fun before => ?_⟩
      rw [Stmt.compile]
      apply Meets.bind
      change Meets (if before.pending.isEmpty = true then _ else _) before _ _
      split
      · exact ⟨[], List.nil_suffix, .refl before⟩
      · apply Meets.andThen (hkeeps before)
        · intro _ middle hmiddle
          exact hmiddle.emit .returnValue []
        · exact fun _ _ hleft => hleft
  | bind name value =>
      refine ⟨name :: names, fun before => congrArg (name :: ·) (hbinds before), fun before => ?_⟩
      rw [Stmt.compile]
      apply Meets.andThen (hkeeps before)
      · intro _ middle hmiddle
        apply Meets.andThen ((keeping_define name middle).after hmiddle)
        · intro symbol defined hdefined
          cases symbol.place <;> exact hdefined.emit _ _
        · exact fun _ _ hleft => hleft
      · intro _ _ hleft
        exact hleft.more [name]

theorem block_meets {stmts : List Stmt}
    (hvalues : ∀ stmt ∈ stmts, Tidy stmt.value.compile stmt.value.survey) :
    ∃ names, Binds (Stmt.surveyAll stmts) names ∧ ∀ {first : List String} {start middle : Compiler},
      Keeps first start middle →
      Meets (Stmt.compileAll stmts) middle
        (fun _ after => Keeps (names ++ first) start after ∧
          (PopsSince start middle → PopsSince start after))
        (fun _ after => Leaves (names ++ first) start after) := by
  induction stmts with
  | nil => exact ⟨[], fun _ => rfl, fun hfirst => ⟨hfirst, id⟩⟩
  | cons stmt rest ih =>
      obtain ⟨names, hbinds, hstmt⟩ := stmt_meets (hvalues stmt (List.mem_cons_self ..))
      obtain ⟨more, hbinds', hrest⟩ :=
        ih fun later member => hvalues later (List.mem_cons_of_mem _ member)
      refine ⟨more ++ names, hbinds.comp hbinds', ?_⟩
      intro first start middle hfirst
      rw [List.append_assoc]
      apply (hstmt middle).andThen
      · intro _ between hbetween
        obtain ⟨hkeeps, hpops⟩ := hbetween
        apply (hrest (hfirst.trans hkeeps)).mono
        · intro _ after hafter
          -- The rest may be empty, and then the latest instruction is one of this statement.
          refine ⟨hafter.1, fun _ => hafter.2 fun last hlast hpop => ?_⟩
          exact Nat.le_trans hfirst.size_le (hpops last hlast hpop)
        · exact fun _ _ hleft => hleft
      · intro _ _ hleft
        exact (hfirst.thenLeaves hleft).more more

theorem block_tidy {stmts : List Stmt}
    (hvalues : ∀ stmt ∈ stmts, Tidy stmt.value.compile stmt.value.survey) :
    Tidy (Stmt.compileAll stmts) (Stmt.surveyAll stmts) := by
  obtain ⟨names, hbinds, hblock⟩ := block_meets hvalues
  refine ⟨names, hbinds, fun before => ?_⟩
  have hmeets := hblock (.refl before)
  rw [List.append_nil] at hmeets
  exact hmeets.mono (fun _ _ hafter => hafter.1) (fun _ _ hleft => hleft)

theorem branch_eq (step : CompileM Unit) : branch step = step >>= fun _ => branch (pure ()) := by
  simp [branch]

theorem functionBody_eq (step : CompileM Unit) :
    functionBody step = step >>= fun _ => functionBody (pure ()) := by
  simp [functionBody]

def TidyBehind (step : CompileM Unit) (survey : Survey → Survey) : Prop :=
  ∃ names, Binds survey names ∧ ∀ before, before.draft.endsWith .pop = false →
    KeepsFrom before step names

theorem branch_tidy {stmts : List Stmt}
    (hvalues : ∀ stmt ∈ stmts, Tidy stmt.value.compile stmt.value.survey) :
    TidyBehind (branch (Stmt.compileAll stmts)) (Stmt.surveyAll stmts) := by
  obtain ⟨names, hbinds, hblock⟩ := block_meets hvalues
  refine ⟨names, hbinds, fun before hends => ?_⟩
  have hmeets := hblock (.refl before)
  rw [List.append_nil] at hmeets
  rw [branch_eq]
  apply hmeets.andThen
  · intro _ middle hmiddle
    obtain ⟨hkeeps, hpops⟩ := hmiddle
    apply branch_end_keeps hkeeps
    apply hpops
    intro last hlast hpop
    simp [Draft.endsWith, hlast, hpop] at hends
  · exact fun _ _ hleft => hleft

/-! Choices. -/

/-- What is so behind each part of a choice is so behind the choice: nothing else can fail in it
than a jump that goes too far. -/
theorem choose_meets {condition consequence alternative : CompileM Unit} {before : Compiler}
    {first second third : List String} {P Q R : Compiler → Prop}
    {bad : CompileError → Compiler → Prop}
    (hcondition : Meets condition before (fun _ after => Keeps first before after ∧ P after) bad)
    (hconsequence : ∀ middle draft, Keeps first before { middle with draft } → P middle →
      draft.endsWith .pop = false → Meets consequence { middle with draft }
        (fun _ after => Keeps second { middle with draft } after ∧ Q after) bad)
    (halternative : ∀ middle draft, Keeps (second ++ first) before { middle with draft } →
      Q middle → draft.endsWith .pop = false → Meets alternative { middle with draft }
        (fun _ after => Keeps third { middle with draft } after ∧ R after) bad)
    (hredraft : ∀ after draft, R after → R { after with draft })
    (hexceeds : ∀ error after, error.Exceeds →
      Leaves (third ++ (second ++ first)) before after → bad error after) :
    Meets (choose condition consequence alternative) before
      (fun _ after => Keeps (third ++ (second ++ first)) before after ∧ R after) bad := by
  unfold choose
  apply hcondition.andThen _ fun _ _ hbad => hbad
  intro _ conditioned hconditioned
  obtain ⟨hkeeps, hP⟩ := hconditioned
  apply (emit_meets .jumpNotTruthy [jumpPlaceholder] conditioned).andThen
  case hbad =>
    intro error after hbad
    rw [hbad.2]
    exact hexceeds error _ hbad.1 ((hkeeps.leaves.more second).more third)
  intro toAlternative jumping hjumping
  obtain ⟨rfl, rfl⟩ := hjumping
  have hjumping := hkeeps.trans (keeps_push conditioned ⟨.jumpNotTruthy, [jumpPlaceholder]⟩)
  apply (hconsequence conditioned _ hjumping hP rfl).andThen _ fun _ _ hbad => hbad
  intro _ consequent hconsequent
  obtain ⟨hconsequent, hQ⟩ := hconsequent
  apply (emit_meets .jump [jumpPlaceholder] consequent).andThen
  case hbad =>
    intro error after hbad
    rw [hbad.2]
    exact hexceeds error _ hbad.1 ((hjumping.trans hconsequent).leaves.more third)
  intro toEnd ended hended
  obtain ⟨rfl, rfl⟩ := hended
  have hended := hconsequent.trans (keeps_push consequent ⟨.jump, [jumpPlaceholder]⟩)
  apply Meets.bind
  have hbyte := hended.byte (byte_push conditioned ⟨.jumpNotTruthy, [jumpPlaceholder]⟩)
  apply ((hjumping.trans hended).patch hkeeps.size_le hbyte).andThen
  case hbad =>
    intro error after hbad
    exact hexceeds error after hbad.1 (hbad.2.leaves.more third)
  intro _ patched hpatched
  obtain ⟨hpatched, rfl⟩ := hpatched
  apply (halternative consequent _ hpatched hQ rfl).andThen _ fun _ _ hbad => hbad
  intro _ chosen hchosen
  obtain ⟨hchosen, hR⟩ := hchosen
  apply Meets.bind
  have hbehind : conditioned.draft.code.size + 3 ≤ consequent.draft.code.size := by
    rw [← size_push_jump conditioned (rfl : Opcode.jumpNotTruthy.widths = _) jumpPlaceholder]
    exact hconsequent.size_le
  have hbyte' : chosen.draft.code[consequent.draft.code.size]? = some Opcode.jump.toByte := by
    apply hchosen.byte
    rw [getElem?_overwrite_behind
      (by simpa [encode_eq, operandBytes, Opcode.widths, Width.size] using hbehind)]
    exact byte_push consequent ⟨.jump, [jumpPlaceholder]⟩
  apply ((hpatched.trans hchosen).patch (hjumping.trans hconsequent).size_le hbyte').mono
  · intro _ after hafter
    obtain ⟨hkeeps', rfl⟩ := hafter
    exact ⟨hkeeps', hredraft _ _ hR⟩
  · intro error after hbad
    exact hexceeds error after hbad.1 hbad.2.leaves

theorem choose_tidy {condition consequence alternative : CompileM Unit}
    {first second third : Survey → Survey} (hcondition : Tidy condition first)
    (hconsequence : TidyBehind consequence second) (halternative : TidyBehind alternative third) :
    Tidy (choose condition consequence alternative) (third ∘ second ∘ first) := by
  obtain ⟨names, hbinds, hcondition⟩ := hcondition
  obtain ⟨names', hbinds', hconsequence⟩ := hconsequence
  obtain ⟨names'', hbinds'', halternative⟩ := halternative
  refine ⟨names'' ++ (names' ++ names), (hbinds.comp hbinds').comp hbinds'', fun before => ?_⟩
  have hmeets : Meets (choose condition consequence alternative) before
      (fun _ after => Keeps (names'' ++ (names' ++ names)) before after ∧ True)
      (fun _ after => Leaves (names'' ++ (names' ++ names)) before after) := by
    apply choose_meets (P := fun _ => True) (Q := fun _ => True)
    · apply (hcondition before).mono
      · exact fun _ _ hafter => ⟨hafter, trivial⟩
      · exact fun _ _ hleft => (hleft.more names').more names''
    · intro middle draft hmiddle _ hends
      apply (hconsequence _ hends).mono
      · exact fun _ _ hafter => ⟨hafter, trivial⟩
      · exact fun _ _ hleft => (hmiddle.thenLeaves hleft).more names''
    · intro middle draft hmiddle _ hends
      apply (halternative _ hends).mono
      · exact fun _ _ hafter => ⟨hafter, trivial⟩
      · exact fun _ _ hleft => hmiddle.thenLeaves hleft
    · exact fun _ _ _ => trivial
    · exact fun _ _ _ hleft => hleft
  exact hmeets.mono (fun _ _ hafter => hafter.1) (fun _ _ hleft => hleft)

/-! Function literals. -/

theorem functionBody_keeps {step : CompileM Unit} {names : List String} (hstep : Keeping step names)
    {before : Compiler} (hempty : before.draft.code = #[]) :
    KeepsFrom before (functionBody step) names := by
  rw [functionBody_eq]
  apply Meets.andThen (hstep before)
  · intro _ middle hmiddle
    unfold Meets
    rw [functionBody_pure_run]
    cases middle.draft.endsWith .pop with
    | true => exact hmiddle.recode (by simp [hempty])
    | false =>
        cases middle.draft.endsWith .returnValue with
        | true => exact hmiddle
        | false => exact ((keeping_emit .returnNull []).discard middle).after hmiddle
  · exact fun _ _ hleft => hleft

def close (inner : Compiler) (parameters : Nat) : CompileM Unit := do
  loadAll inner.scope.table.captures
  let index ← addConstant
    (.function ⟨inner.draft.code, inner.scope.table.definitions, parameters⟩)
  discard (emit .closure [index, inner.scope.table.captures.length])

theorem exceeds_emit (op : Opcode) (operands : List Nat) (before : Compiler) :
    Meets (discard (emit op operands)) before (fun _ _ => True) (fun error _ => error.Exceeds) :=
  Meets.discard ((emit_meets op operands before).mono (fun _ _ _ => trivial) fun _ _ hbad => hbad.1)

theorem exceeds_load (symbol : Symbol) (before : Compiler) :
    Meets (load symbol) before (fun _ _ => True) (fun error _ => error.Exceeds) := by
  unfold load
  cases symbol.place <;> exact exceeds_emit _ _ _

theorem exceeds_loadAll (symbols : List Symbol) (before : Compiler) :
    Meets (loadAll symbols) before (fun _ _ => True) (fun error _ => error.Exceeds) := by
  induction symbols generalizing before with
  | nil => trivial
  | cons symbol rest ih =>
      apply (exceeds_load symbol before).andThen
      · exact fun _ middle _ => ih middle
      · exact fun _ _ hbad => hbad

theorem close_meets (inner : Compiler) (parameters : Nat) (before : Compiler) :
    Meets (close inner parameters) before (fun _ after => Keeps [] before after)
      (fun error after => error.Exceeds ∧ Leaves [] before after) := by
  have hkeeps : Keeping (close inner parameters) [] :=
    (keeping_loadAll _).bind fun _ =>
      (keeping_addConstant _).bind fun _ => (keeping_emit _ _).discard
  have hexceeds : Meets (close inner parameters) before (fun _ _ => True)
      (fun error _ => error.Exceeds) := by
    apply (exceeds_loadAll _ before).andThen
    · intro _ middle _
      exact Meets.bind (exceeds_emit _ _ _)
    · exact fun _ _ hbad => hbad
  exact (hexceeds.and (hkeeps before)).mono (fun _ _ hafter => hafter.2) fun _ _ hbad => hbad

def back (before inner : Compiler) (around : Scope) : Compiler :=
  { before with constants := inner.constants, scope := around }

theorem Keeps.leave {before inner : Compiler} {name : Option String}
    {parameters names : List String}
    (keeps : Keeps names (entered before name parameters) inner) :
    ∃ around, leaveFunction.run inner = (.ok inner.draft.code, back before inner around) ∧
      Keeps [] before (back before inner around) := by
  obtain ⟨around, hleave, becomes⟩ :=
    keeps.scope.around (Scope.outer_entry before.scope name parameters)
  refine ⟨around, ?_, rfl, becomes, keeps.constants, List.prefix_refl _⟩
  rw [leaveFunction, run_bind, run_get]
  simp only [keeps.pending, entered, hleave]
  rfl

theorem function_outcome {name : Option String} {parameters : List String} {step : CompileM Unit}
    {before inner later : Compiler} {outcome : Except CompileError Unit}
    (hparameters : parameters.length ≤ maxParameters)
    (hbody : (functionBody step).run (entered before name parameters) = (outcome, inner))
    (hleave : leaveFunction.run inner = (.ok inner.draft.code, later)) :
    (function name parameters step).run before =
      match outcome with
      | .error error => (.error error, later)
      | .ok () => (close inner parameters.length).run later := by
  rw [function, if_neg (by omega)]
  refine (enter_run name parameters before _).trans ?_
  rw [run_bind, attempt_succeeds.mpr hbody]
  dsimp only
  rw [run_bind, run_get]
  dsimp only
  rw [run_bind, hleave]
  cases outcome with
  | error error => rfl
  | ok => rfl

/-- The body of a function literal succeeds or fails, and in either case the compilation comes back
to where the literal stands. -/
theorem function_meets {name : Option String} {parameters : List String} {step : CompileM Unit}
    {before : Compiler} {names : List String} {good : Prop} {bad : CompileError → Prop}
    (hbody : Meets (functionBody step) (entered before name parameters)
      (fun _ inner => Keeps names (entered before name parameters) inner ∧ good)
      (fun error inner => Leaves names (entered before name parameters) inner ∧ bad error)) :
    Meets (function name parameters step) before (fun _ after => Keeps [] before after ∧ good)
      (fun error after => Leaves [] before after ∧ (error.Exceeds ∨ bad error)) := by
  by_cases hmany : parameters.length > maxParameters
  · rw [function, if_pos hmany]
    exact ⟨(Keeps.refl before).leaves, .inl ⟨_, _, _, rfl⟩⟩
  · unfold Meets at hbody ⊢
    rcases hrun : (functionBody step).run (entered before name parameters) with ⟨outcome, inner⟩
    rw [hrun] at hbody
    cases outcome with
    | error error =>
        obtain ⟨⟨bound, -, keeps⟩, hbad⟩ := hbody
        obtain ⟨around, hleave, hback⟩ := keeps.leave
        rw [function_outcome (by omega) hrun hleave]
        exact ⟨hback.leaves, .inr hbad⟩
    | ok _ =>
        obtain ⟨keeps, hgood⟩ := hbody
        obtain ⟨around, hleave, hback⟩ := keeps.leave
        rw [function_outcome (by omega) hrun hleave]
        apply (close_meets inner parameters.length (back before inner around)).mono
        · exact fun _ _ hafter => ⟨hback.trans hafter, hgood⟩
        · exact fun _ _ hbad => ⟨hback.thenLeaves hbad.2, .inl hbad.1⟩

theorem function_tidy {step : CompileM Unit} {survey : Survey → Survey} (hstep : Tidy step survey)
    (name : Option String) (parameters : List String) :
    Tidy (function name parameters step) (·.function (survey (.enter name parameters))) := by
  obtain ⟨names, -, hkeeps⟩ := hstep
  refine ⟨[], fun before => Survey.bound_uses before _, fun before => ?_⟩
  have hbody : KeepsFrom (entered before name parameters) (functionBody step) names :=
    functionBody_keeps hkeeps rfl
  have hmeets : Meets (function name parameters step) before
      (fun _ after => Keeps [] before after ∧ True)
      (fun error after => Leaves [] before after ∧ (error.Exceeds ∨ True)) :=
    function_meets
      (hbody.mono (fun _ _ hafter => ⟨hafter, trivial⟩) fun _ _ hleft => ⟨hleft, trivial⟩)
  exact hmeets.mono (fun _ _ hafter => hafter.1) fun _ _ hleft => hleft.1

/-! Whole programs. -/

theorem literal_tidy (constant : Constant) :
    Tidy (do
      let index ← addConstant constant
      discard (emit .constant [index])) Survey.literal :=
  ⟨[], fun _ => rfl, (keeping_addConstant constant).bind fun _ => (keeping_emit _ _).discard⟩

theorem emit_tidy (op : Opcode) (operands : List Nat) : Tidy (discard (emit op operands)) id :=
  ⟨[], fun _ => rfl, (keeping_emit op operands).discard⟩

theorem ident_tidy (name : String) :
    Tidy (do
      let symbol ← resolve name
      load symbol) (·.use name) :=
  ⟨[], fun before => Survey.bound_use before name, (keeping_resolve name).bind keeping_load⟩

theorem binary_tidy {left right : CompileM Unit} {first second : Survey → Survey}
    (hleft : Tidy left first) (hright : Tidy right second) {op : BinaryOp} (hless : op ≠ .less) :
    Tidy (binary op left right) (second ∘ first) := by
  rw [binary_eq hless]
  cases binaryOpcode? op with
  | some opcode => exact hleft.comp (hright.thenEmit opcode [])
  | none =>
      obtain ⟨names, hbinds, -⟩ := hleft
      obtain ⟨names', hbinds', -⟩ := hright
      exact ⟨names' ++ names, hbinds.comp hbinds', keeping_throw _ _⟩

theorem inOrder_tidy {pairs : List (Expr × Expr)}
    (hpairs : ∀ pair ∈ pairs,
      Tidy pair.1.compile pair.1.survey ∧ Tidy pair.2.compile pair.2.survey) :
    Tidy (inOrder (pairs.map fun pair =>
      (pair.1.display, pair.1.compile >>= fun _ => pair.2.compile))) (Part.pairs pairs).survey := by
  induction pairs with
  | nil => exact ⟨[], fun _ => rfl, keeping_pure ()⟩
  | cons pair rest ih =>
      obtain ⟨hkey, hvalue⟩ := hpairs pair (List.mem_cons_self ..)
      have hrest := ih fun later member => hpairs later (List.mem_cons_of_mem _ member)
      exact (hkey.comp hvalue).comp hrest

theorem noAlternative_tidy : TidyBehind (discard (emit .pushNull)) id := by
  obtain ⟨names, hbinds, hkeeps⟩ := emit_tidy .pushNull []
  exact ⟨names, hbinds, fun before _ => hkeeps before⟩

end Compile

open Compile

mutual

theorem Expr.tidy : ∀ expr : Expr, Tidy expr.compile expr.survey
  | .integer value => literal_tidy (.integer value)
  | .string text => literal_tidy (.string text)
  | .boolean true => emit_tidy .pushTrue []
  | .boolean false => emit_tidy .pushFalse []
  | .ident name => ident_tidy name
  | .unary op operand => operand.tidy.thenEmit (unaryOpcode op) []
  | .binary op left right => by
      by_cases hless : op = .less
      · subst hless
        exact right.tidy.comp (left.tidy.thenEmit .greaterThan [])
      · have hsurvey : (Expr.binary op left right).survey = right.survey ∘ left.survey := by
          cases op <;> first | rfl | exact absurd rfl hless
        rw [hsurvey]
        exact binary_tidy left.tidy right.tidy hless
  | .cond condition consequence none => by
      rw [survey_cond]
      exact choose_tidy condition.tidy (branch_tidy (Stmt.tidy consequence)) noAlternative_tidy
  | .cond condition consequence (some alternative) => by
      rw [survey_cond]
      exact choose_tidy condition.tidy (branch_tidy (Stmt.tidy consequence))
        (branch_tidy (Stmt.tidy alternative))
  | .array items => (Expr.allTidy items).thenEmit .array [items.length]
  | .hash pairs => by
      rw [survey_hash, Expr.compile, compilePairs_eq, Expr.inKeyOrder_map]
      refine (inOrder_tidy fun pair member => ?_).thenEmit .hash [2 * pairs.length]
      exact Expr.pairsTidy pairs pair (List.mem_mergeSort.mp member)
  | .index container index => container.tidy.comp (index.tidy.thenEmit .index [])
  | .function name parameters body => function_tidy (block_tidy (Stmt.tidy body)) name parameters
  | .call callee arguments =>
      callee.tidy.comp ((Expr.allTidy arguments).thenEmit .call [arguments.length])

theorem Expr.allTidy : ∀ exprs : List Expr, Tidy (Expr.compileAll exprs) (Expr.surveyAll exprs)
  | [] => ⟨[], fun _ => rfl, keeping_pure ()⟩
  | expr :: rest => expr.tidy.comp (Expr.allTidy rest)

theorem Expr.pairsTidy : ∀ pairs : List (Expr × Expr), ∀ pair ∈ pairs,
    Tidy pair.1.compile pair.1.survey ∧ Tidy pair.2.compile pair.2.survey
  | [], _, member => absurd member (by simp)
  | (key, value) :: rest, pair, member => by
      rcases List.mem_cons.mp member with rfl | member
      · exact ⟨key.tidy, value.tidy⟩
      · exact Expr.pairsTidy rest pair member

theorem Stmt.tidy : ∀ stmts : List Stmt, ∀ stmt ∈ stmts, Tidy stmt.value.compile stmt.value.survey
  | [], _, member => absurd member (by simp)
  | .bind _ value :: rest, stmt, member | .ret value :: rest, stmt, member
  | .expr value :: rest, stmt, member => by
      rcases List.mem_cons.mp member with rfl | member
      · exact value.tidy
      · exact Stmt.tidy rest stmt member

end

end Stacklang
