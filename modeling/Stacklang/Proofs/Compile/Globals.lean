import Stacklang.Proofs.Compile.Functions
import Stacklang.Proofs.Compile.Verified

namespace Stacklang

/-- The instruction reads one of the first globals only. It stores at the top level only, from some
global on, and refers to the running closure in functions only. -/
def Instruction.Touches (from? : Option Nat) (reach : Nat) (instruction : Instruction) : Prop :=
  match instruction.op with
  | .getGlobal => instruction.operand 0 < reach
  | .setGlobal => instruction.operand 0 < reach ∧ ∃ own ∈ from?, own ≤ instruction.operand 0
  | .currentClosure => from? = none
  | _ => True

def Code.Touches (from? : Option Nat) (reach : Nat) (code : Code) : Prop :=
  ∀ entry ∈ code.scan.instructions, entry.2.Touches from? reach

theorem Instruction.Touches.mono {from? less? : Option Nat} {reach more : Nat}
    {instruction : Instruction} (touches : instruction.Touches from? reach)
    (hnone : from? = none → less? = none) (hless : ∀ own ∈ from?, ∃ less ∈ less?, less ≤ own)
    (hmore : reach ≤ more) : instruction.Touches less? more := by
  unfold Touches at touches ⊢
  split
  next hop =>
    simp only [hop] at touches
    exact Nat.lt_of_lt_of_le touches hmore
  next hop =>
    simp only [hop] at touches
    obtain ⟨hreach, own, hown, hfrom⟩ := touches
    obtain ⟨less, hfound, hle⟩ := hless own hown
    exact ⟨Nat.lt_of_lt_of_le hreach hmore, less, hfound, Nat.le_trans hle hfrom⟩
  next hop =>
    simp only [hop] at touches
    exact hnone touches
  next => trivial

theorem Code.Touches.mono {reach more : Nat} {code : Code} (touches : code.Touches none reach)
    (hmore : reach ≤ more) : code.Touches none more :=
  fun entry member => (touches entry member).mono id (by simp) hmore

namespace Compile

open Instruction

def Stage.from? (stage : Stage) : Option Nat :=
  if stage.scope.isTopLevel then some stage.scope.globals else none

theorem Stage.from?_inside {stage : Stage} (hinside : stage.scope.isTopLevel = false) :
    stage.from? = none := by
  simp [Stage.from?, hinside]

def Touching (stage finish : Stage) (instruction : Instruction) : Prop :=
  instruction.Touches stage.from? finish.scope.globals

theorem Touching.around {before stage finish after : Stage} {instruction : Instruction}
    (touching : Touching stage finish instruction) (hbefore : before.scope.Grows stage.scope)
    (hafter : finish.scope.Grows after.scope) : Touching before after instruction := by
  have htop := hbefore.isTopLevel
  refine touching.mono ?_ ?_ hafter.globals_le
  · simp [Stage.from?, htop]
  · intro own hown
    simp only [Stage.from?, htop, Option.mem_def] at hown ⊢
    split at hown
    next hroot =>
      cases hown
      exact ⟨before.scope.globals, if_pos hroot, hbefore.globals_le⟩
    next => cases hown

theorem touching_load (stage finish : Stage) {symbol : Symbol}
    (loadable : finish.scope.Loadable symbol) (grows : stage.scope.Grows finish.scope) :
    Touching stage finish symbol.load := by
  rcases loadable with ⟨⟨hplace, hindex⟩, htop⟩ | ⟨hplace, hindex⟩
  · rw [grows.isTopLevel] at htop
    cases hcase : symbol.place <;>
      simp_all [Touching, Touches, Symbol.load, Stage.from?, Place.ofFunction]
  · cases hcase : symbol.place <;>
      simp_all [Touching, Touches, Symbol.load, operand, Place.ofFunction, Scope.globals]

theorem touching_store (stage : Stage) (name : String) (constants : Array Constant) :
    Touching stage ⟨(stage.scope.define name).2, constants⟩ (stage.scope.define name).1.store := by
  obtain ⟨⟨table, outer⟩, constants⟩ := stage
  cases outer with
  | nil => exact ⟨Nat.lt_succ_self _, table.definitions, rfl, Nat.le_refl _⟩
  | cons next rest => trivial

theorem touching_append {stage middle finish : Stage} {first second : List Instruction}
    (hfirst : ∀ instruction ∈ first, Touching stage middle instruction)
    (hsecond : ∀ instruction ∈ second, Touching middle finish instruction)
    (hbefore : stage.scope.Grows middle.scope) (hafter : middle.scope.Grows finish.scope) :
    ∀ instruction ∈ first ++ second, Touching stage finish instruction :=
  List.forall_mem_append.mpr
    ⟨fun instruction member => (hfirst instruction member).around (.refl _) hafter,
      fun instruction member => (hsecond instruction member).around hbefore (.refl _)⟩

theorem Emits.touches {part : Part} {stage finish : Stage} {offset : Nat}
    {code : List Instruction} (emits : Emits part stage offset code finish)
    (valid : stage.scope.Valid) : ∀ instruction ∈ code, Touching stage finish instruction := by
  induction emits with
  | literal | noAlternative | emptyBranch | emptyBody => simp [Touching, Touches]
  | @boolean value => cases value <;> simp [Touching, Touches]
  | ident hresolve _ =>
      obtain ⟨hresolved, -, hloadable⟩ := Scope.resolve_valid valid hresolve
      simpa using touching_load _ ⟨_, _⟩ hloadable hresolved.grows
  | @unary op _ _ _ _ _ _ ih => exact forall_mem_snoc (ih valid) (by cases op <;> trivial)
  | @binary op _ _ _ _ _ _ _ _ _ hopcode hleft hright ihleft ihright =>
      obtain ⟨hmiddle, hgrows⟩ := hleft.valid valid
      refine forall_mem_snoc (touching_append (ihleft valid) (ihright hmiddle) hgrows
        (hright.valid hmiddle).2) ?_
      cases op <;> simp only [binaryOpcode?, Option.some.injEq, reduceCtorEq] at hopcode <;>
        subst hopcode <;> trivial
  | less hfirst hsecond ihfirst ihsecond | index hfirst hsecond ihfirst ihsecond
  | call hfirst hsecond _ ihfirst ihsecond =>
      obtain ⟨hmiddle, hgrows⟩ := hfirst.valid valid
      exact forall_mem_snoc (touching_append (ihfirst valid) (ihsecond hmiddle) hgrows
        (hsecond.valid hmiddle).2) trivial
  | @cond _ _ _ _ _ _ _ _ toAlternative toEnd _ _ _ hcondition hconsequence _ halternative _ _ _
      ihcondition ihconsequence ihalternative =>
      obtain ⟨hfirst, hgrows⟩ := hcondition.valid valid
      obtain ⟨hsecond, hgrows'⟩ := hconsequence.valid hfirst
      have hcode := touching_append (ihcondition valid) (ihconsequence hfirst) hgrows hgrows'
      have hall := touching_append hcode (ihalternative hsecond) (hgrows.trans hgrows')
        (halternative.valid hsecond).2
      intro instruction member
      simp only [List.mem_append, List.mem_cons] at member hall
      rcases member with member | rfl | member | rfl | member
      · exact hall instruction (.inl (.inl member))
      · trivial
      · exact hall instruction (.inl (.inr member))
      · trivial
      · exact hall instruction (.inr member)
  | alternative _ ih | branchValue _ ih | bodyReturn _ ih => exact ih valid
  | array _ _ ih | hash _ _ ih | exprStmt _ ih | ret _ _ ih | bodyValue _ ih =>
      exact forall_mem_snoc (ih valid) trivial
  | @function name parameters _ stage inner outer _ _ _ _ hbody hleave _ _ _ _ =>
      obtain ⟨hentry, houter, -, -⟩ := entry_valid valid name parameters
      obtain ⟨hinner, hgrows⟩ := hbody.valid hentry
      obtain ⟨hextends, hall⟩ := extends_leave houter hgrows hleave
      refine forall_mem_snoc (List.forall_mem_map.mpr fun symbol member => ?_) trivial
      exact touching_load stage ⟨_, _⟩ ((hinner.leave hleave).2 symbol member)
        ⟨hextends.grows, hall⟩
  | noExprs | noPairs | noStmts => simp
  | exprs hfirst hrest ihfirst ihrest | stmts hfirst hrest ihfirst ihrest
  | branchStmt _ hfirst hrest ihfirst ihrest | bodyStmt _ hfirst hrest ihfirst ihrest =>
      obtain ⟨hmiddle, hgrows⟩ := hfirst.valid valid
      exact touching_append (ihfirst valid) (ihrest hmiddle) hgrows (hrest.valid hmiddle).2
  | pairs hkey hvalue hrest ihkey ihvalue ihrest =>
      obtain ⟨hfirst, hgrows⟩ := hkey.valid valid
      obtain ⟨hsecond, hgrows'⟩ := hvalue.valid hfirst
      exact touching_append (touching_append (ihkey valid) (ihvalue hfirst) hgrows hgrows')
        (ihrest hsecond) (hgrows.trans hgrows') (hrest.valid hsecond).2
  | @bind name _ _ finish _ _ hvalue _ ih =>
      obtain ⟨-, hgrows⟩ := hvalue.valid valid
      refine forall_mem_snoc ?_ ((touching_store finish name _).around hgrows (.refl _))
      intro instruction member
      exact (ih valid instruction member).around (.refl _) (Scope.grows_define finish.scope name)

theorem Emits.code_touches {part : Part} {stage finish : Stage} {instructions : List Instruction}
    {code : Code} (emits : Emits part stage 0 instructions finish) (valid : stage.scope.Valid)
    (hcode : code.toList = encodeAll instructions) :
    code.Touches stage.from? finish.scope.globals := by
  rw [Code.Touches, Code.scan_encodeAll emits.fits hcode]
  exact fun entry member => emits.touches valid entry.2 (mem_place member)

theorem MadeOf.touches {globals : Nat} {lambda : Lambda} {template : Template}
    (made : MadeOf globals lambda template) : template.code.Touches none globals := by
  obtain ⟨-, scope, constants, instructions, inner, hvalid, -, hbody, hcode, -, hglobals⟩ := made
  obtain ⟨hentry, houter, -, -⟩ := entry_valid hvalid lambda.name lambda.parameters
  have htouches := hbody.code_touches hentry hcode
  rw [Stage.from?_inside (by simp [Scope.isTopLevel, houter])] at htouches
  exact htouches.mono hglobals

end Compile

end Stacklang
