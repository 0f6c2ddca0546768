import Stacklang.Proofs.Machine.Ready

namespace Stacklang

structure Instruction.Straight (instruction : Instruction) : Prop where
  falls : instruction.FallsThrough
  jump : instruction.op.isJump = false
  closure : instruction.op ≠ .closure

namespace Compile

open Instruction

def Part.yields : Part → Nat
  | .expr _ | .branch _ | .otherwise _ => 1
  | .exprs items => items.length
  | .pairs entries => 2 * entries.length
  | .stmt _ | .block _ | .body _ => 0

/-- Whether the code of a part comes to its end. That of a body or of a return never does. -/
def Part.ends : Part → Bool
  | .body _ | .stmt (.ret _) => false
  | _ => true

/-- A shape has what the symbols of a stage stand for. -/
structure Hosts (shape : Shape) (constants : Array Constant) (stage : Stage) : Prop where
  constants : Constant.Grows stage.constants constants
  locals : stage.scope.isTopLevel = false → stage.scope.table.definitions ≤ shape.locals
  captured : stage.scope.table.captures.length ≤ shape.captured
  function : shape.function = !stage.scope.isTopLevel

theorem Hosts.earlier {shape : Shape} {constants : Array Constant} {stage later : Stage}
    (hosts : Hosts shape constants later) (hscope : stage.scope.Grows later.scope)
    (hconstants : Constant.Grows stage.constants later.constants) :
    Hosts shape constants stage := by
  refine ⟨hconstants.trans hosts.constants, ?_, ?_, ?_⟩
  · intro hinside
    exact Nat.le_trans hscope.table.definitions
      (hosts.locals (by rw [hscope.isTopLevel, hinside]))
  · exact Nat.le_trans hscope.table.captures.length_le hosts.captured
  · rw [hosts.function, hscope.isTopLevel]

theorem Hosts.emits {shape : Shape} {constants : Array Constant} {part : Part}
    {stage finish : Stage} {offset : Nat} {code : List Instruction}
    (hosts : Hosts shape constants finish) (emits : Emits part stage offset code finish)
    (valid : stage.scope.Valid) : Hosts shape constants stage :=
  hosts.earlier (emits.valid valid).2 emits.constants

theorem straight_load (symbol : Symbol) : symbol.load.Straight := by
  unfold Symbol.load
  cases symbol.place <;> exact ⟨by simp [FallsThrough], rfl, by simp⟩

theorem straight_store (symbol : Symbol) : symbol.store.Straight := by
  unfold Symbol.store
  cases symbol.place <;> exact ⟨by simp [FallsThrough], rfl, by simp⟩

@[simp] theorem pops_load (symbol : Symbol) : symbol.load.pops = 0 := by
  unfold Symbol.load
  cases symbol.place <;> rfl

@[simp] theorem pushes_load (symbol : Symbol) : symbol.load.pushes = 1 := by
  unfold Symbol.load
  cases symbol.place <;> rfl

@[simp] theorem pops_store (symbol : Symbol) : symbol.store.pops = 1 := by
  unfold Symbol.store
  cases symbol.place <;> rfl

@[simp] theorem pushes_store (symbol : Symbol) : symbol.store.pushes = 0 := by
  unfold Symbol.store
  cases symbol.place <;> rfl

theorem allows_load {shape : Shape} {constants : Array Constant} {stage : Stage} {symbol : Symbol}
    (hosts : Hosts shape constants stage) (loadable : stage.scope.Loadable symbol) :
    shape.Allows constants symbol.load := by
  have hlocals := hosts.locals
  have hcaptured := hosts.captured
  have hfunction := hosts.function
  rcases loadable with ⟨⟨hplace, hindex⟩, hinside⟩ | ⟨hplace, hindex⟩
  · cases hcase : symbol.place <;>
      simp_all [Symbol.load, Shape.Allows, operand, Place.ofFunction] <;> omega
  · cases hcase : symbol.place <;>
      simp_all [Symbol.load, Shape.Allows, operand, Place.ofFunction]

theorem allows_store {shape : Shape} {constants : Array Constant} {scope : Scope}
    {pool : Array Constant} {name : String}
    (hosts : Hosts shape constants ⟨(scope.define name).2, pool⟩) :
    shape.Allows constants (scope.define name).1.store := by
  cases htop : scope.isTopLevel with
  | true => simp [Symbol.store, Scope.define, Table.define, htop, Shape.Allows]
  | false =>
      have hslot := hosts.locals (show (scope.define name).2.isTopLevel = false from htop)
      have hmore : (scope.define name).2.table.definitions = scope.table.definitions + 1 := rfl
      simp only [hmore] at hslot
      simp only [Symbol.store, Scope.define, Table.define, htop, Shape.Allows, operand]
      simpa [Nat.succ_le_iff] using hslot

/-- The code takes the stack above the locals from one height to another, unless it does not come to
its end: where it stands, it can be run if what is behind it can be. -/
def Carries (constants : Array Constant) (shape : Shape) (offset : Nat) (code : List Instruction)
    (height later : Nat) (ends : Bool) : Prop :=
  shape.code.Holds offset code →
    (ends = true → Ready constants shape (offset + sizeAll code) later) →
      Ready constants shape offset height

section

variable {constants : Array Constant} {shape : Shape} {offset height between later : Nat}
  {ends : Bool}

theorem carries_nil : Carries constants shape offset [] height height true :=
  fun _ hnext => hnext rfl

theorem Carries.append {first second : List Instruction} {firstEnds : Bool}
    (hfirst : Carries constants shape offset first height between firstEnds)
    (hfits : ∀ instruction ∈ first, instruction.Fits)
    (hsecond : Carries constants shape (offset + sizeAll first) second between later ends) :
    Carries constants shape offset (first ++ second) height later ends := by
  intro holds hnext
  refine hfirst holds.left fun _ => hsecond (holds.right hfits) fun hends => ?_
  have hlast := hnext hends
  rwa [sizeAll_append, ← Nat.add_assoc] at hlast

theorem carries_instruction (below : Nat) {instruction : Instruction} (hfits : instruction.Fits)
    (hstraight : instruction.Straight) (hallowed : shape.Allows constants instruction) :
    Carries constants shape offset [instruction] (below + instruction.pops)
      (below + instruction.pushes) true := by
  intro holds hnext
  refine .next (holds.fetch hfits) hstraight.falls hallowed ?_ ?_ (by simpa using hnext rfl)
  · intro template hop
    exact absurd hop hstraight.closure
  · intro target htarget
    simp [target?, hstraight.jump] at htarget

theorem Carries.snoc (below : Nat) {code : List Instruction} {last : Instruction}
    (hcode : Carries constants shape offset code height (below + last.pops) true)
    (hfits : ∀ instruction ∈ code ++ [last], instruction.Fits) (hstraight : last.Straight)
    (hallowed : shape.Allows constants last) :
    Carries constants shape offset (code ++ [last]) height (below + last.pushes) true :=
  hcode.append (fun instruction member => hfits instruction (by simp [member]))
    (carries_instruction below (hfits last (by simp)) hstraight hallowed)

theorem carries_load {stage : Stage} (hosts : Hosts shape constants stage) {symbol : Symbol}
    (hfits : symbol.load.Fits) (loadable : stage.scope.Loadable symbol) :
    Carries constants shape offset [symbol.load] height (height + 1) true := by
  have hload : Carries constants shape offset [symbol.load] (height + symbol.load.pops)
      (height + symbol.load.pushes) true :=
    carries_instruction height hfits (straight_load symbol) (allows_load hosts loadable)
  rwa [pops_load, pushes_load] at hload

theorem carries_loads {stage : Stage} (hosts : Hosts shape constants stage) {symbols : List Symbol}
    (hfits : ∀ symbol ∈ symbols, symbol.load.Fits)
    (hloadable : ∀ symbol ∈ symbols, stage.scope.Loadable symbol) :
    Carries constants shape offset (symbols.map Symbol.load) height (height + symbols.length)
      true := by
  induction symbols generalizing offset height with
  | nil => exact carries_nil
  | cons symbol rest ih =>
      obtain ⟨hsymbol, hrest⟩ := List.forall_mem_cons.mp hfits
      obtain ⟨hfirst, hothers⟩ := List.forall_mem_cons.mp hloadable
      have hload : Carries constants shape offset [symbol.load] height (height + 1) true :=
        carries_load hosts hsymbol hfirst
      rw [List.length_cons, Nat.add_comm rest.length, ← Nat.add_assoc]
      exact hload.append (by simpa using hsymbol) (ih hrest hothers)

theorem carries_closure {template : Template} {index count : Nat}
    (hfits : Fits ⟨.closure, [index, count]⟩)
    (hfound : constants[index]? = some (.function template))
    (callable : Callable constants template count) :
    Carries constants shape offset [⟨.closure, [index, count]⟩] (height + count) (height + 1)
      true := by
  intro holds hnext
  have hready := hnext rfl
  rw [sizeAll_cons, sizeAll_nil, Nat.add_zero] at hready
  refine .next (holds.fetch hfits) (by simp [FallsThrough])
    ⟨template, hfound, callable.parameters⟩ ?_ ?_ hready
  · intro other _ hother
    rw [show operand ⟨.closure, [index, count]⟩ 0 = index from rfl, hfound] at hother
    cases hother
    exact callable.ready
  · rintro target ⟨⟩

theorem carries_return {last : Instruction} (hfunction : shape.function = true)
    (hop : last.op = .returnValue ∨ last.op = .returnNull) (hfits : last.Fits) :
    Carries constants shape offset [last] (height + last.pops) later false :=
  fun holds _ => .leave hfunction (holds.fetch hfits) hop

/-- Both branches come to the end of a choice with one more value. -/
theorem Carries.choose {toAlternative toEnd : Nat}
    {conditionCode consequenceCode alternativeCode : List Instruction}
    (hcondition : Carries constants shape offset conditionCode height (height + 1) true)
    (hconditionFits : ∀ instruction ∈ conditionCode, instruction.Fits)
    (hconsequence : Carries constants shape (offset + sizeAll conditionCode + 3) consequenceCode
      height (height + 1) true)
    (hconsequenceFits : ∀ instruction ∈ consequenceCode, instruction.Fits)
    (hto : toAlternative = offset + sizeAll conditionCode + 3 + sizeAll consequenceCode + 3)
    (halternative : Carries constants shape toAlternative alternativeCode height (height + 1) true)
    (hend : toEnd = toAlternative + sizeAll alternativeCode)
    (hfirst : Fits ⟨.jumpNotTruthy, [toAlternative]⟩) (hsecond : Fits ⟨.jump, [toEnd]⟩) :
    Carries constants shape offset
      (conditionCode ++ ⟨.jumpNotTruthy, [toAlternative]⟩ ::
        (consequenceCode ++ ⟨.jump, [toEnd]⟩ :: alternativeCode)) height (height + 1) true := by
  intro holds hnext
  have hafter := holds.right hconditionFits
  have hbranch := hafter.tail hfirst
  have hjump := hbranch.right hconsequenceFits
  have helse := hjump.tail hsecond
  have hready : Ready constants shape toEnd (height + 1) := by
    have hlast := hnext rfl
    rwa [choice_end hto hend] at hlast
  have helseReady : Ready constants shape toAlternative height :=
    halternative (hto ▸ helse) fun _ => hend ▸ hready
  refine hcondition holds.left fun _ =>
    .next (hafter.fetch hfirst) (by simp [FallsThrough]) trivial (by simp) ?_ ?_
  · rintro target ⟨⟩
    exact helseReady
  · exact hconsequence hbranch.left fun _ => .jump (hjump.fetch hsecond) hready

end

theorem straight_op {op : Opcode} {operands : List Nat}
    (hop : op.isJump = false ∧ op ≠ .jump ∧ op ≠ .returnValue ∧ op ≠ .returnNull ∧
      op ≠ .closure := by decide) : Straight ⟨op, operands⟩ :=
  ⟨⟨hop.2.1, hop.2.2.1, hop.2.2.2.1⟩, hop.1, hop.2.2.2.2⟩

theorem straight_unaryOpcode (op : UnaryOp) : Straight ⟨unaryOpcode op, []⟩ := by
  cases op <;> exact straight_op

theorem straight_binaryOpcode {op : BinaryOp} {opcode : Opcode}
    (hopcode : binaryOpcode? op = some opcode) :
    Straight ⟨opcode, []⟩ ∧ pops ⟨opcode, []⟩ = 2 ∧ pushes ⟨opcode, []⟩ = 1 ∧
      ∀ (shape : Shape) constants, shape.Allows constants ⟨opcode, []⟩ := by
  cases op <;> simp only [binaryOpcode?, Option.some.injEq, reduceCtorEq] at hopcode <;>
    subst hopcode <;> exact ⟨straight_op, rfl, rfl, fun _ _ => trivial⟩

theorem callable_of_body {name : Option String} {parameters : List String} {body : List Stmt}
    {stage inner : Stage} {instructions : List Instruction} {code : Code}
    {constants : Array Constant} (valid : stage.scope.Valid)
    (hbody : Emits (.body body) ⟨stage.scope.entry name parameters, stage.constants⟩ 0 instructions
      inner)
    (hcode : code.toList = encodeAll instructions)
    (hgrows : Constant.Grows inner.constants constants)
    (hcarries : ∀ {shape : Shape}, Hosts shape constants inner → shape.function = true →
      Carries constants shape 0 instructions 0 0 false) :
    Callable constants ⟨code, inner.scope.table.definitions, parameters.length⟩
      inner.scope.table.captures.length := by
  obtain ⟨hentry, houter, hdefinitions, -⟩ := entry_valid valid name parameters
  obtain ⟨hinner, hscope⟩ := hbody.valid hentry
  have hfunction : inner.scope.isTopLevel = false := by
    rw [hscope.isTopLevel, Scope.isTopLevel, houter]
    rfl
  constructor
  · have hmore := hscope.table.definitions
    rwa [hdefinitions] at hmore
  · refine hcarries ⟨hgrows, fun _ => Nat.le_refl _, Nat.le_refl _, ?_⟩ rfl
      (Code.holds_all hcode) (by simp)
    rw [hfunction]
    rfl

/-- The code of a part leaves on the stack what the part yields. That of a body needs a call to
return from. -/
theorem Emits.carries {part : Part} {stage finish : Stage} {offset : Nat} {code : List Instruction}
    (emits : Emits part stage offset code finish) (valid : stage.scope.Valid)
    {constants : Array Constant} {shape : Shape} (hosts : Hosts shape constants finish)
    (hinside : ∀ stmts, part = .body stmts → shape.function = true) (height : Nat) :
    Carries constants shape offset code height (height + part.yields) part.ends := by
  induction emits generalizing shape height with
  | literal hconstant hfits =>
      refine carries_instruction height hfits straight_op ?_
      have hmore := hosts.constants.size_le
      simp only [Array.size_push] at hmore
      exact hmore
  | @boolean value =>
      cases value <;> exact carries_instruction height (fits_nil rfl) straight_op trivial
  | noAlternative | emptyBranch =>
      exact carries_instruction height (fits_nil rfl) straight_op trivial
  | ident hresolve hfits =>
      exact carries_load hosts hfits (Scope.resolve_valid valid hresolve).2.2
  | @unary op _ _ _ _ _ hoperand ih =>
      have hcode := ih valid hosts (by simp) height
      cases op <;> exact hcode.snoc height (Emits.unary hoperand).fits (straight_unaryOpcode _) trivial
  | binary hopcode hleft hright ihleft ihright =>
      have hmiddle := (hleft.valid valid).1
      obtain ⟨hstraight, hpops, hpushes, hallowed⟩ := straight_binaryOpcode hopcode
      have hboth := (ihleft valid (hosts.emits hright hmiddle) (by simp) height).append hleft.fits
        (ihright hmiddle hosts (by simp) _)
      have hlast := Carries.snoc height (by rwa [hpops]) (Emits.binary hopcode hleft hright).fits
        hstraight (hallowed shape constants)
      rwa [hpushes] at hlast
  | less hright hleft ihright ihleft =>
      have hmiddle := (hright.valid valid).1
      have hboth := (ihright valid (hosts.emits hleft hmiddle) (by simp) height).append hright.fits
        (ihleft hmiddle hosts (by simp) _)
      exact hboth.snoc height (Emits.less hright hleft).fits straight_op trivial
  | index hcontainer hindex ihcontainer ihindex =>
      have hmiddle := (hcontainer.valid valid).1
      have hboth := (ihcontainer valid (hosts.emits hindex hmiddle) (by simp) height).append
        hcontainer.fits (ihindex hmiddle hosts (by simp) _)
      exact hboth.snoc height (Emits.index hcontainer hindex).fits straight_op trivial
  | call hcallee harguments hfits ihcallee iharguments =>
      have hmiddle := (hcallee.valid valid).1
      have hboth := (ihcallee valid (hosts.emits harguments hmiddle) (by simp) height).append
        hcallee.fits (iharguments hmiddle hosts (by simp) _)
      rw [show height + (Part.expr _).yields + (Part.exprs _).yields =
        height + pops ⟨.call, [_]⟩ from Nat.add_right_comm height 1 _] at hboth
      exact hboth.snoc height (Emits.call hcallee harguments hfits).fits straight_op trivial
  | array hitems hfits ih =>
      exact (ih valid hosts (by simp) height).snoc height (Emits.array hitems hfits).fits straight_op
        trivial
  | hash hpairs hfits ih =>
      have hcode := ih valid hosts (by simp) height
      rw [Part.yields, Expr.length_keyOrder] at hcode
      exact hcode.snoc height (Emits.hash hpairs hfits).fits straight_op trivial
  | cond hcondition hconsequence hto halternative hend hfirst hsecond ihcondition ihconsequence
      ihalternative =>
      have hvalid := (hcondition.valid valid).1
      have hvalid' := (hconsequence.valid hvalid).1
      have hmiddle := hosts.emits halternative hvalid'
      exact Carries.choose (ihcondition valid (hmiddle.emits hconsequence hvalid) (by simp) height)
        hcondition.fits (ihconsequence hvalid hmiddle (by simp) height) hconsequence.fits hto
        (ihalternative hvalid' hosts (by simp) height) hend hfirst hsecond
  | alternative _ ih | branchValue _ ih => exact ih valid hosts (by simp) height
  | function hparameters hbody hleave hcode hloads hfits ih =>
      obtain ⟨hentry, -, -, -⟩ := entry_valid valid _ _
      have hinner := (hbody.valid hentry).1
      have callable := callable_of_body valid hbody hcode
        ((Constant.grows_push _ _).trans hosts.constants)
        fun hhosts hfunction => ih hentry hhosts (fun _ _ => hfunction) 0
      exact (carries_loads hosts hloads (hinner.leave hleave).2).append
        (List.forall_mem_map.mpr hloads)
        (carries_closure hfits (hosts.constants (by simp)) callable)
  | noExprs | noPairs | noStmts => exact carries_nil
  | exprs hexpr hrest ihexpr ihrest =>
      have hmiddle := (hexpr.valid valid).1
      have hboth := (ihexpr valid (hosts.emits hrest hmiddle) (by simp) height).append hexpr.fits
        (ihrest hmiddle hosts (by simp) _)
      rwa [show height + (Part.expr _).yields + (Part.exprs _).yields =
        height + (Part.exprs (_ :: _)).yields from Nat.add_right_comm height 1 _] at hboth
  | @pairs _ _ rest _ _ _ _ _ _ _ _ hkey hvalue hrest ihkey ihvalue ihrest =>
      have hfirst := (hkey.valid valid).1
      have hsecond := (hvalue.valid hfirst).1
      have hmiddle := hosts.emits hrest hsecond
      have hpair := (ihkey valid (hmiddle.emits hvalue hfirst) (by simp) height).append hkey.fits
        (ihvalue hfirst hmiddle (by simp) _)
      have hrests := ihrest hsecond hosts (by simp) (height + 1 + 1)
      rw [Nat.add_assoc, ← sizeAll_append] at hrests
      have hall := hpair.append (List.forall_mem_append.mpr ⟨hkey.fits, hvalue.fits⟩) hrests
      simp only [Part.yields, List.length_cons] at hall ⊢
      rwa [show height + 1 + 1 + 2 * rest.length = height + 2 * (rest.length + 1) by omega] at hall
  | exprStmt hvalue ih =>
      exact (ih valid hosts (by simp) height).snoc height (Emits.exprStmt hvalue).fits straight_op
        trivial
  | @bind name _ _ finish _ _ hvalue hfits ih =>
      have hcode := ih valid (hosts.earlier (Scope.grows_define finish.scope name) (.refl _))
        (by simp) height
      have hlast := Carries.snoc height (by rwa [pops_store]) (Emits.bind hvalue hfits).fits
        (straight_store _) (allows_store hosts)
      rwa [pushes_store] at hlast
  | ret hfunction hvalue ih =>
      refine (ih valid hosts (by simp) height).append hvalue.fits
        (carries_return ?_ (.inl rfl) (fits_nil rfl))
      rw [hosts.function, (hvalue.valid valid).2.isTopLevel, hfunction]
      rfl
  | stmts hstmt hrest ihstmt ihrest | branchStmt _ hstmt hrest ihstmt ihrest =>
      have hmiddle := (hstmt.valid valid).1
      exact (ihstmt valid (hosts.emits hrest hmiddle) (by simp) height).append hstmt.fits
        (ihrest hmiddle hosts (by simp) height)
  | emptyBody => exact carries_return (hinside _ rfl) (.inr rfl) (fits_nil rfl)
  | bodyValue hvalue ih =>
      exact (ih valid hosts (by simp) height).append hvalue.fits
        (carries_return (hinside _ rfl) (.inl rfl) (fits_nil rfl))
  | bodyReturn hreturn ih => exact ih valid hosts (by simp) height
  | bodyStmt _ hstmt hrest ihstmt ihrest =>
      have hmiddle := (hstmt.valid valid).1
      exact (ihstmt valid (hosts.emits hrest hmiddle) (by simp) height).append hstmt.fits
        (ihrest hmiddle hosts (fun _ _ => hinside _ rfl) height)

theorem Emits.ready_main {stmts : List Stmt} {stage finish : Stage}
    {instructions : List Instruction} {code : Code}
    (emits : Emits (.block stmts) stage 0 instructions finish) (valid : stage.scope.Valid)
    (htop : stage.scope.isTopLevel = true) (hcode : code.toList = encodeAll instructions) :
    Ready finish.constants code.mainShape 0 0 := by
  obtain ⟨hvalid, hgrows⟩ := emits.valid valid
  have hfinish : finish.scope.isTopLevel = true := hgrows.isTopLevel.trans htop
  have hcaptures : finish.scope.table.captures = [] := by
    have houter := List.isEmpty_iff.mp hfinish
    rw [Scope.Valid, houter] at hvalid
    exact hvalid.2
  refine emits.carries valid ⟨.refl _, ?_, ?_, ?_⟩ (by simp) 0 (Code.holds_all hcode) fun _ => ?_
  · simp [hfinish]
  · rw [hcaptures]
    exact Nat.le_refl 0
  · rw [hfinish]
    rfl
  · refine .done rfl ?_
    have hsize : code.size = sizeAll instructions := by
      rw [← Array.length_toList, hcode, length_encodeAll emits.fits]
    exact (Nat.zero_add _).trans hsize.symm

end Compile

end Stacklang
