import Stacklang.Proofs.Bytecode.Accepted
import Stacklang.Proofs.Compile.Emits

namespace Stacklang

namespace Instruction

def Lands (offset : Nat) (code : List Instruction) (target : Nat) : Prop :=
  target = offset + sizeAll code ∨ ∃ instruction, (target, instruction) ∈ place offset code

theorem lands_start (offset : Nat) (code : List Instruction) : Lands offset code offset := by
  cases code with
  | nil => exact .inl (by simp)
  | cons first rest => exact .inr ⟨first, by simp [place]⟩

theorem Lands.left {offset target : Nat} {first : List Instruction} (second : List Instruction)
    (lands : Lands offset first target) : Lands offset (first ++ second) target := by
  rcases lands with rfl | ⟨instruction, member⟩
  · rcases lands_start (offset + sizeAll first) second with hend | ⟨instruction, member⟩
    · exact .inl (by rw [sizeAll_append]; omega)
    · exact .inr ⟨instruction, by rw [place_append]; simp [member]⟩
  · exact .inr ⟨instruction, by rw [place_append]; simp [member]⟩

theorem Lands.right {offset target : Nat} (first : List Instruction) {second : List Instruction}
    (lands : Lands (offset + sizeAll first) second target) :
    Lands offset (first ++ second) target := by
  rcases lands with rfl | ⟨instruction, member⟩
  · exact .inl (by rw [sizeAll_append]; omega)
  · exact .inr ⟨instruction, by rw [place_append]; simp [member]⟩

/-- Every jump among the instructions goes to one of them or to their end. -/
def JumpsLand (offset : Nat) (code : List Instruction) : Prop :=
  ∀ instruction ∈ code, ∀ target, instruction.target? = some target → Lands offset code target

theorem jumpsLand_nil (offset : Nat) : JumpsLand offset [] := by
  intro instruction member
  simp at member

theorem JumpsLand.append {offset : Nat} {first second : List Instruction}
    (hfirst : JumpsLand offset first) (hsecond : JumpsLand (offset + sizeAll first) second) :
    JumpsLand offset (first ++ second) := by
  intro instruction member target htarget
  rcases List.mem_append.mp member with member | member
  · exact (hfirst instruction member target htarget).left second
  · exact (hsecond instruction member target htarget).right first

theorem jumpsLand_straight {offset : Nat} {code : List Instruction}
    (hstraight : ∀ instruction ∈ code, instruction.op.isJump = false) : JumpsLand offset code := by
  intro instruction member target htarget
  simp [target?, hstraight instruction member] at htarget

theorem JumpsLand.snoc {offset : Nat} {code : List Instruction} {last : Instruction}
    (hcode : JumpsLand offset code) (hlast : last.op.isJump = false) :
    JumpsLand offset (code ++ [last]) :=
  hcode.append (jumpsLand_straight (by simpa using hlast))

end Instruction

theorem Symbol.isJump_load (symbol : Symbol) : symbol.load.op.isJump = false := by
  unfold Symbol.load
  cases symbol.place <;> rfl

theorem Symbol.isJump_store (symbol : Symbol) : symbol.store.op.isJump = false := by
  unfold Symbol.store
  cases symbol.place <;> rfl

namespace Compile

open Instruction

theorem isJump_unaryOpcode (op : UnaryOp) : (unaryOpcode op).isJump = false := by
  cases op <;> rfl

theorem isJump_binaryOpcode {op : BinaryOp} {opcode : Opcode}
    (hopcode : binaryOpcode? op = some opcode) : opcode.isJump = false := by
  cases op <;> simp only [binaryOpcode?, Option.some.injEq, reduceCtorEq] at hopcode <;>
    subst hopcode <;> rfl

theorem Emits.jumpsLand {part : Part} {stage finish : Stage} {offset : Nat}
    {code : List Instruction} (emits : Emits part stage offset code finish) :
    JumpsLand offset code := by
  induction emits with
  | literal => exact jumpsLand_straight (by simp [Opcode.isJump])
  | @boolean value => cases value <;> exact jumpsLand_straight (by simp [Opcode.isJump])
  | ident => exact jumpsLand_straight (by simpa using Symbol.isJump_load _)
  | unary _ ih => exact ih.snoc (isJump_unaryOpcode _)
  | binary hopcode _ _ ihleft ihright => exact (ihleft.append ihright).snoc (isJump_binaryOpcode hopcode)
  | less _ _ ihfirst ihsecond | index _ _ ihfirst ihsecond | call _ _ _ ihfirst ihsecond =>
      exact (ihfirst.append ihsecond).snoc rfl
  | @cond _ _ _ _ _ _ _ offset toAlternative toEnd conditionCode consequenceCode alternativeCode
      _ _ hto _ hend _ _ ihcondition ihconsequence ihalternative =>
      have hsplit : conditionCode ++ ⟨.jumpNotTruthy, [toAlternative]⟩ ::
          (consequenceCode ++ ⟨.jump, [toEnd]⟩ :: alternativeCode) =
          (conditionCode ++ ⟨.jumpNotTruthy, [toAlternative]⟩ ::
            (consequenceCode ++ [⟨.jump, [toEnd]⟩])) ++ alternativeCode := by
        simp
      have hsize : offset + sizeAll (conditionCode ++ ⟨.jumpNotTruthy, [toAlternative]⟩ ::
          (consequenceCode ++ [⟨.jump, [toEnd]⟩])) = toAlternative := by
        rw [sizeAll_choice, sizeAll_nil]
        omega
      intro instruction member target htarget
      simp only [List.mem_append, List.mem_cons] at member
      rcases member with member | rfl | member | rfl | member
      · exact (ihcondition instruction member target htarget).left _
      · cases htarget
        rw [hsplit]
        exact Lands.left _ (.inl hsize.symm)
      · have hlands := ihconsequence instruction member target htarget
        have hinner := Lands.right [⟨.jumpNotTruthy, [toAlternative]⟩] (hlands.left
          (⟨.jump, [toEnd]⟩ :: alternativeCode))
        exact Lands.right conditionCode hinner
      · cases htarget
        exact .inl (choice_end hto hend).symm
      · rw [hsplit]
        refine Lands.right _ ?_
        rw [hsize]
        exact ihalternative instruction member target htarget
  | alternative _ ih | branchValue _ ih | bodyReturn _ ih => exact ih
  | array _ _ ih | hash _ _ ih | exprStmt _ ih | ret _ _ ih | bodyValue _ ih => exact ih.snoc rfl
  | bind _ _ ih => exact ih.snoc (Symbol.isJump_store _)
  | function =>
      refine jumpsLand_straight ?_
      simp only [List.mem_append, List.mem_map, List.mem_singleton]
      rintro instruction (⟨symbol, -, rfl⟩ | rfl)
      · exact symbol.isJump_load
      · rfl
  | noExprs | noPairs | noStmts => exact jumpsLand_nil _
  | exprs _ _ ihfirst ihrest | stmts _ _ ihfirst ihrest | branchStmt _ _ _ ihfirst ihrest
  | bodyStmt _ _ _ ihfirst ihrest => exact ihfirst.append ihrest
  | pairs _ _ _ ihkey ihvalue ihrest =>
      refine (ihkey.append ihvalue).append ?_
      simpa only [sizeAll_append, Nat.add_assoc] using ihrest
  | noAlternative | emptyBranch | emptyBody =>
      exact jumpsLand_straight (by simp [Opcode.isJump])

end Compile

def Scope.locals? (scope : Scope) : Option Nat :=
  if scope.isTopLevel then none else some scope.table.definitions

theorem Scope.Grows.locals? {scope later : Scope} (grows : scope.Grows later) {locals : Nat}
    (hlocals : scope.locals? = some locals) :
    ∃ more, later.locals? = some more ∧ locals ≤ more := by
  unfold Scope.locals? at hlocals ⊢
  rw [grows.isTopLevel]
  cases htop : scope.isTopLevel with
  | true => simp [htop] at hlocals
  | false =>
      simp only [htop, Bool.false_eq_true, if_false, Option.some.injEq] at hlocals ⊢
      subst hlocals
      exact ⟨_, rfl, grows.table.definitions⟩

namespace Verify

theorem instruction_mono {constants later : Array Constant} {locals? later? : Option Nat}
    {next : Instruction} (grows : Constant.Grows constants later)
    (hlocals : ∀ locals, locals? = some locals → ∃ more, later? = some more ∧ locals ≤ more)
    (hchecked : instruction constants locals? next = .ok ()) :
    instruction later later? next = .ok () := by
  have hslot : ∀ _ : next.op = .getLocal ∨ next.op = .setLocal,
      instruction later later? next = .ok () := by
    intro hop
    obtain ⟨locals, hsome, hless⟩ := (local_ok_iff hop).mp hchecked
    obtain ⟨more, hmore, hle⟩ := hlocals locals hsome
    exact (local_ok_iff hop).mpr ⟨more, hmore, by omega⟩
  cases hop : next.op with
  | constant =>
      have hless := (constant_ok_iff hop).mp hchecked
      have hsize := grows.size_le
      exact (constant_ok_iff hop).mpr (by omega)
  | closure =>
      obtain ⟨template, hfound⟩ := (closure_ok_iff hop).mp hchecked
      exact (closure_ok_iff hop).mpr ⟨template, grows hfound⟩
  | getBuiltin => exact (getBuiltin_ok_iff hop).mpr ((getBuiltin_ok_iff hop).mp hchecked)
  | getLocal => exact hslot (.inl hop)
  | setLocal => exact hslot (.inr hop)
  | _ => simp only [instruction, hop]

theorem Accepted.mono {constants later : Array Constant} {locals? : Option Nat} {code : Code}
    (accepted : Accepted constants locals? code) (grows : Constant.Grows constants later) :
    Accepted later locals? code :=
  ⟨accepted.whole,
    fun entry member =>
      instruction_mono grows (fun locals hlocals => ⟨locals, hlocals, Nat.le_refl _⟩)
        (accepted.checked entry member),
    accepted.landing⟩

theorem AcceptedTemplate.mono {constants later : Array Constant} {function : Template}
    (accepted : AcceptedTemplate constants function) (grows : Constant.Grows constants later) :
    AcceptedTemplate later function :=
  ⟨accepted.locals, accepted.parameters, accepted.stream.mono grows⟩

theorem accepted_encodeAll {constants : Array Constant} {locals? : Option Nat} {code : Code}
    {instructions : List Instruction} (hcode : code.toList = Instruction.encodeAll instructions)
    (hfits : ∀ next ∈ instructions, next.Fits)
    (hchecked : ∀ next ∈ instructions, instruction constants locals? next = .ok ())
    (hjumps : Instruction.JumpsLand 0 instructions) : Accepted constants locals? code := by
  have hscan := Code.scan_encodeAll hfits hcode
  refine ⟨by rw [hscan], ?_, ?_⟩
  · intro entry member
    rw [hscan] at member
    exact hchecked entry.2 (Instruction.mem_place member)
  · intro entry member target htarget
    rw [hscan] at member
    have hsize : code.size = Instruction.sizeAll instructions := by
      rw [← Array.length_toList, hcode, Instruction.length_encodeAll hfits]
    rcases hjumps entry.2 (Instruction.mem_place member) target htarget with rfl | hplaced
    · exact .inl (by omega)
    · exact .inr (by rw [hscan]; exact hplaced)

end Verify

namespace Compile

open Instruction Verify

def Checked (stage : Stage) (instruction : Instruction) : Prop :=
  Verify.instruction stage.constants stage.scope.locals? instruction = .ok ()

theorem Checked.mono {stage later : Stage} {instruction : Instruction}
    (checked : Checked stage instruction) (hscope : stage.scope.Grows later.scope)
    (hconstants : Constant.Grows stage.constants later.constants) : Checked later instruction :=
  instruction_mono hconstants (fun _ hlocals => hscope.locals? hlocals) checked

theorem Checked.emits {stage finish : Stage} {instruction : Instruction} {part : Part}
    {offset : Nat} {code : List Instruction} (checked : Checked stage instruction)
    (emits : Emits part stage offset code finish) (valid : stage.scope.Valid) :
    Checked finish instruction :=
  checked.mono (emits.valid valid).2 emits.constants

theorem checked_load {scope : Scope} {symbol : Symbol} (constants : Array Constant)
    (loadable : scope.Loadable symbol) : Checked ⟨scope, constants⟩ symbol.load := by
  rcases loadable with ⟨⟨hplace, hindex⟩, htop⟩ | ⟨hplace, hindex⟩
  · cases hcase : symbol.place <;>
      simp_all [Checked, Symbol.load, Verify.instruction, Scope.locals?, operand, Place.ofFunction]
  · cases hcase : symbol.place <;>
      simp_all [Checked, Symbol.load, Verify.instruction, operand, Place.ofFunction]

theorem checked_store (scope : Scope) (name : String) (constants : Array Constant) :
    Checked ⟨(scope.define name).2, constants⟩ (scope.define name).1.store := by
  cases htop : scope.isTopLevel with
  | true => simp [Checked, Symbol.store, Scope.define, Table.define, htop, Verify.instruction]
  | false =>
      have hlater : (scope.define name).2.isTopLevel = false := htop
      rw [store_inside htop]
      have hlocals : (scope.define name).2.locals? = some (scope.table.definitions + 1) := by
        rw [Scope.locals?, hlater]
        rfl
      exact (local_ok_iff (.inr rfl)).mpr ⟨_, hlocals, Nat.lt_succ_self _⟩

theorem checked_append {part : Part} {first second : List Instruction} {offset : Nat}
    {middle finish : Stage} (hfirst : ∀ instruction ∈ first, Checked middle instruction)
    (emits : Emits part middle offset second finish) (valid : middle.scope.Valid)
    (hsecond : ∀ instruction ∈ second, Checked finish instruction) :
    ∀ instruction ∈ first ++ second, Checked finish instruction :=
  List.forall_mem_append.mpr
    ⟨fun instruction member => (hfirst instruction member).emits emits valid, hsecond⟩

theorem Emits.checked {part : Part} {stage finish : Stage} {offset : Nat}
    {code : List Instruction} (emits : Emits part stage offset code finish)
    (valid : stage.scope.Valid) : ∀ instruction ∈ code, Checked finish instruction := by
  induction emits with
  | literal => simp [Checked, Verify.instruction, operand]
  | @boolean value => cases value <;> simp [Checked, Verify.instruction]
  | ident hresolve _ =>
      have hloadable := (Scope.resolve_valid valid hresolve).2.2
      simpa using checked_load _ hloadable
  | @unary op _ _ _ _ _ _ ih => exact forall_mem_snoc (ih valid) (by cases op <;> rfl)
  | @binary op _ _ _ _ _ _ _ _ _ hopcode hleft hright ihleft ihright =>
      have hmiddle := (hleft.valid valid).1
      refine forall_mem_snoc (checked_append (ihleft valid) hright hmiddle (ihright hmiddle)) ?_
      cases op <;> simp only [binaryOpcode?, Option.some.injEq, reduceCtorEq] at hopcode <;>
        subst hopcode <;> rfl
  | less hfirst hsecond ihfirst ihsecond | index hfirst hsecond ihfirst ihsecond
  | call hfirst hsecond _ ihfirst ihsecond =>
      have hmiddle := (hfirst.valid valid).1
      exact forall_mem_snoc (checked_append (ihfirst valid) hsecond hmiddle (ihsecond hmiddle)) rfl
  | @cond _ _ _ _ _ _ _ _ toAlternative toEnd _ _ _ hcondition hconsequence _ halternative _ _ _
      ihcondition ihconsequence ihalternative =>
      have hfirst := (hcondition.valid valid).1
      have hsecond := (hconsequence.valid hfirst).1
      have hcode := checked_append (ihcondition valid) hconsequence hfirst (ihconsequence hfirst)
      have hall := checked_append hcode halternative hsecond (ihalternative hsecond)
      intro instruction member
      simp only [List.mem_append, List.mem_cons] at member hall
      rcases member with member | rfl | member | rfl | member
      · exact hall instruction (.inl (.inl member))
      · rfl
      · exact hall instruction (.inl (.inr member))
      · rfl
      · exact hall instruction (.inr member)
  | noAlternative | emptyBranch | emptyBody => simp [Checked, Verify.instruction]
  | alternative _ ih | branchValue _ ih | bodyReturn _ ih => exact ih valid
  | array _ _ ih | hash _ _ ih | exprStmt _ ih | ret _ _ ih | bodyValue _ ih =>
      exact forall_mem_snoc (ih valid) rfl
  | @function name parameters _ stage inner outer _ _ _ _ hbody hleave _ _ _ _ =>
      obtain ⟨hentry, -, -, -⟩ := entry_valid valid name parameters
      have hloadable := ((hbody.valid hentry).1.leave hleave).2
      refine forall_mem_snoc (List.forall_mem_map.mpr fun symbol member => ?_) ?_
      · exact checked_load _ (hloadable symbol member)
      · simp [Checked, Verify.instruction, operand]
  | noExprs | noPairs | noStmts => simp
  | exprs hfirst hrest ihfirst ihrest | stmts hfirst hrest ihfirst ihrest
  | branchStmt _ hfirst hrest ihfirst ihrest | bodyStmt _ hfirst hrest ihfirst ihrest =>
      have hmiddle := (hfirst.valid valid).1
      exact checked_append (ihfirst valid) hrest hmiddle (ihrest hmiddle)
  | pairs hkey hvalue hrest ihkey ihvalue ihrest =>
      have hfirst := (hkey.valid valid).1
      have hsecond := (hvalue.valid hfirst).1
      exact checked_append (checked_append (ihkey valid) hvalue hfirst (ihvalue hfirst)) hrest hsecond
        (ihrest hsecond)
  | @bind name _ _ finish _ _ hvalue _ ih =>
      refine forall_mem_snoc ?_ (checked_store _ _ _)
      intro instruction member
      exact (ih valid instruction member).mono (Scope.grows_define finish.scope name) (.refl _)

theorem Emits.valid_inside {part : Part} {stage finish : Stage} {offset : Nat}
    {code : List Instruction} (emits : Emits part stage offset code finish)
    (valid : stage.scope.Valid) (hinside : stage.scope.isTopLevel = false) :
    finish.scope.Valid ∧ finish.scope.isTopLevel = false := by
  obtain ⟨hfinish, hgrows⟩ := emits.valid valid
  exact ⟨hfinish, by rw [hgrows.isTopLevel, hinside]⟩

theorem Emits.definitions_le {part : Part} {stage finish : Stage} {offset : Nat}
    {code : List Instruction} (emits : Emits part stage offset code finish)
    (valid : stage.scope.Valid) (hinside : stage.scope.isTopLevel = false)
    (hlocals : stage.scope.table.definitions ≤ maxLocals) :
    finish.scope.table.definitions ≤ maxLocals := by
  induction emits with
  | literal | boolean | noAlternative | noExprs | noPairs | noStmts | emptyBranch | emptyBody =>
      exact hlocals
  | ident hresolve _ =>
      rw [(Scope.resolve_valid valid hresolve).1.extends.1.definitions]
      exact hlocals
  | unary _ ih | alternative _ ih | exprStmt _ ih | branchValue _ ih | bodyValue _ ih
  | bodyReturn _ ih | array _ _ ih | hash _ _ ih | ret _ _ ih => exact ih valid hinside hlocals
  | binary _ hfirst _ ihfirst ihsecond | less hfirst _ ihfirst ihsecond
  | index hfirst _ ihfirst ihsecond | call hfirst _ _ ihfirst ihsecond
  | exprs hfirst _ ihfirst ihsecond | stmts hfirst _ ihfirst ihsecond
  | branchStmt _ hfirst _ ihfirst ihsecond | bodyStmt _ hfirst _ ihfirst ihsecond =>
      obtain ⟨hmiddle, htop⟩ := hfirst.valid_inside valid hinside
      exact ihsecond hmiddle htop (ihfirst valid hinside hlocals)
  | pairs hkey hvalue _ ihkey ihvalue ihrest =>
      obtain ⟨hfirst, htop⟩ := hkey.valid_inside valid hinside
      obtain ⟨hsecond, htop'⟩ := hvalue.valid_inside hfirst htop
      exact ihrest hsecond htop' (ihvalue hfirst htop (ihkey valid hinside hlocals))
  | cond hcondition hconsequence _ _ _ _ _ ihcondition ihconsequence ihalternative =>
      obtain ⟨hfirst, htop⟩ := hcondition.valid_inside valid hinside
      obtain ⟨hsecond, htop'⟩ := hconsequence.valid_inside hfirst htop
      exact ihalternative hsecond htop'
        (ihconsequence hfirst htop (ihcondition valid hinside hlocals))
  | @function name parameters _ stage inner outer _ _ _ _ hbody hleave _ _ _ _ =>
      obtain ⟨hentry, houter, -, -⟩ := entry_valid valid name parameters
      rw [(extends_leave houter (hbody.valid hentry).2 hleave).1.definitions]
      exact hlocals
  | @bind name _ stage finish _ _ hvalue hfits ih =>
      obtain ⟨-, htop⟩ := hvalue.valid_inside valid hinside
      rw [store_inside htop] at hfits
      have hslot := hfits.2 (finish.scope.table.definitions, .byte) (by simp [Opcode.widths])
      simp only [Width.maximum] at hslot
      simp only [Scope.define, Table.define, maxLocals]
      omega

def Sound (constants : Array Constant) : Prop :=
  ∀ function, .function function ∈ constants → AcceptedTemplate constants function

theorem Sound.push {constants : Array Constant} {constant : Constant} (sound : Sound constants)
    (hnew : ∀ function, constant = .function function → AcceptedTemplate constants function) :
    Sound (constants.push constant) := by
  intro function member
  rcases Array.mem_push.mp member with member | heq
  · exact (sound function member).mono (Constant.grows_push _ _)
  · exact (hnew function heq.symm).mono (Constant.grows_push _ _)

theorem Emits.sound {part : Part} {stage finish : Stage} {offset : Nat}
    {code : List Instruction} (emits : Emits part stage offset code finish)
    (valid : stage.scope.Valid) (sound : Sound stage.constants) : Sound finish.constants := by
  induction emits with
  | @literal expr _ _ _ hconstant _ =>
      refine sound.push ?_
      rintro function rfl
      cases expr <;> simp [Expr.constant?] at hconstant
  | boolean | ident | noAlternative | noExprs | noPairs | noStmts | emptyBranch | emptyBody =>
      exact sound
  | unary _ ih | alternative _ ih | exprStmt _ ih | branchValue _ ih | bodyValue _ ih
  | bodyReturn _ ih | array _ _ ih | hash _ _ ih | ret _ _ ih | bind _ _ ih =>
      exact ih valid sound
  | binary _ hfirst _ ihfirst ihsecond | less hfirst _ ihfirst ihsecond
  | index hfirst _ ihfirst ihsecond | call hfirst _ _ ihfirst ihsecond
  | exprs hfirst _ ihfirst ihsecond | stmts hfirst _ ihfirst ihsecond
  | branchStmt _ hfirst _ ihfirst ihsecond | bodyStmt _ hfirst _ ihfirst ihsecond =>
      exact ihsecond (hfirst.valid valid).1 (ihfirst valid sound)
  | pairs hkey hvalue _ ihkey ihvalue ihrest =>
      have hfirst := (hkey.valid valid).1
      exact ihrest (hvalue.valid hfirst).1 (ihvalue hfirst (ihkey valid sound))
  | cond hcondition hconsequence _ _ _ _ _ ihcondition ihconsequence ihalternative =>
      have hfirst := (hcondition.valid valid).1
      exact ihalternative (hconsequence.valid hfirst).1
        (ihconsequence hfirst (ihcondition valid sound))
  | @function name parameters _ stage inner outer _ _ _ hparameters hbody hleave hcode _ _ ih =>
      obtain ⟨hentry, houter, hdefinitions, -⟩ := entry_valid valid name parameters
      have hinside : (stage.scope.entry name parameters).isTopLevel = false := by
        simp [Scope.isTopLevel, houter]
      refine (ih hentry sound).push ?_
      rintro function ⟨⟩
      have hgrows := (hbody.valid hentry).2
      have hmore := hgrows.table.definitions
      rw [hdefinitions] at hmore
      refine ⟨hbody.definitions_le hentry hinside ?_, hmore, ?_⟩
      · rw [hdefinitions]
        simp only [maxParameters] at hparameters
        simp only [maxLocals]
        omega
      · have hlocals : inner.scope.locals? = some inner.scope.table.definitions := by
          simp [Scope.locals?, hgrows.isTopLevel, hinside]
        rw [← hlocals]
        exact accepted_encodeAll hcode hbody.fits (hbody.checked hentry) hbody.jumpsLand

theorem Emits.verify {stmts : List Stmt} {stage finish : Stage} {instructions : List Instruction}
    {code : Code} (emits : Emits (.block stmts) stage 0 instructions finish)
    (valid : stage.scope.Valid) (htop : stage.scope.isTopLevel = true)
    (sound : Sound stage.constants) (hcode : code.toList = encodeAll instructions) :
    Bytecode.verify ⟨code, finish.constants⟩ = .ok () := by
  refine Bytecode.verify_ok_iff.mpr ⟨?_, emits.sound valid sound⟩
  have hlocals : finish.scope.locals? = none := by
    simp [Scope.locals?, (emits.valid valid).2.isTopLevel, htop]
  rw [← hlocals]
  exact accepted_encodeAll hcode emits.fits (emits.checked valid) emits.jumpsLand

end Compile

end Stacklang
