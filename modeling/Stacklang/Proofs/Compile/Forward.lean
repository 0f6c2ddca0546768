import Stacklang.Proofs.Compile.Functions
import Stacklang.Proofs.Compile.Verified

namespace Stacklang

namespace Instruction

/-- Every jump among the instructions, the first of which stands at `offset`, goes forward. -/
def JumpsForward (offset : Nat) (code : List Instruction) : Prop :=
  ∀ entry ∈ place offset code, ∀ target, entry.2.target? = some target → entry.1 < target

theorem jumpsForward_straight {offset : Nat} {code : List Instruction}
    (hstraight : ∀ instruction ∈ code, instruction.op.isJump = false) :
    JumpsForward offset code := by
  intro entry member target htarget
  simp [target?, hstraight entry.2 (mem_place member)] at htarget

theorem jumpsForward_append {offset : Nat} {first second : List Instruction} :
    JumpsForward offset (first ++ second) ↔
      JumpsForward offset first ∧ JumpsForward (offset + sizeAll first) second := by
  simp only [JumpsForward, place_append, List.forall_mem_append]

theorem JumpsForward.append {offset : Nat} {first second : List Instruction}
    (hfirst : JumpsForward offset first) (hsecond : JumpsForward (offset + sizeAll first) second) :
    JumpsForward offset (first ++ second) :=
  jumpsForward_append.mpr ⟨hfirst, hsecond⟩

theorem JumpsForward.cons {offset : Nat} {first : Instruction} {rest : List Instruction}
    (hfirst : ∀ target, first.target? = some target → offset < target)
    (hrest : JumpsForward (offset + first.size) rest) : JumpsForward offset (first :: rest) := by
  rw [JumpsForward, place, List.forall_mem_cons]
  exact ⟨hfirst, hrest⟩

theorem JumpsForward.snoc {offset : Nat} {code : List Instruction} {last : Instruction}
    (hcode : JumpsForward offset code) (hlast : last.op.isJump = false) :
    JumpsForward offset (code ++ [last]) :=
  hcode.append (jumpsForward_straight (by simpa using hlast))

end Instruction

def Code.Forward (code : Code) : Prop :=
  ∀ entry ∈ code.scan.instructions, ∀ target, entry.2.target? = some target → entry.1 < target

namespace Compile

open Instruction

theorem Emits.jumpsForward {part : Part} {stage finish : Stage} {offset : Nat}
    {code : List Instruction} (emits : Emits part stage offset code finish) :
    JumpsForward offset code := by
  induction emits with
  | literal | noAlternative | noExprs | noPairs | noStmts | emptyBranch | emptyBody =>
      exact jumpsForward_straight (by simp [Opcode.isJump])
  | @boolean value => cases value <;> exact jumpsForward_straight (by simp [Opcode.isJump])
  | ident => exact jumpsForward_straight (by simpa using Symbol.isJump_load _)
  | unary _ ih => exact ih.snoc (isJump_unaryOpcode _)
  | binary hopcode _ _ ihleft ihright =>
      exact (ihleft.append ihright).snoc (isJump_binaryOpcode hopcode)
  | less _ _ ihfirst ihsecond | index _ _ ihfirst ihsecond | call _ _ _ ihfirst ihsecond =>
      exact (ihfirst.append ihsecond).snoc rfl
  | @cond _ _ _ _ _ _ _ offset toAlternative toEnd conditionCode consequenceCode alternativeCode
      _ _ hto _ hend _ _ ihcondition ihconsequence ihalternative =>
      refine ihcondition.append (.cons ?_ (ihconsequence.append (.cons ?_ ?_)))
      · rintro target ⟨⟩
        change offset + sizeAll conditionCode < toAlternative
        omega
      · rintro target ⟨⟩
        change offset + sizeAll conditionCode + 3 + sizeAll consequenceCode < toEnd
        omega
      · rw [hto] at ihalternative
        exact ihalternative
  | alternative _ ih | branchValue _ ih | bodyReturn _ ih => exact ih
  | array _ _ ih | hash _ _ ih | exprStmt _ ih | ret _ _ ih | bodyValue _ ih => exact ih.snoc rfl
  | bind _ _ ih => exact ih.snoc (Symbol.isJump_store _)
  | function =>
      apply jumpsForward_straight
      simp only [List.mem_append, List.mem_map, List.mem_singleton]
      rintro instruction (⟨symbol, -, rfl⟩ | rfl)
      · exact symbol.isJump_load
      · rfl
  | exprs _ _ ihfirst ihrest | stmts _ _ ihfirst ihrest | branchStmt _ _ _ ihfirst ihrest
  | bodyStmt _ _ _ ihfirst ihrest => exact ihfirst.append ihrest
  | pairs _ _ _ ihkey ihvalue ihrest =>
      refine (ihkey.append ihvalue).append ?_
      simpa only [sizeAll_append, Nat.add_assoc] using ihrest

theorem Emits.forward {part : Part} {stage finish : Stage} {instructions : List Instruction}
    {code : Code} (emits : Emits part stage 0 instructions finish)
    (hcode : code.toList = encodeAll instructions) : code.Forward := by
  rw [Code.Forward, Code.scan_encodeAll emits.fits hcode]
  exact emits.jumpsForward

end Compile

theorem Program.verify_bytecode {program : Program} {bytecode : Bytecode}
    (hcompile : program.bytecode = .ok bytecode) : bytecode.verify = .ok () := by
  obtain ⟨code, finish, hemits, hcode, hconstants⟩ := bytecode_emits hcompile
  obtain ⟨valid, htop⟩ := Scope.withBuiltins_valid
  have hverify := hemits.verify valid htop (by simp [Compile.Sound]) hcode
  rwa [← hconstants] at hverify

end Stacklang
