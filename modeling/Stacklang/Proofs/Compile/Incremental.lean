import Stacklang.Proofs.Compile.Completion
import Stacklang.Proofs.Compile.Verified

namespace Stacklang

namespace Instruction

/-- The instruction when the code it belongs to stands further on: a jump goes further by as much. -/
def moved (distance : Nat) (instruction : Instruction) : Instruction :=
  if instruction.op.isJump then
    { instruction with operands := instruction.operands.map (· + distance) }
  else instruction

@[simp] theorem op_moved (distance : Nat) (instruction : Instruction) :
    (instruction.moved distance).op = instruction.op := by
  unfold moved
  split <;> rfl

@[simp] theorem size_moved (distance : Nat) (instruction : Instruction) :
    (instruction.moved distance).size = instruction.size := by
  rw [size, size, op_moved]

theorem moved_straight {instruction : Instruction} (hstraight : instruction.op.isJump = false)
    (distance : Nat) : instruction.moved distance = instruction := by
  rw [moved, hstraight]
  rfl

@[simp] theorem sizeAll_moved (distance : Nat) (code : List Instruction) :
    sizeAll (code.map (moved distance)) = sizeAll code := by
  induction code with
  | nil => rfl
  | cons first rest ih => rw [List.map_cons, sizeAll_cons, sizeAll_cons, size_moved, ih]

end Instruction

def Code.moved (distance : Nat) (code : Code) : Code :=
  (Instruction.encodeAll
    (code.scan.instructions.map fun entry => entry.2.moved distance)).toArray

namespace Instruction

theorem map_place (change : Instruction → Instruction) (offset : Nat) (code : List Instruction) :
    (place offset code).map (fun entry => change entry.2) = code.map change := by
  induction code generalizing offset with
  | nil => rfl
  | cons first rest ih => rw [place, List.map_cons, List.map_cons, ih]

end Instruction

open Instruction

theorem Code.toList_moved {code : Code} {instructions : List Instruction}
    (hfits : ∀ instruction ∈ instructions, instruction.Fits)
    (hcode : code.toList = encodeAll instructions) (distance : Nat) :
    (code.moved distance).toList = encodeAll (instructions.map (Instruction.moved distance)) := by
  rw [Code.moved, Code.scan_encodeAll hfits hcode, map_place]

namespace Compile

/-- The part has code where it would stand without what is before it, and that code has only to be
moved. -/
def Movable (distance : Nat) (part : Part) (stage : Stage) (start : Nat) (code : List Instruction)
    (finish : Stage) : Prop :=
  ∃ relative, code = relative.map (moved distance) ∧ Emits part stage start relative finish

theorem fits_closer {op : Opcode} {near distance : Nat} (hfits : Fits ⟨op, [near + distance]⟩) :
    Fits ⟨op, [near]⟩ := by
  obtain ⟨hlength, hall⟩ := hfits
  refine ⟨hlength, ?_⟩
  cases hwidths : op.widths with
  | nil => simp
  | cons width rest =>
      simp only [hwidths, List.zip_cons_cons, List.zip_nil_left, List.mem_singleton,
        forall_eq] at hall ⊢
      omega

theorem moved_snoc {last : Instruction} (hlast : last.op.isJump = false) (distance : Nat)
    (code : List Instruction) :
    (code ++ [last]).map (moved distance) = code.map (moved distance) ++ [last] := by
  rw [List.map_append, List.map_singleton, moved_straight hlast]

theorem moved_append_snoc {last : Instruction} (hlast : last.op.isJump = false) (distance : Nat)
    (front back : List Instruction) :
    (front ++ back ++ [last]).map (moved distance) =
      front.map (moved distance) ++ back.map (moved distance) ++ [last] := by
  rw [moved_snoc hlast, List.map_append]

theorem offset_moved {offset start distance : Nat} (hoffset : offset = start + distance)
    (code : List Instruction) :
    offset + sizeAll (code.map (moved distance)) = start + sizeAll code + distance := by
  rw [sizeAll_moved, hoffset, Nat.add_right_comm]

theorem moved_jump (op : Opcode) (hjump : op.isJump = true) (distance target : Nat) :
    moved distance ⟨op, [target]⟩ = ⟨op, [target + distance]⟩ :=
  if_pos hjump

/-- Moving the code of a part moves its jumps, and the bodies of its functions not at all. -/
theorem Emits.movable {part : Part} {stage finish : Stage} {offset : Nat}
    {code : List Instruction} (emits : Emits part stage offset code finish) {start distance : Nat}
    (hoffset : offset = start + distance) : Movable distance part stage start code finish := by
  induction emits generalizing start with
  | literal hconstant hfits => exact ⟨_, rfl, .literal hconstant hfits⟩
  | @boolean value =>
      refine ⟨_, ?_, .boolean⟩
      cases value <;> rfl
  | ident hresolve hfits =>
      refine ⟨_, ?_, .ident hresolve hfits⟩
      rw [List.map_singleton, moved_straight (Symbol.isJump_load _)]
  | @unary op _ _ _ _ _ _ ih =>
      obtain ⟨relative, rfl, hemits⟩ := ih hoffset
      exact ⟨_, (moved_snoc (isJump_unaryOpcode op) _ _).symm, .unary hemits⟩
  | binary hopcode _ _ ihleft ihright =>
      obtain ⟨left, rfl, hleft⟩ := ihleft hoffset
      obtain ⟨right, rfl, hright⟩ := ihright (offset_moved hoffset left)
      exact ⟨_, (moved_append_snoc (isJump_binaryOpcode hopcode) _ _ _).symm,
        .binary hopcode hleft hright⟩
  | less _ _ ihright ihleft =>
      obtain ⟨right, rfl, hright⟩ := ihright hoffset
      obtain ⟨left, rfl, hleft⟩ := ihleft (offset_moved hoffset right)
      exact ⟨_, (moved_append_snoc rfl _ _ _).symm, .less hright hleft⟩
  | @cond _ _ _ _ _ _ _ _ toAlternative toEnd _ _ _ _ _ hto _ hend hfirst hsecond ihcondition
      ihconsequence ihalternative =>
      obtain ⟨condition, rfl, hcondition⟩ := ihcondition hoffset
      obtain ⟨consequence, rfl, hconsequence⟩ := ihconsequence
        (show _ = start + sizeAll condition + 3 + distance by rw [sizeAll_moved]; omega)
      have hto' : toAlternative = start + sizeAll condition + 3 + sizeAll consequence + 3 + distance := by
        rw [hto, sizeAll_moved, sizeAll_moved]
        omega
      obtain ⟨alternative, rfl, halternative⟩ := ihalternative hto'
      have hend' : toEnd = start + sizeAll condition + 3 + sizeAll consequence + 3 +
          sizeAll alternative + distance := by
        rw [hend, hto', sizeAll_moved]
        omega
      subst hto' hend'
      refine ⟨_, ?_, .cond hcondition hconsequence rfl halternative rfl (fits_closer hfirst)
        (fits_closer hsecond)⟩
      simp only [List.map_append, List.map_cons, moved_jump .jump rfl,
        moved_jump .jumpNotTruthy rfl]
  | noAlternative => exact ⟨_, rfl, .noAlternative⟩
  | alternative _ ih =>
      obtain ⟨relative, rfl, hbranch⟩ := ih hoffset
      exact ⟨_, rfl, .alternative hbranch⟩
  | array _ hfits ih =>
      obtain ⟨relative, rfl, hitems⟩ := ih hoffset
      exact ⟨_, (moved_snoc rfl _ _).symm, .array hitems hfits⟩
  | hash _ hfits ih =>
      obtain ⟨relative, rfl, hpairs⟩ := ih hoffset
      exact ⟨_, (moved_snoc rfl _ _).symm, .hash hpairs hfits⟩
  | index _ _ ihcontainer ihindex =>
      obtain ⟨container, rfl, hcontainer⟩ := ihcontainer hoffset
      obtain ⟨position, rfl, hindex⟩ := ihindex (offset_moved hoffset container)
      exact ⟨_, (moved_append_snoc rfl _ _ _).symm, .index hcontainer hindex⟩
  | function hparameters hbody hleave hcode hloads hfits _ =>
      -- The body has a stream of its own, which begins at 0 wherever the literal stands.
      refine ⟨_, ?_, .function hparameters hbody hleave hcode hloads hfits⟩
      rw [moved_snoc rfl, List.map_map]
      congr 1
      refine List.map_congr_left fun symbol _ => ?_
      exact (moved_straight (Symbol.isJump_load symbol) _).symm
  | call _ _ hfits ihcallee iharguments =>
      obtain ⟨callee, rfl, hcallee⟩ := ihcallee hoffset
      obtain ⟨arguments, rfl, harguments⟩ := iharguments (offset_moved hoffset callee)
      exact ⟨_, (moved_append_snoc rfl _ _ _).symm, .call hcallee harguments hfits⟩
  | noExprs => exact ⟨[], rfl, .noExprs⟩
  | exprs _ _ ihexpr ihrest =>
      obtain ⟨first, rfl, hexpr⟩ := ihexpr hoffset
      obtain ⟨rest, rfl, hrest⟩ := ihrest (offset_moved hoffset first)
      exact ⟨_, (List.map_append ..).symm, .exprs hexpr hrest⟩
  | noPairs => exact ⟨[], rfl, .noPairs⟩
  | pairs _ _ _ ihkey ihvalue ihrest =>
      obtain ⟨key, rfl, hkey⟩ := ihkey hoffset
      obtain ⟨value, rfl, hvalue⟩ := ihvalue (offset_moved hoffset key)
      obtain ⟨rest, rfl, hrest⟩ :=
        ihrest (offset_moved (offset_moved hoffset key) value)
      refine ⟨_, ?_, .pairs hkey hvalue hrest⟩
      rw [← List.map_append, ← List.map_append]
  | exprStmt _ ih =>
      obtain ⟨relative, rfl, hvalue⟩ := ih hoffset
      exact ⟨_, (moved_snoc rfl _ _).symm, .exprStmt hvalue⟩
  | bind _ hfits ih =>
      obtain ⟨relative, rfl, hvalue⟩ := ih hoffset
      exact ⟨_, (moved_snoc (Symbol.isJump_store _) _ _).symm, .bind hvalue hfits⟩
  | ret hinside _ ih =>
      obtain ⟨relative, rfl, hvalue⟩ := ih hoffset
      exact ⟨_, (moved_snoc rfl _ _).symm, .ret hinside hvalue⟩
  | noStmts => exact ⟨[], rfl, .noStmts⟩
  | stmts _ _ ihstmt ihrest =>
      obtain ⟨first, rfl, hstmt⟩ := ihstmt hoffset
      obtain ⟨rest, rfl, hrest⟩ := ihrest (offset_moved hoffset first)
      exact ⟨_, (List.map_append ..).symm, .stmts hstmt hrest⟩
  | emptyBranch => exact ⟨_, rfl, .emptyBranch⟩
  | branchValue _ ih =>
      obtain ⟨relative, rfl, hvalue⟩ := ih hoffset
      exact ⟨_, rfl, .branchValue hvalue⟩
  | branchStmt hmore _ _ ihstmt ihrest =>
      obtain ⟨first, rfl, hstmt⟩ := ihstmt hoffset
      obtain ⟨rest, rfl, hrest⟩ := ihrest (offset_moved hoffset first)
      exact ⟨_, (List.map_append ..).symm, .branchStmt hmore hstmt hrest⟩
  | emptyBody => exact ⟨_, rfl, .emptyBody⟩
  | bodyValue _ ih =>
      obtain ⟨relative, rfl, hvalue⟩ := ih hoffset
      exact ⟨_, (moved_snoc rfl _ _).symm, .bodyValue hvalue⟩
  | bodyReturn _ ih =>
      obtain ⟨relative, rfl, hreturn⟩ := ih hoffset
      exact ⟨_, rfl, .bodyReturn hreturn⟩
  | bodyStmt hmore _ _ ihstmt ihrest =>
      obtain ⟨first, rfl, hstmt⟩ := ihstmt hoffset
      obtain ⟨rest, rfl, hrest⟩ := ihrest (offset_moved hoffset first)
      exact ⟨_, (List.map_append ..).symm, .bodyStmt hmore hstmt hrest⟩

theorem Emits.block_append {first second : List Stmt} {stage finish : Stage} {offset : Nat}
    {code : List Instruction} (emits : Emits (.block (first ++ second)) stage offset code finish) :
    ∃ front back middle, code = front ++ back ∧ Emits (.block first) stage offset front middle ∧
      Emits (.block second) middle (offset + sizeAll front) back finish := by
  induction first generalizing stage offset code with
  | nil => exact ⟨[], code, stage, rfl, .noStmts, emits⟩
  | cons stmt rest ih =>
      cases emits with
      | @stmts _ _ _ _ _ _ stmtCode _ hstmt hrest =>
          obtain ⟨front, back, middle, rfl, hfront, hback⟩ := ih hrest
          refine ⟨stmtCode ++ front, back, middle, (List.append_assoc ..).symm,
            .stmts hstmt hfront, ?_⟩
          rw [sizeAll_append, ← Nat.add_assoc]
          exact hback

end Compile

namespace Compiler

open Compile

/-- Where a program compiles, it compiles in two parts too, wherever it is divided. Names and
constants come out the same, and the code as well once the jumps of the second part go further by the
size of the first one. -/
theorem add_append {first second : List Stmt} {whole : Compiler}
    (hwhole : Compiler.fresh.add ⟨first ++ second⟩ = (.ok (), whole)) :
    ∃ front back : Compiler,
      Compiler.fresh.add ⟨first⟩ = (.ok (), front) ∧
      (Compiler.resume front.scope front.constants).add ⟨second⟩ = (.ok (), back) ∧
      back.scope = whole.scope ∧ back.constants = whole.constants ∧
      back.bytecode.code.scan.fault? = none ∧
      (∀ entry ∈ back.bytecode.code.scan.instructions,
        (entry.2.moved front.bytecode.code.size).Fits) ∧
      whole.bytecode.code =
        front.bytecode.code ++ back.bytecode.code.moved front.bytecode.code.size := by
  obtain ⟨hvalid, htop⟩ := Scope.withBuiltins_valid
  obtain ⟨code, hemits, hcode⟩ := Compiler.add_succeeds hvalid htop hwhole
  obtain ⟨frontCode, backCode, middle, rfl, hfront, hback⟩ := hemits.block_append
  obtain ⟨front, hrunFront, hfrontCode, rfl⟩ := Compiler.add_completes hvalid htop hfront
  have hsize : front.bytecode.code.size = sizeAll frontCode := by
    rw [← Array.length_toList]
    exact (congrArg List.length hfrontCode).trans (length_encodeAll hfront.fits)
  obtain ⟨hmiddle, hgrows⟩ := hfront.valid hvalid
  obtain ⟨relative, rfl, hrelative⟩ := hback.movable rfl
  obtain ⟨back, hrunBack, hbackCode, hfinish⟩ :=
    Compiler.add_completes hmiddle (hgrows.isTopLevel.trans htop) hrelative
  change back.bytecode.code.toList = encodeAll relative at hbackCode
  have hscan := Code.scan_encodeAll hrelative.fits hbackCode
  refine ⟨front, back, hrunFront, hrunBack, congrArg Stage.scope hfinish,
    congrArg Stage.constants hfinish, congrArg _ hscan, ?_, ?_⟩
  · intro entry member
    rw [hscan] at member
    rw [hsize]
    exact hback.fits _ (List.mem_map_of_mem (mem_place member))
  · apply Array.toList_inj.mp
    rw [Array.toList_append, Code.toList_moved hrelative.fits hbackCode, hsize]
    exact hcode.trans ((encodeAll_append ..).trans (congrArg (· ++ _) hfrontCode.symm))

/-- The jumps of a branch that stands behind a binding are others than those of the branch alone. -/
theorem add_append_branch :
    let first : List Stmt := [.bind "a" (.integer 1)]
    let second : List Stmt := [.expr (.cond (.ident "a") [.expr (.ident "a")] none)]
    ∃ whole front back : Compiler,
      Compiler.fresh.add ⟨first ++ second⟩ = (.ok (), whole) ∧
      Compiler.fresh.add ⟨first⟩ = (.ok (), front) ∧
      (Compiler.resume front.scope front.constants).add ⟨second⟩ = (.ok (), back) ∧
      back.scope = whole.scope ∧ back.constants = whole.constants ∧
      whole.bytecode.code =
        front.bytecode.code ++ back.bytecode.code.moved front.bytecode.code.size ∧
      whole.bytecode.code ≠ front.bytecode.code ++ back.bytecode.code := by
  intro first second
  have hcompiles : (Compiler.fresh.add ⟨first ++ second⟩).1 = .ok () := by decide +kernel
  obtain ⟨front, back, hfront, hback, hscope, hconstants, -, -, hcode⟩ :=
    add_append (Prod.ext hcompiles rfl)
  refine ⟨_, front, back, Prod.ext hcompiles rfl, hfront, hback, hscope, hconstants, hcode, ?_⟩
  obtain rfl := congrArg Prod.snd hfront
  obtain rfl := congrArg Prod.snd hback
  decide +kernel

end Compiler

end Stacklang
