import Stacklang.Proofs.Bytecode.Decoders

namespace Stacklang

namespace Instruction

instance (instruction : Instruction) : Decidable instruction.Fits :=
  inferInstanceAs (Decidable (_ ∧ _))

theorem place_eq_mapIdx (offset : Nat) (instructions : List Instruction) :
    place offset instructions =
      instructions.mapIdx fun index instruction =>
        (offset + sizeAll (instructions.take index), instruction) := by
  induction instructions generalizing offset with
  | nil => rfl
  | cons first rest ih => simp [place, ih, Nat.add_assoc]

@[simp] theorem length_place (offset : Nat) (instructions : List Instruction) :
    (place offset instructions).length = instructions.length := by
  simp [place_eq_mapIdx]

@[simp] theorem map_snd_place (offset : Nat) (instructions : List Instruction) :
    (place offset instructions).map Prod.snd = instructions := by
  induction instructions generalizing offset with
  | nil => rfl
  | cons first rest ih => simp [place, ih]

theorem place_split {instructions : List Instruction} {index start offset : Nat}
    {found : Instruction} (hfound : (place start instructions)[index]? = some (offset, found)) :
    ∃ before after, instructions = before ++ found :: after ∧ before.length = index ∧
      offset = start + sizeAll before := by
  induction instructions generalizing index start with
  | nil => simp [place] at hfound
  | cons first rest ih =>
      cases index with
      | zero =>
          simp only [place, List.getElem?_cons_zero, Option.some.injEq, Prod.mk.injEq] at hfound
          obtain ⟨rfl, rfl⟩ := hfound
          exact ⟨[], rest, rfl, rfl, rfl⟩
      | succ index =>
          rw [place, List.getElem?_cons_succ] at hfound
          obtain ⟨before, after, rfl, rfl, rfl⟩ := ih hfound
          exact ⟨first :: before, after, rfl, rfl, by simp [Nat.add_assoc]⟩

theorem place_replace {old new : Instruction} (hop : new.op = old.op) (offset : Nat)
    (before after : List Instruction) :
    place offset (before ++ new :: after) =
      (place offset (before ++ old :: after)).set before.length
        (offset + sizeAll before, new) := by
  have hsize : new.size = old.size := congrArg Opcode.size hop
  rw [place_append, place_append, List.set_append_right _ _ (by simp)]
  simp [place, hsize]

end Instruction

namespace Code

open Instruction

/-- A scan that has come so far goes no further: the stream ends there, or nothing stands there that
can be decoded. -/
def Ends (code : Code) (stop : Nat) : Option (Nat × DecodeFault) → Prop
  | none => code.size = stop
  | some (offset, fault) => offset = stop ∧ code.Reads stop (.error fault)

theorem Ends.rest {code : Code} {stop : Nat} {fault? : Option (Nat × DecodeFault)}
    (ends : code.Ends stop fault?) : code.rest stop = ⟨[], fault?⟩ := by
  cases fault? with
  | none =>
      rw [Code.rest, scanFrom, dif_neg (Nat.not_lt.mpr (Nat.le_of_eq ends))]
      rfl
  | some entry =>
      obtain ⟨rfl, reads⟩ := ends
      exact rest_stopped reads.fetch

theorem holds_nil {code : Code} {offset : Nat} (hinside : offset ≤ code.size) :
    code.Holds offset [] :=
  ⟨code.toList.take offset, code.toList.drop offset, by simp, by
    rw [List.length_take, Array.length_toList, Nat.min_eq_left hinside]⟩

theorem Holds.cons {code : Code} {offset : Nat} {first : Instruction} {rest : List Instruction}
    (hfits : first.Fits) (hfirst : code.Holds offset [first])
    (hrest : code.Holds (offset + first.size) rest) : code.Holds offset (first :: rest) := by
  obtain ⟨before, after, hcode, rfl⟩ := hfirst
  obtain ⟨front, back, hcode', hfront⟩ := hrest
  have hsame : before ++ first.encode ++ after = front ++ (encodeAll rest ++ back) := by
    rw [← hcode', hcode]
    simp
  have hlength : (before ++ first.encode).length = front.length := by
    rw [hfront, List.length_append, length_encode hfits]
  obtain ⟨rfl, rfl⟩ := List.append_inj hsame hlength
  exact ⟨before, back, by rw [hcode']; simp, rfl⟩

theorem Holds.rest {code : Code} {offset : Nat} {instructions : List Instruction}
    (hfits : ∀ instruction ∈ instructions, instruction.Fits)
    (holds : code.Holds offset instructions) :
    code.rest offset =
      ⟨place offset instructions ++ (code.rest (offset + sizeAll instructions)).instructions,
        (code.rest (offset + sizeAll instructions)).fault?⟩ := by
  induction instructions generalizing offset with
  | nil => simp [place]
  | cons first rest ih =>
      have hfirst : first.Fits := hfits first (List.mem_cons_self ..)
      have hrest := ih (fun instruction member => hfits instruction (List.mem_cons_of_mem _ member))
        (holds.tail hfirst)
      rw [rest_more (holds.fetch hfirst), hrest]
      simp [place, Nat.add_assoc]

theorem rest_holds (code : Code) {offset : Nat} (hinside : offset ≤ code.size) :
    ∃ instructions, (∀ instruction ∈ instructions, instruction.Fits) ∧
      code.Holds offset instructions ∧
      (code.rest offset).instructions = place offset instructions ∧
      code.Ends (offset + sizeAll instructions) (code.rest offset).fault? := by
  have hhere := holds_nil hinside
  rcases Nat.lt_or_eq_of_le hinside with hless | hend
  · have hfetch : code.fetch? offset = some (code.decode offset code[offset]) := by
      simp [fetch?, hless]
    cases hdecode : code.decode offset code[offset] with
    | error fault =>
        rw [hdecode] at hfetch
        rw [rest_stopped hfetch]
        exact ⟨[], by simp, hhere, rfl, rfl, reads_of_fetch hfetch⟩
    | ok first =>
        rw [hdecode] at hfetch
        have hpositive := first.size_pos
        have hroom := decode_inside hless hdecode
        obtain ⟨rest, hfits, holds, hplaced, hends⟩ := rest_holds code hroom
        rw [rest_more hfetch]
        cases reads_of_fetch hfetch with
        | whole hfirst hfound =>
            refine ⟨first :: rest, List.forall_mem_cons.mpr ⟨hfirst, hfits⟩, ?_, ?_, ?_⟩
            · exact Holds.cons hfirst hfound holds
            · rw [place, ← hplaced]
            · rwa [sizeAll_cons, ← Nat.add_assoc]
  · have hends : code.Ends offset none := hend.symm
    rw [hends.rest]
    exact ⟨[], by simp, hhere, rfl, hends⟩
  termination_by code.size - offset

theorem scan_eq_rest (code : Code) : code.scan = code.rest 0 := rfl

theorem scan_holds (code : Code) :
    ∃ instructions, (∀ instruction ∈ instructions, instruction.Fits) ∧ code.Holds 0 instructions ∧
      code.scan.instructions = place 0 instructions ∧
      code.Ends (sizeAll instructions) code.scan.fault? := by
  simpa only [scan_eq_rest, Nat.zero_add] using code.rest_holds (Nat.zero_le _)

theorem Ends.behind {code other : Code} {before before' after : List UInt8}
    (hcode : code.toList = before ++ after) (hother : other.toList = before' ++ after)
    (hlength : before.length = before'.length) {fault? : Option (Nat × DecodeFault)}
    (ends : code.Ends before.length fault?) : other.Ends before.length fault? := by
  have hsize : other.size = code.size := by
    rw [← Array.length_toList, ← Array.length_toList, hcode, hother, List.length_append,
      List.length_append, hlength]
  have hbyte : other[before.length]? = code[before.length]? := by
    rw [← Array.getElem?_toList, ← Array.getElem?_toList, hcode, hother,
      List.getElem?_append_right (Nat.le_refl _),
      List.getElem?_append_right (Nat.le_of_eq hlength.symm), hlength]
  cases fault? with
  | none => exact hsize.trans ends
  | some entry =>
      obtain ⟨offset, fault⟩ := entry
      obtain ⟨hoffset, reads⟩ := ends
      refine ⟨hoffset, ?_⟩
      cases reads with
      | unknown hfound hnone => exact .unknown (hbyte.trans hfound) hnone
      | truncated hfound hshort => exact .truncated (hbyte.trans hfound) (by rwa [hsize])

theorem scan_of_holds {code : Code} {instructions : List Instruction}
    {fault? : Option (Nat × DecodeFault)} (hfits : ∀ instruction ∈ instructions, instruction.Fits)
    (holds : code.Holds 0 instructions) (ends : code.Ends (sizeAll instructions) fault?) :
    code.scan = ⟨place 0 instructions, fault?⟩ := by
  have hrest := holds.rest hfits
  rw [Nat.zero_add, ends.rest, List.append_nil] at hrest
  exact hrest

/-- Writing an instruction over another of its opcode leaves the bytes of all others alone. -/
theorem overwrite_encode {code : Code} {before after : List Instruction} {old new : Instruction}
    {tail : List UInt8} (hcode : code.toList = encodeAll (before ++ old :: after) ++ tail)
    (hbefore : ∀ instruction ∈ before, instruction.Fits) (hold : old.Fits) (hnew : new.Fits)
    (hsize : new.size = old.size) :
    ∃ patched, code.overwrite? (sizeAll before) new.encode = some patched ∧
      patched.toList = encodeAll (before ++ new :: after) ++ tail := by
  have hsplit : code.toList = encodeAll before ++ (old.encode ++ (encodeAll after ++ tail)) := by
    simpa using hcode
  have hlength : new.encode.length = old.encode.length := by
    rw [length_encode hnew, length_encode hold, hsize]
  have hinside : sizeAll before + new.encode.length ≤ code.size := by
    rw [← Array.length_toList, hsplit, hlength]
    simp only [List.length_append, length_encodeAll hbefore]
    omega
  have hpatched := toList_overwrite code _ _ _ new.encode hsplit hlength
  rw [length_encodeAll hbefore] at hpatched
  exact ⟨code.overwrite (sizeAll before) new.encode, if_pos hinside, by simpa using hpatched⟩

theorem scan_overwrite {code : Code} {index offset : Nat} {old new : Instruction}
    (hfound : code.scan.instructions[index]? = some (offset, old)) (hop : new.op = old.op)
    (hnew : new.Fits) :
    ∃ patched, code.overwrite? offset new.encode = some patched ∧
      patched.scan =
        { code.scan with instructions := code.scan.instructions.set index (offset, new) } := by
  obtain ⟨instructions, hfits, ⟨front, tail, hcode, hfront⟩, hplaced, hends⟩ := code.scan_holds
  rw [hplaced] at hfound
  obtain ⟨before, after, rfl, rfl, rfl⟩ := place_split hfound
  obtain rfl := List.eq_nil_of_length_eq_zero hfront
  rw [List.nil_append] at hcode
  obtain ⟨hbefore, hold, hafter⟩ : (∀ instruction ∈ before, instruction.Fits) ∧ old.Fits ∧
      ∀ instruction ∈ after, instruction.Fits := by
    rwa [List.forall_mem_append, List.forall_mem_cons] at hfits
  have hfits' : ∀ instruction ∈ before ++ new :: after, instruction.Fits :=
    List.forall_mem_append.mpr ⟨hbefore, List.forall_mem_cons.mpr ⟨hnew, hafter⟩⟩
  have hsize : new.size = old.size := congrArg Opcode.size hop
  obtain ⟨patched, hoverwrite, hpatched⟩ := overwrite_encode hcode hbefore hold hnew hsize
  have hwhole : sizeAll (before ++ new :: after) = sizeAll (before ++ old :: after) := by
    simp [hsize]
  have hends' : patched.Ends (sizeAll (before ++ new :: after)) code.scan.fault? := by
    rw [← length_encodeAll hfits] at hends hwhole
    rw [hwhole]
    exact hends.behind hcode hpatched (by rw [length_encodeAll hfits', hwhole])
  rw [Nat.zero_add]
  refine ⟨patched, hoverwrite, ?_⟩
  rw [scan_of_holds hfits' ⟨[], tail, hpatched, rfl⟩ hends', hplaced, place_replace hop,
    Nat.zero_add]

theorem encodeAll_scan {code : Code} (hwhole : code.scan.fault? = none) :
    (∀ entry ∈ code.scan.instructions, entry.2.Fits) ∧
      code.toList = encodeAll (code.scan.instructions.map Prod.snd) := by
  obtain ⟨instructions, hfits, ⟨before, after, hcode, hlength⟩, hplaced, hends⟩ := code.scan_holds
  rw [hplaced, map_snd_place]
  refine ⟨fun entry member => hfits _ (mem_place member), ?_⟩
  rw [hwhole] at hends
  have hsize : code.toList.length = sizeAll instructions := hends
  rw [hcode, List.length_append, List.length_append, length_encodeAll hfits] at hsize
  obtain rfl := List.eq_nil_of_length_eq_zero hlength
  obtain rfl : after = [] := List.eq_nil_of_length_eq_zero (by omega)
  simpa using hcode

/-- Writing instructions one behind the other and scanning the stream are inverse to each other, and
the instructions stand where those before them end. If a scan reaches the end of a stream, the stream
is made of what has been found. In every stream, an instruction that a scan has found can be given
other operands in its place, and this is all that the scan then finds changed. -/
theorem scan_inverts_encode :
    (∀ instructions : List Instruction, (∀ instruction ∈ instructions, instruction.Fits) →
      scan (encodeAll instructions).toArray =
        ⟨instructions.mapIdx fun index instruction =>
          (sizeAll (instructions.take index), instruction), none⟩) ∧
    ∀ code : Code,
      (code.scan.fault? = none →
        (∀ entry ∈ code.scan.instructions, entry.2.Fits) ∧
          code.toList = encodeAll (code.scan.instructions.map Prod.snd)) ∧
      ∀ index offset old new, code.scan.instructions[index]? = some (offset, old) →
        new.op = old.op → new.Fits →
        ∃ patched, code.overwrite? offset new.encode = some patched ∧
          patched.scan =
            { code.scan with instructions := code.scan.instructions.set index (offset, new) } := by
  refine ⟨fun instructions hfits => ?_, fun code => ⟨encodeAll_scan, ?_⟩⟩
  · rw [scan_encodeAll hfits List.toList_toArray, place_eq_mapIdx]
    simp
  · exact fun index offset old new => scan_overwrite

/-- Operands of both widths at their limits, and a jump between other instructions that is given its
target later. -/
theorem scan_inverts_encode_patched :
    let instructions : List Instruction :=
      [⟨.closure, [65535, 255]⟩, ⟨.jumpNotTruthy, [9999]⟩, ⟨.getLocal, [0]⟩, ⟨.pop, []⟩]
    let code : Code := #[29, 255, 255, 255, 14, 39, 15, 18, 0, 1]
    (∀ instruction ∈ instructions, instruction.Fits) ∧
      scan (encodeAll instructions).toArray =
        ⟨[(0, ⟨.closure, [65535, 255]⟩), (4, ⟨.jumpNotTruthy, [9999]⟩), (7, ⟨.getLocal, [0]⟩),
          (9, ⟨.pop, []⟩)], none⟩ ∧
      code.scan.fault? = none ∧ code.toList = encodeAll (code.scan.instructions.map Prod.snd) ∧
      code.scan.instructions[1]? = some (4, ⟨.jumpNotTruthy, [9999]⟩) ∧
      ∃ patched, code.overwrite? 4 (Instruction.encode ⟨.jumpNotTruthy, [9]⟩) = some patched ∧
        patched.scan.instructions =
          [(0, ⟨.closure, [65535, 255]⟩), (4, ⟨.jumpNotTruthy, [9]⟩), (7, ⟨.getLocal, [0]⟩),
            (9, ⟨.pop, []⟩)] := by
  intro instructions code
  have hfits : ∀ instruction ∈ instructions, instruction.Fits := by decide
  have hwhole : code.scan.fault? = none := by decide +kernel
  have hfound : code.scan.instructions[1]? = some (4, ⟨.jumpNotTruthy, [9999]⟩) := by
    decide +kernel
  obtain ⟨patched, hoverwrite, hscan⟩ :=
    (scan_inverts_encode.2 code).2 1 4 _ ⟨.jumpNotTruthy, [9]⟩ hfound rfl (by decide)
  refine ⟨hfits, scan_inverts_encode.1 instructions hfits, hwhole,
    ((scan_inverts_encode.2 code).1 hwhole).2, hfound, patched, hoverwrite, ?_⟩
  rw [hscan]
  decide +kernel

end Code

end Stacklang
