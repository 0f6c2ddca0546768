import Stacklang.Code.Instruction

namespace Stacklang

theorem Width.read?_eq_none_iff (width : Width) {code : Code} {offset : Nat} :
    width.read? code offset = none ↔ code.size < offset + width.size := by
  cases width with
  | byte =>
      simp only [Width.read?, Width.size, Option.map_eq_none_iff, Array.getElem?_eq_none_iff]
      omega
  | word =>
      simp only [Width.read?, Width.size]
      split
      next high low hhigh hlow =>
        have hinside := (Array.getElem?_eq_some_iff.mp hlow).1
        simp only [reduceCtorEq, false_iff]
        omega
      next hmissing =>
        simp only [true_iff]
        apply Nat.lt_of_not_le
        intro hinside
        exact hmissing _ _ (Array.getElem?_eq_getElem (by omega))
          (Array.getElem?_eq_getElem (by omega))

namespace Code

def decode (code : Code) (offset : Nat) (byte : UInt8) : Except DecodeFault Instruction :=
  match Opcode.ofByte? byte with
  | none => .error (.unknownOpcode byte)
  | some op =>
      match code.operands? (offset + 1) op.widths with
      | none => .error (.truncated op)
      | some operands => .ok ⟨op, operands⟩

def fetch? (code : Code) (offset : Nat) : Option (Except DecodeFault Instruction) :=
  code[offset]?.map (code.decode offset)

/-- A stream read from its start: the instructions by offset, and the fault that reading stopped at,
if it did not reach the end. -/
structure Scan where
  instructions : List (Nat × Instruction)
  fault? : Option (Nat × DecodeFault)
  deriving Repr, DecidableEq

/-- Reads on from an offset; `done` holds what has been read, latest first. -/
def scanFrom (code : Code) (offset : Nat) (done : List (Nat × Instruction)) : Scan :=
  if inside : offset < code.size then
    match code.decode offset code[offset] with
    | .error fault => ⟨done.reverse, some (offset, fault)⟩
    | .ok instruction =>
        code.scanFrom (offset + instruction.size) ((offset, instruction) :: done)
  else ⟨done.reverse, none⟩
  termination_by code.size - offset
  decreasing_by
    have := instruction.op.size_pos
    simp only [Instruction.size]
    omega

def scan (code : Code) : Scan :=
  code.scanFrom 0 []

def rest (code : Code) (offset : Nat) : Scan :=
  code.scanFrom offset []

theorem scanFrom_eq_rest (code : Code) (offset : Nat) (done : List (Nat × Instruction)) :
    code.scanFrom offset done =
      ⟨done.reverse ++ (code.rest offset).instructions, (code.rest offset).fault?⟩ := by
  rw [rest, scanFrom, scanFrom]
  split
  next inside =>
    split
    next => simp
    next instruction _ =>
      have hpositive : 0 < instruction.size := instruction.op.size_pos
      rw [scanFrom_eq_rest code (offset + instruction.size) ((offset, instruction) :: done),
        scanFrom_eq_rest code (offset + instruction.size) [(offset, instruction)]]
      simp
  next => simp
  termination_by code.size - offset

section

variable {code : Code} {offset : Nat}

theorem rest_end (houtside : ¬offset < code.size) : code.rest offset = ⟨[], none⟩ := by
  rw [rest, scanFrom, dif_neg houtside]
  rfl

theorem rest_stopped {fault : DecodeFault} (hfetch : code.fetch? offset = some (.error fault)) :
    code.rest offset = ⟨[], some (offset, fault)⟩ := by
  obtain ⟨byte, hbyte, hdecode⟩ := Option.map_eq_some_iff.mp hfetch
  obtain ⟨hinside, rfl⟩ := Array.getElem?_eq_some_iff.mp hbyte
  rw [rest, scanFrom, dif_pos hinside, hdecode]
  rfl

theorem rest_more {instruction : Instruction}
    (hfetch : code.fetch? offset = some (.ok instruction)) :
    code.rest offset =
      ⟨(offset, instruction) :: (code.rest (offset + instruction.size)).instructions,
        (code.rest (offset + instruction.size)).fault?⟩ := by
  obtain ⟨byte, hbyte, hdecode⟩ := Option.map_eq_some_iff.mp hfetch
  obtain ⟨hinside, rfl⟩ := Array.getElem?_eq_some_iff.mp hbyte
  rw [rest, scanFrom, dif_pos hinside, hdecode]
  exact scanFrom_eq_rest code _ _

end

@[simp] theorem operands?_nil (code : Code) (offset : Nat) :
    code.operands? offset [] = some [] := rfl

@[simp] theorem operands?_cons (code : Code) (offset : Nat) (width : Width) (widths : List Width) :
    code.operands? offset (width :: widths) =
      (width.read? code offset).bind fun operand =>
        (code.operands? (offset + width.size) widths).map (operand :: ·) := by
  rw [operands?, operands?, readOperands?]
  cases width.read? code offset with
  | none => rfl
  | some operand => cases code.readOperands? (offset + width.size) widths <;> rfl

theorem readOperands?_eq (code : Code) (offset : Nat) (widths : List Width) :
    code.readOperands? offset widths =
      (code.operands? offset widths).map (·, Width.sizes widths) := by
  induction widths generalizing offset with
  | nil => rfl
  | cons width widths ih =>
      rw [readOperands?, ih, operands?_cons]
      cases width.read? code offset with
      | none => rfl
      | some operand => cases code.operands? (offset + width.size) widths <;> rfl

theorem length_operands? {code : Code} {offset : Nat} {widths : List Width} {operands : List Nat}
    (hread : code.operands? offset widths = some operands) :
    operands.length = widths.length := by
  induction widths generalizing offset operands with
  | nil =>
      cases hread
      rfl
  | cons width widths ih =>
      rw [operands?_cons] at hread
      obtain ⟨operand, -, hread⟩ := Option.bind_eq_some_iff.mp hread
      obtain ⟨rest, hrest, rfl⟩ := Option.map_eq_some_iff.mp hread
      rw [List.length_cons, List.length_cons, ih hrest]

theorem operands?_eq_none_iff {code : Code} {offset : Nat} {widths : List Width}
    (hinside : offset ≤ code.size) :
    code.operands? offset widths = none ↔ code.size < offset + Width.sizes widths := by
  induction widths generalizing offset with
  | nil => simpa [Width.sizes] using hinside
  | cons width widths ih =>
      cases hread : width.read? code offset with
      | none =>
          have hshort := width.read?_eq_none_iff.mp hread
          simp only [operands?_cons, hread, Option.bind_none, Width.sizes, true_iff]
          omega
      | some operand =>
          have hroom : offset + width.size ≤ code.size := by
            apply Nat.le_of_not_lt
            intro hshort
            rw [width.read?_eq_none_iff.mpr hshort] at hread
            cases hread
          have hrest := ih hroom
          rw [operands?_cons, hread, Option.bind_some, Option.map_eq_none_iff, hrest, Width.sizes,
            Nat.add_assoc]

section

variable {code : Code} {offset : Nat}

theorem fetch?_eq_none_iff : code.fetch? offset = none ↔ ¬offset < code.size := by
  rw [fetch?, Option.map_eq_none_iff, Array.getElem?_eq_none_iff, Nat.not_lt]

theorem size_of_fetch {instruction : Instruction}
    (hfetch : code.fetch? offset = some (.ok instruction)) :
    code.size - (offset + instruction.size) < code.size - offset := by
  have hpositive : 0 < instruction.size := instruction.op.size_pos
  obtain ⟨byte, hbyte, -⟩ := Option.map_eq_some_iff.mp hfetch
  obtain ⟨hinside, -⟩ := Array.getElem?_eq_some_iff.mp hbyte
  omega

theorem parts_of_fetch {instruction : Instruction}
    (hfetch : code.fetch? offset = some (.ok instruction)) :
    ∃ inside : offset < code.size,
      Opcode.ofByte? code[offset] = some instruction.op ∧
        code.operands? (offset + 1) instruction.op.widths = some instruction.operands := by
  obtain ⟨byte, hbyte, hdecode⟩ := Option.map_eq_some_iff.mp hfetch
  obtain ⟨hinside, rfl⟩ := Array.getElem?_eq_some_iff.mp hbyte
  refine ⟨hinside, ?_⟩
  unfold decode at hdecode
  split at hdecode
  next => cases hdecode
  next op hop =>
    split at hdecode
    next => cases hdecode
    next operands hoperands =>
      cases hdecode
      exact ⟨hop, hoperands⟩

theorem parts_of_undecodable {fault : DecodeFault}
    (hfetch : code.fetch? offset = some (.error fault)) :
    ∃ inside : offset < code.size,
      Opcode.ofByte? code[offset] = none ∧ fault = .unknownOpcode code[offset] ∨
        ∃ op, Opcode.ofByte? code[offset] = some op ∧
          code.operands? (offset + 1) op.widths = none ∧ fault = .truncated op := by
  obtain ⟨byte, hbyte, hdecode⟩ := Option.map_eq_some_iff.mp hfetch
  obtain ⟨hinside, rfl⟩ := Array.getElem?_eq_some_iff.mp hbyte
  refine ⟨hinside, ?_⟩
  unfold decode at hdecode
  split at hdecode
  next hop =>
    cases hdecode
    exact .inl ⟨hop, rfl⟩
  next op hop =>
    split at hdecode
    next hoperands =>
      cases hdecode
      exact .inr ⟨op, hop, hoperands, rfl⟩
    next => cases hdecode

end

end Code

theorem Width.read?_encode (width : Width) {operand : Nat} (hfits : operand ≤ width.maximum)
    {code : Code} {before after : List UInt8}
    (hcode : code.toList = before ++ (width.encode operand ++ after)) :
    width.read? code before.length = some operand := by
  have hget : ∀ position, code[before.length + position]? =
      (width.encode operand ++ after)[position]? := by
    intro position
    rw [← Array.getElem?_toList, hcode, List.getElem?_append_right (by omega)]
    simp
  cases width with
  | byte =>
      simp only [Width.maximum] at hfits
      have hfirst := hget 0
      simp only [Nat.add_zero, Width.encode, List.cons_append, List.getElem?_cons_zero] at hfirst
      simp only [Width.read?, hfirst, Option.map_some, UInt8.toNat_ofNat']
      congr 1
      omega
  | word =>
      simp only [Width.maximum] at hfits
      have hfirst := hget 0
      have hsecond := hget 1
      simp only [Nat.add_zero, Width.encode, List.cons_append, List.getElem?_cons_zero] at hfirst
      simp only [Width.encode, List.cons_append, List.getElem?_cons_succ,
        List.getElem?_cons_zero] at hsecond
      simp only [Width.read?, hfirst, hsecond, UInt8.toNat_ofNat']
      congr 1
      omega

namespace Instruction

def operandBytes (operands : List Nat) (widths : List Width) : List UInt8 :=
  (operands.zip widths).flatMap fun (operand, width) => width.encode operand

theorem encode_eq (instruction : Instruction) :
    instruction.encode =
      instruction.op.toByte :: operandBytes instruction.operands instruction.op.widths := rfl

theorem length_operandBytes {operands : List Nat} {widths : List Width}
    (hlength : operands.length = widths.length) :
    (operandBytes operands widths).length = Width.sizes widths := by
  induction operands generalizing widths with
  | nil =>
      cases widths with
      | nil => rfl
      | cons width widths => simp at hlength
  | cons operand operands ih =>
      cases widths with
      | nil => simp at hlength
      | cons width widths =>
          have hrest := ih (by simpa using hlength)
          simp only [operandBytes] at hrest
          simp [operandBytes, Width.sizes, hrest]

theorem length_encode {instruction : Instruction} (hfits : instruction.Fits) :
    instruction.encode.length = instruction.size := by
  rw [encode_eq, List.length_cons, length_operandBytes hfits.1, size, Opcode.size]
  omega

theorem size_pos (instruction : Instruction) : 0 < instruction.size :=
  instruction.op.size_pos

def encodeAll (instructions : List Instruction) : List UInt8 :=
  instructions.flatMap encode

def sizeAll : List Instruction → Nat
  | [] => 0
  | first :: rest => first.size + sizeAll rest

@[simp] theorem encodeAll_nil : encodeAll [] = [] := rfl

@[simp] theorem encodeAll_cons (first : Instruction) (rest : List Instruction) :
    encodeAll (first :: rest) = first.encode ++ encodeAll rest := by
  simp [encodeAll]

@[simp] theorem encodeAll_append (left right : List Instruction) :
    encodeAll (left ++ right) = encodeAll left ++ encodeAll right := by
  simp [encodeAll]

@[simp] theorem sizeAll_nil : sizeAll [] = 0 := rfl

@[simp] theorem sizeAll_cons (first : Instruction) (rest : List Instruction) :
    sizeAll (first :: rest) = first.size + sizeAll rest := rfl

@[simp] theorem sizeAll_append (left right : List Instruction) :
    sizeAll (left ++ right) = sizeAll left + sizeAll right := by
  induction left with
  | nil => simp
  | cons first rest ih => simp [ih, Nat.add_assoc]

theorem length_encodeAll {instructions : List Instruction}
    (hfits : ∀ instruction ∈ instructions, instruction.Fits) :
    (encodeAll instructions).length = sizeAll instructions := by
  induction instructions with
  | nil => rfl
  | cons first rest ih =>
      rw [encodeAll_cons, List.length_append, sizeAll_cons,
        length_encode (hfits first (by simp)), ih fun instruction member =>
          hfits instruction (by simp [member])]

def place (offset : Nat) : List Instruction → List (Nat × Instruction)
  | [] => []
  | first :: rest => (offset, first) :: place (offset + first.size) rest

theorem place_append (offset : Nat) (left right : List Instruction) :
    place offset (left ++ right) = place offset left ++ place (offset + sizeAll left) right := by
  induction left generalizing offset with
  | nil => simp [place]
  | cons first rest ih => simp [place, ih, Nat.add_assoc]

theorem mem_place {offset : Nat} {instructions : List Instruction} {entry : Nat × Instruction}
    (member : entry ∈ place offset instructions) : entry.2 ∈ instructions := by
  induction instructions generalizing offset with
  | nil => simp [place] at member
  | cons first rest ih =>
      rw [place, List.mem_cons] at member
      rcases member with rfl | member
      · simp
      · simp [ih member]

end Instruction

namespace Code

open Instruction

theorem operands?_operandBytes {operands : List Nat} {widths : List Width}
    (hlength : operands.length = widths.length)
    (hfits : ∀ pair ∈ operands.zip widths, pair.1 ≤ pair.2.maximum)
    {code : Code} {before after : List UInt8}
    (hcode : code.toList = before ++ (operandBytes operands widths ++ after)) :
    code.operands? before.length widths = some operands := by
  induction operands generalizing widths before with
  | nil =>
      cases widths with
      | nil => rfl
      | cons width widths => simp at hlength
  | cons operand operands ih =>
      cases widths with
      | nil => simp at hlength
      | cons width widths =>
          have hsplit : code.toList =
              before ++ (width.encode operand ++ (operandBytes operands widths ++ after)) := by
            rw [hcode]
            simp [operandBytes]
          have hread := width.read?_encode (hfits (operand, width) (by simp)) hsplit
          have hafter : code.toList =
              (before ++ width.encode operand) ++ (operandBytes operands widths ++ after) := by
            rw [hsplit]
            simp
          have hrest := ih (by simpa using hlength)
            (fun pair member => hfits pair (by simp [member])) hafter
          rw [List.length_append, Width.length_encode] at hrest
          simp [hread, hrest]

theorem fetch?_encode {instruction : Instruction} (hfits : instruction.Fits)
    {code : Code} {before after : List UInt8}
    (hcode : code.toList = before ++ (instruction.encode ++ after)) :
    code.fetch? before.length = some (.ok instruction) := by
  have hbyte : code[before.length]? = some instruction.op.toByte := by
    rw [← Array.getElem?_toList, hcode, encode_eq, List.getElem?_append_right (Nat.le_refl _)]
    simp
  have hoperands : code.operands? (before.length + 1) instruction.op.widths =
      some instruction.operands := by
    have hafter : code.toList = (before ++ [instruction.op.toByte]) ++
        (operandBytes instruction.operands instruction.op.widths ++ after) := by
      rw [hcode, encode_eq]
      simp
    simpa using operands?_operandBytes hfits.1 hfits.2 hafter
  simp [fetch?, hbyte, decode, hoperands]

def Holds (code : Code) (offset : Nat) (instructions : List Instruction) : Prop :=
  ∃ before after, code.toList = before ++ (encodeAll instructions ++ after) ∧
    before.length = offset

theorem holds_all {code : Code} {instructions : List Instruction}
    (hcode : code.toList = encodeAll instructions) : code.Holds 0 instructions :=
  ⟨[], [], by simp [hcode], rfl⟩

namespace Holds

variable {code : Code} {offset : Nat}

theorem left {first second : List Instruction} (holds : code.Holds offset (first ++ second)) :
    code.Holds offset first := by
  obtain ⟨before, after, hcode, hlength⟩ := holds
  exact ⟨before, encodeAll second ++ after, by rw [hcode]; simp, hlength⟩

theorem right {first second : List Instruction}
    (hfits : ∀ instruction ∈ first, instruction.Fits)
    (holds : code.Holds offset (first ++ second)) :
    code.Holds (offset + sizeAll first) second := by
  obtain ⟨before, after, hcode, hlength⟩ := holds
  refine ⟨before ++ encodeAll first, after, by rw [hcode]; simp, ?_⟩
  rw [List.length_append, hlength, length_encodeAll hfits]

theorem tail {first : Instruction} {rest : List Instruction} (hfits : first.Fits)
    (holds : code.Holds offset (first :: rest)) : code.Holds (offset + first.size) rest := by
  have hsplit : code.Holds offset ([first] ++ rest) := holds
  simpa using hsplit.right (by simpa using hfits)

theorem fetch {first : Instruction} {rest : List Instruction} (hfits : first.Fits)
    (holds : code.Holds offset (first :: rest)) : code.fetch? offset = some (.ok first) := by
  obtain ⟨before, after, hcode, hlength⟩ := holds
  rw [encodeAll_cons, List.append_assoc] at hcode
  exact hlength ▸ fetch?_encode hfits hcode

end Holds

theorem scanFrom_encodeAll {code : Code} {before : List UInt8} {instructions : List Instruction}
    (hfits : ∀ instruction ∈ instructions, instruction.Fits)
    (hcode : code.toList = before ++ encodeAll instructions) (done : List (Nat × Instruction)) :
    code.scanFrom before.length done =
      ⟨done.reverse ++ place before.length instructions, none⟩ := by
  induction instructions generalizing before done with
  | nil =>
      have hsize : code.size = before.length := by
        rw [← Array.length_toList, hcode]
        simp
      rw [scanFrom, dif_neg (by omega)]
      simp [place]
  | cons first rest ih =>
      have hfirst : first.Fits := hfits first (by simp)
      rw [encodeAll_cons] at hcode
      have hfetch := fetch?_encode hfirst hcode
      have hinside : before.length < code.size := by
        rw [← Array.length_toList, hcode]
        simp [encode_eq]
      have hdecode : code.decode before.length code[before.length] = .ok first := by
        simpa [fetch?, hinside] using hfetch
      have hafter : code.toList = (before ++ first.encode) ++ encodeAll rest := by
        rw [hcode]
        simp
      have hrest := ih (fun instruction member => hfits instruction (by simp [member])) hafter
        ((before.length, first) :: done)
      rw [List.length_append, length_encode hfirst] at hrest
      rw [scanFrom, dif_pos hinside, hdecode]
      simp only [hrest, place, List.reverse_cons, List.append_assoc, List.cons_append,
        List.nil_append]

theorem scan_encodeAll {code : Code} {instructions : List Instruction}
    (hfits : ∀ instruction ∈ instructions, instruction.Fits)
    (hcode : code.toList = encodeAll instructions) :
    code.scan = ⟨place 0 instructions, none⟩ := by
  have hall : code.toList = [] ++ encodeAll instructions := hcode
  simpa [scan] using scanFrom_encodeAll hfits hall []

/-! Changing the bytes of one instruction. -/

theorem toList_overwrite (code : Code) (before old after new : List UInt8)
    (hcode : code.toList = before ++ (old ++ after)) (hlength : new.length = old.length) :
    (code.overwrite before.length new).toList = before ++ (new ++ after) := by
  induction new generalizing code before old with
  | nil =>
      have : old = [] := by
        cases old with
        | nil => rfl
        | cons byte old => simp at hlength
      subst old
      simpa [overwrite] using hcode
  | cons byte new ih =>
      cases old with
      | nil => simp at hlength
      | cons first old =>
          have hset : (code.setIfInBounds before.length byte).toList =
              (before ++ [byte]) ++ (old ++ after) := by
            rw [Array.toList_setIfInBounds, hcode]
            simp
          have := ih (code.setIfInBounds before.length byte) (before ++ [byte]) old hset
            (by simpa using hlength)
          rw [List.length_append] at this
          simpa [overwrite] using this

theorem toList_truncate {code : Code} {before after : List UInt8}
    (hcode : code.toList = before ++ after) :
    (code.truncate before.length).toList = before := by
  simp [truncate, hcode]

end Code

end Stacklang
