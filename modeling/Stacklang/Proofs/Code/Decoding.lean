import Stacklang.Proofs.Bytecode.Accepted

namespace Stacklang

theorem Opcode.toByte_of_ofByte? {byte : UInt8} {op : Opcode} (hop : ofByte? byte = some op) :
    op.toByte = byte := by
  have hall : ∀ index : Fin all.size, (all[index]).toByte.toNat = index := by decide
  obtain ⟨hinside, hfound⟩ := Array.getElem?_eq_some_iff.mp hop
  apply UInt8.toNat_inj.mp
  rw [← hfound]
  exact hall ⟨byte.toNat, hinside⟩

theorem Opcode.ofByte?_eq_none_iff {byte : UInt8} :
    ofByte? byte = none ↔ ∀ op : Opcode, op.toByte ≠ byte := by
  constructor
  · rintro hnone op rfl
    rw [ofByte?_toByte] at hnone
    cases hnone
  · intro hother
    cases hop : ofByte? byte with
    | none => rfl
    | some op => exact absurd (toByte_of_ofByte? hop) (hother op)

theorem Code.drop_of_getElem? {code : Code} {offset : Nat} {byte : UInt8}
    (hbyte : code[offset]? = some byte) :
    code.toList.drop offset = byte :: code.toList.drop (offset + 1) := by
  rw [← Array.getElem?_toList] at hbyte
  obtain ⟨hinside, hfound⟩ := List.getElem?_eq_some_iff.mp hbyte
  rw [List.drop_eq_getElem_cons hinside, hfound]

namespace Width

variable {code : Code} {offset operand : Nat}

theorem read?_eq_some (width : Width) (hread : width.read? code offset = some operand) :
    operand ≤ width.maximum ∧
      code.toList.drop offset = width.encode operand ++ code.toList.drop (offset + width.size) := by
  cases width with
  | byte =>
      obtain ⟨byte, hbyte, rfl⟩ := Option.map_eq_some_iff.mp hread
      refine ⟨Nat.le_of_lt_succ byte.toNat_lt, ?_⟩
      rw [Code.drop_of_getElem? hbyte]
      simp [encode, size]
  | word =>
      simp only [read?] at hread
      split at hread
      next high low hhigh hlow =>
        cases hread
        have hhighByte := high.toNat_lt
        have hlowByte := low.toNat_lt
        refine ⟨by simp only [maximum]; omega, ?_⟩
        have hfirst : (256 * high.toNat + low.toNat) / 256 = high.toNat := by omega
        have hsecond : UInt8.ofNat (256 * high.toNat + low.toNat) = low := by
          apply UInt8.toNat_inj.mp
          rw [UInt8.toNat_ofNat']
          omega
        rw [Code.drop_of_getElem? hhigh, Code.drop_of_getElem? hlow]
        simp [encode, size, hfirst, hsecond]
      next => cases hread

end Width

namespace Code

open Instruction

theorem operands?_eq_some {code : Code} {offset : Nat} {widths : List Width} {operands : List Nat}
    (hread : code.operands? offset widths = some operands) :
    operands.length = widths.length ∧
      (∀ pair ∈ operands.zip widths, pair.1 ≤ pair.2.maximum) ∧
      code.toList.drop offset =
        operandBytes operands widths ++ code.toList.drop (offset + Width.sizes widths) := by
  induction widths generalizing offset operands with
  | nil =>
      cases hread
      simp [operandBytes, Width.sizes]
  | cons width widths ih =>
      rw [operands?_cons] at hread
      obtain ⟨operand, hfirst, hread⟩ := Option.bind_eq_some_iff.mp hread
      obtain ⟨rest, hrest, rfl⟩ := Option.map_eq_some_iff.mp hread
      obtain ⟨hfits, hbytes⟩ := width.read?_eq_some hfirst
      obtain ⟨hlength, hall, hmore⟩ := ih hrest
      refine ⟨by simp [hlength], ?_, ?_⟩
      · simpa using ⟨hfits, fun left right member => hall (left, right) member⟩
      · rw [hbytes, hmore, Width.sizes, Nat.add_assoc]
        simp [operandBytes]

/-- What stands at an offset: an instruction with all its bytes, a byte that begins none, or an
opcode that the end of the stream cuts off from its operands. -/
inductive Reads (code : Code) (offset : Nat) : Except DecodeFault Instruction → Prop where
  | whole {instruction : Instruction} (hfits : instruction.Fits)
      (holds : code.Holds offset [instruction]) : Reads code offset (.ok instruction)
  | unknown {byte : UInt8} (hbyte : code[offset]? = some byte)
      (hother : ∀ op : Opcode, op.toByte ≠ byte) :
      Reads code offset (.error (.unknownOpcode byte))
  | truncated {op : Opcode} (hbyte : code[offset]? = some op.toByte)
      (hshort : code.size < offset + op.size) : Reads code offset (.error (.truncated op))

theorem Reads.fetch {code : Code} {offset : Nat} {outcome : Except DecodeFault Instruction}
    (reads : code.Reads offset outcome) : code.fetch? offset = some outcome := by
  cases reads with
  | whole hfits holds => exact holds.fetch hfits
  | unknown hbyte hother =>
      rw [fetch?, hbyte, Option.map_some, decode, Opcode.ofByte?_eq_none_iff.mpr hother]
  | @truncated op hbyte hshort =>
      have hinside := (Array.getElem?_eq_some_iff.mp hbyte).1
      have hnone : code.operands? (offset + 1) op.widths = none := by
        refine (operands?_eq_none_iff hinside).mpr ?_
        simp only [Opcode.size] at hshort
        omega
      simp [fetch?, hbyte, decode, hnone]

theorem reads_of_fetch {code : Code} {offset : Nat} {outcome : Except DecodeFault Instruction}
    (hfetch : code.fetch? offset = some outcome) : code.Reads offset outcome := by
  cases outcome with
  | error fault =>
      obtain ⟨hinside, ⟨hop, rfl⟩ | ⟨op, hop, hoperands, rfl⟩⟩ := parts_of_undecodable hfetch
      · exact .unknown (Array.getElem?_eq_getElem hinside) (Opcode.ofByte?_eq_none_iff.mp hop)
      · refine .truncated ?_ ?_
        · rw [Opcode.toByte_of_ofByte? hop, Array.getElem?_eq_getElem hinside]
        · have hshort := (operands?_eq_none_iff hinside).mp hoperands
          simp only [Opcode.size]
          omega
  | ok instruction =>
      obtain ⟨hinside, hop, hoperands⟩ := parts_of_fetch hfetch
      obtain ⟨hlength, hall, hbytes⟩ := operands?_eq_some hoperands
      have hbyte : code[offset]? = some instruction.op.toByte := by
        rw [Opcode.toByte_of_ofByte? hop, Array.getElem?_eq_getElem hinside]
      refine .whole ⟨hlength, hall⟩ ⟨code.toList.take offset,
        code.toList.drop (offset + 1 + Width.sizes instruction.op.widths), ?_, ?_⟩
      · calc
          code.toList = code.toList.take offset ++ code.toList.drop offset :=
            (List.take_append_drop _ _).symm
          _ = _ := by
            rw [drop_of_getElem? hbyte, hbytes]
            simp [encode_eq]
      · rw [List.length_take, Array.length_toList]
        omega

theorem byte_of_fetch {code : Code} {offset : Nat} {instruction : Instruction}
    (hfetch : code.fetch? offset = some (.ok instruction)) :
    code[offset]? = some instruction.op.toByte := by
  obtain ⟨hinside, hop, -⟩ := parts_of_fetch hfetch
  rw [Opcode.toByte_of_ofByte? hop, Array.getElem?_eq_getElem hinside]

end Code

end Stacklang
