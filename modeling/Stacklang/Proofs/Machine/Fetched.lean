import Stacklang.Machine.Step
import Stacklang.Proofs.Code.Stream
import Stacklang.Proofs.Fallible

namespace Stacklang

/-- The instruction with its operands in two slots; a slot without an operand holds zero. -/
def Instruction.slotted (instruction : Instruction) : Instruction :=
  { instruction with operands := instruction.operands.rightpad 2 0 }

@[simp] theorem Instruction.operand_slotted (instruction : Instruction) (position : Nat) :
    instruction.slotted.operand position = instruction.operand position := by
  simp only [slotted, operand, List.rightpad, List.getD_eq_getElem?_getD, List.getElem?_append,
    List.getElem?_replicate]
  split
  next => rfl
  next houtside =>
    rw [List.getElem?_eq_none (Nat.le_of_not_lt houtside)]
    split <;> rfl

theorem Opcode.length_widths_le (op : Opcode) : op.widths.length ≤ 2 := by
  cases op <;> decide

namespace Machine

open Fallible

theorem readSlot_eq (code : Code) (offset : Nat) (width : Width) :
    readSlot code offset width = width.read? code offset := by
  cases width <;> rfl

theorem fillSlots_eq (code : Code) (offset : Nat) {slots : List Nat} {widths : List Width}
    (hlength : widths.length ≤ slots.length) :
    fillSlots code offset slots widths =
      (code.operands? offset widths).map fun operands =>
        (operands ++ slots.drop widths.length, offset + Width.sizes widths) := by
  induction widths generalizing offset slots with
  | nil => cases slots <;> rfl
  | cons width widths ih =>
      cases slots with
      | nil => cases hlength
      | cons slot slots =>
          have hrest := ih (offset + width.size) (Nat.le_of_succ_le_succ hlength)
          rw [fillSlots, readSlot_eq, Code.operands?_cons, hrest]
          cases width.read? code offset with
          | none => rfl
          | some operand =>
              cases code.operands? (offset + width.size) widths with
              | none => rfl
              | some operands => simp [Width.sizes, Nat.add_assoc]

theorem fillSlots_op (code : Code) (offset : Nat) (op : Opcode) :
    fillSlots code (offset + 1) [0, 0] op.widths =
      (code.operands? (offset + 1) op.widths).map fun operands =>
        (operands.rightpad 2 0, offset + op.size) := by
  rw [fillSlots_eq code _ op.length_widths_le]
  cases hoperands : code.operands? (offset + 1) op.widths with
  | none => rfl
  | some operands =>
      have hzeros : [0, 0].drop op.widths.length = List.replicate (2 - operands.length) 0 := by
        rw [Code.length_operands? hoperands, ← List.drop_replicate]
        rfl
      rw [Option.map_some, Option.map_some, hzeros, Opcode.size, Nat.add_assoc]
      rfl

variable {machine : Machine}

theorem fetch_end (hfetch : machine.frame.template.code.fetch? machine.frame.ip = none) :
    fetch.run machine =
      (if machine.callers.isEmpty then .ok none else .error (.fault .missingReturn), machine) := by
  have hbyte : machine.frame.template.code[machine.frame.ip]? = none :=
    Option.map_eq_none_iff.mp hfetch
  simp only [fetch, run_bind, run_get, hbyte]
  cases machine.callers.isEmpty <;> rfl

theorem fetch_undecodable {fault : DecodeFault}
    (hfetch : machine.frame.template.code.fetch? machine.frame.ip = some (.error fault)) :
    fetch.run machine = (.error (.fault (.undecodable fault machine.frame.ip)), machine) := by
  obtain ⟨hinside, ⟨hop, rfl⟩ | ⟨op, hop, hoperands, rfl⟩⟩ := Code.parts_of_undecodable hfetch
  · simp only [fetch, run_bind, run_get, Array.getElem?_eq_getElem hinside, hop]
    rfl
  · simp only [fetch, run_bind, run_get, Array.getElem?_eq_getElem hinside, hop, fillSlots_op,
      hoperands, Option.map_none]
    rfl

theorem fetch_run {instruction : Instruction}
    (hfetch : machine.frame.template.code.fetch? machine.frame.ip = some (.ok instruction)) :
    fetch.run machine = (.ok (some instruction.slotted),
      { machine with
        frame := { machine.frame with ip := machine.frame.ip + instruction.size } }) := by
  obtain ⟨hinside, hop, hoperands⟩ := Code.parts_of_fetch hfetch
  simp only [fetch, run_bind, run_get, Array.getElem?_eq_getElem hinside, hop, fillSlots_op,
    hoperands, Option.map_some]
  rfl

theorem execute_slotted (instruction : Instruction) :
    execute instruction.slotted = execute instruction := by
  simp only [execute, Instruction.operand_slotted]
  rfl

end Machine

end Stacklang
