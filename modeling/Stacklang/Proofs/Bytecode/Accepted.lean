import Stacklang.Bytecode.Verify
import Stacklang.Proofs.Code.Stream

namespace Stacklang

namespace Code

/-- The offset of an instruction of the stream, or its end. -/
def Boundary (code : Code) (offset : Nat) : Prop :=
  offset = code.size ∨ ∃ instruction, (offset, instruction) ∈ code.scan.instructions

theorem fetch_inside {code : Code} {offset : Nat} {instruction : Instruction}
    (hfetch : code.fetch? offset = some (.ok instruction)) :
    offset + instruction.size ≤ code.size := by
  obtain ⟨hinside, -, hoperands⟩ := parts_of_fetch hfetch
  apply Nat.le_of_not_lt
  intro hshort
  have hnone : code.operands? (offset + 1) instruction.op.widths = none := by
    refine (operands?_eq_none_iff hinside).mpr ?_
    simp only [Instruction.size, Opcode.size] at hshort
    omega
  rw [hnone] at hoperands
  cases hoperands

theorem decode_inside {code : Code} {offset : Nat} {instruction : Instruction}
    (hinside : offset < code.size) (hdecode : code.decode offset code[offset] = .ok instruction) :
    offset + instruction.size ≤ code.size :=
  fetch_inside (by simp [fetch?, hinside, hdecode])

def Follows (code : Code) : Nat → List (Nat × Instruction) → Prop
  | offset, [] => offset = code.size
  | offset, (place, instruction) :: rest =>
      place = offset ∧ code.fetch? offset = some (.ok instruction) ∧
        Follows code (offset + instruction.size) rest

theorem scanFrom_follows {code : Code} {offset : Nat} {done : List (Nat × Instruction)}
    (hinside : offset ≤ code.size) (hwhole : (code.scanFrom offset done).fault? = none) :
    ∃ rest, (code.scanFrom offset done).instructions = done.reverse ++ rest ∧
      code.Follows offset rest := by
  fun_induction scanFrom code offset done with
  | case1 => cases hwhole
  | case2 offset done inside instruction hdecode ih =>
      obtain ⟨rest, hscan, hfollows⟩ := ih (decode_inside inside hdecode) hwhole
      refine ⟨(offset, instruction) :: rest, by rw [hscan]; simp, rfl, ?_, hfollows⟩
      simp [fetch?, inside, hdecode]
  | case3 offset done outside => exact ⟨[], by simp, by simp only [Follows]; omega⟩

theorem Follows.fetch {code : Code} {offset : Nat} {rest : List (Nat × Instruction)}
    (follows : code.Follows offset rest) {place : Nat} {instruction : Instruction}
    (member : (place, instruction) ∈ rest) :
    code.fetch? place = some (.ok instruction) ∧
      (place + instruction.size = code.size ∨
        ∃ next, (place + instruction.size, next) ∈ rest) := by
  induction rest generalizing offset with
  | nil => simp at member
  | cons entry rest ih =>
      obtain ⟨first, head⟩ := entry
      obtain ⟨rfl, hfetch, hrest⟩ := follows
      rw [List.mem_cons] at member
      rcases member with heq | member
      · cases heq
        refine ⟨hfetch, ?_⟩
        cases rest with
        | nil => exact .inl hrest
        | cons next rest =>
            obtain ⟨at_, following⟩ := next
            exact .inr ⟨following, by simp [hrest.1]⟩
      · obtain ⟨hat, hnext⟩ := ih hrest member
        refine ⟨hat, hnext.imp_right ?_⟩
        rintro ⟨next, hmember⟩
        exact ⟨next, by simp [hmember]⟩

theorem scan_follows {code : Code} (hwhole : code.scan.fault? = none) :
    code.Follows 0 code.scan.instructions := by
  obtain ⟨rest, hscan, hfollows⟩ := scanFrom_follows (Nat.zero_le _) hwhole
  rw [scan, hscan]
  simpa using hfollows

theorem boundary_zero {code : Code} (hwhole : code.scan.fault? = none) : code.Boundary 0 := by
  have hfollows := scan_follows hwhole
  cases hscan : code.scan.instructions with
  | nil =>
      rw [hscan] at hfollows
      exact .inl hfollows
  | cons entry rest =>
      rw [hscan] at hfollows
      obtain ⟨place, instruction⟩ := entry
      exact .inr ⟨instruction, by simp [hscan, ← hfollows.1]⟩

theorem Boundary.fetch {code : Code} {offset : Nat} (boundary : code.Boundary offset)
    (hwhole : code.scan.fault? = none) :
    code.fetch? offset = none ∨
      ∃ instruction, code.fetch? offset = some (.ok instruction) ∧
        (offset, instruction) ∈ code.scan.instructions ∧
        code.Boundary (offset + instruction.size) := by
  rcases boundary with rfl | ⟨instruction, member⟩
  · exact .inl (by simp [fetch?])
  · obtain ⟨hfetch, hnext⟩ := (scan_follows hwhole).fetch member
    exact .inr ⟨instruction, hfetch, member, hnext⟩

theorem Boundary.mem_scan {code : Code} {offset : Nat} {instruction : Instruction}
    (boundary : code.Boundary offset) (hwhole : code.scan.fault? = none)
    (hfetch : code.fetch? offset = some (.ok instruction)) :
    (offset, instruction) ∈ code.scan.instructions := by
  rcases boundary.fetch hwhole with hend | ⟨fetched, hfetch', member, -⟩
  · rw [hend] at hfetch
    cases hfetch
  · rw [hfetch] at hfetch'
    cases hfetch'
    exact member

end Code

namespace Verify

section

variable {constants : Array Constant} {locals? : Option Nat} {next : Instruction}

theorem constant_ok_iff (hop : next.op = .constant) :
    instruction constants locals? next = .ok () ↔ next.operand 0 < constants.size := by
  simp only [instruction, hop]
  split
  next hless => simp [hless]
  next hnot => simp [hnot]

theorem closure_ok_iff (hop : next.op = .closure) :
    instruction constants locals? next = .ok () ↔
      ∃ template, constants[next.operand 0]? = some (.function template) := by
  simp only [instruction, hop]
  split
  next template hfound => simp [hfound]
  next hnot =>
    constructor
    · intro h
      cases h
    · rintro ⟨template, hfound⟩
      exact absurd hfound (hnot template)

theorem getBuiltin_ok_iff (hop : next.op = .getBuiltin) :
    instruction constants locals? next = .ok () ↔ next.operand 0 < Builtin.all.length := by
  simp only [instruction, hop]
  split
  next hless => simp [hless]
  next hnot => simp [hnot]

theorem local_ok_iff (hop : next.op = .getLocal ∨ next.op = .setLocal) :
    instruction constants locals? next = .ok () ↔
      ∃ locals, locals? = some locals ∧ next.operand 0 < locals := by
  cases locals? with
  | none => rcases hop with hop | hop <;> simp [instruction, hop]
  | some locals =>
      by_cases hless : next.operand 0 < locals
      · rcases hop with hop | hop <;> simp [instruction, hop, hless]
      · rcases hop with hop | hop <;> simp [instruction, hop, hless]

end

/-- A stream in which every instruction decodes and passes its check, and every jump lands on an
instruction or the end. -/
structure Accepted (constants : Array Constant) (locals? : Option Nat) (code : Code) : Prop where
  whole : code.scan.fault? = none
  checked : ∀ entry ∈ code.scan.instructions, instruction constants locals? entry.2 = .ok ()
  landing : ∀ entry ∈ code.scan.instructions, ∀ target, entry.2.target? = some target →
    code.Boundary target

structure AcceptedTemplate (constants : Array Constant) (template : Template) : Prop where
  locals : template.locals ≤ maxLocals
  parameters : template.parameters ≤ template.locals
  stream : Accepted constants (some template.locals) template.code

def Passed.addAll (passed : Passed) (entries : List (Nat × Instruction)) : Passed :=
  entries.foldl (fun passed entry => passed.add entry.1 entry.2) passed

section

variable {constants : Array Constant} {locals? : Option Nat} {code : Code} {offset : Nat}
  {passed : Passed}

theorem walk_end (houtside : ¬offset < code.size) :
    walk constants locals? code offset passed = .ok passed := by
  rw [walk, dif_neg houtside]

theorem walk_stopped {fault : DecodeFault} (hfetch : code.fetch? offset = some (.error fault)) :
    walk constants locals? code offset passed = .error ⟨.decode fault, offset⟩ := by
  obtain ⟨hinside, ⟨hop, rfl⟩ | ⟨op, hop, hoperands, rfl⟩⟩ := Code.parts_of_undecodable hfetch
  · rw [walk, dif_pos hinside, hop]
  · rw [walk, dif_pos hinside, hop]
    simp only [Code.readOperands?_eq, hoperands, Option.map_none]

theorem walk_more {next : Instruction} (hfetch : code.fetch? offset = some (.ok next)) :
    walk constants locals? code offset passed =
      match instruction constants locals? next with
      | .error fault => .error ⟨fault, offset⟩
      | .ok () => walk constants locals? code (offset + next.size) (passed.add offset next) := by
  obtain ⟨hinside, hop, hoperands⟩ := Code.parts_of_fetch hfetch
  rw [walk, dif_pos hinside, hop]
  simp only [Code.readOperands?_eq, hoperands, Option.map_some]
  rfl

theorem walk_ok_iff {offset : Nat} {passed result : Passed} :
    walk constants locals? code offset passed = .ok result ↔
      (code.rest offset).fault? = none ∧
        (∀ entry ∈ (code.rest offset).instructions,
          instruction constants locals? entry.2 = .ok ()) ∧
        passed.addAll (code.rest offset).instructions = result := by
  cases hfetch : code.fetch? offset with
  | none =>
      have houtside := Code.fetch?_eq_none_iff.mp hfetch
      simp [walk_end houtside, Code.rest_end houtside, Passed.addAll]
  | some outcome =>
      cases outcome with
      | error fault => simp [walk_stopped hfetch, Code.rest_stopped hfetch]
      | ok next =>
          rw [walk_more hfetch, Code.rest_more hfetch]
          cases hnext : instruction constants locals? next with
          | error fault => simp [hnext]
          | ok =>
              have := Code.size_of_fetch hfetch
              have hrest := @walk_ok_iff (offset + next.size) (passed.add offset next) result
              simpa [hnext, Passed.addAll] using hrest
  termination_by code.size - offset

end

theorem boundaries_addAll (entries : List (Nat × Instruction)) (passed : Passed) :
    (passed.addAll entries).boundaries = (entries.map (·.1)).reverse ++ passed.boundaries := by
  induction entries generalizing passed with
  | nil => rfl
  | cons entry entries ih =>
      rw [Passed.addAll, List.foldl_cons, ← Passed.addAll, ih]
      simp [Passed.add]

theorem jumps_addAll (entries : List (Nat × Instruction)) (passed : Passed) :
    (passed.addAll entries).jumps =
      (entries.filterMap fun entry => entry.2.target?.map (entry.1, ·)).reverse ++
        passed.jumps := by
  induction entries generalizing passed with
  | nil => rfl
  | cons entry entries ih =>
      rw [Passed.addAll, List.foldl_cons, ← Passed.addAll, ih]
      cases htarget : entry.2.target? with
      | none => simp [Passed.add, htarget]
      | some target => simp [Passed.add, htarget]

theorem jumps_ok_iff {size : Nat} {boundaries : List Nat} {list : List (Nat × Nat)} :
    jumps size boundaries list = .ok () ↔
      ∀ jump ∈ list, jump.2 = size ∨ jump.2 ∈ boundaries := by
  induction list with
  | nil => simp [jumps]
  | cons jump list ih =>
      obtain ⟨offset, target⟩ := jump
      rw [jumps, List.forall_mem_cons, ← ih]
      by_cases hlands : target = size ∨ target ∈ boundaries
      · rw [if_neg (by simpa [Decidable.or_iff_not_imp_left] using hlands)]
        exact ⟨fun hrest => ⟨hlands, hrest⟩, fun hall => hall.2⟩
      · rw [if_pos (by simpa using hlands)]
        exact ⟨nofun, fun hall => absurd hall.1 hlands⟩

theorem jumps_scan_ok_iff {code : Code} {passed : Passed}
    (hpassed : Passed.addAll ⟨[], []⟩ code.scan.instructions = passed) :
    jumps code.size passed.boundaries passed.jumps.reverse = .ok () ↔
      ∀ entry ∈ code.scan.instructions, ∀ target, entry.2.target? = some target →
        code.Boundary target := by
  subst hpassed
  rw [boundaries_addAll, jumps_addAll, jumps_ok_iff]
  simp only [List.append_nil, List.reverse_reverse, List.mem_reverse, List.mem_filterMap,
    Option.map_eq_some_iff, Code.Boundary, List.mem_map]
  constructor
  · intro hall entry member target htarget
    refine (hall (entry.1, target) ⟨entry, member, target, htarget, rfl⟩).imp_right ?_
    rintro ⟨⟨offset, instruction⟩, hlands, rfl⟩
    exact ⟨instruction, hlands⟩
  · rintro hall _ ⟨entry, member, target, htarget, rfl⟩
    refine (hall entry member target htarget).imp_right ?_
    rintro ⟨instruction, hlands⟩
    exact ⟨_, hlands, rfl⟩

theorem stream_ok_iff {constants : Array Constant} {locals? : Option Nat} {code : Code} :
    stream constants locals? code = .ok () ↔ Accepted constants locals? code := by
  have hwalk : ∀ {passed}, walk constants locals? code 0 ⟨[], []⟩ = .ok passed ↔
      code.scan.fault? = none ∧
        (∀ entry ∈ code.scan.instructions, instruction constants locals? entry.2 = .ok ()) ∧
        Passed.addAll ⟨[], []⟩ code.scan.instructions = passed := walk_ok_iff
  constructor
  · intro hstream
    cases hpasses : walk constants locals? code 0 ⟨[], []⟩ with
    | error error =>
        rw [stream, hpasses] at hstream
        cases hstream
    | ok passed =>
        rw [stream, hpasses] at hstream
        obtain ⟨hwhole, hchecked, hpassed⟩ := hwalk.mp hpasses
        exact ⟨hwhole, hchecked, (jumps_scan_ok_iff hpassed).mp hstream⟩
  · intro accepted
    rw [stream, hwalk.mpr ⟨accepted.whole, accepted.checked, rfl⟩]
    exact (jumps_scan_ok_iff rfl).mpr accepted.landing

theorem template_ok_iff {constants : Array Constant} {function : Template} :
    template constants function = .ok () ↔ AcceptedTemplate constants function := by
  unfold template
  by_cases hlocals : function.locals > maxLocals
  · rw [if_pos hlocals]
    constructor
    · intro h
      cases h
    · intro accepted
      exact absurd accepted.locals (by omega)
  · rw [if_neg hlocals]
    by_cases hparameters : function.parameters > function.locals
    · rw [if_pos hparameters]
      constructor
      · intro h
        cases h
      · intro accepted
        exact absurd accepted.parameters (by omega)
    · rw [if_neg hparameters, stream_ok_iff]
      exact ⟨fun accepted => ⟨by omega, by omega, accepted⟩, fun accepted => accepted.stream⟩

theorem templates_ok_iff (constants : Array Constant) (list : List Constant) :
    templates constants list = .ok () ↔
      ∀ function, .function function ∈ list → AcceptedTemplate constants function := by
  induction list with
  | nil => simp [templates]
  | cons constant rest ih =>
      cases constant with
      | integer value => simpa [templates] using ih
      | string text => simpa [templates] using ih
      | function function =>
          simp only [List.mem_cons, Constant.function.injEq, forall_eq_or_imp, templates]
          rw [← ih, ← template_ok_iff]
          cases template constants function with
          | error error =>
              constructor
              · intro h
                cases h
              · rintro ⟨h, -⟩
                cases h
          | ok => exact ⟨fun h => ⟨rfl, h⟩, fun h => h.2⟩

end Verify

open Verify in
theorem Bytecode.verify_ok_iff {bytecode : Bytecode} :
    bytecode.verify = .ok () ↔
      Accepted bytecode.constants none bytecode.code ∧
        ∀ function, .function function ∈ bytecode.constants →
          AcceptedTemplate bytecode.constants function := by
  have htemplates := templates_ok_iff bytecode.constants bytecode.constants.toList
  simp only [Array.mem_toList_iff] at htemplates
  rw [← stream_ok_iff, ← htemplates, verify]
  cases stream bytecode.constants none bytecode.code with
  | error error =>
      constructor
      · intro h
        cases h
      · rintro ⟨h, -⟩
        cases h
  | ok => exact ⟨fun h => ⟨rfl, h⟩, fun h => h.2⟩

end Stacklang
