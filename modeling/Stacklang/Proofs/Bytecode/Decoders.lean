import Mathlib.Data.List.Forall2
import Stacklang.Code.Listing
import Stacklang.Proofs.Code.Decoding
import Stacklang.Proofs.Machine.Fetched

namespace Stacklang

namespace Code

def Line.error (offset : Nat) (fault : DecodeFault) : Line :=
  ⟨offset, "ERROR: " ++ fault.message, none⟩

def Line.ofInstruction (offset : Nat) (instruction : Instruction) : Line :=
  ⟨offset, instruction.display, instruction.target?⟩

def Scan.lines (scan : Scan) : List Line :=
  scan.instructions.map (fun (offset, instruction) => Line.ofInstruction offset instruction) ++
    (scan.fault?.map fun (offset, fault) => Line.error offset fault).toList

section

variable {code : Code} {offset : Nat} {done : List Line}

theorem linesFrom_end (houtside : ¬offset < code.size) :
    code.linesFrom offset done = done.reverse := by
  rw [linesFrom, dif_neg houtside]

theorem linesFrom_stopped {fault : DecodeFault}
    (hfetch : code.fetch? offset = some (.error fault)) :
    code.linesFrom offset done = (.error offset fault :: done).reverse := by
  obtain ⟨hinside, ⟨hop, rfl⟩ | ⟨op, hop, hoperands, rfl⟩⟩ := parts_of_undecodable hfetch
  · rw [linesFrom, dif_pos hinside, hop]
    rfl
  · rw [linesFrom, dif_pos hinside, hop]
    simp only [readOperands?_eq, hoperands, Option.map_none]
    rfl

theorem linesFrom_more {instruction : Instruction}
    (hfetch : code.fetch? offset = some (.ok instruction)) :
    code.linesFrom offset done =
      code.linesFrom (offset + instruction.size) (.ofInstruction offset instruction :: done) := by
  obtain ⟨hinside, hop, hoperands⟩ := parts_of_fetch hfetch
  rw [linesFrom, dif_pos hinside, hop]
  simp only [readOperands?_eq, hoperands, Option.map_some]
  rfl

end

theorem linesFrom_eq (code : Code) (offset : Nat) (done : List Line) :
    code.linesFrom offset done = done.reverse ++ (code.rest offset).lines := by
  cases hfetch : code.fetch? offset with
  | none =>
      have houtside := fetch?_eq_none_iff.mp hfetch
      simp [linesFrom_end houtside, rest_end houtside, Scan.lines]
  | some outcome =>
      cases outcome with
      | error fault => simp [linesFrom_stopped hfetch, rest_stopped hfetch, Scan.lines]
      | ok instruction =>
          have := size_of_fetch hfetch
          rw [linesFrom_more hfetch, rest_more hfetch, linesFrom_eq code (offset + instruction.size)]
          simp [Scan.lines]
  termination_by code.size - offset

theorem lines_eq (code : Code) : code.lines = (code.rest 0).lines :=
  linesFrom_eq code 0 []

def Line.IsError (line : Line) : Prop :=
  "ERROR: ".toList <+: line.text.toList

theorem head?_display (instruction : Instruction) :
    instruction.display.toList.head? = some 'O' := by
  have hmnemonic : instruction.op.mnemonic.toList.head? = some 'O' := by
    cases instruction.op <;> rfl
  rw [Instruction.display, String.toList_intercalate]
  cases instruction.operands with
  | nil => simpa using hmnemonic
  | cons operand operands => simp [List.intercalate_cons_cons, hmnemonic]

theorem Line.not_isError_ofInstruction (offset : Nat) (instruction : Instruction) :
    ¬ (Line.ofInstruction offset instruction).IsError := by
  have hhead := head?_display instruction
  rintro ⟨text, htext⟩
  change _ = instruction.display.toList at htext
  rw [← htext] at hhead
  simp at hhead

theorem lines_of_whole {code : Code} (hwhole : code.scan.fault? = none) :
    code.lines = code.scan.instructions.map fun (offset, instruction) =>
      Line.ofInstruction offset instruction := by
  have hrest : (code.rest 0).fault? = none := hwhole
  rw [lines_eq, Scan.lines, hrest]
  simp [scan, rest]

theorem whole_iff (code : Code) :
    code.scan.fault? = none ↔ ∀ line ∈ code.lines, ¬line.IsError := by
  constructor
  · intro hwhole
    rw [lines_of_whole hwhole]
    intro line member
    obtain ⟨entry, -, rfl⟩ := List.mem_map.mp member
    exact Line.not_isError_ofInstruction _ _
  · intro hlines
    cases hfault : code.scan.fault? with
    | none => rfl
    | some entry =>
        have hrest : (code.rest 0).fault? = some entry := hfault
        refine absurd ?_ (hlines (.error entry.1 entry.2) ?_)
        · exact ⟨entry.2.message.toList, String.toList_append.symm⟩
        · rw [lines_eq, Scan.lines, hrest]
          simp

def targets (code : Code) : List Nat :=
  code.lines.filterMap (·.target?)

/-- Whether the annotated listing shows that a line is jumped to. -/
def Line.Marked (line : Line) (code : Code) : Prop :=
  ∃ text, line.annotated code.targets = targetRule ++ Text.offset line.offset ++ " " ++ "► " ++ text

end Code

namespace Verify

theorem instruction_ne_decode (constants : Array Constant) (locals? : Option Nat)
    (next : Instruction) (fault : DecodeFault) :
    instruction constants locals? next ≠ .error (.decode fault) := by
  simp only [instruction]
  split
  next => split <;> simp
  next => split <;> simp
  next => split <;> simp
  next =>
    split
    next => split <;> simp
    next => simp
  next =>
    split
    next => split <;> simp
    next => simp
  next => simp

theorem jumps_ne_decode (size : Nat) (boundaries : List Nat) (list : List (Nat × Nat))
    (fault : DecodeFault) (offset : Nat) :
    jumps size boundaries list ≠ .error ⟨.decode fault, offset⟩ := by
  induction list with
  | nil => simp [jumps]
  | cons jump rest ih =>
      rw [jumps]
      split
      next => simp
      next => exact ih

theorem fault_of_walk {constants : Array Constant} {locals? : Option Nat} {code : Code}
    {start offset : Nat} {passed : Passed} {fault : DecodeFault}
    (hwalk : walk constants locals? code start passed = .error ⟨.decode fault, offset⟩) :
    (code.rest start).fault? = some (offset, fault) := by
  cases hfetch : code.fetch? start with
  | none =>
      rw [walk_end (Code.fetch?_eq_none_iff.mp hfetch)] at hwalk
      cases hwalk
  | some outcome =>
      cases outcome with
      | error fault =>
          rw [walk_stopped hfetch] at hwalk
          cases hwalk
          rw [Code.rest_stopped hfetch]
      | ok next =>
          rw [walk_more hfetch] at hwalk
          split at hwalk
          next error hnext =>
            cases hwalk
            exact absurd hnext (instruction_ne_decode _ _ _ _)
          next =>
            have := Code.size_of_fetch hfetch
            rw [Code.rest_more hfetch]
            exact fault_of_walk hwalk
  termination_by code.size - start

end Verify

namespace Code

/-- The machine, the checks and the listing all find an instruction at an offset and go on behind it.
The machine has its operands in two slots. -/
structure AllRead (code : Code) (offset : Nat) (instruction : Instruction) : Prop where
  fetched : ∀ machine : Machine, machine.frame.template.code = code → machine.frame.ip = offset →
    Machine.fetch.run machine = (.ok (some instruction.slotted),
      { machine with frame := { machine.frame with ip := offset + instruction.size } })
  checked : ∀ constants locals? passed,
    Verify.walk constants locals? code offset passed =
      match Verify.instruction constants locals? instruction with
      | .error fault => .error ⟨fault, offset⟩
      | .ok () =>
          Verify.walk constants locals? code (offset + instruction.size)
            (passed.add offset instruction)
  listed : ∀ done, code.linesFrom offset done =
    code.linesFrom (offset + instruction.size) (.ofInstruction offset instruction :: done)

structure AllStop (code : Code) (offset : Nat) (fault : DecodeFault) : Prop where
  fetched : ∀ machine : Machine, machine.frame.template.code = code → machine.frame.ip = offset →
    Machine.fetch.run machine = (.error (.fault (.undecodable fault offset)), machine)
  checked : ∀ constants locals? passed,
    Verify.walk constants locals? code offset passed = .error ⟨.decode fault, offset⟩
  listed : ∀ done, code.linesFrom offset done = (.error offset fault :: done).reverse

theorem Reads.allRead {code : Code} {offset : Nat} {instruction : Instruction}
    (reads : code.Reads offset (.ok instruction)) : code.AllRead offset instruction where
  fetched := by
    rintro machine rfl rfl
    exact Machine.fetch_run reads.fetch
  checked _ _ _ := Verify.walk_more reads.fetch
  listed _ := linesFrom_more reads.fetch

theorem Reads.allStop {code : Code} {offset : Nat} {fault : DecodeFault}
    (reads : code.Reads offset (.error fault)) : code.AllStop offset fault where
  fetched := by
    rintro machine rfl rfl
    exact Machine.fetch_undecodable reads.fetch
  checked _ _ _ := Verify.walk_stopped reads.fetch
  listed _ := linesFrom_stopped reads.fetch

theorem lines_of_undecodable {constants : Array Constant} {locals? : Option Nat} {code : Code}
    {fault : DecodeFault} {offset : Nat}
    (hstream : Verify.stream constants locals? code = .error ⟨.decode fault, offset⟩) :
    ∃ lines, code.lines = lines ++ [.error offset fault] := by
  have hfault : (code.rest 0).fault? = some (offset, fault) := by
    apply Verify.fault_of_walk
    rw [Verify.stream] at hstream
    cases hwalk : Verify.walk constants locals? code 0 ⟨[], []⟩ with
    | error error =>
        rw [hwalk] at hstream
        cases hstream
        rfl
    | ok passed =>
        rw [hwalk] at hstream
        exact absurd hstream (Verify.jumps_ne_decode _ _ _ _ _)
  rw [lines_eq, Scan.lines, hfault]
  exact ⟨_, rfl⟩

theorem listing_append {code : Code} {lines : List Line} {last : Line}
    (hlines : code.lines = lines ++ [last]) :
    ∃ text, code.listing = text ++ (Text.offset last.offset ++ " " ++ last.text ++ "\n") := by
  rw [listing, hlines, List.map_append, String.join_append]
  refine ⟨_, congrArg _ ?_⟩
  simp

section

variable {constants : Array Constant} {locals? : Option Nat} {code : Code}
  (haccepted : Verify.Accepted constants locals? code)

include haccepted

theorem lines_of_accepted :
    code.lines = code.scan.instructions.map fun (offset, instruction) =>
      Line.ofInstruction offset instruction :=
  lines_of_whole haccepted.whole

theorem marked_of_accepted {line : Line} (member : line ∈ code.lines) {target : Nat}
    (htarget : line.target? = some target) :
    target = code.size ∨ ∃ other ∈ code.lines, other.offset = target ∧ other.Marked code := by
  have hmarked : code.targets.contains target = true := by
    rw [List.contains_iff_mem, targets, List.mem_filterMap]
    exact ⟨line, member, htarget⟩
  rw [lines_of_accepted haccepted] at member
  obtain ⟨entry, hentry, rfl⟩ := List.mem_map.mp member
  refine (haccepted.landing entry hentry target htarget).imp_right ?_
  rintro ⟨instruction, hlanding⟩
  refine ⟨.ofInstruction target instruction, ?_, rfl, ?_⟩
  · rw [lines_of_accepted haccepted]
    exact List.mem_map.mpr ⟨_, hlanding, rfl⟩
  · rw [Line.Marked, Line.annotated]
    simp only [Line.ofInstruction, hmarked, if_true, String.append_assoc]
    exact ⟨_, rfl⟩

end

/-- The machine, the checks on bytecode and the listings read every stream alike. At each offset all
of them find the instruction that stands there, or stop because none does. So a listing ends with the
error that the checks stop at, if that is one of decoding. A stream that passes its checks is listed
without errors, at the offsets that the checks go by, and each of its jumps leads to one of them,
which is marked, or to the end. -/
theorem decoders_agree (code : Code) :
    (∀ offset < code.size,
      (∃ instruction, code.Reads offset (.ok instruction) ∧ code.AllRead offset instruction) ∨
        ∃ fault, code.Reads offset (.error fault) ∧ code.AllStop offset fault) ∧
    ∀ constants locals?,
      (∀ fault offset, Verify.stream constants locals? code = .error ⟨.decode fault, offset⟩ →
        (∃ lines, code.lines = lines ++ [.error offset fault]) ∧
        ∃ text, code.listing =
          text ++ (Text.offset offset ++ " " ++ ("ERROR: " ++ fault.message) ++ "\n")) ∧
      (Verify.stream constants locals? code = .ok () →
        (∀ line ∈ code.lines, ¬ line.IsError) ∧
        (∃ passed, Verify.walk constants locals? code 0 ⟨[], []⟩ = .ok passed ∧
          code.lines.map (·.offset) = passed.boundaries.reverse) ∧
        ∀ line ∈ code.lines, ∀ target, line.target? = some target →
          target = code.size ∨
            ∃ other ∈ code.lines, other.offset = target ∧ other.Marked code) := by
  refine ⟨?_, fun constants locals? => ⟨?_, ?_⟩⟩
  · intro offset hinside
    cases hfetch : code.fetch? offset with
    | none => exact absurd hinside (fetch?_eq_none_iff.mp hfetch)
    | some outcome =>
        have hreads := reads_of_fetch hfetch
        cases outcome with
        | ok instruction => exact .inl ⟨instruction, hreads, hreads.allRead⟩
        | error fault => exact .inr ⟨fault, hreads, hreads.allStop⟩
  · intro fault offset hstream
    obtain ⟨lines, hlines⟩ := lines_of_undecodable hstream
    obtain ⟨text, htext⟩ := listing_append hlines
    simp only [Line.error] at htext
    exact ⟨⟨lines, hlines⟩, text, htext⟩
  · intro hstream
    have haccepted := Verify.stream_ok_iff.mp hstream
    refine ⟨?_, ⟨.addAll ⟨[], []⟩ code.scan.instructions, ?_, ?_⟩, ?_⟩
    · rw [lines_of_accepted haccepted]
      intro line member
      obtain ⟨entry, -, rfl⟩ := List.mem_map.mp member
      exact Line.not_isError_ofInstruction _ _
    · exact Verify.walk_ok_iff.mpr ⟨haccepted.whole, haccepted.checked, rfl⟩
    · rw [lines_of_accepted haccepted, Verify.boundaries_addAll, List.append_nil,
        List.reverse_reverse, List.map_map]
      rfl
    · exact fun line member target htarget => marked_of_accepted haccepted member htarget

def looping : Code :=
  (Instruction.encodeAll [⟨.pushTrue, []⟩, ⟨.jumpNotTruthy, [7]⟩, ⟨.jump, [0]⟩]).toArray

theorem decoders_agree_looping :
    Verify.stream #[] none looping = .ok () ∧
      (∃ other ∈ looping.lines, other.offset = 0 ∧ other.Marked looping) ∧
      Verify.stream #[] none (looping.push 0) = .error ⟨.decode (.truncated .constant), 7⟩ ∧
      ∃ rest, lines (looping.push 0) = rest ++ [.error 7 (.truncated .constant)] := by
  have haccepted : Verify.stream #[] none looping = .ok () := by decide +kernel
  have hstopped : Verify.stream #[] none (looping.push 0) =
      .error ⟨.decode (.truncated .constant), 7⟩ := by decide +kernel
  have hjump : Line.ofInstruction 4 ⟨.jump, [0]⟩ ∈ looping.lines := by decide +kernel
  refine ⟨haccepted, ?_, hstopped, ?_⟩
  · have hlands := (((decoders_agree looping).2 #[] none).2 haccepted).2.2 _ hjump 0 rfl
    exact hlands.resolve_left (by decide)
  · exact (((decoders_agree (looping.push 0)).2 #[] none).1 _ _ hstopped).1

end Code

end Stacklang
