import Stacklang.Proofs.Code.Scanned
import Stacklang.Proofs.Token.Written

namespace Stacklang

namespace Text

def Breaks (rest : List Char) : Prop :=
  ∀ c ∈ rest.head?, c.isAlphanum = false

theorem breaks_nil : Breaks [] := nofun

theorem breaks_cons {c : Char} (hc : c.isAlphanum = false) (rest : List Char) : Breaks (c :: rest) := by
  intro d member
  cases member
  exact hc

theorem word_unique {word other rest rest' : List Char} (hword : ∀ c ∈ word, c.isAlphanum = true)
    (hother : ∀ c ∈ other, c.isAlphanum = true) (hbreaks : Breaks rest) (hbreaks' : Breaks rest')
    (hsame : word ++ rest = other ++ rest') : word = other ∧ rest = rest' := by
  obtain ⟨htake, hdrop⟩ := Lexer.run_split hword hbreaks
  obtain ⟨htake', hdrop'⟩ := Lexer.run_split hother hbreaks'
  rw [hsame] at htake hdrop
  exact ⟨htake.symm.trans htake', hdrop.symm.trans hdrop'⟩

theorem toList_padded (width n : Nat) :
    (padded width n).toList =
      List.replicate (width - (Nat.toDigits 10 n).length) '0' ++ Nat.toDigits 10 n := by
  simp [padded]

theorem isAlphanum_of_mem_padded {width n : Nat} {c : Char} (member : c ∈ (padded width n).toList) :
    c.isAlphanum = true := by
  have hdigit : c.isDigit = true := by
    rw [toList_padded, List.mem_append, List.mem_replicate] at member
    rcases member with ⟨-, rfl⟩ | member
    · rfl
    · exact Nat.isDigit_of_mem_toDigits (by decide) (by decide) member
  simp [Char.isAlphanum, hdigit]

theorem padded_ne_nil (width n : Nat) : (padded width n).toList ≠ [] := by
  rw [toList_padded]
  exact List.append_ne_nil_of_right_ne_nil _ Nat.toDigits_ne_nil

theorem digitsValue_padded (width n : Nat) : digitsValue (padded width n).toList = n := by
  have hzeros : ∀ count, (List.replicate count '0').foldl
      (fun value c => 10 * value + (c.toNat - '0'.toNat)) 0 = 0 := by
    intro count
    induction count with
    | zero => rfl
    | succ count ih => exact ih
  rw [toList_padded, digitsValue, List.foldl_append, hzeros]
  exact digitsValue_toDigits n

theorem padded_unique {width n m : Nat} {rest rest' : List Char} (hbreaks : Breaks rest)
    (hbreaks' : Breaks rest')
    (hsame : (padded width n).toList ++ rest = (padded width m).toList ++ rest') :
    n = m ∧ rest = rest' := by
  obtain ⟨hdigits, hrest⟩ := word_unique (fun _ => isAlphanum_of_mem_padded)
    (fun _ => isAlphanum_of_mem_padded) hbreaks hbreaks' hsame
  refine ⟨?_, hrest⟩
  rw [← digitsValue_padded width n, hdigits, digitsValue_padded]

/-- Texts that are written one behind the other have one reading, if each of them can be told from
what follows it. -/
theorem flatMap_unique {α : Type} (known : α → Prop) {write write' : α → List Char}
    (hwrite : ∀ item, write item ≠ []) (hwrite' : ∀ item, write' item ≠ [])
    (hunique : ∀ {item other rest rest'}, known item → known other →
      write item ++ rest = write' other ++ rest' → item = other ∧ rest = rest')
    {items others : List α} (hitems : ∀ item ∈ items, known item)
    (hothers : ∀ item ∈ others, known item)
    (hsame : items.flatMap write = others.flatMap write') : items = others := by
  induction items generalizing others with
  | nil =>
      cases others with
      | nil => rfl
      | cons other others =>
          have hempty := List.append_eq_nil_iff.mp hsame.symm
          exact absurd hempty.1 (hwrite' other)
  | cons item items ih =>
      cases others with
      | nil => exact absurd (List.append_eq_nil_iff.mp hsame).1 (hwrite item)
      | cons other others =>
          rw [List.forall_mem_cons] at hitems hothers
          rw [List.flatMap_cons, List.flatMap_cons] at hsame
          obtain ⟨rfl, hrest⟩ := hunique hitems.1 hothers.1 hsame
          rw [ih hitems.2 hothers.2 hrest]

end Text

open Text

theorem Opcode.mnemonic_injective : Function.Injective mnemonic := by
  have hnodup : (all.toList.map mnemonic).Nodup := by decide +kernel
  have hall : ∀ op : Opcode, op ∈ all.toList := fun op =>
    Array.mem_toList_iff.mpr (Array.mem_of_getElem? (ofByte?_toByte op))
  exact fun op other => List.inj_on_of_nodup_map hnodup (hall op) (hall other)

theorem Opcode.mnemonic_unique {op other : Opcode} {rest rest' : List Char} (hbreaks : Breaks rest)
    (hbreaks' : Breaks rest') (hsame : op.mnemonic.toList ++ rest = other.mnemonic.toList ++ rest') :
    op = other ∧ rest = rest' := by
  have hletters : ∀ op : Opcode, op.mnemonic.toList.all Char.isAlphanum = true := by
    intro op
    cases op <;> rfl
  have hword := fun op : Opcode => List.all_eq_true.mp (hletters op)
  obtain ⟨hmnemonic, hrest⟩ := word_unique (hword op) (hword other) hbreaks hbreaks' hsame
  exact ⟨mnemonic_injective (String.toList_inj.mp hmnemonic), hrest⟩

namespace Instruction

def operandText (operands : List Nat) : List Char :=
  operands.flatMap fun operand => ' ' :: (padded 1 operand).toList

theorem toList_display (instruction : Instruction) :
    instruction.display.toList =
      instruction.op.mnemonic.toList ++ operandText instruction.operands := by
  obtain ⟨op, operands⟩ := instruction
  rw [display, String.toList_intercalate]
  generalize op.mnemonic = first
  induction operands generalizing first with
  | nil => simp [operandText]
  | cons operand operands ih =>
      have hrest := ih (padded 1 operand)
      simp only [List.map_cons] at hrest ⊢
      rw [List.intercalate_cons_cons, hrest]
      simp [operandText]

theorem breaks_operandText (operands : List Nat) {rest : List Char} (hbreaks : Breaks rest) :
    Breaks (operandText operands ++ rest) := by
  cases operands with
  | nil => exact hbreaks
  | cons operand operands => exact breaks_cons rfl _

theorem operandText_unique {operands others : List Nat} {rest rest' : List Char}
    (hlength : operands.length = others.length) (hbreaks : Breaks rest) (hbreaks' : Breaks rest')
    (hsame : operandText operands ++ rest = operandText others ++ rest') :
    operands = others ∧ rest = rest' := by
  induction operands generalizing others with
  | nil =>
      obtain rfl := List.length_eq_zero_iff.mp hlength.symm
      exact ⟨rfl, hsame⟩
  | cons operand operands ih =>
      cases others with
      | nil => cases hlength
      | cons other others =>
          simp only [operandText, List.flatMap_cons, List.cons_append, List.append_assoc,
            List.cons.injEq, true_and] at hsame
          obtain ⟨rfl, hrest⟩ := padded_unique (breaks_operandText operands hbreaks)
            (breaks_operandText others hbreaks') hsame
          obtain ⟨rfl, hbehind⟩ := ih (Nat.succ.inj hlength) hrest
          exact ⟨rfl, hbehind⟩

theorem display_unique {instruction other : Instruction} {rest rest' : List Char}
    (hfits : instruction.Fits) (hfits' : other.Fits) (hbreaks : Breaks rest) (hbreaks' : Breaks rest')
    (hsame : instruction.display.toList ++ rest = other.display.toList ++ rest') :
    instruction = other ∧ rest = rest' := by
  rw [toList_display, toList_display, List.append_assoc, List.append_assoc] at hsame
  obtain ⟨hop, hoperands⟩ := Opcode.mnemonic_unique (breaks_operandText _ hbreaks)
    (breaks_operandText _ hbreaks') hsame
  obtain ⟨op, operands⟩ := instruction
  obtain ⟨op', operands'⟩ := other
  obtain rfl : op = op' := hop
  obtain ⟨rfl, hrest⟩ :=
    operandText_unique (hfits.1.trans hfits'.1.symm) hbreaks hbreaks' hoperands
  exact ⟨rfl, hrest⟩

end Instruction

namespace DecodeFault

theorem toList_unknownOpcode (byte : UInt8) :
    (unknownOpcode byte).message.toList =
      "unknown opcode ".toList ++ (padded 1 byte.toNat).toList :=
  String.toList_append

theorem toList_truncated (op : Opcode) :
    (truncated op).message.toList = "truncated ".toList ++ op.mnemonic.toList :=
  String.toList_append

theorem message_unique {fault other : DecodeFault} {rest rest' : List Char}
    (hbreaks : Breaks rest) (hbreaks' : Breaks rest')
    (hsame : fault.message.toList ++ rest = other.message.toList ++ rest') :
    fault = other ∧ rest = rest' := by
  cases fault with
  | unknownOpcode byte =>
      rw [toList_unknownOpcode, List.append_assoc] at hsame
      cases other with
      | unknownOpcode byte' =>
          rw [toList_unknownOpcode, List.append_assoc] at hsame
          obtain ⟨hbyte, hrest⟩ :=
            padded_unique hbreaks hbreaks' (List.append_cancel_left hsame)
          rw [UInt8.toNat_inj.mp hbyte]
          exact ⟨rfl, hrest⟩
      | truncated op =>
          rw [toList_truncated, List.append_assoc] at hsame
          cases (List.cons.inj hsame).1
  | truncated op =>
      rw [toList_truncated, List.append_assoc] at hsame
      cases other with
      | unknownOpcode byte =>
          rw [toList_unknownOpcode, List.append_assoc] at hsame
          cases (List.cons.inj hsame).1
      | truncated op' =>
          rw [toList_truncated, List.append_assoc] at hsame
          obtain ⟨rfl, hrest⟩ :=
            Opcode.mnemonic_unique hbreaks hbreaks' (List.append_cancel_left hsame)
          exact ⟨rfl, hrest⟩

end DecodeFault

namespace Code

namespace Line

inductive Listed : Line → Prop where
  | instruction (offset : Nat) {instruction : Instruction} (hfits : instruction.Fits) :
      Listed (ofInstruction offset instruction)
  | error (offset : Nat) (fault : DecodeFault) : Listed (error offset fault)

variable {line other : Line} {rest rest' : List Char}

theorem display_ne_error (instruction : Instruction) (fault : DecodeFault)
    (rest rest' : List Char) :
    instruction.display.toList ++ rest ≠ ("ERROR: " ++ fault.message).toList ++ rest' := by
  intro hsame
  have hhead := congrArg List.head? hsame
  rw [List.head?_append, head?_display] at hhead
  simp at hhead

theorem text_unique (listed : line.Listed) (listed' : other.Listed) (hbreaks : Breaks rest)
    (hbreaks' : Breaks rest') (hsame : line.text.toList ++ rest = other.text.toList ++ rest') :
    line.text = other.text ∧ line.target? = other.target? ∧ rest = rest' := by
  cases listed with
  | instruction offset hfits =>
      cases listed' with
      | error offset' fault => exact absurd hsame (display_ne_error _ _ _ _)
      | instruction offset' hfits' =>
          obtain ⟨rfl, hrest⟩ := Instruction.display_unique hfits hfits' hbreaks hbreaks' hsame
          exact ⟨rfl, rfl, hrest⟩
  | error offset fault =>
      cases listed' with
      | instruction => exact absurd hsame.symm (display_ne_error _ _ _ _)
      | error offset' fault' =>
          simp only [error, String.toList_append, List.append_assoc,
            List.append_cancel_left_eq] at hsame
          obtain ⟨rfl, hrest⟩ := DecodeFault.message_unique hbreaks hbreaks' hsame
          exact ⟨rfl, rfl, hrest⟩

theorem unique (listed : line.Listed) (listed' : other.Listed) (hbreaks : Breaks rest)
    (hbreaks' : Breaks rest') {gap : List Char}
    (hsame : (Text.offset line.offset).toList ++ ' ' :: (gap ++ (line.text.toList ++ rest)) =
      (Text.offset other.offset).toList ++ ' ' :: (gap ++ (other.text.toList ++ rest'))) :
    line = other ∧ rest = rest' := by
  obtain ⟨hoffset, hbehind⟩ := padded_unique (breaks_cons rfl _) (breaks_cons rfl _) hsame
  have hgap := List.append_cancel_left (List.cons.inj hbehind).2
  obtain ⟨htext, htarget, hrest⟩ := text_unique listed listed' hbreaks hbreaks' hgap
  obtain ⟨offset, text, target?⟩ := line
  obtain ⟨offset', text', target?'⟩ := other
  obtain rfl : offset = offset' := hoffset
  obtain rfl : text = text' := htext
  obtain rfl : target? = target?' := htarget
  exact ⟨rfl, hrest⟩

def plain (line : Line) : List Char :=
  (Text.offset line.offset ++ " " ++ line.text ++ "\n").toList

theorem plain_unique (listed : line.Listed) (listed' : other.Listed)
    (hsame : line.plain ++ rest = other.plain ++ rest') : line = other ∧ rest = rest' := by
  have hwritten : ∀ (line : Line) (rest : List Char), line.plain ++ rest =
      (Text.offset line.offset).toList ++ ' ' :: ([] ++ (line.text.toList ++ '\n' :: rest)) := by
    simp [plain]
  rw [hwritten, hwritten] at hsame
  obtain ⟨hline, hrest⟩ := unique listed listed' (breaks_cons rfl _) (breaks_cons rfl _) hsame
  exact ⟨hline, (List.cons.inj hrest).2⟩

def landing (line : Line) : List Char :=
  match line.target? with
  | some target => ' ' :: ' ' :: ("(→ " ++ Text.offset target ++ ")").toList
  | none => []

theorem breaks_landing (line : Line) (rest : List Char) :
    Breaks (line.landing ++ '\n' :: rest) := by
  unfold landing
  split
  next => exact breaks_cons rfl _
  next => exact breaks_cons rfl _

def mark : Bool → List Char × List Char
  | true => (targetRule.toList, ['►', ' '])
  | false => ([], [' ', ' '])

theorem toList_annotated (targets : List Nat) (line : Line) :
    (line.annotated targets).toList =
      (mark (targets.contains line.offset)).1 ++
        ((Text.offset line.offset).toList ++ ' ' :: ((mark (targets.contains line.offset)).2 ++
          (line.text.toList ++ (line.landing ++ ['\n'])))) := by
  cases hmarked : targets.contains line.offset <;> cases htarget : line.target? <;>
    simp [annotated, landing, mark, htarget, -List.contains_eq_mem, hmarked]

theorem offset_ne_targetRule (offset : Nat) (rest rest' : List Char) :
    (Text.offset offset).toList ++ rest ≠ targetRule.toList ++ rest' := by
  intro hsame
  obtain ⟨c, digits, hdigits⟩ := List.exists_cons_of_ne_nil (padded_ne_nil 4 offset)
  have hletter : c.isAlphanum = true := isAlphanum_of_mem_padded (hdigits ▸ List.mem_cons_self ..)
  rw [Text.offset, hdigits] at hsame
  obtain rfl : c = ' ' := (List.cons.inj hsame).1
  cases hletter

theorem mark_unique {marked marked' : Bool} {offset offset' : Nat}
    (hsame : (mark marked).1 ++ ((Text.offset offset).toList ++ rest) =
      (mark marked').1 ++ ((Text.offset offset').toList ++ rest')) : marked = marked' := by
  cases marked with
  | false =>
      cases marked' with
      | false => rfl
      | true =>
          simp only [mark, List.nil_append] at hsame
          exact absurd hsame (offset_ne_targetRule _ _ _)
  | true =>
      cases marked' with
      | false =>
          simp only [mark, List.nil_append] at hsame
          exact absurd hsame.symm (offset_ne_targetRule _ _ _)
      | true => rfl

theorem annotated_unique {targets targets' : List Nat} (listed : line.Listed)
    (listed' : other.Listed)
    (hsame : (line.annotated targets).toList ++ rest = (other.annotated targets').toList ++ rest') :
    line = other ∧ rest = rest' := by
  simp only [toList_annotated, List.append_assoc, List.cons_append, List.nil_append] at hsame
  have hmark := mark_unique hsame
  rw [hmark] at hsame
  obtain ⟨rfl, hrest⟩ := unique listed listed' (breaks_landing _ _) (breaks_landing _ _)
    (List.append_cancel_left hsame)
  exact ⟨rfl, (List.cons.inj (List.append_cancel_left hrest)).2⟩

end Line

variable {code other : Code}

theorem listed_of_mem {line : Line} (member : line ∈ code.lines) : line.Listed := by
  obtain ⟨instructions, hfits, -, hplaced, -⟩ := code.scan_holds
  rw [lines_eq, ← scan_eq_rest, Scan.lines, List.mem_append] at member
  rcases member with member | member
  · obtain ⟨entry, hentry, rfl⟩ := List.mem_map.mp member
    rw [hplaced] at hentry
    exact .instruction _ (hfits _ (Instruction.mem_place hentry))
  · obtain ⟨⟨offset, fault⟩, -, rfl⟩ := Option.map_eq_some_iff.mp (Option.mem_toList.mp member)
    exact .error offset fault

theorem lines_of_listing (hsame : code.listing = other.listing) : code.lines = other.lines := by
  have htext : ∀ code : Code, code.listing.toList = code.lines.flatMap Line.plain := by
    intro code
    rw [listing, String.toList_join, List.flatMap_map]
    rfl
  have hchars := congrArg String.toList hsame
  rw [htext, htext] at hchars
  exact flatMap_unique Line.Listed (by simp [Line.plain]) (by simp [Line.plain])
    Line.plain_unique (fun _ => listed_of_mem) (fun _ => listed_of_mem) hchars

theorem lines_of_annotatedListing (hsame : code.annotatedListing = other.annotatedListing) :
    code.lines = other.lines := by
  have htext : ∀ code : Code, code.annotatedListing.toList =
      code.lines.flatMap fun line => (line.annotated code.targets).toList := by
    intro code
    rw [annotatedListing, String.toList_join, List.flatMap_map]
    rfl
  have hchars := congrArg String.toList hsame
  rw [htext, htext] at hchars
  exact flatMap_unique Line.Listed (by simp [Line.toList_annotated])
    (by simp [Line.toList_annotated])
    Line.annotated_unique (fun _ => listed_of_mem) (fun _ => listed_of_mem) hchars

theorem instructions_of_lines {entries others : List (Nat × Instruction)}
    (hfits : ∀ entry ∈ entries, entry.2.Fits) (hfits' : ∀ entry ∈ others, entry.2.Fits)
    (hsame : entries.map (fun (offset, instruction) => Line.ofInstruction offset instruction) =
      others.map fun (offset, instruction) => Line.ofInstruction offset instruction) :
    entries = others := by
  induction entries generalizing others with
  | nil => exact (List.map_eq_nil_iff.mp hsame.symm).symm
  | cons entry entries ih =>
      obtain ⟨other, others, rfl, hline, hlines⟩ := List.map_eq_cons_iff.mp hsame.symm
      rw [List.forall_mem_cons] at hfits hfits'
      have hdisplay := congrArg (fun line : Line => line.text.toList ++ []) hline
      obtain ⟨hinstruction, -⟩ :=
        Instruction.display_unique hfits'.1 hfits.1 breaks_nil breaks_nil hdisplay
      rw [Prod.ext (congrArg Line.offset hline) hinstruction, ih hfits.2 hfits'.2 hlines.symm]

theorem eq_of_lines (hcode : ∀ line ∈ code.lines, ¬line.IsError)
    (hlines : code.lines = other.lines) : code = other := by
  have hwhole := code.whole_iff.mpr hcode
  have hwhole' := other.whole_iff.mpr (hlines ▸ hcode)
  obtain ⟨hfits, hbytes⟩ := encodeAll_scan hwhole
  obtain ⟨hfits', hbytes'⟩ := encodeAll_scan hwhole'
  rw [lines_of_whole hwhole, lines_of_whole hwhole'] at hlines
  have hsame := instructions_of_lines hfits hfits' hlines
  rw [← Array.toList_inj, hbytes, hbytes', hsame]

/-- A stream that is listed to its end without an error can be told from its listing, and also from
the one with jumps annotated: no other stream has the same. -/
theorem listing_determines_code (hcode : ∀ line ∈ code.lines, ¬line.IsError) :
    (code.listing = other.listing → code = other) ∧
      (code.annotatedListing = other.annotatedListing → code = other) :=
  ⟨fun hsame => eq_of_lines hcode (lines_of_listing hsame),
    fun hsame => eq_of_lines hcode (lines_of_annotatedListing hsame)⟩

/-- A jump to the second instruction, which differs only in how its operands share their digits. -/
theorem listing_determines_closure :
    let code : Code := (Instruction.encodeAll [⟨.jump, [3]⟩, ⟨.closure, [1, 23]⟩]).toArray
    let other : Code := (Instruction.encodeAll [⟨.jump, [3]⟩, ⟨.closure, [12, 3]⟩]).toArray
    (∀ line ∈ code.lines, ¬line.IsError) ∧ code.listing ≠ other.listing ∧
      code.annotatedListing ≠ other.annotatedListing := by
  intro code other
  have hscan : code.scan = ⟨Instruction.place 0 _, none⟩ :=
    scan_encodeAll (by decide) List.toList_toArray
  have hcode : ∀ line ∈ code.lines, ¬line.IsError :=
    code.whole_iff.mp (congrArg Scan.fault? hscan)
  have hother : code ≠ other := by decide
  obtain ⟨hlisting, hannotated⟩ :
      (code.listing = other.listing → code = other) ∧
        (code.annotatedListing = other.annotatedListing → code = other) :=
    listing_determines_code hcode
  exact ⟨hcode, fun hsame => hother (hlisting hsame), fun hsame => hother (hannotated hsame)⟩

end Code

end Stacklang
