import Stacklang.Proofs.Builtin.Answers
import Stacklang.Proofs.Text.Pieces

namespace Stacklang.Builtin

open Value

variable {Body : Type} [Arity Body]

/-- Joining what `split` gives with its separator brings the text back; an empty separator splits into
characters. Any other one is cut out leftmost first and without overlap: it is in none of the pieces,
`replace` puts the new text between them, and `contains` says whether there are two of them at
least. -/
theorem texts_agree (text separator fresh : String) (ref other another : Ref) :
    Answers split [(.string ref text : Value Body), .string other separator] fun parts =>
      ∃ made items pieces, parts = .array made items ∧ Spell items pieces ∧
        Answers join [parts, .string other separator] (IsText text) ∧
        (separator = "" → pieces = text.toList.map String.singleton) ∧
        (separator ≠ "" →
          Text.Cut separator.toList text.toList (pieces.map String.toList) ∧
          (∀ piece ∈ pieces, ¬separator.toList <:+: piece.toList) ∧
          (∃ replaced : String,
            Text.Exchanged separator.toList fresh.toList text.toList replaced.toList ∧
            Answers replace
              [(.string ref text : Value Body), .string other separator, .string another fresh]
              (IsText replaced) ∧
            Answers join [parts, .string another fresh] (IsText replaced)) ∧
          Answers contains [(.string ref text : Value Body), .string other separator]
            (· = .boolean (2 ≤ items.length))) := by
  intro world
  obtain ⟨parts, later, hrun, made, items, rfl, spell⟩ :=
    @answers_split Body _ ref other text separator world
  refine ⟨_, later, hrun, made, items, _, rfl, spell, ?_, ?_, fun hseparator => ?_⟩
  · have hjoined := answers_join made other spell separator
    rwa [Text.intercalate_split] at hjoined
  · rintro rfl
    exact Text.split_empty text
  · have hcut := Text.cut_split hseparator text
    have hchars : separator.toList ≠ [] := by simpa using hseparator
    refine ⟨hcut, fun piece member => ?_, ?_, ?_⟩
    · exact hcut.not_infix hchars piece.toList (List.mem_map_of_mem member)
    · refine ⟨_, Text.exchanged_replace hseparator text fresh,
        answers_replace ref other another text separator fresh, ?_⟩
      rw [Text.replace_eq_intercalate hseparator]
      exact answers_join made another spell fresh
    · have hlength : items.length = (Text.split text separator).length := spell.length_eq
      have hcount : Text.contains text separator = decide (2 ≤ items.length) := by
        rw [Bool.eq_iff_iff, decide_eq_true_iff, Text.contains_iff, ← hcut.two_le_length_iff,
          List.length_map, hlength]
      rw [← hcount]
      exact answers_contains_string ref other text separator

/-- A separator that overlaps itself, at the beginning and at the end of the text. -/
theorem texts_agree_overlapping :
    ("aa" : String) ≠ "" ∧
      Answers split [(.string (.made 0) "aaabaa" : Value), .string (.made 1) "aa"] fun parts =>
        Answers join [parts, .string (.made 1) "aa"] (IsText "aaabaa") ∧
          Answers contains [(.string (.made 0) "aaabaa" : Value), .string (.made 1) "aa"]
            (· = .boolean true) := by
  refine ⟨by decide, fun world => ?_⟩
  obtain ⟨parts, later, hrun, made, items, pieces, rfl, spell, hjoin, -, hagree⟩ :=
    @texts_agree Template _ "aaabaa" "aa" "" (.made 0) (.made 1) (.made 2) world
  obtain ⟨hcut, -, -, hcontains⟩ := hagree (by decide)
  have htwo : 2 ≤ items.length := by
    have hlength := hcut.two_le_length_iff.mpr (by decide)
    rwa [List.length_map, ← List.Forall₂.length_eq spell] at hlength
  rw [decide_eq_true htwo] at hcontains
  exact ⟨_, later, hrun, hjoin, hcontains⟩

end Stacklang.Builtin
