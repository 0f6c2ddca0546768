import Mathlib.Data.List.Infix
import Stacklang.Text.Pieces

namespace Stacklang.Text

def Leftmost (part before after : List Char) : Prop :=
  ∀ earlier later, before ++ part ++ after = earlier ++ part ++ later →
    before.length ≤ earlier.length

/-- The pieces of a text that is cut at the leftmost occurrence of a part, and behind it again. -/
inductive Cut (part : List Char) : List Char → List (List Char) → Prop where
  | whole {text : List Char} (habsent : ¬part <:+: text) : Cut part text [text]
  | piece {before after : List Char} {pieces : List (List Char)}
      (hleftmost : Leftmost part before after) (hrest : Cut part after pieces) :
      Cut part (before ++ part ++ after) (before :: pieces)

/-- The text that comes of exchanging the leftmost occurrence of a part, and those behind it again. -/
inductive Exchanged (part fresh : List Char) : List Char → List Char → Prop where
  | whole {text : List Char} (habsent : ¬part <:+: text) : Exchanged part fresh text text
  | piece {before after later : List Char} (hleftmost : Leftmost part before after)
      (hrest : Exchanged part fresh after later) :
      Exchanged part fresh (before ++ part ++ after) (before ++ fresh ++ later)

variable {part text : List Char} {pieces : List (List Char)}

namespace Cut

theorem ne_nil (cut : Cut part text pieces) : pieces ≠ [] := by
  cases cut <;> simp

theorem intercalate_eq (cut : Cut part text pieces) : part.intercalate pieces = text := by
  induction cut with
  | whole => simp
  | piece _ hrest ih =>
      rw [List.intercalate_cons_of_ne_nil hrest.ne_nil, ih]

theorem exchanged (cut : Cut part text pieces) (fresh : List Char) :
    Exchanged part fresh text (fresh.intercalate pieces) := by
  induction cut with
  | whole habsent =>
      rw [List.intercalate_singleton]
      exact .whole habsent
  | piece hleftmost hrest ih =>
      rw [List.intercalate_cons_of_ne_nil hrest.ne_nil]
      exact .piece hleftmost ih

theorem not_infix (cut : Cut part text pieces) (hpart : part ≠ []) :
    ∀ piece ∈ pieces, ¬part <:+: piece := by
  induction cut with
  | whole habsent => simpa using habsent
  | @piece before after _ hleftmost _ ih =>
      refine List.forall_mem_cons.mpr ⟨?_, ih⟩
      rintro ⟨earlier, later, rfl⟩
      have hlength := hleftmost earlier (later ++ part ++ after) (by simp)
      have hpositive := List.length_pos_iff.mpr hpart
      simp only [List.length_append] at hlength
      omega

theorem two_le_length_iff (cut : Cut part text pieces) : 2 ≤ pieces.length ↔ part <:+: text := by
  cases cut with
  | whole habsent => simp [habsent]
  | @piece before after pieces _ hrest =>
      have hpositive := List.length_pos_iff.mpr hrest.ne_nil
      refine ⟨fun _ => ⟨before, after, rfl⟩, fun _ => ?_⟩
      rw [List.length_cons]
      omega

end Cut

theorem occursIn_iff : occursIn part text = true ↔ part <:+: text := by
  induction text with
  | nil => simp [occursIn]
  | cons c rest ih =>
      rw [occursIn, Bool.or_eq_true, List.isPrefixOf_iff_prefix, ih, List.infix_cons_iff]

/-- The pieces are those of the text behind what the current piece holds already, where no occurrence
of the part begins. -/
theorem cut_piecesAt (hpart : part ≠ []) (piece text : List Char)
    (hbegun : ∀ earlier later, piece.reverse ++ text = earlier ++ part ++ later →
      piece.length ≤ earlier.length) :
    Cut part (piece.reverse ++ text) (piecesAt part piece text) := by
  have hpositive := List.length_pos_iff.mpr hpart
  fun_induction piecesAt part piece text with
  | case1 piece =>
      rw [List.append_nil]
      refine .whole ?_
      rintro ⟨earlier, later, hoccurs⟩
      have hlength := hbegun earlier later (by simpa using hoccurs.symm)
      have htotal := congrArg List.length hoccurs
      simp only [List.length_append, List.length_reverse] at htotal
      omega
  | case2 piece c rest hhere ih =>
      obtain ⟨after, hafter⟩ := List.isPrefixOf_iff_prefix.mp hhere
      have hbehind : rest.drop (part.length - 1) = after := by
        have hdrop := congrArg (List.drop part.length) hafter
        rwa [List.drop_left, ← Nat.sub_add_cancel hpositive, List.drop_succ_cons, eq_comm] at hdrop
      rw [hbehind] at ih ⊢
      rw [← hafter, ← List.append_assoc]
      refine .piece ?_ (ih fun _ _ _ => Nat.zero_le _)
      intro earlier later hoccurs
      rw [List.length_reverse]
      exact hbegun earlier later (by rw [← hafter, ← List.append_assoc, hoccurs])
  | case3 piece c rest hnotHere ih =>
      rw [List.reverse_cons, List.append_assoc, List.singleton_append] at ih
      refine ih fun earlier later hoccurs => ?_
      have hle := hbegun earlier later hoccurs
      refine Nat.lt_of_le_of_ne hle fun hsame => hnotHere ?_
      obtain ⟨-, hrest⟩ := List.append_inj (hoccurs.trans (List.append_assoc _ _ _))
        (by rw [List.length_reverse, hsame])
      exact List.isPrefixOf_iff_prefix.mpr ⟨later, hrest.symm⟩

theorem cut_split {part : String} (hpart : part ≠ "") (text : String) :
    Cut part.toList text.toList ((split text part).map String.toList) := by
  have hchars : part.toList ≠ [] := by simpa using hpart
  have hempty : part.isEmpty = false := by simpa using hpart
  rw [split, hempty, if_neg Bool.false_ne_true, List.map_map]
  have hcut := cut_piecesAt hchars [] text.toList fun _ _ _ => Nat.zero_le _
  simpa [Function.comp_def] using hcut

theorem split_empty (text : String) : split text "" = text.toList.map String.singleton := rfl

theorem intercalate_chars (chars : List Char) :
    List.intercalate [] (chars.map fun c => [c]) = chars := by
  induction chars with
  | nil => rfl
  | cons c rest ih =>
      cases rest with
      | nil => rfl
      | cons next rest => simpa [List.intercalate_cons_cons] using ih

/-- The pieces with the separator between them are the text, also if the separator is empty. -/
theorem intercalate_split (text separator : String) :
    separator.intercalate (split text separator) = text := by
  rw [← String.toList_inj, String.toList_intercalate]
  by_cases hempty : separator = ""
  · subst hempty
    rw [split_empty, List.map_map]
    simpa [Function.comp_def] using intercalate_chars text.toList
  · exact (cut_split hempty text).intercalate_eq

theorem contains_iff {text part : String} : contains text part = true ↔ part.toList <:+: text.toList :=
  occursIn_iff

theorem replace_eq_intercalate {part : String} (hpart : part ≠ "") (text fresh : String) :
    replace text part fresh = fresh.intercalate (split text part) := by
  have hempty : part.isEmpty = false := by simpa using hpart
  rw [← String.toList_inj, String.toList_intercalate, replace, split, hempty,
    if_neg Bool.false_ne_true, if_neg Bool.false_ne_true, String.toList_ofList, List.map_map]
  simp [Function.comp_def]

/-- What `replace` gives is the text with every occurrence exchanged, leftmost first. -/
theorem exchanged_replace {part : String} (hpart : part ≠ "") (text fresh : String) :
    Exchanged part.toList fresh.toList text.toList (replace text part fresh).toList := by
  rw [replace_eq_intercalate hpart, String.toList_intercalate]
  exact (cut_split hpart text).exchanged fresh.toList

end Stacklang.Text
