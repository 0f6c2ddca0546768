import Mathlib
import Stacklang.Proofs.Compile.Success

namespace Stacklang

/-- The same elements in other places, but those with equal keys follow each other as before. -/
def Rearranged {α κ : Type} (key : α → κ) (items others : List α) : Prop :=
  ∃ place : Fin items.length ≃ Fin others.length,
    (∀ position, others[place position] = items[position]) ∧
      ∀ first second, first < second → key items[first] = key items[second] →
        place first < place second

namespace Rearranged

variable {α κ : Type} {key : α → κ} {items others : List α}

theorem length_eq (rearranged : Rearranged key items others) : items.length = others.length := by
  obtain ⟨place, -, -⟩ := rearranged
  exact Fin.equiv_iff_eq.mp ⟨place⟩

variable [DecidableEq κ]

def placesOf (key : α → κ) (items : List α) (wanted : κ) : List (Fin items.length) :=
  (List.finRange items.length).filter fun position => key items[position] = wanted

theorem map_placesOf (key : α → κ) (items : List α) (wanted : κ) :
    (placesOf key items wanted).map (items[·]) = items.filter (key · = wanted) := by
  conv_rhs => rw [← List.map_getElem_finRange items, List.filter_map]
  rfl

theorem placesOf_ascending (key : α → κ) (items : List α) (wanted : κ) :
    (placesOf key items wanted).Pairwise (· < ·) :=
  (List.pairwise_lt_finRange _).filter _

theorem mem_placesOf {wanted : κ} {position : Fin items.length} :
    position ∈ placesOf key items wanted ↔ key items[position] = wanted := by
  simp [placesOf]

theorem filter_eq (rearranged : Rearranged key items others) (wanted : κ) :
    items.filter (key · = wanted) = others.filter (key · = wanted) := by
  obtain ⟨place, hplace, hkept⟩ := rearranged
  have hascending : ((placesOf key items wanted).map place).Pairwise (· < ·) := by
    refine List.pairwise_map.mpr ((placesOf_ascending key items wanted).imp_of_mem ?_)
    intro first second hfirst hsecond hless
    exact hkept first second hless
      ((mem_placesOf.mp hfirst).trans (mem_placesOf.mp hsecond).symm)
  have hmembers : ∀ position, position ∈ (placesOf key items wanted).map place ↔
      position ∈ placesOf key others wanted := by
    intro position
    obtain ⟨before, rfl⟩ := place.surjective position
    rw [List.mem_map_of_injective place.injective, mem_placesOf, mem_placesOf, hplace]
  have hplaces : (placesOf key items wanted).map place = placesOf key others wanted :=
    List.Perm.eq_of_pairwise (fun _ _ _ _ hless hmore => absurd hmore (lt_asymm hless)) hascending
      (placesOf_ascending key others wanted)
      ((List.perm_ext_iff_of_nodup (hascending.imp ne_of_lt)
        ((placesOf_ascending key others wanted).imp ne_of_lt)).mpr hmembers)
  rw [← map_placesOf, ← map_placesOf, ← hplaces, List.map_map]
  exact List.map_congr_left fun position _ => (hplace position).symm

end Rearranged

section Ascending

variable {α : Type} {key : α → String} {first second : List α}

theorem key_head_le {item other : α} {others : List α}
    (hascending : (other :: others).Pairwise (key · ≤ key ·)) (member : item ∈ other :: others) :
    key other ≤ key item := by
  rcases List.mem_cons.mp member with rfl | hbehind
  · exact String.le_refl _
  · exact (List.pairwise_cons.mp hascending).1 item hbehind

theorem mem_of_filter_eq
    (hclasses : ∀ text, first.filter (key · = text) = second.filter (key · = text)) {item : α}
    (member : item ∈ first) : item ∈ second := by
  have hclass : item ∈ first.filter (key · = key item) := List.mem_filter.mpr ⟨member, by simp⟩
  rw [hclasses] at hclass
  exact (List.mem_filter.mp hclass).1

theorem eq_of_ascending (hfirst : first.Pairwise (key · ≤ key ·))
    (hsecond : second.Pairwise (key · ≤ key ·))
    (hclasses : ∀ text, first.filter (key · = text) = second.filter (key · = text)) :
    first = second := by
  induction first generalizing second with
  | nil =>
      cases second with
      | nil => rfl
      | cons other others => simpa using hclasses (key other)
  | cons item items ih =>
      cases second with
      | nil => simpa using hclasses (key item)
      | cons other others =>
          -- Each list has the element that the other one begins with, and begins with its least key.
          have hkey : key item = key other := String.le_antisymm
            (key_head_le hfirst (mem_of_filter_eq (fun text => (hclasses text).symm)
              List.mem_cons_self))
            (key_head_le hsecond (mem_of_filter_eq hclasses List.mem_cons_self))
          have hhead := hclasses (key item)
          rw [List.filter_cons_of_pos (by simp), List.filter_cons_of_pos (by simp [hkey])] at hhead
          obtain ⟨rfl, -⟩ := List.cons.inj hhead
          refine congrArg (item :: ·) (ih hfirst.of_cons hsecond.of_cons fun text => ?_)
          have hclass := hclasses text
          by_cases htext : key item = text
          · rw [List.filter_cons_of_pos (by simpa using htext),
              List.filter_cons_of_pos (by simpa using htext)] at hclass
            exact (List.cons.inj hclass).2
          · rwa [List.filter_cons_of_neg (by simpa using htext),
              List.filter_cons_of_neg (by simpa using htext)] at hclass

end Ascending

namespace Expr

theorem keyOrder_rearranged {pairs others : List (Expr × Expr)}
    (rearranged : Rearranged (fun pair => pair.1.display) pairs others) :
    keyOrder pairs = keyOrder others := by
  refine eq_of_ascending (keyOrder_ascending pairs) (keyOrder_ascending others) fun text => ?_
  rw [filter_keyOrder, filter_keyOrder]
  exact rearranged.filter_eq text

end Expr

namespace Compile

/-- Two ways to write a hash literal that differ in the order of pairs with different key texts only
are compiled to the same, from any state: the result is the same, also if it is an error, and so is
all that the compilation leaves behind. -/
theorem hash_rearranged {pairs others : List (Expr × Expr)}
    (rearranged : Rearranged (fun pair => pair.1.display) pairs others) (compiler : Compiler) :
    (Expr.hash pairs).compile.run compiler = (Expr.hash others).compile.run compiler := by
  rw [Expr.compile, Expr.compile, compilePairs_eq, compilePairs_eq, Expr.inKeyOrder_map,
    Expr.inKeyOrder_map, Expr.keyOrder_rearranged rearranged, rearranged.length_eq]

/-- A key is written twice, a function is compiled before the error, and the error is the same. -/
theorem hash_rearranged_failing :
    let twice : Expr := .function none ["x"] [.expr (.binary .mul (.integer 2) (.ident "x"))]
    let pairs : List (Expr × Expr) :=
      [(.string "b", .integer 1), (.string "c", .ident "missing"), (.string "b", twice)]
    let others : List (Expr × Expr) :=
      [(.string "c", .ident "missing"), (.string "b", .integer 1), (.string "b", twice)]
    Rearranged (fun pair => pair.1.display) pairs others ∧
      ((Expr.hash pairs).compile.run .fresh).1 = .error (.unresolved "missing") ∧
      (Expr.hash pairs).compile.run .fresh = (Expr.hash others).compile.run .fresh := by
  intro twice pairs others
  have rearranged : Rearranged (fun pair => pair.1.display) pairs others := by
    let place : Equiv.Perm (Fin 3) := Equiv.swap 0 1
    refine ⟨place, fun position => ?_, by decide +kernel⟩
    match position with
    | 0 | 1 | 2 => rfl
  exact ⟨rearranged, by cbv, hash_rearranged rearranged _⟩

end Compile

end Stacklang
