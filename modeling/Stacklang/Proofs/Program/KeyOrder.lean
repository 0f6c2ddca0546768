import Stacklang.Program

namespace Stacklang.Expr

section InKeyOrder

variable {α : Type}

def notAfter (left right : String × α) : Bool :=
  !(right.1 < left.1)

theorem notAfter_iff {left right : String × α} : notAfter left right = true ↔ left.1 ≤ right.1 := by
  rw [notAfter, Bool.not_eq_true', decide_eq_false_iff_not]
  exact String.not_lt

theorem notAfter_trans (first second third : String × α) (hleft : notAfter first second = true)
    (hright : notAfter second third = true) : notAfter first third = true :=
  notAfter_iff.mpr (String.le_trans (notAfter_iff.mp hleft) (notAfter_iff.mp hright))

theorem notAfter_total (left right : String × α) :
    (notAfter left right || notAfter right left) = true := by
  rw [Bool.or_eq_true, notAfter_iff, notAfter_iff]
  exact String.le_total _ _

theorem inKeyOrder_ascending (pairs : List (String × α)) :
    (inKeyOrder pairs).Pairwise (·.1 ≤ ·.1) :=
  (List.pairwise_mergeSort notAfter_trans notAfter_total pairs).imp notAfter_iff.mp

/-- Pairs with the same key text stay in the order in which they were written. -/
theorem filter_inKeyOrder (pairs : List (String × α)) (text : String) :
    (inKeyOrder pairs).filter (·.1 = text) = pairs.filter (·.1 = text) := by
  have hperm : (inKeyOrder pairs).Perm pairs := List.mergeSort_perm _ _
  have hclass : (pairs.filter (·.1 = text)).Pairwise (notAfter · · = true) := by
    refine List.pairwise_of_forall_mem_list fun left hleft right hright => notAfter_iff.mpr ?_
    have hleftText : left.1 = text := by simpa using (List.mem_filter.mp hleft).2
    have hrightText : right.1 = text := by simpa using (List.mem_filter.mp hright).2
    exact (hleftText.trans hrightText.symm) ▸ String.le_refl left.1
  have hkept : (pairs.filter (·.1 = text)).Sublist (inKeyOrder pairs) :=
    List.sublist_mergeSort notAfter_trans notAfter_total hclass List.filter_sublist
  have hinside := hkept.filter (·.1 = text)
  rw [List.filter_filter] at hinside
  simp only [Bool.and_self] at hinside
  exact (hinside.eq_of_length (hperm.filter _).length_eq.symm).symm

end InKeyOrder

/-- The pairs of a hash literal in the order in which they are evaluated. -/
def keyOrder (pairs : List (Expr × Expr)) : List (Expr × Expr) :=
  pairs.mergeSort fun left right => !(right.1.display < left.1.display)

theorem length_keyOrder (pairs : List (Expr × Expr)) : (keyOrder pairs).length = pairs.length :=
  List.length_mergeSort _

theorem inKeyOrder_map {α : Type} (make : Expr × Expr → α) (pairs : List (Expr × Expr)) :
    inKeyOrder (pairs.map fun pair => (pair.1.display, make pair)) =
      (keyOrder pairs).map fun pair => (pair.1.display, make pair) := by
  rw [inKeyOrder, keyOrder, List.map_mergeSort]
  intro left _ right _
  rfl

theorem keyOrder_ascending (pairs : List (Expr × Expr)) :
    (keyOrder pairs).Pairwise (·.1.display ≤ ·.1.display) := by
  have hascending := inKeyOrder_ascending (pairs.map fun pair => (pair.1.display, pair))
  rw [inKeyOrder_map (fun pair => pair), List.pairwise_map] at hascending
  exact hascending

theorem filter_keyOrder (pairs : List (Expr × Expr)) (text : String) :
    (keyOrder pairs).filter (·.1.display = text) = pairs.filter (·.1.display = text) := by
  have hclass := filter_inKeyOrder (pairs.map fun pair => (pair.1.display, pair)) text
  rw [inKeyOrder_map (fun pair => pair), List.filter_map, List.filter_map] at hclass
  exact (List.map_inj_right fun _ _ hsame => (Prod.ext_iff.mp hsame).2).mp hclass

end Stacklang.Expr
