import Mathlib.Data.List.Basic
import Stacklang.Value.HashKey

namespace Stacklang

namespace HashKey

/-- The order of keys: integers, then booleans, then strings, which go by code point. -/
inductive Before : HashKey → HashKey → Prop where
  | integers {left right : Int64} (hless : left < right) : Before (.integer left) (.integer right)
  | integer_boolean (left : Int64) (right : Bool) : Before (.integer left) (.boolean right)
  | integer_string (left : Int64) (right : String) : Before (.integer left) (.string right)
  | booleans : Before (.boolean false) (.boolean true)
  | boolean_string (left : Bool) (right : String) : Before (.boolean left) (.string right)
  | strings {left right : String} (hless : left.toList < right.toList) :
      Before (.string left) (.string right)

theorem Before.irrefl {key : HashKey} : ¬key.Before key := by
  intro before
  cases before with
  | integers hless => exact Int64.lt_irrefl hless
  | strings hless => exact List.lt_irrefl _ hless

theorem Before.trans {first second third : HashKey} (hleft : first.Before second)
    (hright : second.Before third) : first.Before third := by
  cases hleft with
  | integers hless =>
      cases hright with
      | integers hmore => exact .integers (Int64.lt_trans hless hmore)
      | integer_boolean => exact .integer_boolean _ _
      | integer_string => exact .integer_string _ _
  | integer_boolean =>
      cases hright with
      | booleans => exact .integer_boolean _ _
      | boolean_string => exact .integer_string _ _
  | integer_string =>
      cases hright with
      | strings => exact .integer_string _ _
  | booleans =>
      cases hright with
      | boolean_string => exact .boolean_string _ _
  | boolean_string =>
      cases hright with
      | strings => exact .boolean_string _ _
  | strings hless =>
      cases hright with
      | strings hmore => exact .strings (List.lt_trans hless hmore)

inductive Compared (left right : HashKey) : Ordering → Prop where
  | lt (hbefore : left.Before right) : Compared left right .lt
  | eq (hsame : left = right) : Compared left right .eq
  | gt (hbehind : right.Before left) : Compared left right .gt

theorem compared_integers (left right : Int64) :
    Compared (.integer left) (.integer right) (compareOfLessAndEq left right) := by
  rw [compareOfLessAndEq]
  split
  next hless => exact .lt (.integers hless)
  next hnotLess =>
    split
    next hsame => exact .eq (congrArg _ hsame)
    next hdifferent =>
      have hge := Int64.not_lt.mp hnotLess
      refine .gt (.integers (Classical.byContradiction fun hnotMore => hdifferent ?_))
      exact Int64.le_antisymm (Int64.not_lt.mp hnotMore) hge

theorem compared_strings (left right : String) :
    Compared (.string left) (.string right) (compareOfLessAndEq left right) := by
  rw [compareOfLessAndEq]
  split
  next hless => exact .lt (.strings (String.lt_iff.mp hless))
  next hnotLess =>
    split
    next hsame => exact .eq (congrArg _ hsame)
    next hdifferent =>
      have hge := String.not_lt.mp hnotLess
      refine .gt (.strings (String.lt_iff.mp
        (Classical.byContradiction fun hnotMore => hdifferent ?_)))
      exact String.le_antisymm (String.not_lt.mp hnotMore) hge

theorem compared_order (left right : HashKey) : Compared left right (left.order right) := by
  cases left with
  | integer left =>
      cases right with
      | integer right => exact compared_integers left right
      | boolean right => exact .lt (.integer_boolean left right)
      | string right => exact .lt (.integer_string left right)
  | boolean left =>
      cases right with
      | integer right => exact .gt (.integer_boolean right left)
      | boolean right =>
          match left, right with
          | false, false | true, true => exact .eq rfl
          | false, true => exact .lt .booleans
          | true, false => exact .gt .booleans
      | string right => exact .lt (.boolean_string left right)
  | string left =>
      cases right with
      | integer right => exact .gt (.integer_string right left)
      | boolean right => exact .gt (.boolean_string right left)
      | string right => exact compared_strings left right

end HashKey

namespace Entries

variable {α : Type} {entries left right : Entries α}

def Ascending (entries : Entries α) : Prop :=
  entries.Pairwise fun entry later => entry.1.Before later.1

@[simp] theorem find?_nil (key : HashKey) : find? key ([] : Entries α) = none := rfl

theorem find?_cons (key other : HashKey) (value : α) (rest : Entries α) :
    find? key ((other, value) :: rest) = if key = other then some value else find? key rest := rfl

theorem mem_of_find? {key : HashKey} {value : α} (hfound : find? key entries = some value) :
    (key, value) ∈ entries := by
  induction entries with
  | nil => cases hfound
  | cons entry rest ih =>
      rw [find?_cons] at hfound
      split at hfound
      next hsame =>
        cases hsame
        cases hfound
        exact List.mem_cons_self
      next => exact List.mem_cons_of_mem _ (ih hfound)

theorem find?_insert (key other : HashKey) (value : α) (entries : Entries α) :
    find? other (insert key value entries) =
      if other = key then some value else find? other entries := by
  induction entries with
  | nil => rfl
  | cons entry rest ih =>
      obtain ⟨first, previous⟩ := entry
      have hcompared := HashKey.compared_order key first
      rw [insert]
      generalize key.order first = outcome at hcompared ⊢
      cases hcompared with
      | lt => rfl
      | eq hsame =>
          subst hsame
          rw [find?_cons, find?_cons]
          split <;> rfl
      | gt hbehind =>
          rw [find?_cons, find?_cons, ih]
          split
          next hfirst =>
            subst hfirst
            rw [if_neg (fun hsame => HashKey.Before.irrefl (hsame ▸ hbehind))]
          next => rfl

theorem mem_insert {key : HashKey} {value : α} {entry : HashKey × α}
    (member : entry ∈ insert key value entries) : entry = (key, value) ∨ entry ∈ entries := by
  induction entries with
  | nil => exact .inl (List.mem_singleton.mp member)
  | cons first rest ih =>
      rw [insert] at member
      cases horder : key.order first.1 with
      | lt =>
          rw [horder] at member
          exact List.mem_cons.mp member
      | eq =>
          rw [horder] at member
          exact (List.mem_cons.mp member).imp_right (List.mem_cons_of_mem _)
      | gt =>
          rw [horder] at member
          rcases List.mem_cons.mp member with rfl | hbehind
          · exact .inr List.mem_cons_self
          · exact (ih hbehind).imp_right (List.mem_cons_of_mem _)

theorem ascending_cons {entry : HashKey × α} {rest : Entries α} :
    Ascending (entry :: rest) ↔ (∀ later ∈ rest, entry.1.Before later.1) ∧ Ascending rest :=
  List.pairwise_cons

theorem Ascending.insert (ascending : Ascending entries) (key : HashKey) (value : α) :
    Ascending (insert key value entries) := by
  induction entries with
  | nil => exact List.pairwise_singleton _ _
  | cons entry rest ih =>
      obtain ⟨first, previous⟩ := entry
      obtain ⟨hfirst, hrest⟩ := ascending_cons.mp ascending
      have hcompared := HashKey.compared_order key first
      rw [Entries.insert]
      generalize key.order first = outcome at hcompared ⊢
      cases hcompared with
      | lt hbefore =>
          refine ascending_cons.mpr ⟨?_, ascending⟩
          exact List.forall_mem_cons.mpr
            ⟨hbefore, fun later member => hbefore.trans (hfirst later member)⟩
      | eq hsame =>
          subst hsame
          exact ascending_cons.mpr ⟨hfirst, hrest⟩
      | gt hbehind =>
          refine ascending_cons.mpr ⟨fun later member => ?_, ih hrest⟩
          rcases mem_insert member with rfl | hlater
          · exact hbehind
          · exact hfirst later hlater

/-- In ascending order there is one entry with a key at most, and it is the one that is found. -/
theorem Ascending.find?_eq_some_iff (ascending : Ascending entries) {key : HashKey} {value : α} :
    find? key entries = some value ↔ (key, value) ∈ entries := by
  refine ⟨mem_of_find?, fun member => ?_⟩
  induction entries with
  | nil => cases member
  | cons entry rest ih =>
      obtain ⟨first, previous⟩ := entry
      obtain ⟨hfirst, hrest⟩ := ascending_cons.mp ascending
      rw [find?_cons]
      rcases List.mem_cons.mp member with heq | hbehind
      · cases heq
        exact if_pos rfl
      · rw [if_neg fun hsame => HashKey.Before.irrefl (hsame ▸ hfirst _ hbehind)]
        exact ih hrest hbehind

theorem Ascending.nodup (ascending : Ascending entries) : entries.Nodup := by
  refine List.Pairwise.imp (fun hbefore heq => ?_) ascending
  subst heq
  exact HashKey.Before.irrefl hbefore

theorem Ascending.ext (hleft : Ascending left) (hright : Ascending right)
    (hfound : ∀ key, find? key left = find? key right) : left = right := by
  have hmembers : ∀ entry, entry ∈ left ↔ entry ∈ right := by
    rintro ⟨key, value⟩
    rw [← hleft.find?_eq_some_iff, ← hright.find?_eq_some_iff, hfound]
  refine List.Perm.eq_of_pairwise ?_ hleft hright
    ((List.perm_ext_iff_of_nodup hleft.nodup hright.nodup).mpr hmembers)
  intro entry later _ _ hbefore hbehind
  exact absurd (hbefore.trans hbehind) HashKey.Before.irrefl

theorem union_cons (left : Entries α) (key : HashKey) (value : α) (right : Entries α) :
    union left ((key, value) :: right) = union (insert key value left) right := rfl

theorem Ascending.union (hleft : Ascending left) (right : Entries α) :
    Ascending (union left right) := by
  induction right generalizing left with
  | nil => exact hleft
  | cons entry rest ih => exact ih (hleft.insert entry.1 entry.2)

theorem mem_union {entry : HashKey × α} (member : entry ∈ union left right) :
    entry ∈ left ∨ entry ∈ right := by
  induction right generalizing left with
  | nil => exact .inl member
  | cons first rest ih =>
      rcases ih member with hinserted | hrest
      · rcases mem_insert hinserted with rfl | hleft
        · exact .inr List.mem_cons_self
        · exact .inl hleft
      · exact .inr (List.mem_cons_of_mem _ hrest)

theorem Ascending.find?_union (hright : Ascending right) (left : Entries α) (key : HashKey) :
    find? key (Entries.union left right) = (find? key right).or (find? key left) := by
  induction right generalizing left with
  | nil => rfl
  | cons entry rest ih =>
      obtain ⟨first, value⟩ := entry
      obtain ⟨hfirst, hrest⟩ := ascending_cons.mp hright
      rw [union_cons, ih hrest, find?_insert, find?_cons]
      split
      next hsame =>
        subst hsame
        have hnone : find? key rest = none := by
          refine Option.eq_none_iff_forall_ne_some.mpr fun other hother => ?_
          exact HashKey.Before.irrefl (hfirst (key, other) (hrest.find?_eq_some_iff.mp hother))
        rw [hnone]
        rfl
      next => rfl

theorem Ascending.nil_union (hright : Ascending right) : Entries.union [] right = right := by
  refine (Ascending.union .nil right).ext hright fun key => ?_
  rw [hright.find?_union, find?_nil, Option.or_none]

theorem Ascending.union_assoc {first second third : Entries α} (hfirst : Ascending first)
    (hsecond : Ascending second) (hthird : Ascending third) :
    Entries.union (Entries.union first second) third =
      Entries.union first (Entries.union second third) := by
  refine ((hfirst.union second).union third).ext (hfirst.union _) fun key => ?_
  rw [hthird.find?_union, hsecond.find?_union, (hsecond.union third).find?_union,
    hthird.find?_union, Option.or_assoc]

end Entries

end Stacklang
