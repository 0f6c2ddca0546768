import Stacklang.Proofs.Value.Entries
import Stacklang.Proofs.Value.Equality

namespace Stacklang

namespace Value

variable {Body : Type}

def ref? : Value Body → Option Ref
  | string ref _ | array ref _ | hash ref _ | function ref _ | closure ref _ _ => some ref
  | _ => none

def parts : Value Body → List (Value Body)
  | array _ items => items
  | hash _ entries => entries.map (·.2.1) ++ entries.map (·.2.2)
  | closure _ _ captured => captured
  | _ => []

theorem ref?_eq_of_identity {left right : Value Body} (hidentity : left.identity = right.identity) :
    left.ref? = right.ref? := by
  cases left <;> cases right <;> simp_all [identity, ref?]

theorem eq_of_identity {left right : Value Body} (hidentity : left.identity = right.identity)
    (hplain : left.ref? = none) : left = right := by
  cases left <;> cases right <;> simp_all [identity, ref?]

theorem parts_of_plain {value : Value Body} (hplain : value.ref? = none) : value.parts = [] := by
  cases value with
  | integer | boolean | null | builtin => rfl
  | string | array | hash | function | closure => cases hplain

variable {heap later : Ref → Option (Value Body)} {value left right : Value Body}

def StoredIn (heap : Ref → Option (Value Body)) (value : Value Body) : Prop :=
  ∀ ref, value.ref? = some ref → heap ref = some value

theorem StoredIn.eq_of_identical (hleft : left.StoredIn heap) (hright : right.StoredIn heap)
    (hidentical : left.identical right = true) : left = right := by
  have hidentity := identical_iff.mp hidentical
  cases href : left.ref? with
  | none => exact eq_of_identity hidentity href
  | some ref =>
      have hsame := hleft ref href
      rw [hright ref ((ref?_eq_of_identity hidentity).symm.trans href)] at hsame
      exact (Option.some.inj hsame).symm

theorem StoredIn.same_of_identical (hleft : left.StoredIn heap) (hright : right.StoredIn heap)
    (hidentical : left.identical right = true) : left.same right = true := by
  rw [hleft.eq_of_identical hright hidentical]
  exact same_equivalence.refl right

/-- The value and everything that it is made of are in the heap. -/
inductive Lives (heap : Ref → Option (Value Body)) : Value Body → Prop where
  | intro {value : Value Body} (stored : value.StoredIn heap)
      (hparts : ∀ part ∈ value.parts, Lives heap part) : Lives heap value

theorem Lives.stored (lives : value.Lives heap) : value.StoredIn heap := by
  cases lives with
  | intro stored => exact stored

theorem Lives.part {part : Value Body} (lives : value.Lives heap) (member : part ∈ value.parts) :
    part.Lives heap := by
  cases lives with
  | intro _ hparts => exact hparts part member

theorem Lives.mono (lives : value.Lives heap)
    (hgrows : ∀ ref stored, heap ref = some stored → later ref = some stored) :
    value.Lives later := by
  induction lives with
  | intro stored _ ih => exact .intro (fun ref href => hgrows ref _ (stored ref href)) ih

theorem lives_of_plain (hplain : value.ref? = none) : value.Lives heap := by
  refine .intro (fun ref href => ?_) ?_
  · rw [hplain] at href
    cases href
  · rw [parts_of_plain hplain]
    exact fun part member => absurd member List.not_mem_nil

theorem lives_null : (null : Value Body).Lives heap :=
  lives_of_plain rfl

theorem Lives.getD {items : List (Value Body)} (lives : ∀ item ∈ items, item.Lives heap)
    (position : Nat) : (items.getD position .null).Lives heap := by
  rw [List.getD_eq_getElem?_getD]
  cases hitem : items[position]? with
  | none => exact lives_null
  | some item => exact lives item (List.mem_of_getElem? hitem)

theorem mem_parts_hash {ref : Ref} {entries : List (HashKey × Value Body × Value Body)} :
    value ∈ (hash ref entries).parts ↔ ∃ entry ∈ entries, entry.2.1 = value ∨ entry.2.2 = value := by
  rw [parts, List.mem_append, List.mem_map, List.mem_map]
  constructor
  · rintro (⟨entry, member, hvalue⟩ | ⟨entry, member, hvalue⟩)
    · exact ⟨entry, member, .inl hvalue⟩
    · exact ⟨entry, member, .inr hvalue⟩
  · rintro ⟨entry, member, hvalue | hvalue⟩
    · exact .inl ⟨entry, member, hvalue⟩
    · exact .inr ⟨entry, member, hvalue⟩

theorem Lives.entry {ref : Ref} {entries : List (HashKey × Value Body × Value Body)}
    {entry : HashKey × Value Body × Value Body} (lives : (hash ref entries).Lives heap)
    (member : entry ∈ entries) : entry.2.1.Lives heap ∧ entry.2.2.Lives heap :=
  ⟨lives.part (mem_parts_hash.mpr ⟨entry, member, .inl rfl⟩),
    lives.part (mem_parts_hash.mpr ⟨entry, member, .inr rfl⟩)⟩

end Value

/-- The constants of all pools, and the values that programs have made, first ones first. -/
structure Heap where
  pools : Nat → Array Constant
  made : List Value

namespace Heap

variable {heap : Heap} {value : Value}

def find? (heap : Heap) : Ref → Option Value
  | .pooled pool index => (heap.pools pool)[index]?.map (·.toValue pool index)
  | .made serial => heap.made[serial]?

def add (heap : Heap) (values : List Value) : Heap :=
  { heap with made := heap.made ++ values }

@[simp] theorem length_add (values : List Value) :
    (heap.add values).made.length = heap.made.length + values.length :=
  List.length_append

@[simp] theorem add_nil : heap.add [] = heap := by
  simp [add]

theorem add_add (values more : List Value) :
    (heap.add values).add more = heap.add (values ++ more) := by
  simp [add]

theorem find?_add {ref : Ref} (hfound : heap.find? ref = some value) (values : List Value) :
    (heap.add values).find? ref = some value := by
  cases ref with
  | pooled pool index => exact hfound
  | made serial =>
      obtain ⟨hless, -⟩ := List.getElem?_eq_some_iff.mp hfound
      exact (List.getElem?_append_left hless).trans hfound

def withPool (heap : Heap) (pool : Nat) (constants : Array Constant) : Heap :=
  { heap with pools := fun other => if other = pool then constants else heap.pools other }

@[simp] theorem withPool_same (pool : Nat) (constants : Array Constant) :
    (heap.withPool pool constants).pools pool = constants :=
  if_pos rfl

theorem withPool_other {pool other : Nat} (hother : other ≠ pool) (constants : Array Constant) :
    (heap.withPool pool constants).pools other = heap.pools other :=
  if_neg hother

theorem find?_withPool {pool : Nat} {constants : Array Constant}
    (hgrows : ∀ (index : Nat) (constant : Constant),
      (heap.pools pool)[index]? = some constant → constants[index]? = some constant)
    {ref : Ref} (hfound : heap.find? ref = some value) :
    (heap.withPool pool constants).find? ref = some value := by
  cases ref with
  | pooled other index =>
      obtain ⟨constant, hconstant, rfl⟩ := Option.map_eq_some_iff.mp hfound
      refine Option.map_eq_some_iff.mpr ⟨constant, ?_, rfl⟩
      by_cases hsame : other = pool
      · subst hsame
        rw [withPool_same]
        exact hgrows index constant hconstant
      · rw [withPool_other hsame]
        exact hconstant
  | made serial => exact hfound

end Heap

namespace Value

variable {heap : Heap} {value : Value}

theorem Lives.add (lives : value.Lives heap.find?) (values : List Value) :
    value.Lives (heap.add values).find? :=
  lives.mono fun _ _ hfound => heap.find?_add hfound values

theorem Lives.made (href : value.ref? = some (.made heap.made.length))
    (hparts : ∀ part ∈ value.parts, part.Lives heap.find?) :
    value.Lives (heap.add [value]).find? := by
  refine .intro (fun ref hsome => ?_) fun part member => (hparts part member).add _
  rw [href] at hsome
  cases hsome
  exact List.getElem?_concat_length

theorem lives_constant {pool index : Nat} {constant : Constant}
    (hconstant : (heap.pools pool)[index]? = some constant) :
    (constant.toValue pool index).Lives heap.find? := by
  have hfound : heap.find? (.pooled pool index) = some (constant.toValue pool index) := by
    rw [Heap.find?, hconstant]
    rfl
  cases constant with
  | integer value => exact lives_of_plain rfl
  | string text | function template =>
      refine .intro (fun ref href => ?_) fun part member => absurd member List.not_mem_nil
      cases href
      exact hfound

theorem lives_strings (texts : List String) :
    ∀ item ∈ texts.mapIdx fun position text => string (.made (heap.made.length + position)) text,
      item.Lives (heap.add (texts.mapIdx fun position text =>
        string (.made (heap.made.length + position)) text)).find? := by
  intro item member
  obtain ⟨position, hless, rfl⟩ := List.mem_mapIdx.mp member
  refine .intro (fun ref href => ?_) fun part member => absurd member List.not_mem_nil
  cases href
  simp [Heap.find?, Heap.add, hless]

end Value

end Stacklang
