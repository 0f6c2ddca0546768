import Mathlib.Data.List.Basic
import Stacklang.Value

namespace Stacklang

/-- What `==` in programs compares. -/
inductive Identity where
  | integer (value : Int64)
  | boolean (value : Bool)
  | null
  | string (ref : Ref)
  | array (ref : Ref)
  | hash (ref : Ref)
  | function (ref : Ref)
  | closure (ref : Ref)
  | builtin (entry : Builtin)

/-- What a value holds, whatever references it is made of. Functions and closures cannot be looked
into. -/
inductive Content where
  | string (text : String)
  | array (items : List Content)
  | hash (entries : List (HashKey × Content))
  | plain (identity : Identity)

namespace Value

variable {Body : Type}

def identity : Value Body → Identity
  | integer value => .integer value
  | boolean value => .boolean value
  | null => .null
  | string ref _ => .string ref
  | array ref _ => .array ref
  | hash ref _ => .hash ref
  | function ref _ => .function ref
  | closure ref _ _ => .closure ref
  | builtin entry => .builtin entry

mutual

/-- The keys that a hash was made with play no part in its content, those that it is ordered by do. -/
def content : Value Body → Content
  | string _ text => .string text
  | array _ items => .array (contentItems items)
  | hash _ entries => .hash (contentEntries entries)
  | value => .plain value.identity

def contentItems : List (Value Body) → List Content
  | [] => []
  | item :: rest => item.content :: contentItems rest

def contentEntries : List (HashKey × Value Body × Value Body) → List (HashKey × Content)
  | [] => []
  | (key, _, value) :: rest => (key, value.content) :: contentEntries rest

end

theorem identical_iff {left right : Value Body} :
    left.identical right = true ↔ left.identity = right.identity := by
  cases left <;> cases right <;> simp [identical, identity]

mutual

theorem same_iff : ∀ left right : Value Body,
    left.same right = true ↔ left.content = right.content
  | .string _ text, right => by
      cases right <;> simp [same, identical, content]
  | .array _ items, right => by
      cases right with
      | array _ others => simpa [same, content] using sameItems_iff items others
      | _ => simp [same, identical, content]
  | .hash _ entries, right => by
      cases right with
      | hash _ others => simpa [same, content] using sameEntries_iff entries others
      | _ => simp [same, identical, content]
  | .integer _, right | .boolean _, right | .null, right | .function _ _, right
  | .closure _ _ _, right | .builtin _, right => by
      cases right <;> simp [same, identical, content, identity]

theorem sameItems_iff : ∀ items others : List (Value Body),
    sameItems items others = true ↔ contentItems items = contentItems others
  | [], others => by cases others <;> simp [sameItems, contentItems]
  | item :: rest, others => by
      cases others with
      | nil => simp [sameItems, contentItems]
      | cons other others =>
          rw [sameItems, Bool.and_eq_true, same_iff item other, sameItems_iff rest others,
            contentItems, contentItems, List.cons.injEq]

theorem sameEntries_iff : ∀ entries others : List (HashKey × Value Body × Value Body),
    sameEntries entries others = true ↔ contentEntries entries = contentEntries others
  | [], others => by cases others <;> simp [sameEntries, contentEntries]
  | (key, _, value) :: rest, others => by
      cases others with
      | nil => simp [sameEntries, contentEntries]
      | cons other others =>
          obtain ⟨otherKey, _, other⟩ := other
          rw [sameEntries, Bool.and_eq_true, Bool.and_eq_true, same_iff value other,
            sameEntries_iff rest others, contentEntries, contentEntries, List.cons.injEq,
            Prod.mk.injEq, beq_iff_eq]

end

inductive Hashable : Value Body → Prop where
  | integer (value : Int64) : Hashable (.integer value)
  | boolean (value : Bool) : Hashable (.boolean value)
  | string (ref : Ref) (text : String) : Hashable (.string ref text)

theorem hashable_iff {value : Value Body} : value.Hashable ↔ ∃ key, value.hashKey? = some key := by
  constructor
  · intro hashable
    cases hashable with
    | integer | boolean | string => exact ⟨_, rfl⟩
  · rintro ⟨key, hkey⟩
    cases value with
    | integer value => exact .integer value
    | boolean value => exact .boolean value
    | string ref text => exact .string ref text
    | _ => cases hkey

/-- Among the values that can be keys, the same ones have the same key. -/
theorem Hashable.same_iff {left right : Value Body} (hleft : left.Hashable)
    (hright : right.Hashable) : left.same right = true ↔ left.hashKey? = right.hashKey? := by
  cases hleft <;> cases hright <;> simp [same, identical, hashKey?]

theorem identical_equivalence :
    Equivalence fun left right : Value Body => left.identical right = true where
  refl _ := identical_iff.mpr rfl
  symm h := identical_iff.mpr (identical_iff.mp h).symm
  trans hleft hright := identical_iff.mpr ((identical_iff.mp hleft).trans (identical_iff.mp hright))

theorem same_equivalence : Equivalence fun left right : Value Body => left.same right = true where
  refl _ := (same_iff _ _).mpr rfl
  symm h := (same_iff _ _).mpr ((same_iff _ _).mp h).symm
  trans hleft hright := (same_iff _ _).mpr (((same_iff _ _).mp hleft).trans ((same_iff _ _).mp hright))

end Value

end Stacklang
