import Mathlib.Algebra.Group.Nat.Defs
import Mathlib.Data.List.Forall2
import Stacklang.Builtin.Apply

namespace Stacklang

variable {Body : Type}

namespace Value

def IsText (text : String) (value : Value Body) : Prop :=
  ∃ ref, value = .string ref text

def Spell (items : List (Value Body)) (texts : List String) : Prop :=
  List.Forall₂ (fun item text => IsText text item) items texts

variable [Arity Body]

theorem display_string (ref : Ref) (text : String) :
    (Value.string ref text : Value Body).display = text :=
  rfl

theorem Spell.displayItems_eq {items : List (Value Body)} {texts : List String}
    (spell : Spell items texts) : displayItems items = texts := by
  induction spell with
  | nil => rfl
  | cons hitem _ ih =>
      obtain ⟨ref, rfl⟩ := hitem
      rw [displayItems, ih]
      exact congrArg (· :: _) (display_string ref _)

end Value

namespace Value

def FirstSame (items : List (Value Body)) (item : Value Body) (position : Int64) : Prop :=
  ∃ (index : Nat) (inside : index < items.length), position.toInt = index ∧
    items[index].same item = true ∧
    ∀ (earlier : Nat) (hearlier : earlier < index), items[earlier].same item = false

end Value

namespace Builtin

open Value

theorem spell_newStrings (texts : List String) (made : Nat) :
    Spell (texts.mapIdx fun position text =>
      (.string (.made (made + position)) text : Value Body)) texts := by
  rw [Spell, List.forall₂_iff_get]
  refine ⟨by simp, fun position hleft hright => ⟨.made (made + position), ?_⟩⟩
  simp

variable [Arity Body]

def Answers (builtin : Builtin) (arguments : List (Value Body)) (good : Value Body → Prop) : Prop :=
  ∀ world, ∃ result later,
    (builtin.apply arguments).run world = .ok (some result, later) ∧ good result

variable (ref other another : Ref)

theorem answers_split (text separator : String) :
    Answers split [(.string ref text : Value Body), .string other separator] fun result =>
      ∃ made items, result = .array made items ∧ Spell items (Text.split text separator) :=
  fun world => ⟨_, _, rfl, _, _, rfl, spell_newStrings _ world.made⟩

theorem answers_join {items : List (Value Body)} {texts : List String} (spell : Spell items texts)
    (separator : String) :
    Answers join [.array ref items, .string other separator]
      (IsText (separator.intercalate texts)) := by
  rw [← spell.displayItems_eq]
  exact fun _ => ⟨_, _, rfl, _, rfl⟩

theorem answers_replace (text part fresh : String) :
    Answers replace [(.string ref text : Value Body), .string other part, .string another fresh]
      (IsText (Text.replace text part fresh)) :=
  fun _ => ⟨_, _, rfl, _, rfl⟩

theorem answers_contains_string (text part : String) :
    Answers contains [(.string ref text : Value Body), .string other part]
      (· = .boolean (Text.contains text part)) :=
  fun _ => ⟨_, _, rfl, rfl⟩

theorem answers_contains_array (items : List (Value Body)) (item : Value Body) :
    Answers contains [.array ref items, item] (· = .boolean (items.any (·.same item))) :=
  fun _ => ⟨_, _, rfl, rfl⟩

theorem answers_findIndex (items : List (Value Body)) (item : Value Body) :
    Answers findIndex [.array ref items, item]
      (· = .integer (match items.findIdx? (·.same item) with
        | some position => Int64.ofNat position
        | none => -1)) := by
  intro world
  refine ⟨_, world, ?_, rfl⟩
  change (match items.findIdx? (·.same item) with
    | some position => pure (some (.integer (Int64.ofNat position)))
    | none => pure (some (.integer (-1))) : BuiltinM (Option (Value Body))).run world = _
  cases items.findIdx? (·.same item) <;> rfl

/-- What is found in an array is found somewhere in it, first of all at its position. No array that fits
into memory has items behind the positions that integers can tell. -/
theorem answers_search (items : List (Value Body)) (item : Value Body)
    (hfits : items.length ≤ 2 ^ 63) :
    ∃ (found : Bool) (position : Int64),
      Answers contains [.array ref items, item] (· = .boolean found) ∧
      Answers findIndex [.array ref items, item] (· = .integer position) ∧
      (found = true ↔ ∃ other ∈ items, other.same item = true) ∧
      (found = true ↔ position ≠ -1) ∧ (position ≠ -1 → FirstSame items item position) := by
  have hcontains := answers_contains_array ref items item
  have hindex := answers_findIndex ref items item
  rw [← List.findIdx?_isSome] at hcontains
  refine ⟨_, _, hcontains, hindex, by rw [List.findIdx?_isSome, List.any_eq_true], ?_⟩
  cases hfound : items.findIdx? (·.same item) with
  | none => exact ⟨by simp, fun hposition => absurd rfl hposition⟩
  | some index =>
      obtain ⟨inside, hsame, hbefore⟩ := List.findIdx?_eq_some_iff_getElem.mp hfound
      have hposition : (Int64.ofNat index).toInt = index :=
        Int64.toInt_ofNat_of_lt (Nat.lt_of_lt_of_le inside hfits)
      refine ⟨iff_of_true rfl fun (hnegative : Int64.ofNat index = -1) => ?_,
        fun _ => ⟨index, inside, hposition, hsame, fun earlier hearlier => ?_⟩⟩
      · rw [hnegative, show (-1 : Int64).toInt = -1 from rfl] at hposition
        omega
      · simpa using hbefore earlier hearlier

end Builtin

end Stacklang
