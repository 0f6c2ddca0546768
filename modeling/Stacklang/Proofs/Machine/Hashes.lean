import Stacklang.Proofs.Value.Entries
import Stacklang.Proofs.Value.Equality
import Stacklang.Proofs.Value.Related

namespace Stacklang

variable {Body : Type}

/-- Every entry is kept under the key of the value that it was made with, and the keys ascend. -/
structure Entries.Tidy (entries : Entries (Value Body × Value Body)) : Prop where
  ascending : entries.Ascending
  filed : ∀ entry ∈ entries, entry.2.1.hashKey? = some entry.1

namespace Entries.Tidy

variable {entries left right : Entries (Value Body × Value Body)}

theorem nil : Tidy ([] : Entries (Value Body × Value Body)) :=
  ⟨.nil, by simp⟩

theorem insert (tidy : entries.Tidy) {hashKey : HashKey} {key : Value Body}
    (hkey : key.hashKey? = some hashKey) (value : Value Body) :
    Tidy (entries.insert hashKey (key, value)) := by
  refine ⟨tidy.ascending.insert _ _, fun entry member => ?_⟩
  rcases mem_insert member with rfl | hbefore
  · exact hkey
  · exact tidy.filed entry hbefore

theorem union (hleft : left.Tidy) (hright : right.Tidy) : Tidy (left.union right) := by
  refine ⟨hleft.ascending.union right, fun entry member => ?_⟩
  rcases mem_union member with hmember | hmember
  · exact hleft.filed entry hmember
  · exact hright.filed entry hmember

end Entries.Tidy

namespace Machine

def inTurn : List (Value Body × Value Body) → List (Value Body)
  | [] => []
  | (key, value) :: rest => key :: value :: inTurn rest

def lastWith (hashKey : HashKey) (pairs : List (Value Body × Value Body)) :
    Option (Value Body × Value Body) :=
  (pairs.filter (·.1.hashKey? = some hashKey)).getLast?

variable {pairs : List (Value Body × Value Body)}

theorem lastWith_cons (hashKey : HashKey) (pair : Value Body × Value Body) :
    lastWith hashKey (pair :: pairs) =
      (lastWith hashKey pairs).or (if pair.1.hashKey? = some hashKey then some pair else none) := by
  rw [lastWith, lastWith, List.filter_cons]
  by_cases hkey : pair.1.hashKey? = some hashKey
  · simp only [hkey, decide_true, if_true, List.getLast?_cons]
    cases (pairs.filter (·.1.hashKey? = some hashKey)).getLast? <;> rfl
  · simp only [hkey, decide_false, Bool.false_eq_true, if_false, Option.or_none]

/-- If every key can be one, the last pair with a key is what the hash has under it; what was in the
hash before stays under the keys that do not occur. -/
theorem hashEntries_ok (entries : Entries (Value Body × Value Body))
    (husable : ∀ pair ∈ pairs, pair.1.Hashable) :
    ∃ later, hashEntries entries (inTurn pairs) = .ok later ∧
      (∀ hashKey, later.find? hashKey = (lastWith hashKey pairs).or (entries.find? hashKey)) ∧
      (entries.Tidy → later.Tidy) := by
  induction pairs generalizing entries with
  | nil => exact ⟨entries, rfl, fun _ => rfl, id⟩
  | cons pair rest ih =>
      obtain ⟨key, value⟩ := pair
      obtain ⟨hfirst, hrest⟩ := List.forall_mem_cons.mp husable
      obtain ⟨hashKey, hkey⟩ := Value.hashable_iff.mp hfirst
      obtain ⟨later, hlater, hfound, htidy⟩ := ih (entries.insert hashKey (key, value)) hrest
      refine ⟨later, ?_, fun wanted => ?_, fun hentries => htidy (hentries.insert hkey value)⟩
      · rw [inTurn, hashEntries, hkey]
        exact hlater
      · rw [hfound, lastWith_cons, Option.or_assoc, Entries.find?_insert, hkey]
        by_cases hwanted : wanted = hashKey
        · simp [hwanted]
        · simp [hwanted, Ne.symm hwanted]

theorem hashEntries_stops (entries : Entries (Value Body × Value Body))
    {done rest : List (Value Body × Value Body)} {key value : Value Body}
    (husable : ∀ pair ∈ done, pair.1.Hashable) (hunusable : ¬key.Hashable) :
    hashEntries entries (inTurn (done ++ (key, value) :: rest)) =
      .error (.unusableHashKey key.kind) := by
  induction done generalizing entries with
  | nil =>
      have hkey : key.hashKey? = none := by
        rw [Option.eq_none_iff_forall_ne_some]
        exact fun hashKey hsome => hunusable (Value.hashable_iff.mpr ⟨hashKey, hsome⟩)
      rw [List.nil_append, inTurn, hashEntries, hkey]
  | cons pair done ih =>
      obtain ⟨hfirst, hdone⟩ := List.forall_mem_cons.mp husable
      obtain ⟨hashKey, hkey⟩ := Value.hashable_iff.mp hfirst
      rw [List.cons_append, inTurn, hashEntries, hkey]
      exact ih _ hdone

theorem usable_or_first (pairs : List (Value Body × Value Body)) :
    (∀ pair ∈ pairs, pair.1.Hashable) ∨
      ∃ done key value rest, pairs = done ++ (key, value) :: rest ∧
        (∀ pair ∈ done, pair.1.Hashable) ∧ ¬key.Hashable := by
  induction pairs with
  | nil => exact .inl (by simp)
  | cons pair rest ih =>
      obtain ⟨key, value⟩ := pair
      by_cases hfirst : key.Hashable
      · rcases ih with husable | ⟨done, other, value', rest, rfl, hdone, hother⟩
        · exact .inl (List.forall_mem_cons.mpr ⟨hfirst, husable⟩)
        · exact .inr ⟨(key, value) :: done, other, value', rest, rfl,
            List.forall_mem_cons.mpr ⟨hfirst, hdone⟩, hother⟩
      · exact .inr ⟨[], key, value, rest, rfl, by simp, hfirst⟩

theorem hashEntries_succeeds_iff :
    (∃ entries, hashEntries [] (inTurn pairs) = .ok entries) ↔ ∀ pair ∈ pairs, pair.1.Hashable := by
  constructor
  · rintro ⟨entries, hok⟩
    rcases usable_or_first pairs with husable | ⟨done, key, value, rest, rfl, hdone, hkey⟩
    · exact husable
    · rw [hashEntries_stops [] hdone hkey] at hok
      cases hok
  · intro husable
    obtain ⟨entries, hok, -⟩ := hashEntries_ok [] husable
    exact ⟨entries, hok⟩

theorem hashEntries_fails_iff {fault : Fault} :
    hashEntries [] (inTurn pairs) = .error fault ↔
      ∃ done key value rest, pairs = done ++ (key, value) :: rest ∧
        (∀ pair ∈ done, pair.1.Hashable) ∧ ¬key.Hashable ∧ fault = .unusableHashKey key.kind := by
  constructor
  · intro hfails
    rcases usable_or_first pairs with husable | ⟨done, key, value, rest, rfl, hdone, hkey⟩
    · obtain ⟨entries, hok, -⟩ := hashEntries_ok [] husable
      rw [hok] at hfails
      cases hfails
    · rw [hashEntries_stops [] hdone hkey] at hfails
      cases hfails
      exact ⟨done, key, value, rest, rfl, hdone, hkey, rfl⟩
  · rintro ⟨done, key, value, rest, rfl, hdone, hkey, rfl⟩
    exact hashEntries_stops [] hdone hkey

theorem hashEntries_made {entries : Entries (Value Body × Value Body)}
    (hok : hashEntries [] (inTurn pairs) = .ok entries) :
    (∀ hashKey, entries.find? hashKey = lastWith hashKey pairs) ∧ entries.Tidy := by
  obtain ⟨later, hlater, hfound, htidy⟩ :=
    hashEntries_ok [] (hashEntries_succeeds_iff.mp ⟨entries, hok⟩)
  rw [hok] at hlater
  cases hlater
  refine ⟨fun hashKey => ?_, htidy .nil⟩
  rw [hfound, Entries.find?_nil, Option.or_none]

end Machine

namespace Value

open Machine

inductive Ordered : Value Body → Prop where
  | hash (ref : Ref) {entries : Entries (Value Body × Value Body)} (ascending : entries.Ascending) :
      Ordered (.hash ref entries)

def pair? (hashKey : HashKey) : Value Body → Option (Value Body × Value Body)
  | .hash _ entries => Entries.find? hashKey entries
  | _ => none

theorem lookUp_eq_pair? {hash key : Value Body} {hashKey : HashKey} (hhash : hash.Ordered)
    (hkey : key.hashKey? = some hashKey) :
    lookUp hash key = .ok (((hash.pair? hashKey).map (·.2)).getD .null) := by
  cases hhash with
  | hash ref _ => rw [lookUp_hash, hkey, pair?]

variable [Arity Body]

def Merges (left right merged : Value Body) : Prop :=
  ∃ world later, (Builtin.merge.apply [left, right]).run world = .ok (some merged, later)

/-- The hashes that come of literals and of merging. -/
inductive Built : Value Body → Prop where
  | literal {pairs : List (Value Body × Value Body)} (ref : Ref)
      {entries : Entries (Value Body × Value Body)}
      (hmade : hashEntries [] (inTurn pairs) = .ok entries) : Built (.hash ref entries)
  | merged {left right merged : Value Body} (hleft : Built left) (hright : Built right)
      (hmerges : Merges left right merged) : Built merged

theorem apply_merge (leftRef rightRef : Ref) (left right : Entries (Value Body × Value Body))
    (world : World) :
    (Builtin.merge.apply [.hash leftRef left, .hash rightRef right]).run world =
      .ok (some (.hash (.made world.made) (left.union right)),
        { world with made := world.made + 1 }) := rfl

theorem Merges.exists_eq {leftRef rightRef : Ref} {left right : Entries (Value Body × Value Body)}
    {merged : Value Body} (hmerges : Merges (.hash leftRef left) (.hash rightRef right) merged) :
    ∃ ref, merged = .hash ref (left.union right) := by
  obtain ⟨world, later, hrun⟩ := hmerges
  rw [apply_merge] at hrun
  cases hrun
  exact ⟨_, rfl⟩

theorem Built.tidy {hash : Value Body} (built : hash.Built) :
    ∃ ref entries, hash = .hash ref entries ∧ Entries.Tidy entries := by
  induction built with
  | literal ref hmade => exact ⟨ref, _, rfl, (hashEntries_made hmade).2⟩
  | merged _ _ hmerges ihLeft ihRight =>
      obtain ⟨leftRef, left, rfl, hleft⟩ := ihLeft
      obtain ⟨rightRef, right, rfl, hright⟩ := ihRight
      obtain ⟨ref, rfl⟩ := hmerges.exists_eq
      exact ⟨ref, _, rfl, hleft.union hright⟩

theorem merge_pair? {left right : Value Body} (hleft : left.Ordered) (hright : right.Ordered)
    (world : World) :
    ∃ merged later, (Builtin.merge.apply [left, right]).run world = .ok (some merged, later) ∧
      merged.Ordered ∧
      ∀ hashKey, merged.pair? hashKey = (right.pair? hashKey).or (left.pair? hashKey) := by
  cases hleft with
  | @hash leftRef left hleft =>
      cases hright with
      | @hash rightRef right hright =>
          exact ⟨_, _, apply_merge leftRef rightRef left right world, .hash _ (hleft.union right),
            hright.find?_union left⟩

theorem merge_assoc {first second third left right leftLast rightFirst : Value Body}
    (hfirst : first.Ordered) (hsecond : second.Ordered) (hthird : third.Ordered)
    (hleft : Merges first second left) (hleftLast : Merges left third leftLast)
    (hright : Merges second third right) (hrightFirst : Merges first right rightFirst) :
    leftLast.same rightFirst = true := by
  obtain ⟨_, hfirst⟩ := hfirst
  obtain ⟨_, hsecond⟩ := hsecond
  obtain ⟨_, hthird⟩ := hthird
  obtain ⟨_, rfl⟩ := hleft.exists_eq
  obtain ⟨_, rfl⟩ := hright.exists_eq
  obtain ⟨_, rfl⟩ := hleftLast.exists_eq
  obtain ⟨_, rfl⟩ := hrightFirst.exists_eq
  rw [same_iff, content, content, hfirst.union_assoc hsecond hthird]

theorem merge_empty {hash left right : Value Body} {ref : Ref} (hhash : hash.Ordered)
    (hleft : Merges (.hash ref []) hash left) (hright : Merges hash (.hash ref []) right) :
    left.same hash = true ∧ right.same hash = true := by
  obtain ⟨_, ascending⟩ := hhash
  obtain ⟨_, rfl⟩ := hleft.exists_eq
  obtain ⟨_, rfl⟩ := hright.exists_eq
  rw [same_iff, same_iff, content, content, content, ascending.nil_union]
  exact ⟨rfl, rfl⟩

/-- The laws of hashes. A literal fails at its first key that cannot be one, and else has the last value
that was given for a key. Merging prefers the second hash, so it is associative and an empty hash
changes nothing. All hashes that come of this keep their keys in ascending order, each with a value
that it is the key of. -/
theorem hash_laws (pairs : List (Value Body × Value Body)) {first second third key : Value Body}
    {hashKey : HashKey} (hfirst : first.Ordered) (hsecond : second.Ordered) (hthird : third.Ordered)
    (hkey : key.hashKey? = some hashKey) :
    ((∃ entries, hashEntries [] (inTurn pairs) = .ok entries) ↔
        ∀ pair ∈ pairs, pair.1.Hashable) ∧
      (∀ fault, hashEntries [] (inTurn pairs) = .error fault ↔
        ∃ done other value rest, pairs = done ++ (other, value) :: rest ∧
          (∀ pair ∈ done, pair.1.Hashable) ∧ ¬other.Hashable ∧
          fault = .unusableHashKey other.kind) ∧
      (∀ entries ref, hashEntries [] (inTurn pairs) = .ok entries →
        lookUp (.hash ref entries) key =
          .ok (((lastWith hashKey pairs).map (·.2)).getD .null)) ∧
      (∀ world, ∃ merged later,
        (Builtin.merge.apply [first, second]).run world = .ok (some merged, later) ∧
          merged.Ordered ∧
          lookUp merged key = lookUp (if (second.pair? hashKey).isSome then second else first) key) ∧
      (∀ left leftLast right rightFirst, Merges first second left → Merges left third leftLast →
        Merges second third right → Merges first right rightFirst →
          leftLast.same rightFirst = true) ∧
      (∀ ref left right, Merges (.hash ref []) first left → Merges first (.hash ref []) right →
        left.same first = true ∧ right.same first = true) ∧
      ∀ hash : Value Body, Built hash → ∃ ref entries, hash = .hash ref entries ∧
        Entries.Ascending entries ∧ ∀ entry ∈ entries, entry.2.1.hashKey? = some entry.1 := by
  refine ⟨hashEntries_succeeds_iff, fun _ => hashEntries_fails_iff, ?_, ?_, ?_, ?_, ?_⟩
  · intro entries ref hok
    obtain ⟨hfound, htidy⟩ := hashEntries_made hok
    rw [lookUp_eq_pair? (.hash ref htidy.ascending) hkey, pair?, hfound]
  · intro world
    obtain ⟨merged, later, hrun, hmerged, hpair⟩ := merge_pair? hfirst hsecond world
    refine ⟨merged, later, hrun, hmerged, ?_⟩
    rw [lookUp_eq_pair? hmerged hkey, hpair]
    cases hhas : second.pair? hashKey with
    | none =>
        rw [Option.none_or, Option.isSome_none, if_neg Bool.false_ne_true]
        exact (lookUp_eq_pair? hfirst hkey).symm
    | some entry =>
        rw [Option.some_or, Option.isSome_some, if_pos rfl, lookUp_eq_pair? hsecond hkey, hhas]
  · exact fun _ _ _ _ => merge_assoc hfirst hsecond hthird
  · exact fun _ _ _ => merge_empty hfirst
  · intro hash built
    obtain ⟨ref, entries, rfl, htidy⟩ := built.tidy
    exact ⟨ref, entries, rfl, htidy.ascending, htidy.filed⟩

/-- Keys of all three kinds, one of them twice in the literal and one in both hashes. -/
theorem hash_laws_mixed :
    let pairs : List (Value × Value) :=
      [(.boolean true, .integer 1), (.integer 2, .integer 3), (.boolean true, .integer 4)]
    let first : Value := .hash (.made 0)
      [(.integer 2, .integer 2, .integer 3), (.boolean true, .boolean true, .integer 4)]
    let second : Value := .hash (.made 1)
      [(.boolean true, .boolean true, .null), (.string "b", .string (.made 2) "b", .integer 5)]
    let key : Value := .boolean true
    first.Ordered ∧ second.Ordered ∧ key.hashKey? = some (.boolean true) ∧
      (∃ entries, hashEntries [] (inTurn pairs) = .ok entries ∧
        lookUp (.hash (.made 0) entries) key = .ok (.integer 4)) ∧
      ∃ merged later, (Builtin.merge.apply [first, second]).run .fresh = .ok (some merged, later) ∧
        lookUp merged key = .ok .null := by
  intro pairs first second key
  have hfirst : first.Ordered := .hash _ (by simpa [Entries.Ascending] using .integer_boolean _ _)
  have hsecond : second.Ordered := .hash _ (by simpa [Entries.Ascending] using .boolean_string _ _)
  have hkey : key.hashKey? = some (.boolean true) := rfl
  obtain ⟨hsucceeds, -, hfound, hmerge, -⟩ := hash_laws pairs hfirst hsecond hfirst hkey
  obtain ⟨entries, hok⟩ := hsucceeds.mpr (by simp [pairs, hashable_iff, hashKey?])
  obtain ⟨merged, later, hrun, -, hmerged⟩ := hmerge .fresh
  exact ⟨hfirst, hsecond, hkey, ⟨entries, hok, hfound entries _ hok⟩, merged, later, hrun, hmerged⟩

end Value

end Stacklang
