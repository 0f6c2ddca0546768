import Stacklang.Builtin.Apply
import Stacklang.Proofs.Value.Heap

namespace Stacklang.Builtin

open Value

/-- The call leaves the world as it is; its result is `good` if it has one. Builtins read their arguments
like this before they make any value. -/
def Reads {α : Type} (call : BuiltinM α) (good : α → Prop) : Prop :=
  ∀ world result later, call.run world = .ok (result, later) → later = world ∧ good result

/-- The result of the call, if it has one, is in the heap with the values that it has made. -/
def Stores (heap : Heap) (call : BuiltinM (Option Value)) : Prop :=
  ∀ world result later, call.run world = .ok (result, later) →
    world.made = heap.made.length →
    ∃ values, later.made = (heap.add values).made.length ∧
      (result.getD .null).Lives (heap.add values).find?

section

variable {α β : Type} {good : α → Prop} {heap : Heap}

theorem bind_succeeds {first : BuiltinM α} {next : α → BuiltinM β} {world last : World} {result : β}
    (hrun : (first >>= next).run world = .ok (result, last)) :
    ∃ middle later, first.run world = .ok (middle, later) ∧
      (next middle).run later = .ok (result, last) := by
  rw [StateT.run_bind] at hrun
  cases hfirst : first.run world with
  | error fault =>
      rw [hfirst] at hrun
      cases hrun
  | ok outcome =>
      rw [hfirst] at hrun
      exact ⟨outcome.1, outcome.2, rfl, hrun⟩

theorem Reads.pure {value : α} (hgood : good value) : Reads (pure value) good := by
  rintro world _ _ ⟨⟩
  exact ⟨rfl, hgood⟩

theorem Reads.throw {fault : Fault} : Reads (throw fault) good := by
  rintro world _ _ ⟨⟩

theorem Reads.bind {first : BuiltinM α} {next : α → BuiltinM (Option Value)}
    (reads : Reads first good) (hnext : ∀ value, good value → Stores heap (next value)) :
    Stores heap (first >>= next) := by
  intro world result last hrun hmade
  obtain ⟨value, later, hfirst, hrest⟩ := bind_succeeds hrun
  obtain ⟨rfl, hgood⟩ := reads _ _ _ hfirst
  exact hnext value hgood _ _ _ hrest hmade

theorem Stores.throw {fault : Fault} : Stores heap (throw fault) := by
  rintro world _ _ ⟨⟩

theorem Stores.pure {result : Option Value} (lives : (result.getD .null).Lives heap.find?) :
    Stores heap (pure result) := by
  rintro world _ _ ⟨⟩ hmade
  exact ⟨[], by simpa using hmade, by simpa using lives⟩

theorem stores_made {value : Ref → Value} (href : ∀ ref, (value ref).ref? = some ref)
    (hparts : ∀ ref, ∀ part ∈ (value ref).parts, part.Lives heap.find?) :
    Stores heap (newRef >>= fun ref => Pure.pure (some (value ref))) := by
  rintro world _ _ ⟨⟩ hmade
  have hnew := href (.made heap.made.length)
  refine ⟨[value (.made world.made)], ?_, ?_⟩
  · rw [Heap.length_add, ← hmade]
    rfl
  · rw [hmade]
    exact .made hnew (hparts _)

theorem stores_newString (text : String) : Stores heap (newString text) :=
  stores_made (fun _ => rfl) fun _ _ member => absurd member List.not_mem_nil

theorem stores_newArray {items : List Value} (lives : ∀ item ∈ items, item.Lives heap.find?) :
    Stores heap (newArray items) :=
  stores_made (fun _ => rfl) fun _ => lives

theorem stores_newHash {entries : Entries (Value × Value)}
    (lives : ∀ entry ∈ entries, entry.2.1.Lives heap.find? ∧ entry.2.2.Lives heap.find?) :
    Stores heap (newHash entries) := by
  refine stores_made (fun _ => rfl) fun _ part member => ?_
  obtain ⟨entry, hentry, rfl | rfl⟩ := mem_parts_hash.mp member
  · exact (lives entry hentry).1
  · exact (lives entry hentry).2

theorem stores_newStrings (texts : List String) :
    Stores heap (newStrings texts >>= newArray) := by
  intro world result last hrun hmade
  obtain ⟨items, later, hstrings, harray⟩ := bind_succeeds hrun
  cases hstrings
  rw [hmade] at harray
  obtain ⟨values, hlast, lives⟩ :=
    stores_newArray (lives_strings texts) _ _ _ harray (by simp)
  rw [Heap.add_add] at hlast lives
  exact ⟨_, hlast, lives⟩

end

section

variable {arguments : List Value} {value : Value} (builtin : Builtin)

theorem one_reads : Reads (builtin.one arguments) (· ∈ arguments) := by
  unfold one
  split
  next => exact .pure (by simp)
  next => exact .throw

theorem two_reads :
    Reads (builtin.two arguments) fun pair => pair.1 ∈ arguments ∧ pair.2 ∈ arguments := by
  unfold two
  split
  next => exact .pure (by simp)
  next => exact .throw

theorem three_reads : Reads (builtin.three arguments) fun _ => True := by
  unfold three
  split
  next => exact .pure trivial
  next => exact .throw

theorem asString_reads : Reads (builtin.asString value) fun _ => True := by
  unfold asString
  split
  next => exact .pure trivial
  next => exact .throw

theorem asArray_reads :
    Reads (builtin.asArray value) fun items => ∃ ref, value = .array ref items := by
  unfold asArray
  split
  next => exact .pure ⟨_, rfl⟩
  next => exact .throw

end

section

variable {heap : Heap} {arguments : List Value}

theorem stores_mapString (builtin : Builtin) (f : String → String) :
    Stores heap (builtin.mapString f arguments) :=
  (one_reads builtin).bind fun _ _ =>
    (asString_reads builtin).bind fun _ _ => stores_newString _

theorem stores_applyJoin : Stores heap (applyJoin arguments) := by
  unfold applyJoin
  split
  next => exact .throw
  next =>
    refine (two_reads join).bind fun _ _ => ?_
    exact (asString_reads join).bind fun _ _ => stores_newString _
  next =>
    refine (three_reads join).bind fun _ _ => ?_
    refine (asString_reads join).bind fun _ _ => ?_
    exact (asString_reads join).bind fun _ _ => stores_newString _
  next => exact .throw

theorem items_reads (builtin : Builtin) {next : List Value → BuiltinM (Option Value)}
    (lives : ∀ argument ∈ arguments, argument.Lives heap.find?)
    (hnext : ∀ items, (∀ item ∈ items, item.Lives heap.find?) → Stores heap (next items)) :
    Stores heap (builtin.one arguments >>= fun argument => builtin.asArray argument >>= next) := by
  refine (one_reads builtin).bind fun argument member => ?_
  refine (asArray_reads builtin).bind fun items harray => ?_
  obtain ⟨ref, rfl⟩ := harray
  exact hnext items fun item hitem => (lives _ member).part hitem

theorem apply_stores (lives : ∀ argument ∈ arguments, argument.Lives heap.find?)
    (builtin : Builtin) : Stores heap (builtin.apply arguments) := by
  cases builtin with
  | puts =>
      rintro world _ _ ⟨⟩ hmade
      exact ⟨[], by simpa using hmade, lives_null⟩
  | typeOf => exact (one_reads typeOf).bind fun _ _ => stores_newString _
  | len =>
      refine (one_reads len).bind fun argument member => ?_
      split
      next => exact .pure (lives_of_plain rfl)
      next => exact .pure (lives_of_plain rfl)
      next => exact .throw
  | first =>
      refine items_reads first lives fun items hitems => .pure ?_
      cases items with
      | nil => exact lives_null
      | cons item rest => exact hitems item List.mem_cons_self
  | last =>
      refine items_reads last lives fun items hitems => .pure ?_
      cases hlast : items.getLast? with
      | none => exact lives_null
      | some item => exact hitems item (List.mem_of_getLast? hlast)
  | rest =>
      refine items_reads rest lives fun items hitems => ?_
      cases items with
      | nil => exact .pure lives_null
      | cons item items =>
          exact stores_newArray fun other member => hitems other (List.mem_cons_of_mem _ member)
  | push =>
      refine (two_reads push).bind fun ⟨container, item⟩ ⟨hcontainer, hitem⟩ => ?_
      refine (asArray_reads push).bind fun items harray => stores_newArray fun other member => ?_
      obtain ⟨ref, rfl⟩ := harray
      rcases List.mem_append.mp member with hold | hnew
      · exact (lives _ hcontainer).part hold
      · rw [List.mem_singleton.mp hnew]
        exact lives item hitem
  | pop =>
      refine (one_reads pop).bind fun container hcontainer => ?_
      refine (asArray_reads pop).bind fun items harray => ?_
      split
      next => exact .pure (lives container hcontainer)
      next =>
        obtain ⟨ref, rfl⟩ := harray
        exact stores_newArray fun item member =>
          (lives _ hcontainer).part (List.dropLast_subset _ member)
  | reverse =>
      refine (one_reads reverse).bind fun argument member => ?_
      split
      next => exact stores_newString _
      next => exact stores_newArray fun item hitem =>
          (lives _ member).part (List.mem_reverse.mp hitem)
      next => exact .throw
  | join => exact stores_applyJoin
  | split =>
      refine (two_reads split).bind fun _ _ => ?_
      refine (asString_reads split).bind fun _ _ => ?_
      exact (asString_reads split).bind fun _ _ => stores_newStrings _
  | replace =>
      refine (three_reads replace).bind fun _ _ => ?_
      refine (asString_reads replace).bind fun _ _ => ?_
      refine (asString_reads replace).bind fun _ _ => ?_
      exact (asString_reads replace).bind fun _ _ => stores_newString _
  | toLower | toUpper | trim | trimLeft | trimRight => exact stores_mapString _ _
  | contains =>
      refine (two_reads contains).bind fun ⟨container, item⟩ _ => ?_
      dsimp only
      split
      next => exact (asString_reads contains).bind fun _ _ => .pure (lives_of_plain rfl)
      next => exact .pure (lives_of_plain rfl)
      next => exact .throw
  | merge =>
      refine (two_reads merge).bind fun ⟨base, overlay⟩ ⟨hbase, hoverlay⟩ => ?_
      dsimp only at hbase hoverlay ⊢
      split
      next =>
        refine stores_newHash fun entry member => ?_
        rcases Entries.mem_union member with hleft | hright
        · exact (lives _ hbase).entry hleft
        · exact (lives _ hoverlay).entry hright
      next => exact .throw
      next => exact .throw
  | findIndex =>
      refine (two_reads findIndex).bind fun _ _ => ?_
      refine (asArray_reads findIndex).bind fun items _ => ?_
      split
      next => exact .pure (lives_of_plain rfl)
      next => exact .pure (lives_of_plain rfl)

end

end Stacklang.Builtin
