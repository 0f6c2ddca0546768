import Stacklang.Proofs.Builtin.Answers
import Stacklang.Proofs.Machine.Everywhere
import Stacklang.Proofs.Machine.Housed
import Stacklang.Proofs.Session.Desk

namespace Stacklang

open Machine Value

theorem Session.compile_pool {session later : Session} {source : String} {image : Image}
    (hcompile : session.compile source = (.ok image, later)) : image.pool = 0 := by
  unfold compile at hcompile
  split at hcompile
  next => cases hcompile
  next =>
    split at hcompile
    next => cases hcompile
    next =>
      cases hcompile
      rfl

namespace Desk

/-- The constants and the globals on the desk are in the heap. Pool zero is that of the session, and no
pool is in use before its snapshot has been loaded. -/
structure Housed (heap : Heap) (desk : Desk) : Prop where
  consistent : desk.session.Consistent
  made : desk.session.world.made = heap.made.length
  shared : heap.pools 0 = desk.session.constants
  unused : ∀ pool, desk.session.loaded < pool → heap.pools pool = #[]
  images : ∀ image ∈ desk.images, Constant.Grows image.bytecode.constants (heap.pools image.pool)
  globals : ∀ value ∈ desk.session.globals, value.Lives heap.find?

theorem new_housed (config : Config) : Housed ⟨fun _ => #[], []⟩ (new config) :=
  ⟨Session.new_consistent config, rfl, rfl, fun _ _ => rfl, by simp [new], by simp [new, Session.new]⟩

namespace Housed

variable {heap : Heap} {desk : Desk} {operation : Operation} {image : Image}

theorem receive {session : Session} (housed : desk.Housed heap) (hconsistent : session.Consistent)
    (hgrows : Constant.Grows (heap.pools image.pool) image.bytecode.constants)
    (hshared : (heap.withPool image.pool image.bytecode.constants).pools 0 = session.constants)
    (hloaded : desk.session.loaded ≤ session.loaded) (hpool : image.pool ≤ session.loaded)
    (hglobals : session.globals = desk.session.globals)
    (hworld : session.world = desk.session.world) :
    Housed (heap.withPool image.pool image.bytecode.constants)
      { desk with session, images := image :: desk.images } := by
  refine ⟨hconsistent, hworld ▸ housed.made, hshared, ?_, ?_, ?_⟩
  · intro pool (hless : session.loaded < pool)
    rw [Heap.withPool_other (by omega)]
    exact housed.unused pool (by omega)
  · refine List.forall_mem_cons.mpr ⟨?_, fun other member => ?_⟩
    · rw [Heap.withPool_same]
      exact .refl _
    · have hother := housed.images other member
      by_cases hsame : other.pool = image.pool
      · rw [hsame, Heap.withPool_same]
        rw [hsame] at hother
        exact hother.trans hgrows
      · rwa [Heap.withPool_other hsame]
  · intro value member
    rw [hglobals] at member
    exact (housed.globals value member).mono fun _ _ =>
      Heap.find?_withPool fun _ _ hconstant => hgrows hconstant

theorem prepare (housed : desk.Housed heap) (operation : Operation) :
    ∃ later, (desk.prepare operation).1.Housed later := by
  rcases desk.prepare_cases operation with hsame | ⟨source, image, session, -, hcompile, hmade⟩ |
    ⟨bytes, bytecode, -, -, hmade⟩
  · rw [hsame]
    exact ⟨heap, housed⟩
  · have hconsistent := housed.consistent.compile source
    have hpool := Session.compile_pool hcompile
    rw [hcompile] at hconsistent
    obtain ⟨program, finish, code, -, hemits, -, hconstants, rfl⟩ :=
      Session.compile_succeeds housed.consistent hcompile
    rw [hmade]
    refine ⟨_, housed.receive hconsistent ?_ ?_ (Nat.le_refl _) (by omega) rfl rfl⟩
    · rw [hpool, housed.shared, hconstants]
      exact hemits.constants
    · rw [hpool, Heap.withPool_same]
      exact hconstants
  · obtain ⟨valid, htop, hsound⟩ := housed.consistent
    rw [hmade]
    refine ⟨_, housed.receive ⟨valid, htop, hsound⟩ ?_ ?_ (Nat.le_succ _) (Nat.le_refl _) rfl rfl⟩
    · rw [housed.unused _ (Nat.lt_succ_self _)]
      intro index constant hnone
      cases hnone
    · rw [Heap.withPool_other (Nat.succ_ne_zero _).symm]
      exact housed.shared

theorem machine (housed : desk.Housed heap) (hmember : image ∈ desk.images) :
    (desk.machine image).Coherent heap.pools :=
  start_coherent _ housed.made (fun _ _ hconstant => housed.images image hmember hconstant)
    housed.globals

theorem run (housed : desk.Housed heap) (fuel : Nat) (hmember : image ∈ desk.images) :
    ∃ later, (desk.run fuel image).Housed later := by
  obtain ⟨made, hafter⟩ := run_always (fun _ => Machine.Coherent.step) fuel
    (housed.machine hmember).again
  obtain ⟨valid, htop, hsound⟩ := housed.consistent
  rw [run_eq]
  exact ⟨_, ⟨valid, htop, hsound⟩, hafter.made, housed.shared, housed.unused, housed.images,
    hafter.globals⟩

end Housed

theorem Reached.housed {config : Config} {desk : Desk}
    (reached : Reached (fun _ _ => True) config desk) : ∃ heap, desk.Housed heap := by
  induction reached with
  | new => exact ⟨_, new_housed config⟩
  | perform _ _ ih =>
      obtain ⟨heap, housed⟩ := ih
      refine perform_keeps (fun desk => ∃ heap, desk.Housed heap) (housed.prepare _) ?_
      rintro desk fuel image ⟨heap, housed⟩ hmember
      exact housed.run fuel hmember

/-- Whatever a session has been given, everything that a machine holds at any time of a run is in one
heap. -/
theorem Reached.coherent {config : Config} {desk : Desk} {operation : Operation}
    {start machine : Machine} (reached : Reached (fun _ _ => True) config desk)
    (hstarts : desk.starts? operation = some start) (visits : Visits start machine) :
    ∃ pools, machine.Coherent pools := by
  obtain ⟨_, housed⟩ := reached.housed
  obtain ⟨heap, hprepared⟩ := housed.prepare operation
  obtain ⟨fuel, image, hruns, rfl⟩ := starts?_eq_some.mp hstarts
  exact ⟨heap.pools, (hprepared.machine (prepare_runs hruns)).visits visits⟩

end Desk

/-- Equality of contents and identity are equivalences. Identical values are the same if they are in one
heap, as all values are that a machine can come by in whatever session. On what can be a key of a hash,
equality of contents is equality of keys. In an array the two builtins that look for a value go by
equality of contents, so one has found it exactly if the other one has, at the first place where it
is. -/
theorem Value.equalities_agree {Body : Type} [Arity Body] :
    (Equivalence fun left right : Value Body => left.same right = true) ∧
    (Equivalence fun left right : Value Body => left.identical right = true) ∧
    (∀ (heap : Ref → Option (Value Body)) (left right : Value Body), left.StoredIn heap →
      right.StoredIn heap → left.identical right = true → left.same right = true) ∧
    (∀ (config : Config) (desk : Desk), Desk.Reached (fun _ _ => True) config desk →
      ∀ (operation : Operation) (start machine : Machine), desk.starts? operation = some start →
        Visits start machine → ∀ left right : Value, machine.Holds left → machine.Holds right →
          left.identical right = true → left.same right = true) ∧
    (∀ left right : Value Body, left.Hashable → right.Hashable →
      (left.same right = true ↔ left.hashKey? = right.hashKey?)) ∧
    ∀ (ref : Ref) (items : List (Value Body)) (item : Value Body), items.length ≤ 2 ^ 63 →
      ∃ (found : Bool) (position : Int64),
        Builtin.Answers .contains [.array ref items, item] (· = .boolean found) ∧
        Builtin.Answers .findIndex [.array ref items, item] (· = .integer position) ∧
        (found = true ↔ ∃ other ∈ items, other.same item = true) ∧
        (found = true ↔ position ≠ -1) ∧ (position ≠ -1 → FirstSame items item position) := by
  refine ⟨same_equivalence, identical_equivalence, fun _ _ _ => StoredIn.same_of_identical, ?_,
    fun _ _ => Hashable.same_iff, Builtin.answers_search⟩
  intro config desk reached operation start machine hstarts visits left right hleft hright
  obtain ⟨pools, coherent⟩ := reached.coherent hstarts visits
  exact coherent.same_of_identical hleft hright

def sharingStart : Machine :=
  (((Desk.new ⟨16, 8, 4, none⟩).perform (.eval 50 "let a = [1, \"b\"];")).starts?
    (.eval 50 "[a, [a]]")).get (by decide +kernel)

theorem Value.equalities_agree_shared :
    (∃ machine left right, Visits sharingStart machine ∧ machine.Holds left ∧ machine.Holds right ∧
      left.kind = "ARRAY" ∧ left.identical right = true ∧ left.same right = true) ∧
    (∃ (heap : Ref → Option Value) (array : Value), array.StoredIn heap ∧ array.kind = "ARRAY" ∧
      array.same array = true) ∧
    (∃ left right : Value, left.Hashable ∧ right.Hashable ∧ left.identical right = false ∧
      left.same right = true) ∧
    ∃ position, Builtin.Answers .findIndex
        [.array (.made 2) [.integer 1, .string (.made 0) "b"], (.string (.made 1) "b" : Value)]
        (· = .integer position) ∧ position ≠ -1 := by
  obtain ⟨-, -, hheap, hrun, hkeys, hsearch⟩ := @Value.equalities_agree Template _
  refine ⟨?_, ⟨fun _ => some (.array (.made 0) []), .array (.made 0) [], fun _ _ => rfl, rfl, ?_⟩,
    ⟨.string (.made 0) "b", .string (.made 1) "b", .string _ _, .string _ _, by decide, ?_⟩, ?_⟩
  · have hfound : ((sharingStart.afterSteps 2).stack[1]?.bind fun left =>
        (sharingStart.afterSteps 2).globals[0]?.map fun right =>
          (left.kind, left.identical right)) = some ("ARRAY", true) := by decide +kernel
    obtain ⟨left, hstack, hmapped⟩ := Option.bind_eq_some_iff.mp hfound
    obtain ⟨right, hglobal, hagree⟩ := Option.map_eq_some_iff.mp hmapped
    obtain ⟨hkind, hidentical⟩ := Prod.mk.inj hagree
    have hvisits : Visits sharingStart (sharingStart.afterSteps 2) := .step (.step .start)
    have hleft := Holds.stack (Array.mem_of_getElem? hstack)
    have hright := Holds.global (Array.mem_of_getElem? hglobal)
    exact ⟨_, left, right, hvisits, hleft, hright, hkind, hidentical,
      hrun _ _ (.perform .new trivial) _ _ _ (Option.some_get _).symm hvisits _ _ hleft hright
        hidentical⟩
  · exact hheap _ _ _ (fun _ _ => rfl) (fun _ _ => rfl) (by decide)
  · exact (hkeys _ _ (.string _ _) (.string _ _)).mpr rfl
  · obtain ⟨found, position, -, hindex, hfound, hposition, -⟩ :=
      hsearch (.made 2) [.integer 1, .string (.made 0) "b"] (.string (.made 1) "b") (by decide)
    exact ⟨position, hindex, hposition.mp (hfound.mpr ⟨.string (.made 0) "b", by simp, by simp [same]⟩)⟩

end Stacklang
