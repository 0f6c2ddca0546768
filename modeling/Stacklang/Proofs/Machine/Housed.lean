import Stacklang.Proofs.Builtin.Heap
import Stacklang.Proofs.Machine.Visits

namespace Stacklang

def Frame.closure (frame : Frame) : Value :=
  .closure frame.ref frame.template frame.captured

namespace Machine

open Fallible Value

/-- The values in the machine are in the heap, which has all that programs have made so far. -/
structure Housed (heap : Heap) (machine : Machine) : Prop where
  made : machine.world.made = heap.made.length
  constants : ∀ (index : Nat) (constant : Constant), machine.constants[index]? = some constant →
    (constant.toValue machine.pool index).Lives heap.find?
  stack : ∀ value ∈ machine.stack, value.Lives heap.find?
  globals : ∀ value ∈ machine.globals, value.Lives heap.find?
  calls : ∀ frame ∈ machine.frames, frame.closure.Lives heap.find?

def Coherent (pools : Nat → Array Constant) (machine : Machine) : Prop :=
  ∃ made, Housed ⟨pools, made⟩ machine

namespace Housed

variable {heap : Heap} {machine : Machine}

theorem coherent (housed : Housed heap machine) : Coherent heap.pools machine :=
  ⟨heap.made, housed⟩

theorem add (housed : Housed heap machine) (values : List Value) {world : World}
    (hmade : world.made = (heap.add values).made.length) :
    Housed (heap.add values) { machine with world } :=
  ⟨hmade, fun index constant hconstant => (housed.constants index constant hconstant).add values,
    fun value member => (housed.stack value member).add values,
    fun value member => (housed.globals value member).add values,
    fun frame member => (housed.calls frame member).add values⟩

theorem advance (housed : Housed heap machine) (instruction : Instruction) :
    Housed heap (machine.advance instruction) :=
  ⟨housed.made, housed.constants, housed.stack, housed.globals,
    List.forall_mem_cons.mpr (List.forall_mem_cons.mp housed.calls)⟩

theorem cut (housed : Housed heap machine) (sp : Nat) : Housed heap { machine with sp } :=
  ⟨housed.made, housed.constants, housed.stack, housed.globals, housed.calls⟩

theorem again (housed : Housed heap machine) (steps : Nat) : Housed heap { machine with steps } :=
  ⟨housed.made, housed.constants, housed.stack, housed.globals, housed.calls⟩

theorem write (housed : Housed heap machine) (slot : Nat) {value : Value}
    (lives : value.Lives heap.find?) :
    Housed heap { machine with stack := machine.stack.setIfInBounds slot value } :=
  ⟨housed.made, housed.constants, forall_setIfInBounds housed.stack slot lives, housed.globals,
    housed.calls⟩

theorem bind (housed : Housed heap machine) (index : Nat) {value : Value}
    (lives : value.Lives heap.find?) :
    Housed heap { machine with globals := machine.globals.setIfInBounds index value } :=
  ⟨housed.made, housed.constants, housed.stack, forall_setIfInBounds housed.globals index lives,
    housed.calls⟩

theorem goto (housed : Housed heap machine) (ip : Nat) :
    Housed heap { machine with frame := { machine.frame with ip } } := by
  refine ⟨housed.made, housed.constants, housed.stack, housed.globals, ?_⟩
  exact List.forall_mem_cons.mpr (List.forall_mem_cons.mp housed.calls)

theorem slot (housed : Housed heap machine) (slot : Nat) :
    (machine.stack.getD slot Value.null).Lives heap.find? :=
  forall_getD housed.stack lives_null slot

end Housed

theorem mem_hashEntries {entries later : Entries (Value × Value)} {run : List Value}
    (hmade : hashEntries entries run = .ok later) :
    ∀ entry ∈ later, (entry.2.1 ∈ run ∧ entry.2.2 ∈ run) ∨ entry ∈ entries := by
  induction entries, run using hashEntries.induct with
  | case1 entries key value rest hkey => simp [hashEntries, hkey] at hmade
  | case2 entries key value rest hashKey hkey ih =>
      rw [hashEntries, hkey] at hmade
      intro entry member
      rcases ih hmade entry member with ⟨hfirst, hsecond⟩ | hbefore
      · exact .inl ⟨by simp [hfirst], by simp [hsecond]⟩
      · rcases Entries.mem_insert hbefore with rfl | hold
        · exact .inl ⟨by simp, by simp⟩
        · exact .inr hold
  | case3 entries run hshort =>
      rw [hashEntries] at hmade
      · cases hmade
        exact fun entry member => .inr member
      · exact hshort

theorem lives_lookUp {heap : Heap} {container index value : Value}
    (lives : container.Lives heap.find?) (hvalue : lookUp container index = .ok value) :
    value.Lives heap.find? := by
  unfold lookUp at hvalue
  split at hvalue
  next =>
    cases hvalue
    split
    next => exact lives_null
    next => exact Lives.getD (fun item member => lives.part member) _
  next =>
    split at hvalue
    next => cases hvalue
    next =>
      cases hvalue
      split
      next hfound => exact (lives.entry (Entries.mem_of_find? hfound)).2
      next => exact lives_null
  next => cases hvalue

/-- The step leaves everything in the machine in one heap, also if it stops the run. -/
def Keeps {α : Type} (heap : Heap) (step : MachineM α) (machine : Machine) : Prop :=
  Meets step machine (fun _ after => Coherent heap.pools after) fun _ after =>
    Coherent heap.pools after

section

variable {α β : Type} {heap : Heap} {machine : Machine} (housed : Housed heap machine)

theorem get_keeps {next : Machine → MachineM β} (hnext : Keeps heap (next machine) machine) :
    Keeps heap (get >>= next) machine :=
  .bind hnext

theorem modify_keeps {next : Unit → MachineM β} {change : Machine → Machine}
    (hnext : Keeps heap (next ()) (change machine)) : Keeps heap (modify change >>= next) machine :=
  .bind hnext

include housed

theorem stop_keeps (stop : Stop) : Keeps heap (throw stop : MachineM α) machine :=
  housed.coherent

theorem push_keeps {value : Value} (lives : value.Lives heap.find?) :
    Keeps heap (push value) machine := by
  apply get_keeps
  split
  next => exact ((housed.write machine.sp lives).cut _).coherent
  next => exact stop_keeps housed _

theorem plain_keeps {value : Value} (hplain : value.ref? = none) :
    Keeps heap (push value) machine :=
  push_keeps housed (lives_of_plain hplain)

theorem pop_lives :
    Meets pop machine (fun value after => value.Lives heap.find? ∧ Housed heap after) fun _ after =>
      Coherent heap.pools after := by
  apply Meets.bind
  cases hsp : machine.sp with
  | zero =>
      simp only [Meets, run_get, hsp]
      exact housed.coherent
  | succ sp =>
      simp only [Meets, run_get, hsp]
      exact ⟨housed.slot sp, housed.cut sp⟩

theorem pop_keeps {next : Value → MachineM β}
    (hnext : ∀ value after, value.Lives heap.find? → Housed heap after →
      Keeps heap (next value) after) :
    Keeps heap (pop >>= next) machine :=
  (pop_lives housed).andThen (fun value after h => hnext value after h.1 h.2) fun _ _ h => h

theorem takeRun_keeps (count : Nat) {next : List Value → MachineM β}
    (hnext : ∀ values after, (∀ value ∈ values, value.Lives heap.find?) → Housed heap after →
      Keeps heap (next values) after) :
    Keeps heap (takeRun count >>= next) machine := by
  apply Meets.bind
  apply Meets.bind
  change Meets (if _ then _ else _) _ _ _
  split
  next =>
    exact hnext _ _ (fun value member => housed.stack value (mem_of_mem_extract member))
      (housed.cut _)
  next => exact housed.coherent

theorem make_keeps {value : Ref → Value} (href : ∀ ref, (value ref).ref? = some ref)
    (hparts : ∀ ref, ∀ part ∈ (value ref).parts, part.Lives heap.find?) :
    Keeps heap (newRef >>= fun ref => push (value ref)) machine := by
  apply Meets.bind
  rw [Meets]
  -- The reference is given out before it is known whether the stack has room for the value, so the
  -- value is in the new heap in any case.
  change Keeps (heap.add [value (.made machine.world.made)]) (push (value (.made machine.world.made)))
    { machine with world := { machine.world with made := machine.world.made + 1 } }
  have hnew : (value (.made machine.world.made)).ref? = some (.made heap.made.length) := by
    rw [href, housed.made]
  refine push_keeps (housed.add _ ?_) (.made hnew (hparts _))
  simpa using housed.made

theorem arithmetic_keeps (op : Arithmetic) : Keeps heap (arithmetic op) machine := by
  refine pop_keeps housed fun right _ _ housed => pop_keeps housed fun left _ _ housed => ?_
  split
  next =>
    split
    next => exact plain_keeps housed rfl
    next => exact stop_keeps housed _
  next =>
    split
    next => exact make_keeps housed (fun _ => rfl) fun _ _ member => absurd member List.not_mem_nil
    next => exact stop_keeps housed _
  next => exact stop_keeps housed _

theorem callClosure_keeps {ref : Ref} {template : Template} {captured : List Value} (count : Nat)
    (lives : (Value.closure ref template captured).Lives heap.find?) :
    Keeps heap (callClosure ref template captured count) machine := by
  apply get_keeps
  dsimp only
  split
  next => exact stop_keeps housed _
  next =>
    split
    next => exact stop_keeps housed _
    next =>
      split
      next => exact stop_keeps housed _
      next =>
        split
        next => exact stop_keeps housed _
        next =>
          refine Housed.coherent ⟨housed.made, housed.constants, housed.stack, housed.globals, ?_⟩
          exact List.forall_mem_cons.mpr ⟨lives, housed.calls⟩

theorem callBuiltin_keeps (builtin : Builtin) (count : Nat) :
    Keeps heap (callBuiltin builtin count) machine := by
  apply get_keeps
  dsimp only
  split
  next => exact stop_keeps housed _
  next result world hrun =>
    have harguments : ∀ value ∈ (machine.stack.extract (machine.sp - count) machine.sp).toList,
        value.Lives heap.find? :=
      fun value member => housed.stack value (mem_of_mem_extract member)
    obtain ⟨values, hmade, lives⟩ :=
      Builtin.apply_stores harguments builtin _ _ _ hrun housed.made
    apply modify_keeps
    exact push_keeps ((housed.add values hmade).cut _) lives

theorem call_keeps (count : Nat) : Keeps heap (call count) machine := by
  apply get_keeps
  split
  next => exact stop_keeps housed _
  next =>
    split
    next hclosure => exact callClosure_keeps housed count (hclosure ▸ housed.slot _)
    next => exact callBuiltin_keeps housed _ count
    next => exact stop_keeps housed _

theorem leave_keeps {result : Value} (lives : result.Lives heap.find?) :
    Keeps heap (leave result) machine := by
  apply get_keeps
  cases hcallers : machine.callers with
  | nil => exact stop_keeps housed _
  | cons caller callers =>
      have hcalls := housed.calls
      rw [frames, hcallers] at hcalls
      have hleft : Housed heap { machine with frame := caller, callers } :=
        ⟨housed.made, housed.constants, housed.stack, housed.globals,
          (List.forall_mem_cons.mp hcalls).2⟩
      apply modify_keeps
      exact push_keeps (hleft.cut _) lives

theorem execute_keeps (instruction : Instruction) :
    Keeps heap (execute instruction) machine := by
  obtain ⟨op, operands⟩ := instruction
  cases op with
  | constant =>
      apply get_keeps
      split
      next => exact stop_keeps housed _
      next hconstant => exact push_keeps housed (housed.constants _ _ hconstant)
  | pop =>
      apply Meets.discard
      exact (pop_lives housed).mono (fun _ _ h => h.2.coherent) fun _ _ h => h
  | add => exact arithmetic_keeps housed .add
  | sub => exact arithmetic_keeps housed .sub
  | mul => exact arithmetic_keeps housed .mul
  | div => exact arithmetic_keeps housed .div
  | pushTrue | pushFalse | pushNull => exact plain_keeps housed rfl
  | equal | notEqual =>
      refine pop_keeps housed fun right _ _ housed => pop_keeps housed fun left _ _ housed => ?_
      exact plain_keeps housed rfl
  | greaterThan =>
      refine pop_keeps housed fun right _ _ housed => pop_keeps housed fun left _ _ housed => ?_
      split
      next => exact plain_keeps housed rfl
      next => exact stop_keeps housed _
  | not => exact pop_keeps housed fun _ _ _ housed => plain_keeps housed rfl
  | negate =>
      refine pop_keeps housed fun _ _ _ housed => ?_
      split
      next => exact plain_keeps housed rfl
      next => exact stop_keeps housed _
  | jump => exact (housed.goto _).coherent
  | jumpNotTruthy =>
      refine pop_keeps housed fun condition _ _ housed => ?_
      cases condition.isTruthy with
      | true => exact housed.coherent
      | false => exact (housed.goto _).coherent
  | getGlobal =>
      apply get_keeps
      split
      next => exact stop_keeps housed _
      next hvalue => exact push_keeps housed (housed.globals _ (Array.mem_of_getElem? hvalue))
  | setGlobal =>
      refine pop_keeps housed fun value _ lives housed => get_keeps ?_
      split
      next => exact (housed.bind _ lives).coherent
      next => exact stop_keeps housed _
  | getLocal =>
      apply get_keeps
      split
      next => exact stop_keeps housed _
      next hvalue => exact push_keeps housed (housed.stack _ (Array.mem_of_getElem? hvalue))
  | setLocal =>
      refine pop_keeps housed fun value _ lives housed => get_keeps ?_
      split
      next => exact (housed.write _ lives).coherent
      next => exact stop_keeps housed _
  | getFree =>
      apply get_keeps
      split
      next => exact stop_keeps housed _
      next hvalue =>
        have lives := housed.calls machine.frame List.mem_cons_self
        exact push_keeps housed (lives.part (List.mem_of_getElem? hvalue))
  | getBuiltin =>
      simp only [execute]
      split
      next => exact stop_keeps housed _
      next => exact plain_keeps housed rfl
  | currentClosure =>
      exact get_keeps (push_keeps housed (housed.calls machine.frame List.mem_cons_self))
  | array =>
      refine takeRun_keeps housed _ fun items _ lives housed => ?_
      exact make_keeps housed (fun _ => rfl) fun _ => lives
  | hash =>
      refine takeRun_keeps housed _ fun run _ lives housed => ?_
      split
      next => exact stop_keeps housed _
      next entries hentries =>
        refine make_keeps housed (fun _ => rfl) fun _ part member => ?_
        obtain ⟨entry, hentry, hpart⟩ := mem_parts_hash.mp member
        rcases mem_hashEntries hentries entry hentry with ⟨hkey, hvalue⟩ | hnone
        · rcases hpart with rfl | rfl
          · exact lives _ hkey
          · exact lives _ hvalue
        · cases hnone
  | index =>
      refine pop_keeps housed fun index _ _ housed => ?_
      refine pop_keeps housed fun container _ lives housed => ?_
      split
      next => exact stop_keeps housed _
      next hvalue => exact push_keeps housed (lives_lookUp lives hvalue)
  | call => exact call_keeps housed _
  | returnValue => exact pop_keeps housed fun _ _ lives housed => leave_keeps housed lives
  | returnNull => exact leave_keeps housed lives_null
  | closure =>
      apply get_keeps
      split
      next => exact stop_keeps housed _
      next =>
        refine takeRun_keeps housed _ fun captured _ lives housed => ?_
        exact make_keeps housed (fun _ => rfl) fun _ => lives
      next => exact stop_keeps housed _

end

theorem Coherent.step {pools : Nat → Array Constant} {machine : Machine}
    (coherent : machine.Coherent pools) :
    Meets Machine.step machine (fun _ after => after.Coherent pools)
      (fun _ after => after.Coherent pools) := by
  obtain ⟨made, housed⟩ := coherent
  exact step_meets_of housed.coherent (fun _ => housed.coherent)
    (fun _ instruction _ => (housed.advance instruction).coherent)
    fun instruction _ => execute_keeps (housed.advance instruction) instruction

theorem Coherent.again {pools : Nat → Array Constant} {machine : Machine}
    (coherent : machine.Coherent pools) : Coherent pools { machine with steps := 0 } :=
  coherent.imp fun _ housed => housed.again 0

theorem Coherent.visits {pools : Nat → Array Constant} {start machine : Machine}
    (coherent : start.Coherent pools) (visits : Visits start machine) : machine.Coherent pools :=
  visits.always coherent (fun _ => step) fun _ => again

theorem start_coherent {heap : Heap} {bytecode : Bytecode} {pool : Nat} {globals : Array Value}
    {world : World} (config : Config) (hmade : world.made = heap.made.length)
    (hconstants : ∀ (index : Nat) (constant : Constant),
      bytecode.constants[index]? = some constant → (heap.pools pool)[index]? = some constant)
    (hglobals : ∀ value ∈ globals, value.Lives heap.find?) :
    (start bytecode pool globals config world).Coherent heap.pools := by
  have href : (start bytecode pool globals config world).frame.closure.ref? =
      some (.made heap.made.length) := by
    rw [← hmade]
    rfl
  refine ⟨heap.made ++ [(start bytecode pool globals config world).frame.closure],
    ?_, ?_, ?_, ?_, ?_⟩
  · rw [List.length_append, ← hmade]
    rfl
  · exact fun index constant hconstant =>
      (lives_constant (hconstants index constant hconstant)).add _
  · intro value member
    rw [Array.eq_of_mem_replicate member]
    exact lives_null
  · exact forall_extendGlobals (fun value member => (hglobals value member).add _) lives_null _
  · intro frame member
    rw [List.mem_singleton.mp member]
    exact .made href fun part hnone => absurd hnone List.not_mem_nil

/-- The values that a machine can come by: those on its stack, also where it is not in use, its globals
and constants, the closures that run, and what these are made of. -/
inductive Holds (machine : Machine) : Value → Prop where
  | stack {value : Value} (member : value ∈ machine.stack) : Holds machine value
  | global {value : Value} (member : value ∈ machine.globals) : Holds machine value
  | constant {index : Nat} {constant : Constant}
      (hconstant : machine.constants[index]? = some constant) :
      Holds machine (constant.toValue machine.pool index)
  | running {frame : Frame} (member : frame ∈ machine.frames) : Holds machine frame.closure
  | part {value part : Value} (holds : Holds machine value) (member : part ∈ value.parts) :
      Holds machine part

theorem Housed.lives {heap : Heap} {machine : Machine} {value : Value} (housed : Housed heap machine)
    (holds : machine.Holds value) : value.Lives heap.find? := by
  induction holds with
  | stack member => exact housed.stack _ member
  | global member => exact housed.globals _ member
  | constant hconstant => exact housed.constants _ _ hconstant
  | running member => exact housed.calls _ member
  | part _ member ih => exact ih.part member

theorem Coherent.same_of_identical {pools : Nat → Array Constant} {machine : Machine}
    {left right : Value} (coherent : machine.Coherent pools) (hleft : machine.Holds left)
    (hright : machine.Holds right) (hidentical : left.identical right = true) :
    left.same right = true := by
  obtain ⟨made, housed⟩ := coherent
  exact (housed.lives hleft).stored.same_of_identical (housed.lives hright).stored hidentical

end Machine

end Stacklang
