import Stacklang.Machine.Run
import Stacklang.Proofs.Builtin.Related
import Stacklang.Proofs.Fallible

namespace Stacklang

def Link.of (property : Template → Nat → Prop) : Link Template Template where
  function := Eq
  closure body other count := body = other ∧ property body count
  function_parameters := by
    rintro body _ rfl
    rfl
  closure_parameters := by
    rintro body _ count ⟨rfl, -⟩
    rfl

namespace Value

def Good (property : Template → Nat → Prop) (value : Value) : Prop :=
  Related (.of property) value value

variable {property : Template → Nat → Prop}

theorem forall₂_good {items : List Value} :
    List.Forall₂ (Related (.of property)) items items ↔ ∀ item ∈ items, item.Good property :=
  List.forall₂_same

theorem good_array {ref : Ref} {items : List Value} :
    (Value.array ref items).Good property ↔ ∀ item ∈ items, item.Good property := by
  constructor
  · intro good
    cases good with
    | array _ hitems => exact forall₂_good.mp hitems
  · exact fun hitems => .array ref (forall₂_good.mpr hitems)

theorem good_closure {ref : Ref} {template : Template} {captured : List Value} :
    (Value.closure ref template captured).Good property ↔
      property template captured.length ∧ ∀ value ∈ captured, value.Good property := by
  constructor
  · intro good
    cases good with
    | closure _ hbody hcaptured => exact ⟨hbody.2, forall₂_good.mp hcaptured⟩
  · exact fun h => .closure ref ⟨rfl, h.1⟩ (forall₂_good.mpr h.2)

theorem good_constant (constant : Constant) (pool index : Nat) :
    (constant.toValue pool index).Good property := by
  cases constant with
  | integer value => exact .integer value
  | string text => exact .string _ text
  | function template => exact .function _ rfl

theorem Good.mono {wider : Template → Nat → Prop} {value : Value} (good : value.Good property)
    (hwider : ∀ {template count}, property template count → wider template count) :
    value.Good wider := by
  have hfunction : ∀ {template other}, (Link.of property).function template other →
      (Link.of wider).function template other := fun h => h
  have hclosure : ∀ {template other count}, (Link.of property).closure template other count →
      (Link.of wider).closure template other count := fun h => ⟨h.1, hwider h.2⟩
  exact Related.mono hfunction hclosure value good

end Value

theorem Builtin.apply_good {property : Template → Nat → Prop} (builtin : Builtin)
    {arguments : List Value} (good : ∀ argument ∈ arguments, argument.Good property)
    (world : World) :
    match (builtin.apply arguments).run world with
    | .ok (result, _) => (result.getD .null).Good property
    | .error fault => fault.ofLanguage = true := by
  have hagree := apply_agree (Value.forall₂_good.mpr good) builtin world
  generalize (builtin.apply arguments).run world = outcome at hagree
  cases hagree with
  | ok hresult => exact Machine.getD_related hresult.1
  | error fault hfault => exact hfault

namespace Machine

variable {property : Template → Nat → Prop}

theorem hashEntries_good {run : List Value} (good : ∀ value ∈ run, value.Good property) :
    match hashEntries [] run with
    | .ok entries => ∀ ref, (Value.hash ref entries).Good property
    | .error fault => fault.ofLanguage = true := by
  have hrelated := hashEntries_related .nil
    (Value.forall₂_good.mpr good)
  generalize hashEntries [] run = outcome at hrelated
  cases hrelated with
  | ok hentries => exact fun ref => .ofEntries ref hentries
  | error fault hfault => exact hfault

theorem lookUp_good {container index : Value} (hcontainer : container.Good property)
    (hindex : index.Good property) :
    match lookUp container index with
    | .ok value => value.Good property
    | .error fault => fault.ofLanguage = true := by
  have hrelated := lookUp_related hcontainer hindex
  generalize lookUp container index = outcome at hrelated
  cases hrelated with
  | ok hvalue => exact hvalue
  | error fault hfault => exact hfault

/-- The calls of functions among the calls in progress, of which the last is the main program: each
has its callee below its locals, and slots for all of these. -/
def Calls (property : Template → Nat → Prop) (slots : Nat) : Frame → List Frame → Prop
  | _, [] => True
  | frame, caller :: callers =>
      1 ≤ frame.base ∧ frame.base + frame.template.locals ≤ slots ∧
        property frame.template frame.captured.length ∧ Calls property slots caller callers

structure Sound (property : Template → Nat → Prop) (machine : Machine) : Prop where
  stack : ∀ value ∈ machine.stack, value.Good property
  globals : ∀ value ∈ machine.globals, value.Good property
  captured : ∀ frame ∈ machine.frames, ∀ value ∈ frame.captured, value.Good property
  inside : machine.sp ≤ machine.stack.size
  calls : Calls property machine.stack.size machine.frame machine.callers

section

variable {holds : Value → Prop} {values : Array Value} (hall : ∀ value ∈ values, holds value)

include hall

theorem forall_getD (hnull : holds .null) (slot : Nat) : holds (values.getD slot Value.null) := by
  rw [Array.getD_eq_getD_getElem?]
  cases hslot : values[slot]? with
  | none => exact hnull
  | some value => exact hall value (Array.mem_of_getElem? hslot)

theorem forall_setIfInBounds (slot : Nat) {value : Value} (hvalue : holds value) :
    ∀ other ∈ values.setIfInBounds slot value, holds other := by
  intro other member
  rcases Array.mem_or_eq_of_mem_setIfInBounds member with member | rfl
  · exact hall other member
  · exact hvalue

theorem forall_extendGlobals (hnull : holds .null) (size : Nat) :
    ∀ value ∈ extendGlobals values size, holds value := by
  intro value member
  rcases Array.mem_append.mp member with member | member
  · exact hall value member
  · rw [Array.eq_of_mem_replicate member]
    exact hnull

end

theorem start_sound (bytecode : Bytecode) (pool : Nat) {globals : Array Value}
    (hglobals : ∀ value ∈ globals, value.Good property) (config : Config) (world : World) :
    (start bytecode pool globals config world).Sound property := by
  refine ⟨?_, forall_extendGlobals hglobals .null _, ?_, Nat.zero_le _, trivial⟩
  · intro value member
    rw [Array.eq_of_mem_replicate member]
    exact .null
  · intro frame member
    rw [List.mem_singleton.mp member]
    simp [start]

theorem Sound.again {machine : Machine} (sound : machine.Sound property) :
    Sound property { machine with steps := 0 } :=
  ⟨sound.stack, sound.globals, sound.captured, sound.inside, sound.calls⟩

theorem Sound.goto {machine : Machine} (sound : machine.Sound property) (ip : Nat) :
    Sound property { machine with frame := { machine.frame with ip } } := by
  refine ⟨sound.stack, sound.globals, ?_, sound.inside, ?_⟩
  · intro frame member
    rcases List.mem_cons.mp member with rfl | member
    · exact sound.captured machine.frame (by simp [frames])
    · exact sound.captured frame (by simp [frames, member])
  · have hcalls := sound.calls
    cases hcallers : machine.callers with
    | nil => trivial
    | cons caller callers =>
        rw [hcallers] at hcalls
        exact hcalls

/-- What no instruction changes: the sizes of the stack and of the globals, the constants and the
limits. -/
structure Alike (before after : Machine) : Prop where
  slots : after.stack.size = before.stack.size
  globals : after.globals.size = before.globals.size
  constants : after.constants = before.constants
  config : after.config = before.config

theorem Alike.refl (machine : Machine) : Alike machine machine :=
  ⟨rfl, rfl, rfl, rfl⟩

theorem Alike.trans {first second third : Machine} (hleft : Alike first second)
    (hright : Alike second third) : Alike first third :=
  ⟨hright.slots.trans hleft.slots, hright.globals.trans hleft.globals,
    hright.constants.trans hleft.constants, hright.config.trans hleft.config⟩

/-- The machine `after` is in the same calls as `before`; its stack has come to a given height. -/
structure Beside (property : Template → Nat → Prop) (before : Machine) (height : Nat)
    (after : Machine) : Prop where
  sound : after.Sound property
  sp : after.sp = height
  frame : after.frame = before.frame
  callers : after.callers = before.callers
  alike : Alike before after

theorem Sound.beside {machine : Machine} (sound : machine.Sound property) :
    Beside property machine machine.sp machine :=
  ⟨sound, rfl, rfl, rfl, .refl _⟩

section

variable {before machine : Machine} {height : Nat} (beside : Beside property before height machine)

include beside

theorem Beside.cut (sp : Nat) (hsp : sp ≤ height) :
    Beside property before sp { machine with sp } :=
  ⟨⟨beside.sound.stack, beside.sound.globals, beside.sound.captured,
      Nat.le_trans hsp (beside.sp ▸ beside.sound.inside), beside.sound.calls⟩,
    rfl, beside.frame, beside.callers, beside.alike.trans ⟨rfl, rfl, rfl, rfl⟩⟩

theorem Beside.write (slot : Nat) {value : Value} (hvalue : value.Good property) :
    Beside property before height
      { machine with stack := machine.stack.setIfInBounds slot value } :=
  ⟨⟨forall_setIfInBounds beside.sound.stack slot hvalue, beside.sound.globals,
      beside.sound.captured, by simpa using beside.sound.inside, by simpa using beside.sound.calls⟩,
    beside.sp, beside.frame, beside.callers, beside.alike.trans ⟨by simp, rfl, rfl, rfl⟩⟩

theorem Beside.writeGlobal (index : Nat) {value : Value} (hvalue : value.Good property) :
    Beside property before height
      { machine with globals := machine.globals.setIfInBounds index value } :=
  ⟨⟨beside.sound.stack, forall_setIfInBounds beside.sound.globals index hvalue,
      beside.sound.captured, beside.sound.inside, beside.sound.calls⟩,
    beside.sp, beside.frame, beside.callers, beside.alike.trans ⟨rfl, by simp, rfl, rfl⟩⟩

theorem Beside.move (world : World) : Beside property before height { machine with world } :=
  ⟨⟨beside.sound.stack, beside.sound.globals, beside.sound.captured, beside.sound.inside,
      beside.sound.calls⟩,
    beside.sp, beside.frame, beside.callers, beside.alike.trans ⟨rfl, rfl, rfl, rfl⟩⟩

end

end Machine

end Stacklang
