import Stacklang.Proofs.Machine.Visits

namespace Stacklang.Machine

open Fallible Instruction

inductive Passes (start : Machine) : Machine → Prop where
  | start : Passes start start
  | step {before after : Machine} (passes : Passes start before)
      (hstep : Machine.step.run before = (.ok true, after)) : Passes start after

def afterSteps (machine : Machine) : Nat → Machine
  | 0 => machine
  | count + 1 => (step.run (machine.afterSteps count)).2

theorem step_afterSteps {machine : Machine} {count : Nat}
    (hmore : (step.run (machine.afterSteps count)).1 = .ok true) :
    step.run (machine.afterSteps count) = (.ok true, machine.afterSteps (count + 1)) := by
  rw [← hmore]
  rfl

theorem passes_afterSteps {machine : Machine} {count : Nat}
    (hmore : ∀ less < count, (step.run (machine.afterSteps less)).1 = .ok true) :
    Passes machine (machine.afterSteps count) := by
  induction count with
  | zero => exact .start
  | succ count ih =>
      refine (ih fun less hless => hmore less (by omega)).step (step_afterSteps ?_)
      exact hmore count (Nat.lt_succ_self _)

section

variable {holds : Machine → Prop}
  (hstep : ∀ machine, holds machine →
    Meets Machine.step machine (fun _ after => holds after) fun _ after => holds after)

include hstep

theorem Passes.always {start machine : Machine} (passes : Passes start machine)
    (hstart : holds start) : holds machine := by
  induction passes with
  | start => exact hstart
  | step _ hrun ih =>
      have hmeets := hstep _ ih
      rwa [Meets, hrun] at hmeets

theorem run_always (fuel : Nat) {machine : Machine} (hstart : holds { machine with steps := 0 }) :
    holds (run fuel machine).2 := by
  have hkeeps := runFor_keeps
    (fun machine hholds => (hstep machine hholds).mono (fun _ _ h => ⟨fun _ => h, fun _ => h⟩)
      fun _ _ h => h) fuel hstart
  rw [Machine.run]
  cases hrun : runFor fuel { machine with steps := 0 } with
  | mk outcome after =>
      rw [hrun] at hkeeps
      cases outcome with
      | finished | unfinished => exact hkeeps
      | crashed | failed error =>
          obtain ⟨stop, -, hafter⟩ := hkeeps
          exact hafter

end

def templates (machine : Machine) : List Template :=
  machine.frames.map Frame.template

/-- What a step can do to the functions that are around: every closure has the property, and the calls in
progress are those that were, or there is one more, of a closure, or one less. -/
structure Kept (property : Template → Prop) (before after : Machine) : Prop where
  sound : after.Sound fun template _ => property template
  constants : after.constants = before.constants
  templates : after.templates = before.templates ∨
    (∃ template, property template ∧ after.templates = template :: before.templates) ∨
    ∃ template, before.templates = template :: after.templates

section

variable {property : Template → Prop} {machine after : Machine} {instruction : Instruction}

theorem Sound.kept (sound : machine.Sound fun template _ => property template) :
    Kept property machine machine :=
  ⟨sound, rfl, .inl rfl⟩

theorem Beside.kept {middle : Machine} {height : Nat}
    (beside : Beside (fun template _ => property template) middle height after)
    (hconstants : middle.constants = machine.constants)
    (htemplates : middle.templates = machine.templates) : Kept property machine after := by
  refine ⟨beside.sound, beside.alike.constants.trans hconstants, .inl ?_⟩
  rw [templates, frames, beside.frame, beside.callers, ← frames, ← templates, htemplates]

theorem Effect.kept (effect : Effect (fun template _ => property template)
    (machine.advance instruction) instruction after) : Kept property machine after := by
  cases effect with
  | worked _ _ beside | jumped _ _ beside => exact beside.kept rfl rfl
  | @called template ref captured _ _ _ sound alike hframe _ hcallers _ =>
      have hcalls := sound.calls
      rw [hframe, hcallers] at hcalls
      refine ⟨sound, alike.constants, .inr (.inl ⟨template, hcalls.2.2.1, ?_⟩)⟩
      rw [templates, frames, hframe, hcallers]
      rfl
  | returned _ _ sound alike hcallers _ =>
      refine ⟨sound, alike.constants, .inr (.inr ⟨machine.frame.template, ?_⟩)⟩
      change _ :: List.map _ (machine.advance instruction).callers = _
      rw [hcallers]
      rfl

theorem step_kept (sound : machine.Sound fun template _ => property template)
    (hcurrent : ∀ instruction,
      machine.frame.template.code.fetch? machine.frame.ip = some (.ok instruction) →
      instruction.op = .currentClosure → property machine.frame.template)
    (hfunctions : ∀ template, .function template ∈ machine.constants → property template) :
    Meets step machine (fun _ after => Kept property machine after)
      (fun _ after => Kept property machine after) := by
  refine step_meets_of sound.kept (fun _ => sound.kept)
    (fun _ instruction _ => ⟨sound.advance instruction, rfl, .inl rfl⟩) ?_
  intro instruction hfetch
  have hexecutes := execute_executes (sound.advance instruction) instruction
    (hcurrent instruction hfetch) fun _ template hfound =>
      hfunctions template (Array.mem_of_getElem? hfound)
  refine hexecutes.mono (fun _ _ heffect => heffect.kept) ?_
  rintro stop after ⟨-, height, hbeside⟩
  exact hbeside.kept rfl rfl

end

/-- The functions among the constants, those of the calls in progress and those of all closures that
are around have the property. -/
structure Everywhere (property : Template → Prop) (machine : Machine) : Prop where
  sound : machine.Sound fun template _ => property template
  functions : ∀ template, .function template ∈ machine.constants → property template
  calls : ∀ template ∈ machine.templates, property template

variable {property : Template → Prop}

theorem start_everywhere {bytecode : Bytecode} (hmain : property ⟨bytecode.code, 0, 0⟩)
    (hfunctions : ∀ template, .function template ∈ bytecode.constants → property template)
    (pool : Nat) {globals : Array Value}
    (hglobals : ∀ value ∈ globals, value.Good fun template _ => property template)
    (config : Config) (world : World) :
    (start bytecode pool globals config world).Everywhere property := by
  refine ⟨start_sound bytecode pool hglobals config world, hfunctions, ?_⟩
  intro template member
  rw [List.mem_singleton.mp member]
  exact hmain

namespace Everywhere

variable {machine before after : Machine}

theorem again (everywhere : machine.Everywhere property) :
    Everywhere property { machine with steps := 0 } :=
  ⟨everywhere.sound.again, everywhere.functions, everywhere.calls⟩

theorem kept (everywhere : before.Everywhere property) (kept : Kept property before after) :
    after.Everywhere property := by
  refine ⟨kept.sound, by rw [kept.constants]; exact everywhere.functions, ?_⟩
  rcases kept.templates with hsame | ⟨template, hproperty, hmore⟩ | ⟨template, hless⟩
  · rw [hsame]
    exact everywhere.calls
  · rw [hmore]
    exact List.forall_mem_cons.mpr ⟨hproperty, everywhere.calls⟩
  · have hcalls := everywhere.calls
    rw [hless] at hcalls
    exact (List.forall_mem_cons.mp hcalls).2

theorem step (everywhere : machine.Everywhere property) :
    Meets Machine.step machine (fun _ after => after.Everywhere property)
      (fun _ after => after.Everywhere property) :=
  (step_kept everywhere.sound (fun _ _ _ => everywhere.calls _ List.mem_cons_self)
    everywhere.functions).mono (fun _ _ => everywhere.kept) fun _ _ => everywhere.kept

theorem passes {start : Machine} (everywhere : start.Everywhere property)
    (passes : Passes start machine) : machine.Everywhere property :=
  passes.always (fun _ => step) everywhere

theorem run (everywhere : machine.Everywhere property) (fuel : Nat) :
    (Machine.run fuel machine).2.Everywhere property :=
  run_always (fun _ => step) fuel everywhere.again

end Everywhere

end Stacklang.Machine
