import Stacklang.Proofs.Compile.Globals
import Stacklang.Proofs.Machine.Cut
import Stacklang.Proofs.Machine.Everywhere
import Stacklang.Proofs.Machine.Moves
import Stacklang.Proofs.Machine.Verified

namespace Stacklang.Machine

open Fallible Instruction

structure Usable (constants : Array Constant) (reach : Nat) (template : Template) : Prop where
  proper : Proper constants template
  touches : template.code.Touches none reach

/-- The invariant of machines that run such bytecode, if there are no other globals. The main program
stores in its own globals, the functions in none. -/
structure Bounded (own reach : Nat) (machine : Machine) : Prop where
  verified : machine.Verified
  sound : machine.Sound fun template _ => Usable machine.constants reach template
  functions : ∀ template, .function template ∈ machine.constants →
    Usable machine.constants reach template
  calls : ∃ inner main, machine.templates = inner ++ [main] ∧
    (∀ template ∈ inner, template.code.Touches none reach) ∧ main.code.Touches (some own) reach

namespace Bounded

variable {own reach : Nat} {machine : Machine} {instruction : Instruction}

theorem fetch (bounded : machine.Bounded own reach)
    (hfetch : machine.frame.template.code.fetch? machine.frame.ip = some (.ok instruction)) :
    machine.callers ≠ [] ∧ machine.frame.template.code.Touches none reach ∧
        instruction.Touches none reach ∨
      machine.callers = [] ∧ instruction.Touches (some own) reach := by
  obtain ⟨hproper, hboundary, -⟩ := bounded.verified.frames machine.frame List.mem_cons_self
  have member := hboundary.mem_scan hproper.stream.whole hfetch
  obtain ⟨inner, main, htemplates, hinner, hmain⟩ := bounded.calls
  cases inner with
  | nil =>
      obtain ⟨rfl, hcallers⟩ := List.cons.inj htemplates
      exact .inr ⟨List.map_eq_nil_iff.mp hcallers, hmain _ member⟩
  | cons template inner =>
      obtain ⟨rfl, hcallers⟩ := List.cons.inj htemplates
      have htouches := hinner _ List.mem_cons_self
      refine .inl ⟨?_, htouches, htouches _ member⟩
      intro hnone
      rw [hnone] at hcallers
      simp at hcallers

theorem step (bounded : machine.Bounded own reach) :
    Meets Machine.step machine
      (fun _ after => after.Bounded own reach ∧ after.constants = machine.constants)
      (fun _ after => after.Bounded own reach ∧ after.constants = machine.constants) := by
  have hkept : ∀ after, after.Verified → Kept (Usable machine.constants reach) machine after →
      after.Bounded own reach ∧ after.constants = machine.constants := by
    intro after hverified hkept
    refine ⟨⟨hverified, ?_, ?_, ?_⟩, hkept.constants⟩
    · rw [hkept.constants]
      exact hkept.sound
    · rw [hkept.constants]
      exact bounded.functions
    · obtain ⟨inner, main, htemplates, hinner, hmain⟩ := bounded.calls
      rcases hkept.templates with hsame | ⟨template, husable, hmore⟩ | ⟨template, hless⟩
      · exact ⟨inner, main, hsame.trans htemplates, hinner, hmain⟩
      · rw [htemplates] at hmore
        exact ⟨template :: inner, main, hmore,
          List.forall_mem_cons.mpr ⟨husable.touches, hinner⟩, hmain⟩
      · rw [htemplates] at hless
        cases inner with
        | nil => cases hless
        | cons _ inner =>
            obtain ⟨-, hafter⟩ := List.cons.inj hless
            exact ⟨inner, main, hafter.symm, (List.forall_mem_cons.mp hinner).2, hmain⟩
  refine (bounded.verified.step.and (step_kept bounded.sound ?_ bounded.functions)).mono ?_ ?_
  · intro instruction hfetch hop
    have hproper := (bounded.verified.frames machine.frame List.mem_cons_self).1
    rcases bounded.fetch hfetch with ⟨-, htouches, -⟩ | ⟨-, htouches⟩
    · exact ⟨hproper, htouches⟩
    · simp [Touches, hop] at htouches
  · exact fun _ after hstep => hkept after hstep.1 hstep.2
  · exact fun _ after hstep => hkept after hstep.1.2 hstep.2

end Bounded

theorem Moves.globals {before after : Machine} {instruction : Instruction} {index : Nat}
    (moves : Moves before instruction after)
    (hother : instruction.op = .setGlobal → instruction.operand 0 ≠ index) :
    after.globals[index]? = before.globals[index]? := by
  cases moves with
  | storesGlobal _ hop => exact Array.getElem?_setIfInBounds_ne (hother hop)
  | pushes | drops | jumps | storesLocal | enters | leaves => rfl

/-- Whether or not a step stops the run, it leaves a global alone unless it is an instruction to store
there. -/
theorem step_globals {machine : Machine} {index : Nat}
    (hother : ∀ instruction,
      machine.frame.template.code.fetch? machine.frame.ip = some (.ok instruction) →
      instruction.op = .setGlobal → instruction.operand 0 ≠ index) :
    (Machine.step.run machine).2.globals[index]? = machine.globals[index]? := by
  have hmakes := step_makes machine
  unfold Meets at hmakes
  cases hrun : Machine.step.run machine with
  | mk outcome after =>
      rw [hrun] at hmakes
      cases outcome with
      | ok more =>
          cases more with
          | false => rw [hmakes.1 rfl]
          | true =>
              obtain ⟨instruction, hfetch, moves⟩ := hmakes.2 rfl
              exact moves.globals (hother instruction hfetch)
      | error stop =>
          rcases hmakes with hrests | ⟨instruction, -, hrests⟩
          · rw [hrests.globals]
          · rw [hrests.globals]
            rfl

/-- What a run of such bytecode has come to from its start. All closures, also those in the other
globals, come from somewhere. -/
structure Confined (own reach : Nat) (origin : Template → Prop) (start machine : Machine) : Prop where
  bounded : (machine.cut reach).Bounded own reach
  sound : machine.Sound fun template _ => origin template
  functions : ∀ template, .function template ∈ machine.constants → origin template
  constants : machine.constants = start.constants
  outside : ∀ index, index < own ∨ reach ≤ index →
    machine.globals[index]? = start.globals[index]?

namespace Confined

variable {own reach : Nat} {origin : Template → Prop} {start machine : Machine}
  {instruction : Instruction}

theorem names (confined : Confined own reach origin start machine)
    (hfetch : machine.frame.template.code.fetch? machine.frame.ip = some (.ok instruction)) :
    (instruction.op = .getGlobal ∨ instruction.op = .setGlobal → instruction.operand 0 < reach) ∧
      (instruction.op = .setGlobal → own ≤ instruction.operand 0) := by
  constructor
  · rintro (hop | hop) <;> rcases confined.bounded.fetch hfetch with ⟨-, -, htouches⟩ | ⟨-, htouches⟩ <;>
      simp only [Touches, hop] at htouches
    · exact htouches
    · exact htouches
    · exact htouches.1
    · exact htouches.1
  · intro hop
    rcases confined.bounded.fetch hfetch with ⟨-, -, htouches⟩ | ⟨-, htouches⟩ <;>
      simp only [Touches, hop] at htouches
    · obtain ⟨-, _, hnone, -⟩ := htouches
      cases hnone
    · obtain ⟨-, _, ⟨⟩, hown⟩ := htouches
      exact hown

theorem called (confined : Confined own reach origin start machine) (hcall : machine.callers ≠ []) :
    origin machine.frame.template := by
  have hcalls := confined.sound.calls
  cases hcallers : machine.callers with
  | nil => exact absurd hcallers hcall
  | cons caller callers =>
      rw [hcallers] at hcalls
      exact hcalls.2.2.1

theorem current (confined : Confined own reach origin start machine)
    (hfetch : machine.frame.template.code.fetch? machine.frame.ip = some (.ok instruction))
    (hop : instruction.op = .currentClosure) : origin machine.frame.template := by
  rcases confined.bounded.fetch hfetch with ⟨hcall, -⟩ | ⟨-, htouches⟩
  · exact confined.called hcall
  · simp [Touches, hop] at htouches

theorem globals_called (confined : Confined own reach origin start machine)
    (hcall : machine.callers ≠ []) :
    (Machine.step.run machine).2.globals = machine.globals := by
  apply Array.ext_getElem?
  intro index
  apply step_globals
  intro instruction hfetch hop
  rcases confined.bounded.fetch hfetch with ⟨-, -, htouches⟩ | ⟨hmain, -⟩
  · simp only [Touches, hop] at htouches
    obtain ⟨-, _, hnone, -⟩ := htouches
    cases hnone
  · exact absurd hmain hcall

theorem step (confined : Confined own reach origin start machine) :
    Meets Machine.step machine (fun _ after => Confined own reach origin start after)
      (fun _ after => Confined own reach origin start after) := by
  have hbounded := confined.bounded.step
  rw [Meets, step_cut fun instruction hfetch => (confined.names hfetch).1] at hbounded
  have hkept := step_kept confined.sound (fun _ => confined.current) confined.functions
  have houtside : ∀ index, index < own ∨ reach ≤ index →
      (Machine.step.run machine).2.globals[index]? = start.globals[index]? := by
    intro index hindex
    refine (step_globals fun instruction hfetch hop => ?_).trans (confined.outside index hindex)
    have hnames := confined.names hfetch
    have hreach := hnames.1 (.inr hop)
    have hown := hnames.2 hop
    omega
  unfold Meets at hkept ⊢
  cases hrun : Machine.step.run machine with
  | mk outcome after =>
      rw [hrun] at hbounded hkept houtside
      have hconfined : (after.cut reach).Bounded own reach → Kept origin machine after →
          Confined own reach origin start after := by
        intro hafter hkept
        refine ⟨hafter, hkept.sound, ?_, hkept.constants.trans confined.constants, houtside⟩
        rw [hkept.constants]
        exact confined.functions
      cases outcome with
      | ok more => exact hconfined hbounded.1 hkept
      | error stop => exact hconfined hbounded.1 hkept

theorem again (confined : Confined own reach origin start machine) :
    Confined own reach origin start { machine with steps := 0 } := by
  obtain ⟨⟨hverified, hsound, hfunctions, hcalls⟩, horigin, hothers, hconstants, houtside⟩ := confined
  exact ⟨⟨hverified.again, hsound.again, hfunctions, hcalls⟩, horigin.again, hothers, hconstants,
    houtside⟩

theorem passes (confined : Confined own reach origin start start) (passes : Passes start machine) :
    Confined own reach origin start machine :=
  passes.always (fun _ => step) confined

theorem run (confined : Confined own reach origin start start) (fuel : Nat) :
    Confined own reach origin start (Machine.run fuel start).2 :=
  run_always (fun _ => step) fuel confined.again

end Confined

theorem extendGlobals_getElem? {globals : Array Value} {size index : Nat} {value : Value}
    (hfound : (extendGlobals globals size)[index]? = some value) :
    globals[index]? = some value ∨ value = .null := by
  rw [extendGlobals, Array.getElem?_append] at hfound
  split at hfound
  next => exact .inl hfound
  next => exact .inr (Array.eq_of_mem_replicate (Array.mem_of_getElem? hfound))

/-- Bytecode can be run with whatever globals there are, if what is in the first ones can be used with
its constants. -/
theorem start_confined {bytecode : Bytecode} {own reach : Nat} {origin : Template → Prop}
    (hverify : bytecode.verify = .ok ()) (hmain : bytecode.code.Touches (some own) reach)
    (hfunctions : ∀ template, .function template ∈ bytecode.constants →
      template.code.Touches none reach ∧ origin template) (pool : Nat) {globals : Array Value}
    (hglobals : ∀ index < reach, ∀ value, globals[index]? = some value →
      value.Good fun template _ => Usable bytecode.constants reach template)
    (horigin : ∀ value ∈ globals, value.Good fun template _ => origin template)
    (config : Config) (world : World) :
    Confined own reach origin (start bytecode pool globals config world)
      (start bytecode pool globals config world) := by
  have hverified : (start bytecode pool #[] config world).Verified :=
    start_verified hverify pool (by simp) config world
  have hsound : (start bytecode pool #[] config world).Sound fun template _ =>
      Usable bytecode.constants reach template :=
    start_sound bytecode pool (by simp) config world
  have hseen : ∀ value ∈ ((start bytecode pool globals config world).cut reach).globals,
      value.Good fun template _ => Usable bytecode.constants reach template := by
    intro value member
    obtain ⟨index, hindex⟩ := Array.mem_iff_getElem?.mp member
    rw [cut_globals] at hindex
    split at hindex
    next hless =>
      rcases extendGlobals_getElem? hindex with hfound | rfl
      · exact hglobals index hless value hfound
      · exact .null
    next => cases hindex
  refine ⟨⟨⟨?_, hverified.functions, hverified.frames⟩, ?_, ?_, [], _, rfl, by simp, hmain⟩,
    start_sound bytecode pool horigin config world, fun template member =>
      (hfunctions template member).2, rfl, fun _ _ => rfl⟩
  · exact ⟨hverified.sound.stack, fun value member => (hseen value member).mono Usable.proper,
      hverified.sound.captured, hverified.sound.inside, hverified.sound.calls⟩
  · exact ⟨hsound.stack, hseen, hsound.captured, hsound.inside, hsound.calls⟩
  · exact fun template member =>
      ⟨hverified.functions template member, (hfunctions template member).1⟩

end Stacklang.Machine
