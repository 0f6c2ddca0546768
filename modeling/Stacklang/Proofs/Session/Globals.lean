import Stacklang.Proofs.Session.Editions
import Stacklang.Proofs.Session.Running

namespace Stacklang

open Machine

namespace Desk

theorem Reached.give {config : Config} {desk : Desk} (reached : Reached Own config desk)
    (input : Session.Input) :
    ∃ later, Reached Own config later ∧ later.session = desk.session.give input := by
  cases input with
  | compile source =>
      exact ⟨_, reached.perform (show desk.Own (.compile source) from trivial), perform_session ..⟩
  | eval fuel source =>
      exact ⟨_, reached.perform (show desk.Own (.eval fuel source) from trivial), perform_session ..⟩

theorem Reached.giveAll {config : Config} {desk : Desk} (reached : Reached Own config desk)
    (inputs : List Session.Input) :
    ∃ later, Reached Own config later ∧ later.session = desk.session.giveAll inputs := by
  induction inputs generalizing desk with
  | nil => exact ⟨desk, reached, rfl⟩
  | cons input rest ih =>
      obtain ⟨given, hgiven, hsession⟩ := reached.give input
      obtain ⟨later, hlater, hrest⟩ := ih hgiven
      refine ⟨later, hlater, hrest.trans ?_⟩
      rw [hsession]
      rfl

end Desk

namespace Session

def starts? (session : Session) (source : String) : Option Machine :=
  match session.compile source with
  | (.error _, _) => none
  | (.ok image, later) =>
      some (start image.bytecode image.pool later.globals later.config later.world)

theorem eval_starts (session : Session) (fuel : Nat) (source : String) :
    (session.eval fuel source).2.globals =
      match session.starts? source with
      | none => session.globals
      | some machine => (Machine.run fuel machine).2.globals := by
  unfold eval starts?
  cases hcompile : session.compile source with
  | mk outcome later =>
      cases outcome with
      | error error => rw [(compile_fails hcompile).1]
      | ok image =>
          change (later.run fuel image).2.globals = _
          unfold run
          dsimp only
          split <;> rfl

def slots (session : Session) : Array Value :=
  extendGlobals session.globals session.config.globalsSize

theorem size_slots (session : Session) : session.config.globalsSize ≤ session.slots.size := by
  simp only [slots, extendGlobals, Array.size_append, Array.size_replicate]
  omega

theorem getElem?_slots (session : Session) (index : Nat) :
    session.slots[index]? =
      if index < session.globals.size then session.globals[index]?
      else if index < session.config.globalsSize then some .null else none := by
  rw [slots, extendGlobals, Array.getElem?_append, Array.getElem?_replicate]
  split
  next => rfl
  next houtside =>
    by_cases hindex : index < session.config.globalsSize
    · rw [if_pos hindex, if_pos (by omega)]
    · rw [if_neg hindex, if_neg (by omega)]

theorem getD_slots (session : Session) (index : Nat) :
    session.slots.getD index .null = session.globals.getD index .null := by
  rw [Array.getD_eq_getD_getElem?, Array.getD_eq_getD_getElem?, getElem?_slots]
  split
  next => rfl
  next houtside =>
    rw [Array.getElem?_eq_none (Nat.le_of_not_lt houtside)]
    split <;> rfl

theorem slots_again {session later : Session} {index : Nat}
    (hconfig : later.config = session.config)
    (hleft : later.globals[index]? = session.slots[index]?) :
    later.slots[index]? = session.slots[index]? := by
  rw [getElem?_slots]
  split
  next => exact hleft
  next houtside =>
    rw [Array.getElem?_eq_none (Nat.le_of_not_lt houtside)] at hleft
    have hsize := Array.getElem?_eq_none_iff.mp hleft.symm
    have hless := session.size_slots
    rw [← hleft, hconfig, if_neg (by omega)]

theorem starts?_confined {config : Config} {inputs : List Input} {source : String}
    {machine : Machine} (hstarts : ((new config).giveAll inputs).starts? source = some machine) :
    machine.globals = ((new config).giveAll inputs).slots ∧
    ∃ reach origin, Confined ((new config).giveAll inputs).scope.globals reach origin machine
      machine := by
  have hnew : Desk.Reached Desk.Own config (.new config) := .new
  obtain ⟨desk, hreached, hsession⟩ := hnew.giveAll inputs
  obtain ⟨editions, hordered⟩ := hreached.ordered
  change desk.session = (new config).giveAll inputs at hsession
  rw [← hsession] at hstarts ⊢
  unfold starts? at hstarts
  cases hcompile : desk.session.compile source with
  | mk outcome later =>
      rw [hcompile] at hstarts
      cases outcome with
      | error error => cases hstarts
      | ok image =>
          cases hstarts
          obtain ⟨_, _, _, -, -, -, -, hlater⟩ := compile_succeeds hordered.consistent hcompile
          refine ⟨?_, later.scope.globals, _,
            (hordered.compile hcompile).confinedTo List.mem_cons_self rfl⟩
          rw [hlater]
          rfl

theorem eval_slots (config : Config) (inputs : List Input) (fuel : Nat) (source : String)
    {index : Nat} (hgiven : index < ((new config).giveAll inputs).scope.globals) :
    (((new config).giveAll inputs).eval fuel source).2.slots[index]? =
      ((new config).giveAll inputs).slots[index]? := by
  have hglobals := eval_starts ((new config).giveAll inputs) fuel source
  have hconfig : (((new config).giveAll inputs).eval fuel source).2.config =
      ((new config).giveAll inputs).config := config_giveAll _ [.eval fuel source]
  cases hstarts : ((new config).giveAll inputs).starts? source with
  | none =>
      rw [hstarts] at hglobals
      rw [slots, slots, hglobals, hconfig]
  | some machine =>
      simp only [hstarts] at hglobals
      obtain ⟨hmachine, reach, origin, hconfined⟩ := starts?_confined hstarts
      have hkept := (hconfined.run fuel).outside index (.inl hgiven)
      rw [hmachine, ← hglobals] at hkept
      exact slots_again hconfig hkept

/-- A global that has been given out stays as it is while a further input runs and when the input has
come to its end, whatever end it is. No function changes a global at all. -/
theorem globals_stored_once (config : Config) (inputs : List Input) (source : String) :
    let session := (new config).giveAll inputs
    (∀ fuel, ∀ index < session.scope.globals,
      (session.eval fuel source).2.globals.getD index .null =
        session.globals.getD index .null) ∧
    ∀ start ∈ session.starts? source, ∀ machine, Passes start machine →
      (∀ index < session.scope.globals,
        machine.globals.getD index .null = session.globals.getD index .null) ∧
      (machine.callers ≠ [] → (step.run machine).2.globals = machine.globals) := by
  intro session
  constructor
  · intro fuel index hgiven
    rw [← getD_slots, Array.getD_eq_getD_getElem?, eval_slots config inputs fuel source hgiven,
      ← Array.getD_eq_getD_getElem?, getD_slots]
  · intro start hstarts machine hpasses
    obtain ⟨hglobals, reach, origin, hconfined⟩ := starts?_confined hstarts
    have hmachine := hconfined.passes hpasses
    refine ⟨fun index hgiven => ?_, hmachine.globals_called⟩
    rw [← getD_slots, ← hglobals, Array.getD_eq_getD_getElem?,
      hmachine.outside index (.inl hgiven), ← Array.getD_eq_getD_getElem?]

def shadowed : Session :=
  (new ⟨16, 8, 4, none⟩).giveAll
    [.eval 50 "let a = 1; let f = fn(x) \x7b let a = x; a + 1 \x7d;"]

def rebinds : String := "f(2); let a = 3; a / 0"

theorem globals_stored_once_by_name :
    (shadowed.eval 50 rebinds).1.isOk = false ∧
    ((shadowed.eval 50 rebinds).2.globals.getD 2 .null).display = "3" ∧
    (shadowed.eval 50 rebinds).2.globals.getD 0 .null = shadowed.globals.getD 0 .null ∧
    ∃ start machine, shadowed.starts? rebinds = some start ∧ Passes start machine ∧
      machine.callers ≠ [] ∧
      machine.frame.template.code.fetch? machine.frame.ip = some (.ok ⟨.setLocal, [1]⟩) ∧
      machine.globals.getD 0 .null = shadowed.globals.getD 0 .null ∧
      (step.run machine).2.globals = machine.globals := by
  have hfacts : (shadowed.eval 50 rebinds).1.isOk = false ∧ 0 < shadowed.scope.globals ∧
      ((shadowed.eval 50 rebinds).2.globals.getD 2 .null).display = "3" ∧
      ∃ start ∈ shadowed.starts? rebinds,
        (∀ count < 4, (step.run (start.afterSteps count)).1 = .ok true) ∧
        (start.afterSteps 4).callers.length ≠ 0 ∧
        (start.afterSteps 4).frame.template.code.fetch? (start.afterSteps 4).frame.ip =
          some (.ok ⟨.setLocal, [1]⟩) := by
    decide +kernel
  obtain ⟨hfails, hgiven, hstored, start, hstarts, hmore, hcallers, hfetch⟩ := hfacts
  obtain ⟨hkept, hruns⟩ := globals_stored_once ⟨16, 8, 4, none⟩
    [.eval 50 "let a = 1; let f = fn(x) \x7b let a = x; a + 1 \x7d;"] rebinds
  have hpasses := passes_afterSteps hmore
  have hcall := mt List.length_eq_zero_iff.mpr hcallers
  obtain ⟨hthere, hstep⟩ := hruns start hstarts _ hpasses
  exact ⟨hfails, hstored, hkept 50 0 hgiven, start, _, hstarts, hpasses, hcall, hfetch,
    hthere 0 hgiven, hstep hcall⟩

end Session

end Stacklang
