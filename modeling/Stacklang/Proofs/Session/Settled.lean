import Stacklang.Proofs.Machine.Stored
import Stacklang.Proofs.Session.Desk

namespace Stacklang

open Machine

structure Bytecode.Settled (bytecode : Bytecode) : Prop where
  main : Template.Settled ⟨bytecode.code, 0, 0⟩
  functions : ∀ template, .function template ∈ bytecode.constants → template.Settled

/-- In no function that the operation compiles or loads a name is used while it is in doubt. -/
def Operation.Settled : Operation → Prop
  | eval _ source | compile source =>
      ∀ program, Program.ofSource source = .ok program → program.Settled
  | load bytes =>
      ∀ bytecode, Bytecode.ofBytes bytes = .ok bytecode →
        ∃ program : Program, program.Settled ∧ program.bytecode = .ok bytecode
  | run _ _ => True

theorem Compile.Emits.settled {program : Program} {stage finish : Stage} {code : List Instruction}
    {bytecode : Bytecode} (emits : Emits (.block program.statements) stage 0 code finish)
    (valid : stage.scope.Valid) (htop : stage.scope.isTopLevel = true)
    (hcode : bytecode.code.toList = Instruction.encodeAll code)
    (hconstants : bytecode.constants = finish.constants) (settled : program.Settled)
    (hfunctions : ∀ template, .function template ∈ stage.constants → template.Settled) :
    bytecode.Settled := by
  refine ⟨(emits.ready_main valid htop hcode).assigned rfl _, ?_⟩
  intro template member
  rw [hconstants] at member
  rcases emits.sourced valid ⟨[], Scope.charted_nil htop⟩ template member with
    hearlier | ⟨lambda, hlambda, hmade⟩
  · exact hfunctions template hearlier
  · exact hmade.settled (settled lambda hlambda)

namespace Desk

structure Settled (desk : Desk) : Prop where
  consistent : desk.session.Consistent
  functions : ∀ template, .function template ∈ desk.session.constants → template.Settled
  globals : ∀ value ∈ desk.session.globals, value.Good fun template _ => template.Settled
  images : ∀ image ∈ desk.images, image.bytecode.Settled

theorem new_settled (config : Config) : (new config).Settled :=
  ⟨Session.new_consistent config, by simp [new, Session.new], by simp [new, Session.new],
    by simp [new]⟩

namespace Settled

variable {desk : Desk} {operation : Operation} {image : Image}

theorem prepare (settled : desk.Settled) (hoperation : operation.Settled) :
    (desk.prepare operation).1.Settled := by
  rcases desk.prepare_cases operation with hsame | ⟨source, image, session, hsource, hcompile, hmade⟩ |
    ⟨bytes, bytecode, rfl, hload, hmade⟩
  · rwa [hsame]
  · have hconsistent := settled.consistent.compile source
    rw [hcompile] at hconsistent
    obtain ⟨program, finish, code, hparse, hemits, hcode, hconstants, rfl⟩ :=
      Session.compile_succeeds settled.consistent hcompile
    have hprogram : program.Settled := by
      cases operation with
      | eval | compile =>
          cases hsource
          exact hoperation program hparse
      | load | run => cases hsource
    have himage := hemits.settled settled.consistent.valid settled.consistent.top hcode hconstants
      hprogram settled.functions
    rw [hmade]
    exact ⟨hconsistent, hconstants ▸ himage.functions, settled.globals,
      List.forall_mem_cons.mpr ⟨himage, settled.images⟩⟩
  · obtain ⟨program, hprogram, hcompile⟩ := hoperation bytecode hload
    obtain ⟨code, finish, hemits, hcode, hconstants⟩ := program.bytecode_emits hcompile
    have himage := hemits.settled Scope.withBuiltins_valid.1 Scope.withBuiltins_valid.2 hcode
      hconstants hprogram (by simp)
    rw [hmade]
    exact ⟨⟨settled.consistent.valid, settled.consistent.top, settled.consistent.sound⟩,
      settled.functions, settled.globals, List.forall_mem_cons.mpr ⟨himage, settled.images⟩⟩

theorem everywhere (settled : desk.Settled) (hmember : image ∈ desk.images) :
    (desk.machine image).Everywhere Template.Settled :=
  start_everywhere (settled.images image hmember).main (settled.images image hmember).functions _
    settled.globals _ _

theorem run (settled : desk.Settled) (fuel : Nat) (hmember : image ∈ desk.images) :
    (desk.run fuel image).Settled := by
  obtain ⟨valid, htop, hsound⟩ := settled.consistent
  rw [run_eq]
  exact ⟨⟨valid, htop, hsound⟩, settled.functions,
    ((settled.everywhere hmember).run fuel).sound.globals, settled.images⟩

theorem perform (settled : desk.Settled) (hoperation : operation.Settled) :
    (desk.perform operation).Settled :=
  perform_keeps Desk.Settled (settled.prepare hoperation) fun hsettled hmember =>
    hsettled.run _ hmember

end Settled

theorem Reached.settled {config : Config} {desk : Desk}
    (reached : Reached (fun _ operation => operation.Settled) config desk) : desk.Settled := by
  induction reached with
  | new => exact new_settled config
  | perform _ hoperation ih => exact ih.perform hoperation

/-- As long as no function is compiled or loaded that uses a name in doubt, a local that is read in a
call has been stored in the same call, as an argument or later. -/
theorem locals_read_are_stored (config : Config) (desk : Desk)
    (reached : Reached (fun _ operation => operation.Settled) config desk) (operation : Operation)
    (hoperation : operation.Settled) (start : Machine)
    (hstarts : desk.starts? operation = some start) (machine : Machine)
    (hpasses : Passes start machine) (hcall : machine.callers ≠ []) (slot : Nat)
    (hfetch : machine.frame.template.code.fetch? machine.frame.ip =
      some (.ok ⟨.getLocal, [slot]⟩)) :
    (∃ caller written, Passes start caller ∧
      machine.callers.length = caller.callers.length + 1 ∧ Activation caller written machine) ∧
    ∀ caller written, Passes start caller →
      machine.callers.length = caller.callers.length + 1 → Activation caller written machine →
      slot ∈ written := by
  have hprepared := reached.settled.prepare hoperation
  obtain ⟨fuel, image, hruns, rfl⟩ := starts?_eq_some.mp hstarts
  have heverywhere := hprepared.everywhere (prepare_runs hruns)
  constructor
  · have hpositive := List.length_pos_iff.mpr hcall
    obtain ⟨caller, written, hcaller, hdepth, hactivation⟩ :=
      hpasses.activation rfl (show machine.callers.length - 1 < machine.callers.length by omega)
    exact ⟨caller, written, hcaller, by omega, hactivation⟩
  · intro caller written hcaller hdepth hactivation
    exact hactivation.stored (heverywhere.passes hcaller) hdepth hfetch

def branching : Operation :=
  .eval 50 "let f = fn(a) \x7b let b = a; if (b) \x7b let c = b; c \x7d \x7d;"

def branchingStart : Machine :=
  (((new ⟨16, 8, 4, none⟩).perform branching).starts? (.eval 50 "f(3)")).get (by decide +kernel)

theorem branching_local_is_stored :
    ∃ caller written, Activation caller written (branchingStart.afterSteps 9) ∧
      (branchingStart.afterSteps 9).callers.length = caller.callers.length + 1 ∧
      (branchingStart.afterSteps 9).frame.template.code.fetch?
        (branchingStart.afterSteps 9).frame.ip = some (.ok ⟨.getLocal, [2]⟩) ∧ 2 ∈ written := by
  have hsettled : ∀ operation ∈ [branching, .eval 50 "f(3)"], operation.Settled := by
    have hall : ∀ operation ∈ [branching, .eval 50 "f(3)"], ∀ source ∈ operation.source?,
        ∀ program ∈ (Program.ofSource source).toOption, program.Settled := by decide +kernel
    simp only [List.forall_mem_cons, List.not_mem_nil, false_imp_iff, implies_true, and_true]
    constructor <;> intro program hprogram
    · exact hall branching (by simp) _ rfl program (by rw [hprogram]; rfl)
    · exact hall (.eval 50 "f(3)") (by simp) _ rfl program (by rw [hprogram]; rfl)
  obtain ⟨hmore, hcallers, hfetch⟩ :
      (∀ count < 9, (step.run (branchingStart.afterSteps count)).1 = .ok true) ∧
      (branchingStart.afterSteps 9).callers.length ≠ 0 ∧
      (branchingStart.afterSteps 9).frame.template.code.fetch?
        (branchingStart.afterSteps 9).frame.ip = some (.ok ⟨.getLocal, [2]⟩) := by decide +kernel
  obtain ⟨⟨caller, written, hcaller, hdepth, hactivation⟩, hstored⟩ :=
    locals_read_are_stored ⟨16, 8, 4, none⟩ _ (.perform .new (hsettled branching (by simp)))
      (.eval 50 "f(3)") (hsettled _ (by simp)) branchingStart (Option.some_get _).symm _
      (passes_afterSteps hmore) (mt List.length_eq_zero_iff.mpr hcallers) 2 hfetch
  exact ⟨caller, written, hactivation, hdepth, hfetch,
    hstored caller written hcaller hdepth hactivation⟩

theorem activation_afterSteps {caller machine : Machine} {written : List Nat} {first : Nat}
    (entered : Activation caller written (machine.afterSteps first)) {count : Nat}
    (hmore : ∀ less < count, (step.run (machine.afterSteps (first + less))).1 = .ok true)
    (hown : ∀ less ≤ count,
      (machine.afterSteps (first + less)).callers.length = caller.callers.length + 1)
    (hstores : ∀ less < count, (machine.afterSteps (first + less)).stores = []) :
    Activation caller written (machine.afterSteps (first + count)) := by
  induction count with
  | zero => exact entered
  | succ count ih =>
      have hbefore := ih (fun less hless => hmore less (by omega))
        (fun less hless => hown less (by omega)) fun less hless => hstores less (by omega)
      have hlast : (machine.afterSteps (first + count + 1)).callers.length =
          caller.callers.length + 1 := hown (count + 1) (Nat.le_refl _)
      have hafter := hbefore.own (hown count (by omega)) (step_afterSteps (hmore count (by omega)))
        (by omega)
      rwa [hstores count (by omega)] at hafter

def doubtfulStart : Machine :=
  ((new ⟨16, 8, 4, none⟩).starts?
    (.eval 50 "let f = fn() \x7b if (false) \x7b let x = 1; \x7d x \x7d; 1 + 2; f()")).get
    (by decide +kernel)

/-- The name in doubt has the value of what was on the stack before. -/
theorem stale_local_is_read :
    ∃ caller machine written, Passes doubtfulStart caller ∧ Activation caller written machine ∧
      machine.callers.length = caller.callers.length + 1 ∧
      machine.frame.template.code.fetch? machine.frame.ip = some (.ok ⟨.getLocal, [0]⟩) ∧
      0 ∉ written ∧ machine.stack[machine.frame.base]? = some (.integer 2) := by
  obtain ⟨hmore, hparameters, hown, hstores⟩ :
      (∀ count < 12, (step.run (doubtfulStart.afterSteps count)).1 = .ok true) ∧
      (doubtfulStart.afterSteps 8).frame.template.parameters = 0 ∧
      (∀ count ≤ 4, (doubtfulStart.afterSteps (8 + count)).callers.length =
        (doubtfulStart.afterSteps 7).callers.length + 1) ∧
      ∀ count < 4, (doubtfulStart.afterSteps (8 + count)).stores = [] := by decide +kernel
  have hentered : Activation (doubtfulStart.afterSteps 7) [] (doubtfulStart.afterSteps 8) := by
    have hcall := Activation.entered (step_afterSteps (hmore 7 (by omega))) (hown 0 (by omega))
    rwa [hparameters] at hcall
  have hactivation := activation_afterSteps hentered (fun less hless => hmore (8 + less) (by omega))
    hown hstores
  obtain ⟨hbase, hfetch, hvalue⟩ :
      (doubtfulStart.afterSteps (8 + 4)).frame.base = 1 ∧
      (doubtfulStart.afterSteps (8 + 4)).frame.template.code.fetch?
        (doubtfulStart.afterSteps (8 + 4)).frame.ip = some (.ok ⟨.getLocal, [0]⟩) ∧
      (doubtfulStart.afterSteps (8 + 4)).stack[1]?.map (·.identical (.integer 2)) = some true := by
    decide +kernel
  obtain ⟨value, hvalue, hidentical⟩ := Option.map_eq_some_iff.mp hvalue
  refine ⟨_, _, [], passes_afterSteps fun less hless => hmore less (by omega), hactivation,
    hown 4 (Nat.le_refl _), hfetch, List.not_mem_nil, ?_⟩
  rw [hbase, hvalue]
  cases value with
  | integer number => rw [eq_of_beq hidentical]
  | _ => cases hidentical

end Desk

end Stacklang
