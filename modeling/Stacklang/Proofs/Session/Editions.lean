import Stacklang.Proofs.Machine.Bounded
import Stacklang.Proofs.Session.Desk

namespace Stacklang

open Machine

theorem Machine.Usable.mono {constants later : Array Constant} {reach more : Nat}
    {template : Template} (usable : Usable constants reach template)
    (grows : Constant.Grows constants later) (hmore : reach ≤ more) : Usable later more template :=
  ⟨⟨usable.proper.parameters, usable.proper.stream.mono grows⟩, usable.touches.mono hmore⟩

theorem Machine.Proper.names {constants : Array Constant} {template : Template} {ip : Nat}
    {instruction : Instruction} (proper : Proper constants template)
    (boundary : template.code.Boundary ip)
    (hfetch : template.code.fetch? ip = some (.ok instruction))
    (hop : instruction.op = .constant ∨ instruction.op = .closure) :
    ∃ constant, constants[instruction.operand 0]? = some constant := by
  have hchecked := proper.stream.checked _ (boundary.mem_scan proper.stream.whole hfetch)
  rcases hop with hop | hop
  · have hinside := (Verify.constant_ok_iff hop).mp hchecked
    exact ⟨_, Array.getElem?_eq_getElem hinside⟩
  · obtain ⟨function, hfound⟩ := (Verify.closure_ok_iff hop).mp hchecked
    exact ⟨_, hfound⟩

/-- Bytecode with the first global that it stores in, and the first that it has nothing to do with. -/
structure Edition where
  bytecode : Bytecode
  own : Nat
  reach : Nat

namespace Edition

/-- Where closures can be called in a run of the edition. -/
def Admits (edition : Edition) (template : Template) (_ : Nat) : Prop :=
  Usable edition.bytecode.constants edition.reach template

structure Coherent (edition : Edition) : Prop where
  verified : edition.bytecode.verify = .ok ()
  main : edition.bytecode.code.Touches (some edition.own) edition.reach
  functions : ∀ template, .function template ∈ edition.bytecode.constants →
    template.code.Touches none edition.reach
  extent : edition.own ≤ edition.reach

structure Before (edition later : Edition) : Prop where
  globals : edition.reach ≤ later.own
  constants : Constant.Grows edition.bytecode.constants later.bytecode.constants

theorem Before.admits {edition later : Edition} (before : edition.Before later)
    (coherent : later.Coherent) {template : Template} {count : Nat}
    (admits : edition.Admits template count) : later.Admits template count :=
  admits.mono before.constants (Nat.le_trans before.globals coherent.extent)

def Comparable (edition other : Edition) : Prop :=
  edition = other ∨ edition.Before other ∨ other.Before edition

theorem comparable_of_ordered {editions : List Edition}
    (ordered : editions.Pairwise fun later edition => edition.Before later) {edition other : Edition}
    (hedition : edition ∈ editions) (hother : other ∈ editions) : edition.Comparable other := by
  induction ordered with
  | nil => cases hedition
  | cons hfirst _ ih =>
      rcases List.mem_cons.mp hedition with rfl | hlater <;>
        rcases List.mem_cons.mp hother with rfl | hlater'
      · exact .inl rfl
      · exact .inr (.inr (hfirst other hlater'))
      · exact .inr (.inl (hfirst edition hlater))
      · exact ih hlater hlater'

end Edition

namespace Desk

/-- A snapshot that is loaded is one of something made in the session. -/
def Own (desk : Desk) : Operation → Prop
  | .load bytes => ∀ bytecode, Bytecode.ofBytes bytes = .ok bytecode →
      ∃ image ∈ desk.images, image.bytecode = bytecode
  | .eval _ _ | .compile _ | .run _ _ => True

/-- Something that has been run has the function among its constants. -/
def Origin (desk : Desk) (template : Template) : Prop :=
  ∃ bytecode ∈ desk.ran, .function template ∈ bytecode.constants

/-- Everything on a desk is one of some editions, latest first, and a value that an edition can get at is
one that it can use. -/
structure Ordered (desk : Desk) (editions : List Edition) : Prop where
  consistent : desk.session.Consistent
  coherent : ∀ edition ∈ editions, edition.Coherent
  ordered : editions.Pairwise fun later edition => edition.Before later
  known : ∀ edition ∈ editions, edition.reach ≤ desk.session.scope.globals ∧
    Constant.Grows edition.bytecode.constants desk.session.constants
  served : ∀ edition ∈ editions, ∀ index < edition.reach, ∀ value,
    desk.session.globals[index]? = some value → value.Good edition.Admits
  functions : ∀ template, .function template ∈ desk.session.constants →
    template.code.Touches none desk.session.scope.globals
  globals : ∀ value ∈ desk.session.globals, value.Good fun template _ =>
    Usable desk.session.constants desk.session.scope.globals template
  origins : ∀ value ∈ desk.session.globals, value.Good fun template _ => desk.Origin template
  images : ∀ image ∈ desk.images, ∃ edition ∈ editions, edition.bytecode = image.bytecode
  ran : ∀ bytecode ∈ desk.ran, ∃ edition ∈ editions, edition.bytecode = bytecode

/-- What a run leaves in a global: what was there before, or in a global of its own something that its
edition can use. -/
theorem confined_global {desk : Desk} {image : Image} {edition : Edition}
    {origin : Template → Prop} {after : Machine} (hbytecode : edition.bytecode = image.bytecode)
    (hafter : Confined edition.own edition.reach origin (desk.machine image) after)
    {index : Nat} {value : Value} (hfound : after.globals[index]? = some value) :
    (desk.session.globals[index]? = some value ∨ value = .null) ∨
      edition.own ≤ index ∧ index < edition.reach ∧ value.Good edition.Admits := by
  by_cases hinside : edition.own ≤ index ∧ index < edition.reach
  · refine .inr ⟨hinside.1, hinside.2, ?_⟩
    have hvisible : (after.cut edition.reach).globals[index]? = some value := by
      rw [cut_globals, if_pos hinside.2, hfound]
    have hgood := hafter.bounded.sound.globals value (Array.mem_of_getElem? hvisible)
    have hconstants : (after.cut edition.reach).constants = edition.bytecode.constants := by
      rw [hbytecode]
      exact hafter.constants
    rw [hconstants] at hgood
    exact hgood
  · rw [hafter.outside index (by omega)] at hfound
    exact .inl (extendGlobals_getElem? hfound)

theorem new_ordered (config : Config) : (new config).Ordered [] :=
  ⟨Session.new_consistent config, by simp, .nil, by simp, by simp, by simp [new, Session.new],
    by simp [new, Session.new], by simp [new, Session.new], by simp [new], by simp [new]⟩

namespace Ordered

variable {desk : Desk} {editions : List Edition} {image : Image} {operation : Operation}

theorem compile (ordered : desk.Ordered editions) {source : String} {session : Session}
    (hcompile : desk.session.compile source = (.ok image, session)) :
    ({ desk with session, images := image :: desk.images } : Desk).Ordered
      (⟨image.bytecode, desk.session.scope.globals, session.scope.globals⟩ :: editions) := by
  have hconsistent := ordered.consistent.compile source
  rw [hcompile] at hconsistent
  obtain ⟨program, finish, code, -, hemits, hcode, hconstants, rfl⟩ :=
    Session.compile_succeeds ordered.consistent hcompile
  obtain ⟨valid, htop, hsound⟩ := ordered.consistent
  have hgrows := (hemits.valid valid).2
  have hglobals : desk.session.scope.globals ≤ finish.scope.globals := hgrows.globals_le
  have hfunctions : ∀ template, .function template ∈ finish.constants →
      template.code.Touches none finish.scope.globals := by
    intro template member
    rcases hemits.sourced valid ⟨[], Scope.charted_nil htop⟩ template member with
      hearlier | ⟨lambda, -, hmade⟩
    · exact (ordered.functions template hearlier).mono hglobals
    · exact hmade.touches
  have hverify := hemits.verify valid htop hsound hcode
  have hmain := hemits.code_touches valid hcode
  rw [Compile.Stage.from?, if_pos htop] at hmain
  have hvalues : ∀ value ∈ desk.session.globals, value.Good fun template _ =>
      Usable finish.constants finish.scope.globals template :=
    fun value member => (ordered.globals value member).mono fun husable =>
      husable.mono hemits.constants hglobals
  refine ⟨hconsistent,
    List.forall_mem_cons.mpr ⟨?_, ordered.coherent⟩, .cons ?_ ordered.ordered,
    List.forall_mem_cons.mpr ⟨?_, ?_⟩, List.forall_mem_cons.mpr ⟨?_, ordered.served⟩, hfunctions,
    hvalues, ordered.origins, List.forall_mem_cons.mpr ⟨⟨_, List.mem_cons_self, rfl⟩, ?_⟩, ?_⟩
  · rw [← hconstants] at hfunctions hverify
    exact ⟨hverify, hmain, hfunctions, hglobals⟩
  · intro edition member
    obtain ⟨hreach, hknown⟩ := ordered.known edition member
    have hlater : Constant.Grows desk.session.constants image.bytecode.constants := by
      rw [hconstants]
      exact hemits.constants
    exact ⟨hreach, hknown.trans hlater⟩
  · exact ⟨Nat.le_refl _, hconstants ▸ .refl _⟩
  · intro edition member
    obtain ⟨hreach, hknown⟩ := ordered.known edition member
    exact ⟨Nat.le_trans hreach hglobals, hknown.trans hemits.constants⟩
  · intro index _ value hfound
    refine (hvalues value (Array.mem_of_getElem? hfound)).mono fun husable => ?_
    rw [Edition.Admits, hconstants]
    exact husable
  · intro image member
    obtain ⟨edition, hedition, heq⟩ := ordered.images image member
    exact ⟨edition, List.mem_cons_of_mem _ hedition, heq⟩
  · intro bytecode member
    obtain ⟨edition, hedition, heq⟩ := ordered.ran bytecode member
    exact ⟨edition, List.mem_cons_of_mem _ hedition, heq⟩

theorem prepare (ordered : desk.Ordered editions) (hown : desk.Own operation) :
    ∃ editions, (desk.prepare operation).1.Ordered editions := by
  rcases desk.prepare_cases operation with hsame | ⟨source, image, session, -, hcompile, hmade⟩ |
    ⟨bytes, bytecode, rfl, hload, hmade⟩
  · rw [hsame]
    exact ⟨editions, ordered⟩
  · rw [hmade]
    exact ⟨_ :: editions, ordered.compile hcompile⟩
  · obtain ⟨image, member, rfl⟩ := hown bytecode hload
    obtain ⟨⟨valid, htop, hsound⟩, hcoherent, hordered, hknown, hserved, hfunctions, hglobals,
      horigins, himages, hran⟩ := ordered
    rw [hmade]
    exact ⟨editions, ⟨valid, htop, hsound⟩, hcoherent, hordered, hknown, hserved, hfunctions,
      hglobals, horigins, List.forall_mem_cons.mpr ⟨himages image member, himages⟩, hran⟩

theorem confinedTo (ordered : desk.Ordered editions) {edition : Edition}
    (hedition : edition ∈ editions) (hbytecode : edition.bytecode = image.bytecode) :
    Confined edition.own edition.reach ({ desk with ran := image.bytecode :: desk.ran } : Desk).Origin
      (desk.machine image) (desk.machine image) := by
  have hcoherent := ordered.coherent edition hedition
  have hserved := ordered.served edition hedition
  unfold Edition.Admits at hserved
  obtain ⟨bytecode, own, reach⟩ := edition
  cases hbytecode
  refine start_confined hcoherent.verified hcoherent.main ?_ _ hserved ?_ _ _
  · exact fun template member => ⟨hcoherent.functions template member, image.bytecode,
      List.mem_cons_self, member⟩
  · intro value member
    refine (ordered.origins value member).mono ?_
    rintro template _ ⟨bytecode, hran, hfunction⟩
    exact ⟨bytecode, List.mem_cons_of_mem _ hran, hfunction⟩

theorem confined (ordered : desk.Ordered editions) (hmember : image ∈ desk.images) :
    ∃ edition ∈ editions, edition.bytecode = image.bytecode ∧
      Confined edition.own edition.reach ({ desk with ran := image.bytecode :: desk.ran } : Desk).Origin
        (desk.machine image) (desk.machine image) := by
  obtain ⟨edition, hedition, hbytecode⟩ := ordered.images image hmember
  exact ⟨edition, hedition, hbytecode, ordered.confinedTo hedition hbytecode⟩

theorem run (ordered : desk.Ordered editions) (fuel : Nat) (hmember : image ∈ desk.images) :
    (desk.run fuel image).Ordered editions := by
  obtain ⟨valid, htop, hsound⟩ := ordered.consistent
  obtain ⟨edition, hedition, hbytecode, hconfined⟩ := ordered.confined hmember
  have hafter := hconfined.run fuel
  rw [run_eq]
  generalize (Machine.run fuel (desk.machine image)).2 = after at hafter
  refine ⟨⟨valid, htop, hsound⟩, ordered.coherent, ordered.ordered, ordered.known, ?_,
    ordered.functions, ?_, hafter.sound.globals, ordered.images,
    List.forall_mem_cons.mpr ⟨⟨edition, hedition, hbytecode⟩, ordered.ran⟩⟩
  · intro other hother index hindex value hfound
    rcases confined_global hbytecode hafter hfound with (hsame | rfl) | ⟨hown, -, hgood⟩
    · exact ordered.served other hother index hindex value hsame
    · exact .null
    · rcases Edition.comparable_of_ordered ordered.ordered hedition hother with rfl | hbefore | hbefore
      · exact hgood
      · exact hgood.mono fun hadmits => hbefore.admits (ordered.coherent other hother) hadmits
      · -- An earlier edition does not reach the globals of a later one.
        have hreach := hbefore.globals
        omega
  · intro value member
    obtain ⟨index, hfound⟩ := Array.mem_iff_getElem?.mp member
    rcases confined_global hbytecode hafter hfound with (hsame | rfl) | ⟨-, -, hgood⟩
    · exact ordered.globals value (Array.mem_of_getElem? hsame)
    · exact .null
    · obtain ⟨hreach, hgrows⟩ := ordered.known edition hedition
      exact hgood.mono fun hadmits => hadmits.mono hgrows hreach

theorem perform (ordered : desk.Ordered editions) (hown : desk.Own operation) :
    ∃ editions, (desk.perform operation).Ordered editions := by
  refine perform_keeps (fun desk => ∃ editions, desk.Ordered editions) (ordered.prepare hown) ?_
  rintro _ _ _ ⟨editions, hordered⟩ hmember
  exact ⟨editions, hordered.run _ hmember⟩

end Ordered

theorem Reached.ordered {config : Config} {desk : Desk} (reached : Reached Own config desk) :
    ∃ editions, desk.Ordered editions := by
  induction reached with
  | new => exact ⟨[], new_ordered config⟩
  | perform _ hown ih =>
      obtain ⟨editions, hordered⟩ := ih
      exact hordered.perform hown

/-- As long as every snapshot that is loaded is one of the session's own, a function that is called was
among the constants of something that has been run, and wherever it names a constant, it finds the
one that is in its place there. -/
theorem closures_keep_constants (config : Config) (desk : Desk) (reached : Reached Own config desk)
    (operation : Operation) (hown : desk.Own operation) (start : Machine)
    (hstarts : desk.starts? operation = some start) (machine : Machine)
    (hpasses : Passes start machine) (hcall : machine.callers ≠ []) (instruction : Instruction)
    (hfetch : machine.frame.template.code.fetch? machine.frame.ip = some (.ok instruction))
    (hop : instruction.op = .constant ∨ instruction.op = .closure) :
    (∃ creator ∈ (desk.perform operation).ran,
      .function machine.frame.template ∈ creator.constants) ∧
    ∀ creator ∈ (desk.perform operation).ran,
      .function machine.frame.template ∈ creator.constants →
      ∃ constant, machine.constants[instruction.operand 0]? = some constant ∧
        creator.constants[instruction.operand 0]? = some constant := by
  obtain ⟨_, hbefore⟩ := reached.ordered
  obtain ⟨editions, hordered⟩ := hbefore.prepare hown
  obtain ⟨fuel, image, hruns, rfl⟩ := starts?_eq_some.mp hstarts
  have hmember := prepare_runs hruns
  obtain ⟨edition, hedition, hbytecode, hconfined⟩ := hordered.confined hmember
  have hmachine := hconfined.passes hpasses
  have hran := (hordered.run fuel hmember).ran
  rw [perform_eq_run hruns]
  refine ⟨hmachine.called hcall, fun creator hcreator hfunction => ?_⟩
  obtain ⟨other, hother, rfl⟩ := hran creator hcreator
  obtain ⟨hproper, hboundary, -⟩ := hmachine.bounded.verified.frames machine.frame List.mem_cons_self
  have haccepted := (Bytecode.verify_ok_iff.mp (hordered.coherent other hother).verified).2 _ hfunction
  obtain ⟨constant, hfound⟩ := hproper.names hboundary hfetch hop
  obtain ⟨expected, hexpected⟩ :=
    Proper.names ⟨haccepted.parameters, haccepted.stream⟩ hboundary hfetch hop
  have hconstants : machine.constants = edition.bytecode.constants := by
    rw [hbytecode]
    exact hmachine.constants
  change machine.constants[_]? = _ at hfound
  rw [hconstants] at hfound ⊢
  rcases Edition.comparable_of_ordered hordered.ordered hedition hother with rfl | hgrows | hgrows
  · exact ⟨constant, hfound, hfound⟩
  · exact ⟨constant, hfound, hgrows.constants hfound⟩
  · exact ⟨expected, hgrows.constants hexpected, hexpected⟩

def compiled : Desk :=
  ((new ⟨16, 8, 4, none⟩).perform (.eval 50 "let f = fn() \x7b 5 \x7d;")).perform (.compile "f() + 1")

def reloaded : Operation :=
  .load [10, 16, 0, 0, 26, 0, 0, 0, 2, 2, 1, 3, 0, 10, 2, 4, 0, 0, 0, 27, 0, 0, 0, 2]

def reloadedStart : Machine :=
  ((compiled.perform reloaded).starts? (.run 50 0)).get (by decide +kernel)

theorem reloaded_closure_keeps_constants :
    ∃ creator constant, creator ∈ ((compiled.perform reloaded).perform (.run 50 0)).ran ∧
      .function (reloadedStart.afterSteps 2).frame.template ∈ creator.constants ∧
      (reloadedStart.afterSteps 2).constants[0]? = some constant ∧
      creator.constants[0]? = some constant := by
  obtain ⟨hmore, hcallers, hfetch⟩ :
      (∀ count < 2, (step.run (reloadedStart.afterSteps count)).1 = .ok true) ∧
      (reloadedStart.afterSteps 2).callers.length ≠ 0 ∧
      (reloadedStart.afterSteps 2).frame.template.code.fetch?
        (reloadedStart.afterSteps 2).frame.ip = some (.ok ⟨.constant, [0]⟩) := by decide +kernel
  have hown : compiled.Own reloaded := by
    have hall : ∀ bytecode ∈ (Bytecode.ofBytes
        [10, 16, 0, 0, 26, 0, 0, 0, 2, 2, 1, 3, 0, 10, 2, 4, 0, 0, 0, 27, 0, 0, 0, 2]).toOption,
        ∃ image ∈ compiled.images, image.bytecode = bytecode := by decide +kernel
    intro bytecode hload
    exact hall bytecode (by rw [hload]; rfl)
  obtain ⟨⟨creator, hran, hfunction⟩, hkept⟩ :=
    closures_keep_constants ⟨16, 8, 4, none⟩ (compiled.perform reloaded)
      (.perform (.perform (.perform .new trivial) trivial) hown) (.run 50 0) trivial reloadedStart
      (Option.some_get _).symm _ (passes_afterSteps hmore)
      (mt List.length_eq_zero_iff.mpr hcallers) _ hfetch (.inl rfl)
  obtain ⟨constant, hfound, hcreated⟩ := hkept creator hran hfunction
  exact ⟨creator, constant, hran, hfunction, hfound, hcreated⟩

def foreign : Desk :=
  ((new ⟨16, 8, 4, none⟩).perform (.eval 50 "let f = fn() \x7b 5 \x7d;")).perform
    (.load [22, 7, 14, 0, 14, 0, 0, 0, 17, 0, 0, 15, 13, 0, 15, 15, 1, 16, 0, 0, 26, 0, 1, 1, 0, 14])

def foreignStart : Machine :=
  (foreign.starts? (.run 50 0)).get (by decide +kernel)

/-- The function finds a constant of the snapshot in place of its own. -/
theorem foreign_constant_is_loaded :
    ∃ machine creator, Passes foreignStart machine ∧ machine.callers ≠ [] ∧ creator ∈ foreign.ran ∧
      .function machine.frame.template ∈ creator.constants ∧
      machine.frame.template.code.fetch? machine.frame.ip = some (.ok ⟨.constant, [0]⟩) ∧
      machine.constants[0]? = some (.integer 7) ∧ creator.constants[0]? = some (.integer 5) := by
  obtain ⟨hmore, hcallers, ⟨creator, hran, hfunction, hcreated⟩, hfetch, hfound⟩ :
      (∀ count < 6, (step.run (foreignStart.afterSteps count)).1 = .ok true) ∧
      (foreignStart.afterSteps 6).callers.length ≠ 0 ∧
      (∃ creator ∈ foreign.ran,
        .function (foreignStart.afterSteps 6).frame.template ∈ creator.constants ∧
        creator.constants[0]? = some (.integer 5)) ∧
      (foreignStart.afterSteps 6).frame.template.code.fetch?
        (foreignStart.afterSteps 6).frame.ip = some (.ok ⟨.constant, [0]⟩) ∧
      (foreignStart.afterSteps 6).constants[0]? = some (.integer 7) := by decide +kernel
  exact ⟨_, creator, passes_afterSteps hmore, mt List.length_eq_zero_iff.mpr hcallers, hran,
    hfunction, hfetch, hfound, hcreated⟩

end Desk

end Stacklang
