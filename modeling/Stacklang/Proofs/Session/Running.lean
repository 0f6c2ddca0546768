import Stacklang.Proofs.Compile.Ready
import Stacklang.Proofs.Session.Inputs

namespace Stacklang

/-- Why an input may fail that gets as far as being run: the program is to blame, or a limit has been
reached. A global is missing only if the globals are too few. -/
def EvalError.Ordinary (config : Config) : EvalError → Prop
  | .runtime error =>
      (error.fault.ofLanguage = true ∨ error.fault.ofLimits = true) ∧
        ∀ index, error.fault = .globalOutOfRange index → config.globalsSize ≤ index
  | .crashed => False
  | .parse _ | .compile _ | .unfinished => True

namespace Session

open Machine

/-- A session between two inputs: its bindings and constants fit each other, and what is left in its
globals can be called with its constants. -/
structure Steady (session : Session) : Prop where
  consistent : session.Consistent
  globals : ∀ value ∈ session.globals, value.Good (Callable session.constants)

theorem new_steady (config : Config) : (new config).Steady :=
  ⟨new_consistent config, by simp [new]⟩

theorem Steady.compiled {session later : Session} {source : String} {image : Image}
    (steady : session.Steady) (hcompile : session.compile source = (.ok image, later)) :
    later.Steady ∧ later.config = session.config ∧
      image.bytecode.constants = later.constants ∧
      (start image.bytecode image.pool later.globals later.config later.world).Typed := by
  have hconsistent := steady.consistent.compile source
  rw [hcompile] at hconsistent
  obtain ⟨program, finish, code, -, hemits, hcode, hconstants, rfl⟩ :=
    compile_succeeds steady.consistent hcompile
  have hglobals : ∀ value ∈ session.globals, value.Good (Callable finish.constants) :=
    fun value member =>
      (steady.globals value member).mono fun callable => callable.mono hemits.constants
  refine ⟨⟨hconsistent, hglobals⟩, rfl, hconstants, ?_, ?_, ?_⟩
  · rw [← hconstants] at hglobals
    exact start_sound _ _ hglobals _ _
  · have hready := hemits.ready_main steady.consistent.valid steady.consistent.top hcode
    rw [← hconstants] at hready
    exact ⟨Nat.le_refl _, hready⟩
  · simp only [start, extendGlobals, Array.size_append, Array.size_replicate]
    omega

theorem Steady.compile {session : Session} (steady : session.Steady) (source : String) :
    (session.compile source).2.Steady := by
  cases hcompile : session.compile source with
  | mk outcome later =>
      cases outcome with
      | error error =>
          rw [(compile_fails hcompile).1]
          exact steady
      | ok image => exact (steady.compiled hcompile).1

theorem ordinary_of_stop {config : Config} {machine : Machine} {stop : Stop}
    {error : RuntimeError} (ordinary : Stop.Ordinary config stop)
    (houtcome : .failed error = machine.outcome stop) :
    (EvalError.runtime error).Ordinary config := by
  cases stop with
  | fault fault =>
      cases houtcome
      exact ordinary
  | builtinFault builtin fault =>
      cases houtcome
      refine ⟨.inl ordinary, ?_⟩
      rintro index rfl
      cases ordinary
  | crash => cases houtcome

theorem Steady.run {session : Session} (steady : session.Steady) {image : Image}
    (hconstants : image.bytecode.constants = session.constants)
    (typed : (start image.bytecode image.pool session.globals session.config session.world).Typed)
    (fuel : Nat) :
    (session.run fuel image).2.Steady ∧
      ∀ error, (session.run fuel image).1 = .error error → error.Ordinary session.config := by
  have hconsistent := steady.consistent.run fuel image
  obtain ⟨hglobals, hends⟩ := typed.run fuel
  have hpool : (start image.bytecode image.pool session.globals session.config
      session.world).constants = session.constants := hconstants
  rw [hpool] at hglobals
  unfold Session.run at hconsistent ⊢
  generalize Machine.run fuel _ = result at hconsistent hglobals hends ⊢
  obtain ⟨outcome, machine⟩ := result
  cases outcome with
  | finished => exact ⟨⟨hconsistent, hglobals⟩, by simp⟩
  | unfinished =>
      refine ⟨⟨hconsistent, hglobals⟩, ?_⟩
      rintro _ ⟨⟩
      trivial
  | failed error =>
      refine ⟨⟨hconsistent, hglobals⟩, ?_⟩
      rintro _ ⟨⟩
      obtain ⟨stop, houtcome, hordinary⟩ := hends
      exact ordinary_of_stop hordinary houtcome
  | crashed =>
      obtain ⟨stop, houtcome, hordinary⟩ := hends
      cases stop <;> cases houtcome
      cases hordinary

theorem Steady.eval {session : Session} (steady : session.Steady) (fuel : Nat) (source : String) :
    (session.eval fuel source).2.Steady ∧
      ∀ error, (session.eval fuel source).1 = .error error → error.Ordinary session.config := by
  unfold Session.eval
  cases hcompile : session.compile source with
  | mk outcome later =>
      cases outcome with
      | error error =>
          obtain ⟨rfl, hreason⟩ := compile_fails hcompile
          refine ⟨steady, ?_⟩
          rintro _ ⟨⟩
          rcases hreason with ⟨errors, rfl⟩ | ⟨reason, rfl⟩ <;> trivial
      | ok image =>
          obtain ⟨hsteady, hconfig, hconstants, htyped⟩ := steady.compiled hcompile
          rw [← hconfig]
          exact hsteady.run hconstants htyped fuel

theorem Steady.giveAll {session : Session} (steady : session.Steady) (inputs : List Input) :
    (session.giveAll inputs).Steady := by
  induction inputs generalizing session with
  | nil => exact steady
  | cons input rest ih =>
      cases input with
      | compile source => exact ih (steady.compile source)
      | eval fuel source => exact ih (steady.eval fuel source).1

theorem config_compile (session : Session) (source : String) :
    (session.compile source).2.config = session.config := by
  unfold Session.compile
  split
  next => rfl
  next => split <;> rfl

theorem config_giveAll (session : Session) (inputs : List Input) :
    (session.giveAll inputs).config = session.config := by
  induction inputs generalizing session with
  | nil => rfl
  | cons input rest ih =>
      refine (ih (session.give input)).trans ?_
      cases input with
      | compile source => exact config_compile session source
      | eval fuel source =>
          have hcompiled := config_compile session source
          simp only [give, Session.eval]
          cases hcompile : session.compile source with
          | mk outcome later =>
              rw [hcompile] at hcompiled
              cases outcome with
              | error error => exact hcompiled
              | ok image => exact (run_keeps fuel later image).2.2.trans hcompiled

/-- Whatever a session has been given, the next input never goes wrong inside the machine: it may fail
only because it is refused, because the program is to blame or because a limit has been reached. A run
that comes to the end of the program leaves the stack empty. -/
theorem compiled_code_never_goes_wrong (config : Config) (inputs : List Input) (fuel : Nat)
    (source : String) :
    (∀ error, (((new config).giveAll inputs).eval fuel source).1 = .error error →
      error.Ordinary config) ∧
    ∀ image later machine,
      ((new config).giveAll inputs).compile source = (.ok image, later) →
      Machine.run fuel
        (.start image.bytecode image.pool later.globals later.config later.world) =
          (.finished, machine) →
      machine.sp = 0 := by
  have hsteady := (new_steady config).giveAll inputs
  constructor
  · have hordinary := (hsteady.eval fuel source).2
    rwa [config_giveAll] at hordinary
  · intro image later machine hcompile hrun
    obtain ⟨-, -, -, htyped⟩ := hsteady.compiled hcompile
    have hends := (htyped.run fuel).2
    rw [hrun] at hends
    exact hends

def counting : Session :=
  (new ⟨16, 8, 4, none⟩).giveAll
    [.eval 50 "let adder = fn(x) \x7b fn(y) \x7b if (x == y) \x7b return 1 / 0; \x7d x + y \x7d \x7d;
       let next = adder(1);", .eval 50 "next(true)"]

theorem compiled_code_never_goes_wrong_later :
    (∃ error, (counting.eval 50 "next(1)").1 = .error error ∧
      error.Ordinary ⟨16, 8, 4, none⟩) ∧
    ∃ image later machine, counting.compile "next(2)" = (.ok image, later) ∧
      Machine.run 50 (.start image.bytecode image.pool later.globals later.config later.world) =
        (.finished, machine) ∧ machine.sp = 0 := by
  constructor
  · have hfails : (counting.eval 50 "next(1)").1.isOk = false := by decide +kernel
    cases herror : (counting.eval 50 "next(1)").1 with
    | ok value =>
        rw [herror] at hfails
        cases hfails
    | error error =>
        exact ⟨error, rfl, (compiled_code_never_goes_wrong _ _ 50 _).1 error herror⟩
  · have hends : (counting.eval 50 "next(2)").1.isOk = true := by decide +kernel
    rw [Session.eval] at hends
    cases hcompile : counting.compile "next(2)" with
    | mk outcome later =>
        rw [hcompile] at hends
        cases outcome with
        | error error => cases hends
        | ok image =>
            dsimp only [Session.run] at hends
            cases hrun : Machine.run 50
                (.start image.bytecode image.pool later.globals later.config later.world) with
            | mk ended machine =>
                rw [hrun] at hends
                cases ended with
                | finished =>
                    exact ⟨image, later, machine, rfl, hrun,
                      (compiled_code_never_goes_wrong _ _ 50 _).2 image later machine hcompile hrun⟩
                | failed error => cases hends
                | crashed => cases hends
                | unfinished => cases hends

end Session

end Stacklang
