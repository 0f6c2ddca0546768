import Stacklang.Proofs.Compile.Success
import Stacklang.Proofs.Compile.Verified
import Stacklang.Session

namespace Stacklang.Session

inductive Input where
  | compile (source : String)
  | eval (fuel : Nat) (source : String)

def give (session : Session) : Input → Session
  | .compile source => (session.compile source).2
  | .eval fuel source => (session.eval fuel source).2

def giveAll (session : Session) (inputs : List Input) : Session :=
  inputs.foldl give session

/-- The bindings and constants of a session fit each other: those of the top level are in scope, and
every function is accepted. -/
structure Consistent (session : Session) : Prop where
  valid : session.scope.Valid
  top : session.scope.isTopLevel = true
  sound : Compile.Sound session.constants

theorem new_consistent (config : Config) : (new config).Consistent :=
  ⟨Scope.withBuiltins_valid.1, Scope.withBuiltins_valid.2, by simp [Compile.Sound, new]⟩

theorem compile_succeeds {session later : Session} {source : String} {image : Image}
    (consistent : session.Consistent)
    (hcompile : session.compile source = (.ok image, later)) :
    ∃ (program : Program) (finish : Compile.Stage) (code : List Instruction),
      Program.ofSource source = .ok program ∧
      Compile.Emits (.block program.statements) ⟨session.scope, session.constants⟩ 0 code finish ∧
      image.bytecode.code.toList = Instruction.encodeAll code ∧
      image.bytecode.constants = finish.constants ∧
      later = { session with scope := finish.scope, constants := finish.constants } := by
  unfold compile at hcompile
  cases hparse : Program.ofSource source with
  | error errors =>
      rw [hparse] at hcompile
      cases hcompile
  | ok program =>
      cases hadd : (Compiler.resume session.scope session.constants).add program with
      | mk outcome compiler =>
          cases outcome with
          | error error =>
              simp only [hparse, hadd] at hcompile
              cases hcompile
          | ok =>
              simp only [hparse, hadd] at hcompile
              cases hcompile
              obtain ⟨code, hemits, hcode⟩ :=
                Compiler.add_succeeds consistent.valid consistent.top hadd
              exact ⟨program, _, code, rfl, hemits, hcode, rfl, rfl⟩

theorem compile_fails {session later : Session} {source : String} {error : EvalError}
    (hcompile : session.compile source = (.error error, later)) :
    later = session ∧ ((∃ errors, error = .parse errors) ∨ ∃ reason, error = .compile reason) := by
  unfold compile at hcompile
  split at hcompile
  next errors _ =>
    cases hcompile
    exact ⟨rfl, .inl ⟨errors, rfl⟩⟩
  next =>
    split at hcompile
    next reason _ _ =>
      cases hcompile
      exact ⟨rfl, .inr ⟨reason, rfl⟩⟩
    next => cases hcompile

theorem Consistent.compile {session : Session} (consistent : session.Consistent)
    (source : String) : (session.compile source).2.Consistent := by
  cases hcompile : session.compile source with
  | mk outcome later =>
      cases outcome with
      | error error =>
          rw [(compile_fails hcompile).1]
          exact consistent
      | ok image =>
          obtain ⟨program, finish, code, -, hemits, -, -, rfl⟩ :=
            compile_succeeds consistent hcompile
          obtain ⟨hvalid, hgrows⟩ := hemits.valid consistent.valid
          exact ⟨hvalid, hgrows.isTopLevel.trans consistent.top,
            hemits.sound consistent.valid consistent.sound⟩

theorem run_keeps (fuel : Nat) (session : Session) (image : Image) :
    (session.run fuel image).2.scope = session.scope ∧
      (session.run fuel image).2.constants = session.constants ∧
      (session.run fuel image).2.config = session.config := by
  unfold run
  dsimp only
  split <;> exact ⟨rfl, rfl, rfl⟩

theorem Consistent.run {session : Session} (consistent : session.Consistent) (fuel : Nat)
    (image : Image) : (session.run fuel image).2.Consistent := by
  obtain ⟨hscope, hconstants, -⟩ := run_keeps fuel session image
  exact ⟨hscope ▸ consistent.valid, hscope ▸ consistent.top, hconstants ▸ consistent.sound⟩

theorem Consistent.eval {session : Session} (consistent : session.Consistent) (fuel : Nat)
    (source : String) : (session.eval fuel source).2.Consistent := by
  have hcompiled := consistent.compile source
  unfold Session.eval
  cases hcompile : session.compile source with
  | mk outcome later =>
      rw [hcompile] at hcompiled
      cases outcome with
      | error error => exact hcompiled
      | ok image => exact hcompiled.run fuel image

theorem Consistent.give {session : Session} (consistent : session.Consistent) (input : Input) :
    (session.give input).Consistent := by
  cases input with
  | compile source => exact consistent.compile source
  | eval fuel source => exact consistent.eval fuel source

theorem Consistent.giveAll {session : Session} (consistent : session.Consistent)
    (inputs : List Input) : (session.giveAll inputs).Consistent := by
  induction inputs generalizing session with
  | nil => exact consistent
  | cons input rest ih => exact ih (consistent.give input)

/-- Whatever a session has been given, what it compiles next passes the checks on bytecode, the
functions of all earlier inputs included. -/
theorem compiled_bytecode_verifies (config : Config) (inputs : List Input) (source : String)
    (image : Image) (later : Session)
    (hcompile : ((new config).giveAll inputs).compile source = (.ok image, later)) :
    image.bytecode.verify = .ok () := by
  have consistent := (new_consistent config).giveAll inputs
  obtain ⟨program, finish, code, -, hemits, hcode, hconstants, -⟩ :=
    compile_succeeds consistent hcompile
  have hverify := hemits.verify consistent.valid consistent.top consistent.sound hcode
  rw [← hconstants] at hverify
  exact hverify

def tried : Session :=
  (new ⟨16, 8, 4, none⟩).giveAll
    [.eval 20 "let f = fn(x) \x7b if (x) \x7b x \x7d \x7d;", .compile "g", .eval 20 "f(1 / 0)"]

theorem compiled_bytecode_verifies_after_failures :
    ∃ image later, tried.compile "fn() \x7b f \x7d; f(true)" = (.ok image, later) ∧
      image.bytecode.verify = .ok () := by
  have hcompiles : (tried.compile "fn() \x7b f \x7d; f(true)").1.isOk = true := by decide +kernel
  cases hcompile : tried.compile "fn() \x7b f \x7d; f(true)" with
  | mk outcome later =>
      rw [hcompile] at hcompiles
      cases outcome with
      | ok image => exact ⟨image, later, rfl, compiled_bytecode_verifies _ _ _ image later hcompile⟩
      | error error => cases hcompiles

end Stacklang.Session
