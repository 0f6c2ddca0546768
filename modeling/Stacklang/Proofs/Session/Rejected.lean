import Stacklang.Proofs.Compile.Settled
import Stacklang.Proofs.Session.Inputs

namespace Stacklang

def Program.Binds (source name : String) : Prop :=
  ∃ program, Program.ofSource source = .ok program ∧ name ∈ Stmt.boundIn program.statements

theorem Program.binds_iff {source name : String} :
    Binds source name ↔
      ∃ program ∈ (Program.ofSource source).toOption, name ∈ Stmt.boundIn program.statements := by
  rw [Binds]
  cases Program.ofSource source with
  | error errors => simp [Except.toOption]
  | ok program => simp [Except.toOption]

instance (source name : String) : Decidable (Program.Binds source name) :=
  decidable_of_iff _ Program.binds_iff.symm

def EvalError.isRejection : EvalError → Bool
  | parse _ | compile _ => true
  | runtime _ | crashed | unfinished => false

theorem Constant.Grows.isPrefix {constants later : Array Constant}
    (grows : Grows constants later) : constants.toList <+: later.toList := by
  rw [List.prefix_iff_getElem?]
  intro index hindex
  have hfound := grows (Array.getElem?_eq_getElem hindex)
  rw [Array.getElem?_toList, hfound]
  rfl

namespace Session

structure Reply where
  outcome : Except EvalError Value
  printed : String

def Reply.rejects (reply : Reply) : Bool :=
  match reply.outcome with
  | .ok _ => false
  | .error error => error.isRejection

def answer (session : Session) (fuel : Nat) (source : String) : Reply × Session :=
  let (outcome, later) := session.eval fuel source
  (⟨outcome, later.world.printed⟩, later.silence)

def converse (session : Session) :
    List (Nat × String) → List ((Nat × String) × Reply) × Session
  | [] => ([], session)
  | (fuel, source) :: rest =>
      let (reply, session) := session.answer fuel source
      let (transcript, last) := session.converse rest
      (((fuel, source), reply) :: transcript, last)

theorem run_accepts (fuel : Nat) (session : Session) (image : Image) {error : EvalError}
    (hfails : (session.run fuel image).1 = .error error) : error.isRejection = false := by
  unfold run at hfails
  dsimp only at hfails
  split at hfails <;> cases hfails <;> rfl

theorem answer_rejects {session : Session} {fuel : Nat} {source : String}
    (hrejects : (session.answer fuel source).1.rejects = true) :
    (session.answer fuel source).2 = session.silence := by
  unfold answer eval at hrejects ⊢
  cases hcompile : session.compile source with
  | mk outcome later =>
      rw [hcompile] at hrejects
      cases outcome with
      | error error =>
          obtain ⟨rfl, -⟩ := compile_fails hcompile
          rfl
      | ok image =>
          change Reply.rejects ⟨(later.run fuel image).1, _⟩ = true at hrejects
          cases hrun : (later.run fuel image).1 with
          | ok value =>
              rw [hrun] at hrejects
              cases hrejects
          | error error =>
              rw [hrun] at hrejects
              exact absurd hrejects (by simp [Reply.rejects, run_accepts fuel later image hrun])

/-- The inputs of a transcript without those that were rejected have the rest of it for a transcript,
and the session comes out the same. -/
theorem converse_accepted {session : Session} (hsilent : session.silence = session)
    (inputs : List (Nat × String)) :
    let accepted := (session.converse inputs).1.filter fun entry => !entry.2.rejects
    session.converse (accepted.map Prod.fst) = (accepted, (session.converse inputs).2) := by
  induction inputs generalizing session with
  | nil => rfl
  | cons input rest ih =>
      obtain ⟨fuel, source⟩ := input
      dsimp only at ih ⊢
      have hrest := @ih (session.answer fuel source).2 rfl
      cases hrejects : (session.answer fuel source).1.rejects with
      | true =>
          rw [answer_rejects hrejects, hsilent] at hrest
          simp only [converse, answer_rejects hrejects, hsilent, List.filter_cons, hrejects]
          exact hrest
      | false =>
          simp only [converse, List.filter_cons, hrejects, Bool.not_false, if_true, List.map_cons,
            hrest]

theorem Consistent.silence {session : Session} (consistent : session.Consistent) :
    session.silence.Consistent :=
  ⟨consistent.valid, consistent.top, consistent.sound⟩

theorem Consistent.converse {session : Session} (consistent : session.Consistent)
    (inputs : List (Nat × String)) : (session.converse inputs).2.Consistent := by
  induction inputs generalizing session with
  | nil => exact consistent
  | cons input rest ih => exact ih (consistent.eval input.1 input.2).silence

theorem eval_keeps (session : Session) (fuel : Nat) (source : String) :
    (session.eval fuel source).2.scope = (session.compile source).2.scope ∧
      (session.eval fuel source).2.constants = (session.compile source).2.constants := by
  unfold eval
  cases hcompile : session.compile source with
  | mk outcome later =>
      cases outcome with
      | error error => exact ⟨rfl, rfl⟩
      | ok image => exact ⟨(run_keeps fuel later image).1, (run_keeps fuel later image).2.1⟩

theorem Consistent.compile_extends {session : Session} (consistent : session.Consistent)
    (source : String) :
    Constant.Grows session.constants (session.compile source).2.constants ∧
      ∀ name, ¬Program.Binds source name →
        (session.compile source).2.scope.table.own? name = session.scope.table.own? name := by
  cases hcompile : session.compile source with
  | mk outcome later =>
      cases outcome with
      | error error =>
          obtain ⟨rfl, -⟩ := compile_fails hcompile
          exact ⟨.refl _, fun _ _ => rfl⟩
      | ok image =>
          obtain ⟨program, finish, code, hparse, hemits, -, -, rfl⟩ :=
            compile_succeeds consistent hcompile
          refine ⟨hemits.constants, fun name hunbound => ?_⟩
          exact hemits.own?_unbound consistent.valid fun member =>
            hunbound ⟨program, hparse, member⟩

theorem Consistent.eval_resolve {session : Session} (consistent : session.Consistent) (fuel : Nat)
    {source name : String} (hunbound : ¬Program.Binds source name) :
    ((session.eval fuel source).2.scope.resolve name).map Prod.fst =
      (session.scope.resolve name).map Prod.fst := by
  have hlater := consistent.compile source
  rw [(eval_keeps session fuel source).1, Scope.resolve_top hlater.valid hlater.top,
    Scope.resolve_top consistent.valid consistent.top,
    (consistent.compile_extends source).2 name hunbound]
  simp only [Option.map_map]
  rfl

/-- Without the inputs that are rejected, a session answers the others as it does with them, and ends
with the same names, constants and globals. Whatever becomes of an input, the constants of the session
begin with those that it had, and the names that the input does not bind mean what they meant. -/
theorem rejected_inputs_leave_no_trace (config : Config) (inputs : List (Nat × String)) :
    let whole := (new config).converse inputs
    let accepted := whole.1.filter fun entry => !entry.2.rejects
    let shortened := (new config).converse (accepted.map Prod.fst)
    (shortened.1 = accepted ∧ shortened.2.scope = whole.2.scope ∧
      shortened.2.constants = whole.2.constants ∧ shortened.2.globals = whole.2.globals) ∧
    ∀ fuel source,
      whole.2.constants.toList <+: (whole.2.answer fuel source).2.constants.toList ∧
      ∀ name, ¬Program.Binds source name →
        ((whole.2.answer fuel source).2.scope.resolve name).map Prod.fst =
          (whole.2.scope.resolve name).map Prod.fst := by
  intro whole accepted shortened
  have hconsistent : whole.2.Consistent := (new_consistent config).converse inputs
  have hshortened : shortened = (accepted, whole.2) :=
    converse_accepted (rfl : (new config).silence = new config) inputs
  rw [hshortened]
  refine ⟨⟨rfl, rfl, rfl, rfl⟩, fun fuel source => ⟨?_, fun name hunbound => ?_⟩⟩
  · change _ <+: (whole.2.eval fuel source).2.constants.toList
    rw [(eval_keeps _ fuel source).2]
    exact (hconsistent.compile_extends source).1.isPrefix
  · exact hconsistent.eval_resolve fuel hunbound

def attempts : List (Nat × String) :=
  [(50, "let a = [1]; puts(a)"), (50, "let a = 2; let b = c;"), (50, "let a = )"),
    (50, "a / 0; let b = 3;"), (50, "let c = b; a")]

theorem rejected_attempts_leave_no_trace :
    let whole := (new ⟨16, 8, 4, none⟩).converse attempts
    let shortened := (new ⟨16, 8, 4, none⟩).converse
      [(50, "let a = [1]; puts(a)"), (50, "a / 0; let b = 3;"), (50, "let c = b; a")]
    shortened.1 = whole.1.filter (fun entry => !entry.2.rejects) ∧
    shortened.2.scope = whole.2.scope ∧
    ¬Program.Binds "fn() \x7b let a = 4; a \x7d; a / 0" "a" ∧
    ((whole.2.answer 50 "fn() \x7b let a = 4; a \x7d; a / 0").2.scope.resolve "a").map Prod.fst =
      (whole.2.scope.resolve "a").map Prod.fst := by
  have hinputs : (((new ⟨16, 8, 4, none⟩).converse attempts).1.filter
      (fun entry => !entry.2.rejects)).map Prod.fst =
      [(50, "let a = [1]; puts(a)"), (50, "a / 0; let b = 3;"), (50, "let c = b; a")] := by
    decide +kernel
  have hunbound : ¬Program.Binds "fn() \x7b let a = 4; a \x7d; a / 0" "a" := by decide +kernel
  obtain ⟨⟨hanswered, hscope, -, -⟩, hlater⟩ :=
    rejected_inputs_leave_no_trace ⟨16, 8, 4, none⟩ attempts
  rw [hinputs] at hanswered hscope
  exact ⟨hanswered, hscope, hunbound, (hlater 50 _).2 "a" hunbound⟩

end Session

end Stacklang
