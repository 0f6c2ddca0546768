import Stacklang.Proofs.Compile.Outcome
import Stacklang.Proofs.Program.Settled

namespace Stacklang

/-- The names that the program binds at the top level, in the order of compilation. A branch binds
its names there as well. -/
def Program.lets (program : Program) : List String :=
  (Stmt.boundIn program.statements).reverse

namespace Compiler

/-- No function is being compiled: the code at hand is that of the main program, and its table, one
that the operations on tables can make, is that of the top level. -/
structure AtRest (compiler : Compiler) : Prop where
  pending : compiler.pending = []
  reached : compiler.scope.Reached
  outer : compiler.scope.outer = []

/-- What a compilation that was at rest comes to when it has bound the given names. Each of them has
a slot of its own behind those that were given out before, and means the latest of its slots. -/
structure Restored (compiler : Compiler) (lets : List String) (later : Compiler) : Prop where
  atRest : later.AtRest
  captures : later.scope.table.captures = []
  definitions : later.scope.table.definitions = compiler.scope.table.definitions + lets.length
  unbound : ∀ name, name ∉ lets →
    later.scope.table.lookup? name = compiler.scope.table.lookup? name
  bound : ∀ earlier name further, lets = earlier ++ name :: further → name ∉ further →
    later.scope.table.lookup? name =
      some ⟨name, .global, compiler.scope.table.definitions + earlier.length⟩
  constants : compiler.constants.toList <+: later.constants.toList
  code : compiler.draft.code.toList <+: later.draft.code.toList

end Compiler

namespace Compile

open Fallible

theorem Binds.boundIn {stmts : List Stmt} {names : List String}
    (hbinds : Binds (Stmt.surveyAll stmts) names) : Stmt.boundIn stmts = names :=
  (hbinds .empty).trans (List.append_nil _)

theorem surveyAll_append (first second : List Stmt) :
    Stmt.surveyAll (first ++ second) = Stmt.surveyAll second ∘ Stmt.surveyAll first := by
  induction first with
  | nil => rfl
  | cons stmt rest ih =>
      funext survey
      exact congrFun ih (stmt.survey survey)

theorem lets_append {first second : List Stmt} {names more : List String}
    (hfirst : Binds (Stmt.surveyAll first) names) (hsecond : Binds (Stmt.surveyAll second) more) :
    Program.lets ⟨first ++ second⟩ = names.reverse ++ more.reverse := by
  have hboth : Binds (Stmt.surveyAll (first ++ second)) (more ++ names) := by
    rw [surveyAll_append]
    exact hfirst.comp hsecond
  rw [Program.lets, hboth.boundIn, List.reverse_append]

theorem compileAll_fails {stmts : List Stmt} {before after : Compiler} {error : CompileError}
    (hrun : (Stmt.compileAll stmts).run before = (.error error, after)) :
    ∃ done stmt rest middle, stmts = done ++ stmt :: rest ∧
      (Stmt.compileAll done).run before = (.ok (), middle) ∧
      stmt.compile.run middle = (.error error, after) := by
  induction stmts generalizing before with
  | nil => cases hrun
  | cons stmt rest ih =>
      rw [Stmt.compileAll, run_bind] at hrun
      cases hstmt : stmt.compile.run before with
      | mk outcome middle =>
          rw [hstmt] at hrun
          cases outcome with
          | error _ =>
              cases hrun
              exact ⟨[], stmt, rest, before, rfl, rfl, hstmt⟩
          | ok _ =>
              obtain ⟨done, failing, behind, between, rfl, hdone, hfailing⟩ := ih hrun
              refine ⟨stmt :: done, failing, behind, between, rfl, ?_, hfailing⟩
              exact bind_succeeds.mpr ⟨(), middle, hstmt, hdone⟩

theorem Keeps.restored {names : List String} {before after : Compiler}
    (keeps : Keeps names before after) (atRest : before.AtRest) :
    before.Restored names.reverse after := by
  have hscope := keeps.scope.top atRest.outer
  have hafter : after.AtRest := by
    refine ⟨keeps.pending.trans atRest.pending, keeps.scope.reached atRest.reached, ?_⟩
    rw [hscope, Scope.outer_defineAll, atRest.outer]
  -- What the top level captured would have to come from a table around it.
  have hcaptures : after.scope.table.captures = [] := by
    have hlinked := hafter.reached.linked
    rw [Scope.Linked, hafter.outer] at hlinked
    exact hlinked.2
  refine ⟨hafter, hcaptures, ?_, ?_, ?_, keeps.constants, keeps.code⟩
  · rw [hscope, Scope.definitions_defineAll, List.length_reverse]
  · intro name hunbound
    rw [hscope]
    exact Scope.lookup?_defineAll_unbound atRest.outer (by simpa using hunbound)
  · intro earlier name further hlets hunbound
    rw [List.reverse_eq_iff, List.reverse_append, List.reverse_cons, List.append_assoc] at hlets
    have hnew : name ∉ further.reverse := by simpa using hunbound
    rw [hscope, hlets]
    simpa using Scope.lookup?_defineAll_bound atRest.outer hnew earlier.reverse

end Compile

namespace Compiler

open Compile Fallible

theorem atRest_fresh : fresh.AtRest :=
  ⟨rfl, Scope.withBuiltins_has.1, rfl⟩

/-- Whether a program compiles or not, the compilation is at rest again and has kept what was there.
It has bound the program's names; if an error stopped it, those of the statements before the error,
and of the failing statement those that come before the error. -/
theorem add_restores {compiler : Compiler} (atRest : compiler.AtRest) (program : Program) :
    ∃ lets, compiler.Restored lets (compiler.add program).2 ∧
      ((compiler.add program).1 = .ok () → lets = program.lets) ∧
      ∀ error, (compiler.add program).1 = .error error →
        ∃ done stmt rest, program.statements = done ++ stmt :: rest ∧
          (compiler.add ⟨done⟩).1 = .ok () ∧
          Program.lets ⟨done⟩ <+: lets ∧ lets <+: Program.lets ⟨done ++ [stmt]⟩ := by
  obtain ⟨statements⟩ := program
  cases hrun : (Stmt.compileAll statements).run compiler with
  | mk outcome after =>
      have hadd : compiler.add ⟨statements⟩ = (outcome, after) := hrun
      rw [hadd]
      cases outcome with
      | ok _ =>
          obtain ⟨names, hbinds, hkeeps⟩ := block_tidy (Stmt.tidy statements)
          have hmeets := hkeeps compiler
          rw [KeepsFrom, Meets, hrun] at hmeets
          refine ⟨names.reverse, hmeets.restored atRest, ?_, ?_⟩
          · intro _
            rw [Program.lets, hbinds.boundIn]
          · intro _ herror
            cases herror
      | error error =>
          obtain ⟨done, stmt, rest, middle, rfl, hdone, hstmt⟩ := compileAll_fails hrun
          obtain ⟨names, hbinds, hkeeps⟩ := block_tidy (Stmt.tidy done)
          obtain ⟨more, hbinds', hkeeps'⟩ := block_tidy (Stmt.tidy [stmt])
          have hfirst := hkeeps compiler
          rw [KeepsFrom, Meets, hdone] at hfirst
          have hsecond := hkeeps' middle
          rw [KeepsFrom, Meets, Stmt.compileAll, run_bind, hstmt] at hsecond
          obtain ⟨bound, hbound, hleft⟩ := hsecond
          refine ⟨(bound ++ names).reverse, (hfirst.trans hleft).restored atRest, ?_, ?_⟩
          · intro hok
            cases hok
          · intro _ _
            refine ⟨done, stmt, rest, rfl, congrArg Prod.fst hdone, ?_⟩
            rw [lets_append hbinds hbinds', Program.lets, hbinds.boundIn, List.reverse_append]
            exact ⟨List.prefix_append _ _,
              (List.prefix_append_right_inj _).mpr (List.reverse_prefix.mpr hbound)⟩

/-- A name that is not found inside two functions leaves nothing behind but the name that was bound
before, and the next program compiles. -/
theorem add_restores_after_failure :
    let failing : Program := ⟨[.bind "a" (.integer 1),
      .bind "f" (.function (some "f") ["x"]
        [.expr (.function none [] [.expr (.binary .add (.ident "x") (.ident "missing"))])])]⟩
    let following : Program := ⟨[.bind "b" (.ident "a")]⟩
    let failed := (fresh.add failing).2
    (fresh.add failing).1 = .error (.unresolved "missing") ∧
      (failed.add following).1 = .ok () ∧
      failed.Restored ["b"] (failed.add following).2 := by
  intro failing following failed
  have hfails : (fresh.add failing).1 = .error (.unresolved "missing") := by decide +kernel
  have hok : (failed.add following).1 = .ok () := by decide +kernel
  obtain ⟨_, hfailed, -, -⟩ := add_restores atRest_fresh failing
  obtain ⟨lets, hrestored, hlets, -⟩ := add_restores hfailed.atRest following
  have hnames : following.lets = ["b"] := by decide +kernel
  rw [hlets hok, hnames] at hrestored
  exact ⟨hfails, hok, hrestored⟩

end Compiler

end Stacklang
