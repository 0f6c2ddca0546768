import Stacklang.Proofs.Compile.Outcome
import Stacklang.Proofs.Program.Walk

namespace Stacklang

namespace Compile

open Fallible

structure Sees (compiler : Compiler) (sight : Sight) : Prop where
  reached : compiler.scope.Reached
  visible : ∀ name, name ∈ sight.visible ↔ compiler.scope.Has name
  inFunction : sight.inFunction = !compiler.pending.isEmpty

namespace Sees

variable {before after : Compiler} {sight : Sight}

theorem keeps {names : List String} (sees : Sees before sight) (keeps : Keeps names before after) :
    Sees after { sight with visible := names ++ sight.visible } := by
  refine ⟨keeps.scope.reached sees.reached, fun name => ?_, ?_⟩
  · rw [keeps.scope.has sees.reached, List.mem_append, sees.visible]
  · rw [keeps.pending]
    exact sees.inFunction

theorem redraft (sees : Sees before sight) (draft : Draft) : Sees { before with draft } sight :=
  ⟨sees.reached, sees.visible, sees.inFunction⟩

theorem entered (sees : Sees before sight) (name : Option String) (parameters : List String) :
    Sees (entered before name parameters)
      ⟨parameters ++ name.toList ++ sight.visible, true⟩ := by
  refine ⟨Scope.reached_entry sees.reached name parameters, fun other => ?_, rfl⟩
  exact (List.mem_append.trans (or_congr_right (sees.visible other))).trans
    (before.scope.has_entry name parameters other).symm

end Sees

/-- Why a compilation can stop that comes to these visits. -/
def Refused (visits : List Visit) (error : CompileError) : Prop :=
  error.Exceeds ∨ ∃ visit, Visit.offence? visits = some visit ∧ error = visit.error

theorem Refused.more {visits : List Visit} {error : CompileError} (refused : Refused visits error)
    (more : List Visit) : Refused (visits ++ more) error := by
  rcases refused with hexceeds | ⟨visit, hvisit, rfl⟩
  · exact .inl hexceeds
  · exact .inr ⟨visit, by rw [Visit.offence?_append, hvisit, Option.some_or], rfl⟩

theorem Refused.behind {visits more : List Visit} {error : CompileError}
    (refused : Refused more error) (hnone : Visit.offence? visits = none) :
    Refused (visits ++ more) error := by
  rcases refused with hexceeds | ⟨visit, hvisit, rfl⟩
  · exact .inl hexceeds
  · exact .inr ⟨visit, by rw [Visit.offence?_append, hnone, Option.none_or, hvisit], rfl⟩

structure Passed (walk : Walk) (sight : Sight) (after : Compiler) : Prop where
  sees : Sees after (walk sight).2
  allowed : Visit.offence? (walk sight).1 = none

theorem Passed.andThen {first second : Walk} {sight : Sight} {middle after : Compiler}
    (hfirst : Passed first sight middle) (hsecond : Passed second (first sight).2 after) :
    Passed (first.andThen second) sight after := by
  refine ⟨hsecond.sees, ?_⟩
  rw [Walk.andThen, Visit.offence?_append, hfirst.allowed, hsecond.allowed, Option.or_none]

/-- From wherever it sees the names in sight, the step stops at the first visit that is not allowed;
if there is none, it passes. -/
def Answers (step : CompileM Unit) (walk : Walk) : Prop :=
  ∀ before sight, Sees before sight →
    Meets step before (fun _ after => Passed walk sight after)
      (fun error _ => Refused (walk sight).1 error)

namespace Answers

theorem andThen {step next : CompileM Unit} {first second : Walk} (hstep : Answers step first)
    (hnext : Answers next second) :
    Answers (step >>= fun _ => next) (first.andThen second) := by
  intro before sight sees
  apply (hstep before sight sees).andThen
  · intro _ middle hmiddle
    apply (hnext middle _ hmiddle.sees).mono
    · intro _ after hafter
      exact hmiddle.andThen hafter
    · intro error _ hbad
      exact hbad.behind hmiddle.allowed
  · intro error _ hbad
    exact hbad.more _

theorem stay {step : CompileM Unit} (hkeeps : Keeping step [])
    (hexceeds : ∀ before, Meets step before (fun _ _ => True) (fun error _ => error.Exceeds)) :
    Answers step .stay := by
  intro before sight sees
  apply ((hkeeps before).and (hexceeds before)).mono
  · intro _ after hafter
    exact ⟨sees.keeps hafter.1, rfl⟩
  · intro error _ hbad
    exact .inl hbad.2

theorem emit (op : Opcode) (operands : List Nat) :
    Answers (discard (Compile.emit op operands)) .stay :=
  .stay (keeping_emit op operands).discard (exceeds_emit op operands)

theorem thenEmit {step : CompileM Unit} {walk : Walk} (hstep : Answers step walk) (op : Opcode)
    (operands : List Nat) :
    Answers (step >>= fun _ => discard (Compile.emit op operands)) walk := by
  have hboth := hstep.andThen (.emit op operands)
  rwa [Walk.andThen_stay] at hboth

theorem literal (constant : Constant) :
    Answers (do
      let index ← addConstant constant
      discard (Compile.emit .constant [index])) .stay :=
  .stay ((keeping_addConstant constant).bind fun _ => (keeping_emit _ _).discard)
    fun _ => Meets.bind (exceeds_emit _ _ _)

/-- A step that begins with a visit: where that is not allowed, it stops at once. -/
theorem visiting {step : CompileM Unit} {what : Sight → Visit} {walk : Walk}
    (hallowed : ∀ before sight, Sees before sight → (what sight).Allowed →
      Meets step before (fun _ after => Passed walk sight after)
        (fun error _ => Refused (walk sight).1 error))
    (hrefused : ∀ before sight, Sees before sight → ¬(what sight).Allowed →
      Meets step before (fun _ _ => False) (fun error _ => error = (what sight).error)) :
    Answers step ((Walk.visit what).andThen walk) := by
  intro before sight sees
  by_cases hvisit : (what sight).Allowed
  · have hfirst : Passed (Walk.visit what) sight before :=
      ⟨sees, by simp [Visit.offence?, Walk.visit, hvisit]⟩
    apply (hallowed before sight sees hvisit).mono
    · intro _ after hafter
      exact hfirst.andThen hafter
    · intro error _ hbad
      exact hbad.behind hfirst.allowed
  · apply (hrefused before sight sees hvisit).mono
    · intro _ _ habsurd
      exact habsurd.elim
    · intro error _ herror
      exact .inr ⟨what sight, by simp [Visit.offence?, Walk.andThen, Walk.visit, hvisit], herror⟩

theorem ident (name : String) :
    Answers (do
      let symbol ← resolve name
      load symbol) (.visit fun sight => .ident name sight.visible) := by
  rw [← Walk.andThen_stay (.visit _)]
  have hresolves : ∀ before sight, Sees before sight →
      ((before.scope.resolve name).isSome = true ↔ name ∈ sight.visible) :=
    fun before sight sees => (Scope.resolve_isSome sees.reached name).trans (sees.visible name).symm
  apply visiting
  · intro before sight sees hvisible
    obtain ⟨⟨symbol, scope⟩, hresolve⟩ :=
      Option.isSome_iff_exists.mp ((hresolves before sight sees).mpr hvisible)
    have hkeeps : Keeps [] before { before with scope } :=
      ⟨rfl, .resolve .refl hresolve, List.prefix_refl _, List.prefix_refl _⟩
    unfold Meets
    rw [run_bind, resolve_run hresolve]
    exact Answers.stay (keeping_load symbol) (exceeds_load symbol) _ sight (sees.keeps hkeeps)
  · intro before sight sees hhidden
    have hnone : before.scope.resolve name = none := by
      rw [← Option.not_isSome_iff_eq_none, hresolves before sight sees]
      exact hhidden
    unfold Meets
    rw [run_bind, resolve, run_bind, run_get]
    simp only [hnone]
    rfl

theorem binary {left right : CompileM Unit} {first second : Walk} (hleft : Answers left first)
    (hright : Answers right second) {op : BinaryOp} (hless : op ≠ .less) :
    Answers (Compile.binary op left right)
      ((Walk.visit fun _ => .operator op).andThen (first.andThen second)) := by
  rw [binary_eq hless]
  apply visiting
  · intro before sight sees hallowed
    cases hop : binaryOpcode? op with
    | none => cases op <;> simp_all [binaryOpcode?, Visit.Allowed]
    | some opcode => exact hleft.andThen (hright.thenEmit opcode []) before sight sees
  · intro before sight sees hrefused
    have hnone : binaryOpcode? op = none := by
      cases op <;> simp_all [binaryOpcode?, Visit.Allowed]
    rw [hnone]
    rfl

/-! Statements and what is made of them. -/

theorem bind (name : String) :
    Answers (do
      let symbol ← define name
      match symbol.place with
      | .global => discard (Compile.emit .setGlobal [symbol.index])
      | _ => discard (Compile.emit .setLocal [symbol.index])) (.bind name) := by
  intro before sight sees
  have hsees : Sees { before with scope := (before.scope.define name).2 } _ :=
    sees.keeps (keeping_define name before)
  apply Meets.bind
  change Meets (match (before.scope.define name).1.place with | .global => _ | _ => _) _ _ _
  cases (before.scope.define name).1.place <;>
    exact (Answers.emit _ _ _ _ hsees).mono (fun _ _ hpassed => ⟨hpassed.sees, rfl⟩)
      fun _ _ hbad => hbad

theorem ret {value : CompileM Unit} {walk : Walk} (hvalue : Answers value walk) :
    Answers (do
      if (← get).pending.isEmpty then throw .returnOutsideFunction
      value
      discard (Compile.emit .returnValue))
      ((Walk.visit fun sight => .ret sight.inFunction).andThen walk) := by
  apply visiting
  · intro before sight sees hinside
    have hpending : before.pending.isEmpty = false := by
      simpa [Visit.Allowed, sees.inFunction] using hinside
    apply Meets.bind
    change Meets (if before.pending.isEmpty = true then _ else _) before _ _
    rw [hpending]
    exact hvalue.thenEmit .returnValue [] before sight sees
  · intro before sight sees houtside
    have hpending : before.pending.isEmpty = true := by
      simpa [Visit.Allowed, sees.inFunction] using houtside
    apply Meets.bind
    change Meets (if before.pending.isEmpty = true then _ else _) before _ _
    rw [hpending]
    rfl

theorem block {stmts : List Stmt}
    (hvalues : ∀ stmt ∈ stmts, Answers stmt.value.compile stmt.value.walk) :
    Answers (Stmt.compileAll stmts) (Stmt.walkAll stmts) := by
  induction stmts with
  | nil => exact .stay (keeping_pure ()) fun _ => trivial
  | cons stmt rest ih =>
      have hvalue := hvalues stmt (List.mem_cons_self ..)
      have hstmt : Answers stmt.compile stmt.walk := by
        cases stmt with
        | expr value => exact hvalue.thenEmit .pop []
        | bind name value => exact hvalue.andThen (.bind name)
        | ret value => exact hvalue.ret
      exact hstmt.andThen (ih fun later member => hvalues later (List.mem_cons_of_mem _ member))

theorem branch {step : CompileM Unit} {walk : Walk} (hstep : Answers step walk) :
    Answers (Compile.branch step) walk := by
  have hend : Answers (Compile.branch (pure ())) .stay := by
    intro before sight sees
    unfold Meets
    rw [branch_pure_run]
    cases before.draft.endsWith .pop with
    | true => exact ⟨sees.redraft _, rfl⟩
    | false => exact Answers.emit .pushNull [] before sight sees
  have hboth := hstep.andThen hend
  rwa [Walk.andThen_stay, ← branch_eq] at hboth

theorem functionBody {step : CompileM Unit} {walk : Walk} (hstep : Answers step walk) :
    Answers (Compile.functionBody step) walk := by
  have hend : Answers (Compile.functionBody (pure ())) .stay := by
    intro before sight sees
    unfold Meets
    rw [functionBody_pure_run]
    cases before.draft.endsWith .pop with
    | true => exact ⟨sees.redraft _, rfl⟩
    | false =>
        cases before.draft.endsWith .returnValue with
        | true => exact ⟨sees, rfl⟩
        | false => exact Answers.emit .returnNull [] before sight sees
  have hboth := hstep.andThen hend
  rwa [Walk.andThen_stay, ← functionBody_eq] at hboth

theorem function {step : CompileM Unit} {survey : Survey → Survey} {walk : Walk}
    (hstep : Answers step walk) (htidy : Tidy step survey) (name : Option String)
    (parameters : List String) :
    Answers (Compile.function name parameters step) (.inside name parameters walk) := by
  intro before sight sees
  obtain ⟨names, -, hkeeps⟩ := htidy
  have hbody : KeepsFrom (entered before name parameters) (Compile.functionBody step) names :=
    functionBody_keeps hkeeps rfl
  have hanswers := hstep.functionBody _ _ (sees.entered name parameters)
  have hmeets := function_meets ((hbody.and hanswers).mono
    (fun _ _ hafter => ⟨hafter.1, hafter.2.allowed⟩) fun _ _ hbad => hbad)
  apply hmeets.mono
  · intro _ after hafter
    exact ⟨sees.keeps hafter.1, hafter.2⟩
  · intro error _ hbad
    exact hbad.2.elim .inl id

theorem choose {condition consequence alternative : CompileM Unit}
    {first second third : Survey → Survey} {walk walk' walk'' : Walk}
    (hcondition : Answers condition walk) (htidy : Tidy condition first)
    (hconsequence : Answers consequence walk') (htidy' : TidyBehind consequence second)
    (halternative : Answers alternative walk'') (htidy'' : TidyBehind alternative third) :
    Answers (Compile.choose condition consequence alternative)
      ((walk.andThen walk').andThen walk'') := by
  intro before sight sees
  obtain ⟨names, -, hkeeps⟩ := htidy
  obtain ⟨names', -, hkeeps'⟩ := htidy'
  obtain ⟨names'', -, hkeeps''⟩ := htidy''
  have hmeets : Meets (Compile.choose condition consequence alternative) before
      (fun _ after => Keeps (names'' ++ (names' ++ names)) before after ∧
        Passed ((walk.andThen walk').andThen walk'') sight after)
      (fun error _ => Refused ((walk.andThen walk').andThen walk'' sight).1 error) := by
    apply choose_meets (P := Passed walk sight) (Q := Passed (walk.andThen walk') sight)
    · apply ((hkeeps before).and (hcondition before sight sees)).mono
      · exact fun _ _ hafter => hafter
      · exact fun _ _ hbad => (hbad.2.more _).more _
    · intro middle draft _ hpassed hends
      apply ((hkeeps' _ hends).and (hconsequence _ _ (hpassed.sees.redraft draft))).mono
      · exact fun _ _ hafter => ⟨hafter.1, hpassed.andThen hafter.2⟩
      · exact fun _ _ hbad => (hbad.2.behind hpassed.allowed).more _
    · intro middle draft _ hpassed hends
      apply ((hkeeps'' _ hends).and (halternative _ _ (hpassed.sees.redraft draft))).mono
      · exact fun _ _ hafter => ⟨hafter.1, hpassed.andThen hafter.2⟩
      · exact fun _ _ hbad => hbad.2.behind hpassed.allowed
    · intro after draft hpassed
      exact ⟨hpassed.sees.redraft draft, hpassed.allowed⟩
    · exact fun _ _ hexceeds _ => .inl hexceeds
  exact hmeets.mono (fun _ _ hafter => hafter.2) fun _ _ hbad => hbad

theorem inOrder {pairs : List (Expr × Expr)}
    (hpairs : ∀ pair ∈ pairs,
      Answers pair.1.compile pair.1.walk ∧ Answers pair.2.compile pair.2.walk) :
    Answers
      (Compile.inOrder (pairs.map fun pair =>
        (pair.1.display, pair.1.compile >>= fun _ => pair.2.compile)))
      (Walk.inOrder (pairs.map fun pair =>
        (pair.1.display, pair.1.walk.andThen pair.2.walk))) := by
  induction pairs with
  | nil => exact .stay (keeping_pure ()) fun _ => trivial
  | cons pair rest ih =>
      obtain ⟨hkey, hvalue⟩ := hpairs pair (List.mem_cons_self ..)
      have hrest := ih fun later member => hpairs later (List.mem_cons_of_mem _ member)
      exact (hkey.andThen hvalue).andThen hrest

end Answers

end Compile

open Compile Fallible

mutual

theorem Expr.answers : ∀ expr : Expr, Answers expr.compile expr.walk
  | .integer value => .literal (.integer value)
  | .string text => .literal (.string text)
  | .boolean true => .emit .pushTrue []
  | .boolean false => .emit .pushFalse []
  | .ident name => .ident name
  | .unary op operand => operand.answers.thenEmit (unaryOpcode op) []
  | .binary op left right => by
      by_cases hless : op = .less
      · subst hless
        exact right.answers.andThen (left.answers.thenEmit .greaterThan [])
      · rw [Walk.walk_binary hless]
        exact .binary left.answers right.answers hless
  | .cond condition consequence none => by
      have hchoose := Answers.choose condition.answers condition.tidy
        (.branch (.block (Stmt.answers consequence))) (branch_tidy (Stmt.tidy consequence))
        (.emit .pushNull []) noAlternative_tidy
      rwa [Walk.andThen_stay] at hchoose
  | .cond condition consequence (some alternative) =>
      .choose condition.answers condition.tidy
        (.branch (.block (Stmt.answers consequence))) (branch_tidy (Stmt.tidy consequence))
        (.branch (.block (Stmt.answers alternative))) (branch_tidy (Stmt.tidy alternative))
  | .array items => (Expr.allAnswer items).thenEmit .array [items.length]
  | .hash pairs => by
      rw [Walk.walk_hash, Walk.walkPairs_eq, Expr.compile, compilePairs_eq, Expr.inKeyOrder_map]
      refine (Answers.inOrder fun pair member => ?_).thenEmit .hash [2 * pairs.length]
      exact Expr.pairsAnswer pairs pair (List.mem_mergeSort.mp member)
  | .index container index => container.answers.andThen (index.answers.thenEmit .index [])
  | .function name parameters body =>
      .function (.block (Stmt.answers body)) (block_tidy (Stmt.tidy body)) name parameters
  | .call callee arguments =>
      callee.answers.andThen ((Expr.allAnswer arguments).thenEmit .call [arguments.length])

theorem Expr.allAnswer : ∀ exprs : List Expr, Answers (Expr.compileAll exprs) (Expr.walkAll exprs)
  | [] => .stay (keeping_pure ()) fun _ => trivial
  | expr :: rest => expr.answers.andThen (Expr.allAnswer rest)

theorem Expr.pairsAnswer : ∀ pairs : List (Expr × Expr), ∀ pair ∈ pairs,
    Answers pair.1.compile pair.1.walk ∧ Answers pair.2.compile pair.2.walk
  | [], _, member => absurd member (by simp)
  | (key, value) :: rest, pair, member => by
      rcases List.mem_cons.mp member with rfl | member
      · exact ⟨key.answers, value.answers⟩
      · exact Expr.pairsAnswer rest pair member

theorem Stmt.answers : ∀ stmts : List Stmt, ∀ stmt ∈ stmts,
    Answers stmt.value.compile stmt.value.walk
  | [], _, member => absurd member (by simp)
  | .bind _ value :: rest, stmt, member | .ret value :: rest, stmt, member
  | .expr value :: rest, stmt, member => by
      rcases List.mem_cons.mp member with rfl | member
      · exact value.answers
      · exact Stmt.answers rest stmt member

end

namespace Compiler

theorem sees_fresh : Sees fresh ⟨Builtin.all.map Builtin.name, false⟩ :=
  ⟨Scope.withBuiltins_has.1, fun name => (Scope.withBuiltins_has.2 name).symm, rfl⟩

/-- Unless something does not fit its operand, a program compiles exactly if everything that is
visited in it is allowed; otherwise the first visit that is not allowed decides what the error is.
No invariant of the compiler is ever broken. -/
theorem fresh_add_scoped {program : Program}
    (hfits : ∀ resource value maximum,
      (fresh.add program).1 ≠ .error (.outOfRange resource value maximum)) :
    ((fresh.add program).1 = .ok () ↔ ∀ visit ∈ program.visits, visit.Allowed) ∧
      (∀ visit, Visit.offence? program.visits = some visit →
        (fresh.add program).1 = .error visit.error) ∧
      ∀ detail, (fresh.add program).1 ≠ .error (.internal detail) := by
  have hanswers := Answers.block (Stmt.answers program.statements) fresh _ sees_fresh
  unfold Meets at hanswers
  cases hrun : (Stmt.compileAll program.statements).run fresh with
  | mk outcome after =>
      rw [hrun] at hanswers
      have hadd : (fresh.add program).1 = outcome := congrArg Prod.fst hrun
      rw [hadd] at hfits ⊢
      cases outcome with
      | ok _ =>
          have hallowed : Visit.offence? program.visits = none := hanswers.allowed
          refine ⟨iff_of_true rfl (Visit.offence?_eq_none.mp hallowed), ?_, ?_⟩
          · intro visit hvisit
            rw [hallowed] at hvisit
            cases hvisit
          · intro detail hinternal
            cases hinternal
      | error error =>
          have hinside : ¬error.Exceeds := by
            intro hexceeds
            obtain ⟨resource, value, maximum, rfl⟩ := hexceeds
            exact hfits resource value maximum rfl
          obtain ⟨visit, hvisit, rfl⟩ := hanswers.resolve_left hinside
          have hoffence : Visit.offence? program.visits = some visit := hvisit
          refine ⟨iff_of_false (by simp) ?_, ?_, ?_⟩
          · intro hall
            rw [Visit.offence?_eq_none.mpr hall] at hoffence
            cases hoffence
          · intro other hother
            rw [hoffence] at hother
            cases hother
            rfl
          · intro detail
            cases visit <;> simp [Visit.error]

/-- A name that a branch binds can be used behind it, and of two names that cannot be used, the one
on the right of a comparison is found first. -/
theorem fresh_add_scoped_comparing :
    let comparing (left right : String) : Program := ⟨[.bind "f" (.function (some "f") ["x"]
      [.expr (.cond (.ident "x") [.bind "y" (.ident "f")] none),
        .expr (.binary .less (.ident left) (.ident right))])]⟩
    (∀ visit ∈ (comparing "x" "y").visits, visit.Allowed) ∧
      Visit.offence? (comparing "g" "z").visits =
        some (.ident "z" (["y", "x", "f"] ++ Builtin.all.map Builtin.name)) ∧
      (fresh.add (comparing "g" "z")).1 = .error (.unresolved "z") := by
  intro comparing
  have hok : (fresh.add (comparing "x" "y")).1 = .ok () := by decide +kernel
  have hfails : (fresh.add (comparing "g" "z")).1 = .error (.unresolved "z") := by decide +kernel
  have hoffence : Visit.offence? (comparing "g" "z").visits =
      some (.ident "z" (["y", "x", "f"] ++ Builtin.all.map Builtin.name)) := by decide +kernel
  have haccepted := (fresh_add_scoped (by simp [hok])).1.mp hok
  have hrefused := (fresh_add_scoped (by simp [hfails])).2.1 _ hoffence
  exact ⟨haccepted, hoffence, hrefused⟩

end Compiler

end Stacklang
