import Stacklang.Proofs.Compile.Success
import Stacklang.Proofs.Compile.Survey

namespace Stacklang

structure Lambda where
  name : Option String
  parameters : List String
  body : List Stmt

mutual

def Expr.lambdas : Expr → List Lambda
  | .ident _ | .integer _ | .boolean _ | .string _ => []
  | .array items => Expr.lambdasAll items
  | .hash pairs => Expr.lambdasPairs pairs
  | .unary _ operand => operand.lambdas
  | .binary _ left right => left.lambdas ++ right.lambdas
  | .index container index => container.lambdas ++ index.lambdas
  | .cond condition consequence none => condition.lambdas ++ Stmt.lambdasAll consequence
  | .cond condition consequence (some alternative) =>
      condition.lambdas ++ Stmt.lambdasAll consequence ++ Stmt.lambdasAll alternative
  | .function name parameters body => ⟨name, parameters, body⟩ :: Stmt.lambdasAll body
  | .call callee arguments => callee.lambdas ++ Expr.lambdasAll arguments

def Expr.lambdasAll : List Expr → List Lambda
  | [] => []
  | expr :: rest => expr.lambdas ++ Expr.lambdasAll rest

def Expr.lambdasPairs : List (Expr × Expr) → List Lambda
  | [] => []
  | (key, value) :: rest => key.lambdas ++ value.lambdas ++ Expr.lambdasPairs rest

def Stmt.lambdas : Stmt → List Lambda
  | .bind _ value | .ret value | .expr value => value.lambdas

def Stmt.lambdasAll : List Stmt → List Lambda
  | [] => []
  | stmt :: rest => stmt.lambdas ++ Stmt.lambdasAll rest

end

def Program.lambdas (program : Program) : List Lambda :=
  Stmt.lambdasAll program.statements

theorem Expr.mem_lambdasPairs {lambda : Lambda} {pairs : List (Expr × Expr)} :
    lambda ∈ Expr.lambdasPairs pairs ↔
      ∃ pair ∈ pairs, lambda ∈ pair.1.lambdas ∨ lambda ∈ pair.2.lambdas := by
  induction pairs with
  | nil => simp [Expr.lambdasPairs]
  | cons pair rest ih => simp [Expr.lambdasPairs, ih, or_assoc]

def Scope.globals (scope : Scope) : Nat :=
  (root scope.table scope.outer).definitions

theorem Scope.root_definitions {table later : Table} {outer laterOuter : List Table}
    (extends_ : table.Extends later) (hall : ExtendsAll outer laterOuter) :
    (root later laterOuter).definitions = (root table outer).definitions := by
  induction hall generalizing table later with
  | nil => exact extends_.definitions
  | cons head _ ih => exact ih head

theorem Scope.Grows.globals_le {scope later : Scope} (grows : scope.Grows later) :
    scope.globals ≤ later.globals := by
  obtain ⟨table, outer⟩ := scope
  obtain ⟨laterTable, laterOuter⟩ := later
  cases grows.outer with
  | nil => exact grows.table.definitions
  | cons head rest => exact Nat.le_of_eq (root_definitions head rest).symm

theorem Scope.globals_leave {scope outer : Scope} (hleave : scope.leave? = some outer) :
    outer.globals = scope.globals := by
  obtain ⟨table, tables⟩ := scope
  cases tables with
  | nil => cases hleave
  | cons next rest =>
      cases hleave
      rfl

namespace Compile

open Instruction

def Part.lambdas : Part → List Lambda
  | .expr value => value.lambdas
  | .exprs items => Expr.lambdasAll items
  | .pairs entries => Expr.lambdasPairs entries
  | .stmt statement => statement.lambdas
  | .block stmts | .branch stmts | .body stmts => Stmt.lambdasAll stmts
  | .otherwise none => []
  | .otherwise (some stmts) => Stmt.lambdasAll stmts

/-- The function is what compilation makes of the literal in some scope, in which so many globals at
most have been given out when the body ends. -/
structure MadeOf (globals : Nat) (lambda : Lambda) (template : Template) : Prop where
  parameters : template.parameters = lambda.parameters.length
  compiled : ∃ (scope : Scope) (constants : Array Constant) (instructions : List Instruction)
      (inner : Stage),
    scope.Valid ∧ (∃ surveys, scope.Charted surveys) ∧
    Emits (.body lambda.body) ⟨scope.entry lambda.name lambda.parameters, constants⟩ 0 instructions
      inner ∧
    template.code.toList = encodeAll instructions ∧
    template.locals = inner.scope.table.definitions ∧ inner.scope.globals ≤ globals

theorem MadeOf.mono {globals more : Nat} {lambda : Lambda} {template : Template}
    (made : MadeOf globals lambda template) (hmore : globals ≤ more) :
    MadeOf more lambda template := by
  obtain ⟨hparameters, scope, constants, instructions, inner, hvalid, hcharted, hemits, hcode,
    hlocals, hglobals⟩ := made
  exact ⟨hparameters, scope, constants, instructions, inner, hvalid, hcharted, hemits, hcode,
    hlocals, Nat.le_trans hglobals hmore⟩

/-- Every function among the constants behind a part was there before it, or is made of one of the
literals. -/
def Sourced (lambdas : List Lambda) (stage finish : Stage) : Prop :=
  ∀ template, .function template ∈ finish.constants →
    .function template ∈ stage.constants ∨
      ∃ lambda ∈ lambdas, MadeOf finish.scope.globals lambda template

theorem Sourced.refl (lambdas : List Lambda) (stage : Stage) : Sourced lambdas stage stage :=
  fun _ member => .inl member

theorem Sourced.trans {first second : List Lambda} {stage middle finish : Stage}
    (hfirst : Sourced first stage middle) (hsecond : Sourced second middle finish)
    (grows : middle.scope.Grows finish.scope) : Sourced (first ++ second) stage finish := by
  intro template member
  rcases hsecond template member with member | ⟨lambda, hlambda, hmade⟩
  · refine (hfirst template member).imp_right ?_
    rintro ⟨lambda, hlambda, hmade⟩
    exact ⟨lambda, List.mem_append_left _ hlambda, hmade.mono grows.globals_le⟩
  · exact .inr ⟨lambda, List.mem_append_right _ hlambda, hmade⟩

theorem Sourced.mono {lambdas more : List Lambda} {stage finish : Stage}
    (sourced : Sourced lambdas stage finish) (hmore : ∀ lambda ∈ lambdas, lambda ∈ more) :
    Sourced more stage finish := by
  intro template member
  refine (sourced template member).imp_right ?_
  rintro ⟨lambda, hlambda, hmade⟩
  exact ⟨lambda, hmore lambda hlambda, hmade⟩

theorem Sourced.push {lambdas : List Lambda} {stage finish : Stage} {constant : Constant}
    (sourced : Sourced lambdas stage finish)
    (hconstant : ∀ template, constant = .function template →
      ∃ lambda ∈ lambdas, MadeOf finish.scope.globals lambda template) :
    Sourced lambdas stage ⟨finish.scope, finish.constants.push constant⟩ := by
  intro template member
  rcases Array.mem_push.mp member with member | heq
  · exact sourced template member
  · exact .inr (hconstant template heq.symm)

theorem lambdas_binary (op : BinaryOp) (left right : Expr) :
    (Expr.binary op left right).lambdas = left.lambdas ++ right.lambdas := by
  rw [Expr.lambdas]

theorem lambdas_cond (condition : Expr) (consequence : List Stmt)
    (alternative : Option (List Stmt)) :
    (Expr.cond condition consequence alternative).lambdas =
      condition.lambdas ++ Stmt.lambdasAll consequence ++ (Part.otherwise alternative).lambdas := by
  cases alternative with
  | none => rw [Expr.lambdas, Part.lambdas, List.append_nil]
  | some stmts => rw [Expr.lambdas, Part.lambdas]

theorem Emits.sourced {part : Part} {stage finish : Stage} {offset : Nat}
    {code : List Instruction} (emits : Emits part stage offset code finish)
    (valid : stage.scope.Valid) (hcharted : ∃ surveys, stage.scope.Charted surveys) :
    Sourced part.lambdas stage finish := by
  induction emits with
  | @literal expr constant _ _ hconstant _ =>
      refine (Sourced.refl _ _).push ?_
      rintro template rfl
      cases expr <;> simp [Expr.constant?] at hconstant
  | boolean | ident | noAlternative | noExprs | noPairs | noStmts | emptyBranch | emptyBody =>
      exact .refl _ _
  | unary _ ih | array _ _ ih =>
      rw [Part.lambdas, Expr.lambdas]
      exact ih valid hcharted
  | exprStmt _ ih | ret _ _ ih =>
      rw [Part.lambdas, Stmt.lambdas]
      exact ih valid hcharted
  | bind hvalue _ ih =>
      rw [Part.lambdas, Stmt.lambdas]
      intro template member
      refine (ih valid hcharted template member).imp_right ?_
      rintro ⟨lambda, hlambda, hmade⟩
      exact ⟨lambda, hlambda, hmade.mono (Scope.grows_define _ _).globals_le⟩
  | alternative _ ih => exact ih valid hcharted
  | branchValue _ ih | bodyValue _ ih | bodyReturn _ ih =>
      refine (ih valid hcharted).mono ?_
      simp [Part.lambdas, Stmt.lambdasAll, Stmt.lambdas]
  | @hash pairs _ _ _ _ _ _ ih =>
      refine (ih valid hcharted).mono fun lambda hlambda => ?_
      rw [Part.lambdas, Expr.mem_lambdasPairs] at hlambda
      rw [Part.lambdas, Expr.lambdas, Expr.mem_lambdasPairs]
      obtain ⟨pair, hpair, hinside⟩ := hlambda
      exact ⟨pair, List.mem_mergeSort.mp hpair, hinside⟩
  | binary _ hfirst hsecond ihfirst ihsecond =>
      obtain ⟨hmiddle, hcharted'⟩ := hfirst.valid_charted valid hcharted
      rw [Part.lambdas, lambdas_binary]
      exact (ihfirst valid hcharted).trans (ihsecond hmiddle hcharted') (hsecond.valid hmiddle).2
  | less hright hleft ihright ihleft =>
      obtain ⟨hmiddle, hcharted'⟩ := hright.valid_charted valid hcharted
      rw [Part.lambdas, lambdas_binary]
      refine ((ihright valid hcharted).trans (ihleft hmiddle hcharted')
        (hleft.valid hmiddle).2).mono ?_
      simp only [Part.lambdas, List.mem_append]
      exact fun _ => Or.symm
  | index hfirst hsecond ihfirst ihsecond | call hfirst hsecond _ ihfirst ihsecond =>
      obtain ⟨hmiddle, hcharted'⟩ := hfirst.valid_charted valid hcharted
      rw [Part.lambdas, Expr.lambdas]
      exact (ihfirst valid hcharted).trans (ihsecond hmiddle hcharted') (hsecond.valid hmiddle).2
  | exprs hfirst hsecond ihfirst ihsecond =>
      obtain ⟨hmiddle, hcharted'⟩ := hfirst.valid_charted valid hcharted
      rw [Part.lambdas, Expr.lambdasAll]
      exact (ihfirst valid hcharted).trans (ihsecond hmiddle hcharted') (hsecond.valid hmiddle).2
  | stmts hfirst hsecond ihfirst ihsecond | branchStmt _ hfirst hsecond ihfirst ihsecond
  | bodyStmt _ hfirst hsecond ihfirst ihsecond =>
      obtain ⟨hmiddle, hcharted'⟩ := hfirst.valid_charted valid hcharted
      rw [Part.lambdas, Stmt.lambdasAll]
      exact (ihfirst valid hcharted).trans (ihsecond hmiddle hcharted') (hsecond.valid hmiddle).2
  | pairs hkey hvalue hrest ihkey ihvalue ihrest =>
      obtain ⟨hfirst, hcharted'⟩ := hkey.valid_charted valid hcharted
      obtain ⟨hsecond, hcharted''⟩ := hvalue.valid_charted hfirst hcharted'
      rw [Part.lambdas, Expr.lambdasPairs]
      exact ((ihkey valid hcharted).trans (ihvalue hfirst hcharted') (hvalue.valid hfirst).2).trans
        (ihrest hsecond hcharted'') (hrest.valid hsecond).2
  | cond hcondition hconsequence _ halternative _ _ _ ihcondition ihconsequence ihalternative =>
      obtain ⟨hfirst, hcharted'⟩ := hcondition.valid_charted valid hcharted
      obtain ⟨hsecond, hcharted''⟩ := hconsequence.valid_charted hfirst hcharted'
      rw [Part.lambdas, lambdas_cond]
      exact ((ihcondition valid hcharted).trans (ihconsequence hfirst hcharted')
        (hconsequence.valid hfirst).2).trans (ihalternative hsecond hcharted'')
        (halternative.valid hsecond).2
  | @function name parameters body stage inner outer _ instructions bodyCode _ hbody hleave hcode _ _
      ih =>
      obtain ⟨hentry, houter, -, -⟩ := entry_valid valid name parameters
      obtain ⟨surveys, hsurveys⟩ := hcharted
      rw [Part.lambdas, Expr.lambdas]
      have hinner := (ih hentry ⟨_, hsurveys.entry name parameters⟩).mono
        fun lambda hlambda => List.mem_cons_of_mem ⟨name, parameters, body⟩ hlambda
      have hglobals := Scope.globals_leave hleave
      have hleft : Sourced (⟨name, parameters, body⟩ :: Stmt.lambdasAll body) stage
          ⟨outer, inner.constants⟩ := by
        intro template member
        rw [hglobals]
        exact hinner template member
      apply hleft.push
      rintro template ⟨⟩
      exact ⟨⟨name, parameters, body⟩, List.mem_cons_self, rfl, stage.scope, stage.constants,
        instructions, inner, valid, ⟨surveys, hsurveys⟩, hbody, hcode, rfl,
        Nat.le_of_eq hglobals.symm⟩

end Compile

theorem Program.bytecode_emits {program : Program} {bytecode : Bytecode}
    (hcompile : program.bytecode = .ok bytecode) :
    ∃ code finish,
      Compile.Emits (.block program.statements) ⟨.withBuiltins, #[]⟩ 0 code finish ∧
      bytecode.code.toList = Instruction.encodeAll code ∧ bytecode.constants = finish.constants := by
  unfold Program.bytecode at hcompile
  split at hcompile
  next compiler hadd =>
    cases hcompile
    obtain ⟨valid, htop⟩ := Scope.withBuiltins_valid
    obtain ⟨code, hemits, hcode⟩ := Compiler.add_succeeds valid htop hadd
    exact ⟨code, _, hemits, hcode, rfl⟩
  next => cases hcompile

end Stacklang
