import Stacklang.Proofs.Compile.Functions

namespace Stacklang

/-- The names that may have no value yet at a point of a function. -/
abbrev Doubts := List String

def Doubts.inOrder : List (String × (Doubts → Option Doubts)) → Doubts → Option Doubts
  | [], doubts => some doubts
  | (_, pair) :: rest, doubts => pair doubts >>= inOrder rest

def Stmt.boundIn (stmts : List Stmt) : List String :=
  (Stmt.surveyAll stmts .empty).bound

mutual

/-- Goes through an expression in the order of evaluation. The result is what is in doubt behind it;
there is none if a name is used while it is in doubt. -/
def Expr.settle : Expr → Doubts → Option Doubts
  | .ident name, doubts => if name ∈ doubts then none else some doubts
  | .integer _, doubts | .string _, doubts | .boolean _, doubts => some doubts
  | .array items, doubts => Expr.settleAll items doubts
  | .hash pairs, doubts => Doubts.inOrder (Expr.inKeyOrder (Expr.settlePairs pairs)) doubts
  | .unary _ operand, doubts => operand.settle doubts
  | .binary .less left right, doubts => right.settle doubts >>= left.settle
  | .binary _ left right, doubts => left.settle doubts >>= right.settle
  | .index container index, doubts => container.settle doubts >>= index.settle
  | .cond condition consequence none, doubts => do
      let doubts ← condition.settle doubts
      let _ ← Stmt.settleAll consequence doubts
      return Stmt.boundIn consequence ++ doubts
  | .cond condition consequence (some alternative), doubts => do
      let doubts ← condition.settle doubts
      let _ ← Stmt.settleAll consequence doubts
      let _ ← Stmt.settleAll alternative (Stmt.boundIn consequence ++ doubts)
      return Stmt.boundIn alternative ++ (Stmt.boundIn consequence ++ doubts)
  | .function name parameters body, doubts =>
      if ∃ used ∈ (Stmt.surveyAll body (.enter name parameters)).free, used ∈ doubts then none
      else some doubts
  | .call callee arguments, doubts => callee.settle doubts >>= Expr.settleAll arguments

def Expr.settleAll : List Expr → Doubts → Option Doubts
  | [], doubts => some doubts
  | expr :: rest, doubts => expr.settle doubts >>= Expr.settleAll rest

def Expr.settlePairs : List (Expr × Expr) → List (String × (Doubts → Option Doubts))
  | [] => []
  | (key, value) :: rest =>
      (key.display, fun doubts => key.settle doubts >>= value.settle) :: Expr.settlePairs rest

def Stmt.settle : Stmt → Doubts → Option Doubts
  | .expr value, doubts | .ret value, doubts => value.settle doubts
  | .bind name value, doubts => (value.settle doubts).map (·.filter (· != name))

def Stmt.settleAll : List Stmt → Doubts → Option Doubts
  | [], doubts => some doubts
  | stmt :: rest, doubts => stmt.settle doubts >>= Stmt.settleAll rest

end

def Lambda.Settled (lambda : Lambda) : Prop :=
  (Stmt.settleAll lambda.body []).isSome = true

instance (lambda : Lambda) : Decidable lambda.Settled :=
  inferInstanceAs (Decidable (_ = true))

/-- In no function of the program a name is used while it is in doubt. -/
def Program.Settled (program : Program) : Prop :=
  ∀ lambda ∈ program.lambdas, lambda.Settled

instance (program : Program) : Decidable program.Settled :=
  inferInstanceAs (Decidable (∀ lambda ∈ program.lambdas, lambda.Settled))

namespace Compile

def Part.settle : Part → Doubts → Option Doubts
  | .expr value => value.settle
  | .exprs items => Expr.settleAll items
  | .pairs entries => fun doubts =>
      entries.foldlM (fun doubts entry => entry.1.settle doubts >>= entry.2.settle) doubts
  | .stmt statement => statement.settle
  | .block stmts | .branch stmts | .body stmts => Stmt.settleAll stmts
  | .otherwise none => some
  | .otherwise (some stmts) => Stmt.settleAll stmts

def Part.boundIn (part : Part) : List String :=
  (part.survey .empty).bound

theorem settlePairs_eq (pairs : List (Expr × Expr)) :
    Expr.settlePairs pairs =
      pairs.map fun pair =>
        (pair.1.display, fun doubts => pair.1.settle doubts >>= pair.2.settle) := by
  induction pairs with
  | nil => rw [Expr.settlePairs, List.map_nil]
  | cons pair rest ih => rw [Expr.settlePairs, ih, List.map_cons]

theorem settle_hash (pairs : List (Expr × Expr)) :
    (Expr.hash pairs).settle = (Part.pairs (Expr.keyOrder pairs)).settle := by
  have hall : ∀ (entries : List (Expr × Expr)) (doubts : Doubts),
      Doubts.inOrder (entries.map fun pair =>
        (pair.1.display, fun doubts => pair.1.settle doubts >>= pair.2.settle)) doubts =
      (Part.pairs entries).settle doubts := by
    intro entries
    induction entries with
    | nil => exact fun _ => rfl
    | cons entry rest ih =>
        intro doubts
        simp only [List.map_cons, Doubts.inOrder, Part.settle, List.foldlM_cons]
        exact congrArg (entry.1.settle doubts >>= entry.2.settle).bind (funext ih)
  funext doubts
  rw [Expr.settle, settlePairs_eq, Expr.inKeyOrder_map, hall]

theorem settle_binary {op : BinaryOp} {opcode : Opcode} (hopcode : binaryOpcode? op = some opcode)
    (left right : Expr) (doubts : Doubts) :
    (Expr.binary op left right).settle doubts = left.settle doubts >>= right.settle := by
  cases op <;> simp only [binaryOpcode?, reduceCtorEq] at hopcode <;> rfl

theorem settleAll_single (stmt : Stmt) (doubts : Doubts) :
    Stmt.settleAll [stmt] doubts = stmt.settle doubts := by
  simp [Stmt.settleAll]

/-- What is settled behind a choice between two branches: both have been gone through, and what one of
them binds is in doubt. -/
theorem settle_cond {condition : Expr} {consequence : List Stmt}
    {alternative : Option (List Stmt)} {doubts later : Doubts}
    (hsettle : (Expr.cond condition consequence alternative).settle doubts = some later) :
    ∃ first, condition.settle doubts = some first ∧
      (Stmt.settleAll consequence first).isSome = true ∧
      ((Part.otherwise alternative).settle (Stmt.boundIn consequence ++ first)).isSome = true ∧
      later = (Part.otherwise alternative).boundIn ++ (Stmt.boundIn consequence ++ first) := by
  cases alternative with
  | none =>
      simp only [Expr.settle, Option.bind_eq_bind, Option.bind_eq_some_iff] at hsettle
      obtain ⟨first, hfirst, second, hsecond, hlater⟩ := hsettle
      cases hlater
      exact ⟨first, hfirst, by simp [hsecond], rfl, rfl⟩
  | some stmts =>
      simp only [Expr.settle, Option.bind_eq_bind, Option.bind_eq_some_iff] at hsettle
      obtain ⟨first, hfirst, second, hsecond, third, hthird, hlater⟩ := hsettle
      cases hlater
      exact ⟨first, hfirst, by simp [hsecond], by simp [Part.settle, hthird], rfl⟩

end Compile

end Stacklang
