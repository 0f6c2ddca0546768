import Stacklang.Proofs.Program.Grammar

namespace Stacklang

/-- How tightly the outermost operator of an expression holds. What has none holds against
everything. -/
def Expr.hold : Expr → Tier
  | .unary .. => .unary
  | .binary op .. => op.tier
  | _ => .index

theorem BinaryOp.lowest_lt (op : BinaryOp) : Tier.lowest < op.tier := by
  cases op <;> decide

theorem Expr.lowest_lt (expr : Expr) : Tier.lowest < expr.hold := by
  cases expr with
  | unary op operand => exact show Tier.lowest < .unary by decide
  | binary op left right => exact op.lowest_lt
  | _ => exact show Tier.lowest < .index by decide

/-- The tokens of an operand that holds so tightly, where it has to be as tight as the level. -/
def Token.guarded (level hold : Tier) (tokens : List Token) : List Token :=
  if level ≤ hold then tokens else parens tokens

mutual

def Expr.spell : Expr → List Token
  | .ident name => [.ident name]
  | .integer value => [.integer value]
  | .boolean true => [.trueWord]
  | .boolean false => [.falseWord]
  | .string text => [.string text]
  | .array items => Token.brackets (Token.separated (Expr.spellAll items))
  | .hash pairs => Token.braces (Token.separated (Expr.spellPairs pairs))
  | .unary op operand => op.token :: Token.guarded .unary operand.hold operand.spell
  | .binary op left right =>
      Token.guarded op.tier left.hold left.spell ++
        op.token :: Token.guarded (op.tier + 1) right.hold right.spell
  | .index container index =>
      Token.guarded .index container.hold container.spell ++ Token.brackets index.spell
  | .cond condition consequence none =>
      .ifWord :: Token.parens condition.spell ++ Token.braces (Block.spell consequence)
  | .cond condition consequence (some alternative) =>
      .ifWord :: Token.parens condition.spell ++ Token.braces (Block.spell consequence) ++
        .elseWord :: Token.braces (Block.spell alternative)
  | .function _ parameters body =>
      .fnWord :: Token.parens (Token.names parameters) ++ Token.braces (Block.spell body)
  | .call callee arguments =>
      Token.guarded .call callee.hold callee.spell ++
        Token.parens (Token.separated (Expr.spellAll arguments))

def Expr.spellAll : List Expr → List (List Token)
  | [] => []
  | expr :: rest => expr.spell :: Expr.spellAll rest

def Expr.spellPairs : List (Expr × Expr) → List (List Token)
  | [] => []
  | (key, value) :: rest => (key.spell ++ .colon :: value.spell) :: Expr.spellPairs rest

def Stmt.spell : Stmt → List Token
  | .bind name value => .letWord :: .ident name :: .assign :: value.spell
  | .ret value => .returnWord :: value.spell
  | .expr value => value.spell

def Block.spell : List Stmt → List Token
  | [] => []
  | stmt :: rest => stmt.spell ++ .semicolon :: Block.spell rest

end

theorem Block.spell_cons (stmt : Stmt) (stmts : Block) (tail : List Token) :
    Block.spell (stmt :: stmts) ++ tail =
      (stmt.spell ++ [.semicolon]) ++ (Block.spell stmts ++ tail) := by
  simp [Block.spell]

mutual

/-- Whether the function literals carry the names that `let` gives them and no others. The
expression itself is the value of a `let` for `binder`, if that is some name. -/
def Expr.wellNamed : Expr → (binder : Option String) → Bool
  | .ident _, _ | .integer _, _ | .boolean _, _ | .string _, _ => true
  | .array items, _ => Expr.allWellNamed items
  | .hash pairs, _ => Expr.pairsWellNamed pairs
  | .unary _ operand, _ => operand.wellNamed none
  | .binary _ left right, _ => left.wellNamed none && right.wellNamed none
  | .index container index, _ => container.wellNamed none && index.wellNamed none
  | .cond condition consequence none, _ =>
      condition.wellNamed none && Block.wellNamed consequence
  | .cond condition consequence (some alternative), _ =>
      condition.wellNamed none && Block.wellNamed consequence && Block.wellNamed alternative
  | .function name _ body, binder => name == binder && Block.wellNamed body
  | .call callee arguments, _ => callee.wellNamed none && Expr.allWellNamed arguments

def Expr.allWellNamed : List Expr → Bool
  | [] => true
  | expr :: rest => expr.wellNamed none && Expr.allWellNamed rest

def Expr.pairsWellNamed : List (Expr × Expr) → Bool
  | [] => true
  | (key, value) :: rest =>
      key.wellNamed none && value.wellNamed none && Expr.pairsWellNamed rest

def Stmt.wellNamed : Stmt → Bool
  | .bind name value => value.wellNamed (some name)
  | .ret value => value.wellNamed none
  | .expr value => value.wellNamed none

def Block.wellNamed : List Stmt → Bool
  | [] => true
  | stmt :: rest => stmt.wellNamed && Block.wellNamed rest

end

def Expr.unnamed : Expr → Expr
  | .function _ parameters body => .function none parameters body
  | expr => expr

theorem Expr.unnamed_eq {expr : Expr} (hnamed : expr.wellNamed none = true) :
    expr.unnamed = expr := by
  cases expr with
  | function name parameters body =>
      simp only [wellNamed, Bool.and_eq_true, beq_iff_eq] at hnamed
      rw [hnamed.1]
      rfl
  | _ => rfl

theorem Expr.named_unnamed {expr : Expr} {name : String}
    (hnamed : expr.wellNamed (some name) = true) : expr.unnamed.named name = expr := by
  cases expr with
  | function _ parameters body =>
      simp only [wellNamed, Bool.and_eq_true, beq_iff_eq] at hnamed
      rw [hnamed.1]
      rfl
  | _ => rfl

def Program.spell (program : Program) : List Token :=
  Block.spell program.statements

def Program.wellNamed (program : Program) : Bool :=
  Block.wellNamed program.statements

end Stacklang
