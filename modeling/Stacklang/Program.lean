import Stacklang.Text.Decimal

namespace Stacklang

inductive UnaryOp where
  | not
  | negate
  deriving Repr, DecidableEq, Inhabited

def UnaryOp.symbol : UnaryOp → String
  | not => "!"
  | negate => "-"

inductive BinaryOp where
  | add
  | sub
  | mul
  | div
  | less
  | greater
  | equal
  | notEqual
  | lessEqual
  | greaterEqual
  deriving Repr, DecidableEq, Inhabited

def BinaryOp.symbol : BinaryOp → String
  | add => "+"
  | sub => "-"
  | mul => "*"
  | div => "/"
  | less => "<"
  | greater => ">"
  | equal => "=="
  | notEqual => "!="
  | lessEqual => "<="
  | greaterEqual => ">="

mutual

/-- Expressions. A function literal carries a name when it is bound by a `let` directly, under
which its body can call it. Hash pairs keep the order they were written in. -/
inductive Expr where
  | ident (name : String)
  | integer (value : Int64)
  | boolean (value : Bool)
  | string (text : String)
  | array (items : List Expr)
  | hash (pairs : List (Expr × Expr))
  | unary (op : UnaryOp) (operand : Expr)
  | binary (op : BinaryOp) (left right : Expr)
  | index (container index : Expr)
  | cond (condition : Expr) (consequence : List Stmt) (alternative : Option (List Stmt))
  | function (name : Option String) (parameters : List String) (body : List Stmt)
  | call (callee : Expr) (arguments : List Expr)

inductive Stmt where
  | bind (name : String) (value : Expr)
  | ret (value : Expr)
  | expr (value : Expr)

end

abbrev Block := List Stmt

instance : Inhabited Expr := ⟨.boolean false⟩
instance : Inhabited Stmt := ⟨.expr default⟩

structure Program where
  statements : List Stmt
  deriving Inhabited

/-- The expression as the value of `let name`: a function literal without a name gets this one. -/
def Expr.named (name : String) : Expr → Expr
  | .function none parameters body => .function (some name) parameters body
  | expr => expr

def Block.enclose (statements : List String) : String :=
  "\x7b " ++ String.join (statements.map (· ++ " ")) ++ "\x7d"

def Expr.nameMark : Option String → String
  | some name => "<" ++ name ++ ">"
  | none => ""

mutual

def Expr.display : Expr → String
  | .ident name => name
  | .integer value => Text.integer value
  | .boolean value => if value then "true" else "false"
  | .string text => "\"" ++ text ++ "\""
  | .array items => "[" ++ ", ".intercalate (Expr.displayAll items) ++ "]"
  | .hash pairs => "\x7b" ++ ", ".intercalate (Expr.displayPairs pairs) ++ "\x7d"
  | .unary op operand => "(" ++ op.symbol ++ operand.display ++ ")"
  | .binary op left right =>
      "(" ++ left.display ++ " " ++ op.symbol ++ " " ++ right.display ++ ")"
  | .index container index => "(" ++ container.display ++ "[" ++ index.display ++ "])"
  | .cond condition consequence none =>
      "if " ++ condition.display ++ " " ++ Block.enclose (Stmt.displayAll consequence)
  | .cond condition consequence (some alternative) =>
      "if " ++ condition.display ++ " " ++ Block.enclose (Stmt.displayAll consequence) ++
        " else " ++ Block.enclose (Stmt.displayAll alternative)
  | .function name parameters body =>
      "fn" ++ Expr.nameMark name ++ "(" ++ ", ".intercalate parameters ++ ") " ++
        Block.enclose (Stmt.displayAll body)
  | .call callee arguments =>
      callee.display ++ "(" ++ ", ".intercalate (Expr.displayAll arguments) ++ ")"

def Expr.displayAll : List Expr → List String
  | [] => []
  | expr :: rest => expr.display :: Expr.displayAll rest

def Expr.displayPairs : List (Expr × Expr) → List String
  | [] => []
  | (key, value) :: rest => (key.display ++ ": " ++ value.display) :: Expr.displayPairs rest

def Stmt.display : Stmt → String
  | .bind name value => "let " ++ name ++ " = " ++ value.display ++ ";"
  | .ret value => "return " ++ value.display ++ ";"
  | .expr value => value.display

def Stmt.displayAll : List Stmt → List String
  | [] => []
  | stmt :: rest => stmt.display :: Stmt.displayAll rest

end

/-- What belongs to the pairs of a hash literal, in the order of their keys' texts
(`Expr.inKeyOrder_ascending`); pairs with equal texts keep their order (`Expr.filter_inKeyOrder`). -/
def Expr.inKeyOrder {α : Type} (pairs : List (String × α)) : List (String × α) :=
  pairs.mergeSort fun left right => !(right.1 < left.1)

def Program.display (program : Program) : String :=
  String.join ((Stmt.displayAll program.statements).map (· ++ "\n"))

end Stacklang
