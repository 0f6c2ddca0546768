import Stacklang.Compile.Emit
import Stacklang.Program

namespace Stacklang

namespace Compile

/-- The operand of a jump whose target is not known yet. -/
def jumpPlaceholder : Nat := 9999

def maxParameters : Nat := 255

def unaryOpcode : UnaryOp → Opcode
  | .not => .not
  | .negate => .negate

/-- The instruction of an operator whose left operand is computed first. -/
def binaryOpcode? : BinaryOp → Option Opcode
  | .add => some .add
  | .sub => some .sub
  | .mul => some .mul
  | .div => some .div
  | .greater => some .greaterThan
  | .equal => some .equal
  | .notEqual => some .notEqual
  | .less | .lessEqual | .greaterEqual => none

/-- Emits an operation on the values of two operands. There is no instruction for less than: it is
greater than with the right operand computed first. -/
def binary (op : BinaryOp) (left right : CompileM Unit) : CompileM Unit :=
  match op with
  | .less => do
      right
      left
      discard (emit .greaterThan)
  | op =>
      match binaryOpcode? op with
      | none => throw (.unknownOperator op.symbol)
      | some opcode => do
          left
          right
          discard (emit opcode)

/-- Emits a branch so that the value of its last statement stays on the stack. -/
def branch (statements : CompileM Unit) : CompileM Unit := do
  statements
  if ← lastIs .pop then modifyDraft Draft.dropLast else discard (emit .pushNull)

def choose (condition consequence alternative : CompileM Unit) : CompileM Unit := do
  condition
  let toAlternative ← emit .jumpNotTruthy [jumpPlaceholder]
  consequence
  let toEnd ← emit .jump [jumpPlaceholder]
  patch toAlternative (← here)
  alternative
  patch toEnd (← here)

/-- Emits the body of a function: its last statement, if it is an expression, is its result. -/
def functionBody (statements : CompileM Unit) : CompileM Unit := do
  statements
  if ← lastIs .pop then modifyDraft (Draft.replaceLast .returnValue)
  unless ← lastIs .returnValue do discard (emit .returnNull)

def defineAll : List String → CompileM Unit
  | [] => pure ()
  | name :: rest => do
      discard (define name)
      defineAll rest

/-- Emits a function literal: its code becomes a constant, and what it captures is loaded where it
stands. The function is left also when its body has an error. -/
def function (name : Option String) (parameters : List String) (statements : CompileM Unit) :
    CompileM Unit := do
  if parameters.length > maxParameters then
    throw (.outOfRange .parameters parameters.length maxParameters)
  enterFunction
  if let some name := name then defineSelf name
  defineAll parameters
  let outcome ← attempt (functionBody statements)
  let table := (← get).scope.table
  let code ← leaveFunction
  match outcome with
  | .error error => throw error
  | .ok () =>
      loadAll table.captures
      let index ← addConstant (.function ⟨code, table.definitions, parameters.length⟩)
      discard (emit .closure [index, table.captures.length])

def inOrder : List (String × CompileM Unit) → CompileM Unit
  | [] => pure ()
  | (_, pair) :: rest => do
      pair
      inOrder rest

end Compile

open Compile

mutual

def Expr.compile : Expr → CompileM Unit
  | .integer value => do
      let index ← addConstant (.integer value)
      discard (emit .constant [index])
  | .string text => do
      let index ← addConstant (.string text)
      discard (emit .constant [index])
  | .boolean true => discard (emit .pushTrue)
  | .boolean false => discard (emit .pushFalse)
  | .ident name => do
      let symbol ← resolve name
      load symbol
  | .unary op operand => do
      operand.compile
      discard (emit (unaryOpcode op))
  | .binary op left right => binary op left.compile right.compile
  | .cond condition consequence none =>
      choose condition.compile (branch (Stmt.compileAll consequence)) (discard (emit .pushNull))
  | .cond condition consequence (some alternative) =>
      choose condition.compile (branch (Stmt.compileAll consequence))
        (branch (Stmt.compileAll alternative))
  | .array items => do
      Expr.compileAll items
      discard (emit .array [items.length])
  | .hash pairs => do
      inOrder (Expr.inKeyOrder (Expr.compilePairs pairs))
      discard (emit .hash [2 * pairs.length])
  | .index container index => do
      container.compile
      index.compile
      discard (emit .index)
  | .function name parameters body => function name parameters (Stmt.compileAll body)
  | .call callee arguments => do
      callee.compile
      Expr.compileAll arguments
      discard (emit .call [arguments.length])

def Expr.compileAll : List Expr → CompileM Unit
  | [] => pure ()
  | expr :: rest => do
      expr.compile
      Expr.compileAll rest

def Expr.compilePairs : List (Expr × Expr) → List (String × CompileM Unit)
  | [] => []
  | (key, value) :: rest =>
      (key.display, do
        key.compile
        value.compile) :: Expr.compilePairs rest

def Stmt.compile : Stmt → CompileM Unit
  | .expr value => do
      value.compile
      discard (emit .pop)
  | .bind name value => do
      value.compile
      let symbol ← define name
      match symbol.place with
      | .global => discard (emit .setGlobal [symbol.index])
      | _ => discard (emit .setLocal [symbol.index])
  | .ret value => do
      if (← get).pending.isEmpty then throw .returnOutsideFunction
      value.compile
      discard (emit .returnValue)

def Stmt.compileAll : List Stmt → CompileM Unit
  | [] => pure ()
  | stmt :: rest => do
      stmt.compile
      Stmt.compileAll rest

end

def Program.compile (program : Program) : CompileM Unit :=
  Stmt.compileAll program.statements

/-- Compiles a program behind what has been compiled already. -/
def Compiler.add (compiler : Compiler) (program : Program) :
    Except CompileError Unit × Compiler :=
  program.compile.run compiler

def Program.bytecode (program : Program) : Except CompileError Bytecode :=
  match Compiler.fresh.add program with
  | (.ok (), compiler) => .ok compiler.bytecode
  | (.error error, _) => .error error

end Stacklang
