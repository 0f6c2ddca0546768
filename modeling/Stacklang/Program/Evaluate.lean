import Stacklang.Machine.Step
import Stacklang.Program

namespace Stacklang

/-- The names that a stretch of a function binds and uses, and how many literals it holds. -/
structure Survey where
  bound : List String
  /-- What the function uses and had not bound at that point, in order. -/
  free : List String
  literals : Nat
  deriving Repr, DecidableEq

namespace Survey

def empty : Survey := ⟨[], [], 0⟩

def use (survey : Survey) (name : String) : Survey :=
  if name ∈ survey.bound ∨ name ∈ survey.free then survey
  else { survey with free := survey.free ++ [name] }

def bind (survey : Survey) (name : String) : Survey :=
  { survey with bound := name :: survey.bound }

def literal (survey : Survey) : Survey :=
  { survey with literals := survey.literals + 1 }

def enter (name : Option String) (parameters : List String) : Survey :=
  parameters.foldl bind ⟨name.toList, [], 0⟩

/-- A function literal with the given survey of its body: it uses what its body does not bind. -/
def function (survey inner : Survey) : Survey :=
  let survey := inner.free.foldl use survey
  { survey with literals := survey.literals + inner.literals + 1 }

def inOrder : List (String × (Survey → Survey)) → Survey → Survey
  | [], survey => survey
  | (_, pair) :: rest, survey => inOrder rest (pair survey)

end Survey

mutual

def Expr.survey : Expr → Survey → Survey
  | .ident name, survey => survey.use name
  | .integer _, survey | .string _, survey => survey.literal
  | .boolean _, survey => survey
  | .array items, survey => Expr.surveyAll items survey
  | .hash pairs, survey => Survey.inOrder (Expr.inKeyOrder (Expr.surveyPairs pairs)) survey
  | .unary _ operand, survey => operand.survey survey
  | .binary .less left right, survey => left.survey (right.survey survey)
  | .binary _ left right, survey => right.survey (left.survey survey)
  | .index container index, survey => index.survey (container.survey survey)
  | .cond condition consequence none, survey =>
      Stmt.surveyAll consequence (condition.survey survey)
  | .cond condition consequence (some alternative), survey =>
      Stmt.surveyAll alternative (Stmt.surveyAll consequence (condition.survey survey))
  | .function name parameters body, survey =>
      survey.function (Stmt.surveyAll body (.enter name parameters))
  | .call callee arguments, survey => Expr.surveyAll arguments (callee.survey survey)

def Expr.surveyAll : List Expr → Survey → Survey
  | [], survey => survey
  | expr :: rest, survey => Expr.surveyAll rest (expr.survey survey)

def Expr.surveyPairs : List (Expr × Expr) → List (String × (Survey → Survey))
  | [] => []
  | (key, value) :: rest =>
      (key.display, fun survey => value.survey (key.survey survey)) :: Expr.surveyPairs rest

def Stmt.survey : Stmt → Survey → Survey
  | .expr value, survey | .ret value, survey => value.survey survey
  | .bind name value, survey => (value.survey survey).bind name

def Stmt.surveyAll : List Stmt → Survey → Survey
  | [], survey => survey
  | stmt :: rest, survey => Stmt.surveyAll rest (stmt.survey survey)

end

/-- What a function literal gives to its closures besides the values that they capture. -/
structure Literal where
  name : Option String
  parameters : List String
  body : List Stmt
  captures : List String
  globals : List (String × Nat)
  place : Nat

instance : Arity Literal := ⟨fun literal => literal.parameters.length⟩

/-- A value of a program that is evaluated as it stands. -/
abbrev Datum := Value Literal

inductive Exit where
  /-- A `return`, which ends the call at hand only. -/
  | returned (value : Datum)
  | fault (fault : Fault)
  | unset
  /-- There is no meaning: the program is one that is refused before it runs. -/
  | undefined
  | unfinished

structure Situation where
  /-- What the names of the function at hand stand for, latest first, if there is one; nothing where
  a `let` was passed over. -/
  locals? : Option (List (String × Option Datum))
  names : List (String × Nat)
  place : Nat
  /-- The globals in the order of their `let`s; null where one was passed over. -/
  globals : List Datum
  world : World

/-- What a name stands for: of the function at hand, else a global, else a builtin. Of a function,
nothing may stand there. -/
def Situation.cell? (situation : Situation) (name : String) : Option (Option Datum) :=
  match (situation.locals?.getD []).lookup name with
  | some cell => some cell
  | none =>
      match situation.names.lookup name with
      | some index => some (some (situation.globals.getD index .null))
      | none => (Builtin.all.find? (·.name == name)).map fun builtin => some (.builtin builtin)

def Situation.ofFunction (situation : Situation) (names : List String) : List String :=
  names.filter fun name => ((situation.locals?.getD []).lookup name).isSome

/-- Binds a name, at top level to the next global. -/
def Situation.bind (situation : Situation) (name : String) (cell : Option Datum) : Situation :=
  match situation.locals? with
  | some locals => { situation with locals? := some ((name, cell) :: locals) }
  | none =>
      { situation with
        names := (name, situation.globals.length) :: situation.names
        globals := situation.globals ++ [cell.getD .null] }

abbrev EvalM := ExceptT Exit (StateM Situation)

namespace Evaluate

open Machine (operandFault hashEntries lookUp)

def fail {α : Type} (fault : Fault) : EvalM α :=
  throw (.fault fault)

def newRef : EvalM Ref :=
  modifyGet fun situation =>
    let (ref, world) := situation.world.allocate
    (ref, { situation with world })

def pass (literals : Nat) : EvalM Nat :=
  modifyGet fun situation =>
    (situation.place, { situation with place := situation.place + literals })

def read (name : String) : EvalM Datum := do
  match (← get).cell? name with
  | some (some value) => return value
  | some none => throw .unset
  | none => throw .undefined

def readAll : List String → EvalM (List Datum)
  | [] => return []
  | name :: rest => do
      let value ← read name
      let values ← readAll rest
      return value :: values

def bind (name : String) (cell : Option Datum) : EvalM Unit :=
  modify (·.bind name cell)

def bindAll : List String → EvalM Unit
  | [] => return
  | name :: rest => do
      bind name none
      bindAll rest

def skip (statements : List Stmt) : EvalM Unit := do
  let survey := Stmt.surveyAll statements .empty
  discard (pass survey.literals)
  bindAll survey.bound.reverse

def wrapped (n : Int) : Datum :=
  .integer (.ofInt n)

def unary (op : UnaryOp) (operand : Datum) : EvalM Datum :=
  match op, operand with
  | .not, value => return .boolean !value.isTruthy
  | .negate, .integer n => return wrapped (-n.toInt)
  | .negate, other => fail (.unknownUnary "-" other.kind)

/-- What an operator makes of whole numbers, before the result wraps around. -/
def arithmetic (op : BinaryOp) (exact : Int → Int → Int) (left right : Datum) : EvalM Datum :=
  match left, right with
  | .integer l, .integer r => return wrapped (exact l.toInt r.toInt)
  | _, _ => fail (operandFault op.symbol left right)

/-- Strings can be added too. -/
def add (left right : Datum) : EvalM Datum :=
  match left, right with
  | .string _ l, .string _ r => return .string (← newRef) (l ++ r)
  | _, _ => arithmetic .add (· + ·) left right

/-- Division goes toward zero. -/
def divide (left right : Datum) : EvalM Datum :=
  match left, right with
  | .integer l, .integer r =>
      if r.toInt = 0 then fail .divisionByZero else return wrapped (l.toInt.tdiv r.toInt)
  | _, _ => fail (operandFault BinaryOp.div.symbol left right)

def greater (left right : Datum) : EvalM Datum :=
  match left, right with
  | .integer l, .integer r => return .boolean (decide (r.toInt < l.toInt))
  | _, _ => fail (operandFault BinaryOp.greater.symbol left right)

def binary (op : BinaryOp) (left right : Datum) : EvalM Datum :=
  match op with
  | .add => add left right
  | .sub => arithmetic .sub (· - ·) left right
  | .mul => arithmetic .mul (· * ·) left right
  | .div => divide left right
  | .less => greater right left
  | .greater => greater left right
  | .equal => return .boolean (left.identical right)
  | .notEqual => return .boolean !left.identical right
  | .lessEqual | .greaterEqual => throw .undefined

def lift {α : Type} : Except Fault α → EvalM α
  | .ok value => return value
  | .error fault => fail fault

/-- Makes a closure: what its body uses of the functions around it is captured now. -/
def makeClosure (name : Option String) (parameters : List String) (body : List Stmt) :
    EvalM Datum := do
  let survey := Stmt.surveyAll body (.enter name parameters)
  let captures := (← get).ofFunction survey.free
  let captured ← readAll captures
  let place ← pass (survey.literals + 1)
  let globals := (← get).names
  let ref ← newRef
  return .closure ref ⟨name, parameters, body, captures, globals, place⟩ captured

def entry (callee : Datum) (literal : Literal) (captured arguments : List Datum) :
    List (String × Option Datum) :=
  (literal.parameters.zip (arguments.map some)).reverse ++
    literal.name.toList.map (·, some callee) ++ literal.captures.zip (captured.map some)

def within (locals : List (String × Option Datum)) (literal : Literal) (body : EvalM Datum) :
    EvalM Datum := do
  let outer ← get
  set { outer with locals? := some locals, names := literal.globals, place := literal.place }
  let result ← tryCatch body fun
    | .returned value => return value
    | exit => throw exit
  modify fun inner => { outer with globals := inner.globals, world := inner.world }
  return result

def callBuiltin (builtin : Builtin) (arguments : List Datum) : EvalM Datum := do
  let situation ← get
  let (result, world) ← lift ((builtin.apply arguments).run situation.world)
  set { situation with world }
  return result.getD .null

abbrev Call := Datum → List Datum → EvalM Datum

def inOrder : List (String × EvalM (Datum × Datum)) → EvalM (List Datum)
  | [] => return []
  | (_, pair) :: rest => do
      let (key, value) ← pair
      let values ← inOrder rest
      return key :: value :: values

end Evaluate

open Evaluate

mutual

def Expr.eval (call : Call) : Expr → EvalM Datum
  | .ident name => read name
  | .integer n => do
      discard (pass 1)
      return .integer n
  | .boolean value => return .boolean value
  | .string text => do
      let place ← pass 1
      return .string (.pooled 0 place) text
  | .array items => do
      let values ← Expr.evalAll call items
      return .array (← newRef) values
  | .hash pairs => do
      let run ← inOrder (Expr.inKeyOrder (Expr.evalPairs call pairs))
      let entries ← lift (Machine.hashEntries [] run)
      return .hash (← newRef) entries
  | .unary op operand => do
      unary op (← operand.eval call)
  | .binary .less left right => do
      let above ← right.eval call
      let below ← left.eval call
      binary .less below above
  | .binary op left right => do
      let l ← left.eval call
      let r ← right.eval call
      binary op l r
  | .index container index => do
      let holder ← container.eval call
      let key ← index.eval call
      lift (Machine.lookUp holder key)
  | .cond condition consequence none => do
      if (← condition.eval call).isTruthy then Stmt.evalBlock call consequence
      else
        skip consequence
        return .null
  | .cond condition consequence (some alternative) => do
      if (← condition.eval call).isTruthy then
        let value ← Stmt.evalBlock call consequence
        skip alternative
        return value
      else
        skip consequence
        Stmt.evalBlock call alternative
  | .function name parameters body => makeClosure name parameters body
  | .call callee arguments => do
      let function ← callee.eval call
      let values ← Expr.evalAll call arguments
      call function values

def Expr.evalAll (call : Call) : List Expr → EvalM (List Datum)
  | [] => return []
  | expr :: rest => do
      let value ← expr.eval call
      let values ← Expr.evalAll call rest
      return value :: values

def Expr.evalPairs (call : Call) : List (Expr × Expr) → List (String × EvalM (Datum × Datum))
  | [] => []
  | (key, value) :: rest =>
      (key.display, do
        let k ← key.eval call
        let v ← value.eval call
        return (k, v)) :: Expr.evalPairs call rest

def Stmt.eval (call : Call) : Stmt → EvalM Datum
  | .expr value => value.eval call
  | .bind name value => do
      let result ← value.eval call
      bind name (some result)
      return result
  | .ret value => do
      let result ← value.eval call
      throw (.returned result)

/-- Evaluates a branch or a body. Its value is that of its last statement, if that is an
expression, else null. -/
def Stmt.evalBlock (call : Call) : List Stmt → EvalM Datum
  | [] => return .null
  | [.expr value] => value.eval call
  | stmt :: rest => do
      discard (stmt.eval call)
      Stmt.evalBlock call rest

end

/-- Calls a value, with at most `depth` calls inside each other. -/
def Evaluate.apply : (depth : Nat) → Call
  | 0, _, _ => throw .unfinished
  | depth + 1, callee, arguments =>
      match callee with
      | .closure _ literal captured =>
          if arguments.length = literal.parameters.length then
            within (entry callee literal captured arguments) literal
              (Stmt.evalBlock (apply depth) literal.body)
          else fail (.wrongArity literal.parameters.length arguments.length)
      | .builtin builtin => callBuiltin builtin arguments
      | other => fail (.notCallable other.kind)

def Evaluate.topLevel (call : Call) (last : Datum) : List Stmt → EvalM Datum
  | [] => return last
  | stmt :: rest => do
      let value ← stmt.eval call
      topLevel call value rest

/-- The situation of a program before its first statement. The program itself is a value with an
identity. -/
def Situation.start (world : World) : Situation :=
  ⟨none, [], 0, [], world.allocate.2⟩

def Program.evaluate (depth : Nat) (program : Program) (world : World) :
    Except Exit Datum × Situation :=
  (topLevel (apply depth) .null program.statements).run (.start world)

end Stacklang
