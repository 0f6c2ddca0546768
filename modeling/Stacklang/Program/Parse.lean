import Stacklang.Program
import Stacklang.Token.Lexer

namespace Stacklang

inductive Need where
  | token (token : Token)
  | identifier
  | operand
  deriving Repr, DecidableEq

inductive ParseFault where
  | lexical (fault : LexFault)
  | unmet (need : Need) (got : Token)
  deriving Repr, DecidableEq

def ParseFault.message : ParseFault → String
  | lexical fault => fault.message
  | unmet (.token token) got =>
      "expected next token to be " ++ token.describe ++ ", got " ++ got.describe ++ " instead"
  | unmet .identifier got => "expected an identifier, got " ++ got.describe ++ " instead"
  | unmet .operand got => "no prefix parse function for " ++ got.describe ++ " found"

structure ParseError where
  fault : ParseFault
  position : Position
  deriving Repr, DecidableEq

def ParseError.message (error : ParseError) : String :=
  error.position.describe ++ ": " ++ error.fault.message

/-- How tightly an operator holds its operands, loosest first. -/
abbrev Level := Nat

namespace Level

def lowest : Level := 0
def equality : Level := 1
def order : Level := 2
def sum : Level := 3
def product : Level := 4
def unary : Level := 5
def call : Level := 6
def index : Level := 7

end Level

def BinaryOp.level : BinaryOp → Level
  | equal | notEqual => .equality
  | less | greater | lessEqual | greaterEqual => .order
  | add | sub => .sum
  | mul | div => .product

/-- What can follow an operand and take it in. -/
inductive Connector where
  | binary (op : BinaryOp)
  | call
  | index
  deriving Repr, DecidableEq

def Connector.level : Connector → Level
  | binary op => op.level
  | call => .call
  | index => .index

def Token.connector? : Token → Option Connector
  | plus => some (.binary .add)
  | minus => some (.binary .sub)
  | star => some (.binary .mul)
  | slash => some (.binary .div)
  | less => some (.binary .less)
  | greater => some (.binary .greater)
  | equal => some (.binary .equal)
  | notEqual => some (.binary .notEqual)
  | lessEqual => some (.binary .lessEqual)
  | greaterEqual => some (.binary .greaterEqual)
  | leftParen => some .call
  | leftBracket => some .index
  | _ => none

namespace Parse

/-- The outcome of reading from `start`: a value and the tokens behind it, or what was needed at the
tokens where reading stopped. -/
inductive Reply (α : Type) (start : List Located) where
  | done (value : α) (rest : List Located) (shorter : rest.length < start.length)
  | fail (need : Need) (rest : List Located) (within : rest.length ≤ start.length)

@[inline] def Reply.andThen {α β : Type} {middle start : List Located} (reply : Reply α middle)
    (next : (value : α) → (rest : List Located) → rest.length < middle.length → Reply β start)
    (within : middle.length ≤ start.length := by (try simp only [List.length_cons] at *); omega) :
    Reply β start :=
  match reply with
  | .done value rest shorter => next value rest shorter
  | .fail need rest inside => .fail need rest (Nat.le_trans inside within)

def expect (token : Token) (tokens : List Located) : Reply Unit tokens :=
  match tokens with
  | [] => .fail (.token token) [] (Nat.le_refl _)
  | located :: rest =>
      if located.token = token then .done () rest (Nat.lt_succ_self _)
      else .fail (.token token) (located :: rest) (Nat.le_refl _)

def identifier (tokens : List Located) : Reply String tokens :=
  match tokens with
  | ⟨.ident name, _⟩ :: rest => .done name rest (Nat.lt_succ_self _)
  | tokens => .fail .identifier tokens (Nat.le_refl _)

def startsWith (token : Token) : List Located → Bool
  | [] => false
  | located :: _ => located.token == token

def skipSemicolons (tokens : List Located) : List Located :=
  tokens.dropWhile (·.token == .semicolon)

/-- Whether no token is left before the end marker. -/
def ended : List Located → Bool
  | [] => true
  | located :: _ => located.token == .eof

/-- What is left behind the next semicolon, or from the end marker on if that comes first. -/
def recover : List Located → List Located
  | [] => []
  | located :: rest =>
      if located.token = .eof then located :: rest
      else if located.token = .semicolon then rest
      else recover rest

theorem length_skipSemicolons_le (tokens : List Located) :
    (skipSemicolons tokens).length ≤ tokens.length :=
  (List.dropWhile_suffix _).length_le

theorem ended_skipSemicolons {tokens : List Located} (hended : ended tokens = true) :
    ended (skipSemicolons tokens) = true := by
  cases tokens with
  | nil => rfl
  | cons located rest =>
      have heof : located.token = .eof := by simpa [ended] using hended
      simp [skipSemicolons, ended, heof]

theorem recover_shorter (tokens : List Located) :
    (recover tokens).length < tokens.length ∨
      ended (recover tokens) = true ∧ (recover tokens).length ≤ tokens.length := by
  induction tokens with
  | nil => exact .inr ⟨rfl, Nat.le_refl _⟩
  | cons located rest ih =>
      rw [recover]
      split
      next heof => exact .inr ⟨by simp [ended, heof], Nat.le_refl _⟩
      next =>
        split
        next => exact .inl (Nat.lt_succ_self _)
        next => exact ih.imp Nat.lt_succ_of_lt fun ⟨hended, hle⟩ => ⟨hended, Nat.le_succ_of_le hle⟩

/-- Reads parameter names up to the closing parenthesis; `done` holds those already read, latest
first. -/
def parameters {start : List Located} (done : List String) (tokens : List Located)
    (within : tokens.length ≤ start.length) : Reply (List String) start :=
  (identifier tokens).andThen fun name afterName _ =>
    match afterName with
    | ⟨.comma, _⟩ :: rest =>
        parameters (name :: done) rest (by simp only [List.length_cons] at *; omega)
    | afterName =>
        (expect .rightParen afterName).andThen fun _ rest _ =>
          .done (name :: done).reverse rest (by omega)
  termination_by tokens.length
  decreasing_by simp only [List.length_cons] at *; omega

mutual

def statement (tokens : List Located) : Reply Stmt tokens :=
  match tokens with
  | ⟨.letWord, _⟩ :: afterLet =>
      (identifier afterLet).andThen fun name afterName _ =>
      (expect .assign afterName).andThen fun _ afterAssign _ =>
      (expression .lowest afterAssign).andThen fun value rest _ =>
        .done (.bind name (value.named name)) (skipSemicolons rest) (by
          have := length_skipSemicolons_le rest
          simp only [List.length_cons]
          omega)
  | ⟨.returnWord, _⟩ :: afterReturn =>
      (expression .lowest afterReturn).andThen fun value rest _ =>
        .done (.ret value) (skipSemicolons rest) (by
          have := length_skipSemicolons_le rest
          simp only [List.length_cons]
          omega)
  | tokens =>
      (expression .lowest tokens).andThen fun value rest _ =>
        .done (.expr value) (skipSemicolons rest) (by
          have := length_skipSemicolons_le rest
          omega)
  termination_by 5 * tokens.length + 3
  decreasing_by all_goals (try simp only [List.length_cons]); omega

def expression (level : Level) (tokens : List Located) : Reply Expr tokens :=
  (operand tokens).andThen fun left rest shorter => connectors level left rest shorter
  termination_by 5 * tokens.length + 2
  decreasing_by all_goals omega

/-- Lets `left` be taken in by the operators, calls and subscripts that hold tighter than
`level`. -/
def connectors {start : List Located} (level : Level) (left : Expr) (tokens : List Located)
    (shorter : tokens.length < start.length) : Reply Expr start :=
  match tokens with
  | [] => .done left [] shorter
  | located :: rest =>
      match located.token.connector? with
      | none => .done left (located :: rest) shorter
      | some connector =>
          if level < connector.level then
            match connector with
            | .binary op =>
                (expression op.level rest).andThen fun right after _ =>
                  connectors level (.binary op left right) after (by
                    simp only [List.length_cons] at shorter
                    omega)
            | .call =>
                if startsWith .rightParen rest then
                  connectors level (.call left []) rest.tail (by
                    simp only [List.length_cons, List.length_tail] at *
                    omega)
                else
                  (expressions .rightParen [] rest (Nat.le_refl _)).andThen
                    fun arguments after _ =>
                      connectors level (.call left arguments) after (by
                        simp only [List.length_cons] at shorter
                        omega)
            | .index =>
                (expression .lowest rest).andThen fun index afterIndex _ =>
                (expect .rightBracket afterIndex).andThen fun _ after _ =>
                  connectors level (.index left index) after (by
                    simp only [List.length_cons] at shorter
                    omega)
          else .done left (located :: rest) shorter
  termination_by 5 * tokens.length
  decreasing_by all_goals (try simp only [List.length_cons, List.length_tail]); omega

def operand (tokens : List Located) : Reply Expr tokens :=
  match tokens with
  | ⟨.ident name, _⟩ :: rest => .done (.ident name) rest (Nat.lt_succ_self _)
  | ⟨.integer value, _⟩ :: rest => .done (.integer value) rest (Nat.lt_succ_self _)
  | ⟨.string text, _⟩ :: rest => .done (.string text) rest (Nat.lt_succ_self _)
  | ⟨.trueWord, _⟩ :: rest => .done (.boolean true) rest (Nat.lt_succ_self _)
  | ⟨.falseWord, _⟩ :: rest => .done (.boolean false) rest (Nat.lt_succ_self _)
  | ⟨.bang, _⟩ :: afterSign =>
      (expression .unary afterSign).andThen fun value rest _ =>
        .done (.unary .not value) rest (by simp only [List.length_cons]; omega)
  | ⟨.minus, _⟩ :: afterSign =>
      (expression .unary afterSign).andThen fun value rest _ =>
        .done (.unary .negate value) rest (by simp only [List.length_cons]; omega)
  | ⟨.leftParen, _⟩ :: afterParen =>
      (expression .lowest afterParen).andThen fun value afterValue _ =>
      (expect .rightParen afterValue).andThen fun _ rest _ =>
        .done value rest (by simp only [List.length_cons]; omega)
  | ⟨.ifWord, _⟩ :: afterIf =>
      (expect .leftParen afterIf).andThen fun _ afterParen _ =>
      (expression .lowest afterParen).andThen fun condition afterCondition _ =>
      (expect .rightParen afterCondition).andThen fun _ beforeBlock _ =>
      (block beforeBlock).andThen fun consequence afterBlock _ =>
        match afterBlock with
        | ⟨.elseWord, _⟩ :: afterElse =>
            (block afterElse).andThen
              (fun alternative rest _ =>
                .done (.cond condition consequence (some alternative)) rest (by
                  simp only [List.length_cons] at *
                  omega))
              (by simp only [List.length_cons] at *; omega)
        | afterBlock =>
            .done (.cond condition consequence none) afterBlock (by
              simp only [List.length_cons]
              omega)
  | ⟨.fnWord, _⟩ :: afterFn =>
      (expect .leftParen afterFn).andThen fun _ afterParen _ =>
        if startsWith .rightParen afterParen then
          (block afterParen.tail).andThen
            (fun body rest _ => .done (.function none [] body) rest (by
              simp only [List.length_cons, List.length_tail] at *
              omega))
            (by simp only [List.length_cons, List.length_tail]; omega)
        else
          (parameters [] afterParen (Nat.le_refl _)).andThen
            fun names beforeBlock _ =>
              (block beforeBlock).andThen fun body rest _ =>
                .done (.function none names body) rest (by simp only [List.length_cons]; omega)
  | ⟨.leftBracket, _⟩ :: afterBracket =>
      if startsWith .rightBracket afterBracket then
        .done (.array []) afterBracket.tail (by
          simp only [List.length_cons, List.length_tail]
          omega)
      else
        (expressions .rightBracket [] afterBracket (Nat.le_refl _)).andThen fun items rest _ =>
          .done (.array items) rest (by simp only [List.length_cons]; omega)
  | ⟨.leftBrace, _⟩ :: afterBrace =>
      (pairs [] afterBrace (Nat.le_refl _)).andThen fun entries rest _ =>
        .done (.hash entries) rest (by simp only [List.length_cons]; omega)
  | tokens => .fail .operand tokens (Nat.le_refl _)
  termination_by 5 * tokens.length + 1
  decreasing_by all_goals (try simp only [List.length_cons, List.length_tail] at *); omega

/-- Reads one or more expressions with commas between them and the token that closes the list;
`done` holds those already read, latest first. -/
def expressions {start : List Located} (close : Token) (done : List Expr) (tokens : List Located)
    (within : tokens.length ≤ start.length) : Reply (List Expr) start :=
  (expression .lowest tokens).andThen fun value afterValue _ =>
    match afterValue with
    | ⟨.comma, _⟩ :: rest =>
        expressions close (value :: done) rest (by simp only [List.length_cons] at *; omega)
    | afterValue =>
        (expect close afterValue).andThen fun _ rest _ =>
          .done (value :: done).reverse rest (by omega)
  termination_by 5 * tokens.length + 3
  decreasing_by all_goals (try simp only [List.length_cons] at *); omega

def pairs {start : List Located} (done : List (Expr × Expr)) (tokens : List Located)
    (within : tokens.length ≤ start.length) : Reply (List (Expr × Expr)) start :=
  match tokens with
  | ⟨.rightBrace, _⟩ :: rest =>
      .done done.reverse rest (by simp only [List.length_cons] at within; omega)
  | tokens =>
      (expression .lowest tokens).andThen fun key afterKey _ =>
      (expect .colon afterKey).andThen fun _ afterColon _ =>
      (expression .lowest afterColon).andThen fun value afterValue _ =>
        if startsWith .rightBrace afterValue then
          .done ((key, value) :: done).reverse afterValue.tail (by
            simp only [List.length_tail]
            omega)
        else
          (expect .comma afterValue).andThen fun _ rest _ =>
            pairs ((key, value) :: done) rest (by omega)
  termination_by 5 * tokens.length + 3
  decreasing_by all_goals omega

def block (tokens : List Located) : Reply (List Stmt) tokens :=
  (expect .leftBrace tokens).andThen fun _ rest shorter =>
    statements [] rest (Nat.le_of_lt shorter)
  termination_by 5 * tokens.length
  decreasing_by all_goals omega

def statements {start : List Located} (done : List Stmt) (tokens : List Located)
    (within : tokens.length ≤ start.length) : Reply (List Stmt) start :=
  if startsWith .rightBrace (skipSemicolons tokens) || ended (skipSemicolons tokens) then
    (expect .rightBrace (skipSemicolons tokens)).andThen
      (fun _ rest shorter =>
        .done done.reverse rest (by
          have := length_skipSemicolons_le tokens
          omega))
      (Nat.le_trans (length_skipSemicolons_le tokens) within)
  else
    (statement (skipSemicolons tokens)).andThen
      (fun value after shorter =>
        statements (value :: done) after (by
          have := length_skipSemicolons_le tokens
          omega))
      (Nat.le_trans (length_skipSemicolons_le tokens) within)
  termination_by 5 * tokens.length + 4
  decreasing_by
    all_goals
      have := length_skipSemicolons_le tokens
      omega

end

def unmet (stop : Position) (need : Need) (tokens : List Located) : ParseError :=
  match tokens with
  | [] => ⟨.unmet need .eof, stop⟩
  | located :: _ => ⟨.unmet need located.token, located.position⟩

/-- Reads statements up to the end. Recovery may stop at the end marker without taking a token, and
then nothing is read any more. -/
def toEnd (stop : Position) (done : List Stmt) (errors : List ParseError)
    (tokens : List Located) : Except (List ParseError) Program :=
  if _ : ended (skipSemicolons tokens) then
    if errors.isEmpty then .ok ⟨done.reverse⟩ else .error errors.reverse
  else
    match statement (skipSemicolons tokens) with
    | .done value after _ => toEnd stop (value :: done) errors after
    | .fail need after _ => toEnd stop done (unmet stop need after :: errors) (recover after)
  termination_by 2 * tokens.length + if ended tokens then 0 else 1
  decreasing_by
    all_goals have skipped := length_skipSemicolons_le tokens
    · split <;> omega
    · have hmore : ended tokens = false := by
        simpa using mt ended_skipSemicolons ‹¬ended (skipSemicolons tokens) = true›
      rcases recover_shorter after with hless | ⟨hstops, hle⟩
      · split <;> omega
      · simp only [hstops, hmore, if_true, Bool.false_eq_true, if_false]
        omega

def lastPosition (tokens : List Located) : Position :=
  (tokens.getLast?.map (·.position)).getD .start

end Parse

/-- Reads tokens as a program, up to the first end marker. -/
def Program.ofTokens (tokens : List Located) : Except (List ParseError) Program :=
  Parse.toEnd (Parse.lastPosition tokens) [] [] tokens

/-- Reads a text as a program. A text that is no list of tokens has one error. -/
def Program.ofSource (source : String) : Except (List ParseError) Program :=
  match tokenize source with
  | .error error => .error [⟨.lexical error.fault, error.position⟩]
  | .ok tokens => Program.ofTokens tokens

end Stacklang
