import Stacklang.Text.Decimal

namespace Stacklang

/-- The words and signs that programs are written in. -/
inductive Token where
  | integer (value : Int64)
  | string (text : String)
  | ident (name : String)
  | fnWord
  | letWord
  | trueWord
  | falseWord
  | ifWord
  | elseWord
  | returnWord
  | assign
  | plus
  | minus
  | bang
  | star
  | slash
  | less
  | greater
  | equal
  | notEqual
  | lessEqual
  | greaterEqual
  | comma
  | semicolon
  | colon
  | leftParen
  | rightParen
  | leftBrace
  | rightBrace
  | leftBracket
  | rightBracket
  | eof
  deriving Repr, DecidableEq, Inhabited

namespace Token

def keyword? (word : String) : Option Token :=
  match word with
  | "fn" => some fnWord
  | "let" => some letWord
  | "true" => some trueWord
  | "false" => some falseWord
  | "if" => some ifWord
  | "else" => some elseWord
  | "return" => some returnWord
  | _ => none

def sign? (c : Char) : Option Token :=
  match c with
  | '=' => some assign
  | '!' => some bang
  | '+' => some plus
  | '-' => some minus
  | '*' => some star
  | '/' => some slash
  | '<' => some less
  | '>' => some greater
  | ',' => some comma
  | ';' => some semicolon
  | ':' => some colon
  | '(' => some leftParen
  | ')' => some rightParen
  | '\x7b' => some leftBrace
  | '\x7d' => some rightBrace
  | '[' => some leftBracket
  | ']' => some rightBracket
  | _ => none

/-- The sign that a character makes together with an equals sign after it. -/
def signWithEquals? (c : Char) : Option Token :=
  match c with
  | '=' => some equal
  | '!' => some notEqual
  | '<' => some lessEqual
  | '>' => some greaterEqual
  | _ => none

def escape (text : String) : String :=
  String.ofList (text.toList.flatMap fun c => if c == '"' || c == '\\' then ['\\', c] else [c])

def spelling : Token → String
  | integer value => Text.integer value
  | string text => "\"" ++ escape text ++ "\""
  | ident name => name
  | fnWord => "fn"
  | letWord => "let"
  | trueWord => "true"
  | falseWord => "false"
  | ifWord => "if"
  | elseWord => "else"
  | returnWord => "return"
  | assign => "="
  | plus => "+"
  | minus => "-"
  | bang => "!"
  | star => "*"
  | slash => "/"
  | less => "<"
  | greater => ">"
  | equal => "=="
  | notEqual => "!="
  | lessEqual => "<="
  | greaterEqual => ">="
  | comma => ","
  | semicolon => ";"
  | colon => ":"
  | leftParen => "("
  | rightParen => ")"
  | leftBrace => "\x7b"
  | rightBrace => "\x7d"
  | leftBracket => "["
  | rightBracket => "]"
  | eof => ""

def describe : Token → String
  | integer value => "integer " ++ Text.integer value
  | string text => "string \"" ++ text ++ "\""
  | ident name => "identifier `" ++ name ++ "`"
  | eof => "end of input"
  | token => "`" ++ token.spelling ++ "`"

end Token

/-- A place in a program: line and column, both from one. -/
structure Position where
  line : Nat
  column : Nat
  deriving Repr, DecidableEq, Inhabited

namespace Position

def start : Position := ⟨1, 1⟩

def next (position : Position) (c : Char) : Position :=
  if c == '\n' then ⟨position.line + 1, 1⟩ else ⟨position.line, position.column + 1⟩

def advance (position : Position) (chars : List Char) : Position :=
  chars.foldl next position

@[simp] theorem advance_nil (position : Position) : position.advance [] = position := rfl

@[simp] theorem advance_cons (position : Position) (c : Char) (chars : List Char) :
    position.advance (c :: chars) = (position.next c).advance chars := rfl

def describe (position : Position) : String :=
  Text.padded 1 position.line ++ ":" ++ Text.padded 1 position.column

end Position

structure Located where
  token : Token
  position : Position
  deriving Repr, DecidableEq, Inhabited

end Stacklang
