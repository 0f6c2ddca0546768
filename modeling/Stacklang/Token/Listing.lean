import Stacklang.Text.Quoted
import Stacklang.Token

namespace Stacklang

namespace Token

inductive Family where
  | ending
  | integer
  | string
  | boolean
  | ident
  | operator
  | comparison
  | delimiter
  | keyword
  deriving Repr, DecidableEq

def family : Token → Family
  | eof => .ending
  | integer _ => .integer
  | string _ => .string
  | trueWord | falseWord => .boolean
  | ident _ => .ident
  | assign | plus | minus | bang | star | slash => .operator
  | equal | notEqual | less | lessEqual | greater | greaterEqual => .comparison
  | comma | semicolon | colon | leftParen | rightParen | leftBrace | rightBrace
  | leftBracket | rightBracket => .delimiter
  | fnWord | letWord | ifWord | elseWord | returnWord => .keyword

def Family.label : Family → String
  | ending => "EOF"
  | integer => "INT"
  | string => "STRING"
  | boolean => "BOOL"
  | ident => "IDENT"
  | operator => "OP"
  | comparison => "CMP"
  | delimiter => "DELIM"
  | keyword => "KEYWORD"

def colorReset : String := "\x1b[0m"

def Family.color : Family → String
  | ending => "\x1b[2m"
  | string => "\x1b[32m"
  | integer | boolean => "\x1b[36m"
  | ident => "\x1b[33m"
  | operator | comparison => "\x1b[35m"
  | keyword => "\x1b[34m"
  | delimiter => colorReset

def label : Token → String
  | integer _ => "Integer"
  | string _ => "String"
  | ident _ => "Ident"
  | fnWord => "Fn"
  | letWord => "Let"
  | trueWord => "True"
  | falseWord => "False"
  | ifWord => "If"
  | elseWord => "Else"
  | returnWord => "Return"
  | assign => "Assign"
  | plus => "Plus"
  | minus => "Minus"
  | bang => "Bang"
  | star => "Star"
  | slash => "Slash"
  | less => "Lt"
  | greater => "Gt"
  | equal => "Eq"
  | notEqual => "NotEq"
  | lessEqual => "LtEq"
  | greaterEqual => "GtEq"
  | comma => "Comma"
  | semicolon => "Semicolon"
  | colon => "Colon"
  | leftParen => "LParen"
  | rightParen => "RParen"
  | leftBrace => "LBrace"
  | rightBrace => "RBrace"
  | leftBracket => "LBracket"
  | rightBracket => "RBracket"
  | eof => "Eof"

/-- The contents of a token that carries some, quoted where they are text. -/
def payload? : Token → Option String
  | integer value => some (Text.integer value)
  | string text => some (Text.quoted text)
  | ident name => some (Text.quoted name)
  | _ => none

def detailed (token : Token) : String :=
  match token.payload? with
  | some payload => token.label ++ "(" ++ payload ++ ")"
  | none => token.label

end Token

structure TokenListing where
  colored : Bool := true
  /-- Whether tokens are given as messages name them, rather than by label. -/
  described : Bool := false

namespace TokenListing

def padRight (width : Nat) (s : String) : String :=
  s ++ String.ofList (List.replicate (width - s.length) ' ')

def line (listing : TokenListing) (located : Located) : String :=
  let family := located.token.family
  let opening := if listing.colored then family.color else ""
  let closing := if listing.colored then Token.colorReset else ""
  let text := if listing.described then located.token.describe else located.token.detailed
  "[" ++ Text.padded 2 located.position.line ++ ":" ++ Text.padded 2 located.position.column ++
    "] " ++ opening ++ padRight 8 family.label ++ " " ++ text ++ closing ++ "\n"

def render (listing : TokenListing) (tokens : List Located) : String :=
  String.join (tokens.map listing.line)

end TokenListing

end Stacklang
