import Stacklang.Text.Alphabetic
import Stacklang.Text.Numeric
import Stacklang.Token

namespace Stacklang

inductive LexFault where
  | unknownEscape (c : Char)
  | escapeAtEnd
  | unterminatedString
  | integerOutOfRange (digits : String)
  | unexpectedCharacter (c : Char)
  deriving Repr, DecidableEq

def LexFault.message : LexFault → String
  | unknownEscape c => "unknown escape sequence: \\" ++ String.singleton c
  | escapeAtEnd => "unexpected EOF in escape sequence"
  | unterminatedString => "unterminated string literal"
  | integerOutOfRange digits => "integer literal out of range: " ++ digits
  | unexpectedCharacter c => "unexpected character: '" ++ String.singleton c ++ "'"

structure LexError where
  fault : LexFault
  position : Position
  deriving Repr, DecidableEq

def LexError.message (error : LexError) : String :=
  error.position.describe ++ ": " ++ error.fault.message

namespace Lexer

def isBlank (c : Char) : Bool :=
  c == ' ' || c == '\t' || c == '\r' || c == '\n'

def isIdentStart (c : Char) : Bool :=
  Text.isAlphabetic c || c == '_'

def isIdentRest (c : Char) : Bool :=
  Text.isAlphabetic c || Text.isNumeric c || c == '_'

/-- The character that an escape in a string literal stands for. -/
def unescape? (c : Char) : Option Char :=
  match c with
  | 'n' => some '\n'
  | 't' => some '\t'
  | 'r' => some '\r'
  | '\\' => some '\\'
  | '"' => some '"'
  | _ => none

/-- A token that was read, the place after it and the characters after it. -/
structure Lexeme where
  token : Token
  stop : Position
  rest : List Char

/-- Reads a string literal from behind its opening quote, which stood at `opening`; `text` holds
the characters read so far, latest first. -/
def scanString (opening position : Position) (text : List Char) :
    List Char → Except LexError Lexeme
  | [] => .error ⟨.unterminatedString, opening⟩
  | '"' :: rest => .ok ⟨.string (String.ofList text.reverse), position.next '"', rest⟩
  | ['\\'] => .error ⟨.escapeAtEnd, position.next '\\'⟩
  | '\\' :: c :: rest =>
      match unescape? c with
      | some plain => scanString opening ((position.next '\\').next c) (plain :: text) rest
      | none => .error ⟨.unknownEscape c, position.next '\\'⟩
  | c :: rest => scanString opening (position.next c) (c :: text) rest

def scanInteger (position : Position) (chars : List Char) : Except LexError Lexeme :=
  let digits := chars.takeWhile Char.isDigit
  let value := Text.digitsValue digits
  if value < Nat.pow 2 63 then
    .ok ⟨.integer (Int64.ofNat value), position.advance digits, chars.dropWhile Char.isDigit⟩
  else .error ⟨.integerOutOfRange (String.ofList digits), position⟩

def scanWord (position : Position) (chars : List Char) : Lexeme :=
  let letters := chars.takeWhile isIdentRest
  let word := String.ofList letters
  ⟨(Token.keyword? word).getD (.ident word), position.advance letters, chars.dropWhile isIdentRest⟩

/-- Reads a sign, with an equals sign after it where the two make one token. -/
def scanSign (position : Position) (c : Char) (rest : List Char) : Except LexError Lexeme :=
  match rest, Token.signWithEquals? c, Token.sign? c with
  | '=' :: after, some token, _ => .ok ⟨token, (position.next c).next '=', after⟩
  | rest, _, some token => .ok ⟨token, position.next c, rest⟩
  | _, _, none => .error ⟨.unexpectedCharacter c, position⟩

def scanToken (position : Position) (c : Char) (rest : List Char) : Except LexError Lexeme :=
  if c == '"' then scanString position (position.next '"') [] rest
  else if c.isDigit then scanInteger position (c :: rest)
  else if isIdentStart c then .ok (scanWord position (c :: rest))
  else scanSign position c rest

theorem length_dropWhile_le (p : Char → Bool) (chars : List Char) :
    (chars.dropWhile p).length ≤ chars.length :=
  (List.dropWhile_suffix p).length_le

theorem length_rest_scanString {opening position : Position} {text chars : List Char}
    {lexeme : Lexeme} (read : scanString opening position text chars = .ok lexeme) :
    lexeme.rest.length < chars.length := by
  fun_induction scanString opening position text chars with
  | case1 => simp at read
  | case2 => cases read; simp
  | case3 => simp at read
  | case4 _ _ _ _ _ _ induction =>
      have := induction read
      simp only [List.length_cons]
      omega
  | case5 => simp at read
  | case6 _ _ _ _ _ _ _ induction =>
      have := induction read
      simp only [List.length_cons]
      omega

theorem length_rest_scanToken {position : Position} {c : Char} {rest : List Char}
    {lexeme : Lexeme} (read : scanToken position c rest = .ok lexeme) :
    lexeme.rest.length < (c :: rest).length := by
  unfold scanToken at read
  split at read
  · have := length_rest_scanString read
    simp only [List.length_cons]
    omega
  · split at read
    next digit =>
      unfold scanInteger at read
      dsimp only at read
      split at read
      · cases read
        simp only [List.dropWhile_cons, digit, if_true, List.length_cons]
        have := length_dropWhile_le Char.isDigit rest
        omega
      · simp at read
    next =>
      split at read
      next start =>
        cases read
        have inside : isIdentRest c = true := by
          simp only [isIdentStart, Bool.or_eq_true] at start
          rcases start with letter | underscore <;> simp [isIdentRest, *]
        simp only [scanWord, List.dropWhile_cons, inside, if_true, List.length_cons]
        have := length_dropWhile_le isIdentRest rest
        omega
      next =>
        unfold scanSign at read
        split at read
        · cases read
          simp only [List.length_cons]
          omega
        · cases read
          exact Nat.lt_succ_self _
        · simp at read

/-- Reads tokens up to the end of the text; `done` holds those already read, latest first. The last
token marks the end. -/
def scan (position : Position) (done : List Located) (chars : List Char) :
    Except LexError (List Located) :=
  match chars with
  | [] => .ok (⟨.eof, position⟩ :: done).reverse
  | c :: rest =>
      if isBlank c then scan (position.next c) done rest
      else
        match _ : scanToken position c rest with
        | .error error => .error error
        | .ok lexeme => scan lexeme.stop (⟨lexeme.token, position⟩ :: done) lexeme.rest
  termination_by chars.length
  decreasing_by
    · simp
    · exact length_rest_scanToken ‹_›

end Lexer

/-- The tokens of a text, closed by an end marker, or the first place that is no token. -/
def tokenize (source : String) : Except LexError (List Located) :=
  Lexer.scan .start [] source.toList

end Stacklang
