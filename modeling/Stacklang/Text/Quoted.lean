import Stacklang.Text.GraphemeExtend
import Stacklang.Text.Printable

namespace Stacklang.Text

def codeEscape (c : Char) : List Char :=
  "\\u\x7b".toList ++ Nat.toDigits 16 c.toNat ++ "\x7d".toList

/-- Whether `c` melts into the character before it. The two half-width sound marks extend a grapheme
and still take a place of their own. -/
def isCombining (c : Char) : Bool :=
  isGraphemeExtend c && c != '\uFF9E' && c != '\uFF9F'

/-- How a character is written between quotes. Characters that are invisible or melt into the one
before them are named by their code point. -/
def escapeChar (c : Char) : List Char :=
  match c with
  | '\x00' => ['\\', '0']
  | '\t' => ['\\', 't']
  | '\r' => ['\\', 'r']
  | '\n' => ['\\', 'n']
  | '"' => ['\\', '"']
  | '\\' => ['\\', '\\']
  | c => if isCombining c || !isPrintable c then codeEscape c else [c]

def quoted (s : String) : String :=
  String.ofList ('"' :: (s.toList.flatMap escapeChar ++ ['"']))

end Stacklang.Text
