import Stacklang.Text.Conjunct
import Stacklang.Text.GraphemeExtend
import Stacklang.Text.Pictograph
import Stacklang.Text.SpacingMark

namespace Stacklang.Text

/-- The part that a character plays where clusters begin and end. -/
inductive GraphemeBreak where
  | other
  | carriageReturn
  | lineFeed
  | control
  | extend
  | joiner
  | spacingMark
  | prepend
  | regionalIndicator
  | leadingJamo
  | vowelJamo
  | trailingJamo
  | openSyllable
  | closedSyllable
  | pictograph
  | consonant
  deriving Repr, DecidableEq

def graphemeControlRanges : List (Nat × Nat) :=
  [(0x80, 0x9F), (0xAD, 0xAD), (0x61C, 0x61C), (0x180E, 0x180E), (0x200B, 0x200B),
  (0x200E, 0x200F), (0x2028, 0x202E), (0x2060, 0x206F), (0xFEFF, 0xFEFF), (0xFFF0, 0xFFFB),
  (0x13430, 0x1343F), (0x1BCA0, 0x1BCA3), (0x1D173, 0x1D17A), (0xE0000, 0xE001F),
  (0xE0080, 0xE00FF), (0xE01F0, 0xE0FFF)]

def prependRanges : List (Nat × Nat) :=
  [(0x600, 0x605), (0x6DD, 0x6DD), (0x70F, 0x70F), (0x890, 0x891), (0x8E2, 0x8E2), (0xD4E, 0xD4E),
  (0x110BD, 0x110BD), (0x110CD, 0x110CD), (0x111C2, 0x111C3), (0x113D1, 0x113D1),
  (0x1193F, 0x1193F), (0x11941, 0x11941), (0x11A84, 0x11A89), (0x11D46, 0x11D46),
  (0x11F02, 0x11F02)]

def leadingJamoRanges : List (Nat × Nat) :=
  [(0x1100, 0x115F), (0xA960, 0xA97C)]

def vowelJamoRanges : List (Nat × Nat) :=
  [(0x1160, 0x11A7), (0xD7B0, 0xD7C6), (0x16D63, 0x16D63), (0x16D67, 0x16D6A)]

def trailingJamoRanges : List (Nat × Nat) :=
  [(0x11A8, 0x11FF), (0xD7CB, 0xD7FB)]

/-- The part of a seven-bit character: printable ones stand for themselves. -/
def GraphemeBreak.ofAscii (code : Nat) : GraphemeBreak :=
  if code == 0x0D then .carriageReturn
  else if code == 0x0A then .lineFeed
  else if code < 0x20 || code == 0x7F then .control
  else .other

/-- The part of a Hangul syllable. Each vowel starts a row of 28, of which the first has no closing
consonant. -/
def GraphemeBreak.ofSyllable (code : Nat) : GraphemeBreak :=
  if (code - 0xAC00) % 28 == 0 then .openSyllable else .closedSyllable

def GraphemeBreak.ofChar (c : Char) : GraphemeBreak :=
  let code := c.toNat
  if code < 0x80 then ofAscii code
  else if 0xAC00 ≤ code && code ≤ 0xD7A3 then ofSyllable code
  else if code == 0x200D then .joiner
  else if inRanges graphemeControlRanges code then .control
  else if isGraphemeExtend c || (0x1F3FB ≤ code && code ≤ 0x1F3FF) then .extend
  else if isSpacingMark c then .spacingMark
  else if inRanges prependRanges code then .prepend
  else if 0x1F1E6 ≤ code && code ≤ 0x1F1FF then .regionalIndicator
  else if inRanges leadingJamoRanges code then .leadingJamo
  else if inRanges vowelJamoRanges code then .vowelJamo
  else if inRanges trailingJamoRanges code then .trailingJamo
  else if isPictograph c then .pictograph
  else if isConjunctConsonant c then .consonant
  else .other

/-- Controls and line ends take no other character into their cluster. -/
def GraphemeBreak.standsAlone : GraphemeBreak → Bool
  | .carriageReturn | .lineFeed | .control => true
  | _ => false

/-- Marks and joiners belong to the cluster before them. -/
def GraphemeBreak.continues : GraphemeBreak → Bool
  | .extend | .joiner | .spacingMark => true
  | _ => false

/-- Whether two neighbours are letters of one Hangul syllable. -/
def GraphemeBreak.shareSyllable : GraphemeBreak → GraphemeBreak → Bool
  | .leadingJamo, .leadingJamo | .leadingJamo, .vowelJamo
  | .leadingJamo, .openSyllable | .leadingJamo, .closedSyllable
  | .openSyllable, .vowelJamo | .openSyllable, .trailingJamo
  | .vowelJamo, .vowelJamo | .vowelJamo, .trailingJamo
  | .closedSyllable, .trailingJamo | .trailingJamo, .trailingJamo => true
  | _, _ => false

end Stacklang.Text
