import Stacklang.Text.GraphemeBreak

namespace Stacklang.Text

structure LeftContext where
  last : GraphemeBreak
  /-- The text ends in an odd number of regional indicators. -/
  halfFlag : Bool
  /-- The text ends in a pictograph and characters that extend it. -/
  pictured : Bool
  /-- The text ends in a pictograph, characters that extend it and one joiner. -/
  joined : Bool
  /-- The text ends in a consonant and signs of its conjunct. -/
  conjunct : Bool
  /-- The text ends in a consonant and signs of its conjunct with a linker among them. -/
  linked : Bool
  deriving Repr, DecidableEq

namespace LeftContext

def start : LeftContext :=
  ⟨.control, false, false, false, false, false⟩

def push (left : LeftContext) (c : Char) : LeftContext :=
  let part := GraphemeBreak.ofChar c
  let sign := (part == .extend || part == .joiner) && c.toNat != 0x200C
  { last := part
    halfFlag := part == .regionalIndicator && !left.halfFlag
    pictured := part == .pictograph || (part == .extend && left.pictured)
    joined := part == .joiner && left.pictured
    conjunct := part == .consonant || (sign && left.conjunct)
    linked := sign && left.conjunct && (left.linked || isConjunctLinker c) }

/-- Whether a character of this part stays in the cluster that the text ends in. -/
def admits (left : LeftContext) (next : GraphemeBreak) : Bool :=
  if left.last == .carriageReturn && next == .lineFeed then true
  else if left.last.standsAlone || next.standsAlone then false
  else
    left.last.shareSyllable next || next.continues || left.last == .prepend ||
      (next == .consonant && left.linked) || (next == .pictograph && left.joined) ||
      (next == .regionalIndicator && left.halfFlag)

end LeftContext

/-- Cuts the rest of a text into clusters; `cluster` holds the characters of the current cluster and
`done` the clusters before it, both latest first. -/
def clustersFrom (left : LeftContext) (cluster : List Char) (done : List (List Char)) :
    List Char → List (List Char)
  | [] => (cluster.reverse :: done).reverse
  | c :: rest =>
      if left.admits (GraphemeBreak.ofChar c) then
        clustersFrom (left.push c) (c :: cluster) done rest
      else clustersFrom (left.push c) [c] (cluster.reverse :: done) rest

def clusters : List Char → List (List Char)
  | [] => []
  | c :: rest => clustersFrom (LeftContext.start.push c) [c] [] rest

end Stacklang.Text
