import Stacklang.Text.Grapheme

namespace Stacklang.Text

/-- A line as far as it has been typed: its characters, and the size of each of its clusters, both
latest first. Sizes are counted in bytes and kept in one byte. -/
structure TypedLine where
  chars : List Char
  sizes : List UInt8

/-- Takes the last `count` bytes off a text that is held latest first. -/
def eraseBytes (count : Nat) : List Char → List Char
  | [] => []
  | c :: rest => if count = 0 then c :: rest else eraseBytes (count - c.utf8Size) rest

def clusterSize (cluster : List Char) : UInt8 :=
  cluster.foldl (fun size c => size + c.utf8Size.toUInt8) 0

namespace TypedLine

def erase (line : TypedLine) : TypedLine :=
  match line.sizes with
  | [] => line
  | size :: sizes => ⟨eraseBytes size.toNat line.chars, sizes⟩

def append (line : TypedLine) (cluster : List Char) : TypedLine :=
  ⟨cluster.reverseAux line.chars, clusterSize cluster :: line.sizes⟩

def type (line : TypedLine) (cluster : List Char) : TypedLine :=
  if cluster = ['\x08'] then line.erase else line.append cluster

end TypedLine

/-- The line that is left when every backspace has erased the cluster before it. -/
def applyBackspaces (s : String) : String :=
  String.ofList ((clusters s.toList).foldl TypedLine.type ⟨[], []⟩).chars.reverse

end Stacklang.Text
