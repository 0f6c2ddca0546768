namespace Stacklang.Text

/-- The characters `first`, `first + stride`, … up to `last` all map `shift` code points away. -/
structure CaseRun where
  first : Nat
  last : Nat
  stride : Nat
  shift : Int
  deriving Repr, DecidableEq

def CaseRun.covers (run : CaseRun) (code : Nat) : Bool :=
  run.first ≤ code && code ≤ run.last && (code - run.first) % run.stride == 0

def CaseRun.image (run : CaseRun) (code : Nat) : Nat :=
  (code + run.shift).toNat

/-- The full mapping of one code point: an expansion, else the shift of its run, else itself. -/
def mapCode (expansions : List (Nat × List Nat)) (runs : List CaseRun) (code : Nat) : List Nat :=
  match expansions.lookup code with
  | some codes => codes
  | none =>
      match runs.find? (·.covers code) with
      | some run => [run.image code]
      | none => [code]

end Stacklang.Text
