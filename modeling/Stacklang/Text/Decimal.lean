namespace Stacklang.Text

/-- The numeral of `n`, with leading zeros up to `width` digits. -/
def padded (width n : Nat) : String :=
  let digits := Nat.toDigits 10 n
  String.ofList (List.replicate (width - digits.length) '0' ++ digits)

/-- A code offset: at least four digits. -/
def offset (n : Nat) : String :=
  padded 4 n

def integer (n : Int64) : String :=
  if n < 0 then "-" ++ padded 1 n.toInt.natAbs else padded 1 n.toInt.natAbs

def digitsValue (digits : List Char) : Nat :=
  digits.foldl (fun value c => 10 * value + (c.toNat - '0'.toNat)) 0

end Stacklang.Text
