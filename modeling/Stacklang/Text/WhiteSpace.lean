namespace Stacklang.Text

def isWhiteSpace (c : Char) : Bool :=
  let code := c.toNat
  (0x9 ≤ code && code ≤ 0xD) || code == 0x20 || code == 0x85 || code == 0xA0 ||
    code == 0x1680 || (0x2000 ≤ code && code ≤ 0x200A) || code == 0x2028 ||
    code == 0x2029 || code == 0x202F || code == 0x205F || code == 0x3000

def trimLeft (s : String) : String :=
  String.ofList (s.toList.dropWhile isWhiteSpace)

def trimRight (s : String) : String :=
  String.ofList (s.toList.reverse.dropWhile isWhiteSpace).reverse

def trim (s : String) : String :=
  trimRight (trimLeft s)

end Stacklang.Text
