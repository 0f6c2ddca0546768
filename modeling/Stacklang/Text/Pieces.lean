namespace Stacklang.Text

def occursIn (part : List Char) : List Char → Bool
  | [] => part.isEmpty
  | c :: rest => part.isPrefixOf (c :: rest) || occursIn part rest

/-- Cuts the text at each occurrence of a separator that is not empty; `piece` holds the characters
of the current piece, latest first. -/
def piecesAt (separator piece : List Char) : List Char → List (List Char)
  | [] => [piece.reverse]
  | c :: rest =>
      if separator.isPrefixOf (c :: rest) then
        piece.reverse :: piecesAt separator [] (rest.drop (separator.length - 1))
      else piecesAt separator (c :: piece) rest
  termination_by text => text.length

/-- The pieces of a text between separators. An empty separator cuts around every character. -/
def split (s separator : String) : List String :=
  if separator.isEmpty then s.toList.map String.singleton
  else (piecesAt separator.toList [] s.toList).map String.ofList

/-- The text with every occurrence of `part` exchanged for `fresh`. An empty part stands before every
character and at the end. -/
def replace (s part fresh : String) : String :=
  if part.isEmpty then
    String.ofList (fresh.toList ++ s.toList.flatMap fun c => c :: fresh.toList)
  else
    String.ofList (fresh.toList.intercalate (piecesAt part.toList [] s.toList))

def contains (s part : String) : Bool :=
  occursIn part.toList s.toList

end Stacklang.Text
