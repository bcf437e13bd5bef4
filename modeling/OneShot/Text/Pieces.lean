/-!
# Pieces of a text

A text falls into pieces at each occurrence of a separator: there is one piece
more than there are separators, and pieces may be empty.
-/

namespace OneShot.Text

def piecesAt (separator : Char) : List Char → List (List Char)
  | [] => [[]]
  | c :: rest =>
      match piecesAt separator rest with
      | [] => [[c]]
      | piece :: pieces =>
          if c == separator then [] :: piece :: pieces else (c :: piece) :: pieces

end OneShot.Text
