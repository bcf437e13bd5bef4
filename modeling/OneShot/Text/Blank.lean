import OneShot.Text.Ranges

/-!
# White space and trimming

The white space trimmed from texts is every character with the Unicode
property White_Space together with the four information separators
U+001C to U+001F.  Zero-width spaces and the byte order mark are not blank.
-/

namespace OneShot.Text

def blankRanges : Ranges :=
  [(0x09, 0x0D), (0x1C, 0x20), (0x85, 0x85), (0xA0, 0xA0), (0x1680, 0x1680),
   (0x2000, 0x200A), (0x2028, 0x2029), (0x202F, 0x202F), (0x205F, 0x205F),
   (0x3000, 0x3000)]

def isBlank (c : Char) : Bool :=
  blankRanges.contains c

/-- Drop the characters at the end of a list that satisfy a test. -/
def dropTail (drop : Char → Bool) (chars : List Char) : List Char :=
  (chars.reverse.dropWhile drop).reverse

/-- A text without the blanks at its end. -/
def trimEnd (text : String) : String :=
  String.ofList (dropTail isBlank text.toList)

/-- A text without the blanks at either end. -/
def trim (text : String) : String :=
  String.ofList (dropTail isBlank (text.toList.dropWhile isBlank))

/-- Whether a text has no character other than blanks. -/
def isBlankText (text : String) : Bool :=
  text.toList.all isBlank

end OneShot.Text
