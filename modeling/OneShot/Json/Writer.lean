import OneShot.Json.Value
import OneShot.Decimal.Text
import OneShot.Text.Quoted

/-!
# Writing JSON text

The writer takes the separators and whether characters beyond ASCII are
escaped.  Quotes, backslashes and control characters always are.
-/

namespace OneShot.Json

open OneShot.Text

/-- The decisions of a written form. -/
structure Style where
  itemSeparator : String
  nameSeparator : String
  /-- Characters other than the visible ASCII ones and the space are escaped. -/
  asciiOnly : Bool

/-- Spaced separators and ASCII only: the form of stored columns. -/
def Style.spaced : Style := ⟨", ", ": ", true⟩

/-- No spaces, characters beyond ASCII as they are: the form of messages. -/
def Style.compact : Style := ⟨",", ":", false⟩

def unitEscape (unit : Nat) : List Char :=
  '\\' :: 'u' :: hexDigits 4 unit

def unitEscapes (c : Char) : List Char :=
  if c.toNat < 0x10000 then unitEscape c.toNat
  else
    let code := c.toNat - 0x10000
    unitEscape (0xD800 + code / 0x400) ++ unitEscape (0xDC00 + code % 0x400)

def writeChar (asciiOnly : Bool) (c : Char) : List Char :=
  match c with
  | '"' => ['\\', '"']
  | '\\' => ['\\', '\\']
  | '\n' => ['\\', 'n']
  | '\r' => ['\\', 'r']
  | '\t' => ['\\', 't']
  | '\x08' => ['\\', 'b']
  | '\x0c' => ['\\', 'f']
  | _ =>
      if c.toNat < 0x20 then unitEscape c.toNat
      else if asciiOnly && c.toNat > 0x7E then unitEscapes c
      else [c]

def writeString (asciiOnly : Bool) (value : String) : String :=
  String.ofList ('"' :: (value.toList.flatMap (writeChar asciiOnly) ++ ['"']))

/-- The text of a float, with the names JSON readers take for the values that
are no number. -/
def writeFloat (value : Float) : String :=
  Decimal.textWith ⟨"NaN", "Infinity"⟩ value

mutual

def write (style : Style) : Json → String
  | .null => "null"
  | .bool true => "true"
  | .bool false => "false"
  | .int value => intText value
  | .float value => writeFloat value
  | .str value => writeString style.asciiOnly value
  | .arr items => "[" ++ style.itemSeparator.intercalate (writeItems style items) ++ "]"
  | .obj members =>
      "\x7b" ++ style.itemSeparator.intercalate (writeMembers style members) ++ "\x7d"

/-- The texts of the items of an array. -/
def writeItems (style : Style) : List Json → List String
  | [] => []
  | item :: rest => write style item :: writeItems style rest

/-- The texts of the members of an object. -/
def writeMembers (style : Style) : List (String × Json) → List String
  | [] => []
  | (name, value) :: rest =>
      (writeString style.asciiOnly name ++ style.nameSeparator ++ write style value)
        :: writeMembers style rest

end

end OneShot.Json
