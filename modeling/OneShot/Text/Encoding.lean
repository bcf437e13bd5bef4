import OneShot.Text.Digit

/-!
# Encodings of text

Bytes are decoded as UTF-8, either strictly or with a replacement character for
each longest piece of a broken sequence, and as UTF-16 and UTF-32.
-/

namespace OneShot.Text

/-- Bytes. -/
abbrev Bytes := List UInt8

def replacement : Char := '\uFFFD'

def utf8Bytes (text : String) : Bytes :=
  text.toUTF8.toList

/-- The bytes written by pairs of hexadecimal digits. -/
def bytesOfHex : List Char → Bytes
  | high :: low :: rest =>
      UInt8.ofNat (16 * (hexValue? high).getD 0 + (hexValue? low).getD 0) :: bytesOfHex rest
  | _ => []

/-- The bytes that a text gives in hexadecimal. -/
def ofHex (text : String) : Bytes :=
  bytesOfHex text.toList

/-! ## UTF-8 -/

/-- A sequence that has begun: how many bytes are to come, the bounds of the
next one, and the code so far. -/
structure Pending where
  needed : Nat
  lower : Nat
  upper : Nat
  code : Nat

/-- What a byte at the beginning of a sequence is. -/
inductive Lead where
  | single (c : Char)
  | start (pending : Pending)
  | broken

/-- Classify the first byte of a sequence.  Overlong forms and surrogates are
excluded by the bounds of the second byte. -/
def leadOf (byte : UInt8) : Lead :=
  let b := byte.toNat
  if b < 0x80 then .single (Char.ofNat b)
  else if 0xC2 ≤ b ∧ b ≤ 0xDF then .start ⟨1, 0x80, 0xBF, b - 0xC0⟩
  else if b = 0xE0 then .start ⟨2, 0xA0, 0xBF, 0⟩
  else if b = 0xED then .start ⟨2, 0x80, 0x9F, 0xD⟩
  else if 0xE1 ≤ b ∧ b ≤ 0xEF then .start ⟨2, 0x80, 0xBF, b - 0xE0⟩
  else if b = 0xF0 then .start ⟨3, 0x90, 0xBF, 0⟩
  else if 0xF1 ≤ b ∧ b ≤ 0xF3 then .start ⟨3, 0x80, 0xBF, b - 0xF0⟩
  else if b = 0xF4 then .start ⟨3, 0x80, 0x8F, 4⟩
  else .broken

def Pending.accepts (pending : Pending) (byte : UInt8) : Bool :=
  pending.lower ≤ byte.toNat && byte.toNat ≤ pending.upper

def Pending.grow (pending : Pending) (byte : UInt8) : Nat :=
  64 * pending.code + (byte.toNat - 0x80)

/-- The characters of some bytes; a broken piece is none. -/
def utf8Pieces : Option Pending → Bytes → List (Option Char)
  | none, [] => []
  | some _, [] => [none]
  | none, byte :: rest =>
      match leadOf byte with
      | .single c => some c :: utf8Pieces none rest
      | .start pending => utf8Pieces (some pending) rest
      | .broken => none :: utf8Pieces none rest
  | some pending, byte :: rest =>
      if pending.accepts byte then
        let code := pending.grow byte
        if pending.needed ≤ 1 then some (Char.ofNat code) :: utf8Pieces none rest
        else utf8Pieces (some ⟨pending.needed - 1, 0x80, 0xBF, code⟩) rest
      else
        match leadOf byte with
        | .single c => none :: some c :: utf8Pieces none rest
        | .start next => none :: utf8Pieces (some next) rest
        | .broken => none :: none :: utf8Pieces none rest

/-- The text of some bytes, if they are UTF-8. -/
def ofUtf8? (bytes : Bytes) : Option String :=
  ((utf8Pieces none bytes).mapM id).map String.ofList

/-- The text of some bytes, broken pieces replaced. -/
def ofUtf8Lossy (bytes : Bytes) : String :=
  String.ofList ((utf8Pieces none bytes).map (·.getD replacement))

/-! ## Wider units -/

/-- The order of the bytes of a unit. -/
inductive ByteOrder where
  | big
  | little
  deriving DecidableEq

def unitOf (order : ByteOrder) (bytes : Bytes) : Nat :=
  (if order = .big then bytes else bytes.reverse).foldl
    (fun value byte => 256 * value + byte.toNat) 0

/-- The two-byte units of some bytes, if they come out even. -/
def units16? (order : ByteOrder) : Bytes → Option (List Nat)
  | [] => some []
  | a :: b :: rest => (units16? order rest).map (unitOf order [a, b] :: ·)
  | [_] => none

/-- The four-byte units of some bytes, if they come out even. -/
def units32? (order : ByteOrder) : Bytes → Option (List Nat)
  | [] => some []
  | a :: b :: c :: d :: rest => (units32? order rest).map (unitOf order [a, b, c, d] :: ·)
  | _ => none

def charOf? (code : Nat) : Option Char :=
  if code.isValidChar then some (Char.ofNat code) else none

def ofUnits16? : List Nat → Option (List Char)
  | [] => some []
  | unit :: rest =>
      if 0xD800 ≤ unit ∧ unit < 0xDC00 then
        match rest with
        | low :: rest =>
            if 0xDC00 ≤ low ∧ low < 0xE000 then do
              let c ← charOf? (0x10000 + 0x400 * (unit - 0xD800) + (low - 0xDC00))
              (ofUnits16? rest).map (c :: ·)
            else none
        | [] => none
      else do
        let c ← charOf? unit
        (ofUnits16? rest).map (c :: ·)

def ofUtf16? (order : ByteOrder) (bytes : Bytes) : Option String := do
  let chars ← ofUnits16? (← units16? order bytes)
  return String.ofList chars

def ofUtf32? (order : ByteOrder) (bytes : Bytes) : Option String := do
  let chars ← (← units32? order bytes).mapM charOf?
  return String.ofList chars

/-- The text of JSON in bytes, whose encoding shows in the first bytes: by a
mark, or by where zeros stand. -/
def ofJsonBytes? (bytes : Bytes) : Option String :=
  match bytes with
  | 0x00 :: 0x00 :: 0xFE :: 0xFF :: rest => ofUtf32? .big rest
  | 0xFF :: 0xFE :: 0x00 :: 0x00 :: rest => ofUtf32? .little rest
  | 0xFE :: 0xFF :: rest => ofUtf16? .big rest
  | 0xFF :: 0xFE :: rest => ofUtf16? .little rest
  | 0xEF :: 0xBB :: 0xBF :: rest => ofUtf8? rest
  | [a, b] =>
      if a == 0 then ofUtf16? .big bytes
      else if b == 0 then ofUtf16? .little bytes
      else ofUtf8? bytes
  | a :: b :: c :: d :: _ =>
      if a == 0 then if b == 0 then ofUtf32? .big bytes else ofUtf16? .big bytes
      else if b == 0 then
        if c == 0 && d == 0 then ofUtf32? .little bytes else ofUtf16? .little bytes
      else ofUtf8? bytes
  | _ => ofUtf8? bytes

end OneShot.Text
