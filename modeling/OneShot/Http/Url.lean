import OneShot.Assoc
import OneShot.Text.Digit
import OneShot.Text.Encoding
import OneShot.Text.Pieces
import OneShot.Text.Quoted

/-!
# Addresses

An address is given as a reference, absolute or below a base.  Characters that
may not stand in it are escaped as UTF-8 behind percent signs, escapes that are
there already are kept, and the segments `.` and `..` are resolved.
-/

namespace OneShot.Http

open OneShot.Text

/-! ## Escapes -/

def byteEscape (byte : UInt8) : List Char :=
  '%' :: (hexDigits 2 byte.toNat).map Char.toUpper

def escapeChar (c : Char) : List Char :=
  (utf8Bytes (String.singleton c)).flatMap byteEscape

def isEscaped (c : Char) : Bool :=
  c.toNat ≤ 0x20 || 0x7F ≤ c.toNat || "\"<>".toList.contains c || c == '#'

/-- The characters that are escaped in a path. -/
def isPathEscaped (c : Char) : Bool :=
  isEscaped c || "?`\x7b\x7d".toList.contains c

def escape (escaped : Char → Bool) (chars : List Char) : List Char :=
  chars.flatMap fun c => if escaped c then escapeChar c else [c]

/-- The bytes that a path stands for; broken escapes stand for themselves. -/
def unescaped : List Char → Bytes
  | [] => []
  | [c] => utf8Bytes (String.singleton c)
  | [c, d] => utf8Bytes (String.singleton c) ++ utf8Bytes (String.singleton d)
  | c :: high :: low :: rest =>
      match c == '%', hexValue? high, hexValue? low with
      | true, some h, some l => UInt8.ofNat (16 * h + l) :: unescaped rest
      | _, _, _ => utf8Bytes (String.singleton c) ++ unescaped (high :: low :: rest)

/-! ## Segments -/

/-- Drop `.`, and `..` with the segment before it. -/
def resolved (pieces : List (List Char)) : List (List Char) :=
  (pieces.foldl
    (fun (kept : List (List Char)) piece =>
      if piece == ['.'] then kept
      else if piece == ['.', '.'] then
        if kept.isEmpty || kept == [[]] then kept else kept.drop 1
      else piece :: kept)
    []).reverse

def resolvePath (path : List Char) : List Char :=
  ['/'].intercalate (resolved (piecesAt '/' path))

/-! ## References -/

/-- A reference as it is given. -/
structure Reference where
  scheme : List Char := []
  authority : Option (List Char) := none
  path : List Char
  query : Option (List Char) := none

/-- An address that requests can be sent to. -/
structure Url where
  scheme : String
  /-- The host, with its port unless it is the usual one. -/
  host : String
  path : List Char
  query : Option (List Char) := none

/-- The number of characters that a reference, a path or a query has at most. -/
def longestReference : Nat := 65536

/-- Whether a character may stand in the name of a scheme. -/
def isSchemeChar (c : Char) : Bool :=
  c.isAlphanum || c == '+' || c == '.' || c == '-'

/-- The scheme before a colon, and what follows it. -/
def splitScheme (chars : List Char) : List Char × List Char :=
  let name := chars.takeWhile isSchemeChar
  match chars.dropWhile isSchemeChar with
  | ':' :: rest => if name.head?.all Char.isAlpha then (name, rest) else ([], chars)
  | _ => ([], chars)

def endsAuthority (c : Char) : Bool :=
  c == '/' || c == '?' || c == '#'

/-- The authority after two slashes, and what follows it. -/
def splitAuthority : List Char → Option (List Char) × List Char
  | '/' :: '/' :: rest =>
      (some (rest.takeWhile (!endsAuthority ·)), rest.dropWhile (!endsAuthority ·))
  | chars => (none, chars)

/-- The characters after a question mark, if one stands at the front. -/
def queryOf : List Char → Option (List Char)
  | '?' :: rest => some (rest.takeWhile (· != '#'))
  | _ => none

/-- Read a reference.  Control characters may not stand in one, and what
follows `#` is left out. -/
def Reference.read? (text : String) : Option Reference :=
  let chars := text.toList
  if chars.any (fun c => c.toNat < 0x20 || c.toNat == 0x7F) || longestReference < chars.length then
    none
  else
    let (scheme, rest) := splitScheme chars
    let (authority, rest) := splitAuthority rest
    let path := rest.takeWhile fun c => c != '?' && c != '#'
    let query := queryOf (rest.dropWhile fun c => c != '?' && c != '#')
    some ⟨scheme, authority, path, query⟩

def joinQuery (path : List Char) : Option (List Char) → List Char
  | none => path
  | some query => path ++ '?' :: query

def Reference.target (reference : Reference) : List Char :=
  let path := escape isPathEscaped reference.path
  joinQuery (if path.isEmpty then ['/'] else path)
    (reference.query.map (escape isEscaped))

/-! ## Hosts -/

def usualPort (scheme : String) : Option Nat :=
  Assoc.get? [("http", 80), ("https", 443), ("ftp", 21), ("ws", 80), ("wss", 443)] scheme

def withoutUser (authority : List Char) : List Char :=
  (authority.reverse.takeWhile (· != '@')).reverse

/-- The host and the port of an authority. -/
def splitPort (authority : List Char) : List Char × List Char :=
  match authority with
  | '[' :: rest =>
      let name := rest.takeWhile (· != ']')
      ('[' :: (name ++ [']']), (rest.drop (name.length + 1)).drop 1)
  | _ => (authority.takeWhile (· != ':'), (authority.dropWhile (· != ':')).drop 1)

/-- The host of an authority in lower case, with its port unless it is the
usual one; none if the port is no number. -/
def hostOf? (scheme : String) (authority : List Char) : Option String :=
  let (name, port) := splitPort (withoutUser authority)
  let host := String.ofList (name.map Char.toLower)
  if port.isEmpty then some host
  else
    (port.mapM asciiDigit?).map fun digits =>
      let number := numberOfDigits digits
      if usualPort scheme == some number then host else host ++ ":" ++ natText number

/-! ## Addresses -/

/-- The address with a given target.  Segments are resolved unless the address
has neither scheme nor host. -/
def Url.ofTarget (scheme host : String) (target : List Char) : Url :=
  let path := target.takeWhile (· != '?')
  let placed := if scheme.isEmpty && host.isEmpty then path else resolvePath path
  { scheme
    host
    path := escape isPathEscaped placed
    query := (queryOf (target.dropWhile (· != '?'))).map (escape isEscaped) }

/-- Whether a path begins like a host or a scheme, with nothing before it that
would make it clear. -/
def Reference.isMisleading (reference : Reference) : Bool :=
  reference.scheme.isEmpty && (reference.authority.getD []).isEmpty &&
    (['/', '/'].isPrefixOf reference.path || reference.path.head? == some ':')

/-- The address of a reference by itself; none if its port is no number or its
path is misleading. -/
def Reference.url? (reference : Reference) : Option Url :=
  if reference.isMisleading then none
  else
    let scheme := String.ofList (reference.scheme.map Char.toLower)
    (hostOf? scheme (reference.authority.getD [])).map fun host =>
      .ofTarget scheme host reference.target

def Url.isAbsolute (url : Url) : Bool :=
  !url.scheme.isEmpty && !url.host.isEmpty

def Url.target (url : Url) : String :=
  String.ofList (joinQuery (if url.path.isEmpty then ['/'] else url.path) url.query)

/-- The path of an address without its escapes. -/
def Url.decodedPath (url : Url) : String :=
  ofUtf8Lossy (unescaped (if url.path.isEmpty then ['/'] else url.path))

/-- The target of a base, with a slash at its end. -/
def Url.baseTarget (url : Url) : List Char :=
  let target := url.target.toList
  if target.getLast? == some '/' then target else target ++ ['/']

def Url.read? (text : String) : Option Url :=
  (Reference.read? text).bind Reference.url?

/-- Whether neither the path nor the query of a target is too long. -/
def targetFits (target : List Char) : Bool :=
  (target.takeWhile (· != '?')).length ≤ longestReference &&
    (queryOf (target.dropWhile (· != '?'))).all (·.length ≤ longestReference)

/-- The target of a reference below a base. -/
def Url.targetBelow (base : Url) (reference : Reference) : List Char :=
  base.baseTarget ++ reference.target.dropWhile (· == '/')

/-- The address of a reference below a base, none if its target is too long; an
absolute one stands by itself. -/
def Url.resolve? (base : Url) (text : String) : Option Url := do
  let reference ← Reference.read? text
  let url ← reference.url?
  if url.isAbsolute then some url
  else
    let target := base.targetBelow reference
    if targetFits target then some (.ofTarget base.scheme base.host target) else none

end OneShot.Http
