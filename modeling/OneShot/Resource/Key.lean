import OneShot.Text.Quoted

/-!
# Object keys

A key is a name inside a namespace, written `namespace/name`.  A bare name is
read in a default namespace.
-/

namespace OneShot

open OneShot.Text

/-- The name of an object inside its namespace. -/
structure ObjectKey where
  ns : String
  name : String
  deriving Repr, DecidableEq, Inhabited, Hashable

namespace ObjectKey

def defaultNamespace : String := "default"

def text (key : ObjectKey) : String :=
  key.ns ++ "/" ++ key.name

instance : ToString ObjectKey := ⟨text⟩

/-- Keys are ordered by namespace and then by name, each by code points. -/
def before (first second : ObjectKey) : Bool :=
  first.ns < second.ns ||
    (first.ns == second.ns && first.name < second.name)

/-- A text that is not a key. -/
structure Malformed where
  value : String
  deriving Repr, DecidableEq

def Malformed.message (fault : Malformed) : String :=
  "Invalid object key: " ++ quoted fault.value

/-- The characters before the first slash and after it, if there is one. -/
def splitSlash (chars : List Char) : List Char × Option (List Char) :=
  (chars.takeWhile (· != '/'),
    match chars.dropWhile (· != '/') with
    | [] => none
    | _ :: rest => some rest)

/-- Read a key; a bare name belongs to the default namespace. -/
def parse (value : String) (defaultNamespace : String := ObjectKey.defaultNamespace) :
    Except Malformed ObjectKey :=
  let key : ObjectKey :=
    match splitSlash value.toList with
    | (_, none) => ⟨defaultNamespace, value⟩
    | (space, some name) => ⟨String.ofList space, String.ofList name⟩
  if key.ns.isEmpty || key.name.isEmpty || key.name.toList.contains '/' then
    .error ⟨value⟩
  else .ok key

/-- Put a key into an ascending list, once. -/
def insert (key : ObjectKey) : List ObjectKey → List ObjectKey
  | [] => [key]
  | head :: rest =>
      if key = head then head :: rest
      else if key.before head then key :: head :: rest
      else head :: insert key rest

/-- The distinct keys of a list in ascending order. -/
def sorted (keys : List ObjectKey) : List ObjectKey :=
  keys.foldl (fun built key => insert key built) []

end ObjectKey

end OneShot
