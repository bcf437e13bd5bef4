import OneShot.Files.Tree
import OneShot.Toml.Reader
import OneShot.Text.Quoted

/-!
# Where the scripts of the schema are

A project file may say where the scripts are that bring a database up to date,
and with which options they are run.  The scripts that come with the program
are used where it does not say so, and where there is nothing at the place.
Names of options do not distinguish case.

A percent sign in an option must be doubled, or begin a reference to another
option, which is replaced by its value when the option is looked up.
-/

namespace OneShot.SchemaScripts

open OneShot.Files
open OneShot.Text

/-- Where the scripts are. -/
inductive Location where
  /-- They come with the program. -/
  | bundled
  | folder (path : Path)
  deriving Repr, DecidableEq

/-- Why a project file cannot be used. -/
inductive Trouble where
  | notToml
  /-- A whole number with too many digits. -/
  | longInteger (digits : Nat)
  /-- Values that are nested deeper than can be read. -/
  | tooNested
  /-- A table was expected. -/
  | notTable
  /-- A percent sign that means nothing, and where it stands. -/
  | strayPercent (value : String) (position : Nat)
  /-- A reference to an option that is not there. -/
  | unknownReference
  /-- References that go too deep. -/
  | tooDeep
  deriving Repr, DecidableEq

/-- The wording of a trouble, if it has one. -/
def Trouble.message? : Trouble → Option String
  | longInteger digits => some (Decimal.tooLongMessage digits)
  | strayPercent value position =>
      some ("invalid interpolation syntax in " ++ quoted value ++ " at position " ++
        natText position)
  | _ => none

/-- How the scripts are run. -/
structure Settings where
  location : Location
  /-- The options that the project file states. -/
  stated : List (String × String)
  /-- The options that are set, by their names in lower case. -/
  set : List (String × String)

/-- The options that are about finding the scripts and not for running them. -/
def reserved : List String := ["script_location", "prepend_sys_path"]

def statedIn (document : Toml) : Except Trouble (List (String × String)) := do
  let tool := (document.get? "tool").getD (.table [])
  let some _ := tool.members? | .error .notTable
  let entries := (tool.get? "alembic").getD (.table [])
  let some members := entries.members? | .error .notTable
  return members.map fun member => (member.1, member.2.shown)

/-- Where the scripts are that an option names, seen from the folder of the project. -/
def locate (files : Tree) (project : Path) : Option String → Location
  | none => .bundled
  | some text =>
      let path := project.below (Path.ofText text)
      if (files.find? path).isSome then .folder path else .bundled

/-! ## References -/

/-- A reference to an option at the head of some characters, and what follows. -/
def reference? (chars : List Char) : Option (String × List Char) :=
  match chars with
  | '%' :: '(' :: rest =>
      let name := rest.takeWhile (· != ')')
      match rest.dropWhile (· != ')') with
      | ')' :: 's' :: tail => if name.isEmpty then none else some (String.ofList name, tail)
      | _ => none
  | _ => none

/-- What is left of a value without doubled percent signs and references. -/
def plainPart : (fuel : Nat) → List Char → List Char
  | 0, chars => chars
  | _ + 1, [] => []
  | fuel + 1, c :: rest =>
      match reference? (c :: rest) with
      | some (_, tail) => plainPart fuel tail
      | none => c :: plainPart fuel rest

def withoutDoubled : List Char → List Char
  | '%' :: '%' :: rest => withoutDoubled rest
  | c :: rest => c :: withoutDoubled rest
  | [] => []

/-- Refuse a value with a percent sign that means nothing. -/
def checkPercent (value : String) : Except Trouble Unit :=
  let plain := plainPart (value.length + 1) (withoutDoubled value.toList)
  match plain.findIdx? (· == '%') with
  | some position => .error (.strayPercent value position)
  | none => .ok ()

def expand (options : List (String × String)) :
    (depth fuel : Nat) → List Char → Except Trouble (List Char)
  | 0, _, _ => .error .tooDeep
  | _, 0, _ => .ok []
  | _, _ + 1, [] => .ok []
  | depth + 1, fuel + 1, '%' :: '%' :: rest =>
      (expand options (depth + 1) fuel rest).map ('%' :: ·)
  | depth + 1, fuel + 1, c :: rest =>
      match reference? (c :: rest) with
      | none => (expand options (depth + 1) fuel rest).map (c :: ·)
      | some (name, tail) =>
          match Assoc.get? options (String.ofList (name.toList.map Char.toLower)) with
          | none => .error .unknownReference
          | some value => do
              let inner ← expand options depth (value.length + 1) value.toList
              let outer ← expand options (depth + 1) fuel tail
              return inner ++ outer

/-! ## Settings -/

def put (options : List (String × String)) (name value : String) :
    Except Trouble (List (String × String)) :=
  (checkPercent value).map fun _ =>
    Assoc.put options (String.ofList (name.toList.map Char.toLower)) value

/-- The text of a location, given a name for the scripts that come with the program. -/
def Location.text (bundled : String) : Location → String
  | .bundled => bundled
  | folder path => path.text

/-- The settings that a project file describes; none is there if there is no text. -/
def settings (room : List Char → Nat) (bundled : String) (files : Tree) (project : Path)
    (file : Option String) : Except Trouble Settings := do
  let stated ← match file with
    | none => pure []
    | some text =>
        match Toml.read room text with
        | .error .malformed => .error .notToml
        | .error (.tooLong digits) => .error (.longInteger digits)
        | .error .tooDeep => .error .tooNested
        | .ok document => statedIn document
  let location := locate files project (Assoc.get? stated "script_location")
  let start ← put [("here", "")] "script_location" (location.text bundled)
  let set ← (stated.filter fun option => !reserved.contains option.1).foldlM
    (fun options option => put options option.1 option.2) start
  return { location, stated, set }

def deepest : Nat := 10

/-- The value of an option that is set. -/
def Settings.option? (settings : Settings) (name : String) : Except Trouble (Option String) :=
  match Assoc.get? settings.set (String.ofList (name.toList.map Char.toLower)) with
  | none => .ok none
  | some value =>
      (expand settings.set deepest (value.length + 1) value.toList).map fun chars =>
        some (String.ofList chars)

end OneShot.SchemaScripts
