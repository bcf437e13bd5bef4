import OneShot.Files.Tree
import OneShot.Settings.Environment

/-!
# Where data are kept

The folder for data is named by a variable, or lies in the usual place of the
person who runs the program.  The database is a file in it unless its address
is given.
-/

namespace OneShot.Storage

open OneShot.Files

/-- The name of the folder below the usual place. -/
def folderName : String := "cnat"

/-- The name of the file of the database. -/
def fileName : String := "cnat.db"

/-- A path from the root, seen from where the program runs. -/
def resolved? (surroundings : Surroundings) (path : Path) : Option Path :=
  (path.expandHome? surroundings.home).map (Path.resolve surroundings.folder)

def usualFolder? (surroundings : Surroundings) : Option Path :=
  let env : Environment := surroundings.env
  let base :=
    match env.filled? "XDG_DATA_HOME" with
    | some text => some (Path.ofText text)
    | none => (Path.ofText "~/.local/share").expandHome? surroundings.home
  base.bind fun base => resolved? surroundings (base.below ⟨"", [folderName]⟩)

def folder? (surroundings : Surroundings) : Option Path :=
  let env : Environment := surroundings.env
  match env.filled? "CNAT_DATA_DIR" with
  | some text => resolved? surroundings (Path.ofText text)
  | none => usualFolder? surroundings

/-- The file of the database in a folder. -/
def file (folder : Path) : Path :=
  folder.below ⟨"", [fileName]⟩

def fileAddress (path : Path) : String :=
  "sqlite+pysqlite:///" ++ path.text

/-- Where the database is. -/
inductive Place where
  /-- At an address that was given. -/
  | address (uri : String)
  /-- In a file of a folder, which is made if it is not there. -/
  | folder (path : Path)
  deriving Repr, DecidableEq

/-- Where the database is; a folder that is given wins over the usual one. -/
def place? (surroundings : Surroundings) (given : Option Path) : Option Place :=
  let env : Environment := surroundings.env
  match env.filled? "DATABASE_URI" with
  | some uri => some (.address uri)
  | none =>
      match given with
      | some path => (resolved? surroundings path).map .folder
      | none => (folder? surroundings).map .folder

/-- The address of the database at a place. -/
def Place.uri : Place → String
  | address uri => uri
  | folder path => fileAddress (file path)

/-- The files once the folder of a place is made. -/
def Place.prepare (place : Place) (files : Tree) : Tree :=
  match place with
  | address _ => files
  | folder path => files.addFolders path.names

end OneShot.Storage
