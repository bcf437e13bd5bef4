import OneShot.Assoc
import OneShot.Files.Path
import OneShot.Text.Encoding

/-!
# Files

The folders and files that a program can see, by the names that lead to them
from the root.  A path is followed name by name: only a folder can be gone
through, and `..` leads back out of one.
-/

namespace OneShot.Files

/-- What stands at a place. -/
inductive Entry where
  | folder
  | file (content : Text.Bytes)
  deriving DecidableEq

/-- Folders and files. -/
structure Tree where
  entries : List (List String × Entry) := []

namespace Tree

/-- What stands at the place of some names; the root is a folder. -/
def entry? (tree : Tree) (names : List String) : Option Entry :=
  if names.isEmpty then some .folder else Assoc.get? tree.entries names

/-- What one comes to by following names from a place. -/
def follow? (tree : Tree) (place : List String) : List String → Option Entry
  | [] => tree.entry? place
  | name :: rest =>
      if tree.entry? place = some .folder then
        tree.follow? (if name == ".." then place.dropLast else place ++ [name]) rest
      else none

/-- What a path from the root leads to. -/
def find? (tree : Tree) (path : Path) : Option Entry :=
  tree.follow? [] path.names

def content? (tree : Tree) (path : Path) : Option Text.Bytes :=
  match tree.find? path with
  | some (.file content) => some content
  | _ => none

/-- The places on the way to a place, and the place itself. -/
def wayTo (names : List String) : List (List String) :=
  (List.range (names.length + 1)).map names.take

/-- Make the folders on the way to a place, where there is nothing yet. -/
def addFolders (tree : Tree) (names : List String) : Tree :=
  (wayTo names).foldl
    (fun tree place =>
      if (tree.entry? place).isSome then tree
      else ⟨Assoc.put tree.entries place .folder⟩)
    tree

/-- Whether folders can be made on the way to a place. -/
def admitsFolders (tree : Tree) (names : List String) : Bool :=
  (wayTo names).all fun place => (tree.entry? place).all (· = .folder)

/-- Write a file, and make the folders to it. -/
def addFile (tree : Tree) (names : List String) (content : Text.Bytes) : Tree :=
  ⟨Assoc.put (tree.addFolders names.dropLast).entries names (.file content)⟩

def below (tree : Tree) (place : List String) : List Path :=
  (tree.entries.filter fun entry => place.isPrefixOf entry.1 && entry.1 ≠ place).map
    fun entry => ⟨"/", entry.1⟩

end Tree

/-- How many calls a reader of files usually has room for, wherever it stands. -/
def usualRoom (_ : List Char) : Nat :=
  990

/-- Where a program runs: its variables, the files, and the folder it is in. -/
structure Surroundings where
  env : List (String × String) := []
  files : Tree := {}
  folder : Path := ⟨"/", []⟩
  /-- How many calls the reader of a file has room for when some characters are left. -/
  room : List Char → Nat := usualRoom

/-- The home folder of who runs the program. -/
def Surroundings.home (surroundings : Surroundings) : String :=
  (Assoc.get? surroundings.env "HOME").getD "/root"

end OneShot.Files
