import OneShot.Text.Digit

/-!
# Paths

A path is a root, or none, and a list of names.  Repeated slashes and the name
`.` mean nothing; the name `..` is kept until a path is resolved, because what
it leads to depends on the folders that are there.
-/

namespace OneShot.Files

/-- A path; the root is empty, one slash or two. -/
structure Path where
  root : String
  names : List String
  deriving Repr, DecidableEq

namespace Path

/-- The names between the slashes of a text. -/
def namesOf (text : List Char) : List String :=
  (text.splitBy fun first second => first != '/' && second != '/').filterMap fun chars =>
    if chars == ['/'] || chars == ['.'] then none else some (String.ofList chars)

/-- The root of a text; only two slashes at its beginning stay two. -/
def rootOf : List Char → String
  | '/' :: '/' :: '/' :: _ => "/"
  | '/' :: '/' :: _ => "//"
  | '/' :: _ => "/"
  | _ => ""

def ofText (text : String) : Path :=
  ⟨rootOf text.toList, namesOf text.toList⟩

/-- A path as text; the empty path is the folder one is in. -/
def text (path : Path) : String :=
  let shown := path.root ++ "/".intercalate path.names
  if shown.isEmpty then "." else shown

def isAbsolute (path : Path) : Bool :=
  !path.root.isEmpty

def below (folder path : Path) : Path :=
  if path.isAbsolute then path else ⟨folder.root, folder.names ++ path.names⟩

/-- A home folder without slashes at its end; nothing else is the root. -/
def homeText (home : String) : String :=
  let kept := (home.toList.reverse.dropWhile (· == '/')).reverse
  if kept.isEmpty then "/" else String.ofList kept

/-- A path in which the name `~` at the beginning is the home folder.  The
folders of other people are not known. -/
def expandHome? (home : String) (path : Path) : Option Path :=
  match path.isAbsolute, path.names with
  | false, first :: rest =>
      if first == "~" then
        let folder := homeText home
        if folder.startsWith "~" then none
        else some ⟨(ofText folder).root, (ofText folder).names ++ rest⟩
      else if first.startsWith "~" then none
      else some path
  | _, _ => some path

/-- The names that remain when each `..` takes away the name before it. -/
def withoutParents (names : List String) : List String :=
  names.foldl (fun kept name => if name == ".." then kept.dropLast else kept ++ [name]) []

/-- A path from the root, seen from a folder, without any `..`. -/
def resolve (folder path : Path) : Path :=
  ⟨"/", withoutParents (folder.below path).names⟩

end Path

end OneShot.Files
