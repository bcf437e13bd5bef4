import OneShot.Decimal.Read
import OneShot.Resource.Derived
import OneShot.Runner.Run

/-!
# Programs at hand

A small machine that knows a few programs: the two that only succeed or fail,
`echo`, `test`, and a shell that runs a line of plain words.  A program that it
does not know is not there, and a directory is no program.
-/

namespace OneShot.Programs

open OneShot.Run (ProcessEnd)

/-- A program that ends with a code and says nothing. -/
def silent (code : Int) : ProcessEnd :=
  .exited code (some "")

/-- A program that fails with a code and a line of error output. -/
def complaint (code : Int) (line : String) : ProcessEnd :=
  .exited code (some (line ++ "\n"))

def absent (program : String) : ProcessEnd :=
  .notStarted ("[Errno 2] No such file or directory: " ++ Text.quoted program)

def directory (program : String) : ProcessEnd :=
  .notStarted ("[Errno 13] Permission denied: " ++ Text.quoted program)

def verdict (holds : Bool) : ProcessEnd :=
  silent (if holds then 0 else 1)

/-- Whether some arguments of `test` hold; none if they are no condition. -/
def condition? : List String → Option Bool
  | [] => some false
  | [word] => some (!word.isEmpty)
  | ["!", word] => some word.isEmpty
  | ["-z", word] => some word.isEmpty
  | ["-n", word] => some (!word.isEmpty)
  | [first, "=", second] => some (first == second)
  | [first, "!=", second] => some (first != second)
  | _ => none

/-- The name of a program without the directories that hold programs. -/
def baseName (program : String) : String :=
  match ["/bin/", "/usr/bin/"].find? fun home => home.isPrefixOf program with
  | some home => String.ofList (program.toList.drop home.length)
  | none => program

def isDirectory (path : String) : Bool :=
  ["", ".", "..", "./", "../", "/", "/tmp", "/tmp/", "/bin", "/bin/", "/usr", "/usr/", "/usr/bin",
    "/usr/bin/", "/etc", "/etc/", "/home", "/root", "/var", "/dev", "/proc"].contains path

/-- The words of a line, apart by blanks. -/
def words (line : String) : List String :=
  ((Text.piecesAt ' ' (line.toList.map fun c => if c == '\t' || c == '\n' then ' ' else c)).filter
    (!·.isEmpty)).map String.ofList

def plain? (program : String) (arguments : List String) : Option ProcessEnd :=
  match program with
  | "true" => some (silent 0)
  | "false" => some (silent 1)
  | "echo" | "printf" => some (silent 0)
  | "test" => some ((condition? arguments).elim (silent 2) verdict)
  | "sleep" => some (silent 0)
  | _ => none

/-- Run a line of plain words in the shell. -/
def shellLine (line : String) : ProcessEnd :=
  match words line with
  | [] | ":" :: _ => silent 0
  | "exit" :: rest =>
      silent ((rest.head?.bind Decimal.readInteger?).elim 0 (· % 256))
  | program :: arguments =>
      match plain? program arguments with
      | some ended => ended
      | none => complaint 127 ("sh: 1: " ++ program ++ ": not found")

def launch : List String → ProcessEnd
  | [] => .crashed (.other .emptyCommand)
  | program :: arguments =>
      if (program :: arguments).any (·.toList.contains '\x00') then
        .crashed (.other (.value "embedded null byte"))
      else if isDirectory program then directory program
      else
        match baseName program, arguments with
        | "sh", "-c" :: line :: _ => shellLine line
        | "sh", "-c" :: [] => complaint 2 "sh: 0: -c requires an argument"
        | "sh", [] => silent 0
        | name, _ => (plain? name arguments).getD (absent program)

end OneShot.Programs
