import OneShot.Settings.Environment

/-!
# The level of the log

Levels have names, of which upper and lower case are the same; a name that is
not known counts for the usual level.
-/

namespace OneShot.LogLevel

def named : List (String × Int) :=
  [("CRITICAL", 50), ("FATAL", 50), ("ERROR", 40), ("WARN", 30), ("WARNING", 30),
   ("INFO", 20), ("DEBUG", 10), ("NOTSET", 0)]

def usual : Int := 20

/-- A letter as a capital; the dotless i and the long s are the letters beyond
ASCII whose capitals are ASCII. -/
def capital (c : Char) : Char :=
  if c == '\u0131' then 'I' else if c == '\u017f' then 'S' else c.toUpper

def ofName (name : String) : Int :=
  (Assoc.get? named (String.ofList ((Text.trim name).toList.map capital))).getD usual

/-- The level of the log: the one given, else the one that the environment states. -/
def find (env : Environment) (given : Option Int) : Int :=
  given.getD (((env.value? "CNAT_LOG_LEVEL").map ofName).getD usual)

end OneShot.LogLevel
