import OneShot.CommandLine.Session
import OneShot.Settings.Storage
import OneShot.Store.Snapshot
import Std.Time.DateTime.Timestamp

/-!
# The program

The outer layer of the command line: it gathers the variables and the files
that a session may need, lets the session run, prints what it prints and keeps
the tables.  Servers cannot be reached from here, and no controller is run.
-/

namespace OneShot.Program

open OneShot.CommandLine
open OneShot.Files

def variableNames : List String :=
  ["HOME", "XDG_DATA_HOME", "CNAT_DATA_DIR", "DATABASE_URI", "CNAT_CREDENTIALS",
   "CNAT_WORKERS", "CNAT_BACKOFF_BASE_SECONDS", "CNAT_BACKOFF_MAX_SECONDS",
   "CNAT_TASK_MAX_ATTEMPTS", "CNAT_RECONCILE_TIMEOUT_SECONDS",
   "CNAT_CONFLICT_REQUEUE_SECONDS", "CNAT_MAX_RETRIES", "CNAT_RESYNC_SECONDS"]

def environment : IO Environment := do
  let found ← variableNames.mapM fun name => do
    return (← IO.getEnv name).map (name, ·)
  return found.filterMap id

/-- The files with the one at a path, if it can be read. -/
def withFile (files : Tree) (folder path : Path) : IO Tree := do
  try
    let content ← IO.FS.readBinFile (folder.below path).text
    return files.addFile (Path.resolve folder path).names content.toList
  catch _ => return files

/-- The tables kept in a folder; none are kept yet if there is nothing to read. -/
def load (file : String) : IO Store := do
  try
    return (Snapshot.read? (← IO.FS.readFile file)).getD {}
  catch _ => return {}

def now : IO Calendar.DateTime := do
  let stamp ← Std.Time.Timestamp.now
  let micros := stamp.toNanosecondsSinceUnixEpoch.val / 1000
  return Calendar.DateTime.ofInstant (Calendar.Stamp.epoch + micros)

/-- The ways to a store: the tables at hand, if there is a place for them. -/
def gateway (hasPlace : Bool) (moment : Calendar.DateTime) : Gateway Store where
  openLocal tables :=
    if hasPlace then
      (some
        { client := fun call _ tables =>
            let effect := tables.serve moment call
            (effect.answer, effect.store)
          home := ObjectKey.defaultNamespace
          isLocal := true }, tables)
    else (none, tables)
  openServer _ := none
  now _ := moment

/-- Run a session, and keep the tables if it has changed them. -/
def run (line : List String) : IO UInt32 := do
  let folder := Path.ofText (← IO.currentDir).toString
  let bare : Surroundings := { env := ← environment, folder }
  let named :=
    match Invocation.read line with
    | .ok invocation => ((ApiServer.namedPath bare invocation.credentials).toOption).join
    | .error _ => none
  let files ← named.elim (pure bare.files) (withFile bare.files folder)
  let surroundings := { bare with files }
  let place : Option Path :=
    match Storage.place? surroundings none with
    | some (.folder path) => some path
    | _ => none
  let file := place.map fun path => path.text ++ "/cnat.json"
  let tables ← file.elim (pure {}) load
  let (outcome, after) := session (gateway place.isSome (← now)) surroundings line tables
  if let (some path, some file) := (place, file) then
    if after ≠ tables then
      IO.FS.createDirAll path.text
      IO.FS.writeFile file (Snapshot.write after)
  IO.print outcome.output
  return UInt32.ofNat outcome.ending.status

end OneShot.Program

def main (args : List String) : IO UInt32 :=
  OneShot.Program.run args
