import OneShot.ApiServer.Calls
import OneShot.CommandLine.Session
import OneShot.Settings.Storage
import OneShot.Simulation.Server
import OneShot.Simulation.World

/-!
# A terminal

Command lines that are tried in a simulation.  The local store is either that
of a world, where a session is another client of the same database, or one of
several databases that are found by their addresses, each made when it is first
opened.
-/

namespace OneShot.Simulation

open OneShot.CommandLine
open OneShot.Files

/-! ## Servers -/

/-- A state with a server in it. -/
class HasServer (σ : Type) where
  server : σ → Server
  withServer : Server → σ → σ

/-- The link to the server of a state. -/
def serverLink {σ : Type} [HasServer σ] : Http.Link σ where
  exchange request state :=
    let (answer, server) := Server.link.exchange request (HasServer.server state)
    (answer, HasServer.withServer server state)
  pause seconds state :=
    HasServer.withServer (Server.link.pause seconds (HasServer.server state)) state

/-- The backend for a server, if its settings can be used at all. -/
def serverBackend {σ : Type} [HasServer σ] (policy : Http.RetryPolicy)
    (settings : ApiServer.Settings) : Option (Backend σ) :=
  if settings.sendable && (settings.session? policy).isSome then
    some
      { client := ApiServer.client { settings, policy, link := serverLink }
        home := settings.ns
        isLocal := false }
  else none

/-! ## Beside a world -/

/-- A world with a server that its terminal can reach. -/
structure Desk where
  world : World
  server : Server

instance : HasServer Desk where
  server := Desk.server
  withServer server desk := { desk with server }

/-- The store of the world as another program sees it, whose changes are told to nobody here. -/
def Desk.store : Client Desk Float := fun call _ desk =>
  let effect := desk.world.store.serve desk.world.now call
  (effect.answer, { desk with world := { desk.world with store := effect.store } })

/-- The ways to a store beside a world. -/
def Desk.gateway (policy : Http.RetryPolicy) : Gateway Desk where
  openLocal desk :=
    (some { client := Desk.store, home := ObjectKey.defaultNamespace, isLocal := true }, desk)
  openServer := serverBackend policy
  now desk := desk.world.now

/-! ## Databases by address -/

/-- Where a database is. -/
inductive Address where
  /-- Nowhere: it lasts as long as it is open. -/
  | memory
  | file (path : Path)
  deriving DecidableEq

/-- What follows a beginning, if the text begins with it. -/
def afterStart? (start text : String) : Option String :=
  if start.toList.isPrefixOf text.toList then
    some (String.ofList (text.toList.drop start.length))
  else none

def Address.read? (folder : Path) (uri : String) : Option Address :=
  ((afterStart? "sqlite+pysqlite://" uri).or (afterStart? "sqlite://" uri)).bind fun rest =>
    let rest := String.ofList (rest.toList.takeWhile (· != '?'))
    if rest.isEmpty || rest == "/" || rest == "/:memory:" then some .memory
    else
      (afterStart? "/" rest).map fun path =>
        .file (Path.resolve folder (Path.ofText path))

/-- A machine with databases, files and a server. -/
structure Machine where
  clock : VirtualClock
  server : Server
  files : Tree
  stores : List (String × Store) := []
  /-- The tables that are open, and where they are kept. -/
  current : Store := {}
  issued : Nat := 0

namespace Machine

instance : HasServer Machine where
  server := Machine.server
  withServer server machine := { machine with server }

/-- Whether a file can hold a database: it is one, or it is yet to be made, or empty. -/
def canHold (machine : Machine) (path : Path) : Bool :=
  if (Assoc.get? machine.stores path.text).isSome then true
  else
    match machine.files.find? path with
    | some (.file content) => content.isEmpty
    | some .folder => false
    | none => machine.files.find? ⟨"/", path.names.dropLast⟩ = some .folder

/-- The tables at an address as a client. -/
def store (address : Address) : Client Machine Float := fun call _ machine =>
  let effect := machine.current.serve machine.clock.now call
  let machine := { machine with current := effect.store, issued := effect.store.issued }
  (effect.answer,
    match address with
    | .memory => machine
    | .file path =>
        { machine with stores := Assoc.put machine.stores path.text effect.store })

def openAt (machine : Machine) (address : Address) : Option (Backend Machine) × Machine :=
  let backend : Backend Machine :=
    { client := store address, home := ObjectKey.defaultNamespace, isLocal := true }
  match address with
  | .memory => (some backend, { machine with current := { issued := machine.issued } })
  | .file path =>
      if machine.canHold path then
        let tables := (Assoc.get? machine.stores path.text).getD {}
        let stores := Assoc.put machine.stores path.text tables
        (some backend,
          { machine with
            stores
            files := machine.files.addFile path.names []
            current := { tables with issued := machine.issued } })
      else (none, machine)

def openLocal (surroundings : Surroundings) (machine : Machine) :
    Option (Backend Machine) × Machine :=
  match Storage.place? surroundings none with
  | none => (none, machine)
  | some (.address uri) =>
      match Address.read? surroundings.folder uri with
      | some address => machine.openAt address
      | none => (none, machine)
  | some (.folder folder) =>
      if machine.files.admitsFolders folder.names then
        { machine with files := machine.files.addFolders folder.names }.openAt
          (.file (Storage.file folder))
      else (none, machine)

/-- The ways to a store on a machine. -/
def gateway (policy : Http.RetryPolicy) (surroundings : Surroundings) : Gateway Machine where
  openLocal := openLocal surroundings
  openServer := serverBackend policy
  now machine := machine.clock.now

end Machine

end OneShot.Simulation
