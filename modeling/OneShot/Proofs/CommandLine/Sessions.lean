import OneShot.Proofs.CommandLine.Changes
import OneShot.Simulation.Terminal

/-!
# Sessions on the databases of a machine

Without credentials a session works on a database of its machine.  It is opened, and then
every call is made on its tables, while the other databases are left alone.  So a session either
changes the one database as it was asked to, or leaves all databases as they were.
-/

namespace OneShot.Simulation

open CommandLine
open Files

/-! ## Databases -/

/-- The name under which the tables at an address are kept. -/
def Address.name? : Address → Option String
  | memory => none
  | file path => some path.text

/-- The address of the database that a session without credentials works on. -/
def localAddress? (surroundings : Surroundings) : Option Address :=
  (Storage.place? surroundings none).bind fun
    | .address uri => Address.read? surroundings.folder uri
    | .folder folder => some (.file (Storage.file folder))

namespace Machine

/-- The tables that a machine keeps under a name. -/
def tables (machine : Machine) (name : String) : Store :=
  (Assoc.get? machine.stores name).getD {}

/-- The tables that are found at an address. -/
def found (machine : Machine) : Address → Store
  | .memory => {}
  | .file path => machine.tables path.text

/-- The database at an address is open: what becomes of its tables is kept, and the others are as
they were at the start. -/
structure Open (address : Address) (start machine : Machine) : Prop where
  kept : ∀ name, address.name? = some name → machine.current.SameTables (machine.tables name)
  others : ∀ name, address.name? ≠ some name →
    (start.tables name).SameTables (machine.tables name)

variable {start machine after : Machine} {address : Address}

theorem tables_of_stores (hstores : after.stores = machine.stores) (name : String) :
    after.tables name = machine.tables name := by
  unfold tables
  rw [hstores]

theorem tables_of_put {name : String} {store : Store}
    (hstores : after.stores = Assoc.put machine.stores name store) (other : String) :
    after.tables other = if other = name then store else machine.tables other := by
  unfold tables
  rw [hstores, Assoc.get?_put]
  split <;> rfl

/-- Tables that are kept in a file are open there. -/
theorem open_of_put {path : Path} {store : Store}
    (hstores : after.stores = Assoc.put machine.stores path.text store)
    (hcurrent : after.current.SameTables store)
    (hothers : ∀ name, some path.text ≠ some name →
      (start.tables name).SameTables (machine.tables name)) :
    Open (.file path) start after := by
  refine ⟨?_, ?_⟩
  · rintro name ⟨rfl⟩
    rw [tables_of_put hstores, if_pos rfl]
    exact hcurrent
  · intro name hname
    rw [tables_of_put hstores, if_neg fun hsame => hname (congrArg some hsame.symm)]
    exact hothers name hname

theorem store_serves (address : Address) :
    Serves (store address) Machine.current fun machine => machine.clock.now where
  answer _ _ _ := rfl
  tables call patience machine := by cases address <;> rfl

theorem Open.call (hopen : Open address start machine) (call : Call) (patience : Patience Float) :
    Open address start (store address call patience machine).2 := by
  cases address with
  | memory => exact ⟨nofun, hopen.others⟩
  | file path => exact open_of_put rfl (.refl _) hopen.others

/-! ## Opening -/

/-- What opening a database gives: a client of the tables at the address, or nothing. -/
inductive Opening (surroundings : Surroundings) (start : Machine) :
    Option (Backend Machine) × Machine → Prop where
  | opened {address : Address} {machine : Machine}
      (haddress : localAddress? surroundings = some address)
      (hopen : Open address start machine)
      (hfound : (start.found address).SameTables machine.current) :
      Opening surroundings start
        (some { client := store address, home := ObjectKey.defaultNamespace, isLocal := true },
          machine)
  | missed {machine : Machine} (hstores : machine.stores = start.stores)
      (hcurrent : machine.current = start.current) :
      Opening surroundings start (none, machine)

variable {surroundings : Surroundings}

theorem openAt_opening (haddress : localAddress? surroundings = some address)
    (hstores : machine.stores = start.stores) (hcurrent : machine.current = start.current) :
    Opening surroundings start (machine.openAt address) := by
  have hsame : ∀ name, (start.tables name).SameTables (machine.tables name) := by
    intro name
    rw [tables_of_stores hstores]
    exact .refl _
  cases address with
  | memory => exact .opened haddress ⟨nofun, fun name _ => hsame name⟩ ⟨rfl, rfl⟩
  | file path =>
      simp only [openAt]
      split
      next =>
        refine .opened haddress (open_of_put rfl ⟨rfl, rfl⟩ fun name _ => hsame name) ?_
        have hfound := hsame path.text
        exact ⟨hfound.ats, hfound.tasks⟩
      next => exact .missed hstores hcurrent

theorem openLocal_opening (surroundings : Surroundings) (machine : Machine) :
    Opening surroundings machine (openLocal surroundings machine) := by
  unfold openLocal
  split
  next => exact .missed rfl rfl
  next uri hplace =>
    split
    next address hread =>
      exact openAt_opening (by rw [localAddress?, hplace]; exact hread) rfl rfl
    next => exact .missed rfl rfl
  next folder hplace =>
    split
    next => exact openAt_opening (by rw [localAddress?, hplace]; rfl) rfl rfl
    next => exact .missed rfl rfl

end Machine

/-! ## Sessions -/

/-- Where there is no file of credentials there are no settings for a server. -/
theorem find_of_unnamed {surroundings : Surroundings} {credentials : Option String}
    (hunnamed : ApiServer.namedPath surroundings credentials = .ok none) :
    ApiServer.Settings.find surroundings credentials = .ok none := by
  unfold ApiServer.Settings.find ApiServer.credentialsPath
  rw [hunnamed]
  rfl

namespace Machine

/-- A session can change the database at an address as a command asks. -/
def Feasible (surroundings : Surroundings) (machine : Machine) (command : Command)
    (address : Address) : Prop :=
  localAddress? surroundings = some address ∧ (openLocal surroundings machine).1.isSome = true ∧
    command.Possible ObjectKey.defaultNamespace (machine.found address)

/-- Nothing has happened to the databases of a machine: all that are kept are as they were, and
what is open is what was open, or was found at the address of a session. -/
structure Untouched (surroundings : Surroundings) (start machine : Machine) : Prop where
  kept : ∀ name, (start.tables name).SameTables (machine.tables name)
  opened : machine.current = start.current ∨ ∃ address,
    localAddress? surroundings = some address ∧
      (start.found address).SameTables machine.current

theorem Open.untouched {surroundings : Surroundings} {address : Address} {start machine : Machine}
    (hopen : Open address start machine) (haddress : localAddress? surroundings = some address)
    (hsame : (start.found address).SameTables machine.current) :
    Untouched surroundings start machine := by
  refine ⟨fun name => ?_, Or.inr ⟨address, haddress, hsame⟩⟩
  by_cases hname : address.name? = some name
  · cases address with
    | memory => cases hname
    | file path =>
        cases hname
        exact hsame.trans (hopen.kept path.text rfl)
  · exact hopen.others name hname

/-- How a session without credentials ends, and with which databases. -/
inductive SessionEnds (surroundings : Surroundings) (start : Machine) (command : Command) :
    Outcome × Machine → Prop where
  | misused (hfaulty : command.Faulty) :
      SessionEnds surroundings start command ({ ending := .misuse }, start)
  | failed {machine : Machine} (hmeant : ¬ command.Faulty)
      (hinfeasible : ∀ address, ¬ start.Feasible surroundings command address)
      (huntouched : Untouched surroundings start machine) :
      SessionEnds surroundings start command (failed, machine)
  | done {machine : Machine} {address : Address} {confirmation : String}
      (hmeant : ¬ command.Faulty) (hfeasible : start.Feasible surroundings command address)
      (hconfirmation : command.confirmation? = some confirmation)
      (hasks : command.Asks ObjectKey.defaultNamespace (start.found address) machine.current)
      (hopen : Open address start machine) :
      SessionEnds surroundings start command
        ({ ending := .success, output := confirmation }, machine)

/-- A session that is to change something does it, and says so, or it changes nothing and prints
nothing. -/
structure AllOrNothing (surroundings : Surroundings) (start : Machine) (command : Command)
    (confirmation : String) (outcome : Outcome) (after : Machine) : Prop where
  ends :
    (outcome.ending.status = 0 ∧ outcome.output = confirmation ∧
        ∃ address, localAddress? surroundings = some address ∧
          command.Asks ObjectKey.defaultNamespace (start.found address) after.current ∧
          Open address start after) ∨
      (outcome.ending.status ≠ 0 ∧ outcome.output = "" ∧ Untouched surroundings start after)
  /-- A schedule is malformed, or an edit names nothing. -/
  misuse : outcome.ending.status = 2 ↔ command.Faulty
  failure : outcome.ending.status = 1 ↔ outcome.ending.status ≠ 0 ∧ ¬ command.Faulty
  /-- The database can be opened, and it admits the change. -/
  success : outcome.ending.status = 0 ↔
    ¬ command.Faulty ∧ ∃ address, start.Feasible surroundings command address

section Lines

variable (policy : Http.RetryPolicy) {surroundings : Surroundings} {line : List String}
  {invocation : Invocation} {confirmation : String} {machine : Machine}

theorem session_of_faulty (hline : Invocation.read line = .ok invocation)
    (hchanges : invocation.command.confirmation? = some confirmation)
    (hfaulty : invocation.command.Faulty) :
    session (gateway policy surroundings) surroundings line machine =
      ({ ending := .misuse }, machine) := by
  cases hcheck : invocation.command.check with
  | ok value => exact absurd hfaulty ((Command.check_eq_ok_iff hchanges).mp hcheck)
  | error refusal =>
      have hread : Plan.read surroundings.env line = .error refusal := by
        rw [Plan.read, hline]
        simp only [Except.mapError, bind, Except.bind, hcheck]
      rw [session, hread]
      simp only [Command.ending_of_check hchanges hcheck]

theorem session_of_meant (hline : Invocation.read line = .ok invocation)
    (hchanges : invocation.command.confirmation? = some confirmation)
    (hunnamed : ApiServer.namedPath surroundings invocation.credentials = .ok none)
    (hmeant : ¬ invocation.command.Faulty) :
    session (gateway policy surroundings) surroundings line machine =
      match openLocal surroundings machine with
      | (some backend, opened) =>
          perform backend opened.clock.now invocation.command opened
      | (none, opened) => (failed, opened) := by
  have hsettings : invocation.command.settings surroundings.env = .ok none := by
    cases hcommand : invocation.command with
    | run workers resync =>
        rw [hcommand] at hchanges
        cases hchanges
    | list | create | edit | delete => rfl
  have hread : Plan.read surroundings.env line = .ok { invocation, settings := none } := by
    rw [Plan.read, hline]
    simp only [Except.mapError, bind, Except.bind, pure, Except.pure,
      (Command.check_eq_ok_iff hchanges).mpr hmeant, hsettings]
  rw [session, hread]
  simp only [carryOut, openStore, find_of_unnamed hunnamed, gateway]
  rcases openLocal surroundings machine with ⟨_ | backend, opened⟩ <;> rfl

/-- The rows that are found at an address are told apart as those that are kept are. -/
theorem distinct_found (hstores : ∀ name, (machine.tables name).Distinct) (address : Address) :
    (machine.found address).Distinct := by
  cases address with
  | memory => exact ⟨List.nodup_nil, List.nodup_nil⟩
  | file path => exact hstores path.text

theorem perform_on_opened {opened : Machine} {address : Address} {backend : Backend Machine}
    (hclient : backend.client = store address) (hhome : backend.home = ObjectKey.defaultNamespace)
    (haddress : localAddress? surroundings = some address)
    (hopened : openLocal surroundings machine = (some backend, opened))
    (hopen : Open address machine opened)
    (hfound : (machine.found address).SameTables opened.current)
    (hdistinct : (machine.found address).Distinct)
    {command : Command} (hchanges : command.confirmation? = some confirmation)
    (hmeant : ¬ command.Faulty) (now : Calendar.DateTime) :
    SessionEnds surroundings machine command (perform backend now command opened) := by
  have hserves := store_serves address
  rw [← hclient] at hserves
  have hends := perform_ends hserves (hdistinct.of_same hfound) hchanges hmeant now
  have hkept : Open address machine (perform backend now command opened).2 := by
    refine perform_keeps (P := Open address machine) (fun call patience state hstate => ?_) now
      hopen
    rw [hclient]
    exact hstate.call call patience
  rw [hhome] at hends
  generalize perform backend now command opened = result at hends hkept ⊢
  obtain ⟨outcome, last⟩ := result
  cases hends with
  | done hconfirmation hpossible hasks =>
      refine .done hmeant ⟨haddress, ?_, (Command.possible_congr hfound).mp hpossible⟩
        hconfirmation (hasks.of_same hfound) hkept
      rw [hopened]
      rfl
  | failed himpossible hsame =>
      -- A session has one address only, at which the change is not possible.
      refine .failed hmeant ?_ (hkept.untouched haddress (hfound.trans hsame))
      rintro other ⟨hother, -, hpossible⟩
      cases hother.symm.trans haddress
      exact himpossible ((Command.possible_congr hfound).mpr hpossible)

/-- A session without credentials changes the database as it is asked to, or nothing. -/
theorem session_ends (hline : Invocation.read line = .ok invocation)
    (hchanges : invocation.command.confirmation? = some confirmation)
    (hunnamed : ApiServer.namedPath surroundings invocation.credentials = .ok none)
    (hstores : ∀ name, (machine.tables name).Distinct) :
    SessionEnds surroundings machine invocation.command
      (session (gateway policy surroundings) surroundings line machine) := by
  by_cases hfaulty : invocation.command.Faulty
  · rw [session_of_faulty policy hline hchanges hfaulty]
    exact .misused hfaulty
  · rw [session_of_meant policy hline hchanges hunnamed hfaulty]
    have hopening := openLocal_opening surroundings machine
    generalize hopened : openLocal surroundings machine = result at hopening ⊢
    cases hopening with
    | missed hkept hcurrent =>
        refine .failed hfaulty ?_ ⟨fun name => ?_, Or.inl hcurrent⟩
        · rintro address ⟨-, hopens, -⟩
          rw [hopened] at hopens
          cases hopens
        · rw [tables_of_stores hkept]
          exact .refl _
    | @opened address opened haddress hopen hfound =>
        exact perform_on_opened rfl rfl haddress hopened hopen hfound
          (distinct_found hstores address) hchanges hfaulty opened.clock.now

/-- For every line that is read as a creation, an edit or a removal, if no credentials are named,
the databases are changed as the command asks, or not at all, and the status tells which. -/
theorem lines_change_as_asked_or_nothing (hline : Invocation.read line = .ok invocation)
    (hchanges : invocation.command.confirmation? = some confirmation)
    (hunnamed : ApiServer.namedPath surroundings invocation.credentials = .ok none)
    (hstores : ∀ name, (machine.tables name).Distinct) :
    AllOrNothing surroundings machine invocation.command confirmation
      (session (gateway policy surroundings) surroundings line machine).1
      (session (gateway policy surroundings) surroundings line machine).2 := by
  have hends := session_ends policy hline hchanges hunnamed hstores
  generalize session (gateway policy surroundings) surroundings line machine = result at hends ⊢
  cases hends with
  | misused hfaulty =>
      have huntouched : Untouched surroundings machine machine :=
        ⟨fun name => .refl _, Or.inl rfl⟩
      constructor <;> simp [Ending.status, hfaulty, huntouched]
  | failed hmeant hinfeasible huntouched =>
      constructor <;> simp [failed, Ending.status, hmeant, hinfeasible, huntouched]
  | done hmeant hfeasible hconfirmation hasks hopen =>
      cases hconfirmation.symm.trans hchanges
      exact
        { ends := Or.inl ⟨rfl, rfl, _, hfeasible.1, hasks, hopen⟩
          misuse := by simp [Ending.status, hmeant]
          failure := by simp [Ending.status]
          success := iff_of_true rfl ⟨hmeant, _, hfeasible⟩ }

/-- A machine with one database, in which there is a command with its task. -/
def shelf : Machine where
  clock := { monotonic := 0, wall := 0 }
  server := { clock := { monotonic := 0, wall := 0 }, answers := [] }
  files := {}
  stores :=
    let now : Calendar.DateTime := ⟨⟨2026, 10, 19⟩, 11, 0, 0, 0, some 0⟩
    let resource : At :=
      { metadata := { name := "backup" }, spec := ⟨"2026-10-19T12:00:00Z", "tar"⟩ }
    [("/cnat.db",
      { ats := [resource.row "uid-1" now]
        tasks := [(resource.stored "uid-1" now).newTask.row "uid-2" now] })]

/-- Where its database is found. -/
def besideShelf : Surroundings where
  env := [("DATABASE_URI", "sqlite:////cnat.db")]

theorem lines_change_as_asked_or_nothing_of_removal :
    (session (gateway {} besideShelf) besideShelf ["delete", "backup"] shelf).1.output =
        "at/backup deleted\n" ∧
      (Command.delete "backup" none).Asks "default" (shelf.tables "/cnat.db")
        (session (gateway {} besideShelf) besideShelf ["delete", "backup"] shelf).2.current := by
  have hread : Invocation.read ["delete", "backup"] = .ok ⟨none, .delete "backup" none⟩ := rfl
  have hunnamed : ApiServer.namedPath besideShelf none = .ok none := rfl
  have hstores : ∀ name, (shelf.tables name).Distinct := by
    intro name
    unfold tables shelf Assoc.get?
    split
    · exact ⟨List.nodup_singleton _, List.nodup_singleton _⟩
    · exact ⟨List.nodup_nil, List.nodup_nil⟩
  have hstatus :
      (session (gateway {} besideShelf) besideShelf ["delete", "backup"] shelf).1.ending.status =
        0 := by
    decide +kernel
  have haddress : localAddress? besideShelf = some (.file ⟨"/", ["cnat.db"]⟩) := by decide +kernel
  have hends := (lines_change_as_asked_or_nothing {} hread rfl hunnamed hstores).ends
  obtain ⟨-, houtput, address, hplace, hasks, -⟩ :=
    hends.resolve_right fun hfailed => hfailed.1 hstatus
  obtain rfl : Address.file ⟨"/", ["cnat.db"]⟩ = address :=
    Option.some.inj (haddress.symm.trans hplace)
  exact ⟨houtput, hasks⟩

end Lines

end Machine

end OneShot.Simulation
