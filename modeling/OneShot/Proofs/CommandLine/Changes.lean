import OneShot.CommandLine.Session
import OneShot.Proofs.Operations.Edits
import OneShot.Proofs.Store.Columns
import OneShot.Proofs.Store.VersionedMap

/-!
# What a command changes

A command that creates, edits or deletes is checked, and makes its calls then.  The tables it
leaves differ from those it found in the one way that was asked for, or not at all.  Which of the
two it will be can be told beforehand, from the command and the tables.
-/

namespace OneShot

open Calendar
open Operations

/-! ## Tables -/

/-- Where no value comes twice, that of an item in the middle is none of the others'. -/
theorem ne_of_nodup_middle {α β : Type} {f : α → β} {earlier later : List α} {item other : α}
    (hnodup : ((earlier ++ item :: later).map f).Nodup) (hother : other ∈ earlier ++ later) :
    f other ≠ f item := by
  rw [List.map_append, List.map_cons, List.nodup_middle, List.nodup_cons, ← List.map_append]
    at hnodup
  intro hsame
  exact hnodup.1 (hsame ▸ List.mem_map_of_mem hother)

namespace Store

/-- The rows are the same, in both tables. -/
structure SameTables (store other : Store) : Prop where
  ats : other.ats = store.ats
  tasks : other.tasks = store.tasks

theorem SameTables.refl (store : Store) : store.SameTables store := ⟨rfl, rfl⟩

theorem SameTables.trans {store other last : Store} (hfirst : store.SameTables other)
    (hsecond : other.SameTables last) : store.SameTables last :=
  ⟨hsecond.ats.trans hfirst.ats, hsecond.tasks.trans hfirst.tasks⟩

/-- No two scheduled commands have a key or a uid in common. -/
structure Distinct (store : Store) : Prop where
  keyed : (store.ats.map AtRow.key).Nodup
  uids : (store.ats.map AtRow.uid).Nodup

variable {store other : Store} {key : ObjectKey} {row : AtRow} {earlier later : List AtRow}

theorem SameTables.getAt (hsame : store.SameTables other) (key : ObjectKey) :
    other.getAt key = store.getAt key := by
  unfold Store.getAt
  rw [atRow?_of_eq hsame.ats]

theorem Distinct.of_same (hstore : store.Distinct) (hsame : store.SameTables other) :
    other.Distinct := by
  constructor
  · rw [hsame.ats]
    exact hstore.keyed
  · rw [hsame.ats]
    exact hstore.uids

theorem Distinct.ats_changeAt (hstore : store.Distinct) (hats : store.ats = earlier ++ row :: later)
    (change : AtRow → AtRow) :
    (store.changeAt row.key change).ats = earlier ++ change row :: later := by
  have hothers : ∀ other ∈ earlier ++ later, other.key ≠ row.key :=
    fun other hother => ne_of_nodup_middle (hats ▸ hstore.keyed) hother
  have hkept : ∀ rows : List AtRow, (∀ other ∈ rows, other ∈ earlier ++ later) →
      rows.map (fun other => if other.key = row.key then change other else other) = rows := by
    intro rows hrows
    refine (List.map_congr_left fun other hother => ?_).trans (List.map_id rows)
    exact if_neg (hothers other (hrows other hother))
  simp only [changeAt]
  rw [hats, List.map_append, List.map_cons, if_pos rfl,
    hkept earlier fun other => List.mem_append_left later,
    hkept later fun other => List.mem_append_right earlier]

theorem Distinct.ats_without (hstore : store.Distinct)
    (hats : store.ats = earlier ++ row :: later) :
    store.ats.filter (fun other => other.uid != row.uid) = earlier ++ later := by
  have hothers : ∀ other ∈ earlier ++ later, (other.uid != row.uid) = true :=
    fun other hother => bne_iff_ne.mpr (ne_of_nodup_middle (hats ▸ hstore.uids) hother)
  have hrow : (row.uid != row.uid) = false := bne_self_eq_false row.uid
  rw [hats, List.filter_append, List.filter_cons, hrow]
  simp only [Bool.false_eq_true, if_false]
  rw [← List.filter_append, List.filter_eq_self.mpr hothers]

/-- A row that is found stands somewhere in its table. -/
theorem exists_split_of_atRow? (hrow : store.atRow? key = some row) :
    ∃ earlier later, store.ats = earlier ++ row :: later :=
  List.append_of_mem (List.mem_of_find?_eq_some hrow)

/-- The spec of a command that can be read is written into its row. -/
theorem Distinct.updateAtSpec (hstore : store.Distinct) {resource : At}
    (hread : store.getAt key = .ok resource) (spec : AtSpec) :
    ∃ updated row earlier later,
      (store.updateAtSpec key spec).answer = .ok updated ∧ updated.key = key ∧
      store.ats = earlier ++ row :: later ∧ row.key = key ∧
      resource.spec = ⟨row.schedule, row.command⟩ ∧
      (store.updateAtSpec key spec).store.ats =
        earlier ++
          { row with
            schedule := spec.schedule, command := spec.command, version := row.version + 1 } ::
          later ∧
      (store.updateAtSpec key spec).store.tasks = store.tasks := by
  obtain ⟨row, hrow, hshown⟩ := toAt_of_getAt hread
  obtain ⟨earlier, later, hats⟩ := exists_split_of_atRow? hrow
  obtain ⟨updated, hanswer, -, -⟩ := updateAtSpec_of_read hread spec
  have hchange := updateAtSpec_change store key spec
  have hkey : row.key = key := key_of_atRow? hrow
  generalize store.updateAtSpec key spec = effect at *
  subst hkey
  cases hchange with
  | refused _ hrefused =>
      rw [hanswer] at hrefused
      cases hrefused
  | read _ hreads => cases hreads
  | editAt hkept hwritten hdone =>
      rw [hwritten]
      exact ⟨_, row, earlier, later, hdone, hkept, hats, rfl, AtRow.spec_of_toAt hshown,
        hstore.ats_changeAt hats _, rfl⟩

/-- A scheduled command can be read, and so can the tasks that it owns. -/
def Removable (store : Store) (key : ObjectKey) : Prop :=
  ∃ resource, store.getAt key = .ok resource ∧
    ∀ task ∈ store.tasks, task.ownerUid = some resource.metadata.uid →
      ∃ read, task.toTask = .ok read

/-- What a removal that gets through has read and has removed. -/
theorem deleteAt_eq_ok (hanswer : (store.deleteAt key).answer = .ok ()) :
    ∃ resource owned, store.getAt key = .ok resource ∧
      (store.tasks.filter fun task => task.ownerUid == some resource.metadata.uid).mapM
        TaskRow.toTask = .ok owned ∧
      (store.deleteAt key).store.ats =
        store.ats.filter (fun row => row.uid != resource.metadata.uid) ∧
      (store.deleteAt key).store.tasks =
        store.tasks.filter fun task => task.ownerUid != some resource.metadata.uid := by
  have hchange := deleteAt_change store key
  generalize store.deleteAt key = effect at *
  cases hchange with
  | refused _ hrefused =>
      rw [hanswer] at hrefused
      cases hrefused
  | read _ hreads => cases hreads
  | removeAt hresource howned hats htasks => exact ⟨_, _, hresource, howned, hats, htasks⟩

theorem deleteAt_answer_iff : (store.deleteAt key).answer = .ok () ↔ store.Removable key := by
  constructor
  · intro hanswer
    obtain ⟨resource, owned, hresource, howned, -, -⟩ := deleteAt_eq_ok hanswer
    refine ⟨resource, hresource, fun task htask howner => ?_⟩
    obtain ⟨read, -, hread⟩ := mapM_ok_of_mem howned
      (List.mem_filter.mpr ⟨htask, beq_iff_eq.mpr howner⟩)
    exact ⟨read, hread⟩
  · rintro ⟨resource, hread, howned⟩
    obtain ⟨owned, howned⟩ : ∃ owned,
        (store.tasks.filter fun task => task.ownerUid == some resource.metadata.uid).mapM
          TaskRow.toTask = .ok owned :=
      mapM_of_legible fun task htask =>
        howned task (List.mem_filter.mp htask).1 (beq_iff_eq.mp (List.mem_filter.mp htask).2)
    unfold deleteAt
    simp only [hread, bind, Except.bind, howned]
    rfl

/-- A command that can be removed is, with the tasks that it owns. -/
theorem Distinct.deleteAt (hstore : store.Distinct) (hremovable : store.Removable key) :
    ∃ row earlier later, store.ats = earlier ++ row :: later ∧ row.key = key ∧
      (store.deleteAt key).store.ats = earlier ++ later ∧
      (store.deleteAt key).store.tasks =
        store.tasks.filter fun task => task.ownerUid != some row.uid := by
  obtain ⟨resource, owned, hresource, -, hats, htasks⟩ :=
    deleteAt_eq_ok (deleteAt_answer_iff.mpr hremovable)
  obtain ⟨row, hrow, hshows⟩ := getAt_eq_ok hresource
  obtain ⟨earlier, later, hbefore⟩ := exists_split_of_atRow? hrow
  rw [hshows.uid] at hats htasks
  exact ⟨row, earlier, later, hbefore, key_of_atRow? hrow,
    hats.trans (hstore.ats_without hbefore), htasks⟩

end Store

namespace CommandLine

/-! ## What is asked for -/

namespace Command

/-- What is printed once the change is made that a command asks for. -/
def confirmation? : Command → Option String
  | create name .. => some ("at/" ++ name ++ " created\n")
  | edit name .. => some ("at/" ++ name ++ " edited\n")
  | delete name .. => some ("at/" ++ name ++ " deleted\n")
  | list .. | run .. => none

/-- The schedule that is given with a command. -/
def schedule? : Command → Option String
  | create _ spec _ => some spec.schedule
  | edit _ change _ => change.schedule
  | list .. | delete .. | run .. => none

/-- A schedule is given that is malformed, or an edit names nothing to be changed. -/
def Faulty (command : Command) : Prop :=
  (∃ text fault, command.schedule? = some text ∧ Schedule.parse text = .error fault) ∨
    ∃ name ns, command = edit name {} ns

/-- The tables admit the change that a command asks for. -/
def Possible (home : String) (store : Store) : Command → Prop
  | create name _ ns => store.atRow? ⟨namespaceOr home ns, name⟩ = none
  | edit name _ ns => ∃ resource, store.getAt ⟨namespaceOr home ns, name⟩ = .ok resource
  | delete name ns => store.Removable ⟨namespaceOr home ns, name⟩
  | list .. | run .. => False

/-- The tables differ as a command asks, and in nothing else. -/
inductive Asks (home : String) (before after : Store) : Command → Prop where
  | create {name : String} {spec : AtSpec} {ns : Option String} {row : AtRow}
      (hats : after.ats = before.ats ++ [row])
      (htasks : after.tasks = before.tasks)
      (hfree : ∀ other ∈ before.ats, other.key ≠ row.key)
      (hkey : row.key = ⟨namespaceOr home ns, name⟩)
      (hspec : (⟨row.schedule, row.command⟩ : AtSpec) = spec)
      (hphase : AtPhase.ofText? row.phase = some .unset)
      (hversion : row.version = 1) :
      Asks home before after (create name spec ns)
  | edit {name : String} {change : Edit} {ns : Option String} {row : AtRow}
      {earlier later : List AtRow}
      (hbefore : before.ats = earlier ++ row :: later)
      (hkey : row.key = ⟨namespaceOr home ns, name⟩)
      (hafter : after.ats =
        earlier ++
          { row with
            schedule := change.schedule.getD row.schedule
            command := change.command.getD row.command
            version := row.version + 1 } :: later)
      (htasks : after.tasks = before.tasks) :
      Asks home before after (edit name change ns)
  | delete {name : String} {ns : Option String} {row : AtRow} {earlier later : List AtRow}
      (hbefore : before.ats = earlier ++ row :: later)
      (hkey : row.key = ⟨namespaceOr home ns, name⟩)
      (hafter : after.ats = earlier ++ later)
      (htasks : after.tasks = before.tasks.filter fun task => task.ownerUid != some row.uid) :
      Asks home before after (delete name ns)

theorem possible_congr {home : String} {store other : Store} {command : Command}
    (hsame : store.SameTables other) :
    command.Possible home other ↔ command.Possible home store := by
  cases command with
  | list | run => rfl
  | create name spec ns => simp only [Possible, Store.atRow?_of_eq hsame.ats]
  | edit name change ns => simp only [Possible, hsame.getAt]
  | delete name ns => simp only [Possible, Store.Removable, hsame.getAt, hsame.tasks]

theorem Asks.of_same {home : String} {before other after : Store} {command : Command}
    (hsame : other.SameTables before) (hasks : Asks home before after command) :
    Asks home other after command := by
  cases hasks with
  | create hats htasks hfree hkey hspec hphase hversion =>
      rw [hsame.ats] at hats hfree
      exact .create hats (htasks.trans hsame.tasks) hfree hkey hspec hphase hversion
  | edit hbefore hkey hafter htasks =>
      exact .edit (hsame.ats.symm.trans hbefore) hkey hafter (htasks.trans hsame.tasks)
  | delete hbefore hkey hafter htasks =>
      rw [hsame.tasks] at htasks
      exact .delete (hsame.ats.symm.trans hbefore) hkey hafter htasks

end Command

/-! ## What is checked -/

theorem checkSchedule_eq_ok_iff (text : String) :
    checkSchedule text = .ok () ↔ ∀ fault, Schedule.parse text ≠ .error fault := by
  unfold checkSchedule
  cases Schedule.parse text <;> simp

theorem mapError_operation_eq_ok_iff {checked : Except Fault Unit} :
    checked.mapError Refusal.operation = .ok () ↔ checked = .ok () := by
  cases checked <;> simp [Except.mapError]

namespace Command

variable {command : Command} {confirmation : String}

/-- What is checked of a command that changes something is exactly that it is not faulty. -/
theorem check_eq_ok_iff (hchanges : command.confirmation? = some confirmation) :
    command.check = .ok () ↔ ¬ command.Faulty := by
  cases command with
  | list | run => cases hchanges
  | create name spec ns =>
      simp only [check, mapError_operation_eq_ok_iff, checkSchedule_eq_ok_iff]
      simp [Faulty, schedule?]
  | edit name change ns =>
      obtain ⟨schedule, command⟩ := change
      simp only [check, mapError_operation_eq_ok_iff, Edit.check]
      cases schedule with
      | some schedule =>
          simp only [checkSchedule_eq_ok_iff]
          simp [Faulty, schedule?]
      | none => cases command <;> simp [Faulty, schedule?]
  | delete name ns => simp [check, Faulty, schedule?]

/-- A command that changes something is refused for what it asks for. -/
theorem ending_of_check {refusal : Refusal} (hchanges : command.confirmation? = some confirmation)
    (hcheck : command.check = .error refusal) : refusal.ending = .misuse := by
  have hmapped : ∀ checked : Except Fault Unit,
      checked.mapError Refusal.operation = .error refusal → refusal.ending = .misuse := by
    intro checked hchecked
    cases checked with
    | ok value => cases hchecked
    | error fault =>
        cases hchecked
        rfl
  cases command with
  | list | run => cases hchanges
  | create name spec ns => exact hmapped _ hcheck
  | edit name change ns => exact hmapped _ hcheck
  | delete name ns => cases hcheck

end Command

/-! ## What is done -/

section Clients

variable {σ : Type} {client : Client σ Float} {view : σ → Store} {clock : σ → DateTime}

/-- Each call of a client is one transaction on the tables that are seen in its states. -/
structure Serves (client : Client σ Float) (view : σ → Store) (clock : σ → DateTime) : Prop where
  answer : ∀ (call : Call) (patience : Patience Float) (state : σ),
    (client call patience state).1 = ((view state).serve (clock state) call).answer
  tables : ∀ (call : Call) (patience : Patience Float) (state : σ),
    view (client call patience state).2 = ((view state).serve (clock state) call).store

theorem Serves.refused (hserves : Serves client view clock) {call : Call}
    {patience : Patience Float} {state : σ} {fault : Fault}
    (hrefused : (client call patience state).1 = .error fault) :
    (view state).SameTables (view (client call patience state).2) := by
  rw [hserves.answer] at hrefused
  have hquiet := Store.refused_quiet (view state) (clock state) call hrefused
  rw [hserves.tables]
  exact ⟨hquiet.ats, hquiet.tasks⟩

/-- How a command ends, and with which tables. -/
inductive Ends (home : String) (command : Command) (before : Store) : Outcome → Store → Prop where
  | done {after : Store} {confirmation : String}
      (hconfirmation : command.confirmation? = some confirmation)
      (hpossible : command.Possible home before)
      (hasks : command.Asks home before after) :
      Ends home command before { ending := .success, output := confirmation } after
  | failed {after : Store} (himpossible : ¬ command.Possible home before)
      (hsame : before.SameTables after) :
      Ends home command before failed after

/-- What is printed of a change that is made is its confirmation. -/
theorem changed_ok {α : Type} {done : String} {name : α → String} {value : α} {text : String}
    (htext : "at/" ++ name value ++ (" " ++ done ++ "\n") = text) :
    changed done name (.ok value) = { ending := .success, output := text } := by
  rw [← htext, changed, printed]
  simp only [String.append_assoc]

variable (home : String) {state : σ} {name : String} {ns : Option String}

theorem create_ends (hserves : Serves client view clock) {spec : AtSpec}
    (hcheck : checkSchedule spec.schedule = .ok ()) :
    Ends home (.create name spec ns) (view state)
      (changed "created" (·.metadata.name)
        (create client ⟨namespaceOr home ns, name⟩ spec state).1)
      (view (create client ⟨namespaceOr home ns, name⟩ spec state).2) := by
  let resource : At := ⟨{ name := name, ns := namespaceOr home ns }, spec, ""⟩
  have hcreate : create client ⟨namespaceOr home ns, name⟩ spec state =
      client (.createAt resource) .unstated state := by
    rw [create, hcheck]
  have hanswer := hserves.answer (.createAt resource) .unstated state
  have htables := hserves.tables (.createAt resource) .unstated state
  rw [hcreate]
  cases hrow : (view state).atRow? resource.key with
  | none =>
      have heffect := Store.createAt_of_free (clock state) resource hrow
      simp only [Store.serve, heffect] at hanswer htables
      rw [hanswer, htables, changed_ok rfl]
      refine .done rfl hrow (.create rfl rfl ?_ rfl rfl rfl rfl)
      exact fun other hother => of_decide_eq_false
        (Bool.eq_false_iff.mpr (List.find?_eq_none.mp hrow other hother))
  | some row =>
      have heffect := Store.createAt_of_taken (clock state) resource hrow
      simp only [Store.serve, heffect] at hanswer
      have hsame := hserves.refused hanswer
      rw [hanswer]
      refine .failed ?_ hsame
      intro hfree
      cases hfree.symm.trans hrow

theorem edit_ends (hserves : Serves client view clock) {change : Edit}
    (hcheck : change.check = .ok ()) (hstore : (view state).Distinct) :
    Ends home (.edit name change ns) (view state)
      (changed "edited" (·.metadata.name)
        (edit client ⟨namespaceOr home ns, name⟩ change state).1)
      (view (edit client ⟨namespaceOr home ns, name⟩ change state).2) := by
  let key : ObjectKey := ⟨namespaceOr home ns, name⟩
  have hanswer : (client (.getAt key) .unstated state).1 = (view state).getAt key :=
    hserves.answer (.getAt key) .unstated state
  have hread : view (client (.getAt key) .unstated state).2 = view state :=
    hserves.tables (.getAt key) .unstated state
  simp only [edit, hcheck]
  generalize client (.getAt key) .unstated state = found at *
  obtain ⟨answer, between⟩ := found
  dsimp only at hanswer hread
  rw [← hread] at hstore hanswer ⊢
  cases answer with
  | error fault =>
      refine .failed ?_ (.refl _)
      rintro ⟨resource, hresource⟩
      cases hanswer.trans hresource
  | ok current =>
      let spec : AtSpec := change.apply current.spec
      have hwrite := hserves.answer (.updateAtSpec key spec) .unstated between
      have hwritten := hserves.tables (.updateAtSpec key spec) .unstated between
      obtain ⟨updated, row, earlier, later, hdone, hupdated, hbefore, hkey, hspec, hats, htasks⟩ :=
        hstore.updateAtSpec hanswer.symm spec
      have hschedule : spec.schedule = change.schedule.getD row.schedule :=
        congrArg (fun old : AtSpec => change.schedule.getD old.schedule) hspec
      have hcommand : spec.command = change.command.getD row.command :=
        congrArg (fun old : AtSpec => change.command.getD old.command) hspec
      have hname : updated.metadata.name = name := congrArg ObjectKey.name hupdated
      -- Nobody else makes calls in between, so the write finds the row that was read.
      simp only [Store.serve] at hwrite hwritten
      rw [hschedule, hcommand] at hats
      change Ends home _ _ (changed "edited" _ (client (.updateAtSpec key spec) _ between).1)
        (view (client (.updateAtSpec key spec) _ between).2)
      rw [hwrite, hdone, hwritten, changed_ok rfl, hname]
      exact .done rfl ⟨current, hanswer.symm⟩ (.edit hbefore hkey hats htasks)

theorem delete_ends (hserves : Serves client view clock) (hstore : (view state).Distinct) :
    Ends home (.delete name ns) (view state)
      (changed "deleted" (·.name) (delete client ⟨namespaceOr home ns, name⟩ state).1)
      (view (delete client ⟨namespaceOr home ns, name⟩ state).2) := by
  let key : ObjectKey := ⟨namespaceOr home ns, name⟩
  have hanswer := hserves.answer (.deleteAt key) .unstated state
  have htables := hserves.tables (.deleteAt key) .unstated state
  simp only [Store.serve] at hanswer htables
  simp only [delete]
  cases hdone : (client (.deleteAt key) .unstated state).1 with
  | ok value =>
      have hremovable := Store.deleteAt_answer_iff.mp (hanswer.symm.trans hdone)
      obtain ⟨row, earlier, later, hbefore, hkey, hats, htasks⟩ := hstore.deleteAt hremovable
      rw [Except.map, htables, changed_ok rfl]
      exact .done rfl hremovable (.delete hbefore hkey hats htasks)
  | error fault =>
      refine .failed ?_ (hserves.refused hdone)
      intro hremovable
      rw [hanswer, Store.deleteAt_answer_iff.mpr hremovable] at hdone
      cases hdone

end Clients

section Performing

variable {σ : Type} {backend : Backend σ} {command : Command} {confirmation : String}

/-- A command that changes something ends with the change made, or with none. -/
theorem perform_ends {view : σ → Store} {clock : σ → DateTime} {state : σ}
    (hserves : Serves backend.client view clock) (hstore : (view state).Distinct)
    (hchanges : command.confirmation? = some confirmation) (hcheck : ¬ command.Faulty)
    (now : DateTime) :
    Ends backend.home command (view state) (perform backend now command state).1
      (view (perform backend now command state).2) := by
  rw [← Command.check_eq_ok_iff hchanges] at hcheck
  cases command with
  | list | run => cases hchanges
  | create name spec ns =>
      exact create_ends backend.home hserves (mapError_operation_eq_ok_iff.mp hcheck)
  | edit name change ns =>
      exact edit_ends backend.home hserves (mapError_operation_eq_ok_iff.mp hcheck) hstore
  | delete name ns => exact delete_ends backend.home hserves hstore

/-- What all calls of a client keep, a command keeps. -/
theorem perform_keeps {P : σ → Prop}
    (hcalls : ∀ call patience state, P state → P (backend.client call patience state).2)
    (now : DateTime) {state : σ} (hstart : P state) : P (perform backend now command state).2 := by
  cases command with
  | list listed ns everywhere => cases listed <;> exact hcalls _ _ _ hstart
  | create name spec ns =>
      simp only [perform, create, Prod.map]
      split
      · exact hstart
      · exact hcalls _ _ _ hstart
  | edit name change ns =>
      have hread := hcalls (.getAt ⟨namespaceOr backend.home ns, name⟩) .unstated state hstart
      simp only [perform, edit, Prod.map]
      generalize backend.client (.getAt ⟨namespaceOr backend.home ns, name⟩) .unstated state =
        found at *
      obtain ⟨answer, between⟩ := found
      split
      · exact hstart
      · cases answer with
        | error fault => exact hread
        | ok current => exact hcalls _ _ _ hread
  | delete name ns => exact hcalls _ _ _ hstart
  | run workers resync => exact hstart

end Performing

end CommandLine

end OneShot
