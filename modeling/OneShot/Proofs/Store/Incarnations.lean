import OneShot.Proofs.Store.Announcements
import OneShot.Proofs.Store.Versions
import OneShot.Proofs.Runs

/-!
# Incarnations of a command

A command may be removed and created again under its key.  A status is written
on the condition that the version is the one that was read, and versions count
from one anew for every incarnation: within one of them the condition tells of
every change, but it does not tell one incarnation from another.
-/

namespace OneShot

open Calendar

/-- A call, made at a moment. -/
structure TimedCall where
  now : DateTime
  call : Call
  deriving DecidableEq

/-- The commands that a reply hands out. -/
def Call.commands : (call : Call) → call.Reply → List At
  | .getAt _, resource | .updateAtStatus _, resource | .createAt _, resource
  | .updateAtSpec _ _, resource => [resource]
  | .listAts _, resources => resources
  | .getTask _, _ | .createTask _, _ | .deleteAt _, _ | .listTasks _, _
  | .updateTaskStatus _ _, _ => []

/-- The key of the command that a call is meant to change. -/
def Call.target? : Call → Option ObjectKey
  | createAt resource | updateAtStatus resource => some resource.key
  | updateAtSpec key _ | deleteAt key => some key
  | getAt _ | listAts _ | getTask _ | createTask _ | listTasks _ | updateTaskStatus _ _ => none

theorem Call.target?_of_reads {call : Call} (hreads : call.reads = true) : call.target? = none := by
  cases call <;> first | rfl | cases hreads

namespace Store

/-- Answer a call. -/
def handle? (store : Store) (request : TimedCall) : Option Store :=
  some (store.serve request.now request.call).store

/-- A call changes the command of a key, and gets through. -/
def Changes (key : ObjectKey) (store : Store) (request : TimedCall) : Prop :=
  request.call.target? = some key ∧
    (store.serve request.now request.call).answer.isOk = true

def Removes (key : ObjectKey) (store : Store) (request : TimedCall) : Prop :=
  request.call = .deleteAt key ∧ (store.serve request.now request.call).answer.isOk = true

def Creates (key : ObjectKey) (store : Store) (request : TimedCall) : Prop :=
  (∃ resource, request.call = .createAt resource ∧ resource.key = key) ∧
    (store.serve request.now request.call).answer.isOk = true

instance (key : ObjectKey) (store : Store) (request : TimedCall) :
    Decidable (store.Changes key request) :=
  inferInstanceAs (Decidable (_ ∧ _))

instance (key : ObjectKey) (store : Store) (request : TimedCall) :
    Decidable (store.Removes key request) :=
  inferInstanceAs (Decidable (_ ∧ _))

variable {store : Store} {now : DateTime} {key : ObjectKey}

/-! ## What a reply tells -/

theorem commit_eq_ok {α : Type} {before after : Store} {answer : Except Fault α}
    {events : α → List ChangeEvent} {value : α}
    (hdone : (commit before after answer events).answer = .ok value) :
    answer = .ok value ∧ (commit before after answer events).store = after := by
  cases answer with
  | ok found =>
      cases hdone
      exact ⟨rfl, rfl⟩
  | error fault => cases hdone

theorem getAt_of_createAt {resource created : At}
    (hdone : (store.createAt now resource).answer = .ok created) :
    (store.createAt now resource).store.getAt resource.key = .ok created := by
  unfold createAt insertAt at hdone ⊢
  split at hdone
  next => cases hdone
  next htaken =>
    rw [if_neg htaken]
    obtain ⟨hread, hafter⟩ := commit_eq_ok hdone
    exact (congrArg (getAt · resource.key) hafter).trans hread

theorem getAt_of_updateAtSpec {spec : AtSpec} {updated : At}
    (hdone : (store.updateAtSpec key spec).answer = .ok updated) :
    (store.updateAtSpec key spec).store.getAt key = .ok updated := by
  unfold updateAtSpec writeSpec at hdone ⊢
  split at hdone
  next => cases hdone
  next =>
    obtain ⟨hread, hafter⟩ := commit_eq_ok hdone
    exact (congrArg (getAt · key) hafter).trans hread

theorem getAt_of_updateAtStatus {resource updated : At}
    (hdone : (store.updateAtStatus resource).answer = .ok updated) :
    (store.updateAtStatus resource).store.getAt resource.key = .ok updated := by
  unfold updateAtStatus writeStatus at hdone ⊢
  split at hdone
  next => cases hdone
  next =>
    split at hdone
    next => cases hdone
    next hbounds =>
      rw [if_neg hbounds]
      split at hdone
      next => cases hdone
      next =>
        split at hdone
        next => cases hdone
        next hversion =>
          rw [if_neg hversion]
          obtain ⟨hread, hafter⟩ := commit_eq_ok hdone
          exact (congrArg (getAt · resource.key) hafter).trans hread

/-- A command that a reply hands out is the one that its key finds. -/
theorem Identified.row_of_commands (hstore : store.Identified) {call : Call} {reply : call.Reply}
    (hdone : (store.serve now call).answer = .ok reply) {value : At}
    (hvalue : value ∈ call.commands reply) :
    ∃ row, (store.serve now call).store.atRow? value.key = some row ∧ row.Shows value := by
  have hfound : ∀ {after : Store} {key : ObjectKey}, after.getAt key = .ok value →
      ∃ row, after.atRow? value.key = some row ∧ row.Shows value := by
    intro after key hread
    obtain ⟨row, hrow, hshows⟩ := getAt_eq_ok hread
    exact ⟨row, by rw [hshows.key, key_of_atRow? hrow, hrow], hshows⟩
  cases call with
  | getAt key =>
      cases List.mem_singleton.mp hvalue
      exact hfound hdone
  | createAt resource =>
      cases List.mem_singleton.mp hvalue
      exact hfound (getAt_of_createAt hdone)
  | updateAtSpec key spec =>
      cases List.mem_singleton.mp hvalue
      exact hfound (getAt_of_updateAtSpec hdone)
  | updateAtStatus resource =>
      cases List.mem_singleton.mp hvalue
      exact hfound (getAt_of_updateAtStatus hdone)
  | listAts ns =>
      obtain ⟨row, hrow, hread⟩ := mem_of_mapM_ok hdone hvalue
      have hshows := AtRow.shows_of_toAt hread
      refine ⟨row, ?_, hshows⟩
      rw [hshows.key]
      exact hstore.atRow?_of_mem ((mem_listing AtRow.key ns row store.ats).mp hrow).1
  | getTask key | createTask task | deleteAt key | listTasks ns | updateTaskStatus key status =>
      cases hvalue

/-! ## One request -/

variable {before : Store}

/-- What becomes of a stored row: it stays, its phase is written, it is edited,
or it is removed. -/
theorem Change.atRow?_of_some {call : Call} {effect : Effect call.Reply}
    (hchange : Change before call effect) (hstore : before.Identified) {row : AtRow}
    (hrow : before.atRow? key = some row) :
    (effect.store.atRow? key = some row ∧
        ¬ (call.target? = some key ∧ effect.answer.isOk = true)) ∨
      (∃ resource, call = .updateAtStatus resource ∧
        effect.store.atRow? key =
          some { row with phase := resource.phase, version := row.version + 1 }) ∨
      (∃ spec, (call = .updateAtSpec key spec ∧ effect.answer.isOk = true) ∧
        effect.store.atRow? key = some
          { row with
            schedule := spec.schedule, command := spec.command, version := row.version + 1 }) ∨
      (effect.store.atRow? key = none ∧ call = .deleteAt key ∧ effect.answer.isOk = true) := by
  have haimed : ∀ {other : ObjectKey}, key ≠ other → some other ≠ some key :=
    fun hne heq => hne (Option.some.inj heq).symm
  cases hchange with
  | refused hquiet hanswer =>
      refine Or.inl ⟨(atRow?_of_eq hquiet.ats key).trans hrow, fun hdone => ?_⟩
      rw [hanswer] at hdone
      cases hdone.2
  | read hquiet hreads =>
      refine Or.inl ⟨(atRow?_of_eq hquiet.ats key).trans hrow, fun hdone => ?_⟩
      rw [Call.target?_of_reads hreads] at hdone
      cases hdone.1
  | addAt hfree hkey hshows hats =>
      refine Or.inl ⟨by rw [atRow?_append hats, hrow, Option.some_or], fun hdone => ?_⟩
      rw [Option.some.inj hdone.1, hrow] at hfree
      cases hfree
  | @moveAt resource updated effect found hfound hversion hkey hwritten =>
      rw [hwritten]
      by_cases heq : key = resource.key
      · subst heq
        exact Or.inr (Or.inl ⟨resource, rfl, atRow?_changeAt_self (by exact fun _ => rfl) hrow⟩)
      · refine Or.inl ⟨?_, fun hdone => haimed heq hdone.1⟩
        rw [atRow?_changeAt_of_ne (by exact fun _ => rfl) heq, hrow]
  | @editAt edited spec updated effect hkey hwritten hanswer =>
      rw [hwritten]
      by_cases heq : key = edited
      · subst heq
        refine Or.inr (Or.inr (Or.inl ⟨spec, ⟨rfl, by rw [hanswer]; rfl⟩, ?_⟩))
        exact atRow?_changeAt_self (by exact fun _ => rfl) hrow
      · refine Or.inl ⟨?_, fun hdone => haimed heq hdone.1⟩
        rw [atRow?_changeAt_of_ne (by exact fun _ => rfl) heq, hrow]
  | @removeAt removed resource owned effect hresource howned hats htasks hanswer =>
      rw [hstore.atRow?_remove hresource hats]
      split
      next heq =>
        subst heq
        exact Or.inr (Or.inr (Or.inr ⟨rfl, rfl, by rw [hanswer]; rfl⟩))
      next hne => exact Or.inl ⟨hrow, fun hdone => haimed hne hdone.1⟩
  | addTask hfree hkey howned hshows hats =>
      exact Or.inl ⟨(atRow?_of_eq hats key).trans hrow, fun hdone => by cases hdone.1⟩
  | moveTask hfound hshows hwritten =>
      exact Or.inl ⟨by rw [hwritten]; exact hrow, fun hdone => by cases hdone.1⟩

/-- A key that finds no row finds one only after a creation. -/
theorem Change.atRow?_of_none {call : Call} {effect : Effect call.Reply}
    (hchange : Change before call effect) (hnone : before.atRow? key = none) :
    effect.store.atRow? key = none ∨
      (∃ resource, call = .createAt resource ∧ resource.key = key) ∧
        effect.answer.isOk = true := by
  have hkept : ∀ other (change : AtRow → AtRow), (∀ row, (change row).key = row.key) →
      (before.changeAt other change).atRow? key = none := by
    intro other change hkey
    rw [atRow?_changeAt hkey, hnone, Option.map_none]
  cases hchange with
  | refused hquiet => exact Or.inl ((atRow?_of_eq hquiet.ats key).trans hnone)
  | read hquiet => exact Or.inl ((atRow?_of_eq hquiet.ats key).trans hnone)
  | @addAt resource created effect row hfree hkey hshows hats htasks hanswer =>
      by_cases heq : row.key = key
      · exact Or.inr ⟨⟨resource, rfl, hkey.symm.trans heq⟩, by rw [hanswer]; rfl⟩
      · left
        rw [atRow?_append hats, hnone, if_neg heq, Option.none_or]
  | moveAt hfound hversion hkey hwritten =>
      exact Or.inl (hwritten ▸ hkept _ _ (by exact fun _ => rfl))
  | editAt hkey hwritten => exact Or.inl (hwritten ▸ hkept _ _ (by exact fun _ => rfl))
  | removeAt hresource howned hats =>
      left
      unfold atRow? at hnone ⊢
      rw [hats]
      exact find?_filter_of_none _ hnone
  | addTask hfree hkey howned hshows hats =>
      exact Or.inl ((atRow?_of_eq hats key).trans hnone)
  | moveTask hfound hshows hwritten => exact Or.inl (hwritten ▸ hnone)

/-! ## Many requests -/

theorem Identified.handle? {request : TimedCall} {next : Store} (hstore : store.Identified)
    (hstep : store.handle? request = some next) : next.Identified := by
  cases hstep
  exact hstore.serve request.now request.call

theorem identified_of_play {requests : List TimedCall}
    (hplay : play handle? {} requests = some store) : store.Identified :=
  play_keeps (P := Identified) (fun _ _ _ hstore hstep => hstore.handle? hstep)
    identified_empty hplay

/-- What has become of a row since some requests were made. -/
inductive Fate (start : Store) (key : ObjectKey) (row : AtRow) (requests : List TimedCall)
    (store : Store) : Prop where
  | untouched (hrow : store.atRow? key = some row)
      (hquiet : ¬ Sometime handle? (fun store request _ => store.Changes key request) start
        requests)
  | written (later : AtRow) (hrow : store.atRow? key = some later) (huid : later.uid = row.uid)
      (hversion : row.version < later.version)
  | removed (hrow : store.atRow? key = none)
      (hremoved : Sometime handle? (fun store request _ => store.Removes key request) start
        requests)
  | replaced (hother : ∀ later, store.atRow? key = some later → later.uid ≠ row.uid)
      (hreplaced : Followed handle? (fun store request _ => store.Removes key request)
        (fun store request => store.Creates key request) start requests)

variable {start next : Store} {row : AtRow} {requests : List TimedCall} {request : TimedCall}

theorem Fate.handle? (hstore : store.Identified)
    (hgiven : ∃ number ≤ store.issued, row.uid = uidText number)
    (hplay : play handle? start requests = some store) (hfate : Fate start key row requests store)
    (hstep : store.handle? request = some next) :
    Fate start key row (requests ++ [request]) next := by
  have hchange := store.serve_change request.now request.call
  have hfresh : (∀ other, store.atRow? key = some other → other.uid ≠ row.uid) →
      ∀ other, (store.serve request.now request.call).store.atRow? key = some other →
        other.uid ≠ row.uid :=
    hstore.uid_ne_serve request.now request.call hgiven
  cases hstep
  cases hfate with
  | untouched hrow hquiet =>
      rcases hchange.atRow?_of_some hstore hrow with
        ⟨hsame, hnot⟩ | ⟨resource, -, hlater⟩ | ⟨spec, -, hlater⟩ | ⟨hgone, hremoves⟩
      · refine .untouched hsame fun hchanged => ?_
        rcases hchanged.of_snoc hplay with hearlier | hlast
        · exact hquiet hearlier
        · exact hnot hlast
      · exact .written _ hlater rfl (Int.lt_succ row.version)
      · exact .written _ hlater rfl (Int.lt_succ row.version)
      · exact .removed hgone (sometime_last hplay hremoves)
  | written found hrow huid hversion =>
      rcases hchange.atRow?_of_some hstore hrow with
        ⟨hsame, -⟩ | ⟨resource, -, hlater⟩ | ⟨spec, -, hlater⟩ | ⟨hgone, hremoves⟩
      · exact .written found hsame huid hversion
      · exact .written _ hlater huid (Int.lt_trans hversion (Int.lt_succ found.version))
      · exact .written _ hlater huid (Int.lt_trans hversion (Int.lt_succ found.version))
      · exact .removed hgone (sometime_last hplay hremoves)
  | removed hnone hremoved =>
      rcases hchange.atRow?_of_none hnone with hstill | hcreates
      · exact .removed hstill (hremoved.snoc fun _ _ _ h => h)
      · refine .replaced (hfresh fun row hrow => ?_)
          (hremoved.followed (fun _ _ _ h => h) hplay hcreates)
        rw [hnone] at hrow
        cases hrow
  | replaced hother hreplaced =>
      exact .replaced (hfresh hother) (hreplaced.snoc fun _ _ _ h => h)

theorem fate_of_play (hstart : start.Identified) (hrow : start.atRow? key = some row)
    (hplay : play handle? start requests = some store) : Fate start key row requests store := by
  have hgiven := hstart.issued row (List.mem_of_find?_eq_some hrow)
  have hrecord : store.Identified ∧ (∃ number ≤ store.issued, row.uid = uidText number) ∧
      Fate start key row requests store := by
    refine play_records (P := fun requests store => store.Identified ∧
      (∃ number ≤ store.issued, row.uid = uidText number) ∧ Fate start key row requests store)
      ⟨hstart, hgiven, .untouched hrow not_sometime_nil⟩ ?_ hplay
    rintro requests store request next hplay ⟨hstore, hgiven, hfate⟩ hstep
    refine ⟨hstore.handle? hstep, ?_, hfate.handle? hstore hgiven hplay hstep⟩
    obtain ⟨number, hnumber, hnamed⟩ := hgiven
    cases hstep
    exact ⟨number, Nat.le_trans hnumber (store.issued_le_serve request.now request.call), hnamed⟩
  exact hrecord.2.2

/-- A status is written for a command as it was handed out by an earlier reply.
When the write gets through, either the row is the one that was handed out and
no change of its command has got through since, or it is a later incarnation:
the command was removed since, and created again. -/
theorem status_write_finds_row_unchanged {earlier between : List TimedCall} (request : TimedCall)
    {reply : request.call.Reply} {value updated : At} (written : At) {later : Store}
    (hearlier : play handle? {} earlier = some start)
    (hreply : (start.serve request.now request.call).answer = .ok reply)
    (hvalue : value ∈ request.call.commands reply)
    (hbetween :
      play handle? (start.serve request.now request.call).store between = some later)
    (hmetadata : written.metadata = value.metadata)
    (hdone : (later.updateAtStatus written).answer = .ok updated) :
    ∃ row, later.atRow? value.key = some row ∧
      ((row.uid = value.metadata.uid ∧
          ¬ Sometime handle? (fun store request _ => store.Changes value.key request)
            (start.serve request.now request.call).store between) ∨
        (row.uid ≠ value.metadata.uid ∧
          Followed handle? (fun store request _ => store.Removes value.key request)
            (fun store request => store.Creates value.key request)
            (start.serve request.now request.call).store between)) := by
  have hstart := identified_of_play hearlier
  obtain ⟨row, hrow, hshows⟩ := hstart.row_of_commands hreply hvalue
  have hfate := fate_of_play (hstart.serve request.now request.call) hrow hbetween
  have hkey : written.key = value.key := by
    simp only [At.key, hmetadata]
  obtain ⟨found, hfound, hversion⟩ : ∃ found, later.atRow? value.key = some found ∧
      found.version = row.version := by
    have hchange := later.updateAtStatus_change written
    generalize later.updateAtStatus written = effect at *
    cases hchange with
    | refused _ hanswer =>
        rw [hdone] at hanswer
        cases hanswer
    | read _ hreads => cases hreads
    | moveAt hfound hversion =>
        refine ⟨_, hkey ▸ hfound, ?_⟩
        rw [hmetadata, hshows.version] at hversion
        exact eq_of_readInteger?_versionText hversion
  refine ⟨found, hfound, ?_⟩
  cases hfate with
  | untouched hrow hquiet =>
      rw [hfound] at hrow
      cases hrow
      exact Or.inl ⟨hshows.uid.symm, hquiet⟩
  | written later hlater huid hgrown =>
      rw [hfound] at hlater
      cases hlater
      omega
  | removed hnone hremoved =>
      rw [hfound] at hnone
      cases hnone
  | replaced hother hreplaced =>
      exact Or.inr ⟨hshows.uid ▸ hother found hfound, hreplaced⟩

/-- Between the read and the write another command is created and edited. -/
theorem status_write_finds_row_unchanged_by_others :
    let now : DateTime := ⟨⟨2024, 1, 2⟩, 0, 0, 0, 0, some 0⟩
    let one : At := { metadata := { name := "a" }, spec := ⟨"2024-01-01T00:00:00Z", "echo"⟩ }
    let other : At := { metadata := { name := "b" }, spec := ⟨"2024-01-01T00:00:00Z", "ls"⟩ }
    let value : At :=
      { one with
        metadata :=
          { name := "a", uid := "uid-1", resourceVersion := "1", created := some now } }
    let between : List TimedCall :=
      [⟨now, .createAt other⟩, ⟨now, .updateAtSpec other.key ⟨"2025-01-01T00:00:00Z", "ls"⟩⟩]
    ∃ start later updated, play handle? {} [⟨now, .createAt one⟩] = some start ∧
      (start.serve now (.getAt one.key)).answer = .ok value ∧
      play handle? (start.serve now (.getAt one.key)).store between = some later ∧
      (later.updateAtStatus { value with phase := "RUNNING" }).answer = .ok updated ∧
      ∃ row, later.atRow? value.key = some row ∧ row.uid = value.metadata.uid ∧
        ¬ Sometime handle? (fun store request _ => store.Changes value.key request)
          (start.serve now (.getAt one.key)).store between := by
  intro now one other value between
  let row : AtRow :=
    ⟨"uid-1", "default", "a", 1, now, "{}", "2024-01-01T00:00:00Z", "echo", ""⟩
  let start : Store := { ats := [row], issued := 1 }
  let later : Store :=
    { ats := [row, ⟨"uid-2", "default", "b", 2, now, "{}", "2025-01-01T00:00:00Z", "ls", ""⟩]
      issued := 2 }
  let updated : At :=
    { value with metadata := { value.metadata with resourceVersion := "2" }, phase := "RUNNING" }
  have hstart : play handle? {} [⟨now, .createAt one⟩] = some start := by decide +kernel
  have hreply : (start.serve now (.getAt one.key)).answer = .ok value := by decide +kernel
  have hbetween : play handle? (start.serve now (.getAt one.key)).store between = some later := by
    decide +kernel
  have hdone : (later.updateAtStatus { value with phase := "RUNNING" }).answer = .ok updated := by
    decide +kernel
  refine ⟨start, later, updated, hstart, hreply, hbetween, hdone, ?_⟩
  obtain ⟨found, hfound, hsame | ⟨hother, -⟩⟩ :=
    status_write_finds_row_unchanged ⟨now, .getAt one.key⟩ { value with phase := "RUNNING" }
      hstart hreply (List.mem_singleton.mpr rfl) hbetween rfl hdone
  · exact ⟨found, hfound, hsame⟩
  · have hrow : later.atRow? value.key = some row := by decide +kernel
    rw [hfound] at hrow
    cases hrow
    exact absurd rfl hother

/-- A reader holds a command that is removed and created again.  Its write gets
through, though the row is not the one that it has read. -/
theorem status_write_gets_through_to_another_incarnation :
    ¬ ∀ (start later : Store) (earlier between : List TimedCall) (request : TimedCall)
      (reply : request.call.Reply) (value written updated : At),
      play handle? {} earlier = some start →
      (start.serve request.now request.call).answer = .ok reply →
      value ∈ request.call.commands reply →
      play handle? (start.serve request.now request.call).store between = some later →
      written.metadata = value.metadata →
      (later.updateAtStatus written).answer = .ok updated →
        ¬ Sometime handle? (fun store request _ => store.Changes value.key request)
            (start.serve request.now request.call).store between ∧
          ∃ row, later.atRow? value.key = some row ∧ row.uid = value.metadata.uid := by
  intro hdetects
  let now : DateTime := ⟨⟨2024, 1, 2⟩, 0, 0, 0, 0, some 0⟩
  let first : At := { metadata := { name := "a" }, spec := ⟨"2024-01-01T00:00:00Z", "echo"⟩ }
  let second : At := { metadata := { name := "a" }, spec := ⟨"2030-01-01T00:00:00Z", "echo"⟩ }
  let value : At :=
    { first with
      metadata :=
        { name := "a", uid := "uid-1", resourceVersion := "1", created := some now } }
  let start : Store :=
    { ats := [⟨"uid-1", "default", "a", 1, now, "{}", "2024-01-01T00:00:00Z", "echo", ""⟩]
      issued := 1 }
  let later : Store :=
    { ats := [⟨"uid-2", "default", "a", 1, now, "{}", "2030-01-01T00:00:00Z", "echo", ""⟩]
      issued := 2 }
  let updated : At :=
    { second with
      metadata := { name := "a", uid := "uid-2", resourceVersion := "2", created := some now }
      phase := "DONE" }
  obtain ⟨-, row, hrow, huid⟩ :=
    hdetects start later [⟨now, .createAt first⟩]
      [⟨now, .deleteAt first.key⟩, ⟨now, .createAt second⟩] ⟨now, .getAt first.key⟩ value value
      { value with phase := "DONE" } updated (by decide +kernel) (by decide +kernel)
      (List.mem_singleton.mpr rfl) (by decide +kernel) rfl (by decide +kernel)
  have hother : (later.atRow? value.key).map AtRow.uid = some "uid-2" := by decide +kernel
  rw [hrow, Option.map_some, huid] at hother
  exact absurd hother (by decide)

end Store

end OneShot
