import OneShot.Operations
import OneShot.Proofs.Store.Tables
import Mathlib.Logic.Function.Basic

/-!
# Edits at the same time

An edit reads a command and writes its schedule and its command line, those that
it names and those that it has read.  The write asks for no version.  So what
is stored of a field is what the last edit has named that names it, unless an
edit that does not name the field has read before that one wrote, and has
written after it.
-/

namespace OneShot

open Calendar

/-- The calls that leave the schedule and the command line of a key alone. -/
def Call.spares (key : ObjectKey) : Call → Bool
  | updateAtSpec other _ | deleteAt other => other != key
  | _ => true

namespace Store

variable {store : Store} {key : ObjectKey} {resource : At}

theorem Intact.getAt_of_row (hstore : store.Intact) {row : AtRow}
    (hrow : store.atRow? key = some row) :
    ∃ resource, store.getAt key = .ok resource ∧ resource.spec = ⟨row.schedule, row.command⟩ := by
  obtain ⟨resource, hread⟩ := hstore.readableAts row (List.mem_of_find?_eq_some hrow)
  refine ⟨resource, ?_, AtRow.spec_of_toAt hread⟩
  unfold getAt
  rw [hrow]
  exact hread

theorem Intact.updateAtSpec (hstore : store.Intact) (key : ObjectKey) (spec : AtSpec) :
    (store.updateAtSpec key spec).store.Intact :=
  hstore.serve ⟨⟨1, 1, 1⟩, 0, 0, 0, 0, none⟩ (.updateAtSpec key spec)

theorem Intact.spec_serve (hstore : store.Intact) (hread : store.getAt key = .ok resource)
    (now : DateTime) {call : Call} (hspares : call.spares key = true) :
    ∃ later, (store.serve now call).store.getAt key = .ok later ∧ later.spec = resource.spec := by
  obtain ⟨row, hrow, hshown⟩ := toAt_of_getAt hread
  have hafter := hstore.serve now call
  rw [AtRow.spec_of_toAt hshown]
  rcases (store.serve_change now call).atRow?_of_some hstore.ats hrow with
    ⟨hsame, -⟩ | ⟨status, -, hmoved⟩ | ⟨spec, ⟨hcall, -⟩, -⟩ | ⟨-, hcall, -⟩
  · exact hafter.getAt_of_row hsame
  · obtain ⟨later, hlater, hspec⟩ := hafter.getAt_of_row hmoved
    exact ⟨later, hlater, hspec⟩
  · simp [hcall, Call.spares] at hspares
  · simp [hcall, Call.spares] at hspares

theorem updateAtSpec_of_read (hread : store.getAt key = .ok resource) (spec : AtSpec) :
    ∃ updated, (store.updateAtSpec key spec).answer = .ok updated ∧
      (store.updateAtSpec key spec).store.getAt key = .ok updated ∧ updated.spec = spec := by
  obtain ⟨row, hrow, hshown⟩ := toAt_of_getAt hread
  let change : AtRow → AtRow := fun row =>
    { row with schedule := spec.schedule, command := spec.command, version := row.version + 1 }
  have hlabels : (change row).labels = row.labels := rfl
  obtain ⟨updated, hupdated⟩ := toAt_of_labels hlabels ⟨resource, hshown⟩
  have hafter : (store.changeAt key change).getAt key = .ok updated := by
    unfold getAt
    rw [atRow?_changeAt_self (by exact fun _ => rfl) hrow]
    exact hupdated
  have heffect : store.updateAtSpec key spec =
      { answer := .ok updated
        store := store.changeAt key change
        events := [atEvent .modified updated] } := by
    unfold updateAtSpec writeSpec
    rw [hrow]
    simp only [commit]
    rw [hafter]
  rw [heffect]
  exact ⟨updated, rfl, hafter, AtRow.spec_of_toAt hupdated⟩

end Store

namespace Operations

/-- What an edit may name. -/
inductive SpecField where
  | schedule
  | command

namespace SpecField

def of : SpecField → AtSpec → String
  | schedule, spec => spec.schedule
  | command, spec => spec.command

def named : SpecField → Edit → Option String
  | schedule, change => change.schedule
  | command, change => change.command

theorem of_apply (field : SpecField) (change : Edit) (spec : AtSpec) :
    field.of (change.apply spec) = (field.named change).getD (field.of spec) := by
  cases field <;> rfl

end SpecField

/-- How far an edit has come. -/
inductive EditStage where
  | idle
  | holding (spec : AtSpec)
  | returned (resource : At)
  | failed (fault : Fault)
  deriving DecidableEq

def EditStage.ofAnswer : Except Fault At → EditStage
  | .ok resource => returned resource
  | .error fault => failed fault

/-- An edit is checked, and reads. -/
def EditStage.begin (store : Store) (key : ObjectKey) (change : Edit) : EditStage :=
  match change.check with
  | .error fault => failed fault
  | .ok () =>
      match store.getAt key with
      | .error fault => failed fault
      | .ok current => holding current.spec

/-- Edits of one command, each of them on its way. -/
structure Editing (ι : Type) where
  store : Store
  stages : ι → EditStage := fun _ => .idle

inductive EditingMove (ι : Type) where
  | read (edit : ι)
  | write (edit : ι)
  /-- Another client makes a call. -/
  | other (request : TimedCall)

namespace Editing

variable {ι : Type} [DecidableEq ι]

def step? (key : ObjectKey) (asked : ι → Edit) (editing : Editing ι) :
    EditingMove ι → Option (Editing ι)
  | .read edit =>
      match editing.stages edit with
      | .idle =>
          let stage := EditStage.begin editing.store key (asked edit)
          some { editing with stages := Function.update editing.stages edit stage }
      | _ => none
  | .write edit =>
      match editing.stages edit with
      | .holding spec =>
          let effect := editing.store.updateAtSpec key ((asked edit).apply spec)
          let stage := EditStage.ofAnswer effect.answer
          some ⟨effect.store, Function.update editing.stages edit stage⟩
      | _ => none
  | .other request =>
      if request.call.spares key then
        some { editing with store := (editing.store.serve request.now request.call).store }
      else none

/-- An edit that nobody comes in between of is a read, and a write if there is
something to write. -/
theorem play_edit {τ : Type} {client : Client Store τ} {now : DateTime}
    (hclient : ∀ call patience store, client call patience store =
      ((store.serve now call).answer, (store.serve now call).store))
    (key : ObjectKey) (asked : ι → Edit) {editing : Editing ι} {edit : ι}
    (hidle : editing.stages edit = .idle) :
    ∃ moves ∈ [[EditingMove.read edit], [.read edit, .write edit]],
      let outcome := Operations.edit client key (asked edit) editing.store
      play (step? key asked) editing moves = some
        ⟨outcome.2, Function.update editing.stages edit (EditStage.ofAnswer outcome.1)⟩ := by
  cases hcheck : (asked edit).check with
  | error fault =>
      refine ⟨[.read edit], by simp, ?_⟩
      simp [step?, hidle, EditStage.begin, Operations.edit, hcheck, EditStage.ofAnswer]
  | ok checked =>
      cases hread : editing.store.getAt key with
      | error fault =>
          refine ⟨[.read edit], by simp, ?_⟩
          simp [step?, hidle, EditStage.begin, Operations.edit, hcheck, EditStage.ofAnswer,
            hclient, Store.serve, Store.reading, hread]
      | ok current =>
          refine ⟨[.read edit, .write edit], by simp, ?_⟩
          simp [step?, hidle, EditStage.begin, Operations.edit, hcheck, EditStage.ofAnswer,
            hclient, Store.serve, Store.reading, hread]

/-! ## What is asked for and what is overtaken -/

/-- The value of a field that the last edit has named that names it. -/
def lastNamed (field : SpecField) (asked : ι → Edit) (moves : List (EditingMove ι)) :
    Option String :=
  moves.foldl
    (fun last move =>
      match move with
      | .write edit => (field.named (asked edit)).or last
      | _ => last) none

/-- A move writes a field that its edit names. -/
def Names (field : SpecField) (asked : ι → Edit) : EditingMove ι → Prop
  | .write edit => (field.named (asked edit)).isSome = true
  | _ => False

/-- An edit has read before the last write that names the field. -/
def Stale (field : SpecField) (asked : ι → Edit) (edit : ι) (moves : List (EditingMove ι)) :
    Prop :=
  ∃ before between other after, moves = before ++ .read edit :: (between ++ .write other :: after) ∧
    (field.named (asked other)).isSome = true ∧ ∀ move ∈ after, ¬ Names field asked move

/-- An edit that does not name the field has read before the last write that
names it, and has written after it. -/
def Overtaken (field : SpecField) (asked : ι → Edit) (moves : List (EditingMove ι)) : Prop :=
  ∃ before edit after, moves = before ++ .write edit :: after ∧
    field.named (asked edit) = none ∧ Stale field asked edit before ∧
      ∀ move ∈ after, ¬ Names field asked move

section History

variable {field : SpecField} {asked : ι → Edit} {moves : List (EditingMove ι)}
  {move : EditingMove ι} {edit other : ι}

omit [DecidableEq ι]

theorem lastNamed_snoc (moves : List (EditingMove ι)) (edit : ι) :
    lastNamed field asked (moves ++ [.write edit]) =
      (field.named (asked edit)).or (lastNamed field asked moves) := by
  simp [lastNamed]

theorem lastNamed_snoc_of_not_names (hnot : ¬ Names field asked move) :
    lastNamed field asked (moves ++ [move]) = lastNamed field asked moves := by
  cases move with
  | read edit => simp [lastNamed]
  | other request => simp [lastNamed]
  | write edit =>
      have hnone : field.named (asked edit) = none := by simpa [Names] using hnot
      rw [lastNamed_snoc, hnone, Option.none_or]

theorem not_names_snoc {after : List (EditingMove ι)}
    (hafter : ∀ move ∈ after, ¬ Names field asked move) (hnot : ¬ Names field asked move) :
    ∀ later ∈ after ++ [move], ¬ Names field asked later :=
  List.forall_mem_append.mpr ⟨hafter, List.forall_mem_singleton.mpr hnot⟩

theorem Stale.snoc (hstale : Stale field asked edit moves) (hnot : ¬ Names field asked move) :
    Stale field asked edit (moves ++ [move]) := by
  obtain ⟨before, between, other, after, rfl, hnamed, hafter⟩ := hstale
  exact ⟨before, between, other, after ++ [move], by simp, hnamed, not_names_snoc hafter hnot⟩

theorem stale_of_read (hread : .read edit ∈ moves)
    (hnamed : (field.named (asked other)).isSome = true) :
    Stale field asked edit (moves ++ [.write other]) := by
  obtain ⟨before, between, rfl⟩ := List.append_of_mem hread
  exact ⟨before, between, other, [], by simp, hnamed, by simp⟩

theorem Overtaken.snoc (hovertaken : Overtaken field asked moves)
    (hnot : ¬ Names field asked move) : Overtaken field asked (moves ++ [move]) := by
  obtain ⟨before, edit, after, rfl, hnone, hstale, hafter⟩ := hovertaken
  exact ⟨before, edit, after ++ [move], by simp, hnone, hstale, not_names_snoc hafter hnot⟩

theorem Stale.overtaken (hstale : Stale field asked edit moves)
    (hnone : field.named (asked edit) = none) :
    Overtaken field asked (moves ++ [.write edit]) :=
  ⟨moves, edit, [], rfl, hnone, hstale, by simp⟩

end History

/-! ## The invariant -/

/-- A value is what was asked for, or the field was overtaken. -/
def Fitting (field : SpecField) (asked : ι → Edit) (original : AtSpec)
    (moves : List (EditingMove ι)) (spec : AtSpec) : Prop :=
  field.of spec = (lastNamed field asked moves).getD (field.of original) ∨
    Overtaken field asked moves

omit [DecidableEq ι] in
theorem Fitting.snoc {field : SpecField} {asked : ι → Edit} {original spec : AtSpec}
    {moves : List (EditingMove ι)} {move : EditingMove ι}
    (hfits : Fitting field asked original moves spec) (hnot : ¬ Names field asked move) :
    Fitting field asked original (moves ++ [move]) spec := by
  rcases hfits with hvalue | hovertaken
  · left
    rw [lastNamed_snoc_of_not_names hnot]
    exact hvalue
  · exact Or.inr (hovertaken.snoc hnot)

structure Sound (key : ObjectKey) (asked : ι → Edit) (field : SpecField) (original : AtSpec)
    (moves : List (EditingMove ι)) (editing : Editing ι) : Prop where
  store : editing.store.Intact
  stored : ∃ resource, editing.store.getAt key = .ok resource ∧
    Fitting field asked original moves resource.spec
  held : ∀ edit spec, editing.stages edit = .holding spec →
    .read edit ∈ moves ∧
      (Fitting field asked original moves spec ∨ Stale field asked edit moves)
  failed : ∀ edit fault, editing.stages edit = .failed fault → (asked edit).check = .error fault

section Steps

variable {key : ObjectKey} {asked : ι → Edit} {field : SpecField} {original : AtSpec}
  {moves : List (EditingMove ι)} {editing next : Editing ι} {edit : ι}

omit [DecidableEq ι] in
theorem begin_of_read {store : Store} {resource : At} (hread : store.getAt key = .ok resource)
    (change : Edit) :
    EditStage.begin store key change = .holding resource.spec ∨
      ∃ fault, change.check = .error fault ∧ EditStage.begin store key change = .failed fault := by
  unfold EditStage.begin
  rw [hread]
  cases hcheck : change.check with
  | ok checked => exact Or.inl rfl
  | error fault => exact Or.inr ⟨fault, rfl, rfl⟩

omit [DecidableEq ι] in
/-- What is held stays what it was, or becomes stale. -/
theorem Sound.held_snoc (hsound : Sound key asked field original moves editing)
    {move : EditingMove ι} {spec : AtSpec} (hheld : editing.stages edit = .holding spec) :
    .read edit ∈ moves ++ [move] ∧
      (Fitting field asked original (moves ++ [move]) spec ∨
        Stale field asked edit (moves ++ [move])) := by
  obtain ⟨hread, hfits⟩ := hsound.held edit spec hheld
  refine ⟨List.mem_append_left _ hread, ?_⟩
  by_cases hnames : Names field asked move
  · cases move with
    | write other => exact Or.inr (stale_of_read hread hnames)
    | read other => exact absurd hnames id
    | other request => exact absurd hnames id
  · exact hfits.imp (fun h => h.snoc hnames) fun h => h.snoc hnames

theorem Sound.afterRead (hsound : Sound key asked field original moves editing) :
    Sound key asked field original (moves ++ [.read edit])
      { editing with
        stages := Function.update editing.stages edit
          (EditStage.begin editing.store key (asked edit)) } := by
  obtain ⟨resource, hread, hfits⟩ := hsound.stored
  have hnot : ¬ Names field asked (.read edit) := id
  have hstored : Fitting field asked original (moves ++ [.read edit]) resource.spec :=
    hfits.snoc hnot
  have hbegin := begin_of_read hread (asked edit)
  refine ⟨hsound.store, ⟨resource, hread, hstored⟩, ?_, ?_⟩
  · intro other spec hother
    rcases update_cases hother with ⟨rfl, hstage⟩ | ⟨-, hbefore⟩
    · rcases hbegin with hholding | ⟨fault, -, hfailed⟩
      · rw [hholding, EditStage.holding.injEq] at hstage
        subst hstage
        exact ⟨by simp, Or.inl hstored⟩
      · rw [hfailed] at hstage
        cases hstage
    · exact hsound.held_snoc hbefore
  · intro other fault hother
    rcases update_cases hother with ⟨rfl, hstage⟩ | ⟨-, hbefore⟩
    · rcases hbegin with hholding | ⟨found, hcheck, hfailed⟩
      · rw [hholding] at hstage
        cases hstage
      · rw [hfailed, EditStage.failed.injEq] at hstage
        rw [hcheck, hstage]
    · exact hsound.failed other fault hbefore

omit [DecidableEq ι] in
theorem Sound.fitting_write (hsound : Sound key asked field original moves editing)
    {spec : AtSpec} (hheld : editing.stages edit = .holding spec) :
    Fitting field asked original (moves ++ [.write edit]) ((asked edit).apply spec) := by
  have hvalue := field.of_apply (asked edit) spec
  cases hnamed : field.named (asked edit) with
  | some value =>
      left
      rw [hvalue, lastNamed_snoc, hnamed]
      rfl
  | none =>
      rw [hnamed, Option.getD_none] at hvalue
      have hnot : ¬ Names field asked (.write edit) := by simp [Names, hnamed]
      rcases (hsound.held edit spec hheld).2 with (hfits | hovertaken) | hstale
      · left
        rw [hvalue, lastNamed_snoc_of_not_names hnot]
        exact hfits
      · exact Or.inr (hovertaken.snoc hnot)
      · exact Or.inr (hstale.overtaken hnamed)

theorem Sound.afterWrite (hsound : Sound key asked field original moves editing)
    {spec : AtSpec} (hheld : editing.stages edit = .holding spec)
    (hnext : next = ⟨(editing.store.updateAtSpec key ((asked edit).apply spec)).store,
      Function.update editing.stages edit (EditStage.ofAnswer
        (editing.store.updateAtSpec key ((asked edit).apply spec)).answer)⟩) :
    Sound key asked field original (moves ++ [.write edit]) next := by
  obtain ⟨resource, hread, -⟩ := hsound.stored
  obtain ⟨updated, hanswer, hstored, hspec⟩ :=
    Store.updateAtSpec_of_read hread ((asked edit).apply spec)
  rw [hanswer] at hnext
  subst hnext
  refine ⟨hsound.store.updateAtSpec key _, ⟨updated, hstored, ?_⟩, ?_, ?_⟩
  · rw [hspec]
    exact hsound.fitting_write hheld
  · intro other held hother
    rcases update_cases hother with ⟨-, hstage⟩ | ⟨-, hbefore⟩
    · cases hstage
    · exact hsound.held_snoc hbefore
  · intro other fault hother
    rcases update_cases hother with ⟨-, hstage⟩ | ⟨-, hbefore⟩
    · cases hstage
    · exact hsound.failed other fault hbefore

omit [DecidableEq ι] in
theorem Sound.afterOther (hsound : Sound key asked field original moves editing)
    {request : TimedCall} (hspares : request.call.spares key = true) :
    Sound key asked field original (moves ++ [.other request])
      { editing with store := (editing.store.serve request.now request.call).store } := by
  obtain ⟨resource, hread, hfits⟩ := hsound.stored
  obtain ⟨later, hlater, hspec⟩ := hsound.store.spec_serve hread request.now hspares
  refine ⟨hsound.store.serve request.now request.call, ⟨later, hlater, ?_⟩, ?_, hsound.failed⟩
  · have hnot : ¬ Names field asked (.other request) := id
    rw [hspec]
    exact hfits.snoc hnot
  · intro other held hother
    exact hsound.held_snoc hother

theorem Sound.step {move : EditingMove ι} (hsound : Sound key asked field original moves editing)
    (hstep : editing.step? key asked move = some next) :
    Sound key asked field original (moves ++ [move]) next := by
  cases move with
  | read edit =>
      simp only [step?] at hstep
      split at hstep
      next hidle =>
        cases hstep
        exact hsound.afterRead
      next => cases hstep
  | write edit =>
      simp only [step?] at hstep
      split at hstep
      next spec hheld =>
        cases hstep
        exact hsound.afterWrite hheld rfl
      next => cases hstep
  | other request =>
      simp only [step?] at hstep
      split at hstep
      next hspares =>
        cases hstep
        exact hsound.afterOther hspares
      next => cases hstep

end Steps

/-! ## Runs -/

/-- After any edits of a stored command a field is what the last edit has named
that names it, or it was overtaken; and an edit that is in order does not fail. -/
theorem field_last_named_or_overtaken {key : ObjectKey} {asked : ι → Edit} {start : Store}
    {requests : List TimedCall} {original : At} {moves : List (EditingMove ι)}
    {editing : Editing ι} (hstart : play Store.handle? {} requests = some start)
    (hread : start.getAt key = .ok original)
    (hplay : play (step? key asked) { store := start } moves = some editing) :
    ∃ stored, editing.store.getAt key = .ok stored ∧
      (∀ field : SpecField,
        field.of stored.spec = (lastNamed field asked moves).getD (field.of original.spec) ∨
          Overtaken field asked moves) ∧
      ∀ edit fault, editing.stages edit = .failed fault → (asked edit).check = .error fault := by
  have hintact : start.Intact := Store.intact_of_play hstart
  have hsound : ∀ field, Sound key asked field original.spec moves editing := by
    intro field
    refine play_records (P := Sound key asked field original.spec) ?_ ?_ hplay
    · exact ⟨hintact, ⟨original, hread, Or.inl rfl⟩, by simp, by simp⟩
    · intro earlier config move next hearlier hbefore hstep
      exact hbefore.step hstep
  obtain ⟨stored, hstored, -⟩ := (hsound .schedule).stored
  refine ⟨stored, hstored, fun field => ?_, (hsound .schedule).failed⟩
  obtain ⟨found, hfound, hfits⟩ := (hsound field).stored
  rw [hstored, Except.ok.injEq] at hfound
  exact hfound ▸ hfits

/-- Two edits that name the schedule overlap. -/
theorem field_last_named_of_overlapping_edits :
    let now : DateTime := ⟨⟨2024, 1, 2⟩, 0, 0, 0, 0, some 0⟩
    let resource : At := { metadata := { name := "a" }, spec := ⟨"2024-01-01T00:00:00Z", "echo"⟩ }
    let asked : Bool → Edit := fun edit =>
      if edit then ⟨some "2030-01-01T00:00:00Z", none⟩
      else ⟨some "2031-01-01T00:00:00Z", some "ls"⟩
    let moves : List (EditingMove Bool) :=
      [.read true, .read false, .write false, .other ⟨now, .listAts none⟩, .write true]
    ∃ start editing stored, play Store.handle? {} [⟨now, .createAt resource⟩] = some start ∧
      play (step? resource.key asked) { store := start } moves = some editing ∧
      editing.store.getAt resource.key = .ok stored ∧
      stored.spec.schedule = "2030-01-01T00:00:00Z" := by
  intro now resource asked moves
  let start : Store := { ats := [resource.row "uid-1" now], issued := 1 }
  have hstart : play Store.handle? {} [⟨now, .createAt resource⟩] = some start := by
    decide +kernel
  have hread : start.getAt resource.key = .ok (resource.stored "uid-1" now) := by decide +kernel
  obtain ⟨editing, hplay⟩ : ∃ editing, play (step? resource.key asked) { store := start } moves =
      some editing := Option.isSome_iff_exists.mp (by decide +kernel)
  obtain ⟨stored, hstored, hfields, -⟩ := field_last_named_or_overtaken hstart hread hplay
  refine ⟨start, editing, stored, hstart, hplay, hstored, ?_⟩
  rcases hfields .schedule with hvalue | ⟨before, edit, after, -, hnone, -⟩
  · have hnamed : lastNamed .schedule asked moves = some "2030-01-01T00:00:00Z" := rfl
    rw [hnamed] at hvalue
    exact hvalue
  · cases edit <;> cases hnone

/-- One edit names the schedule, the other one the command line, and both have
read before either writes. -/
theorem field_lost_to_overlapping_edit :
    ¬ ∀ (key : ObjectKey) (asked : Bool → Edit) (start : Store) (requests : List TimedCall)
      (original stored : At) (moves : List (EditingMove Bool)) (editing : Editing Bool),
      play Store.handle? {} requests = some start → start.getAt key = .ok original →
      play (step? key asked) { store := start } moves = some editing →
      (∀ edit, ∃ resource, editing.stages edit = .returned resource) →
      editing.store.getAt key = .ok stored →
        ∀ field : SpecField,
          field.of stored.spec = (lastNamed field asked moves).getD (field.of original.spec) := by
  intro hkept
  let now : DateTime := ⟨⟨2024, 1, 2⟩, 0, 0, 0, 0, some 0⟩
  let resource : At := { metadata := { name := "a" }, spec := ⟨"2024-01-01T00:00:00Z", "echo"⟩ }
  let asked : Bool → Edit := fun edit =>
    if edit then ⟨some "2030-01-01T00:00:00Z", none⟩ else ⟨none, some "ls"⟩
  let moves : List (EditingMove Bool) := [.read true, .read false, .write true, .write false]
  let start : Store := { ats := [resource.row "uid-1" now], issued := 1 }
  let version : String → Metadata := fun version =>
    { (resource.stored "uid-1" now).metadata with resourceVersion := version }
  let first : At := ⟨version "2", ⟨"2030-01-01T00:00:00Z", "echo"⟩, ""⟩
  let second : At := ⟨version "3", ⟨"2024-01-01T00:00:00Z", "ls"⟩, ""⟩
  have hstart : play Store.handle? {} [⟨now, .createAt resource⟩] = some start := by
    decide +kernel
  have hread : start.getAt resource.key = .ok (resource.stored "uid-1" now) := by decide +kernel
  obtain ⟨editing, hplay, hreturned, hstored⟩ :
      ∃ editing ∈ play (step? resource.key asked) { store := start } moves,
        (editing.stages true = .returned first ∧ editing.stages false = .returned second) ∧
          editing.store.getAt resource.key = .ok second := by
    decide +kernel
  have hall : ∀ edit, ∃ resource, editing.stages edit = .returned resource := by
    intro edit
    cases edit with
    | true => exact ⟨first, hreturned.1⟩
    | false => exact ⟨second, hreturned.2⟩
  have hvalue := hkept resource.key asked start _ _ second moves editing hstart hread hplay hall
    hstored .schedule
  exact absurd hvalue (by decide)

end Editing

end Operations

end OneShot
