import OneShot.Wire.Translate
import OneShot.Proofs.Calendar.Stamps
import OneShot.Proofs.Store.Columns
import OneShot.Proofs.Wire.Members
import OneShot.Proofs.Wire.Readings

/-!
# Resources that come back from the wire

A scheduled command is read back from its payload as it was, and a task as it
was but for its status, which is left to the server.  Empty texts and collections
are left out on the way and filled in again.
-/

namespace OneShot.Wire

open Calendar

/-! ## Models -/

theorem readText_str (text : String) : readText (.str text) = .valid text := rfl

theorem readFlag_bool (flag : Bool) : readFlag (.bool flag) = .valid flag := rfl

theorem readMoment_text {moment : DateTime} (hmoment : moment.Proper) :
    readMoment (.str (Stamp.text moment)) = .valid moment := by
  simp [readMoment, Stamp.read?_text hmoment]

theorem readMap_writeMap (entries : List (String × String)) :
    readMap (MetaModel.writeMap entries) = .valid entries := by
  unfold MetaModel.writeMap readMap
  induction entries with
  | nil => rfl
  | cons entry rest ih =>
      simp only [List.map_cons, readEntries, readText_str, Checked.under_valid, Checked.map_valid]
      simp only [ih, Checked.seq_valid]

namespace OwnerModel

def names : List MemberName :=
  [apiVersionName, "kind", "name", "uid", "controller", blockName]

def table (model : OwnerModel) : List (String × Option Json) :=
  [("apiVersion", some (.str model.apiVersion)), ("kind", some (.str model.kind)),
    ("name", some (.str model.name)), ("uid", some (.str model.uid)),
    ("controller", model.controller.map .bool),
    ("blockOwnerDeletion", model.blockOwnerDeletion.map .bool)]

theorem tabled (model : OwnerModel) : Tabled names model.table where
  wires := rfl
  nodup := by decide
  plain := by decide

theorem read_write {model : OwnerModel} (hothers : model.others = []) :
    read model.write = .valid model := by
  have htable := model.tabled
  have hleft := htable.leftOver
  have hversion := htable.required apiVersionName (by simp [names]) (by rfl)
    (readText_str model.apiVersion)
  have hkind := htable.required "kind" (by simp [names]) (by rfl) (readText_str model.kind)
  have hname := htable.required "name" (by simp [names]) (by rfl) (readText_str model.name)
  have huid := htable.required "uid" (by simp [names]) (by rfl) (readText_str model.uid)
  have hcontroller := htable.optional "controller" (by simp [names]) (by rfl)
    (fun flag _ => ⟨rfl, readFlag_bool flag⟩)
  have hblock := htable.optional blockName (by simp [names]) (by rfl)
    (fun flag _ => ⟨rfl, readFlag_bool flag⟩)
  simp only [names] at hleft
  rw [write, hothers, written_nil, ← table]
  simp only [read, readModel, hversion, hkind, hname, huid, hcontroller, hblock, hleft,
    Checked.map_valid, Checked.seq_valid]
  rw [← hothers]

end OwnerModel

namespace MetaModel

def names : List MemberName :=
  ["name", "namespace", "uid", versionName, createdName, "labels", ownersName]

def table (model : MetaModel) : List (String × Option Json) :=
  [("name", some (.str model.name)), ("namespace", model.ns.map .str),
    ("uid", model.uid.map .str), ("resourceVersion", model.resourceVersion.map .str),
    ("creationTimestamp", model.created.map fun moment => .str (Stamp.text moment)),
    ("labels", model.labels.map writeMap),
    ("ownerReferences", model.owners.map fun owners => .arr (owners.map OwnerModel.write))]

theorem tabled (model : MetaModel) : Tabled names model.table where
  wires := rfl
  nodup := by decide
  plain := by decide

/-- Metadata with modelled members only, created at a moment that can be written. -/
structure Plain (model : MetaModel) : Prop where
  others : model.others = []
  owners : ∀ owners ∈ model.owners, ∀ owner ∈ owners, owner.others = []
  created : ∀ moment ∈ model.created, moment.Proper

theorem read_write {model : MetaModel} (hplain : model.Plain) :
    read model.write = .valid model := by
  have htable := model.tabled
  have hleft := htable.leftOver
  have hname := htable.required "name" (by simp [names]) (by rfl) (readText_str model.name)
  have hns := htable.optional "namespace" (by simp [names]) (by rfl)
    (fun text _ => ⟨rfl, readText_str text⟩)
  have huid := htable.optional "uid" (by simp [names]) (by rfl)
    (fun text _ => ⟨rfl, readText_str text⟩)
  have hversion := htable.optional versionName (by simp [names]) (by rfl)
    (fun text _ => ⟨rfl, readText_str text⟩)
  have hcreated := htable.optional createdName (by simp [names]) (by rfl)
    (fun moment hmoment => ⟨rfl, readMoment_text (hplain.created moment hmoment)⟩)
  have hlabels := htable.optional "labels" (by simp [names]) (by rfl)
    (fun entries _ => ⟨rfl, readMap_writeMap entries⟩)
  have howners := htable.optional ownersName (by simp [names]) (by rfl)
    (fun owners howners => ⟨rfl, readList_map owners
      fun owner howner => OwnerModel.read_write (hplain.owners owners howners owner howner)⟩)
  simp only [names] at hleft
  rw [write, hplain.others, written_nil, ← table]
  simp only [read, readModel, hname, hns, huid, hversion, hcreated, hlabels, howners, hleft,
    Checked.map_valid, Checked.seq_valid]
  rw [← hplain.others]

end MetaModel

namespace AtSpecModel

def table (model : AtSpecModel) : List (String × Option Json) :=
  [("schedule", some (.str model.schedule)), ("command", some (.str model.command))]

theorem tabled (model : AtSpecModel) : Tabled ["schedule", "command"] model.table where
  wires := rfl
  nodup := by decide
  plain := by decide

theorem read_write {model : AtSpecModel} (hothers : model.others = []) :
    read model.write = .valid model := by
  have htable := model.tabled
  have hschedule := htable.defaulted "schedule" "" (by simp) (by rfl) (readText_str model.schedule)
  have hcommand := htable.defaulted "command" "" (by simp) (by rfl) (readText_str model.command)
  rw [write, hothers, written_nil, ← table]
  simp only [read, readModel, hschedule, hcommand, htable.leftOver, Checked.map_valid,
    Checked.seq_valid]
  rw [← hothers]

end AtSpecModel

theorem AtStatusModel.read_write {model : AtStatusModel} (hothers : model.others = []) :
    read model.write = .valid model := by
  have htable : Tabled ["phase"] [("phase", some (.str model.phase))] :=
    ⟨rfl, by decide, by decide⟩
  have hphase := htable.defaulted "phase" "" (by simp) (by rfl) (readText_str model.phase)
  rw [write, hothers, written_nil]
  simp only [read, readModel, hphase, htable.leftOver, Checked.map_valid]
  rw [← hothers]

namespace AtModel

def names : List MemberName :=
  [apiVersionName, "kind", "metadata", "spec", "status"]

def table (model : AtModel) : List (String × Option Json) :=
  [("apiVersion", model.apiVersion.map .str), ("kind", some (.str model.kind)),
    ("metadata", some model.metadata.write), ("spec", some model.spec.write),
    ("status", some model.status.write)]

theorem tabled (model : AtModel) : Tabled names model.table where
  wires := rfl
  nodup := by decide
  plain := by decide

theorem read_write {model : AtModel} (hmetadata : model.metadata.Plain)
    (hspec : model.spec.others = []) (hstatus : model.status.others = [])
    (hothers : model.others = []) : read model.write = .valid model := by
  have htable := model.tabled
  have hleft := htable.leftOver
  have hversion := htable.optional apiVersionName (by simp [names]) (by rfl)
    (fun text _ => ⟨rfl, readText_str text⟩)
  have hkind := htable.defaulted "kind" "At" (by simp [names]) (by rfl) (readText_str model.kind)
  have hmetadata := htable.required "metadata" (by simp [names]) (by rfl)
    (MetaModel.read_write hmetadata)
  have hspec := htable.defaulted "spec" {} (by simp [names]) (by rfl) (AtSpecModel.read_write hspec)
  have hstatus := htable.defaulted "status" {} (by simp [names]) (by rfl)
    (AtStatusModel.read_write hstatus)
  simp only [names] at hleft
  rw [write, hothers, written_nil, ← table]
  simp only [read, readModel, hversion, hkind, hmetadata, hspec, hstatus, hleft,
    Checked.map_valid, Checked.seq_valid]
  rw [← hothers]

end AtModel

namespace ContainerModel

def table (model : ContainerModel) : List (String × Option Json) :=
  [("name", some (.str model.name)), ("image", some (.str model.image)),
    ("command", some (.arr (model.command.map .str)))]

theorem tabled (model : ContainerModel) : Tabled ["name", "image", "command"] model.table where
  wires := rfl
  nodup := by decide
  plain := by decide

theorem read_write {model : ContainerModel} (hothers : model.others = []) :
    read model.write = .valid model := by
  have htable := model.tabled
  have hname := htable.required "name" (by simp) (by rfl) (readText_str model.name)
  have himage := htable.required "image" (by simp) (by rfl) (readText_str model.image)
  have hcommand := htable.defaulted "command" [] (by simp) (by rfl)
    (readList_map model.command fun word _ => readText_str word)
  rw [write, hothers, written_nil, ← table]
  simp only [read, readModel, hname, himage, hcommand, htable.leftOver, Checked.map_valid,
    Checked.seq_valid]
  rw [← hothers]

end ContainerModel

namespace PodSpecModel

def table (model : PodSpecModel) : List (String × Option Json) :=
  [("containers", some (.arr (model.containers.map ContainerModel.write))),
    ("restartPolicy", model.restartPolicy.map .str)]

theorem tabled (model : PodSpecModel) : Tabled ["containers", policyName] model.table where
  wires := rfl
  nodup := by decide
  plain := by decide

theorem read_write {model : PodSpecModel}
    (hcontainers : ∀ container ∈ model.containers, container.others = [])
    (hothers : model.others = []) : read model.write = .valid model := by
  have htable := model.tabled
  have hcontainers := htable.required "containers" (by simp) (by rfl)
    (readList_map model.containers fun container hcontainer =>
      ContainerModel.read_write (hcontainers container hcontainer))
  have hpolicy := htable.optional policyName (by simp) (by rfl)
    (fun text _ => ⟨rfl, readText_str text⟩)
  rw [write, hothers, written_nil, ← table]
  simp only [read, readModel, hcontainers, hpolicy, htable.leftOver, Checked.map_valid,
    Checked.seq_valid]
  rw [← hothers]

end PodSpecModel

namespace PodModel

def names : List MemberName :=
  [apiVersionName, "kind", "metadata", "spec", "status"]

def table (model : PodModel) : List (String × Option Json) :=
  [("apiVersion", some (.str model.apiVersion)), ("kind", some (.str model.kind)),
    ("metadata", some model.metadata.write), ("spec", some model.spec.write),
    ("status", model.status.map PodStatusModel.write)]

theorem tabled (model : PodModel) : Tabled names model.table where
  wires := rfl
  nodup := by decide
  plain := by decide

theorem read_write {model : PodModel} (hmetadata : model.metadata.Plain)
    (hcontainers : ∀ container ∈ model.spec.containers, container.others = [])
    (hspec : model.spec.others = []) (hstatus : model.status = none)
    (hothers : model.others = []) : read model.write = .valid model := by
  have htable := model.tabled
  have hleft := htable.leftOver
  have hversion := htable.defaulted apiVersionName "v1" (by simp [names])
    (by rfl) (readText_str model.apiVersion)
  have hkind := htable.defaulted "kind" "Pod" (by simp [names]) (by rfl) (readText_str model.kind)
  have hmetadata := htable.required "metadata" (by simp [names]) (by rfl)
    (MetaModel.read_write hmetadata)
  have hspec := htable.required "spec" (by simp [names]) (by rfl)
    (PodSpecModel.read_write hcontainers hspec)
  have hstatus : optional "status" PodStatusModel.read (present model.table) =
      .valid model.status := htable.optional "status" (by simp [names]) (by rfl) (by simp [hstatus])
  simp only [names] at hleft
  rw [write, hothers, written_nil, ← table]
  simp only [read, readModel, hversion, hkind, hmetadata, hspec, hstatus, hleft,
    Checked.map_valid, Checked.seq_valid]
  rw [← hothers]

end PodModel

/-! ## Resources -/

theorem getD_filled? (text : String) : (filled? text).getD "" = text := by
  unfold filled?
  split
  next hempty =>
    have hnone : text = "" := by simpa using hempty
    rw [hnone, Option.getD_none]
  next => rfl

theorem getD_nonempty? {α : Type} (items : List α) : (nonempty? items).getD [] = items := by
  cases items with
  | nil => rfl
  | cons first rest => rfl

theorem OwnerModel.reference_ofReference (reference : OwnerReference) :
    (ofReference reference).reference = reference := rfl

theorem MetaModel.metadata_ofMetadata {metadata : Metadata} (hns : metadata.ns ≠ "")
    (fallback : String) : (ofMetadata metadata).metadata fallback = metadata := by
  have hfilled : (some metadata.ns).bind filled? = some metadata.ns := by simp [filled?, hns]
  have howners : (((nonempty? metadata.owners).map fun owners =>
      owners.map OwnerModel.ofReference).getD []).map OwnerModel.reference = metadata.owners := by
    have hback : OwnerModel.reference ∘ OwnerModel.ofReference = id :=
      funext OwnerModel.reference_ofReference
    cases metadata.owners with
    | nil => rfl
    | cons first rest => simp [nonempty?, hback, OwnerModel.reference_ofReference]
  simp [MetaModel.metadata, ofMetadata, hfilled, getD_filled?, getD_nonempty?, howners]

theorem MetaModel.plain_ofMetadata {metadata : Metadata}
    (hcreated : ∀ moment ∈ metadata.created, moment.Proper) : (ofMetadata metadata).Plain where
  others := rfl
  owners := by
    intro owners howners owner howner
    obtain ⟨references, -, rfl⟩ := Option.map_eq_some_iff.mp howners
    obtain ⟨reference, -, rfl⟩ := List.mem_map.mp howner
    rfl
  created := hcreated

/-- Metadata that a payload can say in full: the namespace is not empty, and the
moment of the creation, if there is one, can be written. -/
structure Sayable (metadata : Metadata) : Prop where
  ns : metadata.ns ≠ ""
  created : ∀ moment ∈ metadata.created, moment.Proper

/-- A scheduled command is read back from its payload as it was. -/
theorem decodeAt_encodeAt {resource : At} (hsayable : Sayable resource.metadata)
    (fallback : String) : decodeAt fallback (encodeAt resource) = .ok resource := by
  have hread : AtModel.read (encodeAt resource) = .valid (AtModel.ofResource resource) :=
    AtModel.read_write (MetaModel.plain_ofMetadata hsayable.created) rfl rfl rfl
  have hmetadata := MetaModel.metadata_ofMetadata hsayable.ns fallback
  simp [decodeAt, hread, AtModel.resource, AtModel.ofResource, hmetadata]

/-- A task is read back from its payload as it was, but for its status. -/
theorem decodeTask_encodeTask {task : Task} (hsayable : Sayable task.metadata)
    (fallback : String) :
    decodeTask fallback (encodeTask task) = .ok { task with status := {} } := by
  have hread : PodModel.read (encodeTask task) = .valid (PodModel.ofTask task) :=
    PodModel.read_write (MetaModel.plain_ofMetadata hsayable.created)
      (by simp [PodModel.ofTask]) rfl rfl rfl
  have hmetadata := MetaModel.metadata_ofMetadata hsayable.ns fallback
  simp [decodeTask, hread, PodModel.task?, PodModel.ofTask, hmetadata, podPolicy,
    RestartPolicy.ofText?_text, PodStatusModel.taskStatus, podPhase]

theorem sayable_of_read {payload : Json} {model : MetaModel} {fallback : String}
    (hread : MetaModel.read payload = .valid model) (hns : (model.metadata fallback).ns ≠ "") :
    Sayable (model.metadata fallback) := by
  obtain ⟨members, -, hfrom⟩ := MetaModel.readFrom hread
  exact ⟨hns, hfrom.proper⟩

theorem exists_of_decodeAt {payload : Json} {fallback : String} {resource : At}
    (hdecode : decodeAt fallback payload = .ok resource) :
    ∃ model, AtModel.read payload = .valid model ∧ resource = model.resource fallback := by
  unfold decodeAt at hdecode
  split at hdecode
  next model hmodel =>
    cases hdecode
    exact ⟨model, hmodel, rfl⟩
  next => cases hdecode

theorem exists_of_decodeTask {payload : Json} {fallback : String} {task : Task}
    (hdecode : decodeTask fallback payload = .ok task) :
    ∃ model, PodModel.read payload = .valid model ∧ model.task? fallback = some task := by
  unfold decodeTask at hdecode
  split at hdecode
  next model hmodel =>
    split at hdecode
    next found hfound =>
      cases hdecode
      exact ⟨model, hmodel, hfound⟩
    next => cases hdecode
  next => cases hdecode

theorem sayable_of_decodeAt {payload : Json} {fallback : String} {resource : At}
    (hdecode : decodeAt fallback payload = .ok resource) (hns : resource.metadata.ns ≠ "") :
    Sayable resource.metadata := by
  obtain ⟨model, hmodel, rfl⟩ := exists_of_decodeAt hdecode
  obtain ⟨members, -, hfrom⟩ := AtModel.readFrom hmodel
  obtain ⟨json, hmetadata⟩ := exists_of_required hfrom.metadata
  exact sayable_of_read hmetadata hns

theorem sayable_of_decodeTask {payload : Json} {fallback : String} {task : Task}
    (hdecode : decodeTask fallback payload = .ok task) (hns : task.metadata.ns ≠ "") :
    Sayable task.metadata := by
  obtain ⟨model, hmodel, htask⟩ := exists_of_decodeTask hdecode
  obtain ⟨container, -, rfl⟩ := Option.map_eq_some_iff.mp htask
  obtain ⟨members, -, hfrom⟩ := PodModel.readFrom hmodel
  obtain ⟨json, hmetadata⟩ := exists_of_required hfrom.metadata
  exact sayable_of_read hmetadata hns

/-- Scheduled commands and tasks come back from the wire as they were, a task without its
status.  So does what was decoded from a payload, whatever the payload says beside it. -/
theorem resources_come_back :
    (∀ (resource : At) (fallback : String), Sayable resource.metadata →
      decodeAt fallback (encodeAt resource) = .ok resource) ∧
    (∀ (task : Task) (fallback : String), Sayable task.metadata →
      decodeTask fallback (encodeTask task) = .ok { task with status := {} }) ∧
    (∀ (payload : Json) (first fallback : String) (resource : At),
      decodeAt first payload = .ok resource → resource.metadata.ns ≠ "" →
        decodeAt fallback (encodeAt resource) = .ok resource) ∧
    ∀ (payload : Json) (first fallback : String) (task : Task),
      decodeTask first payload = .ok task → task.metadata.ns ≠ "" →
        decodeTask fallback (encodeTask task) = .ok { task with status := {} } := by
  refine ⟨?_, ?_, ?_, ?_⟩
  · intro resource fallback hsayable
    exact decodeAt_encodeAt hsayable fallback
  · intro task fallback hsayable
    exact decodeTask_encodeTask hsayable fallback
  · intro payload first fallback resource hdecode hns
    exact decodeAt_encodeAt (sayable_of_decodeAt hdecode hns) fallback
  · intro payload first fallback task hdecode hns
    exact decodeTask_encodeTask (sayable_of_decodeTask hdecode hns) fallback

theorem ok_of_mem_toOption {ε α : Type} {result : Except ε α} {found : α}
    (hfound : found ∈ result.toOption) : result = .ok found := by
  cases result with
  | ok other =>
      cases hfound
      rfl
  | error fault => cases hfound

/-- A command that was created at a moment of another zone, and a pod with members that are not
modelled, a stamp with a blank and a flag in words. -/
theorem resources_come_back_elsewhere :
    let moment : DateTime := ⟨⟨2024, 2, 29⟩, 23, 59, 59, 500000, some (-12600)⟩
    let resource : At :=
      { metadata := { name := "a", created := some moment, labels := [("", "b")] }
        spec := ⟨"soon", ""⟩ }
    let payload : Json := .obj
      [("kind", .str "Pod"),
        ("metadata", .obj
          [("name", .str "a-pod"), ("annotations", .obj [("note", .str "b")]),
            ("creationTimestamp", .str "2026-10-19 13:00:00.5+02:00"), ("uid", .str ""),
            ("labels", .obj [("app", .str "a")]),
            ("ownerReferences", .arr
              [.obj [("apiVersion", .str atApiVersion), ("kind", .str "At"), ("name", .str "a"),
                ("uid", .str "uid-1"), ("controller", .str "yes")]])]),
        ("spec", .obj
          [("containers", .arr
            [.obj [("name", .str "main"), ("image", .str "busybox"),
              ("command", .arr [.str "echo", .str ""])]])]),
        ("status", .obj [("phase", .str "Failed")])]
    Sayable resource.metadata ∧ decodeAt "b" (encodeAt resource) = .ok resource ∧
      ∃ task, decodeTask "team-a" payload = .ok task ∧ task.metadata.ns = "team-a" ∧
        task.status.phase = .failed ∧
        decodeTask "default" (encodeTask task) = .ok { task with status := {} } := by
  intro moment resource payload
  have hmoment : moment.Proper := by
    constructor
    · decide
    · constructor <;> decide
    · rintro shift ⟨rfl⟩
      constructor <;> decide
  have hsayable : Sayable resource.metadata := by
    constructor
    · decide
    · rintro created ⟨rfl⟩
      exact hmoment
  obtain ⟨hresource, -, -, hpayload⟩ := resources_come_back
  obtain ⟨task, hdecode, hns, hphase⟩ : ∃ task ∈ (decodeTask "team-a" payload).toOption,
      task.metadata.ns = "team-a" ∧ task.status.phase = .failed := by decide +kernel
  have hok := ok_of_mem_toOption hdecode
  exact ⟨hsayable, hresource resource "b" hsayable, task, hok, hns, hphase,
    hpayload payload "team-a" "default" task hok (by simp [hns])⟩

end OneShot.Wire
