import OneShot.Wire.Model
import OneShot.Proofs.Calendar.Stamps

/-!
# What a reading tells of a payload

A payload that was read as a model is an object, and each part of the model was
read from the members of that object.
-/

namespace OneShot.Wire

open Calendar

variable {α β : Type}

namespace Checked

theorem map_eq_valid {f : α → β} {checked : Checked α} {result : β} :
    f <$> checked = valid result ↔ ∃ value, checked = valid value ∧ f value = result := by
  constructor
  · intro hread
    cases checked with
    | valid value =>
        cases hread
        exact ⟨value, rfl, rfl⟩
    | invalid faults => cases hread
  · rintro ⟨value, rfl, rfl⟩
    rfl

theorem seq_eq_valid {function : Checked (α → β)} {checked : Checked α} {result : β} :
    function <*> checked = valid result ↔
      ∃ f, function = valid f ∧ ∃ value, checked = valid value ∧ f value = result := by
  constructor
  · intro hread
    cases function with
    | valid f =>
        cases checked with
        | valid value =>
            cases hread
            exact ⟨f, rfl, value, rfl, rfl⟩
        | invalid faults => cases hread
    | invalid faults =>
        cases checked with
        | valid value => cases hread
        | invalid more => cases hread
  · rintro ⟨f, rfl, value, rfl, rfl⟩
    rfl

theorem under_eq_valid {step : Step} {checked : Checked α} {value : α} :
    checked.under step = valid value ↔ checked = valid value := by
  cases checked with
  | valid found => rfl
  | invalid faults => simp [under]

end Checked

/-! ## Members -/

variable {name : MemberName} {members : Members} {read : Json → Checked α} {value fallback : α}
  {found : Option α} {json : Json}

/-- The name on the wire goes before the other one. -/
theorem find?_of_get? (hget : Assoc.get? members name.wire = some json) :
    name.find? members = some json := by
  simp [MemberName.find?, MemberName.given?, hget]

theorem read_of_required (hread : required name read members = .valid value)
    (hget : Assoc.get? members name.wire = some json) : read json = .valid value := by
  rw [required, find?_of_get? hget] at hread
  exact Checked.under_eq_valid.mp hread

theorem read_of_defaulted (hread : defaulted name fallback read members = .valid value)
    (hget : Assoc.get? members name.wire = some json) : read json = .valid value := by
  rw [defaulted, find?_of_get? hget] at hread
  exact Checked.under_eq_valid.mp hread

theorem read_of_nullable (hread : nullable read json = .valid found) (hjson : json.isNull = false) :
    ∃ value, found = some value ∧ read json = .valid value := by
  cases json with
  | null => cases hjson
  | _ =>
      obtain ⟨value, hvalue, rfl⟩ := Checked.map_eq_valid.mp hread
      exact ⟨value, rfl, hvalue⟩

theorem read_of_optional (hread : optional name read members = .valid found)
    (hget : Assoc.get? members name.wire = some json) (hjson : json.isNull = false) :
    ∃ value, found = some value ∧ read json = .valid value :=
  read_of_nullable (read_of_defaulted hread hget) hjson

theorem exists_of_required (hread : required name read members = .valid value) :
    ∃ json, read json = .valid value := by
  unfold required at hread
  split at hread
  next json hfind => exact ⟨json, Checked.under_eq_valid.mp hread⟩
  next => cases hread

theorem exists_of_optional (hread : optional name read members = .valid (some value)) :
    ∃ json, read json = .valid value := by
  unfold optional defaulted at hread
  split at hread
  next json hfind =>
    have hnullable := Checked.under_eq_valid.mp hread
    cases hjson : json.isNull with
    | true =>
        cases json with
        | null => cases hnullable
        | _ => cases hjson
    | false =>
        obtain ⟨found, hfound, hvalue⟩ := read_of_nullable hnullable hjson
        cases hfound
        exact ⟨json, hvalue⟩
  next => cases hread

theorem proper_of_readMoment {moment : DateTime} (hread : readMoment json = .valid moment) :
    moment.Proper := by
  unfold readMoment at hread
  split at hread
  next text =>
    split at hread
    next found hfound =>
      cases hread
      exact Stamp.proper_of_read? hfound
    next => cases hread
  next count =>
    split at hread
    next found hfound =>
      cases hread
      exact Stamp.proper_of_ofCount? hfound
    next => cases hread
  next count =>
    split at hread
    next found hfound =>
      cases hread
      exact Stamp.proper_of_ofFloat? hfound
    next => cases hread
  next => cases hread

/-! ## Models -/

/-- A payload of a model is an object. -/
theorem readModel_eq_valid {readMembers : Members → Checked α} {payload : Json}
    (hread : readModel readMembers payload = .valid value) :
    ∃ members, payload = .obj members ∧ readMembers members = .valid value := by
  cases payload with
  | obj members => exact ⟨members, rfl, hread⟩
  | _ => cases hread

/-- A model of five members comes from the readings of each of them. -/
theorem readModel_five {α₁ α₂ α₃ α₄ α₅ : Type} {first : Members → Checked α₁}
    {second : Members → Checked α₂} {third : Members → Checked α₃} {fourth : Members → Checked α₄}
    {fifth : Members → Checked α₅} {make : Members → α₁ → α₂ → α₃ → α₄ → α₅ → α} {payload : Json}
    (hread : readModel (fun members => make members <$> first members <*> second members
      <*> third members <*> fourth members <*> fifth members) payload = .valid value) :
    ∃ members, payload = .obj members ∧ ∃ part₁ part₂ part₃ part₄ part₅,
      value = make members part₁ part₂ part₃ part₄ part₅ ∧
        first members = .valid part₁ ∧ second members = .valid part₂ ∧
        third members = .valid part₃ ∧ fourth members = .valid part₄ ∧
        fifth members = .valid part₅ := by
  obtain ⟨members, rfl, hmembers⟩ := readModel_eq_valid hread
  simp only [Checked.seq_eq_valid, Checked.map_eq_valid] at hmembers
  obtain ⟨_, ⟨_, ⟨_, ⟨_, ⟨part₁, hfirst, rfl⟩, part₂, hsecond, rfl⟩, part₃, hthird, rfl⟩, part₄,
    hfourth, rfl⟩, part₅, hfifth, rfl⟩ := hmembers
  exact ⟨members, rfl, part₁, part₂, part₃, part₄, part₅, rfl, hfirst, hsecond, hthird, hfourth,
    hfifth⟩

/-- Metadata was read from these members. -/
structure MetaModel.ReadFrom (model : MetaModel) (members : Members) : Prop where
  name : required "name" readText members = .valid model.name
  ns : optional "namespace" readText members = .valid model.ns
  uid : optional "uid" readText members = .valid model.uid
  version : optional versionName readText members = .valid model.resourceVersion
  created : optional createdName readMoment members = .valid model.created
  labels : optional "labels" readMap members = .valid model.labels
  owners : optional ownersName (readList OwnerModel.read) members = .valid model.owners

theorem MetaModel.readFrom {payload : Json} {model : MetaModel}
    (hread : MetaModel.read payload = .valid model) :
    ∃ members, payload = .obj members ∧ model.ReadFrom members := by
  obtain ⟨members, rfl, hmembers⟩ := readModel_eq_valid hread
  simp only [Checked.seq_eq_valid, Checked.map_eq_valid] at hmembers
  obtain ⟨_, ⟨_, ⟨_, ⟨_, ⟨_, ⟨_, ⟨name, hname, rfl⟩, ns, hns, rfl⟩, uid, huid, rfl⟩, version,
    hversion, rfl⟩, created, hcreated, rfl⟩, labels, hlabels, rfl⟩, owners, howners, rfl⟩ :=
    hmembers
  exact ⟨members, rfl, hname, hns, huid, hversion, hcreated, hlabels, howners⟩

theorem MetaModel.ReadFrom.proper {model : MetaModel} (hread : model.ReadFrom members) :
    ∀ moment ∈ model.created, moment.Proper := by
  intro moment hmoment
  have hcreated := hread.created
  rw [Option.mem_def.mp hmoment] at hcreated
  obtain ⟨json, hjson⟩ := exists_of_optional hcreated
  exact proper_of_readMoment hjson

structure OwnerModel.ReadFrom (model : OwnerModel) (members : Members) : Prop where
  apiVersion : required apiVersionName readText members = .valid model.apiVersion
  kind : required "kind" readText members = .valid model.kind
  name : required "name" readText members = .valid model.name
  uid : required "uid" readText members = .valid model.uid
  controller : optional "controller" readFlag members = .valid model.controller
  block : optional blockName readFlag members = .valid model.blockOwnerDeletion

theorem OwnerModel.readFrom {payload : Json} {model : OwnerModel}
    (hread : OwnerModel.read payload = .valid model) :
    ∃ members, payload = .obj members ∧ model.ReadFrom members := by
  obtain ⟨members, rfl, hmembers⟩ := readModel_eq_valid hread
  simp only [Checked.seq_eq_valid, Checked.map_eq_valid] at hmembers
  obtain ⟨_, ⟨_, ⟨_, ⟨_, ⟨_, ⟨version, hversion, rfl⟩, kind, hkind, rfl⟩, name, hname, rfl⟩, uid,
    huid, rfl⟩, controller, hcontroller, rfl⟩, block, hblock, rfl⟩ := hmembers
  exact ⟨members, rfl, hversion, hkind, hname, huid, hcontroller, hblock⟩

structure AtModel.ReadFrom (model : AtModel) (members : Members) : Prop where
  apiVersion : optional apiVersionName readText members = .valid model.apiVersion
  kind : defaulted "kind" "At" readText members = .valid model.kind
  metadata : required "metadata" MetaModel.read members = .valid model.metadata
  spec : defaulted "spec" {} AtSpecModel.read members = .valid model.spec
  status : defaulted "status" {} AtStatusModel.read members = .valid model.status

theorem AtModel.readFrom {payload : Json} {model : AtModel}
    (hread : AtModel.read payload = .valid model) :
    ∃ members, payload = .obj members ∧ model.ReadFrom members := by
  obtain ⟨members, rfl, _, _, _, _, _, rfl, hversion, hkind, hmetadata, hspec, hstatus⟩ :=
    readModel_five hread
  exact ⟨members, rfl, hversion, hkind, hmetadata, hspec, hstatus⟩

structure PodModel.ReadFrom (model : PodModel) (members : Members) : Prop where
  apiVersion : defaulted apiVersionName "v1" readText members = .valid model.apiVersion
  kind : defaulted "kind" "Pod" readText members = .valid model.kind
  metadata : required "metadata" MetaModel.read members = .valid model.metadata
  spec : required "spec" PodSpecModel.read members = .valid model.spec
  status : optional "status" PodStatusModel.read members = .valid model.status

theorem PodModel.readFrom {payload : Json} {model : PodModel}
    (hread : PodModel.read payload = .valid model) :
    ∃ members, payload = .obj members ∧ model.ReadFrom members := by
  obtain ⟨members, rfl, _, _, _, _, _, rfl, hversion, hkind, hmetadata, hspec, hstatus⟩ :=
    readModel_five hread
  exact ⟨members, rfl, hversion, hkind, hmetadata, hspec, hstatus⟩

structure PodSpecModel.ReadFrom (model : PodSpecModel) (members : Members) : Prop where
  containers : required "containers" (readList ContainerModel.read) members =
    .valid model.containers
  restartPolicy : optional policyName readText members = .valid model.restartPolicy

theorem PodSpecModel.readFrom {payload : Json} {model : PodSpecModel}
    (hread : PodSpecModel.read payload = .valid model) :
    ∃ members, payload = .obj members ∧ model.ReadFrom members := by
  obtain ⟨members, rfl, hmembers⟩ := readModel_eq_valid hread
  simp only [Checked.seq_eq_valid, Checked.map_eq_valid] at hmembers
  obtain ⟨_, ⟨containers, hcontainers, rfl⟩, policy, hpolicy, rfl⟩ := hmembers
  exact ⟨members, rfl, hcontainers, hpolicy⟩

structure ContainerModel.ReadFrom (model : ContainerModel) (members : Members) : Prop where
  name : required "name" readText members = .valid model.name
  image : required "image" readText members = .valid model.image
  command : defaulted "command" [] (readList readText) members = .valid model.command

theorem ContainerModel.readFrom {payload : Json} {model : ContainerModel}
    (hread : ContainerModel.read payload = .valid model) :
    ∃ members, payload = .obj members ∧ model.ReadFrom members := by
  obtain ⟨members, rfl, hmembers⟩ := readModel_eq_valid hread
  simp only [Checked.seq_eq_valid, Checked.map_eq_valid] at hmembers
  obtain ⟨_, ⟨_, ⟨name, hname, rfl⟩, image, himage, rfl⟩, command, hcommand, rfl⟩ := hmembers
  exact ⟨members, rfl, hname, himage, hcommand⟩

end OneShot.Wire
