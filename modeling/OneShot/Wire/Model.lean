import OneShot.Wire.Members
import OneShot.Wire.Scalar

/-!
# Models of payloads

The payloads that are exchanged with an API server.  Each model has a reader
that reports every fault and a printer; members that are not modelled survive
both.
-/

namespace OneShot.Wire

open Calendar

/-! ## Metadata -/

/-- A pointer to an owner. -/
structure OwnerModel where
  apiVersion : String
  kind : String
  name : String
  uid : String
  controller : Option Bool := none
  blockOwnerDeletion : Option Bool := none
  others : Members := []

namespace OwnerModel

/-- The member for the version of the API of the owner. -/
def apiVersionName : MemberName := ⟨"apiVersion", "api_version"⟩

/-- The member that tells whether the owner waits for its dependents. -/
def blockName : MemberName := ⟨"blockOwnerDeletion", "block_owner_deletion"⟩

def read : Json → Checked OwnerModel :=
  readModel fun members =>
    (fun apiVersion kind name uid controller block =>
      { apiVersion, kind, name, uid, controller, blockOwnerDeletion := block,
        others := leftOver [apiVersionName, "kind", "name", "uid", "controller", blockName]
          members })
    <$> required apiVersionName readText members
    <*> required "kind" readText members
    <*> required "name" readText members
    <*> required "uid" readText members
    <*> optional "controller" readFlag members
    <*> optional blockName readFlag members

def write (model : OwnerModel) : Json :=
  written
    [("apiVersion", some (.str model.apiVersion)), ("kind", some (.str model.kind)),
      ("name", some (.str model.name)), ("uid", some (.str model.uid)),
      ("controller", model.controller.map .bool),
      ("blockOwnerDeletion", model.blockOwnerDeletion.map .bool)]
    model.others

end OwnerModel

/-- Identity and ownership. -/
structure MetaModel where
  name : String
  ns : Option String := none
  uid : Option String := none
  resourceVersion : Option String := none
  created : Option DateTime := none
  labels : Option (List (String × String)) := none
  owners : Option (List OwnerModel) := none
  others : Members := []

namespace MetaModel

/-- The member for the version of the object. -/
def versionName : MemberName := ⟨"resourceVersion", "resource_version"⟩

/-- The member for the moment of the creation. -/
def createdName : MemberName := ⟨"creationTimestamp", "creation_timestamp"⟩

def ownersName : MemberName := ⟨"ownerReferences", "owner_references"⟩

def read : Json → Checked MetaModel :=
  readModel fun members =>
    (fun name ns uid resourceVersion created labels owners =>
      { name, ns, uid, resourceVersion, created, labels, owners,
        others := leftOver
          ["name", "namespace", "uid", versionName, createdName, "labels", ownersName] members })
    <$> required "name" readText members
    <*> optional "namespace" readText members
    <*> optional "uid" readText members
    <*> optional versionName readText members
    <*> optional createdName readMoment members
    <*> optional "labels" readMap members
    <*> optional ownersName (readList OwnerModel.read) members

def writeMap (entries : List (String × String)) : Json :=
  .obj (entries.map fun entry => (entry.1, .str entry.2))

def write (model : MetaModel) : Json :=
  written
    [("name", some (.str model.name)), ("namespace", model.ns.map .str),
      ("uid", model.uid.map .str), ("resourceVersion", model.resourceVersion.map .str),
      ("creationTimestamp", model.created.map fun moment => .str (Stamp.text moment)),
      ("labels", model.labels.map writeMap),
      ("ownerReferences", model.owners.map fun owners => .arr (owners.map OwnerModel.write))]
    model.others

end MetaModel

/-- The name of the member that tells the version of the API. -/
def apiVersionName : MemberName := ⟨"apiVersion", "api_version"⟩

/-! ## Scheduled commands -/

/-- What a scheduled command asks for. -/
structure AtSpecModel where
  schedule : String := ""
  command : String := ""
  others : Members := []

/-- How far a scheduled command has come. -/
structure AtStatusModel where
  phase : String := ""
  others : Members := []

/-- A scheduled command. -/
structure AtModel where
  apiVersion : Option String := none
  kind : String := "At"
  metadata : MetaModel
  spec : AtSpecModel := {}
  status : AtStatusModel := {}
  others : Members := []

def AtSpecModel.read : Json → Checked AtSpecModel :=
  readModel fun members =>
    (fun schedule command =>
      { schedule, command, others := leftOver ["schedule", "command"] members })
    <$> defaulted "schedule" "" readText members
    <*> defaulted "command" "" readText members

def AtSpecModel.write (model : AtSpecModel) : Json :=
  written [("schedule", some (.str model.schedule)), ("command", some (.str model.command))]
    model.others

def AtStatusModel.read : Json → Checked AtStatusModel :=
  readModel fun members =>
    (fun phase => { phase, others := leftOver ["phase"] members })
    <$> defaulted "phase" "" readText members

def AtStatusModel.write (model : AtStatusModel) : Json :=
  written [("phase", some (.str model.phase))] model.others

namespace AtModel

def read : Json → Checked AtModel :=
  readModel fun members =>
    (fun apiVersion kind metadata spec status =>
      { apiVersion, kind, metadata, spec, status,
        others := leftOver [apiVersionName, "kind", "metadata", "spec", "status"] members })
    <$> optional apiVersionName readText members
    <*> defaulted "kind" "At" readText members
    <*> required "metadata" MetaModel.read members
    <*> defaulted "spec" {} AtSpecModel.read members
    <*> defaulted "status" {} AtStatusModel.read members

def write (model : AtModel) : Json :=
  written
    [("apiVersion", model.apiVersion.map .str), ("kind", some (.str model.kind)),
      ("metadata", some model.metadata.write), ("spec", some model.spec.write),
      ("status", some model.status.write)]
    model.others

end AtModel

/-! ## Lists of scheduled commands -/

/-- The metadata of a list. -/
structure ListMetaModel where
  resourceVersion : Option String := none
  others : Members := []

/-- A list of scheduled commands. -/
structure AtListModel where
  apiVersion : Option String := none
  kind : Option String := none
  metadata : ListMetaModel := {}
  items : List AtModel := []
  others : Members := []

def ListMetaModel.read : Json → Checked ListMetaModel :=
  readModel fun members =>
    (fun resourceVersion =>
      { resourceVersion, others := leftOver [MetaModel.versionName] members })
    <$> optional MetaModel.versionName readText members

def ListMetaModel.write (model : ListMetaModel) : Json :=
  written [("resourceVersion", model.resourceVersion.map .str)] model.others

namespace AtListModel

def read : Json → Checked AtListModel :=
  readModel fun members =>
    (fun apiVersion kind metadata items =>
      { apiVersion, kind, metadata, items,
        others := leftOver [apiVersionName, "kind", "metadata", "items"] members })
    <$> optional apiVersionName readText members
    <*> optional "kind" readText members
    <*> defaulted "metadata" {} ListMetaModel.read members
    <*> defaulted "items" [] (readList AtModel.read) members

def write (model : AtListModel) : Json :=
  written
    [("apiVersion", model.apiVersion.map .str), ("kind", model.kind.map .str),
      ("metadata", some model.metadata.write),
      ("items", some (.arr (model.items.map AtModel.write)))]
    model.others

end AtListModel

/-! ## Pods -/

/-- A container of a pod. -/
structure ContainerModel where
  name : String
  image : String
  command : List String := []
  others : Members := []

/-- What a pod runs. -/
structure PodSpecModel where
  containers : List ContainerModel
  restartPolicy : Option String := none
  others : Members := []

/-- How far a pod has come. -/
structure PodStatusModel where
  phase : Option String := none
  reason : Option String := none
  message : Option String := none
  others : Members := []

/-- A pod. -/
structure PodModel where
  apiVersion : String := "v1"
  kind : String := "Pod"
  metadata : MetaModel
  spec : PodSpecModel
  status : Option PodStatusModel := none
  others : Members := []

def ContainerModel.read : Json → Checked ContainerModel :=
  readModel fun members =>
    (fun name image command =>
      { name, image, command, others := leftOver ["name", "image", "command"] members })
    <$> required "name" readText members
    <*> required "image" readText members
    <*> defaulted "command" [] (readList readText) members

def ContainerModel.write (model : ContainerModel) : Json :=
  written
    [("name", some (.str model.name)), ("image", some (.str model.image)),
      ("command", some (.arr (model.command.map .str)))]
    model.others

namespace PodSpecModel

def policyName : MemberName := ⟨"restartPolicy", "restart_policy"⟩

def read : Json → Checked PodSpecModel :=
  readModel fun members =>
    (fun containers restartPolicy =>
      { containers, restartPolicy, others := leftOver ["containers", policyName] members })
    <$> required "containers" (readList ContainerModel.read) members
    <*> optional policyName readText members

def write (model : PodSpecModel) : Json :=
  written
    [("containers", some (.arr (model.containers.map ContainerModel.write))),
      ("restartPolicy", model.restartPolicy.map .str)]
    model.others

end PodSpecModel

def PodStatusModel.read : Json → Checked PodStatusModel :=
  readModel fun members =>
    (fun phase reason message =>
      { phase, reason, message, others := leftOver ["phase", "reason", "message"] members })
    <$> optional "phase" readText members
    <*> optional "reason" readText members
    <*> optional "message" readText members

def PodStatusModel.write (model : PodStatusModel) : Json :=
  written
    [("phase", model.phase.map .str), ("reason", model.reason.map .str),
      ("message", model.message.map .str)]
    model.others

namespace PodModel

def read : Json → Checked PodModel :=
  readModel fun members =>
    (fun apiVersion kind metadata spec status =>
      { apiVersion, kind, metadata, spec, status,
        others := leftOver [apiVersionName, "kind", "metadata", "spec", "status"] members })
    <$> defaulted apiVersionName "v1" readText members
    <*> defaulted "kind" "Pod" readText members
    <*> required "metadata" MetaModel.read members
    <*> required "spec" PodSpecModel.read members
    <*> optional "status" PodStatusModel.read members

def write (model : PodModel) : Json :=
  written
    [("apiVersion", some (.str model.apiVersion)), ("kind", some (.str model.kind)),
      ("metadata", some model.metadata.write), ("spec", some model.spec.write),
      ("status", model.status.map PodStatusModel.write)]
    model.others

end PodModel

/-! ## Reports of failures -/

/-- What a server says about a request that it refuses. -/
structure StatusModel where
  kind : Option String := none
  status : Option String := none
  message : Option String := none
  reason : Option String := none
  code : Option Int := none
  others : Members := []

namespace StatusModel

def read : Json → Checked StatusModel :=
  readModel fun members =>
    (fun kind status message reason code =>
      { kind, status, message, reason, code,
        others := leftOver ["kind", "status", "message", "reason", "code"] members })
    <$> optional "kind" readText members
    <*> optional "status" readText members
    <*> optional "message" readText members
    <*> optional "reason" readText members
    <*> optional "code" readInteger members

def write (model : StatusModel) : Json :=
  written
    [("kind", model.kind.map .str), ("status", model.status.map .str),
      ("message", model.message.map .str), ("reason", model.reason.map .str),
      ("code", model.code.map .int)]
    model.others

end StatusModel

end OneShot.Wire
