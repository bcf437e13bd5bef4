import OneShot.Fault
import OneShot.Wire.Model

/-!
# Resources and their models

A scheduled command is exchanged as such, and a task as a pod.  Empty texts are
left out on the way to the wire and filled in on the way back; the status of a
task is left to the server.
-/

namespace OneShot.Wire

def filled? (text : String) : Option String :=
  if text.isEmpty then none else some text

def nonempty? {α : Type} (items : List α) : Option (List α) :=
  if items.isEmpty then none else some items

/-! ## From the wire -/

def OwnerModel.reference (model : OwnerModel) : OwnerReference :=
  { apiVersion := model.apiVersion
    kind := model.kind
    name := model.name
    uid := model.uid
    controller := model.controller.getD false
    blockOwnerDeletion := model.blockOwnerDeletion.getD false }

/-- The metadata of an object; an object without a namespace is in a given
one. -/
def MetaModel.metadata (model : MetaModel) (fallback : String) : Metadata :=
  { name := model.name
    ns := (model.ns.bind filled?).getD fallback
    uid := model.uid.getD ""
    resourceVersion := model.resourceVersion.getD ""
    created := model.created
    labels := model.labels.getD []
    owners := (model.owners.getD []).map OwnerModel.reference }

def AtModel.resource (model : AtModel) (fallback : String) : At :=
  { metadata := model.metadata.metadata fallback
    spec := ⟨model.spec.schedule, model.spec.command⟩
    phase := model.status.phase }

/-- The phase of a pod: one that says none is waiting. -/
def podPhase : Option String → TaskPhase
  | none => .pending
  | some text => (TaskPhase.ofText? text).getD .unknown

/-- The policy of a pod: one that says none, or an unknown one, is always
started again. -/
def podPolicy (text : Option String) : RestartPolicy :=
  (text.bind RestartPolicy.ofText?).getD .always

def PodStatusModel.taskStatus (model : PodStatusModel) : TaskStatus :=
  ⟨podPhase model.phase, model.reason, model.message⟩

/-- The task of a pod, which runs the first of its containers. -/
def PodModel.task? (model : PodModel) (fallback : String) : Option Task :=
  model.spec.containers.head?.map fun container =>
    { metadata := model.metadata.metadata fallback
      container := ⟨container.name, container.image, container.command⟩
      restartPolicy := podPolicy model.spec.restartPolicy
      status := (model.status.getD {}).taskStatus }

/-! ## To the wire -/

def OwnerModel.ofReference (reference : OwnerReference) : OwnerModel :=
  { apiVersion := reference.apiVersion
    kind := reference.kind
    name := reference.name
    uid := reference.uid
    controller := some reference.controller
    blockOwnerDeletion := some reference.blockOwnerDeletion }

def MetaModel.ofMetadata (metadata : Metadata) : MetaModel :=
  { name := metadata.name
    ns := some metadata.ns
    uid := filled? metadata.uid
    resourceVersion := filled? metadata.resourceVersion
    created := metadata.created
    labels := nonempty? metadata.labels
    owners := (nonempty? metadata.owners).map fun owners => owners.map OwnerModel.ofReference }

def AtModel.ofResource (resource : At) : AtModel :=
  { apiVersion := some atApiVersion
    kind := ResourceKind.at.text
    metadata := .ofMetadata resource.metadata
    spec := { schedule := resource.spec.schedule, command := resource.spec.command }
    status := { phase := resource.phase } }

/-- The model of a task; its status is left to the server. -/
def PodModel.ofTask (task : Task) : PodModel :=
  { metadata := .ofMetadata task.metadata
    spec :=
      { containers :=
          [{ name := task.container.name
             image := task.container.image
             command := task.container.command }]
        restartPolicy := some task.restartPolicy.text } }

/-! ## Payloads -/

def decodeAt (fallback : String) (payload : Json) : Except OneShot.Fault At :=
  match AtModel.read payload with
  | .valid model => .ok (model.resource fallback)
  | .invalid faults => .error (.transient (.malformed .at faults))

/-- The scheduled commands of the payload of a list. -/
def decodeAtList (fallback : String) (payload : Json) : Except OneShot.Fault (List At) :=
  match AtListModel.read payload with
  | .valid model => .ok (model.items.map (·.resource fallback))
  | .invalid faults => .error (.transient (.malformed .atList faults))

def decodeTask (fallback : String) (payload : Json) : Except OneShot.Fault Task :=
  match PodModel.read payload with
  | .valid model =>
      match model.task? fallback with
      | some task => .ok task
      | none => .error (.transient (.emptyTask model.metadata.name))
  | .invalid faults => .error (.transient (.malformed .task faults))

def encodeAt (resource : At) : Json :=
  (AtModel.ofResource resource).write

def encodeTask (task : Task) : Json :=
  (PodModel.ofTask task).write

end OneShot.Wire
