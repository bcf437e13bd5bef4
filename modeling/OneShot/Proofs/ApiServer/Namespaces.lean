import OneShot.Proofs.ApiServer.Failures
import OneShot.Proofs.Traversal

/-!
# Namespaces of what is read

An object lands in the namespace that its payload names.  An object that names none lands in the
namespace that was asked for only where scheduled commands are listed; where tasks are listed, and
where an object is read by its key, it lands in the namespace of the settings, whatever was asked
for.
-/

namespace OneShot

namespace Wire

/-- The namespace that the payload of an object names; an empty one counts as none. -/
def namespaceOf? (payload : Json) : Option String :=
  filled? ((payload.member "metadata").member "namespace").text

/-- The items of the payload of a list. -/
def listed (payload : Json) : List Json :=
  (payload.member "items").items

variable {payload : Json} {members : Members} {name fallback : String}

theorem member_obj (members : Members) (name : String) :
    (Json.obj members).member name = (Assoc.get? members name).getD .null :=
  rfl

theorem find?_of_one_name (name : String) (members : Members) :
    MemberName.find? name members = Assoc.get? members name := by
  cases hget : Assoc.get? members name with
  | none => simp [MemberName.find?, MemberName.given?, hget]
  | some json => exact find?_of_get? hget

theorem filled?_of_optional {found : Option String}
    (hread : optional name readText members = .valid found) :
    found.bind filled? = filled? ((Json.obj members).member name).text := by
  rw [optional, defaulted, find?_of_one_name] at hread
  rw [member_obj]
  cases hget : Assoc.get? members name with
  | none =>
      rw [hget] at hread
      cases hread
      rfl
  | some json =>
      rw [hget] at hread
      have hjson := Checked.under_eq_valid.mp hread
      cases json with
      | null =>
          cases hjson
          rfl
      | str text =>
          cases hjson
          rfl
      | _ => cases hjson

theorem ns_of_required {model : MetaModel} (fallback : String)
    (hread : required "metadata" MetaModel.read members = .valid model) :
    (model.metadata fallback).ns = (namespaceOf? (.obj members)).getD fallback := by
  rw [required, find?_of_one_name] at hread
  rw [namespaceOf?, member_obj]
  cases hget : Assoc.get? members "metadata" with
  | none =>
      rw [hget] at hread
      cases hread
  | some json =>
      rw [hget] at hread
      obtain ⟨inner, rfl, hinner⟩ := MetaModel.readFrom (Checked.under_eq_valid.mp hread)
      rw [MetaModel.metadata, filled?_of_optional hinner.ns]
      rfl

/-! ## One object -/

theorem ns_resource {model : AtModel} (fallback : String)
    (hread : AtModel.read payload = .valid model) :
    (model.resource fallback).metadata.ns = (namespaceOf? payload).getD fallback := by
  obtain ⟨members, rfl, hmembers⟩ := AtModel.readFrom hread
  exact ns_of_required fallback hmembers.metadata

theorem ns_decodeAt {resource : At} (hdecode : decodeAt fallback payload = .ok resource) :
    resource.metadata.ns = (namespaceOf? payload).getD fallback := by
  unfold decodeAt at hdecode
  split at hdecode
  next model hread =>
    cases hdecode
    exact ns_resource fallback hread
  next => cases hdecode

theorem ns_decodeTask {task : Task} (hdecode : decodeTask fallback payload = .ok task) :
    task.metadata.ns = (namespaceOf? payload).getD fallback := by
  unfold decodeTask at hdecode
  split at hdecode
  next model hread =>
    split at hdecode
    next found hfound =>
      cases hdecode
      obtain ⟨members, rfl, hmembers⟩ := PodModel.readFrom hread
      obtain ⟨container, -, rfl⟩ := Option.map_eq_some_iff.mp hfound
      exact ns_of_required fallback hmembers.metadata
    next => cases hdecode
  next => cases hdecode

/-! ## The items of a list -/

theorem ns_decodeAtList {resources : List At}
    (hdecode : decodeAtList fallback payload = .ok resources) :
    List.Forall₂ (fun item (resource : At) =>
      resource.metadata.ns = (namespaceOf? item).getD fallback) (listed payload) resources := by
  unfold decodeAtList at hdecode
  split at hdecode
  next model hread =>
    cases hdecode
    obtain ⟨members, rfl, hmembers⟩ := readModel_eq_valid hread
    simp only [Checked.seq_eq_valid, Checked.map_eq_valid] at hmembers
    obtain ⟨_, ⟨_, ⟨_, ⟨version, -, rfl⟩, kind, -, rfl⟩, metadata, -, rfl⟩, items, hitems, rfl⟩ :=
      hmembers
    rw [defaulted, find?_of_one_name] at hitems
    rw [listed, member_obj, List.forall₂_map_right_iff]
    cases hget : Assoc.get? members "items" with
    | none =>
        rw [hget] at hitems
        cases hitems
        exact .nil
    | some json =>
        rw [hget] at hitems
        have hpairs := forall₂_of_readList (Checked.under_eq_valid.mp hitems)
        exact hpairs.imp fun item model hitem => ns_resource fallback hitem
  next => cases hdecode

/-- The items of a text and of an object are texts, which are no tasks. -/
theorem not_mapM_decodeTask_texts {texts : List String} {tasks : List Task}
    (hmapM : (texts.map Json.str).mapM (decodeTask fallback) = .ok tasks) : texts = [] := by
  cases texts with
  | nil => rfl
  | cons text rest =>
      rw [List.map_cons, List.mapM_cons] at hmapM
      cases hmapM

end Wire

namespace ApiServer

open Wire

variable {payload : Json} {fallback : String}

theorem items_eq_listed {items : List Json} {tasks : List Task}
    (hitems : itemsOf (payload.get? "items") = .ok items)
    (htasks : items.mapM (decodeTask fallback) = .ok tasks) : items = listed payload := by
  rw [listed, Json.member]
  generalize payload.get? "items" = found at hitems
  cases found with
  | none =>
      cases hitems
      rfl
  | some value =>
      cases value with
      | null =>
          cases hitems
          rfl
      | bool flag =>
          cases flag with
          | false =>
              cases hitems
              rfl
          | true => cases hitems
      | int count =>
          by_cases hzero : count = 0
          · subst hzero
            cases hitems
            rfl
          · simp [itemsOf] at hitems
      | float amount =>
          cases hzero : amount == 0 with
          | true =>
              simp only [itemsOf, hzero, if_true] at hitems
              cases hitems
              rfl
          | false => simp [itemsOf, hzero] at hitems
      | str text =>
          cases hitems
          rw [← Function.comp_def Json.str, ← List.map_map] at htasks ⊢
          rw [not_mapM_decodeTask_texts htasks]
          rfl
      | arr items =>
          cases hitems
          rfl
      | obj members =>
          cases hitems
          rw [← Function.comp_def Json.str, ← List.map_map] at htasks ⊢
          rw [not_mapM_decodeTask_texts htasks]
          rfl

variable {σ : Type}

/-- A reply was decoded from a payload that the server gave. -/
theorem exists_of_serve_ok {access : Access σ} {limit : Option Float} {call : Call} {state : σ}
    {reply : call.Reply} (hserve : (serve access limit call state).1 = .ok reply) :
    ∃ payload, (place access (decisive access limit call state).1
        (decisive access limit call state).2.1 (decisive access limit call state).2.2).1 =
          .ok payload ∧ decodeReply access.settings.ns call payload = .ok reply := by
  rw [serve_fst] at hserve
  generalize (place access _ _ _).1 = answer at hserve ⊢
  cases answer with
  | error fault => cases hserve
  | ok payload => exact ⟨payload, rfl, hserve⟩

/-- What is read from a namespace lands in the namespace that its payload names.  What names none
lands in the namespace that was asked for where scheduled commands are listed, and in the one of
the settings everywhere else. -/
theorem reads_land_as_named_or_configured (access : Access σ) (limit : Option Float) (state : σ)
    {ns : String} (hns : ns ≠ "") :
    (∀ resources, (serve access limit (.listAts (some ns)) state).1 = .ok resources →
      ∃ payload, (place access (listOrder .at (some ns)) limit state).1 = .ok payload ∧
        List.Forall₂ (fun item (resource : At) =>
          resource.metadata.ns = (namespaceOf? item).getD ns) (listed payload) resources) ∧
    (∀ tasks, (serve access limit (.listTasks (some ns)) state).1 = .ok tasks →
      ∃ payload, (place access (listOrder .task (some ns)) none state).1 = .ok payload ∧
        List.Forall₂ (fun item (task : Task) =>
          task.metadata.ns = (namespaceOf? item).getD access.settings.ns)
          (listed payload) tasks) ∧
    (∀ name resource, (serve access limit (.getAt ⟨ns, name⟩) state).1 = .ok resource →
      ∃ payload, (place access (readOrder .at ⟨ns, name⟩) limit state).1 = .ok payload ∧
        resource.metadata.ns = (namespaceOf? payload).getD access.settings.ns) ∧
    ∀ name task, (serve access limit (.getTask ⟨ns, name⟩) state).1 = .ok task →
      ∃ payload, (place access (readOrder .task ⟨ns, name⟩) limit state).1 = .ok payload ∧
        task.metadata.ns = (namespaceOf? payload).getD access.settings.ns := by
  have hfilled : filled? ns = some ns := by simp [filled?, String.isEmpty_iff, hns]
  refine ⟨?_, ?_, ?_, ?_⟩
  · intro resources hserve
    obtain ⟨payload, hplace, hdecode⟩ := exists_of_serve_ok hserve
    simp only [decodeReply, Option.bind_some, hfilled, Option.getD_some] at hdecode
    exact ⟨payload, hplace, ns_decodeAtList hdecode⟩
  · intro tasks hserve
    obtain ⟨payload, hplace, hdecode⟩ := exists_of_serve_ok hserve
    refine ⟨payload, hplace, ?_⟩
    simp only [decodeReply] at hdecode
    cases hitems : itemsOf (payload.get? "items") with
    | error fault =>
        rw [hitems] at hdecode
        cases hdecode
    | ok items =>
        rw [hitems] at hdecode
        rw [← items_eq_listed hitems hdecode]
        exact (forall₂_of_mapM_ok hdecode).imp fun item task hitem => ns_decodeTask hitem
  · intro name resource hserve
    obtain ⟨payload, hplace, hdecode⟩ := exists_of_serve_ok hserve
    exact ⟨payload, hplace, ns_decodeAt hdecode⟩
  · intro name task hserve
    obtain ⟨payload, hplace, hdecode⟩ := exists_of_serve_ok hserve
    exact ⟨payload, hplace, ns_decodeTask hdecode⟩

/-- An object of no namespace, which can be read for a command and for a task. -/
def nameless : Json :=
  .obj [("metadata", .obj [("name", .str "a")]),
    ("spec", .obj [("containers", .arr [.obj [("name", .str "b"), ("image", .str "c")]])])]

def namelessList : Json :=
  .obj [("items", .arr [nameless])]

/-- Objects of no namespace that are asked for in "ops" land there only as items of a listing of
scheduled commands. -/
theorem reads_land_as_named_or_configured_of_nameless :
    let command (ns : String) : At := { metadata := { name := "a", ns := ns }, spec := ⟨"", ""⟩ }
    let task : Task :=
      { metadata := { name := "a" }, container := ⟨"b", "c", []⟩, restartPolicy := .always }
    (∃ payload, (place (answering namelessList) (listOrder .at (some "ops")) none ()).1 =
        .ok payload ∧
      List.Forall₂ (fun item (resource : At) =>
        resource.metadata.ns = (namespaceOf? item).getD "ops") (listed payload)
        [command "ops"]) ∧
    (∃ payload, (place (answering namelessList) (listOrder .task (some "ops")) none ()).1 =
        .ok payload ∧
      List.Forall₂ (fun item (task : Task) =>
        task.metadata.ns = (namespaceOf? item).getD "default") (listed payload) [task]) ∧
    (∃ payload, (place (answering nameless) (readOrder .at ⟨"ops", "a"⟩) none ()).1 =
        .ok payload ∧
      (command "default").metadata.ns = (namespaceOf? payload).getD "default") ∧
    ∃ payload, (place (answering nameless) (readOrder .task ⟨"ops", "a"⟩) none ()).1 =
        .ok payload ∧
      task.metadata.ns = (namespaceOf? payload).getD "default" := by
  intro command task
  have hops : "ops" ≠ "" := by decide
  obtain ⟨hats, htasks, -, -⟩ :=
    reads_land_as_named_or_configured (answering namelessList) none () hops
  obtain ⟨-, -, hat, htask⟩ := reads_land_as_named_or_configured (answering nameless) none () hops
  refine ⟨hats [command "ops"] ?_, htasks [task] ?_, hat "a" (command "default") ?_,
    htask "a" task ?_⟩
  all_goals decide +kernel

theorem exists_of_map_eq_ok {α β ε : Type} {answer : Except ε α} {f : α → β} {found : β}
    (hmap : answer.map f = .ok found) : ∃ value, answer = .ok value ∧ f value = found := by
  cases answer with
  | error fault => cases hmap
  | ok value =>
      cases hmap
      exact ⟨value, rfl, rfl⟩

/-- A command and a task of no namespace, asked for in "ops", land in the namespace of the
settings. -/
theorem nameless_lands_elsewhere :
    (¬ ∀ (access : Access Unit) (key : ObjectKey) (resource : At), key.ns ≠ "" →
      (∀ payload, (place access (readOrder .at key) none ()).1 = .ok payload →
        namespaceOf? payload = none) →
      (serve access none (.getAt key) ()).1 = .ok resource → resource.metadata.ns = key.ns) ∧
    ¬ ∀ (access : Access Unit) (ns : String) (tasks : List Task), ns ≠ "" →
      (∀ payload, (place access (listOrder .task (some ns)) none ()).1 = .ok payload →
        ∀ item ∈ listed payload, namespaceOf? item = none) →
      (serve access none (.listTasks (some ns)) ()).1 = .ok tasks →
        ∀ task ∈ tasks, task.metadata.ns = ns := by
  constructor
  · intro hlands
    let command : At := { metadata := { name := "a" }, spec := ⟨"", ""⟩ }
    have hread : ((place (answering nameless) (readOrder .at ⟨"ops", "a"⟩) none ()).1.map
        fun payload => (namespaceOf? payload, decodeAt "default" payload)) =
          .ok (none, .ok command) := by decide +kernel
    obtain ⟨payload, hplace, hpayload⟩ := exists_of_map_eq_ok hread
    obtain ⟨hnone, hdecode⟩ := Prod.mk.inj hpayload
    have hserve : (serve (answering nameless) none (.getAt ⟨"ops", "a"⟩) ()).1 = .ok command := by
      rw [serve_fst]
      simp only [decisive, hplace]
      exact hdecode
    have hns := hlands (answering nameless) ⟨"ops", "a"⟩ command (by decide) (fun other hother => by
      rw [hplace] at hother
      cases hother
      exact hnone) hserve
    exact absurd hns (by decide)
  · intro hlands
    let task : Task :=
      { metadata := { name := "a" }, container := ⟨"b", "c", []⟩, restartPolicy := .always }
    have hread : ((place (answering namelessList) (listOrder .task (some "ops")) none ()).1.map
        fun payload => ((listed payload).map namespaceOf?,
          decodeReply "default" (.listTasks (some "ops")) payload)) =
          .ok ([none], .ok [task]) := by decide +kernel
    obtain ⟨payload, hplace, hpayload⟩ := exists_of_map_eq_ok hread
    obtain ⟨hnone, hdecode⟩ := Prod.mk.inj hpayload
    have hserve : (serve (answering namelessList) none (.listTasks (some "ops")) ()).1 =
        .ok [task] := by
      rw [serve_fst]
      simp only [decisive, hplace]
      exact hdecode
    have hns := hlands (answering namelessList) "ops" [task] (by decide)
      (fun other hother item hitem => by
        rw [hplace] at hother
        cases hother
        have hfound := List.mem_map_of_mem (f := namespaceOf?) hitem
        rw [hnone] at hfound
        exact List.mem_singleton.mp hfound) hserve task List.mem_cons_self
    exact absurd hns (by decide)

end ApiServer

end OneShot
