import OneShot.ApiServer.Calls
import OneShot.Proofs.Wire.Leaves

/-!
# Objects that are read, changed and written back

A change of a scheduled command, or of the status of a task, reads the object and
writes it back with one member replaced.  What is written is encoded from the
resource, not taken from the payload that was read: of the other leaves of that
payload, those that a resource carries are written as they were, and no others.
-/

namespace OneShot.ApiServer

open Http Wire

/-- A scheduled command as it is sent to ask for something else. -/
def respecified (spec : AtSpec) (current : At) : Json :=
  withMember "spec" (specPayload spec) (encodeAt current)

/-- A task as it is sent to report how far it has come. -/
def reported (status : TaskStatus) (current : Task) : Json :=
  withMember "status" (statusPayload status) (encodeTask current)

variable {σ : Type} {access : Access σ} {limit : Option Float} {key : ObjectKey}
  {state middle : σ} {payload value new : Json} {path : List Step} {members : Members}
  {name home : String}

/-! ## What is sent -/

theorem serve_updateAtSpec {current : At} (spec : AtSpec)
    (hplace : place access (readOrder .at key) none state = (.ok payload, middle))
    (hdecode : decodeAt access.settings.ns payload = .ok current) :
    serve access limit (.updateAtSpec key spec) state =
      ask access (writeOrder .at key (itemPath .at key) (respecified spec current)) none
        (decodeAt access.settings.ns) middle := by
  have hask : ask access (readOrder .at key) none (decodeAt (serve.home access)) state =
      (.ok current, middle) := by
    simp [ask, hplace, Except.bind, serve.home, hdecode]
  simp only [serve, hask]
  rfl

theorem serve_updateTaskStatus {current : Task} (status : TaskStatus)
    (hplace : place access (readOrder .task key) none state = (.ok payload, middle))
    (hdecode : decodeTask access.settings.ns payload = .ok current) :
    serve access limit (.updateTaskStatus key status) state =
      ask access (writeOrder .task key (statusPath .task key) (reported status current)) none
        (decodeTask access.settings.ns) middle := by
  have hask : ask access (readOrder .task key) none (decodeTask (serve.home access)) state =
      (.ok current, middle) := by
    simp [ask, hplace, Except.bind, serve.home, hdecode]
  simp only [serve, hask]
  rfl

/-! ## What is kept -/

theorem put_ne_nil : Assoc.put members name new ≠ [] := by
  cases members with
  | nil => simp [Assoc.put]
  | cons member rest =>
      unfold Assoc.put
      split <;> simp

theorem at?_withMember (other : String) (rest : List Step) :
    (withMember name new (.obj members)).at? (.member other :: rest) =
      if other = name then new.at? rest else (Json.obj members).at? (.member other :: rest) := by
  by_cases hsame : other = name
  · simp [withMember, Assoc.get?_put, hsame]
  · simp [withMember, Assoc.get?_put, hsame]

/-- Leaves that are not below a member are as they were when it was replaced. -/
theorem at?_withMember_of_ne (hmembers : members ≠ []) (hleaf : value.isLeaf = true)
    (hpath : path.head? ≠ some (.member name)) :
    (withMember name new (.obj members)).at? path = some value ↔
      (Json.obj members).at? path = some value := by
  cases path with
  | nil =>
      -- neither object is a leaf as a whole
      have hwhole : ∀ others : Members, others ≠ [] → value ≠ .obj others := by
        rintro others hothers rfl
        simp [Json.isLeaf, hothers] at hleaf
      have hnew := hwhole (Assoc.put members name new) put_ne_nil
      have hold := hwhole members hmembers
      simp [withMember, Ne.symm hnew, Ne.symm hold]
  | cons step rest =>
      cases step with
      | member other =>
          have hother : other ≠ name := by simpa using hpath
          rw [at?_withMember, if_neg hother]
      | index position => simp [withMember, Json.items]

theorem exists_obj_encodeAt (resource : At) :
    ∃ members, encodeAt resource = .obj members ∧ members ≠ [] := by
  have hwrite : encodeAt resource = written (AtModel.ofResource resource).table [] := rfl
  rw [hwrite, written_nil]
  exact ⟨_, rfl, by simp [AtModel.table, present]⟩

theorem exists_obj_encodeTask (task : Task) :
    ∃ members, encodeTask task = .obj members ∧ members ≠ [] := by
  have hwrite : encodeTask task = written (PodModel.ofTask task).table [] := rfl
  rw [hwrite, written_nil]
  exact ⟨_, rfl, by simp [PodModel.table, present]⟩

theorem path_of_at?_specPayload {spec : AtSpec} (hleaf : value.isLeaf = true)
    (hat : (specPayload spec).at? path = some value) :
    path = [.member "schedule"] ∨ path = [.member "command"] := by
  obtain ⟨name, rest, part, rfl, hget, hpart⟩ := Json.exists_of_at?_obj (by simp) hleaf hat
  have hmem := Assoc.mem_of_get? hget
  simp only [List.mem_cons, Prod.mk.injEq, List.not_mem_nil, or_false] at hmem
  rcases hmem with ⟨rfl, rfl⟩ | ⟨rfl, rfl⟩
  · obtain ⟨rfl, -⟩ := Json.at?_str.mp hpart
    exact Or.inl rfl
  · obtain ⟨rfl, -⟩ := Json.at?_str.mp hpart
    exact Or.inr rfl

theorem respecified_leaf_iff {current : At} {spec : AtSpec}
    (hdecode : decodeAt home payload = .ok current) (hat : payload.at? path = some value)
    (hleaf : value.isLeaf = true)
    (hschedule : path ≠ [.member "spec", .member "schedule"])
    (hcommand : path ≠ [.member "spec", .member "command"])
    (hstatus : path.head? ≠ some (.member "status")) :
    (respecified spec current).at? path = some value ↔ AtCarried home path value := by
  obtain ⟨members, hencode, hmembers⟩ := exists_obj_encodeAt current
  by_cases hspec : path.head? = some (.member "spec")
  · obtain ⟨rest, rfl⟩ := List.head?_eq_some_iff.mp hspec
    rw [respecified, hencode, at?_withMember, if_pos rfl]
    constructor
    · -- the new member has two leaves, those that were left out
      intro hnew
      rcases path_of_at?_specPayload hleaf hnew with rfl | rfl
      · exact absurd rfl hschedule
      · exact absurd rfl hcommand
    · intro hcarried
      exact absurd hspec hcarried.head_ne
  · rw [respecified, hencode, at?_withMember_of_ne hmembers hleaf hspec, ← hencode]
    constructor
    · exact carried_of_at?_encodeAt hdecode hleaf hspec hstatus
    · intro hcarried
      exact encodeAt_keeps hdecode hcarried hat

theorem reported_leaf_iff {current : Task} {status : TaskStatus}
    (hdecode : decodeTask home payload = .ok current) (hat : payload.at? path = some value)
    (hleaf : value.isLeaf = true) (hstatus : path.head? ≠ some (.member "status")) :
    (reported status current).at? path = some value ↔ PodCarried home path value := by
  obtain ⟨members, hencode, hmembers⟩ := exists_obj_encodeTask current
  rw [reported, hencode, at?_withMember_of_ne hmembers hleaf hstatus, ← hencode]
  constructor
  · exact carried_of_at?_encodeTask hdecode hleaf
  · intro hcarried
    exact encodeTask_keeps hdecode hcarried hat

/-- What is written back says of the leaves beside the replaced ones what the payload said
that was read, if they are carried by a resource; it says so of no others. -/
theorem updates_keep_what_is_carried (access : Access σ) (limit : Option Float)
    (key : ObjectKey) (state middle : σ) (payload : Json) :
    (∀ (spec : AtSpec) (current : At),
      place access (readOrder .at key) none state = (.ok payload, middle) →
      decodeAt access.settings.ns payload = .ok current →
        serve access limit (.updateAtSpec key spec) state =
          ask access (writeOrder .at key (itemPath .at key) (respecified spec current)) none
            (decodeAt access.settings.ns) middle ∧
        ∀ path value, payload.at? path = some value → value.isLeaf = true →
          path ≠ [.member "spec", .member "schedule"] →
          path ≠ [.member "spec", .member "command"] →
          path.head? ≠ some (.member "status") →
            ((respecified spec current).at? path = some value ↔
              AtCarried access.settings.ns path value)) ∧
    ∀ (status : TaskStatus) (current : Task),
      place access (readOrder .task key) none state = (.ok payload, middle) →
      decodeTask access.settings.ns payload = .ok current →
        serve access limit (.updateTaskStatus key status) state =
          ask access (writeOrder .task key (statusPath .task key) (reported status current)) none
            (decodeTask access.settings.ns) middle ∧
        ∀ path value, payload.at? path = some value → value.isLeaf = true →
          path.head? ≠ some (.member "status") →
            ((reported status current).at? path = some value ↔
              PodCarried access.settings.ns path value) := by
  constructor
  · intro spec current hplace hdecode
    constructor
    · exact serve_updateAtSpec spec hplace hdecode
    · intro path value hat hleaf hschedule hcommand hstatus
      exact respecified_leaf_iff hdecode hat hleaf hschedule hcommand hstatus
  · intro status current hplace hdecode
    constructor
    · exact serve_updateTaskStatus status hplace hdecode
    · intro path value hat hleaf hstatus
      exact reported_leaf_iff hdecode hat hleaf hstatus

/-- The access to a server that answers everything with one payload. -/
def answering (payload : Json) : Access Unit :=
  { settings := { server := "http://a" }
    policy := {}
    link :=
      { exchange := fun _ state => (.response (.ofJson 200 payload), state)
        pause := fun _ state => state } }

theorem str_of_text? {found : Option Json} {text : String}
    (htext : found.bind Json.text? = some text) : found = some (.str text) := by
  obtain ⟨json, rfl, hjson⟩ := Option.bind_eq_some_iff.mp htext
  cases json with
  | str other =>
      cases hjson
      rfl
  | _ => cases hjson

/-- A label and the image of the first container are written as they were read; an
annotation and the image of the second container are not written. -/
theorem updates_keep_labels_and_first_container :
    let atGiven : Json := .obj [("metadata", .obj [("name", .str "a"),
      ("labels", .obj [("app", .str "b")]), ("annotations", .obj [("note", .str "c")])])]
    let podGiven : Json := .obj [("metadata", .obj [("name", .str "a")]),
      ("spec", .obj [("containers", .arr
        [.obj [("name", .str "b"), ("image", .str "c")],
          .obj [("name", .str "d"), ("image", .str "e")]])])]
    let label : List Step := [.member "metadata", .member "labels", .member "app"]
    let note : List Step := [.member "metadata", .member "annotations", .member "note"]
    let image (position : Nat) : List Step :=
      [.member "spec", .member "containers", .index position, .member "image"]
    let key : ObjectKey := ⟨"default", "a"⟩
    (∃ payload current,
      place (answering atGiven) (readOrder .at key) none () = (.ok payload, ()) ∧
      decodeAt "default" payload = .ok current ∧
      payload.at? note = some (.str "c") ∧
      (respecified ⟨"soon", "date"⟩ current).at? label = some (.str "b") ∧
      (respecified ⟨"soon", "date"⟩ current).at? note ≠ some (.str "c")) ∧
    ∃ payload current,
      place (answering podGiven) (readOrder .task key) none () = (.ok payload, ()) ∧
      decodeTask "default" payload = .ok current ∧
      payload.at? (image 1) = some (.str "e") ∧
      (reported {} current).at? (image 0) = some (.str "c") ∧
      (reported {} current).at? (image 1) ≠ some (.str "e") := by
  intro atGiven podGiven label note image key
  constructor
  · obtain ⟨payload, hpayload, hlabel, hnote, current, hcurrent, -⟩ :
        ∃ payload ∈ (place (answering atGiven) (readOrder .at key) none ()).1.toOption,
          (payload.at? label).bind Json.text? = some "b" ∧
          (payload.at? note).bind Json.text? = some "c" ∧
          ∃ current ∈ (decodeAt "default" payload).toOption, True := by decide +kernel
    have hplace : place (answering atGiven) (readOrder .at key) none () = (.ok payload, ()) :=
      Prod.ext (ok_of_mem_toOption hpayload) (Subsingleton.elim _ _)
    have hdecode := ok_of_mem_toOption hcurrent
    have hlabel := str_of_text? hlabel
    have hnote := str_of_text? hnote
    obtain ⟨hupdate, -⟩ :=
      updates_keep_what_is_carried (answering atGiven) none key () () payload
    obtain ⟨-, hleaf⟩ := hupdate ⟨"soon", "date"⟩ current hplace hdecode
    have hlabel := hleaf label (.str "b") hlabel rfl (by simp [label]) (by simp [label])
      (by simp [label])
    have hlost := hleaf note (.str "c") hnote rfl (by simp [note]) (by simp [note]) (by simp [note])
    refine ⟨payload, current, hplace, hdecode, hnote, ?_, ?_⟩
    · exact hlabel.mpr (.metadata _ _ (.label "app" "b"))
    · intro hkept
      obtain ⟨name, hname, hhead⟩ := (hlost.mp hkept).below_metadata.exists_name
      cases hhead
      exact absurd hname (by decide)
  · obtain ⟨payload, hpayload, hfirst, hsecond, current, hcurrent, -⟩ :
        ∃ payload ∈ (place (answering podGiven) (readOrder .task key) none ()).1.toOption,
          (payload.at? (image 0)).bind Json.text? = some "c" ∧
          (payload.at? (image 1)).bind Json.text? = some "e" ∧
          ∃ current ∈ (decodeTask "default" payload).toOption, True := by decide +kernel
    have hplace : place (answering podGiven) (readOrder .task key) none () = (.ok payload, ()) :=
      Prod.ext (ok_of_mem_toOption hpayload) (Subsingleton.elim _ _)
    have hdecode := ok_of_mem_toOption hcurrent
    have hfirst := str_of_text? hfirst
    have hsecond := str_of_text? hsecond
    obtain ⟨-, hupdate⟩ :=
      updates_keep_what_is_carried (answering podGiven) none key () () payload
    obtain ⟨-, hleaf⟩ := hupdate {} current hplace hdecode
    have hkept := hleaf (image 0) (.str "c") hfirst rfl (by simp [image])
    have hlost := hleaf (image 1) (.str "e") hsecond rfl (by simp [image])
    refine ⟨payload, current, hplace, hdecode, hsecond, ?_, ?_⟩
    · exact hkept.mpr (.container _ _ (.text "image" "c" (by simp)))
    · intro hagain
      exact absurd (hlost.mp hagain).first_container (by decide)

/-- An annotation that was read with a scheduled command is lost when the command is asked
for something else. -/
theorem annotation_lost_on_update :
    ¬ ∀ (payload : Json) (current : At) (spec : AtSpec) (path : List Step) (value : Json),
      decodeAt "default" payload = .ok current → payload.at? path = some value →
      value.isLeaf = true → path ≠ [.member "spec", .member "schedule"] →
      path ≠ [.member "spec", .member "command"] → path.head? ≠ some (.member "status") →
        (respecified spec current).at? path = some value := by
  intro hkeeps
  let given : Json := .obj [("metadata", .obj
    [("name", .str "a"), ("annotations", .obj [("note", .str "c")])])]
  let note : List Step := [.member "metadata", .member "annotations", .member "note"]
  obtain ⟨current, hcurrent, hnone⟩ : ∃ current ∈ (decodeAt "default" given).toOption,
      ((respecified ⟨"soon", "date"⟩ current).at? note).isNone = true := by decide +kernel
  have hkept := hkeeps given current ⟨"soon", "date"⟩ note (.str "c")
    (ok_of_mem_toOption hcurrent) rfl rfl (by simp [note]) (by simp [note]) (by simp [note])
  rw [hkept] at hnone
  cases hnone

end OneShot.ApiServer
