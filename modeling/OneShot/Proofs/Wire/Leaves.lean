import OneShot.Json.Access
import OneShot.Proofs.Wire.RoundTrip

/-!
# Leaves that a resource carries

A resource that was decoded from a payload and is encoded again says less than the
payload did.  A payload is told by its leaves, the values without parts behind its
paths; a leaf is found again in the encoded resource exactly if it stands for a
part of the resource and is written as the encoder writes it.
-/

namespace OneShot

open Calendar Wire

/-! ## Paths -/

namespace Json

/-- The part of a value behind a path. -/
def at? : Json → List Step → Option Json
  | value, [] => some value
  | value, .member name :: path => (value.get? name).bind fun part => part.at? path
  | value, .index position :: path => (value.items[position]?).bind fun part => part.at? path

/-- A value without parts that is not null. -/
def isLeaf : Json → Bool
  | .null => false
  | .arr items => items.isEmpty
  | .obj members => members.isEmpty
  | _ => true

variable {json value : Json} {name text : String} {path : List Step} {position : Nat}

@[simp] theorem at?_nil (value : Json) : value.at? [] = some value := rfl

@[simp] theorem at?_member (value : Json) (name : String) (path : List Step) :
    value.at? (.member name :: path) = (value.get? name).bind fun part => part.at? path := rfl

@[simp] theorem at?_index (value : Json) (position : Nat) (path : List Step) :
    value.at? (.index position :: path) = (value.items[position]?).bind fun part => part.at? path :=
  rfl

@[simp] theorem get?_obj (members : Members) (name : String) :
    (Json.obj members).get? name = Assoc.get? members name := rfl

/-- Behind a value without parts there is nothing but the value. -/
theorem at?_atom (hmembers : json.members = []) (hitems : json.items = []) :
    json.at? path = some value ↔ path = [] ∧ value = json := by
  have hget : ∀ name, json.get? name = none := by
    intro name
    cases json with
    | obj members =>
        have hnil : members = [] := hmembers
        rw [hnil]
        rfl
    | _ => rfl
  cases path with
  | nil => simp [eq_comm]
  | cons step path =>
      cases step with
      | member name => simp [hget]
      | index position => simp [hitems]

theorem at?_str : (Json.str text).at? path = some value ↔ path = [] ∧ value = .str text :=
  at?_atom rfl rfl

theorem at?_bool {flag : Bool} :
    (Json.bool flag).at? path = some value ↔ path = [] ∧ value = .bool flag :=
  at?_atom rfl rfl

theorem exists_of_at?_obj {members : Members} (hmembers : members ≠ [])
    (hleaf : value.isLeaf = true) (hat : (Json.obj members).at? path = some value) :
    ∃ name rest part, path = .member name :: rest ∧ Assoc.get? members name = some part ∧
      part.at? rest = some value := by
  cases path with
  | nil =>
      cases hat
      simp [isLeaf, hmembers] at hleaf
  | cons step rest =>
      cases step with
      | member name =>
          obtain ⟨part, hpart, hrest⟩ := Option.bind_eq_some_iff.mp hat
          exact ⟨name, rest, part, rfl, hpart, hrest⟩
      | index position => simp [items] at hat

theorem exists_of_at?_arr {items : List Json} (hleaf : value.isLeaf = true)
    (hat : (Json.arr items).at? path = some value) :
    (items = [] ∧ path = [] ∧ value = .arr []) ∨
      ∃ position rest item, path = .index position :: rest ∧ items[position]? = some item ∧
        item.at? rest = some value := by
  cases path with
  | nil =>
      cases hat
      have hempty : items = [] := by simpa [isLeaf] using hleaf
      exact Or.inl ⟨hempty, rfl, by rw [hempty]⟩
  | cons step rest =>
      cases step with
      | member name => simp [get?] at hat
      | index position =>
          obtain ⟨item, hitem, hrest⟩ := Option.bind_eq_some_iff.mp hat
          exact Or.inr ⟨position, rest, item, rfl, hitem, hrest⟩

end Json

namespace Wire

variable {json given value : Json} {path : List Step} {home : String}
  {names : List MemberName} {modelled : List (String × Option Json)}

theorem Tabled.at?_written (htable : Tabled names modelled) (name : String) (path : List Step) :
    (written modelled []).at? (.member name :: path) =
      (Assoc.get? modelled name).join.bind fun part => part.at? path := by
  rw [written_nil, Json.at?_member, Json.get?_obj, get?_present (htable.wires ▸ htable.nodup)]

/-- A leaf of a model is behind one of its members. -/
theorem exists_of_at?_written (hpresent : present modelled ≠ []) (hleaf : value.isLeaf = true)
    (hat : (written modelled []).at? path = some value) :
    ∃ name rest part, path = .member name :: rest ∧ (name, some part) ∈ modelled ∧
      part.at? rest = some value := by
  rw [written_nil] at hat
  obtain ⟨name, rest, part, hpath, hget, hpart⟩ := Json.exists_of_at?_obj hpresent hleaf hat
  exact ⟨name, rest, part, hpath, mem_present (Assoc.mem_of_get? hget), hpart⟩

/-! ## Lists and maps that were read -/

theorem forall₂_of_readList {α : Type} {read : Json → Checked α} {models : List α} {json : Json}
    (hread : readList read json = .valid models) :
    List.Forall₂ (fun item model => read item = .valid model) json.items models := by
  cases json with
  | arr items =>
      have hitems : ∀ (items : List Json) (first : Nat) (models : List α),
          Checked.itemsFrom read first items = .valid models →
            List.Forall₂ (fun item model => read item = .valid model) items models := by
        intro items
        induction items with
        | nil =>
            intro first models hread
            cases hread
            exact .nil
        | cons head rest ih =>
            intro first models hread
            obtain ⟨cons, hhead, others, hrest, rfl⟩ := Checked.seq_eq_valid.mp hread
            obtain ⟨model, hmodel, rfl⟩ := Checked.map_eq_valid.mp hhead
            exact .cons (Checked.under_eq_valid.mp hmodel) (ih (first + 1) others hrest)
      exact hitems items 0 models hread
  | _ => cases hread

theorem readList_getElem? {α : Type} {read : Json → Checked α} {models : List α} {item : Json}
    {position : Nat} (hread : readList read json = .valid models)
    (hitem : json.items[position]? = some item) :
    ∃ model, models[position]? = some model ∧ read item = .valid model := by
  have hpairs := forall₂_of_readList hread
  obtain ⟨hposition, rfl⟩ := List.getElem?_eq_some_iff.mp hitem
  have hmodels : position < models.length := hpairs.length_eq ▸ hposition
  exact ⟨models[position], List.getElem?_eq_getElem hmodels, hpairs.get hposition hmodels⟩

/-- A map of strings is written as it was read. -/
theorem writeMap_of_readMap {entries : List (String × String)}
    (hread : readMap json = .valid entries) : MetaModel.writeMap entries = json := by
  cases json with
  | obj members =>
      have hmembers : ∀ (members : Members) (entries : List (String × String)),
          readEntries members = .valid entries →
            entries.map (fun entry => (entry.1, Json.str entry.2)) = members := by
        intro members
        induction members with
        | nil =>
            intro entries hread
            cases hread
            rfl
        | cons member rest ih =>
            intro entries hread
            obtain ⟨name, part⟩ := member
            obtain ⟨cons, hhead, others, hrest, rfl⟩ := Checked.seq_eq_valid.mp hread
            obtain ⟨text, htext, rfl⟩ := Checked.map_eq_valid.mp hhead
            have hpart : part = .str text := by
              cases part with
              | str found => cases htext; rfl
              | _ => cases htext
            rw [List.map_cons, ih others hrest, hpart]
      rw [MetaModel.writeMap, hmembers members entries hread]
  | _ => cases hread

/-! ## Owners -/

/-- The leaves of the pointer to an owner that are carried. -/
inductive OwnerCarried : List Step → Json → Prop where
  | text (name text : String) (hname : name ∈ ["apiVersion", "kind", "name", "uid"]) :
      OwnerCarried [.member name] (.str text)
  | flag (name : String) (flag : Bool) (hname : name ∈ ["controller", "blockOwnerDeletion"]) :
      OwnerCarried [.member name] (.bool flag)

theorem get?_of_at? {name : String} {members : Members}
    (hat : (Json.obj members).at? [.member name] = some value) :
    Assoc.get? members name = some value := by
  simpa using hat

namespace OwnerModel

variable {model : OwnerModel}

theorem at?_reference (reference : OwnerReference) (name : String) (path : List Step) :
    (ofReference reference).write.at? (.member name :: path) =
      (Assoc.get? (ofReference reference).table name).join.bind fun part => part.at? path :=
  (ofReference reference).tabled.at?_written name path

theorem keeps (hread : read given = .valid model) (hcarried : OwnerCarried path value)
    (hat : given.at? path = some value) :
    (ofReference model.reference).write.at? path = some value := by
  obtain ⟨members, rfl, hfrom⟩ := readFrom hread
  cases hcarried with
  | text name text hname =>
      have hget := get?_of_at? hat
      simp only [List.mem_cons, List.not_mem_nil, or_false] at hname
      rcases hname with rfl | rfl | rfl | rfl
      · have htext := Checked.valid.inj ((read_of_required hfrom.apiVersion) hget)
        rw [at?_reference]
        simp [table, ofReference, reference, Assoc.get?, htext]
      · have htext := Checked.valid.inj ((read_of_required hfrom.kind) hget)
        rw [at?_reference]
        simp [table, ofReference, reference, Assoc.get?, htext]
      · have htext := Checked.valid.inj ((read_of_required hfrom.name) hget)
        rw [at?_reference]
        simp [table, ofReference, reference, Assoc.get?, htext]
      · have htext := Checked.valid.inj ((read_of_required hfrom.uid) hget)
        rw [at?_reference]
        simp [table, ofReference, reference, Assoc.get?, htext]
  | flag name flag hname =>
      have hget := get?_of_at? hat
      simp only [List.mem_cons, List.not_mem_nil, or_false] at hname
      rcases hname with rfl | rfl
      · obtain ⟨found, hfound, hflag⟩ := (read_of_optional hfrom.controller) hget rfl
        have hsame := Checked.valid.inj hflag
        rw [at?_reference]
        simp [table, ofReference, reference, Assoc.get?, hfound, hsame]
      · obtain ⟨found, hfound, hflag⟩ := (read_of_optional hfrom.block) hget rfl
        have hsame := Checked.valid.inj hflag
        rw [at?_reference]
        simp [table, ofReference, reference, Assoc.get?, hfound, hsame]

theorem carried_of_at? {reference : OwnerReference} (hleaf : value.isLeaf = true)
    (hat : (ofReference reference).write.at? path = some value) : OwnerCarried path value := by
  have hpresent : present (ofReference reference).table ≠ [] := by simp [table, present]
  obtain ⟨name, rest, part, rfl, hmem, hpart⟩ := exists_of_at?_written hpresent hleaf hat
  simp only [table, ofReference, Option.map_some, List.mem_cons, Prod.mk.injEq, Option.some.injEq,
    List.not_mem_nil, or_false] at hmem
  rcases hmem with ⟨rfl, rfl⟩ | ⟨rfl, rfl⟩ | ⟨rfl, rfl⟩ | ⟨rfl, rfl⟩ | ⟨rfl, rfl⟩ | ⟨rfl, rfl⟩
  · obtain ⟨rfl, rfl⟩ := Json.at?_str.mp hpart
    exact .text "apiVersion" _ (by simp)
  · obtain ⟨rfl, rfl⟩ := Json.at?_str.mp hpart
    exact .text "kind" _ (by simp)
  · obtain ⟨rfl, rfl⟩ := Json.at?_str.mp hpart
    exact .text "name" _ (by simp)
  · obtain ⟨rfl, rfl⟩ := Json.at?_str.mp hpart
    exact .text "uid" _ (by simp)
  · obtain ⟨rfl, rfl⟩ := Json.at?_bool.mp hpart
    exact .flag "controller" _ (by simp)
  · obtain ⟨rfl, rfl⟩ := Json.at?_bool.mp hpart
    exact .flag "blockOwnerDeletion" _ (by simp)

end OwnerModel

/-! ## Metadata -/

/-- The leaves of metadata that are carried, in a home for what names no namespace. -/
inductive MetaCarried (home : String) : List Step → Json → Prop where
  | name (text : String) : MetaCarried home [.member "name"] (.str text)
  | ns (text : String) (htext : text ≠ "" ∨ text = home) :
      MetaCarried home [.member "namespace"] (.str text)
  | filled (name text : String) (hname : name ∈ ["uid", "resourceVersion"]) (htext : text ≠ "") :
      MetaCarried home [.member name] (.str text)
  | created (moment : DateTime) (hmoment : moment.Proper) :
      MetaCarried home [.member "creationTimestamp"] (.str (Stamp.text moment))
  | label (name text : String) : MetaCarried home [.member "labels", .member name] (.str text)
  | owner (position : Nat) (path : List Step) (value : Json) (howner : OwnerCarried path value) :
      MetaCarried home (.member "ownerReferences" :: .index position :: path) value

/-- Only members that are modelled carry anything. -/
theorem MetaCarried.exists_name (hcarried : MetaCarried home path value) :
    ∃ name ∈ MetaModel.names.map (·.wire), path.head? = some (.member name) := by
  cases hcarried with
  | filled name text hname htext =>
      simp only [List.mem_cons, List.not_mem_nil, or_false] at hname
      rcases hname with rfl | rfl <;> simp [MetaModel.names, MetaModel.versionName]
  | _ => simp [MetaModel.names, MetaModel.createdName, MetaModel.ownersName]

theorem filled?_of_ne {text : String} (htext : text ≠ "") : filled? text = some text := by
  simp [filled?, htext]

theorem filled?_eq_some {text found : String} (hfilled : filled? text = some found) :
    found = text ∧ text ≠ "" := by
  unfold filled? at hfilled
  split at hfilled
  next => cases hfilled
  next hempty =>
    cases hfilled
    exact ⟨rfl, by simpa using hempty⟩

theorem nonempty?_eq_some {α : Type} {items found : List α}
    (hfound : nonempty? items = some found) :
    found = items ∧ items ≠ [] := by
  unfold nonempty? at hfound
  split at hfound
  next => cases hfound
  next hempty =>
    cases hfound
    exact ⟨rfl, by simpa using hempty⟩

theorem nonempty?_of_ne {α : Type} {items : List α} (hitems : items ≠ []) :
    nonempty? items = some items := by
  simp [nonempty?, hitems]

namespace MetaModel

variable {model : MetaModel}

theorem at?_metadata (metadata : Metadata) (name : String) (path : List Step) :
    (ofMetadata metadata).write.at? (.member name :: path) =
      (Assoc.get? (ofMetadata metadata).table name).join.bind fun part => part.at? path :=
  (ofMetadata metadata).tabled.at?_written name path

theorem keeps (hread : read given = .valid model) (hcarried : MetaCarried home path value)
    (hat : given.at? path = some value) :
    (ofMetadata (model.metadata home)).write.at? path = some value := by
  obtain ⟨members, rfl, hfrom⟩ := readFrom hread
  cases hcarried with
  | name text =>
      have htext := Checked.valid.inj ((read_of_required hfrom.name) (get?_of_at? hat))
      rw [at?_metadata]
      simp [table, ofMetadata, metadata, Assoc.get?, htext]
  | ns text htext =>
      obtain ⟨found, hfound, hread⟩ := (read_of_optional hfrom.ns) (get?_of_at? hat) rfl
      have hsame : text = found := Checked.valid.inj hread
      have hns : (model.ns.bind filled?).getD home = text := by
        rw [hfound, Option.bind_some, ← hsame]
        rcases htext with hne | rfl
        · rw [filled?_of_ne hne, Option.getD_some]
        · cases hfilled : filled? text with
          | none => rfl
          | some other => exact (filled?_eq_some hfilled).1
      rw [at?_metadata]
      simp [table, ofMetadata, metadata, Assoc.get?, hns]
  | filled name text hname htext =>
      have hget := get?_of_at? hat
      simp only [List.mem_cons, List.not_mem_nil, or_false] at hname
      rcases hname with rfl | rfl
      · obtain ⟨found, hfound, hread⟩ := (read_of_optional hfrom.uid) hget rfl
        have hsame : text = found := Checked.valid.inj hread
        rw [at?_metadata]
        simp [table, ofMetadata, metadata, Assoc.get?, hfound, ← hsame, filled?_of_ne htext]
      · obtain ⟨found, hfound, hread⟩ := (read_of_optional hfrom.version) hget rfl
        have hsame : text = found := Checked.valid.inj hread
        rw [at?_metadata]
        simp [table, ofMetadata, metadata, Assoc.get?, hfound, ← hsame, filled?_of_ne htext]
  | created moment hmoment =>
      obtain ⟨found, hfound, hread⟩ := (read_of_optional hfrom.created) (get?_of_at? hat) rfl
      rw [readMoment_text hmoment] at hread
      have hsame : moment = found := Checked.valid.inj hread
      rw [at?_metadata]
      simp [table, ofMetadata, metadata, Assoc.get?, hfound, ← hsame]
  | label name text =>
      obtain ⟨labels, hlabels, hlabel⟩ := Option.bind_eq_some_iff.mp hat
      have hnull : labels.isNull = false := by
        cases labels with
        | null => simp [Json.get?] at hlabel
        | _ => rfl
      obtain ⟨entries, hentries, hread⟩ := (read_of_optional hfrom.labels) hlabels hnull
      have hwrite := writeMap_of_readMap hread
      -- labels are left out if there are none, but one was found
      have hne : entries ≠ [] := by
        rintro rfl
        rw [← hwrite] at hlabel
        simp [writeMap, Assoc.get?] at hlabel
      rw [at?_metadata]
      simpa [table, ofMetadata, metadata, Assoc.get?, hentries, nonempty?_of_ne hne, hwrite]
        using hlabel
  | owner position path _ howner =>
      obtain ⟨list, hlist, hitems⟩ := Option.bind_eq_some_iff.mp hat
      obtain ⟨item, hitem, hvalue⟩ := Option.bind_eq_some_iff.mp hitems
      have hnull : list.isNull = false := by
        cases list with
        | null => simp [Json.items] at hitem
        | _ => rfl
      obtain ⟨owners, howners, hread⟩ := (read_of_optional hfrom.owners) hlist hnull
      obtain ⟨model, hmodel, hread⟩ := readList_getElem? hread hitem
      have hkept := OwnerModel.keeps hread howner hvalue
      have hne : owners.map OwnerModel.reference ≠ [] := by
        rintro hnil
        rw [List.map_eq_nil_iff.mp hnil] at hmodel
        simp at hmodel
      rw [at?_metadata]
      simpa [table, ofMetadata, metadata, Assoc.get?, howners, nonempty?_of_ne hne, Json.items,
        hmodel] using hkept

theorem carried_of_at? {metadata : Metadata} (hns : metadata.ns ≠ "" ∨ metadata.ns = home)
    (hcreated : ∀ moment ∈ metadata.created, moment.Proper) (hleaf : value.isLeaf = true)
    (hat : (ofMetadata metadata).write.at? path = some value) : MetaCarried home path value := by
  have hpresent : present (ofMetadata metadata).table ≠ [] := by simp [table, present]
  obtain ⟨name, rest, part, rfl, hmem, hpart⟩ := exists_of_at?_written hpresent hleaf hat
  simp only [table, ofMetadata, Option.map_some, Option.map_map, List.mem_cons, Prod.mk.injEq,
    Option.some.injEq, List.not_mem_nil, or_false] at hmem
  rcases hmem with ⟨rfl, rfl⟩ | ⟨rfl, rfl⟩ | ⟨rfl, hget⟩ | ⟨rfl, hget⟩ | ⟨rfl, hget⟩ |
    ⟨rfl, hget⟩ | ⟨rfl, hget⟩
  · obtain ⟨rfl, rfl⟩ := Json.at?_str.mp hpart
    exact .name _
  · obtain ⟨rfl, rfl⟩ := Json.at?_str.mp hpart
    exact .ns _ hns
  · obtain ⟨text, htext, rfl⟩ := Option.map_eq_some_iff.mp hget.symm
    obtain ⟨rfl, hne⟩ := filled?_eq_some htext
    obtain ⟨rfl, rfl⟩ := Json.at?_str.mp hpart
    exact .filled "uid" _ (by simp) hne
  · obtain ⟨text, htext, rfl⟩ := Option.map_eq_some_iff.mp hget.symm
    obtain ⟨rfl, hne⟩ := filled?_eq_some htext
    obtain ⟨rfl, rfl⟩ := Json.at?_str.mp hpart
    exact .filled "resourceVersion" _ (by simp) hne
  · obtain ⟨moment, hmoment, rfl⟩ := Option.map_eq_some_iff.mp hget.symm
    obtain ⟨rfl, rfl⟩ := Json.at?_str.mp hpart
    exact .created moment (hcreated moment hmoment)
  · obtain ⟨labels, hlabels, rfl⟩ := Option.map_eq_some_iff.mp hget.symm
    obtain ⟨rfl, hne⟩ := nonempty?_eq_some hlabels
    have hmembers : metadata.labels.map (fun entry => (entry.1, Json.str entry.2)) ≠ [] := by
      simpa using hne
    obtain ⟨name, rest, text, rfl, hget, htext⟩ := Json.exists_of_at?_obj hmembers hleaf hpart
    obtain ⟨entry, -, hentry⟩ := List.mem_map.mp (Assoc.mem_of_get? hget)
    cases hentry
    obtain ⟨rfl, rfl⟩ := Json.at?_str.mp htext
    exact .label _ _
  · obtain ⟨owners, howners, rfl⟩ := Option.map_eq_some_iff.mp hget.symm
    obtain ⟨rfl, hne⟩ := nonempty?_eq_some howners
    rcases Json.exists_of_at?_arr hleaf hpart with ⟨hnil, -, -⟩ | hitem
    · simp [hne] at hnil
    · obtain ⟨position, rest, item, rfl, hitem, hvalue⟩ := hitem
      rw [List.map_map, List.getElem?_map] at hitem
      obtain ⟨reference, -, rfl⟩ := Option.map_eq_some_iff.mp hitem
      exact .owner position rest value (OwnerModel.carried_of_at? hleaf hvalue)

theorem carried_of_read (hread : read given = .valid model) (hleaf : value.isLeaf = true)
    (hat : (ofMetadata (model.metadata home)).write.at? path = some value) :
    MetaCarried home path value := by
  obtain ⟨members, -, hfrom⟩ := readFrom hread
  apply carried_of_at? ?_ hfrom.proper hleaf hat
  cases hfilled : model.ns.bind filled? with
  | none =>
      right
      simp [metadata, hfilled]
  | some text =>
      obtain ⟨found, -, htext⟩ := Option.bind_eq_some_iff.mp hfilled
      obtain ⟨rfl, hne⟩ := filled?_eq_some htext
      left
      simpa [metadata, hfilled] using hne

end MetaModel

/-! ## Scheduled commands -/

/-- The leaves of a scheduled command that are carried, beside what it asks for and how
far it has come. -/
inductive AtCarried (home : String) : List Step → Json → Prop where
  | apiVersion : AtCarried home [.member "apiVersion"] (.str atApiVersion)
  | kind : AtCarried home [.member "kind"] (.str ResourceKind.at.text)
  | metadata (path : List Step) (value : Json) (hmeta : MetaCarried home path value) :
      AtCarried home (.member "metadata" :: path) value

theorem AtCarried.head_ne (hcarried : AtCarried home path value) :
    path.head? ≠ some (.member "spec") := by
  cases hcarried <;> simp

theorem AtCarried.below_metadata (hcarried : AtCarried home (.member "metadata" :: path) value) :
    MetaCarried home path value := by
  generalize hwhole : Step.member "metadata" :: path = whole at hcarried
  cases hcarried with
  | metadata rest _ hmeta =>
      cases hwhole
      exact hmeta
  | _ => simp at hwhole

theorem at?_encodeAt (resource : At) (name : String) (path : List Step) :
    (encodeAt resource).at? (.member name :: path) =
      (Assoc.get? (AtModel.ofResource resource).table name).join.bind fun part => part.at? path :=
  (AtModel.ofResource resource).tabled.at?_written name path

theorem encodeAt_keeps {resource : At} (hdecode : decodeAt home given = .ok resource)
    (hcarried : AtCarried home path value) (hat : given.at? path = some value) :
    (encodeAt resource).at? path = some value := by
  obtain ⟨model, hmodel, rfl⟩ := exists_of_decodeAt hdecode
  obtain ⟨members, rfl, hfrom⟩ := AtModel.readFrom hmodel
  cases hcarried with
  | apiVersion =>
      rw [at?_encodeAt]
      simp [AtModel.table, AtModel.ofResource, Assoc.get?]
  | kind =>
      rw [at?_encodeAt]
      simp [AtModel.table, AtModel.ofResource, Assoc.get?]
  | metadata path _ hmeta =>
      obtain ⟨part, hpart, hvalue⟩ := Option.bind_eq_some_iff.mp hat
      have hread := (read_of_required hfrom.metadata) hpart
      have hkept := MetaModel.keeps hread hmeta hvalue
      rw [at?_encodeAt]
      simpa [AtModel.table, AtModel.ofResource, AtModel.resource, Assoc.get?] using hkept

theorem carried_of_at?_encodeAt {resource : At} (hdecode : decodeAt home given = .ok resource)
    (hleaf : value.isLeaf = true) (hspec : path.head? ≠ some (.member "spec"))
    (hstatus : path.head? ≠ some (.member "status"))
    (hat : (encodeAt resource).at? path = some value) : AtCarried home path value := by
  have hpresent : present (AtModel.ofResource resource).table ≠ [] := by
    simp [AtModel.table, present]
  obtain ⟨name, rest, part, rfl, hmem, hpart⟩ := exists_of_at?_written hpresent hleaf hat
  simp only [AtModel.table, AtModel.ofResource, Option.map_some, List.mem_cons, Prod.mk.injEq,
    Option.some.injEq, List.not_mem_nil, or_false] at hmem
  rcases hmem with ⟨rfl, rfl⟩ | ⟨rfl, rfl⟩ | ⟨rfl, rfl⟩ | ⟨rfl, -⟩ | ⟨rfl, -⟩
  · obtain ⟨rfl, rfl⟩ := Json.at?_str.mp hpart
    exact .apiVersion
  · obtain ⟨rfl, rfl⟩ := Json.at?_str.mp hpart
    exact .kind
  · obtain ⟨model, hmodel, rfl⟩ := exists_of_decodeAt hdecode
    obtain ⟨members, -, hfrom⟩ := AtModel.readFrom hmodel
    obtain ⟨json, hmeta⟩ := exists_of_required hfrom.metadata
    exact .metadata rest value (MetaModel.carried_of_read hmeta hleaf hpart)
  · exact absurd rfl hspec
  · exact absurd rfl hstatus

/-! ## Tasks -/

/-- The leaves of a container that are carried. -/
inductive ContainerCarried : List Step → Json → Prop where
  | text (name text : String) (hname : name ∈ ["name", "image"]) :
      ContainerCarried [.member name] (.str text)
  | word (position : Nat) (text : String) :
      ContainerCarried [.member "command", .index position] (.str text)
  | silent : ContainerCarried [.member "command"] (.arr [])

/-- The leaves of a pod that are carried, beside how far it has come: of the containers
those of the first. -/
inductive PodCarried (home : String) : List Step → Json → Prop where
  | apiVersion : PodCarried home [.member "apiVersion"] (.str "v1")
  | kind : PodCarried home [.member "kind"] (.str "Pod")
  | metadata (path : List Step) (value : Json) (hmeta : MetaCarried home path value) :
      PodCarried home (.member "metadata" :: path) value
  | container (path : List Step) (value : Json) (hcontainer : ContainerCarried path value) :
      PodCarried home (.member "spec" :: .member "containers" :: .index 0 :: path) value
  | policy (policy : RestartPolicy) :
      PodCarried home [.member "spec", .member "restartPolicy"] (.str policy.text)

theorem PodCarried.first_container {position : Nat}
    (hcarried : PodCarried home
      (.member "spec" :: .member "containers" :: .index position :: path) value) :
    position = 0 := by
  generalize hwhole : Step.member "spec" :: Step.member "containers" :: Step.index position ::
    path = whole at hcarried
  cases hcarried with
  | container rest _ hcontainer =>
      cases hwhole
      rfl
  | _ => simp at hwhole

/-- The model of the container of a task. -/
def ContainerModel.ofContainer (container : Container) : ContainerModel :=
  { name := container.name, image := container.image, command := container.command }

namespace ContainerModel

variable {model : ContainerModel}

theorem at?_container (container : Container) (name : String) (path : List Step) :
    (ofContainer container).write.at? (.member name :: path) =
      (Assoc.get? (ofContainer container).table name).join.bind fun part => part.at? path :=
  (ofContainer container).tabled.at?_written name path

theorem keeps (hread : read given = .valid model) (hcarried : ContainerCarried path value)
    (hat : given.at? path = some value) :
    (ofContainer ⟨model.name, model.image, model.command⟩).write.at? path = some value := by
  obtain ⟨members, rfl, hfrom⟩ := readFrom hread
  cases hcarried with
  | text name text hname =>
      have hget := get?_of_at? hat
      simp only [List.mem_cons, List.not_mem_nil, or_false] at hname
      rcases hname with rfl | rfl
      · have htext := Checked.valid.inj ((read_of_required hfrom.name) hget)
        rw [at?_container]
        simp [table, ofContainer, Assoc.get?, htext]
      · have htext := Checked.valid.inj ((read_of_required hfrom.image) hget)
        rw [at?_container]
        simp [table, ofContainer, Assoc.get?, htext]
  | word position text =>
      obtain ⟨list, hlist, hitems⟩ := Option.bind_eq_some_iff.mp hat
      obtain ⟨item, hitem, hvalue⟩ := Option.bind_eq_some_iff.mp hitems
      obtain rfl : item = .str text := Option.some.inj hvalue
      have hread := (read_of_defaulted hfrom.command) hlist
      obtain ⟨word, hword, hread⟩ := readList_getElem? hread hitem
      have hsame : text = word := Checked.valid.inj hread
      rw [at?_container]
      simp [table, ofContainer, Assoc.get?, Json.items, hword, hsame]
  | silent =>
      have hread := (read_of_defaulted hfrom.command) (get?_of_at? hat)
      have hnone : [] = model.command := Checked.valid.inj hread
      rw [at?_container]
      simp [table, ofContainer, Assoc.get?, ← hnone]

theorem carried_of_at? (container : Container) (hleaf : value.isLeaf = true)
    (hat : (ofContainer container).write.at? path = some value) : ContainerCarried path value := by
  have hpresent : present (ofContainer container).table ≠ [] := by simp [table, present]
  obtain ⟨name, rest, part, rfl, hmem, hpart⟩ := exists_of_at?_written hpresent hleaf hat
  simp only [table, List.mem_cons, Prod.mk.injEq, Option.some.injEq, List.not_mem_nil,
    or_false] at hmem
  rcases hmem with ⟨rfl, rfl⟩ | ⟨rfl, rfl⟩ | ⟨rfl, rfl⟩
  · obtain ⟨rfl, rfl⟩ := Json.at?_str.mp hpart
    exact .text "name" _ (by simp)
  · obtain ⟨rfl, rfl⟩ := Json.at?_str.mp hpart
    exact .text "image" _ (by simp)
  · rcases Json.exists_of_at?_arr hleaf hpart with ⟨-, rfl, rfl⟩ | hitem
    · exact .silent
    · obtain ⟨position, rest, item, rfl, hitem, hvalue⟩ := hitem
      rw [List.getElem?_map] at hitem
      obtain ⟨word, -, rfl⟩ := Option.map_eq_some_iff.mp hitem
      obtain ⟨rfl, rfl⟩ := Json.at?_str.mp hvalue
      exact .word position word

end ContainerModel

theorem at?_encodeTask (task : Task) (name : String) (path : List Step) :
    (encodeTask task).at? (.member name :: path) =
      (Assoc.get? (PodModel.ofTask task).table name).join.bind fun part => part.at? path :=
  (PodModel.ofTask task).tabled.at?_written name path

theorem at?_podSpec (task : Task) (name : String) (path : List Step) :
    (PodModel.ofTask task).spec.write.at? (.member name :: path) =
      (Assoc.get? (PodModel.ofTask task).spec.table name).join.bind fun part => part.at? path :=
  (PodModel.ofTask task).spec.tabled.at?_written name path

theorem at?_encodeTask_spec (task : Task) (path : List Step) :
    (encodeTask task).at? (.member "spec" :: path) =
      (PodModel.ofTask task).spec.write.at? path := by
  rw [at?_encodeTask]
  simp [PodModel.table, Assoc.get?]

theorem encodeTask_keeps {task : Task} (hdecode : decodeTask home given = .ok task)
    (hcarried : PodCarried home path value) (hat : given.at? path = some value) :
    (encodeTask task).at? path = some value := by
  obtain ⟨model, hmodel, htask⟩ := exists_of_decodeTask hdecode
  obtain ⟨container, hhead, rfl⟩ := Option.map_eq_some_iff.mp htask
  obtain ⟨members, rfl, hfrom⟩ := PodModel.readFrom hmodel
  cases hcarried with
  | apiVersion =>
      rw [at?_encodeTask]
      simp [PodModel.table, PodModel.ofTask, Assoc.get?]
  | kind =>
      rw [at?_encodeTask]
      simp [PodModel.table, PodModel.ofTask, Assoc.get?]
  | metadata path _ hmeta =>
      obtain ⟨part, hpart, hvalue⟩ := Option.bind_eq_some_iff.mp hat
      have hread := (read_of_required hfrom.metadata) hpart
      have hkept := MetaModel.keeps hread hmeta hvalue
      rw [at?_encodeTask]
      simpa [PodModel.table, PodModel.ofTask, Assoc.get?] using hkept
  | container path _ hcontainer =>
      obtain ⟨spec, hspec, hlist⟩ := Option.bind_eq_some_iff.mp hat
      have hread := (read_of_required hfrom.spec) hspec
      obtain ⟨members, rfl, hfrom⟩ := PodSpecModel.readFrom hread
      obtain ⟨list, hlist, hitems⟩ := Option.bind_eq_some_iff.mp hlist
      obtain ⟨item, hitem, hvalue⟩ := Option.bind_eq_some_iff.mp hitems
      have hread := (read_of_required hfrom.containers) hlist
      obtain ⟨first, hfirst, hread⟩ := readList_getElem? hread hitem
      rw [← List.head?_eq_getElem?, hhead] at hfirst
      cases hfirst
      have hkept := ContainerModel.keeps hread hcontainer hvalue
      rw [at?_encodeTask_spec, at?_podSpec]
      simpa [PodSpecModel.table, PodModel.ofTask, Assoc.get?, Json.items,
        ContainerModel.ofContainer] using hkept
  | policy policy =>
      obtain ⟨spec, hspec, hpolicy⟩ := Option.bind_eq_some_iff.mp hat
      have hread := (read_of_required hfrom.spec) hspec
      obtain ⟨members, rfl, hfrom⟩ := PodSpecModel.readFrom hread
      have hget := get?_of_at? hpolicy
      obtain ⟨text, htext, hread⟩ := (read_of_optional hfrom.restartPolicy) hget rfl
      have hsame : policy.text = text := Checked.valid.inj hread
      have hback : podPolicy model.spec.restartPolicy = policy := by
        simp [podPolicy, htext, ← hsame, RestartPolicy.ofText?_text]
      rw [at?_encodeTask_spec, at?_podSpec]
      simp [PodSpecModel.table, PodModel.ofTask, Assoc.get?, hback]

theorem carried_of_at?_encodeTask {task : Task} (hdecode : decodeTask home given = .ok task)
    (hleaf : value.isLeaf = true) (hat : (encodeTask task).at? path = some value) :
    PodCarried home path value := by
  have hpresent : present (PodModel.ofTask task).table ≠ [] := by simp [PodModel.table, present]
  obtain ⟨name, rest, part, rfl, hmem, hpart⟩ := exists_of_at?_written hpresent hleaf hat
  simp only [PodModel.table, List.mem_cons, Prod.mk.injEq, Option.some.injEq, List.not_mem_nil,
    or_false] at hmem
  rcases hmem with ⟨rfl, rfl⟩ | ⟨rfl, rfl⟩ | ⟨rfl, rfl⟩ | ⟨rfl, rfl⟩ | ⟨-, hnone⟩
  · obtain ⟨rfl, rfl⟩ := Json.at?_str.mp hpart
    exact .apiVersion
  · obtain ⟨rfl, rfl⟩ := Json.at?_str.mp hpart
    exact .kind
  · obtain ⟨model, hmodel, htask⟩ := exists_of_decodeTask hdecode
    obtain ⟨container, -, rfl⟩ := Option.map_eq_some_iff.mp htask
    obtain ⟨members, -, hfrom⟩ := PodModel.readFrom hmodel
    obtain ⟨json, hmeta⟩ := exists_of_required hfrom.metadata
    exact .metadata rest value (MetaModel.carried_of_read hmeta hleaf hpart)
  · have hpresent : present (PodModel.ofTask task).spec.table ≠ [] := by
      simp [PodSpecModel.table, present]
    obtain ⟨name, rest, part, rfl, hmem, hpart⟩ := exists_of_at?_written hpresent hleaf hpart
    simp only [PodSpecModel.table, PodModel.ofTask, Option.map_some, List.map_cons, List.map_nil,
      List.mem_cons, Prod.mk.injEq, Option.some.injEq, List.not_mem_nil, or_false] at hmem
    rcases hmem with ⟨rfl, rfl⟩ | ⟨rfl, rfl⟩
    · rcases Json.exists_of_at?_arr hleaf hpart with ⟨hnil, -, -⟩ | hitem
      · cases hnil
      · -- a single container is written, so only the first position leads anywhere
        obtain ⟨position, rest, item, rfl, hitem, hvalue⟩ := hitem
        cases position with
        | zero =>
            cases hitem
            exact .container rest value (ContainerModel.carried_of_at? task.container hleaf hvalue)
        | succ position => simp at hitem
    · obtain ⟨rfl, rfl⟩ := Json.at?_str.mp hpart
      exact .policy _
  · simp [PodModel.ofTask] at hnone

end Wire

end OneShot
