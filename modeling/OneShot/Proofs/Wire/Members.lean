import OneShot.Wire.Scalar
import OneShot.Wire.Members
import OneShot.Proofs.Assoc
import Mathlib.Data.List.Nodup

/-!
# Members that are written and read back

A model is written as the members that it has, each under its wire name.  A
reader finds under the names of a member what was written for it, and nothing is
left over.
-/

namespace OneShot.Wire

variable {α β : Type}

namespace Checked

@[simp] theorem map_valid (f : α → β) (value : α) : f <$> valid value = valid (f value) := rfl

@[simp] theorem seq_valid (f : α → β) (value : α) :
    valid f <*> valid value = valid (f value) := rfl

@[simp] theorem under_valid (step : Step) (value : α) :
    (valid value).under step = valid value := rfl

end Checked

/-! ## What is found -/

/-- The members that are there. -/
def present (modelled : List (String × Option Json)) : Members :=
  modelled.filterMap fun member => member.2.map fun value => (member.1, value)

theorem written_nil (modelled : List (String × Option Json)) :
    written modelled [] = .obj (present modelled) := by
  simp [written, present]

theorem present_cons_some (name : String) (value : Json) (rest : List (String × Option Json)) :
    present ((name, some value) :: rest) = (name, value) :: present rest := by
  simp [present]

theorem present_cons_none (name : String) (rest : List (String × Option Json)) :
    present ((name, none) :: rest) = present rest := by
  simp [present]

theorem get?_present_of_not_mem {modelled : List (String × Option Json)} {name : String}
    (hname : name ∉ modelled.map Prod.fst) : Assoc.get? (present modelled) name = none := by
  induction modelled with
  | nil => rfl
  | cons member rest ih =>
      obtain ⟨other, value⟩ := member
      rw [List.map_cons, List.mem_cons, not_or] at hname
      obtain ⟨hne, hrest⟩ := hname
      cases value with
      | none => rw [present_cons_none, ih hrest]
      | some value =>
          rw [present_cons_some, Assoc.get?, if_neg (Ne.symm hne), ih hrest]

theorem get?_present {modelled : List (String × Option Json)}
    (hnames : (modelled.map Prod.fst).Nodup) (name : String) :
    Assoc.get? (present modelled) name = (Assoc.get? modelled name).join := by
  induction modelled with
  | nil => rfl
  | cons member rest ih =>
      obtain ⟨other, value⟩ := member
      rw [List.map_cons, List.nodup_cons] at hnames
      obtain ⟨hnew, hrest⟩ := hnames
      by_cases hsame : other = name
      · subst hsame
        cases value with
        | none => simp [present_cons_none, Assoc.get?, get?_present_of_not_mem hnew]
        | some value => simp [present_cons_some, Assoc.get?]
      · cases value with
        | none => simp [present_cons_none, Assoc.get?, hsame, ih hrest]
        | some value => simp [present_cons_some, Assoc.get?, hsame, ih hrest]

/-- There is an entry for each name of a model, and no two of these share a name. -/
structure Tabled (names : List MemberName) (modelled : List (String × Option Json)) : Prop where
  wires : modelled.map Prod.fst = names.map (·.wire)
  nodup : (names.map (·.wire)).Nodup
  plain : ∀ name ∈ names, name.plain = name.wire ∨ name.plain ∉ names.map (·.wire)

variable {names : List MemberName} {modelled : List (String × Option Json)} {name : MemberName}
  {members : Members}

theorem find?_eq_get? (hwire : (Assoc.get? members name.wire).isSome = true ∨
      name.plain = name.wire ∨ Assoc.get? members name.plain = none) :
    name.find? members = Assoc.get? members name.wire := by
  unfold MemberName.find? MemberName.given?
  cases hfound : Assoc.get? members name.wire with
  | some value => simp [hfound]
  | none =>
      rw [hfound] at hwire
      have hplain : Assoc.get? members name.plain = none := by
        rcases hwire with hsome | hsame | hnone
        · cases hsome
        · rw [hsame, hfound]
        · exact hnone
      simp [hfound, hplain]

/-- A member is found under its names as it was written. -/
theorem Tabled.find? (htable : Tabled names modelled) (hname : name ∈ names) :
    name.find? (present modelled) = (Assoc.get? modelled name.wire).join := by
  rw [find?_eq_get?, get?_present (htable.wires ▸ htable.nodup)]
  rcases htable.plain name hname with hsame | hforeign
  · exact Or.inr (Or.inl hsame)
  · exact Or.inr (Or.inr (get?_present_of_not_mem (htable.wires ▸ hforeign)))

theorem mem_present {member : String × Json} (hmember : member ∈ present modelled) :
    (member.1, some member.2) ∈ modelled := by
  obtain ⟨⟨name, value⟩, hmem, hvalue⟩ := List.mem_filterMap.mp hmember
  obtain ⟨found, rfl, rfl⟩ := Option.map_eq_some_iff.mp hvalue
  exact hmem

/-- Nothing is left over of what was written for the members of a model. -/
theorem Tabled.leftOver (htable : Tabled names modelled) :
    leftOver names (present modelled) = [] := by
  unfold Wire.leftOver
  rw [List.filter_eq_nil_iff]
  intro member hmember
  have hwire : member.1 ∈ names.map (·.wire) := by
    rw [← htable.wires]
    exact List.mem_map_of_mem (mem_present hmember)
  obtain ⟨name, hname, hsame⟩ := List.mem_map.mp hwire
  have hfound := Assoc.isSome_get?_of_mem hmember
  have hgiven : name.given? (present modelled) = some member.1 := by
    simp [MemberName.given?, hfound, hsame]
  have hmem : member.1 ∈ names.filterMap fun name => name.given? (present modelled) :=
    List.mem_filterMap.mpr ⟨name, hname, hgiven⟩
  simpa using hmem

/-! ## What is read -/

variable {read : Json → Checked α} {value : α}

theorem Tabled.required (htable : Tabled names modelled) (name : MemberName) (hname : name ∈ names)
    {json : Json} (hget : Assoc.get? modelled name.wire = some (some json))
    (hread : read json = .valid value) : required name read (present modelled) = .valid value := by
  simp [Wire.required, htable.find? hname, hget, hread]

theorem Tabled.defaulted (htable : Tabled names modelled) (name : MemberName) (fallback : α)
    (hname : name ∈ names) {json : Json} (hget : Assoc.get? modelled name.wire = some (some json))
    (hread : read json = .valid value) :
    defaulted name fallback read (present modelled) = .valid value := by
  simp [Wire.defaulted, htable.find? hname, hget, hread]

theorem nullable_eq {json : Json} (hjson : json.isNull = false) (hread : read json = .valid value) :
    nullable read json = .valid (some value) := by
  cases json with
  | null => cases hjson
  | _ => simp [nullable, hread]

theorem Tabled.optional (htable : Tabled names modelled) (name : MemberName) (hname : name ∈ names)
    {found : Option α} {write : α → Json}
    (hget : Assoc.get? modelled name.wire = some (found.map write))
    (hwrite : ∀ value ∈ found, (write value).isNull = false ∧ read (write value) = .valid value) :
    optional name read (present modelled) = .valid found := by
  cases found with
  | none => simp [Wire.optional, Wire.defaulted, htable.find? hname, hget]
  | some value =>
      obtain ⟨hnull, hread⟩ := hwrite value rfl
      simp [Wire.optional, Wire.defaulted, htable.find? hname, hget, nullable_eq hnull hread]

theorem readList_map {write : α → Json} (items : List α)
    (hread : ∀ item ∈ items, read (write item) = .valid item) :
    readList read (.arr (items.map write)) = .valid items := by
  have hitems : ∀ position, Checked.itemsFrom read position (items.map write) = .valid items := by
    induction items with
    | nil => exact fun _ => rfl
    | cons item rest ih =>
        intro position
        have hrest := ih fun other hother => hread other (List.mem_cons_of_mem item hother)
        simp [Checked.itemsFrom, hread item List.mem_cons_self, hrest, Checked.map, Checked.apply]
  exact hitems 0

end OneShot.Wire
