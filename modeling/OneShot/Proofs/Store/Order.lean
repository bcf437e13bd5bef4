import OneShot.Proofs.Insertion
import OneShot.Proofs.Store.Announcements

/-!
# The order of listings

Keys are ordered by namespace and then by name.  A listing puts its rows one
after the other into their places, so it ascends as long as no two rows share a
key.
-/

namespace OneShot

namespace ObjectKey

theorem before_iff (first second : ObjectKey) :
    first.before second = true ↔
      first.ns < second.ns ∨ first.ns = second.ns ∧ first.name < second.name := by
  simp [before]

theorem before_trans {first second third : ObjectKey} (h : first.before second = true)
    (h' : second.before third = true) : first.before third = true := by
  rw [before_iff] at h h' ⊢
  rcases h with hns | ⟨hns, hname⟩
  · rcases h' with hns' | ⟨hns', -⟩
    · exact Or.inl (String.lt_trans hns hns')
    · exact Or.inl (hns' ▸ hns)
  · rcases h' with hns' | ⟨hns', hname'⟩
    · exact Or.inl (hns ▸ hns')
    · exact Or.inr ⟨hns.trans hns', String.lt_trans hname hname'⟩

theorem before_or_before {first second : ObjectKey} (hne : first ≠ second) :
    first.before second = true ∨ second.before first = true := by
  rw [before_iff, before_iff]
  rcases Std.lt_trichotomy first.ns second.ns with hns | hns | hns
  · exact Or.inl (Or.inl hns)
  · rcases Std.lt_trichotomy first.name second.name with hname | hname | hname
    · exact Or.inl (Or.inr ⟨hns, hname⟩)
    · exact absurd (by cases first; cases second; simp_all) hne
    · exact Or.inr (Or.inr ⟨hns.symm, hname⟩)
  · exact Or.inr (Or.inl hns)

end ObjectKey

namespace Store

variable {ρ : Type} {keyOf : ρ → ObjectKey}

/-- The keys of some objects ascend. -/
def Ascending (keyOf : ρ → ObjectKey) (rows : List ρ) : Prop :=
  rows.Pairwise fun first second => (keyOf first).before (keyOf second) = true

theorem insertByKey_eq (row : ρ) (rows : List ρ) :
    insertByKey keyOf row rows = rows.orderedInsert
      (fun first second => (keyOf first).before (keyOf second) = true) row := by
  induction rows with
  | nil => rfl
  | cons head rest ih => rw [insertByKey, List.orderedInsert_cons, ih]

theorem ascending_listing {rows : List ρ} (hrows : (rows.map keyOf).Nodup)
    (ns : Option String) : Ascending keyOf (listing keyOf ns rows) := by
  have hkept : ((rows.filter fun row => ns.all (· == (keyOf row).ns)).map keyOf).Nodup :=
    hrows.sublist (List.filter_sublist.map keyOf)
  have htrans : ∀ first second third : ρ, (keyOf first).before (keyOf second) = true →
      (keyOf second).before (keyOf third) = true → (keyOf first).before (keyOf third) = true :=
    fun _ _ _ => ObjectKey.before_trans
  simp only [listing, insertByKey_eq]
  refine pairwise_foldl_orderedInsert htrans List.Pairwise.nil ?_
  rw [List.append_nil]
  exact (List.pairwise_map.mp hkept).imp ObjectKey.before_or_before

/-! ## Reading a listing -/

theorem mapM_of_legible {α ε : Type} {read : ρ → Except ε α} {rows : List ρ}
    (hlegible : ∀ row ∈ rows, ∃ value, read row = .ok value) :
    ∃ values, rows.mapM read = .ok values := by
  induction rows with
  | nil => exact ⟨[], rfl⟩
  | cons row rest ih =>
      obtain ⟨value, hvalue⟩ := hlegible row List.mem_cons_self
      obtain ⟨values, hvalues⟩ := ih fun other hother =>
        hlegible other (List.mem_cons_of_mem row hother)
      refine ⟨value :: values, ?_⟩
      rw [List.mapM_cons, hvalue]
      simp only [bind, Except.bind, hvalues, pure, Except.pure]

theorem map_key_of_mapM_ok {α ε : Type} {read : ρ → Except ε α} {keyOf' : α → ObjectKey}
    (hkey : ∀ row value, read row = .ok value → keyOf' value = keyOf row) {rows : List ρ}
    {values : List α} (hok : rows.mapM read = .ok values) :
    values.map keyOf' = rows.map keyOf := by
  have hpairs := forall₂_of_mapM_ok hok
  clear hok
  induction hpairs with
  | nil => rfl
  | cons hfirst hrest ih => rw [List.map_cons, List.map_cons, hkey _ _ hfirst, ih]

theorem listing_read {α ε : Type} {read : ρ → Except ε α} {keyOf' : α → ObjectKey}
    {rows : List ρ} (hkey : ∀ row value, read row = .ok value → keyOf' value = keyOf row)
    (hrows : (rows.map keyOf).Nodup) (hlegible : ∀ row ∈ rows, ∃ value, read row = .ok value)
    (ns : Option String) :
    ∃ values, (listing keyOf ns rows).mapM read = .ok values ∧ Ascending keyOf' values ∧
      ∀ value, value ∈ values ↔
        (∃ row ∈ rows, read row = .ok value) ∧ ns.all (· == (keyOf' value).ns) = true := by
  have hlisted : ∀ row ∈ listing keyOf ns rows, ∃ value, read row = .ok value :=
    fun row hrow => hlegible row ((mem_listing keyOf ns row rows).mp hrow).1
  obtain ⟨values, hvalues⟩ := mapM_of_legible hlisted
  have hkeys := map_key_of_mapM_ok hkey hvalues
  refine ⟨values, hvalues, ?_, fun value => ⟨fun hvalue => ?_, ?_⟩⟩
  · have hascends := ascending_listing hrows ns
    unfold Ascending at hascends ⊢
    rw [← List.pairwise_map (f := keyOf) (R := fun first second => first.before second = true),
      ← hkeys, List.pairwise_map] at hascends
    exact hascends
  · obtain ⟨row, hrow, hread⟩ := mem_of_mapM_ok hvalues hvalue
    have hfound := (mem_listing keyOf ns row rows).mp hrow
    rw [hkey row value hread]
    exact ⟨⟨row, hfound.1, hread⟩, hfound.2⟩
  · rintro ⟨⟨row, hrow, hread⟩, hns⟩
    rw [hkey row value hread] at hns
    have hlisted := (mem_listing keyOf ns row rows).mpr ⟨hrow, hns⟩
    obtain ⟨found, hfound, hsame⟩ := mapM_ok_of_mem hvalues hlisted
    rw [hread, Except.ok.injEq] at hsame
    exact hsame ▸ hfound

end Store

end OneShot
