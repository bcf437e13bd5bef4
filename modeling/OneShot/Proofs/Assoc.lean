import OneShot.Assoc
import Mathlib.Data.List.Basic
import Mathlib.Data.List.Nodup

/-!
# Looking up in association lists

A key that was put or forgotten is looked up as expected, and all other keys
are looked up as before.  A list that has each key once is a finite map, and
such lists are the same map if the one is a rearrangement of the other.
-/

namespace OneShot.Assoc

variable {κ α : Type} [DecidableEq κ]

theorem get?_erase (entries : List (κ × α)) (key other : κ) :
    get? (erase entries key) other = if other = key then none else get? entries other := by
  induction entries with
  | nil => simp [erase, get?]
  | cons entry rest ih =>
      obtain ⟨name, value⟩ := entry
      by_cases hname : name = key
      · subst hname
        have herase : erase ((name, value) :: rest) name = erase rest name := by
          simp [erase]
        rw [herase, ih]
        by_cases hother : other = name
        · simp [hother]
        · simp [hother, get?, Ne.symm hother]
      · have herase : erase ((name, value) :: rest) key = (name, value) :: erase rest key := by
          simp [erase, hname]
        rw [herase]
        by_cases hother : name = other
        · subst hother
          simp [get?, hname]
        · simp [get?, hother, ih]

theorem get?_put (entries : List (κ × α)) (key : κ) (value : α) (other : κ) :
    get? (put entries key value) other =
      if other = key then some value else get? entries other := by
  induction entries with
  | nil =>
      by_cases hother : key = other
      · simp [put, get?, hother]
      · simp [put, get?, hother, Ne.symm hother]
  | cons entry rest ih =>
      obtain ⟨name, old⟩ := entry
      by_cases hname : name = key
      · subst hname
        by_cases hother : name = other
        · simp [put, get?, hother]
        · simp [put, get?, hother, Ne.symm hother]
      · by_cases hother : name = other
        · subst hother
          simp [put, get?, hname]
        · simp [put, get?, hname, hother, ih]

theorem isSome_get?_of_mem {entries : List (κ × α)} {entry : κ × α} (hmem : entry ∈ entries) :
    (get? entries entry.1).isSome = true := by
  induction entries with
  | nil => cases hmem
  | cons first rest ih =>
      unfold get?
      by_cases hsame : first.1 = entry.1
      · simp [hsame]
      · rw [if_neg hsame]
        rcases List.mem_cons.mp hmem with rfl | hrest
        · exact absurd rfl hsame
        · exact ih hrest

theorem mem_of_get? {entries : List (κ × α)} {key : κ} {value : α}
    (hget : get? entries key = some value) : (key, value) ∈ entries := by
  induction entries with
  | nil => cases hget
  | cons first rest ih =>
      obtain ⟨name, found⟩ := first
      unfold get? at hget
      split at hget
      next hsame =>
        cases hget
        rw [hsame]
        exact List.mem_cons_self
      next => exact List.mem_cons_of_mem _ (ih hget)

theorem put_map {β : Type} (f : α → β) (entries : List (κ × α)) (key : κ) (value : α) :
    put (entries.map fun entry => (entry.1, f entry.2)) key (f value) =
      (put entries key value).map fun entry => (entry.1, f entry.2) := by
  induction entries with
  | nil => rfl
  | cons entry rest ih =>
      obtain ⟨name, old⟩ := entry
      by_cases hname : name = key
      · simp [put, hname]
      · simp [put, hname, ih]

theorem ofList_map {β : Type} (f : α → β) (entries : List (κ × α)) :
    ofList (entries.map fun entry => (entry.1, f entry.2)) =
      (ofList entries).map fun entry => (entry.1, f entry.2) := by
  have hbuilt : ∀ (entries built : List (κ × α)),
      (entries.map fun entry => (entry.1, f entry.2)).foldl
          (fun built entry => put built entry.1 entry.2)
          (built.map fun entry => (entry.1, f entry.2)) =
        (entries.foldl (fun built entry => put built entry.1 entry.2) built).map
          fun entry => (entry.1, f entry.2) := by
    intro entries
    induction entries with
    | nil => intro built; rfl
    | cons entry rest ih =>
        intro built
        rw [List.map_cons, List.foldl_cons, List.foldl_cons, put_map, ih]
  exact hbuilt entries []

/-! ## Lists that are maps -/

/-- Each key is there once. -/
def IsMap (entries : List (κ × α)) : Prop :=
  (entries.map Prod.fst).Nodup

omit [DecidableEq κ] in
theorem IsMap.perm {entries others : List (κ × α)} (hmap : IsMap entries)
    (hperm : entries.Perm others) : IsMap others :=
  (hperm.map Prod.fst).nodup_iff.mp hmap

theorem IsMap.get?_eq_some_iff {entries : List (κ × α)} (hmap : IsMap entries) {key : κ}
    {value : α} : get? entries key = some value ↔ (key, value) ∈ entries := by
  refine ⟨mem_of_get?, ?_⟩
  intro hmem
  obtain ⟨found, hfound⟩ := Option.isSome_iff_exists.mp (isSome_get?_of_mem hmem)
  have hsame : ((key, found) : κ × α) = (key, value) :=
    List.inj_on_of_nodup_map hmap (mem_of_get? hfound) hmem rfl
  rw [hfound, (Prod.mk.inj hsame).2]

theorem IsMap.perm_iff {entries others : List (κ × α)} (hmap : IsMap entries)
    (hother : IsMap others) : entries.Perm others ↔ get? entries = get? others := by
  rw [List.perm_ext_iff_of_nodup (hmap.of_map _) (hother.of_map _)]
  constructor
  · intro hsame
    funext key
    apply Option.ext
    intro value
    rw [hmap.get?_eq_some_iff, hother.get?_eq_some_iff]
    exact hsame (key, value)
  · rintro hget ⟨key, value⟩
    rw [← hmap.get?_eq_some_iff, ← hother.get?_eq_some_iff, hget]

theorem put_of_fresh {entries : List (κ × α)} {key : κ} (hfresh : key ∉ entries.map Prod.fst)
    (value : α) : put entries key value = entries ++ [(key, value)] := by
  induction entries with
  | nil => rfl
  | cons entry rest ih =>
      obtain ⟨name, old⟩ := entry
      rw [List.map_cons, List.mem_cons, not_or] at hfresh
      rw [put, if_neg (Ne.symm hfresh.1), ih hfresh.2, List.cons_append]

/-- A map is built of its entries in their order. -/
theorem IsMap.ofList_eq {entries : List (κ × α)} (hmap : IsMap entries) :
    ofList entries = entries := by
  have hbuilt : ∀ built : List (κ × α), IsMap (built ++ entries) →
      entries.foldl (fun built entry => put built entry.1 entry.2) built = built ++ entries := by
    clear hmap
    induction entries with
    | nil => simp
    | cons entry rest ih =>
        intro built hmap
        have hfresh : entry.1 ∉ built.map Prod.fst := by
          intro hold
          rw [IsMap, List.map_append, List.map_cons] at hmap
          exact (List.nodup_append.mp hmap).2.2 _ hold _ List.mem_cons_self rfl
        rw [List.foldl_cons, put_of_fresh hfresh, ih, List.append_assoc, List.singleton_append]
        rwa [List.append_assoc, List.singleton_append]
  exact hbuilt [] hmap

end OneShot.Assoc
