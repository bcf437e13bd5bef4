import Mathlib.Data.List.Forall2

/-!
# Lists that are gone through

Steps that are taken one after the other end well if each of them does.  A list whose items are
read in this way, until one of them fails, is paired with the list of the results item by item.
-/

namespace OneShot

theorem bind_eq_ok_iff {α β ε : Type} {first : Except ε α} {next : α → Except ε β} {result : β} :
    first >>= next = .ok result ↔ ∃ found, first = .ok found ∧ next found = .ok result := by
  cases first with
  | error fault => simp [bind, Except.bind]
  | ok found => simp [bind, Except.bind]

theorem forall₂_of_mapM_ok {α β ε : Type} {f : α → Except ε β} {items : List α}
    {results : List β} (hok : items.mapM f = .ok results) :
    List.Forall₂ (fun item result => f item = .ok result) items results := by
  induction items generalizing results with
  | nil =>
      cases hok
      exact .nil
  | cons first rest ih =>
      rw [List.mapM_cons] at hok
      cases hfirst : f first with
      | error fault =>
          rw [hfirst] at hok
          cases hok
      | ok head =>
          rw [hfirst] at hok
          cases hrest : rest.mapM f with
          | error fault =>
              simp only [hrest, bind, Except.bind] at hok
              cases hok
          | ok tail =>
              simp only [hrest, bind, Except.bind, pure, Except.pure, Except.ok.injEq] at hok
              subst hok
              exact .cons hfirst (ih hrest)

theorem exists_of_forall₂ {α β : Type} {R : α → β → Prop} {items : List α} {results : List β}
    (hpairs : List.Forall₂ R items results) {item : α} (hitem : item ∈ items) :
    ∃ result ∈ results, R item result := by
  induction hpairs with
  | nil => cases hitem
  | @cons first head rest tail hfirst hrest ih =>
      rcases List.mem_cons.mp hitem with rfl | hmem
      · exact ⟨head, List.mem_cons_self, hfirst⟩
      · obtain ⟨result, hresult, hpair⟩ := ih hmem
        exact ⟨result, List.mem_cons_of_mem head hresult, hpair⟩

theorem forall₂_trans {α β γ : Type} {R : α → β → Prop} {S : β → γ → Prop} {items : List α}
    {middle : List β} {results : List γ} (hfirst : List.Forall₂ R items middle)
    (hsecond : List.Forall₂ S middle results) :
    List.Forall₂ (fun item result => ∃ between, R item between ∧ S between result) items
      results := by
  induction hfirst generalizing results with
  | nil =>
      cases hsecond
      exact .nil
  | cons hitem _ ih =>
      cases hsecond with
      | cons hresult hrest => exact .cons ⟨_, hitem, hresult⟩ (ih hrest)

theorem mapM_ok_of_mem {α β ε : Type} {f : α → Except ε β} {items : List α}
    {results : List β} (hok : items.mapM f = .ok results) {item : α} (hitem : item ∈ items) :
    ∃ result ∈ results, f item = .ok result :=
  exists_of_forall₂ (forall₂_of_mapM_ok hok) hitem

theorem mem_of_mapM_ok {α β ε : Type} {f : α → Except ε β} {items : List α}
    {results : List β} (hok : items.mapM f = .ok results) {result : β}
    (hresult : result ∈ results) : ∃ item ∈ items, f item = .ok result :=
  exists_of_forall₂ (forall₂_of_mapM_ok hok).flip hresult

end OneShot
