import Mathlib.Data.List.Sort

/-!
# Putting into place

A list is brought into order by putting its members into their places one after
the other.  Nothing is lost on the way, and the outcome is in order as soon as
the order tells any two of the members apart; it need not be total beyond them.
-/

namespace OneShot

variable {α : Type} (r : α → α → Prop) [DecidableRel r]

theorem perm_foldl_orderedInsert (members sorted : List α) :
    (members.foldl (fun sorted member => sorted.orderedInsert r member) sorted).Perm
      (members ++ sorted) := by
  induction members generalizing sorted with
  | nil => exact List.Perm.refl sorted
  | cons member rest ih =>
      have hplaced : (rest ++ sorted.orderedInsert r member).Perm (rest ++ member :: sorted) :=
        (List.perm_orderedInsert r member sorted).append_left rest
      exact ((ih _).trans hplaced).trans List.perm_middle

variable {r} (htrans : ∀ first second third, r first second → r second third → r first third)
include htrans

theorem pairwise_orderedInsert {member : α} {sorted : List α} (hsorted : sorted.Pairwise r)
    (happart : ∀ other ∈ sorted, r member other ∨ r other member) :
    (sorted.orderedInsert r member).Pairwise r := by
  induction sorted with
  | nil => exact List.pairwise_singleton r member
  | cons head rest ih =>
      obtain ⟨hhead, hrest⟩ := List.pairwise_cons.mp hsorted
      rw [List.orderedInsert_cons]
      split
      next hbefore =>
        refine List.pairwise_cons.mpr ⟨?_, hsorted⟩
        intro other hother
        rcases List.mem_cons.mp hother with rfl | hmem
        · exact hbefore
        · exact htrans _ _ _ hbefore (hhead other hmem)
      next hnot =>
        have hafter : r head member := (happart head List.mem_cons_self).resolve_left hnot
        refine List.pairwise_cons.mpr ⟨?_, ih hrest ?_⟩
        · intro other hother
          rcases List.mem_cons.mp ((List.perm_orderedInsert r member rest).subset hother) with
            rfl | hmem
          · exact hafter
          · exact hhead other hmem
        · exact fun other hother => happart other (List.mem_cons_of_mem head hother)

theorem pairwise_foldl_orderedInsert {members sorted : List α} (hsorted : sorted.Pairwise r)
    (happart : (members ++ sorted).Pairwise fun one other => r one other ∨ r other one) :
    (members.foldl (fun sorted member => sorted.orderedInsert r member) sorted).Pairwise r := by
  induction members generalizing sorted with
  | nil => exact hsorted
  | cons member rest ih =>
      obtain ⟨hmember, hrest⟩ := List.pairwise_cons.mp happart
      refine ih (pairwise_orderedInsert htrans hsorted ?_) ?_
      · exact fun other hother => hmember other (List.mem_append_right rest hother)
      · have hplaced : (member :: (rest ++ sorted)).Perm
            (rest ++ sorted.orderedInsert r member) :=
          List.perm_middle.symm.trans
            ((List.perm_orderedInsert r member sorted).symm.append_left rest)
        exact hplaced.pairwise happart fun hone => hone.symm

end OneShot
