import Mathlib.Data.List.Basic
import Mathlib.Data.List.Induction
import Mathlib.Logic.Function.Basic

/-!
# Runs

A system is a step function that gives the next configuration, or none where a
move is not possible.  What one step keeps, a run keeps; that induction is made
here once, and every invariant of the library is an instance of it.
-/

namespace OneShot

variable {σ μ : Type}

/-- Carry out moves one after the other; none if one of them is not possible. -/
def play (step : σ → μ → Option σ) (start : σ) (moves : List μ) : Option σ :=
  moves.foldlM step start

@[simp] theorem play_nil (step : σ → μ → Option σ) (start : σ) :
    play step start [] = some start := rfl

@[simp] theorem play_cons (step : σ → μ → Option σ) (start : σ) (move : μ) (rest : List μ) :
    play step start (move :: rest) =
      (step start move).bind fun next => play step next rest := by
  simp only [play, List.foldlM_cons, Option.bind_eq_bind]

/-- What every possible move keeps holds at the end of every run. -/
theorem play_keeps {step : σ → μ → Option σ} {P : σ → Prop}
    (hstep : ∀ config move next, P config → step config move = some next → P next)
    {start finish : σ} {moves : List μ} (hstart : P start)
    (hplay : play step start moves = some finish) : P finish := by
  induction moves generalizing start with
  | nil =>
      simp only [play_nil, Option.some.injEq] at hplay
      exact hplay ▸ hstart
  | cons move rest ih =>
      rw [play_cons, Option.bind_eq_some_iff] at hplay
      obtain ⟨next, hnext, hrest⟩ := hplay
      exact ih (hstep start move next hstart hnext) hrest

theorem play_append (step : σ → μ → Option σ) (start : σ) (first second : List μ) :
    play step start (first ++ second) =
      (play step start first).bind fun next => play step next second := by
  simp only [play, List.foldlM_append, Option.bind_eq_bind]

def Reaches (step : σ → μ → Option σ) (start finish : σ) : Prop :=
  ∃ moves, play step start moves = some finish

namespace Reaches

variable {step : σ → μ → Option σ} {start next finish : σ}

theorem refl (step : σ → μ → Option σ) (start : σ) : Reaches step start start :=
  ⟨[], play_nil step start⟩

theorem of_step (move : μ) (hstep : step start move = some next) : Reaches step start next :=
  ⟨[move], by rw [play_cons, hstep, Option.bind_some, play_nil]⟩

theorem trans (h : Reaches step start next) (h' : Reaches step next finish) :
    Reaches step start finish := by
  obtain ⟨first, hfirst⟩ := h
  obtain ⟨second, hsecond⟩ := h'
  exact ⟨first ++ second, by rw [play_append, hfirst, Option.bind_some, hsecond]⟩

end Reaches

/-! ## What has happened in a run -/

variable {step : σ → μ → Option σ} {start finish : σ} {moves : List μ} {move last : μ}

theorem play_snoc (hplay : play step start moves = some finish) (move : μ) :
    play step start (moves ++ [move]) = step finish move := by
  rw [play_append, hplay, Option.bind_some, play_cons]
  cases step finish move <;> rfl

/-- What holds of the moves made so far and where they lead, and is brought by
every possible move to the next, holds at the end of every run. -/
theorem play_records {P : List μ → σ → Prop} (hstart : P [] start)
    (hstep : ∀ moves config move next, play step start moves = some config → P moves config →
      step config move = some next → P (moves ++ [move]) next)
    (hplay : play step start moves = some finish) : P moves finish := by
  induction moves using List.reverseRecOn generalizing finish with
  | nil =>
      cases hplay
      exact hstart
  | append_singleton earlier move ih =>
      rw [play_append, Option.bind_eq_some_iff] at hplay
      obtain ⟨config, hearlier, hlast⟩ := hplay
      rw [play_cons, Option.bind_eq_some_iff] at hlast
      obtain ⟨next, hnext, hend⟩ := hlast
      cases hend
      exact hstep earlier config move finish hearlier (ih hearlier) hnext

/-- At some point of a run there is a move of which `P` holds; `P` is also told
of the moves that follow. -/
def Sometime (step : σ → μ → Option σ) (P : σ → μ → List μ → Prop) (start : σ)
    (moves : List μ) : Prop :=
  ∃ before move after config, moves = before ++ move :: after ∧
    play step start before = some config ∧ P config move after

/-- At some point of a run there is a move of which `P` holds, and later on one
of which `Q` holds. -/
def Followed (step : σ → μ → Option σ) (P : σ → μ → List μ → Prop) (Q : σ → μ → Prop) :
    σ → List μ → Prop :=
  Sometime step fun config move after =>
    P config move after ∧
      ∃ next, step config move = some next ∧
        Sometime step (fun config move _ => Q config move) next after

variable {P : σ → μ → List μ → Prop} {Q : σ → μ → Prop}

theorem not_sometime_nil : ¬ Sometime step P start [] := by
  rintro ⟨before, move, after, config, hsplit, -⟩
  exact List.cons_ne_nil _ _ (List.append_eq_nil_iff.mp hsplit.symm).2

theorem Sometime.snoc {P' : σ → μ → List μ → Prop} (h : Sometime step P start moves)
    (hkeeps : ∀ config move after, P config move after → P' config move (after ++ [last])) :
    Sometime step P' start (moves ++ [last]) := by
  obtain ⟨before, move, after, config, rfl, hbefore, hP⟩ := h
  exact ⟨before, move, after ++ [last], config, by simp, hbefore, hkeeps _ _ _ hP⟩

theorem sometime_last (hplay : play step start moves = some finish) (hP : P finish move []) :
    Sometime step P start (moves ++ [move]) :=
  ⟨moves, move, [], finish, rfl, hplay, hP⟩

theorem sometime_head {rest : List μ} (hP : P start move rest) :
    Sometime step P start (move :: rest) :=
  ⟨[], move, rest, start, rfl, rfl, hP⟩

theorem Sometime.cons {next : σ} (hstep : step start move = some next)
    (h : Sometime step P next moves) : Sometime step P start (move :: moves) := by
  obtain ⟨before, found, after, config, rfl, hbefore, hP⟩ := h
  refine ⟨move :: before, found, after, config, rfl, ?_, hP⟩
  rw [play_cons, hstep, Option.bind_some, hbefore]

theorem sometime_cons_iff : Sometime step P start (move :: moves) ↔
    P start move moves ∨ ∃ next, step start move = some next ∧ Sometime step P next moves := by
  constructor
  · rintro ⟨before, found, after, config, hsplit, hbefore, hP⟩
    rcases List.cons_eq_append_iff.mp hsplit with ⟨rfl, heq⟩ | ⟨earlier, rfl, rfl⟩
    · cases heq
      cases hbefore
      exact Or.inl hP
    · rw [play_cons, Option.bind_eq_some_iff] at hbefore
      obtain ⟨next, hstep, hearlier⟩ := hbefore
      exact Or.inr ⟨next, hstep, earlier, found, after, config, rfl, hearlier, hP⟩
  · rintro (hP | ⟨next, hstep, hlater⟩)
    · exact sometime_head hP
    · exact hlater.cons hstep

instance decidableSometime [∀ config move after, Decidable (P config move after)] :
    (start : σ) → (moves : List μ) → Decidable (Sometime step P start moves)
  | _, [] => isFalse not_sometime_nil
  | start, move :: rest =>
      have (next : σ) : Decidable (Sometime step P next rest) := decidableSometime next rest
      decidable_of_iff
        (P start move rest ∨ ∃ next, step start move = some next ∧ Sometime step P next rest)
        sometime_cons_iff.symm

/-- A move that is made in a run is the last one or was made before it. -/
theorem Sometime.of_snoc (hplay : play step start moves = some finish)
    (h : Sometime step (fun config move _ => Q config move) start (moves ++ [move])) :
    Sometime step (fun config move _ => Q config move) start moves ∨ Q finish move := by
  obtain ⟨before, found, after, config, hsplit, hbefore, hQ⟩ := h
  rcases List.eq_nil_or_concat after with rfl | ⟨rest, last, rfl⟩
  · obtain ⟨rfl, heq⟩ := List.append_inj' hsplit rfl
    cases heq
    rw [hplay] at hbefore
    cases hbefore
    exact Or.inr hQ
  · left
    have hsame : moves ++ [move] = (before ++ found :: rest) ++ [last] := by
      rw [hsplit]
      simp
    obtain ⟨rfl, -⟩ := List.append_inj' hsame rfl
    exact ⟨before, found, rest, config, rfl, hbefore, hQ⟩

theorem Sometime.exists_mem (h : Sometime step P start moves) :
    ∃ config after, ∃ move ∈ moves, P config move after := by
  obtain ⟨before, move, after, config, rfl, -, hP⟩ := h
  exact ⟨config, after, move, by simp, hP⟩

theorem Followed.exists_mem (h : Followed step P Q start moves) :
    ∃ config, ∃ move ∈ moves, Q config move := by
  obtain ⟨before, move, after, config, rfl, -, -, next, -, hlater⟩ := h
  obtain ⟨config, rest, found, hfound, hQ⟩ := hlater.exists_mem
  exact ⟨config, found, by simp [hfound], hQ⟩

theorem Followed.snoc (h : Followed step P Q start moves)
    (hkeeps : ∀ config move after, P config move after → P config move (after ++ [last])) :
    Followed step P Q start (moves ++ [last]) :=
  Sometime.snoc h fun _ _ _ ⟨hP, next, hnext, hlater⟩ =>
    ⟨hkeeps _ _ _ hP, next, hnext, hlater.snoc fun _ _ _ hQ => hQ⟩

theorem Sometime.followed (h : Sometime step P start moves)
    (hkeeps : ∀ config move after, P config move after → P config move (after ++ [last]))
    (hplay : play step start moves = some finish) (hQ : Q finish last) :
    Followed step P Q start (moves ++ [last]) := by
  obtain ⟨before, move, after, config, rfl, hbefore, hP⟩ := h
  rw [play_append, hbefore, Option.bind_some, play_cons, Option.bind_eq_some_iff] at hplay
  obtain ⟨next, hnext, hafter⟩ := hplay
  exact ⟨before, move, after ++ [last], config, by simp, hbefore, hkeeps _ _ _ hP, next, hnext,
    sometime_last hafter hQ⟩

/-! ## Many participants -/

/-- After one of the participants has moved, each of them is where it was, or is
the one that has moved. -/
theorem update_cases {ι β : Type} [DecidableEq ι] {places : ι → β} {one other : ι}
    {place found : β} (hfound : Function.update places one place other = found) :
    (other = one ∧ place = found) ∨ (other ≠ one ∧ places other = found) := by
  by_cases heq : other = one
  · rw [heq, Function.update_self] at hfound
    exact Or.inl ⟨heq, hfound⟩
  · rw [Function.update_of_ne heq] at hfound
    exact Or.inr ⟨heq, hfound⟩

end OneShot
