import OneShot.Queue.Backoff
import OneShot.Proofs.Assoc
import Mathlib.Algebra.Order.Ring.Rat
import Mathlib.Data.List.Induction
import Mathlib.Tactic.Linarith
import Mathlib.Tactic.Ring

/-!
# Delays by the formula

By the formula the delay of a key is the base, doubled once for every failure of
the key since it was last forgotten, and never more than the maximum.  A long
streak of failures gets the maximum at once.  The main statement is that this
is the delay by the formula exactly if doubling has brought the base to the
maximum by then; whatever is asked for other keys makes no difference.
-/

namespace OneShot

/-- What is asked of a backoff for a key. -/
inductive BackoffRequest (κ : Type) where
  | fail (key : κ)
  | forget (key : κ)
  deriving DecidableEq

namespace BackoffRequest

variable {κ : Type}

def key : BackoffRequest κ → κ
  | fail key | forget key => key

@[simp] theorem key_fail (key : κ) : (fail key).key = key := rfl

@[simp] theorem key_forget (key : κ) : (forget key).key = key := rfl

end BackoffRequest

namespace Backoff

variable {κ τ : Type} [DecidableEq κ]

/-! ## Counts of failures -/

section Counts

variable (backoff : Backoff κ τ) (key other : κ)

theorem count_forget :
    (backoff.forget key).count other = if other = key then 0 else backoff.count other := by
  unfold forget count
  rw [Assoc.get?_erase]
  split <;> rfl

variable [Add τ] [LT τ] [DecidableLT τ]

theorem count_fail :
    (backoff.fail key).2.count other =
      if other = key then backoff.count key + 1 else backoff.count other := by
  simp only [fail, count]
  rw [Assoc.get?_put]
  split <;> rfl

end Counts

/-- The failures of a key among some requests, the oldest first, since the key
was last forgotten. -/
def failuresOf (key : κ) (requests : List (BackoffRequest κ)) : Nat :=
  (requests.reverse.takeWhile (· ≠ .forget key)).count (.fail key)

section Failures

variable (key other : κ) (requests : List (BackoffRequest κ))

@[simp] theorem failuresOf_nil : failuresOf key [] = 0 := rfl

theorem failuresOf_append_fail :
    failuresOf other (requests ++ [.fail key]) =
      if other = key then failuresOf key requests + 1 else failuresOf other requests := by
  by_cases hsame : other = key
  · simp [failuresOf, hsame]
  · simp [failuresOf, hsame, Ne.symm hsame]

theorem failuresOf_append_forget :
    failuresOf other (requests ++ [.forget key]) =
      if other = key then 0 else failuresOf other requests := by
  by_cases hsame : other = key
  · simp [failuresOf, hsame]
  · simp [failuresOf, hsame, Ne.symm hsame]

/-- The failures of a key are told by the requests for that key. -/
theorem failuresOf_filter :
    failuresOf key (requests.filter fun request => request.key = key) =
      failuresOf key requests := by
  induction requests using List.reverseRecOn with
  | nil => rfl
  | append_singleton earlier request ih =>
      rw [List.filter_append, List.filter_singleton]
      cases request with
      | fail other =>
          by_cases hsame : key = other
          · subst hsame
            simp [failuresOf_append_fail, ih]
          · simp [hsame, Ne.symm hsame, failuresOf_append_fail, ih]
      | forget other =>
          by_cases hsame : key = other
          · subst hsame
            simp [failuresOf_append_forget]
          · simp [hsame, Ne.symm hsame, failuresOf_append_forget, ih]

end Failures

/-! ## A backoff after some requests -/

section Requests

variable [Add τ] [LT τ] [DecidableLT τ]

def serve (backoff : Backoff κ τ) : BackoffRequest κ → Backoff κ τ
  | .fail key => (backoff.fail key).2
  | .forget key => backoff.forget key

/-- A backoff that is new and has then served some requests, the oldest first. -/
def serving (base maximum : τ) (requests : List (BackoffRequest κ)) : Backoff κ τ :=
  requests.foldl serve { base, maximum }

variable (base maximum : τ) (requests : List (BackoffRequest κ))

theorem delay_serve (backoff : Backoff κ τ) (request : BackoffRequest κ) :
    (backoff.serve request).delay = backoff.delay := by
  cases request <;> rfl

theorem serving_append (request : BackoffRequest κ) :
    serving base maximum (requests ++ [request]) =
      (serving base maximum requests).serve request :=
  List.foldl_concat ..

theorem delay_serving :
    (serving base maximum requests).delay = ({ base, maximum } : Backoff κ τ).delay := by
  induction requests using List.reverseRecOn with
  | nil => rfl
  | append_singleton earlier request ih => rw [serving_append, delay_serve, ih]

theorem count_serving (key : κ) :
    (serving base maximum requests).count key = failuresOf key requests := by
  induction requests using List.reverseRecOn generalizing key with
  | nil => rfl
  | append_singleton earlier request ih =>
      rw [serving_append]
      cases request with
      | fail other => rw [serve, count_fail, failuresOf_append_fail, ih, ih]
      | forget other => rw [serve, count_forget, failuresOf_append_forget, ih]

theorem fail_serving (key : κ) :
    ((serving base maximum requests).fail key).1 =
      ({ base, maximum } : Backoff κ τ).delay (failuresOf key requests) := by
  rw [fail, delay_serving, count_serving]

end Requests

/-! ## The formula -/

theorem doubled_eq (quantity : ℚ) (times : Nat) : doubled quantity times = quantity * 2 ^ times := by
  induction times generalizing quantity with
  | zero => rw [doubled, pow_zero, mul_one]
  | succ times ih =>
      rw [doubled, ih, pow_succ]
      ring

/-- The delay after a number of earlier failures, by the formula. -/
def formula (base maximum : ℚ) (earlier : Nat) : ℚ :=
  min (base * 2 ^ earlier) maximum

variable (base maximum : ℚ) {earlier : Nat}

omit [DecidableEq κ] in
theorem delay_of_short (hshort : earlier < longStreak) :
    ({ base, maximum } : Backoff κ ℚ).delay earlier = formula base maximum earlier := by
  have hnot : ¬ longStreak ≤ earlier := Nat.not_le.mpr hshort
  simp only [delay, if_neg hnot, doubled_eq, formula]
  split
  next hcapped => rw [min_eq_right hcapped.le]
  next hgrown => rw [min_eq_left (not_lt.mp hgrown)]

omit [DecidableEq κ] in
theorem delay_of_long (hlong : longStreak ≤ earlier) :
    ({ base, maximum } : Backoff κ ℚ).delay earlier = maximum := by
  rw [delay, if_pos hlong]

omit [DecidableEq κ] in
theorem delay_eq_formula_iff :
    ({ base, maximum } : Backoff κ ℚ).delay earlier = formula base maximum earlier ↔
      earlier < longStreak ∨ maximum ≤ base * 2 ^ earlier := by
  by_cases hshort : earlier < longStreak
  · simp only [delay_of_short base maximum hshort, hshort, true_or]
  · rw [delay_of_long base maximum (Nat.not_lt.mp hshort), formula, eq_comm, min_eq_right_iff]
    simp only [hshort, false_or]

omit [DecidableEq κ] in
theorem delay_between (earlier : Nat) :
    formula base maximum earlier ≤ ({ base, maximum } : Backoff κ ℚ).delay earlier ∧
      ({ base, maximum } : Backoff κ ℚ).delay earlier ≤ maximum := by
  by_cases hshort : earlier < longStreak
  · rw [delay_of_short base maximum hshort]
    exact ⟨le_rfl, min_le_right _ _⟩
  · rw [delay_of_long base maximum (Nat.not_lt.mp hshort)]
    exact ⟨min_le_right _ _, le_rfl⟩

/-- Whatever was asked of a backoff before, for whichever keys and in whichever
order, the delay given to a key is the one by the formula exactly if its streak
of failures is short or doubling has brought the base to the maximum; otherwise it
is longer.  If the maximum is reached by the time that a streak counts as long,
every delay is the one by the formula.  Requests for other keys make no
difference. -/
theorem delays_follow_formula_or_cut_short (hbase : 0 < base)
    (requests : List (BackoffRequest κ)) (key : κ) :
    let given := ((serving base maximum requests).fail key).1
    let earlier := failuresOf key requests
    (given = formula base maximum earlier ↔
        earlier < longStreak ∨ maximum ≤ base * 2 ^ earlier) ∧
      (formula base maximum earlier ≤ given ∧ given ≤ maximum) ∧
      (maximum ≤ base * 2 ^ longStreak → given = formula base maximum earlier) ∧
      given = ((serving base maximum
        (requests.filter fun request => request.key = key)).fail key).1 := by
  intro given earlier
  have hgiven : given = ({ base, maximum } : Backoff κ ℚ).delay earlier :=
    fail_serving base maximum requests key
  have hiff : given = formula base maximum earlier ↔
      earlier < longStreak ∨ maximum ≤ base * 2 ^ earlier := by
    rw [hgiven]
    exact delay_eq_formula_iff base maximum
  refine ⟨hiff, ?_, ?_, ?_⟩
  · rw [hgiven]
    exact delay_between base maximum earlier
  · intro hreached
    apply hiff.mpr
    by_cases hshort : earlier < longStreak
    · exact Or.inl hshort
    · right
      have hgrown : (2 : ℚ) ^ longStreak ≤ 2 ^ earlier :=
        pow_le_pow_right₀ (by norm_num) (Nat.not_lt.mp hshort)
      calc
        maximum ≤ base * 2 ^ longStreak := hreached
        _ ≤ base * 2 ^ earlier := mul_le_mul_of_nonneg_left hgrown hbase.le
  · rw [fail_serving, failuresOf_filter]
    exact hgiven

/-- A key that failed seventy times since it was last forgotten waits for the
maximum, while another key failed and was forgotten. -/
theorem delays_follow_formula_of_long_streak :
    let requests : List (BackoffRequest Nat) :=
      [.fail 7, .forget 7] ++ List.replicate 70 (.fail 7) ++ [.fail 8, .forget 8]
    (300 : ℚ) ≤ 1 * 2 ^ longStreak ∧ failuresOf 7 requests = 70 ∧
      ((serving (1 : ℚ) 300 requests).fail 7).1 = formula 1 300 70 := by
  intro requests
  have hfailures : failuresOf 7 requests = 70 := by decide
  have hreached : (300 : ℚ) ≤ 1 * 2 ^ longStreak := by norm_num [longStreak]
  refine ⟨hreached, hfailures, ?_⟩
  rw [← hfailures]
  exact (delays_follow_formula_or_cut_short 1 300 (by norm_num) requests 7).2.2.1 hreached

/-- After sixty-four failures with a base that is very small the delay is sixteen
by the formula, but three hundred are given. -/
theorem maximum_before_doubling_reaches_it :
    ¬ ∀ (base maximum : ℚ) (requests : List (BackoffRequest Nat)) (key : Nat),
      0 < base → base ≤ maximum →
        ((serving base maximum requests).fail key).1 =
          formula base maximum (failuresOf key requests) := by
  intro hformula
  have hdelay := hformula (1 / 2 ^ 60) 300 (List.replicate 64 (.fail 0)) 0 (by norm_num)
    (by norm_num)
  rw [fail_serving, delay_eq_formula_iff,
    show failuresOf 0 (List.replicate 64 (.fail 0)) = 64 from by decide] at hdelay
  norm_num [longStreak] at hdelay

end Backoff

end OneShot
