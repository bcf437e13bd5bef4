import OneShot.Proofs.Decimal.Floats
import OneShot.Proofs.Queue.HandedDelays
import OneShot.Proofs.Traversal
import OneShot.Settings.Controller
import OneShot.Simulation.World

/-!
# Settings of the controller that can be used

Settings are refused where a comparison shows them out of bounds.  No comparison holds of a float
that is no number, so the word for it passes every check; everything else that is accepted is within
its bounds.  As long as the delays are numbers, the queue can tell whether the moment of a key has
come.
-/

namespace OneShot

open OneShot.Decimal

/-! ## What the environment states -/

namespace Environment

variable {α : Type} {env : Environment} {name : String} {least : Option Quantity}

/-- What is found of a setting that the environment may state. -/
inductive Found (env : Environment) (name : String) (read : String → Option α)
    (quantity : α → Quantity) (least : Option Quantity) : Option α → Prop
  | unstated (hname : env.stated? name = none) : Found env name read quantity least none
  | stated {raw : String} {value : α} (hname : env.stated? name = some raw)
      (hread : read raw = some value)
      (hleast : ∀ bound ∈ least, (quantity value).below bound = false) :
      Found env name read quantity least (some value)

theorem Found.of_atLeast {read : String → Option α} {quantity : α → Quantity} {raw : String}
    {value : α} {found : Option α} (hname : env.stated? name = some raw)
    (hread : read raw = some value)
    (hok : (atLeast name least (quantity value)).map (fun _ => some value) = .ok found) :
    Found env name read quantity least found := by
  unfold atLeast at hok
  cases least with
  | none =>
      cases hok
      exact .stated hname hread (by simp)
  | some bound =>
      simp only at hok
      split at hok
      next => cases hok
      next hbelow =>
        cases hok
        refine .stated hname hread ?_
        rintro _ ⟨⟩
        exact Bool.eq_false_iff.mpr hbelow

theorem found_of_integer? {found : Option Int} (hok : env.integer? name least = .ok found) :
    Found env name readInteger? .whole least found := by
  unfold integer? at hok
  split at hok
  next hname =>
    cases hok
    exact .unstated hname
  next raw hname =>
    split at hok
    next => cases hok
    next value hread => exact .of_atLeast hname hread hok

theorem found_of_number? {found : Option Float} (hok : env.number? name least = .ok found) :
    Found env name readFloat? .real least found := by
  unfold number? at hok
  split at hok
  next hname =>
    cases hok
    exact .unstated hname
  next raw hname =>
    split at hok
    next => cases hok
    next value hread => exact .of_atLeast hname hread hok

/-- Whether a variable states that it is no number. -/
def SaysNaN (env : Environment) (name : String) : Prop :=
  ∃ raw ∈ env.stated? name, Decimal.SaysNaN raw

instance decidableSaysNaN (env : Environment) (name : String) : Decidable (env.SaysNaN name) :=
  inferInstanceAs (Decidable (∃ raw ∈ env.stated? name, Decimal.SaysNaN raw))

/-- A number that is found is none exactly if the variable says so. -/
theorem Found.isNaN_iff {found : Option Float}
    (hfound : Found env name readFloat? .real least found) :
    (∃ number ∈ found, number.isNaN = true) ↔ env.SaysNaN name := by
  cases hfound with
  | unstated hname => simp [SaysNaN, hname]
  | stated hname hread hleast =>
      rw [SaysNaN, hname]
      simpa using readFloat?_isNaN_iff hread

end Environment

namespace ControllerSettings

variable {settings : ControllerSettings} {env : Environment}

/-! ## Bounds -/

/-- Every setting is within its bounds, where it is a number. -/
structure Bounded (settings : ControllerSettings) : Prop where
  workers : 1 ≤ settings.workers
  base : ∀ base ∈ value? settings.backoffBase, 0 < base
  limit : ∀ base ∈ value? settings.backoffBase, ∀ limit ∈ value? settings.backoffLimit,
    base ≤ limit
  timeout : ∀ seconds ∈ settings.timeout, ∀ time ∈ value? seconds, 0 < time
  conflict : ∀ delay ∈ value? settings.conflictDelay, 0 ≤ delay
  retries : ∀ limit ∈ settings.maxRetries, 0 ≤ limit
  resync : ∀ seconds ∈ settings.resync, ∀ period ∈ value? seconds, 0 < period
  attempts : 1 ≤ settings.maxAttempts

/-- Every setting is a number within its bounds. -/
structure Usable (settings : ControllerSettings) : Prop where
  workers : 1 ≤ settings.workers
  backoff : ∃ base ∈ value? settings.backoffBase, ∃ limit ∈ value? settings.backoffLimit,
    0 < base ∧ base ≤ limit
  timeout : ∀ seconds ∈ settings.timeout, ∃ time ∈ value? seconds, 0 < time
  conflict : ∃ delay ∈ value? settings.conflictDelay, 0 ≤ delay
  retries : ∀ limit ∈ settings.maxRetries, 0 ≤ limit
  resync : ∀ seconds ∈ settings.resync, ∃ period ∈ value? seconds, 0 < period
  attempts : 1 ≤ settings.maxAttempts

/-- The settings that are floats. -/
def floats (settings : ControllerSettings) : List Float :=
  [settings.backoffBase, settings.backoffLimit, settings.conflictDelay] ++
    settings.timeout.toList ++ settings.resync.toList

theorem Bounded.usable_iff (h : settings.Bounded) :
    settings.Usable ↔ ∀ x ∈ settings.floats, x.isNaN = false := by
  constructor
  · rintro ⟨-, ⟨base, hbase, limit, hlimit, -⟩, htimeout, ⟨delay, hdelay, -⟩, -, hresync, -⟩ x hx
    simp only [floats, List.mem_append, List.mem_cons, List.not_mem_nil, or_false,
      Option.mem_toList] at hx
    rcases hx with ((rfl | rfl | rfl) | hx) | hx
    · exact isNaN_of_value hbase
    · exact isNaN_of_value hlimit
    · exact isNaN_of_value hdelay
    · obtain ⟨time, htime, -⟩ := htimeout x hx
      exact isNaN_of_value htime
    · obtain ⟨period, hperiod, -⟩ := hresync x hx
      exact isNaN_of_value hperiod
  · intro hnumbers
    obtain ⟨base, hbase⟩ := exists_value (hnumbers settings.backoffBase (by simp [floats]))
    obtain ⟨limit, hlimit⟩ := exists_value (hnumbers settings.backoffLimit (by simp [floats]))
    obtain ⟨delay, hdelay⟩ := exists_value (hnumbers settings.conflictDelay (by simp [floats]))
    refine ⟨h.workers, ⟨base, hbase, limit, hlimit, h.base base hbase,
      h.limit base hbase limit hlimit⟩, fun seconds hseconds => ?_,
      ⟨delay, hdelay, h.conflict delay hdelay⟩, h.retries, fun seconds hseconds => ?_, h.attempts⟩
    · rw [Option.mem_def] at hseconds
      obtain ⟨time, htime⟩ := exists_value (hnumbers seconds (by simp [floats, hseconds]))
      exact ⟨time, htime, h.timeout seconds hseconds time htime⟩
    · rw [Option.mem_def] at hseconds
      obtain ⟨period, hperiod⟩ := exists_value (hnumbers seconds (by simp [floats, hseconds]))
      exact ⟨period, hperiod, h.resync seconds hseconds period hperiod⟩

theorem check_eq_ok {checked : ControllerSettings} (hok : settings.check = .ok checked) :
    checked = settings ∧ ¬ settings.workers < 1 ∧ ¬ settings.backoffBase ≤ 0 ∧
      ¬ settings.backoffLimit < settings.backoffBase ∧
      (settings.resync.any fun period => period ≤ 0) = false ∧ ¬ settings.maxAttempts < 1 := by
  unfold check at hok
  split at hok
  next => cases hok
  next hworkers =>
    split at hok
    next => cases hok
    next hbase =>
      split at hok
      next => cases hok
      next hlimit =>
        split at hok
        next => cases hok
        next hresync =>
          split at hok
          next => cases hok
          next hattempts =>
            cases hok
            exact ⟨rfl, hworkers, hbase, hlimit, Bool.eq_false_iff.mpr hresync, hattempts⟩

/-- What is found of each setting, and that it passes the check. -/
structure Given (env : Environment) (settings : ControllerSettings) : Prop where
  workers : ∃ found, env.Found "CNAT_WORKERS" readInteger? .whole (some (.whole 1)) found ∧
    settings.workers = found.getD 1
  base : ∃ found, env.Found "CNAT_BACKOFF_BASE_SECONDS" readFloat? .real none found ∧
    settings.backoffBase = found.getD 1.0
  limit : ∃ found, env.Found "CNAT_BACKOFF_MAX_SECONDS" readFloat? .real none found ∧
    settings.backoffLimit = found.getD 300.0
  attempts : ∃ found,
    env.Found "CNAT_TASK_MAX_ATTEMPTS" readInteger? .whole (some (.whole 1)) found ∧
      settings.maxAttempts = found.getD 3
  timeout : ∃ found,
    env.Found "CNAT_RECONCILE_TIMEOUT_SECONDS" readFloat? .real (some (.real 0.0)) found ∧
      settings.timeout = (found.map boundOf).getD (some 30.0)
  conflict : ∃ found,
    env.Found "CNAT_CONFLICT_REQUEUE_SECONDS" readFloat? .real (some (.real 0.0)) found ∧
      settings.conflictDelay = found.getD 0.0
  retries : env.Found "CNAT_MAX_RETRIES" readInteger? .whole (some (.whole 0)) settings.maxRetries
  resync : env.Found "CNAT_RESYNC_SECONDS" readFloat? .real none settings.resync
  checked : settings.check = .ok settings

theorem given_of_ofEnvironment (hok : ofEnvironment env = .ok settings) : settings.Given env := by
  simp only [ofEnvironment, bind_eq_ok_iff] at hok
  obtain ⟨workers, hworkers, base, hbase, limit, hlimit, attempts, hattempts, timeout, htimeout,
    conflict, hconflict, retries, hretries, resync, hresync, hcheck⟩ := hok
  obtain ⟨rfl, -⟩ := check_eq_ok hcheck
  exact
    { workers := ⟨workers, Environment.found_of_integer? hworkers, rfl⟩
      base := ⟨base, Environment.found_of_number? hbase, rfl⟩
      limit := ⟨limit, Environment.found_of_number? hlimit, rfl⟩
      attempts := ⟨attempts, Environment.found_of_integer? hattempts, rfl⟩
      timeout := ⟨timeout, Environment.found_of_number? htimeout, rfl⟩
      conflict := ⟨conflict, Environment.found_of_number? hconflict, rfl⟩
      retries := Environment.found_of_integer? hretries
      resync := Environment.found_of_number? hresync
      checked := hcheck }

/-- A number that must not be below zero, and is not. -/
theorem nonneg_of_found {name : String} {found : Option Float}
    (hfound : env.Found name readFloat? .real (some (.real 0.0)) found) :
    ∀ x ∈ found, ∀ a ∈ value? x, 0 ≤ a := by
  rintro x rfl a ha
  cases hfound with
  | stated hname hread hleast =>
      have hbelow := hleast _ rfl
      simp only [Quantity.below, Quantity.toFloat] at hbelow
      exact not_lt_iff.mp (of_decide_eq_false hbelow) a ha 0 value?_zeroPointZero

theorem boundOf_eq_some {seconds bound : Float} (h : boundOf seconds = some bound) :
    bound = seconds ∧ (seconds == 0) = false := by
  unfold boundOf at h
  split at h
  next => cases h
  next hzero =>
    cases h
    exact ⟨rfl, Bool.eq_false_iff.mpr hzero⟩

theorem Given.timeout_pos (h : settings.Given env) :
    ∀ seconds ∈ settings.timeout, ∀ time ∈ value? seconds, 0 < time := by
  obtain ⟨found, hfound, heq⟩ := h.timeout
  rw [heq]
  cases found with
  | none =>
      rintro _ ⟨⟩
      exact pos_of_not_le_zero (by decide)
  | some stated =>
      intro seconds hseconds time htime
      obtain ⟨rfl, hzero⟩ := boundOf_eq_some hseconds
      have hle := nonneg_of_found hfound seconds rfl time htime
      refine lt_of_le_of_ne hle ?_
      rintro rfl
      exact absurd (beq_iff.mpr ⟨0, htime, 0, value?_zero, rfl⟩) (Bool.eq_false_iff.mp hzero)

theorem Given.bounded (h : settings.Given env) : settings.Bounded := by
  obtain ⟨-, hworkers, hbase, hlimit, hresync, hattempts⟩ := check_eq_ok h.checked
  constructor
  case workers => exact not_lt.mp hworkers
  case base => exact pos_of_not_le_zero hbase
  case limit =>
    exact fun base hvalue limit hvalue' => not_lt_iff.mp hlimit limit hvalue' base hvalue
  case timeout => exact h.timeout_pos
  case attempts => exact not_lt.mp hattempts
  case conflict =>
    obtain ⟨found, hfound, heq⟩ := h.conflict
    rw [heq]
    cases found with
    | none =>
        intro delay hdelay
        rw [Option.getD_none, value?_zeroPointZero] at hdelay
        cases hdelay
        exact le_rfl
    | some stated => exact nonneg_of_found hfound stated rfl
  case retries =>
    intro limit hlimit
    have hfound := h.retries
    rw [Option.mem_def.mp hlimit] at hfound
    cases hfound with
    | stated hname hread hleast => exact not_lt.mp (of_decide_eq_false (hleast _ rfl))
  case resync =>
    intro seconds hseconds
    rw [Option.any_eq_false] at hresync
    exact pos_of_not_le_zero (by simpa using hresync seconds hseconds)

/-- A runner takes the number of attempts of settings within their bounds, and so makes at
least one. -/
theorem Bounded.ofSettings (h : settings.Bounded) (notified : Bool)
    (processes : Simulation.Processes) (bench : Simulation.Bench) :
    ∃ world,
      Simulation.World.ofSettings settings notified settings.maxAttempts processes bench =
        .ok world ∧
      1 ≤ world.terms.maxAttempts ∧ settings.maxAttempts = world.terms.maxAttempts := by
  obtain ⟨limit, hlimit⟩ := Int.eq_ofNat_of_zero_le (Int.le_trans (by decide) h.attempts)
  have hfew : 1 ≤ limit := by
    have hattempts := h.attempts
    omega
  unfold Simulation.World.ofSettings
  rw [Run.attemptLimit_eq_ok.mpr ⟨hfew, hlimit⟩]
  exact ⟨_, rfl, hfew, hlimit⟩

/-! ## Words that are no numbers -/

/-- The variables of the settings that are floats. -/
def floatVariables : List String :=
  ["CNAT_BACKOFF_BASE_SECONDS", "CNAT_BACKOFF_MAX_SECONDS", "CNAT_CONFLICT_REQUEUE_SECONDS",
   "CNAT_RECONCILE_TIMEOUT_SECONDS", "CNAT_RESYNC_SECONDS"]

theorem isNaN_getD_iff {name : String} {least : Option Quantity} {found : Option Float}
    {standard : Float} (hfound : env.Found name readFloat? .real least found)
    (hstandard : standard.isNaN = false) :
    (found.getD standard).isNaN = true ↔ env.SaysNaN name := by
  rw [← hfound.isNaN_iff]
  cases found with
  | none => simp only [Option.getD_none, hstandard, Option.not_mem_none, false_and, exists_false,
      Bool.false_eq_true]
  | some stated => simp only [Option.getD_some, Option.mem_some_iff, exists_eq_left']

theorem Given.timeout_isNaN_iff (h : settings.Given env) :
    (∃ seconds ∈ settings.timeout, seconds.isNaN = true) ↔
      env.SaysNaN "CNAT_RECONCILE_TIMEOUT_SECONDS" := by
  obtain ⟨found, hfound, heq⟩ := h.timeout
  rw [← hfound.isNaN_iff, heq]
  cases found with
  | none =>
      refine iff_of_false ?_ (by simp)
      rintro ⟨_, ⟨⟩, hnan⟩
      exact absurd hnan (by decide)
  | some stated =>
      constructor
      · rintro ⟨seconds, hseconds, hnan⟩
        obtain ⟨rfl, -⟩ := boundOf_eq_some hseconds
        exact ⟨seconds, rfl, hnan⟩
      · rintro ⟨_, ⟨⟩, hnan⟩
        have hzero : (stated == 0) = false := by
          by_contra hzero
          obtain ⟨a, ha, -⟩ := beq_iff.mp (Bool.not_eq_false _ ▸ hzero)
          rw [isNaN_of_value ha] at hnan
          cases hnan
        exact ⟨stated, by simp [boundOf, hzero], hnan⟩

theorem Given.isNaN_iff (h : settings.Given env) :
    (∃ x ∈ settings.floats, x.isNaN = true) ↔ ∃ name ∈ floatVariables, env.SaysNaN name := by
  obtain ⟨base, hbase, hbaseeq⟩ := h.base
  obtain ⟨limit, hlimit, hlimiteq⟩ := h.limit
  obtain ⟨conflict, hconflict, hconflicteq⟩ := h.conflict
  simp only [floatVariables, floats, List.mem_append, List.mem_cons, List.not_mem_nil, or_false,
    Option.mem_toList, or_and_right, exists_or, exists_eq_left]
  rw [hbaseeq, hlimiteq, hconflicteq, isNaN_getD_iff hbase (by decide),
    isNaN_getD_iff hlimit (by decide), isNaN_getD_iff hconflict (by decide),
    ← h.timeout_isNaN_iff, ← h.resync.isNaN_iff]
  simp only [Option.mem_def, or_assoc]

/-! ## Delays -/

/-- Whether a delay leads from any moment of a clock to one that is in order with all moments of
the clock. -/
def KeepsOrder (delay : Float) : Prop :=
  ∀ now later : Float, now.isFinite = true → later.isFinite = true →
    now + delay ≤ later ∨ later < now + delay

theorem keepsOrder_of_isNaN {delay : Float} (hdelay : delay.isNaN = false) : KeepsOrder delay :=
  fun _ _ hnow hlater =>
    le_or_lt (isNaN_add (isNaN_of_isFinite hnow) hdelay (Or.inl hnow)) (isNaN_of_isFinite hlater)

theorem doubled_isNaN {quantity : Float} (hquantity : quantity.isNaN = false) (times : Nat) :
    (Backoff.doubled quantity times).isNaN = false := by
  induction times generalizing quantity with
  | zero => exact hquantity
  | succ times ih => exact ih (isNaN_add hquantity hquantity (Or.inr rfl))

theorem delay_isNaN {κ : Type} {backoff : Backoff κ Float} (hbase : backoff.base.isNaN = false)
    (hmaximum : backoff.maximum.isNaN = false) (earlier : Nat) :
    (backoff.delay earlier).isNaN = false := by
  unfold Backoff.delay
  split
  · exact hmaximum
  · dsimp only
    split
    · exact hmaximum
    · exact doubled_isNaN hbase earlier

theorem secondsOfMicros_isNaN (micros : Int) : (Calendar.secondsOfMicros micros).isNaN = false := by
  unfold Calendar.secondsOfMicros
  dsimp only
  split
  · rw [isNaN_neg]
    exact isNaN_ofDecimal ..
  · exact isNaN_ofDecimal ..

/-- The outcomes by which passes end: with a fault, or with a time until the next pass. -/
def EndsPass (outcome : PassOutcome Float) : Prop :=
  (∃ fault, outcome = Simulation.outcomeOfFault fault) ∨
    ∃ followUp, outcome = Simulation.outcomeOfDelay followUp

theorem EndsPass.isNaN_of_finished {delay : Float} (h : EndsPass (.finished (some delay))) :
    delay.isNaN = false := by
  rcases h with ⟨fault, h⟩ | ⟨followUp, h⟩
  · unfold Simulation.outcomeOfFault at h
    split at h <;> cases h
  · unfold Simulation.outcomeOfDelay at h
    split at h
    next micros =>
      split at h
      next =>
        cases h
        exact secondsOfMicros_isNaN micros
      next => cases h
    next => cases h

/-- The variables of the settings by which keys are delayed. -/
def delayVariables : List String :=
  ["CNAT_BACKOFF_BASE_SECONDS", "CNAT_BACKOFF_MAX_SECONDS", "CNAT_CONFLICT_REQUEUE_SECONDS"]

theorem Given.delays_isNaN (h : settings.Given env)
    (hnumbers : ∀ name ∈ delayVariables, ¬ env.SaysNaN name) :
    settings.backoffBase.isNaN = false ∧ settings.backoffLimit.isNaN = false ∧
      settings.conflictDelay.isNaN = false := by
  obtain ⟨base, hbase, hbaseeq⟩ := h.base
  obtain ⟨limit, hlimit, hlimiteq⟩ := h.limit
  obtain ⟨conflict, hconflict, hconflicteq⟩ := h.conflict
  rw [hbaseeq, hlimiteq, hconflicteq]
  simp only [← Bool.not_eq_true, isNaN_getD_iff hbase (by decide : (1.0 : Float).isNaN = false),
    isNaN_getD_iff hlimit (by decide : (300.0 : Float).isNaN = false),
    isNaN_getD_iff hconflict (by decide : (0.0 : Float).isNaN = false)]
  exact ⟨hnumbers _ (by decide), hnumbers _ (by decide), hnumbers _ (by decide)⟩

section Handing

variable {ι κ ω : Type} [DecidableEq ι] [DecidableEq κ] [Clock ω Float]

theorem returnDelay_isNaN {queue : WorkQueue κ Float} {policy : DispatchPolicy Float} {key : κ}
    {outcome : PassOutcome Float} {delay : Float}
    (hlimiter : ∀ earlier, (queue.limiter.delay earlier).isNaN = false)
    (hconflict : policy.conflictDelay.isNaN = false) (houtcome : EndsPass outcome)
    (hdelay : queue.returnDelay policy key outcome = some delay) : delay.isNaN = false := by
  cases outcome with
  | conflict =>
      cases hdelay
      exact hconflict
  | finished followUp =>
      cases hdelay
      exact houtcome.isNaN_of_finished
  | failed =>
      rw [WorkQueue.returnDelay] at hdelay
      split at hdelay
      next => cases hdelay
      next =>
        cases hdelay
        exact hlimiter _

end Handing

/-- Whatever the environment states, it is refused or gives settings that are within their bounds,
where they are numbers.  They are numbers, and can be used, exactly if no variable says that it is
no number.  If none of those says so by which keys are delayed, then whatever workers and others do
with the queue, a pass that is settled hands it no delay that is out of order with the clock. -/
theorem accepted_settings_usable_unless_no_number (ι κ ω : Type) [DecidableEq ι] [DecidableEq κ]
    [Clock ω Float] (env : Environment) :
    (∃ fault, ofEnvironment env = .error fault) ∨
      ∃ settings, ofEnvironment env = .ok settings ∧ settings.Bounded ∧
        (settings.Usable ↔ ∀ name ∈ floatVariables, ¬ env.SaysNaN name) ∧
        ((∀ name ∈ delayVariables, ¬ env.SaysNaN name) →
          ∀ (clock : ω) (moves : List (CrewMove ι κ Float ω)) (crew : Crew ι κ Float ω),
            play (Crew.step? (Simulation.World.policyOf settings))
                (.start ⟨settings.backoffBase, settings.backoffLimit, []⟩ clock) moves =
              some crew →
            ∀ key outcome (now : ω), EndsPass outcome →
              crew.history.queue.settle (Simulation.World.policyOf settings) key outcome now =
                  (crew.history.queue.forget key, now) ∨
                ∃ limiter delay, KeepsOrder delay ∧
                  crew.history.queue.settle (Simulation.World.policyOf settings) key outcome now =
                    { crew.history.queue with limiter }.addAfter key delay now) := by
  cases hok : ofEnvironment env with
  | error fault => exact Or.inl ⟨fault, rfl⟩
  | ok settings =>
      right
      have hgiven := given_of_ofEnvironment hok
      refine ⟨settings, rfl, hgiven.bounded, ?_, ?_⟩
      · rw [hgiven.bounded.usable_iff]
        have hnone := not_congr hgiven.isNaN_iff
        push Not at hnone
        simpa using hnone
      · intro hnumbers clock moves crew hplay key outcome now houtcome
        obtain ⟨hbase, hlimit, hconflict⟩ := hgiven.delays_isNaN hnumbers
        have hlimiter : ∀ earlier,
            (crew.history.queue.limiter.delay earlier).isNaN = false := by
          rw [Crew.limiter_delay_of_play hplay]
          exact delay_isNaN hbase hlimit
        cases hdelay : crew.history.queue.returnDelay (Simulation.World.policyOf settings) key
            outcome with
        | none => exact Or.inl (WorkQueue.settle_of_returnDelay_none hdelay now)
        | some delay =>
            have hpolicy : (Simulation.World.policyOf settings).conflictDelay.isNaN = false :=
              hconflict
            have hnumber := returnDelay_isNaN hlimiter hpolicy houtcome hdelay
            exact Or.inr ⟨_, delay, keepsOrder_of_isNaN hnumber,
              WorkQueue.settle_of_returnDelay hdelay now⟩

/-- An infinite time is within the bounds, and no time at all stands for no bound. -/
theorem accepted_settings_usable_of_infinite_limit :
    ∃ settings, ofEnvironment
        [("CNAT_BACKOFF_MAX_SECONDS", " Infinity "), ("CNAT_RECONCILE_TIMEOUT_SECONDS", "-0"),
         ("CNAT_RESYNC_SECONDS", "")] = .ok settings ∧ settings.Usable := by
  rcases accepted_settings_usable_unless_no_number Unit Unit (HandClock Float)
      [("CNAT_BACKOFF_MAX_SECONDS", " Infinity "), ("CNAT_RECONCILE_TIMEOUT_SECONDS", "-0"),
       ("CNAT_RESYNC_SECONDS", "")] with ⟨fault, hfault⟩ | ⟨settings, hok, -, husable, -⟩
  · cases hfault
  · exact ⟨settings, hok, husable.mpr (by decide +kernel)⟩

/-- The word for no number is accepted as the first delay, and a failing pass hands it over. -/
theorem no_number_is_accepted :
    ∃ settings, ofEnvironment [("CNAT_BACKOFF_BASE_SECONDS", "nan")] = .ok settings ∧
      ¬ settings.Usable ∧
      ∃ delay, ({ limiter := ⟨settings.backoffBase, settings.backoffLimit, []⟩ } :
          WorkQueue Unit Float).returnDelay (Simulation.World.policyOf settings) () .failed =
            some delay ∧
        ¬ KeepsOrder delay := by
  refine ⟨_, rfl, fun husable => ?_, _, rfl, fun horder => ?_⟩
  · obtain ⟨base, hbase, -⟩ := husable.backoff
    exact absurd (isNaN_of_value hbase) (by decide +kernel)
  · exact absurd (horder 0 0 rfl rfl) (by decide +kernel)

end ControllerSettings

end OneShot
