import OneShot.Proofs.Reconcile.Attempts
import Mathlib.Algebra.Order.Ring.Rat
import Mathlib.Tactic.Linarith

/-!
# Transcripts of passes

A pass looks at the clock and makes calls.  Here it is watched while it does
so: the transcript has what the clock showed and which calls were made, with
the time that each of them was given, in the order in which all this happened.

Without a deadline the transcript is that of the pass which nobody hurries,
`trace`.
-/

namespace OneShot.Pass

open Calendar

section Calls

variable {σ τ : Type} [Sub τ] [OfNat τ 0] [LE τ] [DecidableLE τ] [Clock σ τ]
variable {client : Client σ τ} {now : σ → DateTime} {deadline : Deadline τ} {stage : Stage}
  {state later : σ}

theorem runFrom_of_expired {expired : Expired}
    (hleft : deadline.remaining state = (.error expired, later)) :
    runFrom client now deadline stage state = (.error (.timedOut .expired), later) := by
  rw [runFrom, hleft]

/-- A pass with time left makes the call of its stage, and goes by the answer. -/
theorem runFrom_of_left {limit : Option τ}
    (hleft : deadline.remaining state = (.ok limit, later)) :
    runFrom client now deadline stage state =
      let reply := client stage.call (.stated limit) later
      match stage.next (now reply.2) reply.1 with
      | .goOn following => runFrom client now deadline following reply.2
      | .finished result => (.ok result, reply.2)
      | .failed fault => (.error fault, reply.2) := by
  rw [runFrom, hleft]
  simp only
  split
  next following hgo => rw [hgo]
  next result hfinished => rw [hfinished]
  next fault hfailed => rw [hfailed]

end Calls

/-- A client that answers calls without regard to the time that it is given. -/
abbrev Service (σ : Type) :=
  (call : Call) → σ → Except Fault call.Reply × σ

inductive Observation (τ : Type) where
  /-- The clock was read and showed a moment. -/
  | looked (moment : τ)
  | called (call : Call) (patience : Patience τ)

def Observation.call? {τ : Type} : Observation τ → Option Call
  | looked _ => none
  | called call _ => some call

def callsOf {τ : Type} (transcript : List (Observation τ)) : List Call :=
  transcript.filterMap Observation.call?

/-- A service under observation, with all that a clock will show. -/
structure Scene (σ τ : Type) where
  state : σ
  readings : Nat → τ
  transcript : List (Observation τ) := []

namespace Scene

variable {σ τ : Type}

instance : Clock (Scene σ τ) τ where
  read scene :=
    (scene.readings 0,
      { scene with
        readings := fun index => scene.readings (index + 1)
        transcript := scene.transcript ++ [.looked (scene.readings 0)] })
  sleep _ scene := scene
  ownMoves _ := 0

def client (service : Service σ) : Client (Scene σ τ) τ := fun call patience scene =>
  let (answer, state) := service call scene.state
  (answer, { scene with state, transcript := scene.transcript ++ [.called call patience] })

end Scene

@[simp] theorem callsOf_nil {τ : Type} : callsOf ([] : List (Observation τ)) = [] := rfl

@[simp] theorem callsOf_looked {τ : Type} (moment : τ) (rest : List (Observation τ)) :
    callsOf (.looked moment :: rest) = callsOf rest := rfl

@[simp] theorem callsOf_append {τ : Type} (earlier later : List (Observation τ)) :
    callsOf (earlier ++ later) = callsOf earlier ++ callsOf later :=
  List.filterMap_append

@[simp] theorem callsOf_map_called {τ : Type} (calls : List Call) (patience : Patience τ) :
    callsOf (calls.map fun call => .called call patience) = calls := by
  induction calls with
  | nil => rfl
  | cons call rest ih => exact congrArg (call :: ·) ih

@[simp] theorem callsOf_called {τ : Type} (call : Call) (patience : Patience τ)
    (rest : List (Observation τ)) :
    callsOf (.called call patience :: rest) = call :: callsOf rest := rfl

/-! ## The pass that nobody hurries -/

section Unhurried

variable {σ : Type} (service : Service σ) (wall : σ → DateTime)

/-- A pass from a stage on: its calls, how it ends, and the state that it
leaves behind. -/
def trace (stage : Stage) (state : σ) : List Call × Except Fault Result × σ :=
  let (answer, later) := service stage.call state
  match _h : stage.next (wall later) answer with
  | .goOn following =>
      let (calls, ended) := trace following later
      (stage.call :: calls, ended)
  | .finished result => ([stage.call], .ok result, later)
  | .failed fault => ([stage.call], .error fault, later)
termination_by stage.height
decreasing_by exact Stage.next_height _h

variable {service wall} {stage following : Stage} {state : σ}

theorem trace_eq (service : Service σ) (wall : σ → DateTime) (stage : Stage) (state : σ) :
    trace service wall stage state =
      let reply := service stage.call state
      match stage.next (wall reply.2) reply.1 with
      | .goOn following =>
          (stage.call :: (trace service wall following reply.2).1,
            (trace service wall following reply.2).2)
      | .finished result => ([stage.call], .ok result, reply.2)
      | .failed fault => ([stage.call], .error fault, reply.2) := by
  rw [trace]
  simp only
  split
  next following hgo => rw [hgo]
  next result hfinished => rw [hfinished]
  next fault hfailed => rw [hfailed]

section Served

variable {answer : Except Fault stage.call.Reply} {later : σ}
  (hserved : service stage.call state = (answer, later))
include hserved

theorem trace_of_goOn (hgo : stage.next (wall later) answer = .goOn following) :
    trace service wall stage state =
      (stage.call :: (trace service wall following later).1,
        (trace service wall following later).2) := by
  rw [trace_eq, hserved]
  simp only [hgo]

theorem trace_of_finished {result : Result}
    (hfinished : stage.next (wall later) answer = .finished result) :
    trace service wall stage state = ([stage.call], .ok result, later) := by
  rw [trace_eq, hserved]
  simp only [hfinished]

theorem trace_of_failed {fault : Fault} (hfailed : stage.next (wall later) answer = .failed fault) :
    trace service wall stage state = ([stage.call], .error fault, later) := by
  rw [trace_eq, hserved]
  simp only [hfailed]

end Served

/-- A pass without a deadline leaves a transcript of calls alone: it has nothing
for which to look at the clock. -/
theorem runFrom_unhurried (service : Service σ) (wall : σ → DateTime) {τ : Type}
    [Sub τ] [OfNat τ 0] [LE τ] [DecidableLE τ] (stage : Stage) (scene : Scene σ τ) :
    runFrom (Scene.client service) (fun seen : Scene σ τ => wall seen.state) {} stage scene =
      ((trace service wall stage scene.state).2.1,
        { scene with
          state := (trace service wall stage scene.state).2.2
          transcript := scene.transcript ++
            (trace service wall stage scene.state).1.map fun call =>
              .called call (.stated none) }) := by
  induction hheight : stage.height using Nat.strong_induction_on generalizing stage scene with
  | _ height ih =>
      have hleft : ({} : Deadline τ).remaining scene = (.ok none, scene) := rfl
      rw [runFrom_of_left hleft]
      simp only [Scene.client]
      cases hnext : stage.next (wall (service stage.call scene.state).2)
          (service stage.call scene.state).1 with
      | goOn following =>
          have hlower : following.height < height := hheight ▸ Stage.next_height hnext
          rw [trace_of_goOn rfl hnext]
          simp only
          rw [ih following.height hlower following _ rfl]
          simp only [List.map_cons, List.append_assoc, List.singleton_append]
      | finished result =>
          rw [trace_of_finished rfl hnext]
          rfl
      | failed fault =>
          rw [trace_of_failed rfl hnext]
          rfl

end Unhurried

end OneShot.Pass
