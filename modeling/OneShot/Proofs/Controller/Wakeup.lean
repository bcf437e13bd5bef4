import OneShot.Proofs.Controller.Posts
import OneShot.Proofs.Controller.Sites
import OneShot.Proofs.Runs

/-!
# One wake-up

A pass over a command whose schedule is ahead reads off the wall how long that
is, and asks to be made again after this time.  The queue serves the time on its
own clock.  It does not hand out the key before the schedule has come on the
wall too, so the next pass over the command is the one that launches it.
-/

namespace OneShot

open Calendar Simulation

/-- Microseconds, in seconds. -/
def exactSeconds (micros : Int) : ℚ := micros / 1000000

/-- A pass over a key, while others ask for something. -/
def Site.pass (meanwhile : List (QueueRequest ObjectKey ℚ Site)) (key : ObjectKey)
    (deadline : Deadline ℚ) (state : WorkQueue ObjectKey ℚ × Site) :
    PassOutcome ℚ × WorkQueue ObjectKey ℚ × Site :=
  let (answer, ended) := Pass.run Site.client Site.wall deadline key state.2
  (Pass.outcome exactSeconds answer,
    Site.applyAll meanwhile (state.1, { ended with answer := some answer }))

/-- What a worker has done with a key. -/
structure Visit where
  /-- The moment from which it had the key in hand. -/
  taken : ℚ
  calls : List (Call × ℚ)
  /-- The moment at which it gave the key back. -/
  settled : ℚ

namespace Visit

/-- The moment of the first answer, which is when the wall is looked at. -/
def read (visit : Visit) : ℚ :=
  (visit.calls.head?.map Prod.snd).getD visit.taken

def shown (origin : ℚ) (visit : Visit) : Int :=
  Site.shownAt origin visit.read

/-- The moment at which the time is over that was left until a schedule. -/
def wakeUp (origin : ℚ) (target : DateTime) (visit : Visit) : ℚ :=
  visit.settled + exactSeconds (target.instant - visit.shown origin)

end Visit

/-- A queue and a client, with the visits to one of the keys. -/
structure Vigil where
  queue : WorkQueue ObjectKey ℚ
  site : Site
  visits : List Visit := []

/-- What happens while a command waits.  Other keys are handled by a look or a
`get`, edits and requests, and a `done`. -/
inductive VigilMove where
  | lapse
  /-- The objects become others, apart from the command and its task. -/
  | edit (shelf : Shelf)
  | request (request : QueueRequest ObjectKey ℚ Site)
  | look (deadline : Option ℚ)
  | get (timeout : Option ℚ)
  | done (other : ObjectKey)
  /-- A worker takes the key of the command, and its pass goes through. -/
  | handle (timeout : Option ℚ) (meanwhile : List (QueueRequest ObjectKey ℚ Site))

namespace Vigil

variable {policy : DispatchPolicy ℚ} {resource : At} {target : DateTime}
  {origin moment : ℚ} {vigil next : Vigil}

/-- A site at which a pass is about to be noted. -/
def fresh (site : Site) : Site := { site with calls := [], answer := none }

def step? (policy : DispatchPolicy ℚ) (resource : At) (vigil : Vigil) : VigilMove → Option Vigil
  | .lapse => some { vigil with site := vigil.site.lapse }
  | .edit shelf =>
      if shelf.at? resource.key = vigil.site.shelf.at? resource.key ∧
          shelf.task? resource.taskKey = vigil.site.shelf.task? resource.taskKey then
        some { vigil with site := { vigil.site with shelf } }
      else none
  | .request request =>
      if request.spares resource.key then
        let (queue, site) := request.apply vigil.queue vigil.site
        some { vigil with queue, site }
      else none
  | .look deadline =>
      let (finding, queue, site) := vigil.queue.look deadline vigil.site
      if finding.key? ≠ some resource.key then some { vigil with queue, site } else none
  | .get timeout =>
      let (receipt, queue, site) := vigil.queue.get timeout vigil.site
      if receipt.key? ≠ some resource.key then some { vigil with queue, site } else none
  | .done other =>
      if other ≠ resource.key ∧ other ∈ vigil.queue.inFlight then
        some { vigil with queue := vigil.queue.done other }
      else none
  | .handle timeout meanwhile =>
      let (receipt, _, held) := vigil.queue.get timeout (fresh vigil.site)
      let (_, queue, site) :=
        vigil.queue.processNext policy (Site.pass meanwhile) timeout (fresh vigil.site)
      if receipt.key? = some resource.key ∧ site.answer.any (·.isOk) ∧
          meanwhile.all (·.spares resource.key) then
        some { queue, site, visits := vigil.visits ++ [⟨held.present, site.calls, site.present⟩] }
      else none

/-- The command is stored without a task, and its key rests until a moment. -/
structure Awaits (resource : At) (origin moment : ℚ) (vigil : Vigil) : Prop where
  rests : vigil.queue.Rests resource.key moment vigil.site.present
  stored : vigil.site.shelf.at? resource.key = some resource
  free : vigil.site.shelf.task? resource.taskKey = none
  origin : vigil.site.origin = origin
  sensible : vigil.site.Sensible

theorem Awaits.passed (hawaits : vigil.Awaits resource origin moment)
    {queue : WorkQueue ObjectKey ℚ} {site : Site}
    (hrests : queue.Rests resource.key moment site.present) (hpassed : vigil.site.Passed site) :
    { vigil with queue, site }.Awaits resource origin moment where
  rests := hrests
  stored := hpassed.shelf ▸ hawaits.stored
  free := hpassed.shelf ▸ hawaits.free
  origin := hpassed.origin.trans hawaits.origin
  sensible := hawaits.sensible.passed hpassed

/-! ## What a move can come to -/

/-- A worker takes the key of a command, makes its pass while others may ask for
something, settles the outcome and gives the key back. -/
structure Handling (policy : DispatchPolicy ℚ) (resource : At) (vigil : Vigil) where
  {timeout : Option ℚ}
  {meanwhile : List (QueueRequest ObjectKey ℚ Site)}
  {taken asked settled : WorkQueue ObjectKey ℚ}
  {held begun ended later last : Site}
  {deadline : Deadline ℚ}
  {result : Pass.Result}
  get : vigil.queue.get timeout (fresh vigil.site) = (.delivered resource.key, taken, held)
  begin : Deadline.after policy.timeout held = (deadline, begun)
  run : Pass.run Site.client Site.wall deadline resource.key begun = (.ok result, ended)
  spares : ∀ request ∈ meanwhile, request.spares resource.key = true
  apply : Site.applyAll meanwhile (taken, { ended with answer := some (.ok result) }) =
    (asked, later)
  settle : asked.settle policy resource.key (Pass.outcome exactSeconds (.ok result)) later =
    (settled, last)

def Handling.visit (handling : Handling policy resource vigil) : Visit :=
  ⟨handling.held.present, handling.last.calls, handling.last.present⟩

def Handling.upshot (handling : Handling policy resource vigil) : Vigil :=
  { queue := handling.settled.done resource.key
    site := handling.last
    visits := vigil.visits ++ [handling.visit] }

/-- What becomes of a vigil: others do something that leaves the key as it is,
or the key is handled. -/
inductive Step (policy : DispatchPolicy ℚ) (resource : At) (vigil : Vigil) : Vigil → Prop
  | other {queue : WorkQueue ObjectKey ℚ} {site : Site}
      (hkeeps : ∀ {origin moment}, vigil.Awaits resource origin moment →
        { vigil with queue, site }.Awaits resource origin moment) :
      Step policy resource vigil { vigil with queue, site }
  | handled (handling : Handling policy resource vigil) :
      Step policy resource vigil handling.upshot

theorem step_of_handle {timeout : Option ℚ} {meanwhile : List (QueueRequest ObjectKey ℚ Site)}
    (hstep : vigil.step? policy resource (.handle timeout meanwhile) = some next) :
    Step policy resource vigil next := by
  simp only [step?] at hstep
  split at hstep
  next hguard =>
    obtain ⟨hkey, hanswered, hall⟩ := hguard
    have hspares : ∀ request ∈ meanwhile, request.spares resource.key = true :=
      List.all_eq_true.mp hall
    rcases hget : vigil.queue.get timeout (fresh vigil.site) with ⟨receipt, taken, held⟩
    rw [hget] at hkey hstep
    obtain rfl : receipt = .delivered resource.key := by
      cases receipt with
      | delivered found => exact congrArg _ (Option.some.inj hkey)
      | nothing => cases hkey
      | never => cases hkey
    rcases hafter : Deadline.after policy.timeout held with ⟨deadline, begun⟩
    rcases hrun : Pass.run Site.client Site.wall deadline resource.key begun with ⟨answer, ended⟩
    rcases happly : Site.applyAll meanwhile (taken, { ended with answer := some answer }) with
      ⟨after, later⟩
    rcases hsettle : after.settle policy resource.key (Pass.outcome exactSeconds answer) later with
      ⟨settled, last⟩
    have hworked : vigil.queue.processNext policy (Site.pass meanwhile) timeout
        (fresh vigil.site) = (.yes, settled.done resource.key, last) := by
      simp only [WorkQueue.processNext, hget, hafter, Site.pass, hrun, happly, hsettle]
    rw [hworked] at hstep hanswered
    have hanswer : last.answer = some answer :=
      (Site.settle_passed hsettle).answer.trans (Site.applyAll_passed hspares happly).answer
    simp only [hanswer, Option.any_some] at hanswered
    cases answer with
    | error fault => cases hanswered
    | ok result =>
        cases hstep
        exact .handled ⟨hget, hafter, hrun, hspares, happly, hsettle⟩
  next => cases hstep

theorem step_of_step? {move : VigilMove} (hstep : vigil.step? policy resource move = some next) :
    Step policy resource vigil next := by
  cases move with
  | lapse =>
      cases hstep
      exact .other fun hawaits =>
        hawaits.passed (hawaits.rests.mono vigil.site.passed_lapse.present) vigil.site.passed_lapse
  | edit shelf =>
      simp only [step?] at hstep
      split at hstep
      next hsame =>
        cases hstep
        exact .other fun hawaits => ⟨hawaits.rests, hsame.1.trans hawaits.stored,
          hsame.2.trans hawaits.free, hawaits.origin, hawaits.sensible⟩
      next => cases hstep
  | request request =>
      simp only [step?] at hstep
      split at hstep
      next hspares =>
        cases hstep
        refine .other fun hawaits => ?_
        have hpassed := Site.apply_passed hspares vigil.queue vigil.site
        have hrests := hawaits.rests.spared (WorkQueue.spares_apply hawaits.rests.consistent
          hawaits.rests.scheduled hspares vigil.site)
        exact hawaits.passed (hrests.mono hpassed.present) hpassed
      next => cases hstep
  | look deadline =>
      simp only [step?] at hstep
      split at hstep
      next hspared =>
        cases hstep
        refine .other fun hawaits => ?_
        have hrespects := Site.look_rests hawaits.rests
          (rfl : vigil.queue.look deadline vigil.site = _)
        exact hawaits.passed (hrespects.spared hspared) hrespects.passed
      next => cases hstep
  | get timeout =>
      simp only [step?] at hstep
      split at hstep
      next hspared =>
        cases hstep
        refine .other fun hawaits => ?_
        have hrespects := Site.get_rests hawaits.rests
          (rfl : vigil.queue.get timeout vigil.site = _)
        exact hawaits.passed (hrespects.spared hspared) hrespects.passed
      next => cases hstep
  | done other =>
      simp only [step?] at hstep
      split at hstep
      next hother =>
        cases hstep
        refine .other fun hawaits => ?_
        have hrests := hawaits.rests.spared (WorkQueue.spares_done hawaits.rests.consistent
          hawaits.rests.scheduled (Ne.symm hother.1) hother.2)
        exact hawaits.passed hrests vigil.site.passed_refl
      next => cases hstep
  | handle timeout meanwhile => exact step_of_handle hstep

/-! ## What a visit comes to -/

section Visits

variable (hunstarted : Pass.Unstarted resource)
  (hparse : Schedule.parse resource.spec.schedule = .ok target)

/-- A site at which the command has just been read. -/
structure Reading (resource : At) (origin taken : ℚ) (site : Site) : Prop where
  calls : site.calls = [(.getAt resource.key, site.present)]
  present : taken ≤ site.present
  stored : site.shelf.at? resource.key = some resource
  free : site.shelf.task? resource.taskKey = none
  origin : site.origin = origin
  sensible : site.Sensible

theorem reading_of_passed (hawaits : vigil.Awaits resource origin moment) {held asked : Site}
    (hheld : (fresh vigil.site).Passed held) (hasked : held.Passed asked) :
    Reading resource origin held.present (asked.answered (.getAt resource.key)) := by
  have hpassed := hheld.trans hasked
  have hstored : asked.shelf.at? resource.key = some resource := by
    rw [hpassed.shelf]
    exact hawaits.stored
  have hshelf : (asked.answered (.getAt resource.key)).shelf = asked.shelf :=
    congrArg Prod.snd (Shelf.serve_getAt hstored)
  have hsensible : (fresh vigil.site).Sensible := hawaits.sensible
  constructor
  case calls =>
    have hnone : asked.calls = [] := hpassed.calls
    simp only [Site.answered, Site.lapse, hnone, List.nil_append]
  case present => exact hasked.present.trans asked.passed_lapse.present
  case stored => rw [hshelf, hstored]
  case free =>
    rw [hshelf, hpassed.shelf]
    exact hawaits.free
  case origin => exact hpassed.origin.trans hawaits.origin
  case sensible => exact (hsensible.passed hpassed).answered _

include hunstarted hparse in
/-- The pass over a command that awaits its schedule postpones it, or creates
its task. -/
theorem Awaits.reading (hawaits : vigil.Awaits resource origin moment) {held begun ended : Site}
    {deadline : Deadline ℚ} {result : Pass.Result} (hheld : (fresh vigil.site).Passed held)
    (hbegun : held.Passed begun)
    (hrun : Pass.run Site.client Site.wall deadline resource.key begun = (.ok result, ended)) :
    ∃ read, Reading resource origin held.present read ∧
      if Site.shownAt origin read.present < target.instant then
        result = { requeueAfter := some (target.instant - Site.shownAt origin read.present) } ∧
          ended = read
      else
        (∃ answered, (.createTask resource.newTask, answered) ∈ ended.calls) ∧
          read.calls <+: ended.calls := by
  have hpassed := hheld.trans hbegun
  have hstored : begun.shelf.at? resource.key = some resource := by
    rw [hpassed.shelf]
    exact hawaits.stored
  have hsensible : (fresh vigil.site).Sensible := hawaits.sensible
  obtain ⟨asked, hasked, hgoes⟩ := Site.run_reads hstored hunstarted hparse
    (hsensible.passed hpassed) hrun rfl
  have hread := reading_of_passed hawaits hheld (hbegun.trans hasked)
  refine ⟨asked.answered (.getAt resource.key), hread, ?_⟩
  simp only [hread.origin] at hgoes
  split
  next hahead =>
    rw [if_pos hahead] at hgoes
    exact ⟨Except.ok.inj hgoes.1, hgoes.2⟩
  next hcome =>
    rw [if_neg hcome] at hgoes
    have hkept := Site.runFrom_keeps_calls deadline (.findTask resource)
      (asked.answered (.getAt resource.key))
    rw [hgoes] at hkept
    exact ⟨Site.runFrom_creates hread.free hgoes rfl, hkept⟩

/-- A visit during which the schedule is still ahead. -/
structure Postpones (resource : At) (visit : Visit) : Prop where
  calls : visit.calls = [(.getAt resource.key, visit.read)]
  settled : visit.read ≤ visit.settled

/-- A visit to a key that rested until a moment: the task is created. -/
structure Launches (resource : At) (origin : ℚ) (target : DateTime) (moment : ℚ)
    (visit : Visit) : Prop where
  taken : moment ≤ visit.taken
  come : target.instant ≤ visit.shown origin
  created : ∃ answered, (.createTask resource.newTask, answered) ∈ visit.calls

theorem exactSeconds_pos {micros : Int} (hpos : 0 < micros) : 0 < exactSeconds micros := by
  unfold exactSeconds
  positivity

theorem outcome_followUp {micros : Int} (hpos : 0 < micros) :
    Pass.outcome exactSeconds (.ok { requeueAfter := some micros }) =
      .finished (some (exactSeconds micros)) := by
  simp only [Pass.outcome, Option.filter_some, hpos, decide_true, if_true, Option.map_some]

theorem read_of_prefix {visit : Visit} {call : Call} {read : ℚ}
    (hfirst : [(call, read)] <+: visit.calls) : visit.read = read := by
  obtain ⟨rest, hcalls⟩ := hfirst
  simp only [Visit.read, ← hcalls, List.singleton_append, List.head?_cons, Option.map_some,
    Option.getD_some]

theorem Handling.passed (handling : Handling policy resource vigil) :
    Site.Passed { handling.ended with answer := some (.ok handling.result) } handling.last :=
  (Site.applyAll_passed handling.spares handling.apply).trans (Site.settle_passed handling.settle)

theorem Handling.calls_eq (handling : Handling policy resource vigil) :
    handling.visit.calls = handling.ended.calls :=
  handling.passed.calls

/-- A key whose pass has found the schedule ahead rests until the time is over. -/
theorem Handling.awaits (handling : Handling policy resource vigil)
    (hhand : handling.taken.InHand resource.key)
    (hread : Reading resource origin handling.held.present handling.ended)
    (hahead : handling.visit.shown origin < target.instant)
    (hresult : handling.result =
      { requeueAfter := some (target.instant - handling.visit.shown origin) }) :
    handling.upshot.Awaits resource origin (handling.visit.wakeUp origin target) := by
  have hpos : 0 < target.instant - handling.visit.shown origin := sub_pos.mpr hahead
  have hsettle := handling.settle
  rw [hresult, outcome_followUp hpos] at hsettle
  have hasked := Site.applyAll_inHand handling.spares hhand handling.apply
  obtain ⟨hlast, hagreed⟩ := hasked.afterFollowUp policy (exactSeconds_pos hpos) hsettle
  have hwakeUp : handling.visit.wakeUp origin target = (Clock.read handling.later).1 +
      exactSeconds (target.instant - handling.visit.shown origin) :=
    congrArg (· + _) (congrArg Site.present hlast)
  constructor
  case rests => exact hwakeUp ▸ hagreed _
  case stored => exact handling.passed.shelf ▸ hread.stored
  case free => exact handling.passed.shelf ▸ hread.free
  case origin => exact handling.passed.origin.trans hread.origin
  case sensible =>
    refine Site.Sensible.passed ?_ handling.passed
    exact hread.sensible

include hunstarted hparse in
theorem Awaits.handled (hawaits : vigil.Awaits resource origin moment)
    (handling : Handling policy resource vigil) :
    moment ≤ handling.visit.read ∧
      if handling.visit.shown origin < target.instant then
        Postpones resource handling.visit ∧
          handling.upshot.Awaits resource origin (handling.visit.wakeUp origin target)
      else Launches resource origin target moment handling.visit := by
  have hrests : vigil.queue.Rests resource.key moment (fresh vigil.site).present := hawaits.rests
  have hheld := Site.get_rests hrests handling.get
  obtain ⟨hhand, hgiven⟩ := hheld.given rfl
  obtain ⟨read, hread, hgoes⟩ := hawaits.reading hunstarted hparse hheld.passed
    (Site.after_passed handling.begin) handling.run
  have hfirst : [(.getAt resource.key, read.present)] <+: handling.visit.calls := by
    rw [← hread.calls, handling.calls_eq]
    split at hgoes
    next => rw [hgoes.2]
    next => exact hgoes.2
  have hmoment : handling.visit.read = read.present := read_of_prefix hfirst
  have hshown : Site.shownAt origin read.present = handling.visit.shown origin :=
    congrArg (Site.shownAt origin) hmoment.symm
  rw [hshown] at hgoes
  refine ⟨hmoment ▸ hgiven.trans hread.present, ?_⟩
  split
  next hahead =>
    rw [if_pos hahead] at hgoes
    obtain ⟨hresult, rfl⟩ := hgoes
    refine ⟨⟨?_, ?_⟩, handling.awaits hhand hread hahead hresult⟩
    · rw [handling.calls_eq, hread.calls, hmoment]
    · rw [hmoment]
      exact handling.passed.present
  next hcome =>
    rw [if_neg hcome] at hgoes
    obtain ⟨⟨answered, hcreated⟩, -⟩ := hgoes
    refine ⟨hgiven, not_lt.mp hcome, answered, ?_⟩
    rw [handling.calls_eq]
    exact hcreated

end Visits

/-! ## Two visits -/

/-- The key is not handed out before a moment.  From then on it can be handed
out, and nobody who asks for a key is left without one. -/
structure Withheld (resource : At) (due : ℚ) (vigil : Vigil) : Prop where
  waits : vigil.site.present < due →
    Assoc.get? vigil.queue.waiting resource.key = some due ∧
      resource.key ∉ vigil.queue.ready ∧ resource.key ∉ vigil.queue.inFlight
  eligible : due ≤ vigil.site.present →
    vigil.queue.Eligible vigil.site.present resource.key
  handedOut : ∀ {timeout receipt after later},
    vigil.queue.get timeout vigil.site = (receipt, after, later) →
      receipt.key? = some resource.key → due ≤ later.present
  answered : due ≤ vigil.site.present → ∀ {timeout receipt after later},
    vigil.queue.get timeout vigil.site = (receipt, after, later) →
      ∃ found, receipt = .delivered found

theorem Awaits.withheld (hawaits : vigil.Awaits resource origin moment) :
    vigil.Withheld resource moment where
  waits := by
    intro hahead
    obtain ⟨hwaiting, hclean⟩ := hawaits.rests.waits hahead
    refine ⟨hwaiting, fun hready => ?_, hawaits.rests.free⟩
    exact hclean ((hawaits.rests.consistent.ready_iff _).mp hready).1
  eligible := hawaits.rests.eligible
  handedOut := by
    intro timeout receipt after later hget hkey
    exact ((Site.get_rests hawaits.rests hget).given hkey).2
  answered := by
    intro hcome timeout receipt after later hget
    exact Site.get_delivers hawaits.rests hcome hget

/-- What the visits so far have come to, if the schedule was ahead at the first
one: it has set the moment of the second one, which launches. -/
def Accounted (resource : At) (origin : ℚ) (target : DateTime) (moment : ℚ) (vigil : Vigil) :
    List Visit → Prop
  | [] => vigil.Awaits resource origin moment
  | first :: later =>
      first.shown origin < target.instant →
        Postpones resource first ∧
          match later with
          | [] => vigil.Awaits resource origin (first.wakeUp origin target)
          | second :: _ =>
              Launches resource origin target (first.wakeUp origin target) second

/-- When the time is over that was left until the schedule, the schedule has
come on the wall. -/
theorem instant_le_wakeUp {first : Visit} (hpostpones : Postpones resource first) :
    target.instant ≤ origin + first.wakeUp origin target * 1000000 := by
  have hshown : (first.shown origin : ℚ) ≤ origin + first.read * 1000000 := Int.floor_le _
  have hsettled := hpostpones.settled
  simp only [Visit.wakeUp, exactSeconds]
  push_cast
  linarith

theorem instant_le_shown {first second : Visit} (hpostpones : Postpones resource first)
    (hread : first.wakeUp origin target ≤ second.read) :
    target.instant ≤ second.shown origin := by
  have hcome : (target.instant : ℚ) ≤ origin + first.wakeUp origin target * 1000000 :=
    instant_le_wakeUp hpostpones
  apply Int.le_floor.mpr
  linarith

theorem Accounted.imp {visits : List Visit}
    (haccounted : Accounted resource origin target moment vigil visits)
    (hkeeps : ∀ {origin moment}, vigil.Awaits resource origin moment →
      next.Awaits resource origin moment) :
    Accounted resource origin target moment next visits := by
  match visits with
  | [] => exact hkeeps haccounted
  | [first] =>
      intro hahead
      exact (haccounted hahead).imp_right hkeeps
  | first :: second :: rest => exact haccounted

theorem Accounted.afterStep (hunstarted : Pass.Unstarted resource)
    (hparse : Schedule.parse resource.spec.schedule = .ok target)
    (haccounted : Accounted resource origin target moment vigil vigil.visits)
    (hstep : Step policy resource vigil next) :
    Accounted resource origin target moment next next.visits := by
  cases hstep with
  | other hkeeps => exact haccounted.imp hkeeps
  | handled handling =>
      rcases hvisits : vigil.visits with _ | ⟨first, _ | ⟨second, rest⟩⟩
      · rw [hvisits] at haccounted
        obtain ⟨-, hgoes⟩ := Awaits.handled hunstarted hparse haccounted handling
        rw [show handling.upshot.visits = [handling.visit] by simp [Handling.upshot, hvisits]]
        intro hahead
        rwa [if_pos hahead] at hgoes
      · rw [hvisits] at haccounted
        rw [show handling.upshot.visits = [first, handling.visit] by
          simp [Handling.upshot, hvisits]]
        intro hahead
        obtain ⟨hpostpones, hawaits⟩ := haccounted hahead
        obtain ⟨hread, hgoes⟩ := Awaits.handled hunstarted hparse hawaits handling
        have hcome := instant_le_shown hpostpones hread
        rw [if_neg (not_lt.mpr hcome)] at hgoes
        exact ⟨hpostpones, hgoes⟩
      · rw [hvisits] at haccounted
        rw [show handling.upshot.visits = first :: second :: (rest ++ [handling.visit]) by
          simp [Handling.upshot, hvisits]]
        exact haccounted

/-- A visit that finds the schedule of a command ahead sets one moment for its
key, which is the schedule itself if no time passes between the looks at the two
clocks, and is later by that time otherwise.  The key is not handed out before
it.  While nobody else asks for the key, the next visit launches the command. -/
theorem one_wakeup_is_enough (policy : DispatchPolicy ℚ) {start : Vigil}
    {moves : List VigilMove} {first : Visit} {later : List Visit}
    (hunstarted : Pass.Unstarted resource)
    (hparse : Schedule.parse resource.spec.schedule = .ok target)
    (hstart : start.Awaits resource origin moment) (hnone : start.visits = [])
    (hplay : play (step? policy resource) start moves = some vigil)
    (hvisits : vigil.visits = first :: later) (hahead : first.shown origin < target.instant) :
    let due := first.wakeUp origin target
    Postpones resource first ∧ first.settled < due ∧
      target.instant ≤ origin + due * 1000000 ∧
      (first.settled = first.read → first.shown origin = origin + first.read * 1000000 →
        target.instant = origin + due * 1000000) ∧
      match later with
      | [] => vigil.Withheld resource due
      | second :: _ => Launches resource origin target due second := by
  intro due
  have haccounted : Accounted resource origin target moment vigil vigil.visits := by
    refine play_keeps (P := fun vigil => Accounted resource origin target moment vigil vigil.visits)
      (fun _ _ _ h hstep => h.afterStep hunstarted hparse (step_of_step? hstep)) ?_ hplay
    rw [hnone]
    exact hstart
  rw [hvisits] at haccounted
  obtain ⟨hpostpones, hgoes⟩ := haccounted hahead
  refine ⟨hpostpones, ?_, instant_le_wakeUp hpostpones, ?_, ?_⟩
  · exact lt_add_of_pos_right _ (exactSeconds_pos (sub_pos.mpr hahead))
  · intro hsettled hexact
    simp only [due, Visit.wakeUp, exactSeconds, hsettled]
    push_cast
    linarith
  · cases later with
    | nil => exact hgoes.withheld
    | cons second rest => exact hgoes

/-- A command that is asked for a minute ahead of its schedule, and again after
two minutes. -/
theorem one_wakeup_is_enough_of_minute_ahead :
    let policy : DispatchPolicy ℚ := { conflictDelay := 0 }
    let command : At :=
      { metadata := { name := "a", resourceVersion := "1" }
        spec := ⟨"2024-01-01T00:01:00Z", "echo"⟩ }
    let target : DateTime := ⟨⟨2024, 1, 1⟩, 0, 1, 0, 0, some 0⟩
    let origin : ℚ := (⟨⟨2024, 1, 1⟩, 0, 0, 0, 0, some 0⟩ : DateTime).instant
    let queue : WorkQueue ObjectKey ℚ := { limiter := { base := 1, maximum := 300 } }
    let start : Vigil :=
      { queue := queue.add command.key
        site :=
          { shelf := { bench := { clock := ⟨0, 0, [], []⟩ }, ats := [(command.key, command)] }
            origin
            present := 0
            lapses := fun index => if index = 6 then 120 else 1 / 4 } }
    let moves : List VigilMove := [.handle none [], .get (some 0), .lapse, .handle none []]
    ∃ vigil first second, play (step? policy command) start moves = some vigil ∧
      vigil.visits = [first, second] ∧ Postpones command first ∧
      Launches command origin target (first.wakeUp origin target) second := by
  intro policy command target origin queue start moves
  have hruns : (play (step? policy command) start moves).any (fun vigil =>
      decide (vigil.visits.length = 2) &&
        vigil.visits.head?.any (·.shown origin < target.instant)) = true := by
    decide +kernel
  obtain ⟨vigil, hplay, hshape⟩ := (Option.any_eq_true _ _).mp hruns
  rw [Bool.and_eq_true, decide_eq_true_eq] at hshape
  obtain ⟨first, second, hvisits⟩ := List.length_eq_two.mp hshape.1
  have hahead : first.shown origin < target.instant := by
    have hhead := hshape.2
    rw [hvisits] at hhead
    exact of_decide_eq_true hhead
  have hparse : Schedule.parse command.spec.schedule = .ok target := by decide +kernel
  have hstart : start.Awaits command origin 0 := by
    constructor
    case rests =>
      exact WorkQueue.rests_add (WorkQueue.consistent_empty _) (WorkQueue.scheduled_empty _) rfl
        (by simp) 0
    case stored => simp [Shelf.at?, start, Assoc.get?]
    case free => rfl
    case origin => rfl
    case sensible => exact (by decide +kernel : 0 ≤ origin + 0 * 1000000)
  obtain ⟨hpostpones, -, -, -, hlaunches⟩ := one_wakeup_is_enough policy (Or.inl rfl) hparse
    hstart rfl hplay hvisits hahead
  exact ⟨vigil, first, second, hplay, hvisits, hpostpones, hlaunches⟩

end Vigil

end OneShot
