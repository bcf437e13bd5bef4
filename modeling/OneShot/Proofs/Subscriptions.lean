import OneShot.Broadcast
import OneShot.Proofs.Runs
import Mathlib.Data.List.DropRight
import Mathlib.Data.List.Basic

/-!
# Live subscriptions

Every subscription comes with a way to take it back, which may be used again
later on.  A subscription is live until it is taken back for the first time.
The broadcaster keeps handlers and not subscriptions, so it may take another
subscription of the same handler instead.  The main statement says when this
makes a difference: the handlers that are told of an event are those of the live
subscriptions, in the order of the subscriptions, as long as no subscription was
taken back that is not the next one of its handler.
-/

namespace OneShot

variable {η ε ρ φ : Type} [DecidableEq η]

/-! ## Lists without an entry -/

omit [DecidableEq η] in
theorem append_singleton_eq_cons_iff {entries : List η} {entry : η} :
    entries ++ [entry] = entry :: entries ↔ ∀ other ∈ entries, other = entry := by
  induction entries with
  | nil => simp
  | cons first rest ih =>
      simp only [List.cons_append, List.cons.injEq, List.forall_mem_cons]
      constructor
      · rintro ⟨rfl, hrest⟩
        exact ⟨rfl, ih.mp hrest⟩
      · rintro ⟨rfl, hrest⟩
        exact ⟨rfl, ih.mpr hrest⟩

/-- The first occurrence of an entry stands for a later one if and only if nothing else stands
between them. -/
theorem erase_middle_iff {front back : List η} {entry : η} :
    (front ++ entry :: back).erase entry = front ++ back ↔
      ∀ other ∈ front.dropWhile (· ≠ entry), other = entry := by
  induction front with
  | nil => simp
  | cons first rest ih =>
      by_cases hfirst : first = entry
      · subst hfirst
        rw [List.cons_append, List.erase_cons_head, List.dropWhile_cons, if_neg (by simp),
          List.cons_append, List.append_cons, ← List.cons_append, List.append_cancel_right_eq,
          append_singleton_eq_cons_iff]
        simp
      · rw [List.cons_append, List.erase_cons_tail (by simpa using hfirst), List.cons_append,
          List.cons.injEq, ih, List.dropWhile_cons, if_pos (by simpa using hfirst)]
        simp

/-! ## Subscriptions by number -/

/-- What may be asked of a broadcaster.  What handlers ask while they are told of an event, and
what others ask meanwhile, comes in the order in which it is asked. -/
inductive RosterRequest (η ε : Type) where
  | subscribe (handler : η)
  /-- Take back the subscription of a number, again perhaps. -/
  | takeBack (number : Nat)
  | publish (event : ε)
  | publishAll (events : List ε)
  deriving DecidableEq

/-- The events that are published with a request, in order. -/
def RosterRequest.events : RosterRequest η ε → List ε
  | .subscribe _ | .takeBack _ => []
  | .publish event => [event]
  | .publishAll events => events

/-- A broadcaster with the handlers of all subscriptions that were ever made, in order, the numbers
of those that were taken back, who was told of what, and what the handlers keep. -/
structure Roster (η ε ρ : Type) where
  broadcast : Broadcast η := {}
  made : List η := []
  ended : List Nat := []
  told : List (η × ε) := []
  rest : ρ

namespace Roster

/-- A handler is told of an event.  If it fails, no more comes of that. -/
def tell (hear : η → ε → ρ → Except φ Unit × ρ) (handler : η) (event : ε)
    (heard : List (η × ε) × ρ) : List (η × ε) × ρ :=
  (heard.1 ++ [(handler, event)], (hear handler event heard.2).2)

def publish (hear : η → ε → ρ → Except φ Unit × ρ) (roster : Roster η ε ρ) (event : ε) :
    Roster η ε ρ :=
  let heard := roster.broadcast.publish (tell hear) event (roster.told, roster.rest)
  { roster with told := heard.1, rest := heard.2 }

def step? (hear : η → ε → ρ → Except φ Unit × ρ) (roster : Roster η ε ρ) :
    RosterRequest η ε → Option (Roster η ε ρ)
  | .subscribe handler =>
      some
        { roster with
          broadcast := roster.broadcast.subscribe handler
          made := roster.made ++ [handler] }
  | .takeBack number =>
      roster.made[number]?.map fun handler =>
        { roster with
          broadcast := roster.broadcast.unsubscribe handler
          ended := number :: roster.ended }
  | .publish event => some (roster.publish hear event)
  | .publishAll events => some (events.foldl (publish hear) roster)

omit [DecidableEq η] in
/-- The live subscriptions, in order, each with its number. -/
def live (roster : Roster η ε ρ) : List (η × Nat) :=
  roster.made.zipIdx.filter fun subscription => subscription.2 ∉ roster.ended

omit [DecidableEq η] in
/-- The handlers of the live subscriptions. -/
def awaiting (roster : Roster η ε ρ) : List η :=
  roster.live.map (·.1)

/-- Whether a subscription is the next one of its handler to be taken back, or no subscription of
its handler is left.  Several that no other handler's stands between are all next. -/
def Next (roster : Roster η ε ρ) (number : Nat) : Prop :=
  ∀ handler ∈ roster.made[number]?,
    if number ∈ roster.ended then handler ∉ roster.awaiting
    else ∀ earlier ∈ roster.live, ∀ between ∈ roster.live, earlier.1 = handler →
      earlier.2 < between.2 → between.2 < number → between.1 = handler

section Live

variable {roster next : Roster η ε ρ} {hear : η → ε → ρ → Except φ Unit × ρ} {handler : η}
  {number : Nat}

omit [DecidableEq η] in
theorem mem_live :
    (handler, number) ∈ roster.live ↔
      roster.made[number]? = some handler ∧ number ∉ roster.ended := by
  rw [live, List.mem_filter, List.mem_zipIdx_iff_getElem?]
  simp

omit [DecidableEq η] in
theorem pairwise_live (roster : Roster η ε ρ) :
    roster.live.Pairwise fun earlier later => earlier.2 < later.2 := by
  have hnumbers : (roster.made.zipIdx.map (·.2)).Pairwise (· < ·) := by
    rw [List.zipIdx_map_snd]
    exact List.pairwise_lt_range'
  exact (List.pairwise_map.mp hnumbers).sublist List.filter_sublist

/-- The live subscriptions, cut where one of them stands. -/
structure Cut (roster : Roster η ε ρ) (handler : η) (number : Nat) (front back : List (η × Nat)) :
    Prop where
  eq : roster.live = front ++ (handler, number) :: back
  earlier : ∀ subscription ∈ front, subscription.2 < number
  later : ∀ subscription ∈ back, number < subscription.2
  sorted : front.Pairwise fun earlier later => earlier.2 < later.2

omit [DecidableEq η] in
theorem exists_cut (hmem : (handler, number) ∈ roster.live) :
    ∃ front back, roster.Cut handler number front back := by
  obtain ⟨front, back, heq⟩ := List.append_of_mem hmem
  have hsorted := roster.pairwise_live
  rw [heq, List.pairwise_append, List.pairwise_cons] at hsorted
  obtain ⟨hfront, ⟨hback, -⟩, hacross⟩ := hsorted
  exact ⟨front, back, heq, fun subscription hbefore => hacross _ hbefore _ List.mem_cons_self,
    hback, hfront⟩

omit [DecidableEq η] in
theorem Cut.filter {front back : List (η × Nat)} (hcut : roster.Cut handler number front back) :
    roster.live.filter (·.2 ≠ number) = front ++ back := by
  have hfront : front.filter (·.2 ≠ number) = front :=
    List.filter_eq_self.mpr fun subscription hmem => by
      simpa using Nat.ne_of_lt (hcut.earlier subscription hmem)
  have hback : back.filter (·.2 ≠ number) = back :=
    List.filter_eq_self.mpr fun subscription hmem => by
      simpa using Nat.ne_of_gt (hcut.later subscription hmem)
  rw [hcut.eq, List.filter_append, hfront, List.filter_cons_of_neg (by simp), hback]

/-- From the first subscription of a handler on, nothing else stands in a list. -/
theorem forall_mem_dropWhile_iff {front : List (η × Nat)}
    (hsorted : front.Pairwise fun earlier later => earlier.2 < later.2) :
    (∀ other ∈ (front.map (·.1)).dropWhile (· ≠ handler), other = handler) ↔
      ∀ earlier ∈ front, ∀ between ∈ front, earlier.1 = handler → earlier.2 < between.2 →
        between.1 = handler := by
  induction front with
  | nil => simp
  | cons first rest ih =>
      obtain ⟨hfirst, hrest⟩ := List.pairwise_cons.mp hsorted
      rw [List.map_cons, List.dropWhile_cons]
      by_cases hsame : first.1 = handler
      · rw [if_neg (by simpa using hsame), List.forall_mem_cons]
        constructor
        · rintro ⟨-, hall⟩ earlier - between hbetween - -
          rcases List.mem_cons.mp hbetween with rfl | hlater
          · exact hsame
          · exact hall _ (List.mem_map_of_mem hlater)
        · intro hnext
          refine ⟨hsame, fun other hother => ?_⟩
          obtain ⟨between, hbetween, rfl⟩ := List.mem_map.mp hother
          exact hnext first List.mem_cons_self between (List.mem_cons_of_mem _ hbetween) hsame
            (hfirst between hbetween)
      · rw [if_pos (by simpa using hsame), ih hrest]
        constructor
        · intro hnext earlier hearlier between hbetween hhandler hlt
          rcases List.mem_cons.mp hearlier with rfl | hmem
          · exact absurd hhandler hsame
          · rcases List.mem_cons.mp hbetween with rfl | hmem'
            · exact absurd hlt (Nat.lt_asymm (hfirst earlier hmem))
            · exact hnext earlier hmem between hmem' hhandler hlt
        · intro hnext earlier hearlier between hbetween
          exact hnext earlier (List.mem_cons_of_mem _ hearlier) between
            (List.mem_cons_of_mem _ hbetween)

/-- No subscription has a number that is still to be given. -/
def Numbered (roster : Roster η ε ρ) : Prop :=
  ∀ number ∈ roster.ended, number < roster.made.length

/-! ## One request -/

omit [DecidableEq η] in
/-- Every handler that has subscribed is told once, whether handlers fail or not. -/
theorem publish_tell (hear : η → ε → ρ → Except φ Unit × ρ) (broadcast : Broadcast η) (event : ε)
    (heard : List (η × ε) × ρ) :
    (broadcast.publish (tell hear) event heard).1 =
      heard.1 ++ broadcast.handlers.map fun handler => (handler, event) := by
  rw [Broadcast.publish]
  generalize broadcast.handlers = handlers
  induction handlers generalizing heard with
  | nil => simp
  | cons handler later ih => rw [List.foldl_cons, ih, tell, List.map_cons, List.append_assoc,
      List.singleton_append]

/-- What comes of publishing events: each handler is told of each of them, in order. -/
structure Tells (roster next : Roster η ε ρ) (events : List ε) : Prop where
  broadcast : next.broadcast = roster.broadcast
  made : next.made = roster.made
  ended : next.ended = roster.ended
  told : next.told = roster.told ++ events.flatMap fun event =>
    roster.broadcast.handlers.map fun handler => (handler, event)

omit [DecidableEq η] in
theorem tells_foldl (hear : η → ε → ρ → Except φ Unit × ρ) (roster : Roster η ε ρ)
    (events : List ε) : roster.Tells (events.foldl (publish hear) roster) events := by
  induction events generalizing roster with
  | nil => exact ⟨rfl, rfl, rfl, by simp⟩
  | cons event later ih =>
      obtain ⟨hbroadcast, hmade, hended, htold⟩ := ih (roster.publish hear event)
      refine ⟨hbroadcast, hmade, hended, htold.trans ?_⟩
      rw [publish, publish_tell, List.append_assoc, List.flatMap_cons]

theorem told_of_step {request : RosterRequest η ε} (hstep : roster.step? hear request = some next) :
    next.told = roster.told ++ request.events.flatMap fun event =>
      roster.broadcast.handlers.map fun handler => (handler, event) := by
  cases request with
  | subscribe handler =>
      cases hstep
      exact (List.append_nil _).symm
  | takeBack number =>
      obtain ⟨handler, -, rfl⟩ := Option.map_eq_some_iff.mp hstep
      exact (List.append_nil _).symm
  | publish event =>
      cases hstep
      exact (tells_foldl hear roster [event]).told
  | publishAll events =>
      cases hstep
      exact (tells_foldl hear roster events).told

theorem Numbered.step {request : RosterRequest η ε} (hnumbered : roster.Numbered)
    (hstep : roster.step? hear request = some next) : next.Numbered := by
  cases request with
  | subscribe handler =>
      cases hstep
      intro number hended
      rw [List.length_append]
      exact Nat.lt_add_right _ (hnumbered number hended)
  | takeBack number =>
      obtain ⟨handler, hmade, rfl⟩ := Option.map_eq_some_iff.mp hstep
      intro other hended
      rcases List.mem_cons.mp hended with rfl | hended
      · exact (List.getElem?_eq_some_iff.mp hmade).1
      · exact hnumbered other hended
  | publish event =>
      cases hstep
      exact hnumbered
  | publishAll events =>
      cases hstep
      have htells := tells_foldl hear roster events
      intro number
      rw [htells.ended, htells.made]
      exact hnumbered number

theorem awaiting_of_subscribe (hnumbered : roster.Numbered)
    (hstep : roster.step? hear (.subscribe handler) = some next) :
    next.awaiting = roster.awaiting ++ [handler] := by
  cases hstep
  have hnew : roster.made.length ∉ roster.ended :=
    fun hended => Nat.lt_irrefl _ (hnumbered _ hended)
  simp [awaiting, live, List.zipIdx_append, List.filter_append, hnew]

theorem live_of_takeBack (hstep : roster.step? hear (.takeBack number) = some next) :
    next.live = roster.live.filter (·.2 ≠ number) := by
  obtain ⟨handler, -, rfl⟩ := Option.map_eq_some_iff.mp hstep
  rw [live, live, List.filter_filter]
  congr 1
  funext subscription
  simp [not_or]

/-- The right subscription is taken back exactly if it is the next one of its handler. -/
theorem erase_awaiting_iff (hmade : roster.made[number]? = some handler)
    (hstep : roster.step? hear (.takeBack number) = some next) :
    roster.awaiting.erase handler = next.awaiting ↔ roster.Next number := by
  rw [awaiting, awaiting, live_of_takeBack hstep]
  have hnext : roster.Next number ↔
      if number ∈ roster.ended then handler ∉ roster.awaiting
      else ∀ earlier ∈ roster.live, ∀ between ∈ roster.live, earlier.1 = handler →
        earlier.2 < between.2 → between.2 < number → between.1 = handler := by
    rw [Next, hmade]
    simp
  rw [hnext]
  split
  next hended =>
    have hall : roster.live.filter (·.2 ≠ number) = roster.live :=
      List.filter_eq_self.mpr fun subscription hmem => by
        have hlive := mem_live.mp hmem
        have hother : subscription.2 ≠ number := fun heq => hlive.2 (heq ▸ hended)
        simpa using hother
    rw [hall]
    exact List.erase_eq_self_iff
  next hlive =>
    obtain ⟨front, back, hcut⟩ := exists_cut (mem_live.mpr ⟨hmade, hlive⟩)
    rw [hcut.filter, hcut.eq, List.map_append, List.map_append, List.map_cons,
      erase_middle_iff, forall_mem_dropWhile_iff hcut.sorted]
    constructor
    · intro hfront earlier hearlier between hbetween hhandler hlt hbefore
      have hfronts : ∀ subscription ∈ front ++ (handler, number) :: back,
          subscription.2 < number → subscription ∈ front := by
        intro subscription hmem hsmall
        rcases List.mem_append.mp hmem with hmem | hmem
        · exact hmem
        rcases List.mem_cons.mp hmem with rfl | hmem
        · exact absurd hsmall (Nat.lt_irrefl _)
        · exact absurd hsmall (Nat.lt_asymm (hcut.later subscription hmem))
      exact hfront earlier (hfronts earlier hearlier (hlt.trans hbefore)) between
        (hfronts between hbetween hbefore) hhandler hlt
    · intro hall earlier hearlier between hbetween hhandler hlt
      exact hall earlier (List.mem_append_left _ hearlier) between
        (List.mem_append_left _ hbetween) hhandler hlt (hcut.earlier between hbetween)

end Live

/-! ## Runs -/

section Runs

variable {hear : η → ε → ρ → Except φ Unit × ρ} {roster next : Roster η ε ρ} {rest : ρ}
  {moves : List (RosterRequest η ε)}

/-- Whether a request takes back a subscription that is not the next one of its handler. -/
def Mistakes (roster : Roster η ε ρ) : RosterRequest η ε → Prop
  | .takeBack number => ¬ roster.Next number
  | .subscribe _ | .publish _ | .publishAll _ => False

/-- The handlers that have subscribed are those of the live subscriptions. -/
structure Agrees (roster : Roster η ε ρ) : Prop where
  numbered : roster.Numbered
  handlers : roster.broadcast.handlers = roster.awaiting

/-- A request keeps the handlers those of the live subscriptions exactly if it takes no other
subscription back than the next one of its handler. -/
theorem Agrees.step_iff {request : RosterRequest η ε} (hagrees : roster.Agrees)
    (hstep : roster.step? hear request = some next) : next.Agrees ↔ ¬ roster.Mistakes request := by
  have hnumbered := hagrees.numbered.step hstep
  have hiff : next.Agrees ↔ next.broadcast.handlers = next.awaiting :=
    ⟨Agrees.handlers, fun hhandlers => ⟨hnumbered, hhandlers⟩⟩
  rw [hiff]
  cases request with
  | subscribe handler =>
      have hhandlers : next.broadcast.handlers = roster.awaiting ++ [handler] := by
        cases hstep
        rw [← hagrees.handlers]
        rfl
      rw [hhandlers, awaiting_of_subscribe hagrees.numbered hstep]
      simp only [Mistakes, not_false_eq_true]
  | takeBack number =>
      obtain ⟨handler, hmade, hnext⟩ := Option.map_eq_some_iff.mp hstep
      have hhandlers : next.broadcast.handlers = roster.awaiting.erase handler := by
        rw [← hnext, ← hagrees.handlers]
        rfl
      rw [hhandlers, erase_awaiting_iff hmade hstep, Mistakes, not_not]
  | publish event =>
      cases hstep
      simp only [Mistakes, not_false_eq_true, iff_true]
      exact hagrees.handlers
  | publishAll events =>
      cases hstep
      have htells := tells_foldl hear roster events
      simp only [Mistakes, not_false_eq_true, iff_true]
      rw [htells.broadcast, awaiting, live, htells.made, htells.ended]
      exact hagrees.handlers

omit [DecidableEq η] in
theorem agrees_start (rest : ρ) : Agrees ({ rest } : Roster η ε ρ) :=
  ⟨fun _ hended => absurd hended List.not_mem_nil, rfl⟩

/-- The handlers are those of the live subscriptions all the time exactly if no mistake is made. -/
theorem agrees_iff (hplay : play (step? hear) { rest } moves = some roster) :
    ¬ Sometime (step? hear) (fun config move _ => config.Mistakes move) { rest } moves ↔
      ∀ before after config, moves = before ++ after →
        play (step? hear) { rest } before = some config → config.Agrees := by
  constructor
  · intro hright before
    induction before using List.reverseRecOn with
    | nil =>
        rintro after config - hbefore
        cases hbefore
        exact agrees_start rest
    | append_singleton earlier move ih =>
        intro after config hsplit hbefore
        rw [List.append_assoc, List.singleton_append] at hsplit
        rw [play_append, Option.bind_eq_some_iff] at hbefore
        obtain ⟨middle, hearlier, hlast⟩ := hbefore
        rw [play_cons, Option.bind_eq_some_iff] at hlast
        obtain ⟨_, hstep, hend⟩ := hlast
        cases hend
        exact ((ih _ _ hsplit hearlier).step_iff hstep).mpr fun hmistake =>
          hright ⟨earlier, move, after, middle, hsplit, hearlier, hmistake⟩
  · rintro hagrees ⟨before, move, after, config, rfl, hbefore, hmistake⟩
    rw [play_append, hbefore, Option.bind_some, play_cons, Option.bind_eq_some_iff] at hplay
    obtain ⟨next, hstep, -⟩ := hplay
    have hnext : play (step? hear) { rest } (before ++ [move]) = some next := by
      rw [play_snoc hbefore, hstep]
    have hthen := hagrees (before ++ [move]) after next (by simp) hnext
    exact ((hagrees before (move :: after) config rfl hbefore).step_iff hstep).mp hthen hmistake

theorem numbered_of_play (hplay : play (step? hear) { rest } moves = some roster) :
    roster.Numbered :=
  play_keeps (P := Numbered) (fun _ _ _ hbefore hstep => hbefore.step hstep)
    (agrees_start rest).numbered hplay

/-- The handlers are those of the live subscriptions exactly if events would now be told to
these. -/
theorem agrees_iff_told [Nonempty ε] (hear : η → ε → ρ → Except φ Unit × ρ)
    (hnumbered : roster.Numbered) :
    roster.Agrees ↔ ∀ request next, roster.step? hear request = some next →
      next.told = roster.told ++ request.events.flatMap fun event =>
        roster.awaiting.map fun handler => (handler, event) := by
  constructor
  · rintro ⟨-, hhandlers⟩ request next hstep
    rw [told_of_step hstep, hhandlers]
  · intro htold
    obtain ⟨event⟩ := ‹Nonempty ε›
    have hstep : roster.step? hear (.publish event) = some (roster.publish hear event) := rfl
    have hsame := htold (.publish event) _ hstep
    rw [told_of_step hstep, List.append_cancel_left_eq] at hsame
    simp only [RosterRequest.events, List.flatMap_singleton] at hsame
    have hpair : Function.Injective fun handler : η => (handler, event) :=
      fun _ _ heq => (Prod.mk.inj heq).1
    exact ⟨hnumbered, hpair.list_map hsame⟩

omit [DecidableEq η] in
/-- Where no handler has subscribed twice, there is no wrong subscription to take back. -/
theorem next_of_nodup (hnodup : roster.made.Nodup) (number : Nat) : roster.Next number := by
  intro handler hmade
  have honly : ∀ subscription ∈ roster.live, subscription.1 = handler →
      subscription.2 = number := by
    rintro ⟨_, other⟩ hlive rfl
    obtain ⟨hother, -⟩ := mem_live.mp hlive
    have hlength : other < roster.made.length := (List.getElem?_eq_some_iff.mp hother).1
    exact (List.getElem?_inj hlength hnodup).mp (hother.trans hmade.symm)
  split
  next hended =>
    intro hawaiting
    obtain ⟨subscription, hlive, hhandler⟩ := List.mem_map.mp hawaiting
    exact (mem_live.mp hlive).2 (honly subscription hlive hhandler ▸ hended)
  next =>
    intro earlier hearlier between hbetween hhandler hlt hbefore
    exact absurd (honly earlier hearlier hhandler) (Nat.ne_of_lt (hlt.trans hbefore))

theorem made_prefix_of_step {request : RosterRequest η ε}
    (hstep : roster.step? hear request = some next) : roster.made <+: next.made := by
  cases request with
  | subscribe handler =>
      cases hstep
      exact List.prefix_append _ _
  | takeBack number =>
      obtain ⟨handler, -, rfl⟩ := Option.map_eq_some_iff.mp hstep
      exact List.prefix_refl _
  | publish event =>
      cases hstep
      exact List.prefix_refl _
  | publishAll events =>
      cases hstep
      exact (tells_foldl hear roster events).made ▸ List.prefix_refl _

theorem handlers_of_takeBack {number : Nat}
    (hstep : roster.step? hear (.takeBack number) = some next) :
    ∃ handler, roster.made[number]? = some handler ∧
      next.broadcast.handlers = roster.broadcast.handlers.erase handler := by
  obtain ⟨handler, hmade, rfl⟩ := Option.map_eq_some_iff.mp hstep
  exact ⟨handler, hmade, rfl⟩

/-- Whatever is asked of a broadcaster, by whom and in which order, and whichever handlers fail:
events would always have reached each live subscription once, in the order of the subscriptions,
exactly if only the next subscription of a handler was ever taken back.  This is so if no handler
has subscribed twice.  Taking a subscription back never touches those of other handlers, and takes
no more than one away. -/
theorem events_reach_live_subscriptions_unless_mistaken [Nonempty ε]
    (hplay : play (step? hear) { rest } moves = some roster) :
    (¬ Sometime (step? hear) (fun config move _ => config.Mistakes move) { rest } moves ↔
      ∀ before after config request next, moves = before ++ after →
        play (step? hear) { rest } before = some config →
        config.step? hear request = some next →
          next.told = config.told ++ request.events.flatMap fun event =>
            config.awaiting.map fun handler => (handler, event)) ∧
    (roster.made.Nodup →
      ¬ Sometime (step? hear) (fun config move _ => config.Mistakes move) { rest } moves) ∧
    ∀ number next, roster.step? hear (.takeBack number) = some next →
      ∃ handler, roster.made[number]? = some handler ∧
        (next.broadcast.handlers.filter fun other => other ≠ handler) =
          (roster.broadcast.handlers.filter fun other => other ≠ handler) ∧
        next.broadcast.handlers.count handler = roster.broadcast.handlers.count handler - 1 := by
  refine ⟨?_, ?_, ?_⟩
  · rw [agrees_iff hplay]
    constructor
    · intro hagrees before after config request next hsplit hbefore
      exact (agrees_iff_told hear (numbered_of_play hbefore)).mp
        (hagrees before after config hsplit hbefore) request next
    · intro htold before after config hsplit hbefore
      exact (agrees_iff_told hear (numbered_of_play hbefore)).mpr fun request next =>
        htold before after config request next hsplit hbefore
  · rintro hnodup ⟨before, move, after, config, rfl, hbefore, hmistake⟩
    rw [play_append, hbefore, Option.bind_some] at hplay
    have hmade : config.made <+: roster.made :=
      play_keeps (P := fun later => config.made <+: later.made)
        (fun _ _ _ hbefore hstep => hbefore.trans (made_prefix_of_step hstep))
        (List.prefix_refl _) hplay
    cases move with
    | takeBack number => exact hmistake (next_of_nodup (hnodup.sublist hmade.sublist) number)
    | subscribe | publish | publishAll => exact hmistake
  · intro number next hstep
    obtain ⟨handler, hmade, hhandlers⟩ := handlers_of_takeBack hstep
    refine ⟨handler, hmade, ?_, ?_⟩
    · rw [hhandlers, ← List.erase_filter, List.erase_of_not_mem (by simp)]
    · rw [hhandlers, List.count_erase_self]

end Runs

/-! ## Taking back in the order of the subscriptions and otherwise -/

/-- Two handlers, one of which fails whenever it is told; both count what they are told. -/
def counting (handler : Bool) (_ : Unit) (heard : Nat) : Except Unit Unit × Nat :=
  (if handler then .ok () else .error (), heard + 1)

instance decidableMistakes (roster : Roster η ε ρ) :
    (request : RosterRequest η ε) → Decidable (roster.Mistakes request)
  | .subscribe _ | .publish _ | .publishAll _ => isFalse id
  | .takeBack number => inferInstanceAs (Decidable (¬ ∀ handler ∈ roster.made[number]?, _))

/-- A handler that subscribes twice and is taken back in order, with subscriptions taken back again
once their handler has no other. -/
def orderly : List (RosterRequest Bool Unit) :=
  [.subscribe true, .subscribe false, .subscribe true, .takeBack 0, .publish (), .takeBack 2,
    .takeBack 0, .takeBack 2, .publishAll [(), ()]]

theorem orderly_events_reach_live_subscriptions :
    ∃ roster : Roster Bool Unit Nat, play (step? counting) { rest := 0 } orderly = some roster ∧
      roster.told = [(false, ()), (true, ()), (false, ()), (false, ())] ∧
      ∀ before after config request next, orderly = before ++ after →
        play (step? counting) { rest := 0 } before = some config →
        config.step? counting request = some next →
          next.told = config.told ++ request.events.flatMap fun event =>
            config.awaiting.map fun handler => (handler, event) := by
  have hright : ¬ Sometime (step? counting)
      (fun (config : Roster Bool Unit Nat) move _ => config.Mistakes move) { rest := 0 }
      orderly := by
    decide
  exact ⟨_, rfl, by decide,
    (events_reach_live_subscriptions_unless_mistaken rfl).1.mp hright⟩

/-- Where a subscription is taken back again, another one of its handler goes.  Where the later one
of two is taken back, the earlier one goes, and the handler is told later than it should be. -/
theorem live_subscriptions_are_taken_back_for_others :
    (∃ roster : Roster Bool Unit Nat,
      play (step? counting) { rest := 0 }
        [.subscribe true, .subscribe true, .takeBack 0, .takeBack 0, .publish ()] = some roster ∧
      roster.awaiting = [true] ∧ roster.told = []) ∧
    ∃ roster : Roster Bool Unit Nat,
      play (step? counting) { rest := 0 }
        [.subscribe true, .subscribe false, .subscribe true, .takeBack 2, .publish ()] =
          some roster ∧
      roster.awaiting = [true, false] ∧ roster.told = [(false, ()), (true, ())] :=
  ⟨⟨_, rfl, by decide, by decide⟩, _, rfl, by decide, by decide⟩

end Roster

end OneShot
