import Timers.Proofs.Effects

/-! What is published. A start and a stop publish one event each, unless they are refused, and
the end of a handler's run publishes that the timer has fired and then whether it is armed again.
Nothing else publishes, and what has been published stays. -/

namespace Timers

variable {H D : Type}

/-- The events that a command publishes. -/
def Command.events (given : Command H D) (scheduler : Scheduler H D) : List Event :=
  match given with
  | .start id delay periodic =>
    if (scheduler.start id delay periodic).1.isOk then
      [.started id (scheduler.tick.after delay)]
    else []
  | .stop id => if (scheduler.stop id).1.isOk then [.stopped id] else []
  | _ => []

/-- When a timer is due again whose handler ends now, if it is armed again. -/
def Timer.again? (timer : Timer H D) : Option Tick :=
  if timer.phase = .firing ∧ timer.period ≠ 0 then some (timer.expiry.after timer.period) else none

/-- The events that the end of a timer's handler publishes, given the timer's record. -/
def settleEvents (id : TimerId) (tick : Tick) (timer : Option (Timer H D)) : List Event :=
  .fired id tick :: ((timer.bind Timer.again?).map (Event.rearmed id)).toList

namespace Feed

/-- Publishes one event after another. -/
def publishAll (feed : Feed) (events : List Event) : Feed :=
  { feed with published := feed.published ++ events }

@[simp] theorem publishAll_nil (feed : Feed) : feed.publishAll [] = feed := by
  simp [publishAll]

private theorem publishAll_cons (feed : Feed) (event : Event) (events : List Event) :
    feed.publishAll (event :: events) = (feed.publish event).publishAll events := by
  simp [publishAll, publish]

end Feed

namespace Scheduler

/-- The feed is open, and these events have been published. -/
def Published (scheduler : Scheduler H D) (events : List Event) : Prop :=
  ∃ feed, scheduler.feed = some feed ∧ feed.published.toList = events

variable {scheduler after : Scheduler H D} {id : TimerId} {timer : Timer H D}
  {events : List Event}

theorem Published.congr (published : scheduler.Published events)
    (feed : after.feed = scheduler.feed) : after.Published events := by
  obtain ⟨opened, found, same⟩ := published
  exact ⟨opened, feed.trans found, same⟩

theorem Published.publishAll {more : List Event} (published : scheduler.Published events)
    (feed : after.feed = scheduler.feed.map (·.publishAll more)) :
    after.Published (events ++ more) := by
  obtain ⟨opened, found, rfl⟩ := published
  exact ⟨opened.publishAll more, by rw [feed, found, Option.map_some], by simp [Feed.publishAll]⟩

theorem map_publishAll_nil (feed : Option Feed) : feed.map (·.publishAll []) = feed := by
  cases feed <;> simp

private theorem map_publish (feed : Option Feed) (event : Event) :
    feed.map (·.publish event) = feed.map (·.publishAll [event]) := by
  cases feed <;> simp [Feed.publishAll_cons]

private theorem feed_disarm (scheduler : Scheduler H D) (id : TimerId) (timer : Timer H D) :
    (scheduler.disarm id timer).2.feed = scheduler.feed := by
  obtain ⟨_, _, same⟩ := scheduler.disarm_frame id timer
  rw [same]

theorem feed_start (scheduler : Scheduler H D) (id : TimerId) (delay : UInt64) (periodic : Bool) :
    (scheduler.start id delay periodic).2.feed =
      scheduler.feed.map (·.publishAll ((Command.start id delay periodic).events scheduler)) := by
  simp only [Command.events]
  cases found : scheduler.timer? id with
  | none => simp [start, found]
  | some timer =>
    have feed := scheduler.feed_disarm id timer
    have tick := congrArg Prod.fst (scheduler.clock_disarm id timer)
    obtain ⟨reply, free, disarmed⟩ : ∃ reply free, scheduler.disarm id timer = (reply, free) :=
      ⟨_, _, rfl⟩
    rw [disarmed] at feed tick
    cases reply with
    | error cause => simpa [start, found, disarmed, map_publishAll_nil] using feed
    | ok armed =>
      have feed : free.feed = scheduler.feed := feed
      have tick : free.tick = scheduler.tick := tick
      simp [start, found, disarmed, publish, arm, updateTimer, feed, tick, map_publish]

theorem feed_stop (scheduler : Scheduler H D) (id : TimerId) :
    (scheduler.stop id).2.feed =
      scheduler.feed.map (·.publishAll ((Command.stop id).events scheduler)) := by
  simp only [Command.events]
  cases found : scheduler.timer? id with
  | none => simp [stop, found]
  | some timer =>
    have feed := scheduler.feed_disarm id timer
    obtain ⟨reply, free, disarmed⟩ : ∃ reply free, scheduler.disarm id timer = (reply, free) :=
      ⟨_, _, rfl⟩
    rw [disarmed] at feed
    cases reply with
    | error cause => simpa [stop, found, disarmed, map_publishAll_nil] using feed
    | ok armed =>
      have feed : free.feed = scheduler.feed := feed
      simp only [stop, found, disarmed, isOk_ok, if_true, publish]
      split <;> simp [updateTimer, feed, map_publish]

private theorem feed_remove (scheduler : Scheduler H D) (id : TimerId) :
    (scheduler.remove id).2.feed = scheduler.feed := by
  obtain ⟨_, _, same⟩ := scheduler.remove_frame id
  rw [same]

theorem feed_perform (scheduler : Scheduler H D) {given : Command H D}
    (plain : given.feeds = false) :
    (scheduler.perform given).2.feed =
      scheduler.feed.map (·.publishAll (given.events scheduler)) := by
  cases given with
  | start id delay periodic => exact scheduler.feed_start id delay periodic
  | stop id => exact scheduler.feed_stop id
  | remove id => exact (scheduler.feed_remove id).trans (map_publishAll_nil _).symm
  | rebind id handler =>
    simp only [perform, rebind, Command.events, map_publishAll_nil]
    split <;> rfl
  | setPeriod id period =>
    simp only [perform, setPeriod, Command.events, map_publishAll_nil]
    split <;> rfl
  | add | modifyData | reset => exact (map_publishAll_nil _).symm
  | takeReporter | receive | drainEvents => cases plain

/-- What a command publishes comes after all that has been published. -/
theorem perform_publishes (published : scheduler.Published events) (given : Command H D) :
    (scheduler.perform given).2.Published (events ++ given.events scheduler) := by
  cases given with
  | takeReporter =>
    obtain ⟨feed, opened, rfl⟩ := published
    exact ⟨feed, by simp [perform, takeReporter, opened], by simp [Command.events]⟩
  | receive =>
    obtain ⟨feed, opened, rfl⟩ := published
    refine ⟨feed.receive.2, by simp [perform, receive, opened], ?_⟩
    simp only [Command.events, List.append_nil, Feed.receive]
    split <;> rfl
  | drainEvents =>
    obtain ⟨feed, opened, rfl⟩ := published
    exact ⟨feed.drain.2, by simp [perform, drainEvents, opened], by simp [Command.events, Feed.drain]⟩
  | _ => exact published.publishAll (scheduler.feed_perform rfl)

theorem feed_popDue? {arming : Arming} {turn : UInt64} {popped : Scheduler H D}
    (due : scheduler.popDue? = some (arming, turn, popped)) : popped.feed = scheduler.feed := by
  obtain ⟨_, rfl⟩ := popDue?_eq due
  rfl

theorem feed_lend (scheduler : Scheduler H D) (id : TimerId) :
    (scheduler.lend id).2.feed = scheduler.feed := by
  obtain ⟨_, same⟩ := scheduler.lend_frame id
  rw [same]

/-- What becomes of a record at the end of the handler's run: handler and data are put back, and
the timer is armed again or stays as it is. -/
structure Ended (timer : Timer H D) (handler : Option H) (data : Option D) (later : Timer H D) :
    Prop where
  handler : later.handler = handler
  data : later.data = data
  period : later.period = timer.period
  expiry : later.expiry = timer.again?.getD timer.expiry
  node : later.node.isSome = (timer.node.isSome || timer.again?.isSome)

private theorem rearm_ends (found : scheduler.timer? id = some timer) :
    ∃ later, Ended timer timer.handler timer.data later ∧
      ∀ other, (scheduler.rearm id).timer? other =
        if other = id then some later else scheduler.timer? other := by
  by_cases firing : timer.phase = .firing
  · by_cases once : timer.period = 0
    · refine ⟨{ timer with phase := .fired }, ⟨rfl, rfl, rfl, ?_, ?_⟩, fun other => ?_⟩
      · simp [Timer.again?, once]
      · simp [Timer.again?, once]
      · simp only [rearm, found, if_pos firing, if_pos once]
        exact timer?_of_update found _ other
    · have again : timer.again? = some (timer.expiry.after timer.period) := by
        simp [Timer.again?, firing, once]
      let node := (scheduler.queue.insert ⟨timer.expiry.after timer.period, id⟩).1
      refine ⟨{ timer with
        expiry := timer.expiry.after timer.period, phase := .scheduled, node := some node },
        ⟨rfl, rfl, rfl, by simp [again], by simp [again]⟩, fun other => ?_⟩
      simp only [rearm, found, if_pos firing, if_neg once]
      exact timer?_of_update found _ other
  · have nothing : timer.again? = none := by simp [Timer.again?, firing]
    refine ⟨timer, ⟨rfl, rfl, rfl, by simp [nothing], by simp [nothing]⟩, fun other => ?_⟩
    simp only [rearm, found, if_neg firing]
    split
    next same => rw [same, found]
    next => rfl

private theorem feed_rearm (scheduler : Scheduler H D) (id : TimerId) :
    (scheduler.rearm id).feed = scheduler.feed.map
      (·.publishAll (((scheduler.timer? id).bind Timer.again?).map (Event.rearmed id)).toList) := by
  simp only [rearm]
  split
  next absent => simp [absent]
  next timer found =>
    rw [found, Option.bind_some]
    by_cases firing : timer.phase = .firing
    · by_cases once : timer.period = 0
      · have nothing : timer.again? = none := by simp [Timer.again?, once]
        rw [if_pos firing, if_pos once, nothing]
        exact (map_publishAll_nil _).symm
      · have again : timer.again? = some (timer.expiry.after timer.period) := by
          simp [Timer.again?, firing, once]
        rw [if_pos firing, if_neg once, again]
        exact map_publish _ _
    · have nothing : timer.again? = none := by simp [Timer.again?, firing]
      rw [if_neg firing, nothing]
      exact (map_publishAll_nil _).symm

theorem settle_ends (found : scheduler.timer? id = some timer) (tick : Tick) (handler : H)
    (data : D) :
    ∃ later, Ended timer (some (timer.handler.getD handler)) (some data) later ∧
      ∀ other, (scheduler.settle id tick handler data).timer? other =
        if other = id then some later else scheduler.timer? other := by
  let told := scheduler.publish (.fired id tick)
  let returned := told.takeBack id handler data
  let whole := { timer with handler := some (timer.handler.getD handler), data := some data }
  have found : told.timer? id = some timer := found
  have timers : ∀ other, returned.timer? other =
      if other = id then some whole else scheduler.timer? other := timer?_of_update found _
  obtain ⟨later, ended, others⟩ := rearm_ends ((timers id).trans (if_pos rfl))
  refine ⟨later, ⟨ended.handler, ended.data, ended.period, ended.expiry, ended.node⟩, ?_⟩
  intro other
  apply (others other).trans
  rw [timers]
  split <;> rfl

theorem settle_rearms (tied : scheduler.Tied) (found : scheduler.timer? id = some timer)
    (tick : Tick) (handler : H) (data : D) :
    Effect scheduler (timer.again?.map fun expiry => ⟨expiry, id⟩) (fun _ => False)
      (scheduler.settle id tick handler data) := by
  obtain ⟨armed, settled⟩ := settle_settles tied id tick handler data
  obtain ⟨later, ended, timers⟩ := settle_ends found tick handler data
  have node := ended.node
  have scheduled : scheduler.isScheduled id = timer.node.isSome := by
    rw [isScheduled_eq, found, Option.any_some]
  have scheduled' : (scheduler.settle id tick handler data).isScheduled id = later.node.isSome := by
    rw [isScheduled_eq, timers, if_pos rfl, Option.any_some]
  apply settled.effect.relabel _ (fun _ => Iff.rfl)
  cases armed with
  | none =>
    have same := settled.quiet rfl
    rw [scheduled, scheduled', node] at same
    cases again : timer.again? with
    | none => rfl
    | some expiry =>
      have armed : timer.node.isSome := by simpa [again] using same.symm
      have phase := (tied.phase found).mp armed
      simp [Timer.again?, phase] at again
  | some arming =>
    obtain ⟨idle, set, _, old, present, firing, rfl, due⟩ := settled.rearmed arming rfl
    rw [found] at present
    cases present
    rw [scheduled] at idle
    rw [scheduled', node, idle, Bool.false_or] at set
    obtain ⟨expiry, again⟩ := Option.isSome_iff_exists.mp set
    have same : expiry = arming.expiry := by
      simp only [Timer.again?, firing, true_and] at again
      split at again
      · exact (Option.some.inj again).symm.trans due.symm
      · cases again
    rw [again, same]
    rfl

theorem timer?_settle_of_ne {other : TimerId} (apart : other ≠ id) (tick : Tick) (handler : H)
    (data : D) :
    (scheduler.settle id tick handler data).timer? other = scheduler.timer? other := by
  have update : ∀ (before : Scheduler H D) (change : Timer H D → Timer H D),
      (before.updateTimer id change).timer? other = before.timer? other := fun before change =>
    (timer?_updateTimer before id other change).trans (if_neg apart)
  simp only [settle, rearm]
  split
  · exact update _ _
  · split
    · split
      · exact (update _ _).trans (update _ _)
      · exact (update _ _).trans (update _ _)
    · exact update _ _

theorem feed_settle (scheduler : Scheduler H D) (id : TimerId) (tick : Tick) (handler : H)
    (data : D) :
    (scheduler.settle id tick handler data).feed =
      scheduler.feed.map (·.publishAll (settleEvents id tick (scheduler.timer? id))) := by
  let returned := (scheduler.publish (.fired id tick)).takeBack id handler data
  have again : (returned.timer? id).bind Timer.again? = (scheduler.timer? id).bind Timer.again? := by
    have timers : returned.timer? id = (scheduler.timer? id).map fun timer =>
        { timer with handler := some (timer.handler.getD handler), data := some data } :=
      (timer?_updateTimer (scheduler.publish (.fired id tick)) id id _).trans (if_pos rfl)
    rw [timers, Option.bind_map]
    rfl
  have told : returned.feed = scheduler.feed.map (·.publish (.fired id tick)) := rfl
  refine (returned.feed_rearm id).trans ?_
  rw [again, told, Option.map_map]
  exact congrArg (scheduler.feed.map ·) (funext fun feed => (feed.publishAll_cons _ _).symm)

theorem settle_publishes (published : scheduler.Published events) (tick : Tick) (handler : H)
    (data : D) :
    (scheduler.settle id tick handler data).Published
      (events ++ settleEvents id tick (scheduler.timer? id)) :=
  published.publishAll (scheduler.feed_settle id tick handler data)

end Scheduler

end Timers
