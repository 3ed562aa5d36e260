import Timers.Proofs.Punctuality
import Timers.Proofs.Replay

/-! The events are an exact record of what happens while they are published. Which events a step
has to publish is read off the step itself: off the reply to a command, off the entry that it puts
into the queue, and off the handler that it ends. What has been published is this record, no more
and no less, whichever commands handlers give; and what has been received is the beginning of it. -/

namespace Timers

variable {H D W : Type}

/-- The event that tells of a handler's run. -/
def Firing.event (firing : Firing) : Event := .fired firing.timer firing.tick

def Event.isFired : Event → Bool
  | .fired .. => true
  | _ => false

/-- An event that a timer is armed again comes right after the one that it has fired, and it is
not armed for a time before that. -/
def Justified (events : List Event) : Prop :=
  ∀ front rest id expiry, events = front ++ .rearmed id expiry :: rest →
    ∃ early tick, front = early ++ [.fired id tick] ∧ tick ≤ expiry

/-- What is still to be told of the handler that is running. -/
def Place.untold : Place → List Event
  | .inside firing => [firing.event]
  | .outside | .between => []

/-- The events that a step has to publish. -/
def Step.events (step : Step H D) : List Event :=
  match step.action, step.before.place with
  | .command (.start ..), _ =>
    (step.arming?.map fun arming => .started arming.timer arming.expiry).toList
  | .command (.stop id), _ => if (step.before.scheduler.stop id).1.isOk then [.stopped id] else []
  | .settle .., .inside firing =>
    firing.event :: (step.arming?.map fun arming => .rearmed arming.timer arming.expiry).toList
  | _, _ => []

/-- The events that a command gives to whoever receives. -/
def Command.received (given : Command H D) (scheduler : Scheduler H D) : List Event :=
  match given with
  | .receive => scheduler.receive.1.toOption.toList
  | .drainEvents => scheduler.drainEvents.1
  | _ => []

def Step.received (step : Step H D) : List Event :=
  match step.action with
  | .command given => given.received step.before.scheduler
  | _ => []

/-- All events that have to be published, and all that are received. -/
def told (steps : List (Step H D)) : List Event := steps.flatMap Step.events

def heard (steps : List (Step H D)) : List Event := steps.flatMap Step.received

private theorem told_append (earlier later : List (Step H D)) :
    told (earlier ++ later) = told earlier ++ told later := List.flatMap_append

private theorem told_cons (step : Step H D) (steps : List (Step H D)) :
    told (step :: steps) = step.events ++ told steps := List.flatMap_cons

variable {action : Action H D} {before after first last : Moment H D} {steps : List (Step H D)}
  {events : List Event}

namespace Scheduler

variable {scheduler : Scheduler H D} {id : TimerId} {place : Place}

private theorem arming?_start (tied : scheduler.Tied) (delay : UInt64) (periodic : Bool) :
    Step.arming? ⟨⟨place, scheduler⟩, .command (.start id delay periodic),
        ⟨place, (scheduler.perform (.start id delay periodic)).2⟩⟩ =
      if (scheduler.start id delay periodic).1.isOk then
        some ⟨scheduler.tick.after delay, id⟩
      else none := by
  cases found : scheduler.timer? id with
  | none => simp [Step.arming?, Step.arms?, Command.starts?, start_of_absent found]
  | some timer =>
    have armed := armed?_start tied found delay periodic
    obtain ⟨after, node, started, _⟩ := start_starts tied found delay periodic
    rw [started] at armed
    simp [Step.arming?, Step.arms?, Command.starts?, perform, started, armed]

private theorem arming?_settle {firing : Firing} (tied : scheduler.Tied) (handler : H) (data : D) :
    Step.arming? ⟨⟨.inside firing, scheduler⟩, .settle handler data,
        ⟨.between, scheduler.settle firing.timer firing.tick handler data⟩⟩ =
      ((scheduler.timer? firing.timer).bind Timer.again?).map fun expiry =>
        ⟨expiry, firing.timer⟩ := by
  cases found : scheduler.timer? firing.timer with
  | none =>
    have registered := scheduler.timer?_settle_isSome firing.timer firing.timer firing.tick handler data
    have gone : (scheduler.settle firing.timer firing.tick handler data).timer? firing.timer = none := by
      simpa [found] using registered
    simp [Step.arming?, Step.arms?, isScheduled_eq, gone]
  | some timer =>
    obtain ⟨later, ended, timers⟩ := settle_ends found firing.tick handler data
    have present := (timers firing.timer).trans (if_pos rfl)
    have node := ended.node
    have expiry := ended.expiry
    cases again : timer.again? with
    | none =>
      rw [again, Option.isSome_none, Bool.or_false] at node
      have quiet : (!timer.node.isSome && later.node.isSome) = false := by
        rw [node, Bool.not_and_self]
      simp only [Step.arming?, Step.arms?, isScheduled_eq, found, present, Option.any_some, quiet]
      simp [again]
    | some due =>
      have idle : timer.node.isSome = false := by
        rw [Bool.eq_false_iff]
        intro armed
        have phase := (tied.phase found).mp armed
        simp [Timer.again?, phase] at again
      rw [again] at node expiry
      simp [Step.arming?, Step.arms?, isScheduled_eq, armed?, expiry?, view?, found, present, again,
        node, expiry, idle]

private theorem events_command (tied : scheduler.Tied) (given : Command H D) :
    Step.events ⟨⟨place, scheduler⟩, .command given, ⟨place, (scheduler.perform given).2⟩⟩ =
      given.events scheduler := by
  cases given with
  | start id delay periodic =>
    change (Option.map _ (Step.arming? _)).toList = _
    rw [arming?_start tied]
    simp only [Command.events]
    split <;> rfl
  | _ => rfl

end Scheduler

/-- Whether a step is a command on nothing but the feed. -/
def Step.feeds (step : Step H D) : Bool :=
  match step.action with
  | .command given => given.feeds
  | _ => false

namespace Transition

/-- Unless it is on the feed, a step does nothing to it but publish what it has to publish. -/
private theorem feed (step : Transition action before after) (valid : before.Valid)
    (plain : Step.feeds ⟨before, action, after⟩ = false) :
    after.scheduler.feed =
      before.scheduler.feed.map (·.publishAll (Step.events ⟨before, action, after⟩)) := by
  have quiet : Step.events ⟨before, action, after⟩ = [] →
      after.scheduler.feed = before.scheduler.feed → after.scheduler.feed =
        before.scheduler.feed.map (·.publishAll (Step.events ⟨before, action, after⟩)) := by
    intro nothing same
    rw [nothing, same, Scheduler.map_publishAll_nil]
  cases step with
  | @command place scheduler given awake =>
    rw [Scheduler.events_command valid.tied]
    exact scheduler.feed_perform plain
  | beginAdvance begins =>
    obtain ⟨_, tick, _, rfl⟩ := Scheduler.beginAdvance_eq begins
    exact quiet rfl rfl
  | @dispatch scheduler popped lent arming turn given due taken =>
    have feed := popped.feed_lend arming.timer
    rw [taken, Scheduler.feed_popDue? due] at feed
    exact quiet rfl feed
  | skip due refused => exact absurd refused (valid.not_skipped due)
  | @settle firing scheduler handler data =>
    have told : Step.events ⟨⟨.inside firing, scheduler⟩, .settle handler data, ⟨.between,
        scheduler.settle firing.timer firing.tick handler data⟩⟩ =
        settleEvents firing.timer firing.tick (scheduler.timer? firing.timer) := by
      rw [Step.events, Scheduler.arming?_settle valid.tied]
      simp [settleEvents, Firing.event, Function.comp_def]
    rw [told]
    exact scheduler.feed_settle firing.timer firing.tick handler data
  | endAdvance finished => exact quiet rfl rfl

theorem publishes (step : Transition action before after) (valid : before.Valid)
    (published : before.scheduler.Published events) :
    after.scheduler.Published (events ++ Step.events ⟨before, action, after⟩) := by
  cases plain : Step.feeds ⟨before, action, after⟩ with
  | false => exact published.publishAll (step.feed valid plain)
  | true =>
    cases step with
    | command given awake =>
      rw [Scheduler.events_command valid.tied]
      exact Scheduler.perform_publishes published given
    | beginAdvance | dispatch | skip | settle | endAdvance => cases plain

end Transition

theorem Run.publishes (run : Run first steps last) (valid : first.Valid)
    (published : first.scheduler.Published events) :
    last.scheduler.Published (events ++ told steps) := by
  induction run generalizing events with
  | nil => simpa [told] using published
  | cons step _ ih =>
    have onward := ih (step.valid valid) (step.publishes valid published)
    rwa [List.append_assoc] at onward

namespace Scheduler

/-- Of all that has been published these events have been received. -/
def Heard (scheduler : Scheduler H D) (events heard : List Event) : Prop :=
  ∃ feed, scheduler.feed = some feed ∧ feed.published.toList = events ∧
    feed.received ≤ events.length ∧ heard = events.take feed.received

variable {scheduler : Scheduler H D} {heard more : List Event}

private theorem Heard.waiting (listened : scheduler.Heard events heard) :
    ∃ feed, scheduler.feed = some feed ∧ feed.published.toList = events ∧
      heard ++ feed.waiting = events := by
  obtain ⟨feed, found, rfl, _, rfl⟩ := listened
  exact ⟨feed, found, rfl, List.take_append_drop ..⟩

private theorem Heard.grow {after : Scheduler H D} (listened : scheduler.Heard events heard)
    (feed : after.feed = scheduler.feed.map (·.publishAll more)) :
    after.Heard (events ++ more) heard := by
  obtain ⟨opened, found, rfl, within, rfl⟩ := listened
  refine ⟨opened.publishAll more, by rw [feed, found, Option.map_some], by simp [Feed.publishAll],
    ?_, ?_⟩
  · rw [List.length_append]
    exact Nat.le_add_right_of_le within
  · exact (List.take_append_of_le_length within).symm

private theorem Heard.receive (listened : scheduler.Heard events heard) :
    scheduler.receive.2.Heard events (heard ++ Command.received .receive scheduler) := by
  obtain ⟨feed, found, rfl, within, rfl⟩ := listened
  simp only [Command.received, Scheduler.receive, found, Feed.receive]
  split
  next event oldest =>
    have oldest : feed.published.toList[feed.received]? = some event := by simpa using oldest
    obtain ⟨inside, _⟩ := List.getElem?_eq_some_iff.mp oldest
    refine ⟨_, rfl, rfl, inside, ?_⟩
    rw [List.take_add_one, oldest]
    rfl
  next =>
    refine ⟨_, rfl, rfl, within, ?_⟩
    simp [Except.toOption]

private theorem Heard.drain (listened : scheduler.Heard events heard) :
    scheduler.drainEvents.2.Heard events (heard ++ Command.received .drainEvents scheduler) := by
  obtain ⟨feed, found, rfl, within, rfl⟩ := listened
  simp only [Command.received, drainEvents, found]
  refine ⟨_, rfl, rfl, by simp [Feed.drain], ?_⟩
  simp only [Feed.drain, Feed.waiting, List.take_append_drop]
  exact (List.take_of_length_le (by simp)).symm

end Scheduler

private theorem Transition.hears (step : Transition action before after) (valid : before.Valid)
    {heard : List Event} (listened : before.scheduler.Heard events heard) :
    after.scheduler.Heard (events ++ Step.events ⟨before, action, after⟩)
      (heard ++ Step.received ⟨before, action, after⟩) := by
  have silent : Step.received ⟨before, action, after⟩ = [] →
      Step.feeds ⟨before, action, after⟩ = false →
      after.scheduler.Heard (events ++ Step.events ⟨before, action, after⟩)
        (heard ++ Step.received ⟨before, action, after⟩) := by
    intro nothing plain
    rw [nothing, List.append_nil]
    exact listened.grow (step.feed valid plain)
  cases step with
  | @command place scheduler given awake =>
    cases given with
    | receive => simpa [Step.events, Step.received, Scheduler.perform] using listened.receive
    | drainEvents => simpa [Step.events, Step.received, Scheduler.perform] using listened.drain
    | takeReporter =>
      obtain ⟨feed, opened, rest⟩ := listened
      have opened : scheduler.feed = some feed := opened
      refine ⟨feed, ?_, by simpa [Step.events, Step.received, Command.received] using rest⟩
      simp [Scheduler.perform, Scheduler.takeReporter, opened]
    | _ => exact silent rfl rfl
  | beginAdvance | dispatch | settle | endAdvance => exact silent rfl rfl
  | skip due refused => exact absurd refused (valid.not_skipped due)

theorem Run.hears (run : Run first steps last) (valid : first.Valid) {before : List Event}
    (listened : first.scheduler.Heard events before) :
    last.scheduler.Heard (events ++ told steps) (before ++ heard steps) := by
  induction run generalizing events before with
  | nil => simpa [told, heard] using listened
  | cons step _ ih =>
    have onward := ih (step.valid valid) (step.hears valid listened)
    rwa [List.append_assoc, List.append_assoc] at onward

private theorem Transition.tells (step : Transition action before after) :
    (Step.events ⟨before, action, after⟩).filter Event.isFired ++ after.place.untold =
      before.place.untold ++ (Step.firing? ⟨before, action, after⟩).toList.map Firing.event := by
  cases step with
  | @command place scheduler given awake =>
    have silent : (Step.events ⟨⟨place, scheduler⟩, .command given,
        ⟨place, (scheduler.perform given).2⟩⟩).filter Event.isFired = [] := by
      cases given with
      | start id delay periodic =>
        change List.filter _ (Option.map _ (Step.arming? _)).toList = []
        cases Step.arming? _ <;> rfl
      | stop id =>
        simp only [Step.events]
        split <;> rfl
      | _ => rfl
    rw [silent, List.nil_append]
    cases place with
    | between => exact absurd rfl awake
    | outside | inside firing => rfl
  | @settle firing scheduler handler data =>
    simp only [Step.events, List.filter_cons, Firing.event, Event.isFired, if_true]
    cases Step.arming? _ <;> rfl
  | beginAdvance | dispatch | skip | endAdvance => rfl

private theorem Run.tells (run : Run first steps last) :
    (told steps).filter Event.isFired ++ last.place.untold =
      first.place.untold ++ (firings steps).map Firing.event := by
  induction run with
  | nil => simp [told, firings]
  | cons step _ ih =>
    rw [firings_cons, List.map_append, ← List.append_assoc, ← step.tells, List.append_assoc, ← ih,
      ← List.append_assoc, ← List.filter_append]
    rfl

private theorem Justified.append {more : List Event} (early : Justified events)
    (late : Justified more) : Justified (events ++ more) := by
  intro front rest id expiry parts
  rcases List.append_eq_append_iff.mp parts with ⟨middle, rfl, split⟩ | ⟨middle, rfl, split⟩
  · obtain ⟨before, tick, rfl, past⟩ := late middle rest id expiry split
    exact ⟨events ++ before, tick, (List.append_assoc ..).symm, past⟩
  · cases middle with
    | nil =>
      obtain ⟨before, _, split, _⟩ := late [] rest id expiry split.symm
      simp at split
    | cons event middle =>
      obtain ⟨rfl, _⟩ := List.cons.inj split
      exact early front middle id expiry rfl

private theorem Justified.head (justified : Justified events) (id : TimerId) (expiry : Tick) :
    events.head? ≠ some (.rearmed id expiry) := by
  intro head
  obtain ⟨rest, rfl⟩ := List.head?_eq_some_iff.mp head
  obtain ⟨early, tick, nothing, _⟩ := justified [] rest id expiry rfl
  simp at nothing

private theorem Justified.of_none (none : ∀ id expiry, .rearmed id expiry ∉ events) :
    Justified events := by
  rintro front rest id expiry rfl
  exact absurd (by simp) (none id expiry)

private theorem Justified.pair {id : TimerId} {tick expiry : Tick} (past : tick ≤ expiry) :
    Justified [.fired id tick, .rearmed id expiry] := by
  intro front rest other due parts
  cases front with
  | nil => cases parts
  | cons event front =>
    obtain ⟨rfl, parts⟩ := List.cons.inj parts
    cases front with
    | nil =>
      cases parts
      exact ⟨[], tick, rfl, past⟩
    | cons event front => simp at parts

private theorem Transition.justified (step : Transition action before after) (valid : before.Valid)
    (punctual : before.Punctual) : Justified (Step.events ⟨before, action, after⟩) := by
  cases step with
  | @command place scheduler given awake =>
    apply Justified.of_none
    intro id expiry member
    rw [Scheduler.events_command valid.tied] at member
    cases given with
    | start | stop =>
      simp only [Command.events] at member
      split at member <;> simp at member
    | _ => cases member
  | @settle firing scheduler handler data =>
    rw [Step.events, Scheduler.arming?_settle valid.tied]
    cases again : (scheduler.timer? firing.timer).bind Timer.again? with
    | none => exact .of_none (by simp [Firing.event])
    | some expiry =>
      obtain ⟨timer, found, told⟩ := Option.bind_eq_some_iff.mp again
      simp only [Timer.again?] at told
      split at told
      next armed =>
        cases told
        exact .pair (punctual.again valid found armed.1 armed.2)
      next => cases told
  | beginAdvance | dispatch | skip | endAdvance => exact .of_none (by simp [Step.events])

theorem Run.justified (run : Run first steps last) (valid : first.Valid)
    (punctual : first.Punctual) : Justified (told steps) := by
  induction run with
  | nil => exact .of_none (by simp [told])
  | cons step _ ih =>
    exact (step.justified valid punctual).append
      (ih (step.valid valid) (step.punctual valid punctual))

/-- What follows the event that a timer has fired tells whether it is armed again. -/
theorem Run.rearms (run : Run first steps last) (valid : first.Valid) (punctual : first.Punctual)
    {front back : List (Step H D)} {step : Step H D} {firing : Firing}
    (parts : steps = front ++ step :: back) (inside : step.before.place = .inside firing)
    (ends : step.after.place = .between) :
    ∃ rest, told steps = told front ++ firing.event :: rest ∧ ∀ expiry,
      rest.head? = some (.rearmed firing.timer expiry) ↔
        step.arming? = some ⟨expiry, firing.timer⟩ := by
  subst parts
  obtain ⟨middle, earlier, onward⟩ := run.split
  have valid := earlier.preserves Transition.valid valid
  cases onward with
  | cons made onward =>
    have justified : Justified (told back) :=
      onward.justified (made.valid valid)
        (made.punctual valid (earlier.punctual ‹first.Valid› punctual))
    cases made with
    | command given awake =>
      cases inside
      cases ends
    | @settle firing' scheduler handler data =>
      cases inside
      let again := Step.arming? ⟨⟨.inside firing, scheduler⟩, .settle handler data, ⟨.between,
        scheduler.settle firing.timer firing.tick handler data⟩⟩
      refine ⟨(again.map fun arming => .rearmed arming.timer arming.expiry).toList ++ told back,
        ?_, fun expiry => ?_⟩
      · rw [told_append, told_cons]
        rfl
      · have settled : again = _ := Scheduler.arming?_settle valid.tied handler data
        change _ ↔ again = _
        rw [settled]
        cases (scheduler.timer? firing.timer).bind Timer.again? with
        | some due => simp
        | none => simpa using justified.head firing.timer expiry
    | beginAdvance | dispatch | skip | endAdvance => cases inside

private theorem System.advance_publishes {react : Reaction H D W} {fuel ticks : Nat}
    {system final : System H D W} {counted : List Firing}
    (valid : (⟨.outside, system.scheduler⟩ : Moment H D).Valid)
    (published : system.scheduler.Published events)
    (advanced : System.tryAdvance react fuel system = some (.ok counted, final) ∨
      system.run react fuel (Program.advanceTicks ticks) = some (counted, final)) :
    ∃ more, final.scheduler.Published (events ++ more) ∧
      more.filter Event.isFired = counted.map Firing.event := by
  obtain ⟨steps, run, fired⟩ : ∃ steps, Run ⟨.outside, system.scheduler⟩ steps
      ⟨.outside, final.scheduler⟩ ∧ firings steps = counted := by
    rcases advanced with once | often
    · exact System.tryAdvance_moments once
    · exact System.advanceTicks_moments often
  have tells := run.tells
  refine ⟨told steps, run.publishes valid published, ?_⟩
  rw [← fired]
  simpa [Place.untold] using tells

/-- From the moment on at which the feed is opened, the events are an exact record. What has been
published is what the steps have to publish, and what has been received is the beginning of it.
Every handler is told of when it ends, with the tick at which it began, and an advance publishes
as many of these events as it counts. A start that is not refused is told with the arming that it
puts on the schedule. And that a timer is armed again is told right after it has fired, if and only
if it is armed again then, with a time that is not past. -/
theorem events_are_exact {config : Config} {earlier later : List (Step H D)} {opening : Step H D}
    {moment : Moment H D} (run : Run (.ofConfig config) (earlier ++ opening :: later) moment)
    (opens : opening.opensFeed = true) :
    (∃ feed, moment.scheduler.feed = some feed ∧ feed.published.toList = told later ∧
      heard later ++ feed.waiting = told later) ∧
    (told later).filter Event.isFired ++ moment.place.untold =
      opening.after.place.untold ++ (firings later).map Firing.event ∧
    (∀ step ∈ later, ∀ firing, step.firing? = some firing →
      firing.tick = step.before.scheduler.tick) ∧
    (∀ step ∈ later, ∀ id delay periodic, step.action = .command (.start id delay periodic) →
      step.arming? = if (step.before.scheduler.start id delay periodic).1.isOk then
        some ⟨step.before.scheduler.tick.after delay, id⟩ else none) ∧
    (∀ step ∈ later, ∀ arming, step.arming? = some arming →
      ∃ turn, step.after.scheduler.Queued arming turn) ∧
    Justified (told later) ∧
    (∀ front back step firing, later = front ++ step :: back →
      step.before.place = .inside firing → step.after.place = .between →
      ∃ rest, told later = told front ++ firing.event :: rest ∧ ∀ expiry,
        rest.head? = some (.rearmed firing.timer expiry) ↔
          step.arming? = some ⟨expiry, firing.timer⟩) ∧
    (moment.place = .outside → ∀ (react : Reaction H D W) fuel shared ticks counted final,
      (System.tryAdvance react fuel ⟨moment.scheduler, shared⟩ = some (.ok counted, final) ∨
        System.run ⟨moment.scheduler, shared⟩ react fuel (Program.advanceTicks ticks) =
          some (counted, final)) →
      ∃ more, final.scheduler.Published (told later ++ more) ∧
        more.filter Event.isFired = counted.map Firing.event) := by
  obtain ⟨before, prior, run⟩ := run.split
  cases run with
  | @cons action before after last steps step run =>
    obtain ⟨opened, _⟩ := step.opens opens
    have valid := step.valid prior.valid
    have punctual := step.punctual prior.valid (prior.punctual (.ofConfig config) (.ofConfig config))
    have listened : after.scheduler.Heard [] [] := ⟨{}, opened, rfl, Nat.le_refl _, rfl⟩
    have listened : moment.scheduler.Heard (told later) (heard later) := run.hears valid listened
    have reaches : ∀ step ∈ later, step.before.Valid ∧
        Transition step.action step.before step.after := by
      intro step member
      obtain ⟨_, reached, made⟩ := run.reaches member
      exact ⟨reached.preserves Transition.valid valid, made⟩
    refine ⟨listened.waiting, run.tells, ?_, ?_, ?_, run.justified valid punctual, ?_, ?_⟩
    · intro step member firing fires
      obtain ⟨valid, made⟩ := reaches step member
      exact (made.firing valid fires).2.2.1
    · rintro ⟨before, action, after⟩ member id delay periodic rfl
      obtain ⟨valid, made⟩ := reaches _ member
      cases made
      exact Scheduler.arming?_start valid.tied delay periodic
    · intro step member arming arms
      obtain ⟨valid, made⟩ := reaches step member
      exact ⟨_, ((made.effect valid).queued arming _).mpr (.inr ⟨arms, rfl⟩)⟩
    · intro front back step firing parts inside ends
      exact run.rearms valid punctual parts inside ends
    · intro outside react fuel shared ticks counted final advanced
      obtain ⟨place, scheduler⟩ := moment
      cases outside
      have published := run.publishes valid ⟨{}, opened, rfl⟩
      exact System.advance_publishes (run.preserves Transition.valid valid) published advanced

/-- A handler resets the scheduler. It is told with the tick at which it began all the same, and the
timer that was armed again before is not heard of any more. -/
theorem events_are_exact_reset :
    ∃ (later : List (Step Nat Nat)) (moment : Moment Nat Nat) (feed : Feed),
      Run ⟨.outside, ((Scheduler.ofConfig { reporting := true }).perform .takeReporter).2⟩ later
        moment ∧
      moment.scheduler.tick = 0 ∧ moment.scheduler.feed = some feed ∧ feed.published.toList =
        [.started ⟨⟨0, 0⟩⟩ 1, .started ⟨⟨1, 0⟩⟩ 2, .fired ⟨⟨0, 0⟩⟩ 1, .rearmed ⟨⟨0, 0⟩⟩ 2,
          .fired ⟨⟨1, 0⟩⟩ 2] ∧
      heard later = [.started ⟨⟨0, 0⟩⟩ 1] ∧ heard later ++ feed.waiting = told later := by
  let first : TimerId := ⟨⟨0, 0⟩⟩
  let second : TimerId := ⟨⟨1, 0⟩⟩
  let config : Config := { reporting := true }
  let opened : Scheduler Nat Nat := ((Scheduler.ofConfig config).perform .takeReporter).2
  have shown : ((⟨.outside, opened⟩ : Moment Nat Nat).run?
      [.command (.add 7 5), .command (.add 8 6), .command (.start first 1 true),
        .command (.start second 2 false), .beginAdvance, .dispatch, .settle 7 5, .endAdvance,
        .command .receive, .beginAdvance, .dispatch, .command .reset, .settle 8 6,
        .endAdvance]).map (fun made =>
      (made.2.scheduler.tick, heard made.1, told made.1)) =
      some (0, [.started first 1], [.started first 1, .started second 2, .fired first 1,
        .rearmed first 2, .fired second 2]) := by decide +kernel
  obtain ⟨⟨later, moment⟩, made, same⟩ := Option.map_eq_some_iff.mp shown
  obtain ⟨tick, listened, events⟩ : moment.scheduler.tick = 0 ∧ heard later = _ ∧ told later = _ := by
    simpa using same
  have onward := Moment.run_of_run? made
  have run : Run (.ofConfig config) ([] ++ ⟨.ofConfig config, .command .takeReporter,
      ⟨.outside, opened⟩⟩ :: later) moment := .cons (.command .takeReporter (by simp)) onward
  obtain ⟨feed, found, published, waiting⟩ := (events_are_exact (W := Unit) run rfl).1
  exact ⟨later, moment, feed, onward, tick, found, published.trans events, listened, waiting⟩

end Timers
