import Timers.Proofs.Seclusion

/-! Two schedulers that cannot be told apart, but by the order of two events that were published one
right after the other. Their timers have the same ids and the same records, and come in the same
order when they are due at the same tick; the layout of the queues and the turns may differ. Whatever
is asked of both is answered alike, and leaves them as they were to each other. -/

namespace Timers

variable {H D : Type}

/-- The same events, but that two neighbours may have changed places. -/
inductive Crossed (event event' : Event) : List Event → List Event → Prop where
  | same (events : List Event) : Crossed event event' events events
  | swapped (early late : List Event) :
    Crossed event event' (early ++ event :: event' :: late) (early ++ event' :: event :: late)

/-- Replies to a command that are the same, but that two neighbouring events may have changed places,
or may stand for each other when only one of the two is received. -/
inductive Command.Crosses (event event' : Event) :
    (given : Command H D) → given.Reply → given.Reply → Prop where
  | same {given : Command H D} (reply : given.Reply) : Crosses event event' given reply reply
  | first : Crosses event event' .receive (.ok event) (.ok event')
  | second : Crosses event event' .receive (.ok event') (.ok event)
  | both {events events' : List Event} (crossed : Crossed event event' events events') :
    Crosses event event' .drainEvents events events'
  | rest (late : List Event) : Crosses event event' .drainEvents (event' :: late) (event :: late)

/-- Two feeds of which the same has been received. -/
structure Feed.Exchanged (event event' : Event) (feed feed' : Feed) : Prop where
  published : Crossed event event' feed.published.toList feed'.published.toList
  received : feed.received = feed'.received
  closed : feed.closed = feed'.closed

variable {event event' : Event} {events events' : List Event}

namespace Crossed

private theorem append (crossed : Crossed event event' events events') (more : List Event) :
    Crossed event event' (events ++ more) (events' ++ more) := by
  cases crossed with
  | same => exact .same _
  | swapped early late =>
    rw [List.append_assoc, List.append_assoc]
    exact .swapped early (late ++ more)

private theorem length (crossed : Crossed event event' events events') :
    events.length = events'.length := by
  cases crossed with
  | same => rfl
  | swapped early late => simp

private theorem eq (crossed : Crossed event event events events') : events = events' := by
  cases crossed <;> rfl

/-- The first of the two may be gone, and then the other stands where it stood. -/
private theorem drop (crossed : Crossed event event' events events') (count : Nat) :
    Crossed event event' (events.drop count) (events'.drop count) ∨
      ∃ late, events.drop count = event' :: late ∧ events'.drop count = event :: late := by
  cases crossed with
  | same => exact .inl (.same _)
  | swapped early late =>
    rcases Nat.lt_trichotomy count (early.length + 1) with before | rfl | past
    · have inside : count ≤ early.length := Nat.le_of_lt_succ before
      rw [List.drop_append_of_le_length inside, List.drop_append_of_le_length inside]
      exact .inl (.swapped _ late)
    · exact .inr ⟨late, by simp [List.drop_append], by simp [List.drop_append]⟩
    · have gone : ∀ one two : Event, (early ++ one :: two :: late).drop count =
          late.drop (count - (early.length + 2)) := by
        intro one two
        have split : early ++ one :: two :: late = (early ++ [one, two]) ++ late := by simp
        have short : (early ++ [one, two]).length ≤ count := by
          rw [List.length_append]
          exact past
        rw [split, List.drop_append, List.drop_eq_nil_of_le short, List.nil_append]
        simp
      rw [gone, gone]
      exact .inl (.same _)

private theorem place (crossed : Crossed event event' events events') (count : Nat) :
    events[count]? = events'[count]? ∨
      (events[count]? = some event ∧ events'[count]? = some event') ∨
      (events[count]? = some event' ∧ events'[count]? = some event) := by
  rw [← List.head?_drop, ← List.head?_drop]
  rcases crossed.drop count with crossed | ⟨late, rest, rest'⟩
  · generalize events.drop count = waiting, events'.drop count = waiting' at crossed
    cases crossed with
    | same => exact .inl rfl
    | swapped early late =>
      cases early with
      | nil => exact .inr (.inl ⟨rfl, rfl⟩)
      | cons => exact .inl rfl
  · rw [rest, rest']
    exact .inr (.inr ⟨rfl, rfl⟩)

end Crossed

/-- An event that changes places with itself changes nothing. -/
theorem Command.Crosses.eq {given : Command H D} {reply reply' : given.Reply}
    (crosses : given.Crosses event event reply reply') : reply = reply' := by
  cases crosses with
  | same | first | second | rest => rfl
  | both crossed => exact crossed.eq

namespace Feed.Exchanged

variable {feed feed' : Feed}

theorem refl (feed : Feed) : feed.Exchanged event event' feed := ⟨.same _, rfl, rfl⟩

theorem eq (exchanged : feed.Exchanged event event feed') : feed = feed' := by
  obtain ⟨published, received, closed⟩ := feed
  obtain ⟨published', received', closed'⟩ := feed'
  obtain ⟨crossed, rfl, rfl⟩ := exchanged
  obtain rfl : published = published' := Array.toList_inj.mp crossed.eq
  rfl

private theorem publishAll (exchanged : feed.Exchanged event event' feed') (more : List Event) :
    (feed.publishAll more).Exchanged event event' (feed'.publishAll more) where
  published := by
    simp only [Feed.publishAll, Array.toList_appendList]
    exact exchanged.published.append more
  received := exchanged.received
  closed := exchanged.closed

theorem swapped (feed : Feed) : ((feed.publishAll [event]).publishAll [event']).Exchanged event event'
    ((feed.publishAll [event']).publishAll [event]) where
  published := by
    simp only [Feed.publishAll, Array.toList_appendList, List.append_assoc]
    exact .swapped feed.published.toList []
  received := rfl
  closed := rfl

private theorem receive (exchanged : feed.Exchanged event event' feed') :
    (Command.receive : Command H D).Crosses event event' feed.receive.1 feed'.receive.1 ∧
      feed.receive.2.Exchanged event event' feed'.receive.2 := by
  have places := exchanged.published.place feed.received
  rw [Array.getElem?_toList, Array.getElem?_toList] at places
  simp only [Feed.receive, ← exchanged.received, ← exchanged.closed]
  have next : ({ feed with received := feed.received + 1 } : Feed).Exchanged event event'
      { feed' with received := feed.received + 1, closed := feed.closed } :=
    ⟨exchanged.published, rfl, rfl⟩
  rcases places with same | ⟨one, two⟩ | ⟨one, two⟩
  · rw [← same]
    cases feed.published[feed.received]? with
    | none => exact ⟨.same _, exchanged⟩
    | some oldest => exact ⟨.same _, next⟩
  · rw [one, two]
    exact ⟨.first, next⟩
  · rw [one, two]
    exact ⟨.second, next⟩

private theorem drain (exchanged : feed.Exchanged event event' feed') :
    (Command.drainEvents : Command H D).Crosses event event' feed.drain.1 feed'.drain.1 ∧
      feed.drain.2.Exchanged event event' feed'.drain.2 := by
  refine ⟨?_, exchanged.published, ?_, exchanged.closed⟩
  · simp only [Feed.drain, Feed.waiting, ← exchanged.received]
    rcases exchanged.published.drop feed.received with crossed | ⟨late, rest, rest'⟩
    · exact .both crossed
    · rw [rest, rest']
      exact .rest late
  · have length := exchanged.published.length
    simpa [Feed.drain] using length

end Feed.Exchanged

private theorem rel_publishAll {feed feed' : Option Feed}
    (feeds : Option.Rel (Feed.Exchanged event event') feed feed') (more : List Event) :
    Option.Rel (Feed.Exchanged event event') (feed.map (·.publishAll more))
      (feed'.map (·.publishAll more)) := by
  cases feeds with
  | none => exact .none
  | some exchanged => exact .some (exchanged.publishAll more)

/-- Two schedulers that cannot be told apart, but by the order of two events. -/
structure Twins (event event' : Event) (moment moment' : Moment H D) : Prop where
  valid : moment.Valid
  valid' : moment'.Valid
  paced : moment.Paced
  paced' : moment'.Paced
  reporting : moment.scheduler.reporting = moment'.scheduler.reporting
  shape : moment.scheduler.shape = moment'.scheduler.shape
  feeds : Option.Rel (Feed.Exchanged event event') moment.scheduler.feed moment'.scheduler.feed
  alike : Alike (· = ·) moment.scheduler moment'.scheduler

namespace Command

variable {given : Command H D} {first second : Scheduler H D}

private theorem matches_same (given : Command H D) :
    (∃ handler data, given = .add handler data) ∨ given.Matches (· = ·) given := by
  cases given with
  | add handler data => exact .inl ⟨handler, data, rfl⟩
  | start id delay periodic => exact .inr (.start rfl delay periodic)
  | stop id => exact .inr (.stop rfl)
  | rebind id handler => exact .inr (.rebind rfl handler)
  | setPeriod id period => exact .inr (.setPeriod rfl period)
  | modifyData id change => exact .inr (.modifyData rfl change)
  | remove id => exact .inr (.remove rfl)
  | reset => exact .inr .reset
  | takeReporter | receive | drainEvents => exact .inr (.feed rfl)

private theorem events_congr (tick : first.tick = second.tick)
    (replies : (first.perform given).1 = (second.perform given).1) :
    given.events first = given.events second := by
  cases given with
  | start id delay periodic =>
    have replies : (first.start id delay periodic).1 = (second.start id delay periodic).1 := replies
    simp only [events, replies, tick]
  | stop id =>
    have replies : (first.stop id).1 = (second.stop id).1 := replies
    simp only [events, replies]
  | _ => rfl

end Command

namespace Twins

variable {action action' : Action H D} {before after before' after' : Moment H D}

theorem step (twins : Twins event event' before before')
    (step : Transition action before after) (step' : Transition action' before' after')
    (shape : after.scheduler.shape = after'.scheduler.shape)
    (feeds : Option.Rel (Feed.Exchanged event event') after.scheduler.feed after'.scheduler.feed)
    (alike : Alike (· = ·) after.scheduler after'.scheduler) : Twins event event' after after' where
  valid := step.valid twins.valid
  valid' := step'.valid twins.valid'
  paced := step.paced twins.paced
  paced' := step'.paced twins.paced'
  reporting := step.configured.2.trans (twins.reporting.trans step'.configured.2.symm)
  shape := shape
  feeds := feeds
  alike := alike

/-- What two runs from the same configuration lead to. -/
theorem of_runs {config : Config} {steps steps' : List (Step H D)}
    (run : Run (.ofConfig config) steps after) (run' : Run (.ofConfig config) steps' after')
    (shape : after.scheduler.shape = after'.scheduler.shape)
    (feeds : Option.Rel (Feed.Exchanged event event') after.scheduler.feed after'.scheduler.feed)
    (alike : Alike (· = ·) after.scheduler after'.scheduler) : Twins event event' after after' where
  valid := run.valid
  valid' := run'.valid
  paced := run.preserves Transition.paced (.ofConfig config)
  paced' := run'.preserves Transition.paced (.ofConfig config)
  reporting := by
    have kept : ∀ {last : Moment H D} {steps : List (Step H D)}, Run (.ofConfig config) steps last →
        last.scheduler.reporting = config.reporting := fun run =>
      run.preserves (fun step same => step.configured.2.trans same) rfl
    rw [kept run, kept run']
  shape := shape
  feeds := feeds
  alike := alike

theorem tick (twins : Twins event event' before before') :
    before.scheduler.tick = before'.scheduler.tick := congrArg Prod.fst twins.alike.clock

private theorem ids (twins : Twins event event' before before') :
    before.scheduler.ids = before'.scheduler.ids := by
  rw [Scheduler.ids_shape, Scheduler.ids_shape, twins.shape]

private theorem summary (twins : Twins event event' before before') :
    before.scheduler.summary = before'.scheduler.summary := by
  obtain ⟨expiry, timer⟩ := twins.alike.next fun {arming _} _ => ⟨arming.timer, rfl⟩
  have timer : before.scheduler.nextTimer? = before'.scheduler.nextTimer? := by
    rcases rel_cases timer with ⟨nobody, nobody'⟩ | ⟨_, _, first, first', rfl⟩
    · rw [nobody, nobody']
    · rw [first, first']
  have sizes := congrArg Arena.size twins.shape
  have count : before.scheduler.timerCount = before'.scheduler.timerCount := sizes
  have armed : before.scheduler.isScheduled = before'.scheduler.isScheduled := by
    funext id
    rw [Scheduler.isScheduled, Scheduler.isScheduled, twins.alike.view? rfl]
  have scheduled : before.scheduler.scheduledCount = before'.scheduler.scheduledCount := by
    rw [Scheduler.scheduledCount_eq twins.valid.tied, Scheduler.scheduledCount_eq twins.valid'.tied,
      twins.ids, armed]
  simp only [Scheduler.summary, Scheduler.ticksUntilNext?, twins.tick, expiry, timer, count, scheduled]

theorem answer (twins : Twins event event' before before') (asked : Query) :
    before.scheduler.answer asked = before'.scheduler.answer asked := by
  cases asked with
  | summary => exact twins.summary
  | timers => exact twins.ids
  | timer id => exact twins.alike.view? rfl

section Steps

variable {place place' : Place} {scheduler scheduler' : Scheduler H D}

private theorem perform_feeds (twins : Twins event event' ⟨place, scheduler⟩ ⟨place', scheduler'⟩)
    {given : Command H D} (feeds : given.feeds = true) :
    given.Crosses event event' (scheduler.perform given).1 (scheduler'.perform given).1 ∧
      Option.Rel (Feed.Exchanged event event') (scheduler.perform given).2.feed
        (scheduler'.perform given).2.feed := by
  have reporting : scheduler.reporting = scheduler'.reporting := twins.reporting
  have both : Option.Rel (Feed.Exchanged event event') scheduler.feed scheduler'.feed := twins.feeds
  rcases rel_cases both with ⟨closed, closed'⟩ | ⟨feed, feed', opened, opened', exchanged⟩
  · cases given with
    | takeReporter =>
      simp only [Scheduler.perform, Scheduler.takeReporter, closed, closed', reporting]
      cases scheduler'.reporting with
      | false => exact ⟨.same _, both⟩
      | true => exact ⟨.same _, .some (.refl _)⟩
    | receive =>
      simp only [Scheduler.perform, Scheduler.receive, closed, closed']
      exact ⟨.same _, .none⟩
    | drainEvents =>
      simp only [Scheduler.perform, Scheduler.drainEvents, closed, closed']
      exact ⟨.same _, .none⟩
    | _ => cases feeds
  · cases given with
    | takeReporter =>
      simp only [Scheduler.perform, Scheduler.takeReporter, opened, opened', Option.isNone_some,
        Bool.and_false, Bool.false_eq_true, if_false]
      exact ⟨.same _, .some exchanged⟩
    | receive =>
      simp only [Scheduler.perform, Scheduler.receive, opened, opened']
      exact exchanged.receive.imp_right .some
    | drainEvents =>
      simp only [Scheduler.perform, Scheduler.drainEvents, opened, opened']
      exact exchanged.drain.imp_right .some
    | _ => cases feeds

theorem perform (twins : Twins event event' ⟨place, scheduler⟩ ⟨place', scheduler'⟩)
    (awake : place ≠ .between) (awake' : place' ≠ .between) (given : Command H D)
    (onward : scheduler.queue.nextTurn ≤ (scheduler.perform given).2.queue.nextTurn) :
    given.Crosses event event' (scheduler.perform given).1 (scheduler'.perform given).1 ∧
      Twins event event' ⟨place, (scheduler.perform given).2⟩
        ⟨place', (scheduler'.perform given).2⟩ := by
  obtain ⟨told, alike⟩ : given.told (fun id => id) (scheduler.perform given).1 =
      given.told (fun id => id) (scheduler'.perform given).1 ∧
      Alike (· = ·) (scheduler.perform given).2 (scheduler'.perform given).2 := by
    rcases given.matches_same with ⟨handler, data, rfl⟩ | same
    · have issued := Scheduler.add_id twins.shape handler data
      refine ⟨congrArg Told.added issued, twins.alike.adds handler data ?_⟩
      rintro id _ rfl
      rw [← issued]
    · exact twins.alike.perform same id onward
  have shape : (scheduler.perform given).2.shape = (scheduler'.perform given).2.shape := by
    rw [Scheduler.shape_perform, Scheduler.shape_perform]
    exact Scheduler.reshaped_congr twins.shape told
  obtain ⟨replies, feeds⟩ : given.Crosses event event' (scheduler.perform given).1
      (scheduler'.perform given).1 ∧ Option.Rel (Feed.Exchanged event event')
        (scheduler.perform given).2.feed (scheduler'.perform given).2.feed := by
    cases plain : given.feeds with
    | true => exact twins.perform_feeds plain
    | false =>
      have replies := Command.told_injective plain told
      rw [Scheduler.feed_perform scheduler plain, Scheduler.feed_perform scheduler' plain,
        Command.events_congr twins.tick replies, replies]
      exact ⟨.same _, rel_publishAll twins.feeds _⟩
  exact ⟨replies, twins.step (.command given awake) (.command given awake') shape feeds alike⟩

theorem begins (twins : Twins event event' ⟨.outside, scheduler⟩ ⟨.outside, scheduler'⟩) :
    (∃ error, scheduler.beginAdvance = .error error ∧ scheduler'.beginAdvance = .error error) ∨
      ∃ begun begun', scheduler.beginAdvance = .ok begun ∧ scheduler'.beginAdvance = .ok begun' ∧
        Twins event event' ⟨.between, begun⟩ ⟨.between, begun'⟩ := by
  rcases twins.alike.begins with refused | ⟨begun, begun', begins, begins', alike⟩
  · exact .inl refused
  · obtain ⟨_, _, _, rfl⟩ := Scheduler.beginAdvance_eq begins
    obtain ⟨_, _, _, rfl⟩ := Scheduler.beginAdvance_eq begins'
    exact .inr ⟨_, _, begins, begins', twins.step (.beginAdvance begins) (.beginAdvance begins')
      twins.shape twins.feeds alike⟩

theorem ends (twins : Twins event event' ⟨.between, scheduler⟩ ⟨.between, scheduler'⟩)
    (finished : scheduler.popDue? = none) (finished' : scheduler'.popDue? = none) :
    Twins event event' ⟨.outside, scheduler.endAdvance⟩ ⟨.outside, scheduler'.endAdvance⟩ :=
  twins.step (.endAdvance finished) (.endAdvance finished') twins.shape twins.feeds twins.alike.ends

theorem dispatches (twins : Twins event event' ⟨.between, scheduler⟩ ⟨.between, scheduler'⟩) :
    (scheduler.popDue? = none ∧ scheduler'.popDue? = none) ∨
      ∃ arming turn turn' popped popped' given lent lent',
        scheduler.popDue? = some (arming, turn, popped) ∧
        scheduler'.popDue? = some (arming, turn', popped') ∧
        popped.lend arming.timer = (some given, lent) ∧
        popped'.lend arming.timer = (some given, lent') ∧
        Twins event event' ⟨.inside ⟨arming.timer, lent.tick, arming.expiry, turn⟩, lent⟩
          ⟨.inside ⟨arming.timer, lent'.tick, arming.expiry, turn'⟩, lent'⟩ := by
  cases due : scheduler.popDue? with
  | none => exact .inl ⟨rfl, twins.alike.finished twins.valid' due⟩
  | some taken =>
    obtain ⟨arming, turn, popped⟩ := taken
    obtain ⟨timer, given, lent, lends, _⟩ := twins.valid.dispatches due
    obtain ⟨turn', popped', lent', due', lends', alike⟩ :=
      twins.alike.dispatches twins.valid due twins.valid' rfl lends
    have dispatches := Transition.dispatch due lends
    have dispatches' := Transition.dispatch due' lends'
    have feed := popped.feed_lend arming.timer
    rw [lends, Scheduler.feed_popDue? due] at feed
    have feed' := popped'.feed_lend arming.timer
    rw [lends', Scheduler.feed_popDue? due'] at feed'
    refine .inr ⟨arming, turn, turn', popped, popped', given, lent, lent', rfl, due', lends, lends',
      twins.step dispatches dispatches'
        (dispatches.shape.trans (twins.shape.trans dispatches'.shape.symm)) ?_ alike⟩
    rw [feed, feed']
    exact twins.feeds

theorem settles {firing firing' : Firing}
    (twins : Twins event event' ⟨.inside firing, scheduler⟩ ⟨.inside firing', scheduler'⟩)
    (timer : firing.timer = firing'.timer) (tick : firing.tick = firing'.tick) (handler : H)
    (data : D)
    (onward : scheduler.queue.nextTurn ≤
      (scheduler.settle firing.timer firing.tick handler data).queue.nextTurn) :
    Twins event event' ⟨.between, scheduler.settle firing.timer firing.tick handler data⟩
      ⟨.between, scheduler'.settle firing'.timer firing'.tick handler data⟩ := by
  have ends : Transition (.settle handler data) ⟨.inside firing, scheduler⟩ _ :=
    .settle handler data
  have ends' : Transition (.settle handler data) ⟨.inside firing', scheduler'⟩ _ :=
    .settle handler data
  refine twins.step ends ends' (ends.shape.trans (twins.shape.trans ends'.shape.symm)) ?_
    (twins.alike.settles timer firing.tick firing'.tick handler data onward)
  have again : ∀ any : Scheduler H D, (any.timer? firing.timer).bind Timer.again? =
      (any.bare? firing.timer).bind Timer.again? := by
    intro any
    rw [Scheduler.bare?, Option.bind_map]
    rfl
  have told : settleEvents firing.timer firing.tick (scheduler.timer? firing.timer) =
      settleEvents firing'.timer firing'.tick (scheduler'.timer? firing'.timer) := by
    rw [← timer, ← tick, settleEvents, settleEvents, again, again, twins.alike.records rfl]
  rw [Scheduler.feed_settle, Scheduler.feed_settle, told]
  exact rel_publishAll twins.feeds _

end Steps

end Twins

end Timers
