import Timers.Proofs.Halting
import Timers.Proofs.Published

/-! The events tell the schedule. Read one after another they say of every timer when it is due.
That a timer has fired is published after its handler has run, and a start from inside the handler
before that; for a moment the events then hide an arming that is due at once. But such an arming
fires in the same advance, so outside of advances nothing is hidden. -/

namespace Timers

variable {H D W α : Type}

/-- When a timer is due after an event, given what was known before it. -/
def Event.retell (id : TimerId) (pending : Option Tick) : Event → Option Tick
  | .started timer expiry | .rearmed timer expiry => if timer = id then some expiry else pending
  | .stopped timer => if timer = id then none else pending
  | .fired timer tick => if timer = id then pending.filter (tick < ·) else pending

def replay (id : TimerId) (events : List Event) : Option Tick :=
  events.foldl (Event.retell id) none

/-- Whether a step opens the feed. -/
def Step.opensFeed (step : Step H D) : Bool :=
  match step.action with
  | .command .takeReporter => step.before.scheduler.takeReporter.1
  | _ => false

variable {id : TimerId} {pending : Option Tick} {events more : List Event}

private theorem Event.retell_of_ne {event : Event} (apart : event.timer ≠ id) :
    event.retell id pending = pending := by
  cases event <;> simp_all [retell, Event.timer]

private theorem replay_append (id : TimerId) (events more : List Event) :
    replay id (events ++ more) = more.foldl (Event.retell id) (replay id events) :=
  List.foldl_append

private theorem retell_all_of_ne (apart : ∀ event ∈ more, event.timer ≠ id) :
    more.foldl (Event.retell id) pending = pending := by
  induction more with
  | nil => rfl
  | cons event rest ih =>
    obtain ⟨now, later⟩ := List.forall_mem_cons.mp apart
    rw [List.foldl_cons, Event.retell_of_ne now, ih later]

/-- What events tell of a timer's record. -/
inductive Tells (id : TimerId) (timer later : Timer H D) : List Event → Prop where
  | nothing {told : List Event} (silent : ∀ event ∈ told, event.timer ≠ id)
      (node : later.node.isSome = timer.node.isSome) (expiry : later.expiry = timer.expiry) :
      Tells id timer later told
  | started (node : later.node.isSome) : Tells id timer later [.started id later.expiry]
  | stopped (node : later.node = none) : Tells id timer later [.stopped id]

namespace Scheduler

variable {scheduler before after : Scheduler H D} {timer later : Timer H D} {given : Command H D}

private theorem registered_of_events {event : Event} (published : event ∈ given.events scheduler) :
    given.rewrites? = some event.timer ∧ ∃ timer, scheduler.timer? event.timer = some timer := by
  cases given with
  | start other delay periodic =>
    cases present : scheduler.timer? other with
    | none => simp [Command.events, start_of_absent present] at published
    | some timer =>
      simp only [Command.events] at published
      split at published
      · cases List.mem_singleton.mp published
        exact ⟨rfl, timer, present⟩
      · cases published
  | stop other =>
    cases present : scheduler.timer? other with
    | none => simp [Command.events, stop_of_absent present] at published
    | some timer =>
      simp only [Command.events] at published
      split at published
      · cases List.mem_singleton.mp published
        exact ⟨rfl, timer, present⟩
      · cases published
  | add | remove | rebind | setPeriod | modifyData | reset | takeReporter | receive
  | drainEvents => cases published

private theorem rewrites_tells (tied : scheduler.Tied) (found : scheduler.timer? id = some timer)
    (rewrites : given.Rewrites scheduler.tick timer id later) :
    Tells id timer later (given.events scheduler) := by
  cases rewrites with
  | start _ delay periodic =>
    obtain ⟨after, node, started, _⟩ := start_starts tied found delay periodic
    simp only [Command.events, started, isOk_ok, if_true]
    exact .started rfl
  | stop =>
    obtain ⟨after, stopped, _⟩ := stop_stops tied found
    simp only [Command.events, stopped, isOk_ok, if_true]
    exact .stopped rfl
  | rebind | setPeriod | modifyData => exact .nothing (by simp [Command.events]) rfl rfl

private theorem perform_tells (tied : before.Tied) (revised : Revised before after given)
    (found : after.timer? id = some later) :
    ¬ before.Accounts id ∧ later.node = none ∧ given.events before = [] ∨
      ∃ timer, before.timer? id = some timer ∧ Tells id timer later (given.events before) := by
  have still : given.rewrites? ≠ some id → before.timer? id = some later →
      ∃ timer, before.timer? id = some timer ∧ Tells id timer later (given.events before) := by
    intro elsewhere found
    refine ⟨later, found, .nothing (fun event published same => elsewhere ?_) rfl rfl⟩
    rw [← same]
    exact (registered_of_events published).1
  cases revised with
  | @entered handler data _ timers =>
    rw [timers] at found
    split at found
    next same =>
      cases found
      exact .inl ⟨same ▸ before.add_fresh handler data, rfl, rfl⟩
    next => exact .inr (still (by simp [Command.rewrites?]) found)
  | rewritten present rewrites timers =>
    refine .inr ?_
    rw [timers] at found
    split at found
    next same =>
      subst same
      cases found
      exact ⟨_, present, rewrites_tells tied present rewrites⟩
    next apart =>
      refine still (fun names => apart ?_) found
      exact Option.some.inj (names.symm.trans rewrites.names)
  | missing names absent same =>
    subst same
    refine .inr (still (fun named => ?_) found)
    obtain rfl := Option.some.inj (names.symm.trans named)
    rw [absent] at found
    cases found
  | thinned thins timers =>
    rw [timers] at found
    split at found
    · cases found
    · refine .inr (still ?_ found)
      cases given with
      | remove | reset => simp [Command.rewrites?]
      | _ => cases thins
  | fed feeds same =>
    rw [timer?, same] at found
    refine .inr (still ?_ found)
    cases given with
    | takeReporter | receive | drainEvents => simp [Command.rewrites?]
    | _ => cases feeds

private theorem tick_perform (given : Command H D)
    (found : (scheduler.perform given).2.timer? id = some later) :
    (scheduler.perform given).2.tick = scheduler.tick := by
  have clock := scheduler.clock_perform given
  cases given with
  | reset =>
    rw [perform, timer?_reset] at found
    cases found
  | _ => exact congrArg Prod.fst clock

end Scheduler

variable {action : Action H D} {before after first last : Moment H D} {steps : List (Step H D)}
  {timer later : Timer H D} {lent : Scheduler H D}

/-- When a timer is due according to the events, and what its record says. The end of its handler
is not yet told while the handler runs; and until the advance ends, the timer can be due at
once without the events telling. -/
def Moment.Agrees (moment : Moment H D) (id : TimerId) (timer : Timer H D) : Option Tick → Prop
  | some expiry =>
    timer.node.isSome ∧ timer.expiry = expiry ∨
      timer.node = none ∧
        ∃ firing, moment.place = .inside firing ∧ firing.timer = id ∧ expiry ≤ firing.tick
  | none =>
    timer.node.isSome → moment.place ≠ .outside ∧ timer.expiry ≤ moment.scheduler.tick

/-- These are the events that have been published, and they agree with the records. -/
structure Moment.Retold (moment : Moment H D) (events : List Event) : Prop where
  published : moment.scheduler.Published events
  issued : ∀ event ∈ events, moment.scheduler.Accounts event.timer
  agrees : ∀ id timer, moment.scheduler.timer? id = some timer →
    moment.Agrees id timer (replay id events)
  clock : ∀ firing timer, moment.place = .inside firing →
    moment.scheduler.timer? firing.timer = some timer → moment.scheduler.tick = firing.tick

private theorem replay_of_absent (absent : ∀ event ∈ events, event.timer ≠ id) :
    replay id events = none :=
  retell_all_of_ne absent

/-- Whatever else is known of a timer that is due, nothing is overdue outside of advances. -/
private theorem Moment.Agrees.congr {moment other : Moment H D}
    (agrees : moment.Agrees id timer pending)
    (place : other.place = moment.place) (tick : other.scheduler.tick = moment.scheduler.tick)
    (node : later.node.isSome = timer.node.isSome) (expiry : later.expiry = timer.expiry) :
    other.Agrees id later pending := by
  have gone : later.node = none ↔ timer.node = none := by
    rw [← Option.isNone_iff_eq_none, ← Option.isNone_iff_eq_none, ← Option.not_isSome, node,
      Option.not_isSome]
  cases pending <;> simpa only [Agrees, place, tick, node, expiry, gone] using agrees

private theorem Moment.Agrees.known {moment : Moment H D} {expiry : Tick}
    (agrees : moment.Agrees id timer (some expiry)) (awake : moment.place.running? = none) :
    timer.node.isSome ∧ timer.expiry = expiry := by
  rcases agrees with known | ⟨_, firing, inside, _⟩
  · exact known
  · rw [inside] at awake
    cases awake

/-- What is known of a timer holds on as long as the advance does, if its own handler has not
been running. -/
private theorem Moment.Agrees.move {moment other : Moment H D}
    (agrees : moment.Agrees id timer pending)
    (apart : ∀ firing, moment.place = .inside firing → firing.timer ≠ id)
    (advancing : other.place ≠ .outside)
    (tick : moment.scheduler.tick ≤ other.scheduler.tick) : other.Agrees id timer pending := by
  cases pending with
  | none => exact fun armed => ⟨advancing, UInt64.le_trans (agrees armed).2 tick⟩
  | some expiry =>
    rcases agrees with known | ⟨_, firing, inside, same, _⟩
    · exact .inl known
    · exact absurd same (apart firing inside)

namespace Transition

private theorem retold_command {place : Place} {scheduler : Scheduler H D} (given : Command H D)
    (valid : (⟨place, scheduler⟩ : Moment H D).Valid)
    (loans : (⟨place, scheduler⟩ : Moment H D).Lends)
    (retold : (⟨place, scheduler⟩ : Moment H D).Retold events)
    (accounts : ∀ id, scheduler.Accounts id → (scheduler.perform given).2.Accounts id) :
    (⟨place, (scheduler.perform given).2⟩ : Moment H D).Retold
      (events ++ given.events scheduler) where
  published := Scheduler.perform_publishes retold.published given
  issued := by
    intro event member
    apply accounts
    rcases List.mem_append.mp member with old | new
    · exact retold.issued event old
    · exact (.inl (Scheduler.registered_of_events new).2)
  agrees := by
    intro id later found
    have tick := Scheduler.tick_perform given found
    rcases Scheduler.perform_tells valid.tied (Scheduler.perform_revises valid.tied given) found with
      ⟨fresh, node, silent⟩ | ⟨timer, present, tells⟩
    · have unheard : replay id (events ++ given.events scheduler) = none := by
        rw [silent, List.append_nil]
        exact replay_of_absent fun event member same => fresh (same ▸ retold.issued event member)
      rw [unheard]
      simp [Moment.Agrees, node]
    · rw [replay_append]
      have agrees := retold.agrees id timer present
      generalize given.events scheduler = told at tells
      cases tells with
      | nothing silent node expiry =>
        rw [retell_all_of_ne silent]
        exact agrees.congr rfl tick node expiry
      | started node => simp [Event.retell, Moment.Agrees, node]
      | stopped node => simp [Event.retell, Moment.Agrees, node]
  clock := by
    intro firing later inside found
    rw [Scheduler.tick_perform given found]
    rcases Scheduler.perform_tells valid.tied (Scheduler.perform_revises valid.tied given) found with
      ⟨fresh, _⟩ | ⟨timer, present, _⟩
    · exact absurd (loans.accounts inside) fresh
    · exact retold.clock firing timer inside present

/-- While its handler has not ended, what the events say of a timer is when it was due. -/
private theorem retold_dispatch {scheduler popped lent : Scheduler H D} {arming : Arming}
    {turn : UInt64} {given : H × D} (due : scheduler.popDue? = some (arming, turn, popped))
    (taken : popped.lend arming.timer = (some given, lent))
    (valid : (⟨.between, scheduler⟩ : Moment H D).Valid)
    (retold : (⟨.between, scheduler⟩ : Moment H D).Retold events)
    (accounts : ∀ id, scheduler.Accounts id → lent.Accounts id) :
    (⟨.inside ⟨arming.timer, lent.tick, arming.expiry, turn⟩, lent⟩ : Moment H D).Retold events := by
  have clock := popped.clock_lend arming.timer
  rw [taken, Scheduler.clock_popDue? due] at clock
  have tick : lent.tick = scheduler.tick := congrArg Prod.fst clock
  have feed := popped.feed_lend arming.timer
  rw [taken, Scheduler.feed_popDue? due] at feed
  obtain ⟨timer, takes⟩ := valid.dispatch_takes due taken
  refine ⟨retold.published.congr feed, fun event member => accounts _ (retold.issued event member),
    ?_, ?_⟩
  · intro id later found
    rw [takes.timers] at found
    split at found
    next same =>
      cases found
      have agrees := retold.agrees id timer (same ▸ takes.found)
      generalize replay id events = pending at agrees
      cases pending with
      | none => simp [Moment.Agrees, Timer.lentOut]
      | some expiry =>
        obtain ⟨_, due⟩ := agrees.known rfl
        refine .inr ⟨rfl, _, rfl, same.symm, ?_⟩
        rw [← due, takes.expiry, tick]
        exact takes.due
    next apart =>
      exact (retold.agrees id later found).move (by simp) (by simp) (UInt64.le_of_eq tick.symm)
  · intro firing timer inside _
    cases inside
    rfl

private theorem timer_of_settleEvents {tick : Tick} {timer : Option (Timer H D)} {event : Event}
    (told : event ∈ settleEvents id tick timer) : event.timer = id := by
  rcases List.mem_cons.mp told with rfl | again
  · rfl
  · obtain ⟨expiry, _, rfl⟩ := Option.map_eq_some_iff.mp (Option.mem_toList.mp again)
    rfl

private theorem agrees_settled {scheduler : Scheduler H D} {firing : Firing} {handler : H}
    {data : D} {whole : Option H} {put : Option D}
    (agrees : (⟨.inside firing, scheduler⟩ : Moment H D).Agrees firing.timer timer pending)
    (clock : scheduler.tick = firing.tick) (ended : Scheduler.Ended timer whole put later) :
    (⟨.between, scheduler.settle firing.timer firing.tick handler data⟩ : Moment H D).Agrees
      firing.timer later
      ((settleEvents firing.timer firing.tick (some timer)).foldl (Event.retell firing.timer)
        pending) := by
  have tick : (scheduler.settle firing.timer firing.tick handler data).tick = scheduler.tick :=
    congrArg Prod.fst (scheduler.clock_settle firing.timer firing.tick handler data)
  have node := ended.node
  have expiry := ended.expiry
  cases again : timer.again? with
  | some due =>
    rw [again] at node expiry
    simp only [settleEvents, Option.bind_some, again, Option.map_some, Option.toList_some,
      List.foldl_cons, List.foldl_nil, Event.retell, if_true]
    exact .inl ⟨by simpa using node, expiry⟩
  | none =>
    rw [again] at node expiry
    simp only [Option.getD_none, Option.isSome_none, Bool.or_false] at node expiry
    simp only [settleEvents, Option.bind_some, again, Option.map_none, Option.toList_none,
      List.foldl_cons, List.foldl_nil, Event.retell, if_true]
    cases pending with
    | none =>
      intro armed
      rw [expiry, tick]
      exact ⟨by simp, (agrees (node ▸ armed)).2⟩
    | some known =>
      by_cases ahead : firing.tick < known
      · rcases agrees with ⟨armed, same⟩ | ⟨_, _, ⟨⟩, _, past⟩
        · simp only [Option.filter_some, ahead, decide_true, if_true]
          exact .inl ⟨node.trans armed, expiry.trans same⟩
        · exact absurd ahead (UInt64.not_lt.mpr past)
      · simp only [Option.filter_some, ahead, decide_false, Bool.false_eq_true, if_false]
        intro armed
        rcases agrees with ⟨_, same⟩ | ⟨gone, _⟩
        · rw [expiry, tick, same, clock]
          exact ⟨by simp, UInt64.not_lt.mp ahead⟩
        · rw [node, gone] at armed
          cases armed

private theorem retold_settle {scheduler : Scheduler H D} {firing : Firing} (handler : H) (data : D)
    (loans : (⟨.inside firing, scheduler⟩ : Moment H D).Lends)
    (retold : (⟨.inside firing, scheduler⟩ : Moment H D).Retold events)
    (accounts : ∀ id, scheduler.Accounts id →
      (scheduler.settle firing.timer firing.tick handler data).Accounts id) :
    (⟨.between, scheduler.settle firing.timer firing.tick handler data⟩ : Moment H D).Retold
      (events ++ settleEvents firing.timer firing.tick (scheduler.timer? firing.timer)) where
  published := Scheduler.settle_publishes retold.published firing.tick handler data
  issued := by
    intro event member
    apply accounts
    rcases List.mem_append.mp member with old | new
    · exact retold.issued event old
    · rw [timer_of_settleEvents new]
      exact loans.accounts rfl
  agrees := by
    intro id later found
    rw [replay_append]
    by_cases same : id = firing.timer
    · subst same
      have registered := scheduler.timer?_settle_isSome firing.timer firing.timer firing.tick
        handler data
      rw [found] at registered
      obtain ⟨timer, present⟩ := Option.isSome_iff_exists.mp registered.symm
      obtain ⟨ended, ends, timers⟩ := Scheduler.settle_ends present firing.tick handler data
      rw [timers, if_pos rfl] at found
      cases found
      rw [present]
      exact agrees_settled (retold.agrees _ timer present)
        (retold.clock firing timer rfl present) ends
    · rw [Scheduler.timer?_settle_of_ne same] at found
      rw [retell_all_of_ne fun event told => timer_of_settleEvents told ▸ Ne.symm same]
      have clock := scheduler.clock_settle firing.timer firing.tick handler data
      refine (retold.agrees id later found).move ?_ (by simp)
        (UInt64.le_of_eq (congrArg Prod.fst clock).symm)
      intro other inside
      cases inside
      exact Ne.symm same
  clock := by
    intro _ _ inside
    cases inside

private theorem retold_endAdvance {scheduler : Scheduler H D} (finished : scheduler.popDue? = none)
    (valid : (⟨.between, scheduler⟩ : Moment H D).Valid)
    (retold : (⟨.between, scheduler⟩ : Moment H D).Retold events) :
    (⟨.outside, scheduler.endAdvance⟩ : Moment H D).Retold events where
  published := retold.published.congr rfl
  issued := retold.issued
  agrees := by
    intro id timer found
    have found : scheduler.timer? id = some timer := found
    have agrees := retold.agrees id timer found
    generalize replay id events = pending at agrees
    cases pending with
    | none =>
      intro armed
      obtain ⟨turn, queued⟩ := valid.tied.queued found armed
      have ahead := valid.tied.popDue?_none finished queued
      exact absurd ahead (UInt64.not_lt.mpr (agrees armed).2)
    | some expiry => exact .inl (agrees.known rfl)
  clock := by
    intro _ _ inside
    cases inside

theorem retold (step : Transition action before after) (valid : before.Valid)
    (loans : before.Lends) (unwrapped : Step.Unwrapped ⟨before, action, after⟩)
    (retold : before.Retold events) : ∃ more, after.Retold (events ++ more) := by
  have accounts : ∀ id, before.scheduler.Accounts id → after.scheduler.Accounts id :=
    fun id known => step.accounts valid known (unwrapped _)
  cases step with
  | command given awake => exact ⟨_, retold_command given valid loans retold accounts⟩
  | @beginAdvance scheduler begun begins =>
    obtain ⟨_, tick, next, rfl⟩ := Scheduler.beginAdvance_eq begins
    have forward : scheduler.tick ≤ tick := by
      rw [UInt64.le_iff_toNat_le, Tick.toNat_of_next? next]
      omega
    refine ⟨[], ?_⟩
    rw [List.append_nil]
    refine ⟨retold.published.congr rfl, retold.issued, fun id timer found => ?_, by simp⟩
    exact (retold.agrees id timer found).move (by simp) (by simp) forward
  | dispatch due taken =>
    refine ⟨[], ?_⟩
    rw [List.append_nil]
    exact retold_dispatch due taken valid retold accounts
  | skip due refused => exact absurd refused (valid.not_skipped due)
  | settle handler data => exact ⟨_, retold_settle handler data loans retold accounts⟩
  | endAdvance finished =>
    refine ⟨[], ?_⟩
    rw [List.append_nil]
    exact retold_endAdvance finished valid retold

end Transition

theorem Run.retold (run : Run first steps last) (valid : first.Valid) (loans : first.Lends)
    (unwrapped : ∀ step ∈ steps, step.Unwrapped) (retold : first.Retold events) :
    ∃ more, last.Retold (events ++ more) := by
  induction run generalizing events with
  | nil => exact ⟨[], by simpa using retold⟩
  | cons step _ ih =>
    obtain ⟨now, later⟩ := List.forall_mem_cons.mp unwrapped
    obtain ⟨told, retold⟩ := step.retold valid loans now retold
    obtain ⟨more, retold⟩ := ih (step.valid valid) (step.lends valid loans now) later retold
    exact ⟨told ++ more, by simpa using retold⟩

/-- Nothing is on the schedule and no handler is running. -/
structure Moment.Still (moment : Moment H D) : Prop where
  halted : ∀ id, moment.Halted id
  awake : ∀ firing, moment.place ≠ .inside firing

private theorem Moment.Still.ofConfig (config : Config) :
    (Moment.ofConfig config : Moment H D).Still where
  halted := by
    intro id
    constructor
    · intro arming turn _ queued
      obtain ⟨key, held⟩ := queued
      obtain ⟨timer, found, _⟩ := (Moment.Valid.ofConfig config).tied.entry held
      rw [Moment.ofConfig, Scheduler.timer?_ofConfig] at found
      cases found
    · intro timer found
      rw [Moment.ofConfig, Scheduler.timer?_ofConfig] at found
      cases found
  awake := by simp [Moment.ofConfig]

private theorem Transition.still (step : Transition action before after) (valid : before.Valid)
    (still : before.Still) (idle : ∀ id, Step.starts ⟨before, action, after⟩ id = false) :
    after.Still where
  halted := fun id => step.halted valid (still.halted id) (idle id)
  awake := by
    intro firing inside
    rcases step.inside_cases inside with fired | ⟨already, _⟩
    · have silent := step.silent valid (still.halted firing.timer)
      rw [Step.fires_iff.mpr ⟨firing, fired, rfl⟩] at silent
      cases silent
    · exact still.awake firing already

private theorem Run.still (run : Run first steps last) (valid : first.Valid) (still : first.Still)
    (idle : ∀ step ∈ steps, ∀ id, step.starts id = false) : last.Still :=
  run.keeps_valid (fun step valid now still => step.still valid still now) valid idle still

private theorem Moment.Still.retold {moment : Moment H D} (still : moment.Still)
    (valid : moment.Valid) (opened : moment.scheduler.Published []) : moment.Retold [] where
  published := opened
  issued := by simp
  agrees := by
    intro id timer found armed
    obtain ⟨turn, queued⟩ := valid.tied.queued found armed
    exact absurd queued ((still.halted id).unqueued _ turn rfl)
  clock := fun firing _ inside => absurd inside (still.awake firing)

theorem Transition.opens (step : Transition action before after)
    (opens : Step.opensFeed ⟨before, action, after⟩ = true) :
    after.scheduler.feed = some {} ∧ ∀ id, Step.starts ⟨before, action, after⟩ id = false := by
  cases step with
  | @command place scheduler given awake =>
    cases given with
    | takeReporter =>
      have opens : scheduler.takeReporter.1 = true := opens
      simp only [Scheduler.takeReporter] at opens
      split at opens
      next free =>
        refine ⟨by simp [Scheduler.perform, Scheduler.takeReporter, free], ?_⟩
        simp [Step.starts, Command.starts?]
      next => cases opens
    | _ => cases opens
  | beginAdvance | dispatch | skip | settle | endAdvance => cases opens

private theorem Run.determined {config : Config} {scheduler : Scheduler H D}
    {earlier later : List (Step H D)} {opening : Step H D}
    (run : Run (.ofConfig config) (earlier ++ opening :: later) ⟨.outside, scheduler⟩)
    (unstarted : ∀ step ∈ earlier, ∀ id, step.starts id = false)
    (opens : opening.opensFeed = true)
    (unwrapped : ∀ step ∈ earlier ++ opening :: later, step.Unwrapped) :
    ∃ feed, scheduler.feed = some feed ∧ ∀ id, (scheduler.timer? id).isSome →
      replay id feed.published.toList =
        if scheduler.isScheduled id then scheduler.expiry? id else none := by
  obtain ⟨before, prior, run⟩ := run.split
  obtain ⟨past, onward⟩ := List.forall_mem_append.mp unwrapped
  obtain ⟨now, future⟩ := List.forall_mem_cons.mp onward
  have valid := prior.valid
  have loans := prior.lends (.ofConfig config) (.ofConfig config) past
  have still := prior.still (.ofConfig config) (.ofConfig config) unstarted
  cases run with
  | cons step run =>
    obtain ⟨opened, idle⟩ := step.opens opens
    have retold := (step.still valid still idle).retold (step.valid valid) ⟨{}, opened, rfl⟩
    obtain ⟨events, retold⟩ :=
      run.retold (step.valid valid) (step.lends valid loans now) future retold
    obtain ⟨feed, found, published⟩ := retold.published
    refine ⟨feed, found, fun id registered => ?_⟩
    obtain ⟨timer, present⟩ := Option.isSome_iff_exists.mp registered
    have agrees := retold.agrees id timer present
    rw [published, Scheduler.isScheduled_eq, present]
    generalize replay id ([] ++ events) = pending at agrees
    cases pending with
    | none =>
      rw [if_neg]
      exact fun armed => (agrees armed).1 rfl
    | some expiry =>
      obtain ⟨armed, due⟩ := agrees.known rfl
      simp [Scheduler.expiry?, Scheduler.view?, present, armed, due]

/-- If a program opens the feed before it starts anything, then where it ends the events tell of every
registered timer whether it is scheduled and when it is due. -/
theorem System.events_determine {config : Config} {shared : W} {react : Reaction H D W} {fuel : Nat}
    {program : Program H D W α} {value : α} {final : System H D W} {earlier later : List (Step H D)}
    {opening : Step H D}
    (made : System.steps ⟨.ofConfig config, shared⟩ react fuel program =
      earlier ++ opening :: later)
    (unstarted : ∀ step ∈ earlier, ∀ id, step.starts id = false)
    (opens : opening.opensFeed = true)
    (unwrapped : ∀ step ∈ earlier ++ opening :: later, step.Unwrapped)
    (finished : System.run ⟨.ofConfig config, shared⟩ react fuel program = some (value, final)) :
    ∃ feed, final.scheduler.feed = some feed ∧ ∀ id, (final.scheduler.timer? id).isSome →
      replay id feed.published.toList =
        if final.scheduler.isScheduled id then final.scheduler.expiry? id else none := by
  have run := System.steps_lead finished
  rw [made] at run
  exact run.determined unstarted opens unwrapped

/-- If the feed is opened before anything is started, then outside of advances the events tell of
every registered timer whether it is scheduled and when it is due. -/
theorem events_determine_schedule {config : Config} {scheduler : Scheduler H D}
    {earlier later : List (Step H D)} {opening : Step H D}
    (run : Run (.ofConfig config) (earlier ++ opening :: later) ⟨.outside, scheduler⟩)
    (unstarted : ∀ step ∈ earlier, ∀ id, step.starts id = false)
    (opens : opening.opensFeed = true)
    (unwrapped : ∀ step ∈ earlier ++ opening :: later, step.Unwrapped) :
    ∃ feed, scheduler.feed = some feed ∧ ∀ id, (scheduler.timer? id).isSome →
      replay id feed.published.toList =
        if scheduler.isScheduled id then scheduler.expiry? id else none :=
  run.determined unstarted opens unwrapped

/-- A timer starts itself anew while its handler runs. The event that it has fired comes after
that start and leaves it standing. -/
theorem events_determine_schedule_restarted :
    ∃ (later : List (Step Nat Nat)) (scheduler : Scheduler Nat Nat) (feed : Feed),
      Run ⟨.outside, ((Scheduler.ofConfig { reporting := true }).perform (.add 7 5)).2⟩ later
        ⟨.outside, scheduler⟩ ∧
      scheduler.feed = some feed ∧ feed.published.toList =
        [.started ⟨⟨0, 0⟩⟩ 1, .started ⟨⟨0, 0⟩⟩ 3, .fired ⟨⟨0, 0⟩⟩ 1] ∧
      replay ⟨⟨0, 0⟩⟩ feed.published.toList = some 3 := by
  let id : TimerId := ⟨⟨0, 0⟩⟩
  let added : Scheduler Nat Nat :=
    ((Scheduler.ofConfig { reporting := true }).perform (.add 7 5)).2
  let opened : Scheduler Nat Nat := (added.perform .takeReporter).2
  have told : ((⟨.outside, opened⟩ : Moment Nat Nat).run?
      [.command (.start id 1 false), .beginAdvance, .dispatch, .command (.start id 2 false),
        .settle 7 5, .endAdvance]).map (fun made =>
      (made.1.length, made.2.place, (made.2.scheduler.feed.getD {}).published.toList,
        made.2.scheduler.isScheduled id, made.2.scheduler.expiry? id)) =
      some (6, .outside, [.started id 1, .started id 3, .fired id 1], true, some 3) := by
    decide +kernel
  obtain ⟨⟨later, place, scheduler⟩, made, same⟩ := Option.map_eq_some_iff.mp told
  obtain ⟨length, rfl, events, scheduled, expiry⟩ :
      later.length = 6 ∧ place = .outside ∧
        (scheduler.feed.getD {}).published.toList =
          [.started id 1, .started id 3, .fired id 1] ∧
        scheduler.isScheduled id = true ∧ scheduler.expiry? id = some 3 := by simpa using same
  have registered : (scheduler.timer? id).isSome := by
    rw [Scheduler.isScheduled_eq, Option.any_eq_true] at scheduled
    obtain ⟨timer, present, _⟩ := scheduled
    simp [present]
  have opening : Transition (.command .takeReporter) ⟨.outside, added⟩ ⟨.outside, opened⟩ :=
    .command _ (by simp)
  have onward := Moment.run_of_run? made
  have run : Run (.ofConfig { reporting := true })
      ([⟨_, .command (.add 7 5), _⟩] ++ ⟨_, _, _⟩ :: later) ⟨.outside, scheduler⟩ :=
    .cons (.command (.add 7 5) (by simp)) (.cons opening onward)
  have unwrapped := run.unwrapped_of_short (by simp [length]; decide)
  obtain ⟨feed, found, tells⟩ :=
    events_determine_schedule run (by simp [Step.starts, Command.starts?]) rfl unwrapped
  rw [found, Option.getD_some] at events
  refine ⟨_, scheduler, feed, .cons opening onward, found, events, ?_⟩
  rw [tells id registered, if_pos scheduled, expiry]

end Timers
