import Timers.Proofs.Published
import Timers.Proofs.Schedule

/-! Two schedulers that are alike. Some timers of the one are known to be some timers of the
other; what is recorded of these is the same, and those that are due at the same tick are scheduled
in the same order. Slots, nodes and turns may differ, and the first scheduler may have timers on its
schedule that nobody knows. An operation on both, each on its own one of two timers that are known
to be the same, tells the same and leaves them alike. -/

namespace Timers

variable {H D : Type} {ι : Type}

/-- Why a command was refused, with the timer under another name. -/
inductive Refusal (ι : Type) where
  | invalidTimer (timer : ι)
  | firing (timer : ι)
  | reentrantAdvance
  | tickOverflow
  | queue (cause : QueueError)

def TimerError.refusal (name : TimerId → ι) : TimerError → Refusal ι
  | .invalidTimer id => .invalidTimer (name id)
  | .firing id => .firing (name id)
  | .reentrantAdvance => .reentrantAdvance
  | .tickOverflow => .tickOverflow
  | .queue cause => .queue cause

inductive Told (ι D : Type) where
  | added (timer : ι)
  | refused (refusal : Refusal ι)
  | done
  | halted (wasScheduled : Bool)
  | removed (data : D)
  | changed (data : Option D)

/-- What the reply to a command tells. What comes through the feed is left out. -/
def Command.told (name : TimerId → ι) : (given : Command H D) → given.Reply → Told ι D
  | .add .., id => .added (name id)
  | .start .., .ok () | .rebind .., .ok () | .setPeriod .., .ok () => .done
  | .stop _, .ok wasScheduled => .halted wasScheduled
  | .remove _, .ok data => .removed data
  | .start .., .error error | .rebind .., .error error | .setPeriod .., .error error
  | .stop _, .error error | .remove _, .error error => .refused (error.refusal name)
  | .modifyData .., data => .changed data
  | .reset, _ | .takeReporter, _ | .receive, _ | .drainEvents, _ => .done

/-- A record without the key of its entry. -/
def Timer.bare (timer : Timer H D) : Timer H D := { timer with node := none }

def Timer.started (timer : Timer H D) (expiry : Tick) (period : UInt64) : Timer H D :=
  { timer with expiry, period, phase := .scheduled }

def Scheduler.bare? (scheduler : Scheduler H D) (id : TimerId) : Option (Timer H D) :=
  (scheduler.timer? id).map Timer.bare

/-- A turn tells an entry from all others, and those that are to come are later. -/
structure Scheduler.Spread (scheduler : Scheduler H D) : Prop where
  early : ∀ {arming turn}, scheduler.Queued arming turn → turn < scheduler.queue.nextTurn
  single : ∀ {arming other turn}, scheduler.Queued arming turn → scheduler.Queued other turn →
    arming = other

theorem Effect.spread {before after : Scheduler H D} {armed : Option Arming}
    {freed : TimerId → Prop} (effect : Effect before armed freed after) (spread : before.Spread)
    (onward : before.queue.nextTurn ≤ after.queue.nextTurn) : after.Spread := by
  have cases : ∀ {arming turn}, after.Queued arming turn → before.Queued arming turn ∨
      armed = some arming ∧ turn = before.queue.nextTurn := by
    intro arming turn queued
    rcases (effect.queued arming turn).mp queued with ⟨old, _⟩ | new
    · exact .inl old
    · exact .inr new
  constructor
  · intro arming turn queued
    rcases cases queued with old | ⟨new, rfl⟩
    · exact UInt64.lt_of_lt_of_le (spread.early old) onward
    · have turns := effect.turn
      rw [new] at turns
      simp only [Option.isSome_some, if_true] at turns
      rw [turns] at onward ⊢
      grind
  · intro arming other turn queued queued'
    rcases cases queued with old | ⟨new, rfl⟩ <;> rcases cases queued' with old' | ⟨new', same⟩
    · exact spread.single old old'
    · rw [same] at old
      exact absurd (spread.early old) (UInt64.lt_irrefl _)
    · exact absurd (spread.early old') (UInt64.lt_irrefl _)
    · exact Option.some.inj (new.symm.trans new')

theorem Scheduler.Spread.ofConfig (config : Config) :
    (Scheduler.ofConfig config : Scheduler H D).Spread := by
  have nothing : ∀ arming turn, ¬ (Scheduler.ofConfig config : Scheduler H D).Queued arming turn :=
    not_queued_ofConfig config
  exact ⟨fun queued => absurd queued (nothing _ _), fun queued => absurd queued (nothing _ _)⟩

theorem Run.spread {first last : Moment H D} {steps : List (Step H D)} (run : Run first steps last)
    (valid : first.Valid) (spread : first.scheduler.Spread) (onward : ∀ step ∈ steps, step.Onward) :
    last.scheduler.Spread :=
  run.keeps_valid (fun step valid now spread => (step.effect valid).spread spread now) valid onward
    spread

structure Alike (known : TimerId → TimerId → Prop) (first second : Scheduler H D) : Prop where
  tied : first.Tied
  tied' : second.Tied
  spread : first.Spread
  spread' : second.Spread
  clock : first.clock = second.clock
  lag : second.queue.nextTurn ≤ first.queue.nextTurn
  unique : ∀ {id other id' other'}, known id other → known id' other' →
    (id = id' ↔ other = other')
  records : ∀ {id other}, known id other → first.bare? id = second.bare? other
  covered : ∀ {arming turn}, second.Queued arming turn → ∃ id, known id arming.timer
  order : ∀ {arming arming' other other' : Arming} {turn turn' later later' : UInt64},
    known arming.timer arming'.timer → known other.timer other'.timer →
    arming.expiry = other.expiry → first.Queued arming turn → second.Queued arming' turn' →
    first.Queued other later → second.Queued other' later' → (turn < later ↔ turn' < later')

namespace Alike

variable {known : TimerId → TimerId → Prop} {first second first' second' : Scheduler H D}
  {id other : TimerId}

theorem of_idle (tied : first.Tied) (tied' : second.Tied)
    (idle : ∀ arming turn, ¬ first.Queued arming turn)
    (idle' : ∀ arming turn, ¬ second.Queued arming turn) (clock : first.clock = second.clock)
    (lag : second.queue.nextTurn ≤ first.queue.nextTurn)
    (unique : ∀ {id other id' other'}, known id other → known id' other' →
      (id = id' ↔ other = other'))
    (records : ∀ {id other}, known id other → first.bare? id = second.bare? other) :
    Alike known first second where
  tied := tied
  tied' := tied'
  spread := ⟨fun queued => absurd queued (idle _ _), fun queued => absurd queued (idle _ _)⟩
  spread' := ⟨fun queued => absurd queued (idle' _ _), fun queued => absurd queued (idle' _ _)⟩
  clock := clock
  lag := lag
  unique := unique
  records := records
  covered := fun queued => absurd queued (idle' _ _)
  order := fun _ _ _ queued => absurd queued (idle _ _)

theorem found (alike : Alike known first second) (same : known id other) {timer : Timer H D}
    (present : first.timer? id = some timer) :
    ∃ timer', second.timer? other = some timer' ∧ timer'.bare = timer.bare := by
  have records := alike.records same
  rw [Scheduler.bare?, Scheduler.bare?, present] at records
  obtain ⟨timer', found, equal⟩ := Option.map_eq_some_iff.mp records.symm
  exact ⟨timer', found, equal⟩

private theorem absent (alike : Alike known first second) (same : known id other)
    (missing : first.timer? id = none) : second.timer? other = none := by
  have records := alike.records same
  rw [Scheduler.bare?, Scheduler.bare?, missing] at records
  exact Option.map_eq_none_iff.mp records.symm

private theorem node (alike : Alike known first second) {timer timer' : Timer H D}
    (present : first.timer? id = some timer) (present' : second.timer? other = some timer')
    (equal : timer'.bare = timer.bare) : timer'.node.isSome = timer.node.isSome := by
  have phase : timer'.phase = timer.phase := congrArg (·.phase) equal
  apply Bool.eq_iff_iff.mpr
  rw [alike.tied'.phase present', alike.tied.phase present, phase]

theorem view? (alike : Alike known first second) (same : known id other) :
    first.view? id = second.view? other := by
  cases present : first.timer? id with
  | none => simp only [Scheduler.view?, present, alike.absent same present]
  | some timer =>
    obtain ⟨timer', present', equal⟩ := alike.found same present
    have node := alike.node present present' equal
    have phase : timer'.phase = timer.phase := congrArg (·.phase) equal
    have expiry : timer'.expiry = timer.expiry := congrArg (·.expiry) equal
    have period : timer'.period = timer.period := congrArg (·.period) equal
    have data : timer'.data = timer.data := congrArg (·.data) equal
    simp only [Scheduler.view?, present, present', Option.map_some, phase, expiry, period, data, node]

theorem twin (alike : Alike known first second) {arming : Arming} {turn : UInt64}
    (same : known arming.timer other) (queued : first.Queued arming turn) :
    ∃ turn', second.Queued ⟨arming.expiry, other⟩ turn' := by
  obtain ⟨key, held⟩ := queued
  obtain ⟨timer, present, node, expiry⟩ := alike.tied.entry held
  obtain ⟨timer', present', equal⟩ := alike.found same present
  have expiry' : timer'.expiry = timer.expiry := congrArg (·.expiry) equal
  have armed : timer'.node.isSome := by
    rw [alike.node present present' equal, node]
    rfl
  rw [← expiry, ← expiry']
  exact alike.tied'.queued present' armed

theorem twin' (alike : Alike known first second) {arming : Arming} {turn : UInt64}
    (same : known id arming.timer) (queued : second.Queued arming turn) :
    ∃ turn', first.Queued ⟨arming.expiry, id⟩ turn' := by
  obtain ⟨key, held⟩ := queued
  obtain ⟨timer', present', node, expiry⟩ := alike.tied'.entry held
  cases present : first.timer? id with
  | none =>
    rw [alike.absent same present] at present'
    cases present'
  | some timer =>
    obtain ⟨found, again, equal⟩ := alike.found same present
    cases again.symm.trans present'
    have expiry' : timer'.expiry = timer.expiry := congrArg (·.expiry) equal
    have armed : timer.node.isSome := by
      rw [← alike.node present present' equal, node]
      rfl
    rw [← expiry, expiry']
    exact alike.tied.queued present armed

section Move

variable {armed armed' : Option Arming} {freed freed' : TimerId → Prop}
  (effect : Effect first armed freed first') (effect' : Effect second armed' freed' second')
  (arms : ∀ {id other}, known id other →
    (armed.map (·.timer) = some id ↔ armed'.map (·.timer) = some other))

include effect effect' arms

/-- Two entries of one timer are old in both schedulers or new in both. -/
private theorem age {arming other : Arming} {turn turn' : UInt64}
    (same : known arming.timer other.timer) (queued : first'.Queued arming turn)
    (queued' : second'.Queued other turn') :
    (first.Queued arming turn ∧ second.Queued other turn') ∨
      turn = first.queue.nextTurn ∧ turn' = second.queue.nextTurn := by
  have new : ∀ {fresh}, armed = some fresh → fresh.timer = arming.timer →
      turn = first.queue.nextTurn := by
    intro fresh arms equal
    have put := (effect.queued fresh _).mpr (.inr ⟨arms, rfl⟩)
    exact (effect.tied.queued_unique queued put equal.symm).2
  have new' : ∀ {fresh}, armed' = some fresh → fresh.timer = other.timer →
      turn' = second.queue.nextTurn := by
    intro fresh arms equal
    have put := (effect'.queued fresh _).mpr (.inr ⟨arms, rfl⟩)
    exact (effect'.tied.queued_unique queued' put equal.symm).2
  rcases (effect.queued arming turn).mp queued with ⟨old, _⟩ | ⟨armsHere, rfl⟩
  · rcases (effect'.queued other turn').mp queued' with ⟨old', _⟩ | ⟨armsThere, rfl⟩
    · exact .inl ⟨old, old'⟩
    · obtain ⟨fresh, armsHere, equal⟩ :=
        Option.map_eq_some_iff.mp ((arms same).mpr (by rw [armsThere]; rfl))
      exact .inr ⟨new armsHere equal, rfl⟩
  · obtain ⟨fresh, armsThere, equal⟩ :=
      Option.map_eq_some_iff.mp ((arms same).mp (by rw [armsHere]; rfl))
    exact .inr ⟨rfl, new' armsThere equal⟩

/-- Operations on both that arm the same timer, or none that is known, leave them alike if they
leave records that are the same. -/
theorem move (alike : Alike known first second)
    (onward : first.queue.nextTurn ≤ first'.queue.nextTurn)
    (covers : ∀ {arming}, armed' = some arming → ∃ id, known id arming.timer)
    (clock : first'.clock = second'.clock)
    (records : ∀ {id other}, known id other → first'.bare? id = second'.bare? other) :
    Alike known first' second' := by
  have turns := effect.turn
  have turns' := effect'.turn
  have lag := alike.lag
  have both : armed'.isSome → armed.isSome := by
    intro some
    obtain ⟨arming, armsThere⟩ := Option.isSome_iff_exists.mp some
    obtain ⟨id, same⟩ := covers armsThere
    obtain ⟨fresh, armsHere, _⟩ :=
      Option.map_eq_some_iff.mp ((arms same).mpr (by rw [armsThere]; rfl))
    rw [armsHere]
    rfl
  obtain ⟨onward', lag'⟩ : second.queue.nextTurn ≤ second'.queue.nextTurn ∧
      second'.queue.nextTurn ≤ first'.queue.nextTurn := by
    cases armsThere : armed'.isSome with
    | false =>
      rw [armsThere] at turns'
      simp only [Bool.false_eq_true, if_false, UInt64.add_zero] at turns'
      rw [turns']
      exact ⟨UInt64.le_refl _, UInt64.le_trans lag onward⟩
    | true =>
      rw [both armsThere] at turns
      rw [armsThere] at turns'
      simp only [if_true] at turns turns'
      rw [turns] at onward ⊢
      rw [turns']
      grind
  refine ⟨effect.tied, effect'.tied, effect.spread alike.spread onward,
    effect'.spread alike.spread' onward', clock, lag', alike.unique, records, ?_, ?_⟩
  · intro arming turn queued
    rcases (effect'.queued arming turn).mp queued with ⟨old, _⟩ | ⟨armsThere, _⟩
    · exact alike.covered old
    · exact covers armsThere
  · intro arming arming' other other' turn turn' later later' same same' level one one' two two'
    rcases age effect effect' arms same one one' with ⟨old, old'⟩ | ⟨rfl, rfl⟩ <;>
      rcases age effect effect' arms same' two two' with ⟨past, past'⟩ | ⟨rfl, rfl⟩
    · exact alike.order same same' level old old' past past'
    · simp [alike.spread.early old, alike.spread'.early old']
    · have early := alike.spread.early past
      have early' := alike.spread'.early past'
      exact iff_of_false (UInt64.lt_asymm early) (UInt64.lt_asymm early')
    · simp

end Move

theorem rest (alike : Alike known first second) {freed freed' : TimerId → Prop}
    (effect : Effect first none freed first') (effect' : Effect second none freed' second')
    (clock : first'.clock = second'.clock)
    (records : ∀ {id other}, known id other → first'.bare? id = second'.bare? other) :
    Alike known first' second' := by
  have turn : first'.queue.nextTurn = first.queue.nextTurn := by simpa using effect.turn
  apply alike.move effect effect' (by simp) (turn ▸ UInt64.le_refl _) (by simp) clock records

theorem records_at (alike : Alike known first second) (same : known id other)
    {value : Option (Timer H D)}
    (now : ∀ any, first'.bare? any = if any = id then value else first.bare? any)
    (now' : ∀ any, second'.bare? any = if any = other then value else second.bare? any)
    {any any' : TimerId} (pair : known any any') : first'.bare? any = second'.bare? any' := by
  rw [now, now']
  by_cases equal : any = id
  · rw [if_pos equal, if_pos ((alike.unique pair same).mp equal)]
  · rw [if_neg equal, if_neg (mt (alike.unique pair same).mpr equal)]
    exact alike.records pair

end Alike

/-- The same command, given on two timers that are known to be the same. -/
inductive Command.Matches (known : TimerId → TimerId → Prop) :
    Command H D → Command H D → Prop where
  | start {id other} (same : known id other) (delay : UInt64) (periodic : Bool) :
    Matches known (.start id delay periodic) (.start other delay periodic)
  | stop {id other} (same : known id other) : Matches known (.stop id) (.stop other)
  | remove {id other} (same : known id other) : Matches known (.remove id) (.remove other)
  | rebind {id other} (same : known id other) (handler : H) :
    Matches known (.rebind id handler) (.rebind other handler)
  | setPeriod {id other} (same : known id other) (period : UInt64) :
    Matches known (.setPeriod id period) (.setPeriod other period)
  | modifyData {id other} (same : known id other) (change : D → D) :
    Matches known (.modifyData id change) (.modifyData other change)
  | reset : Matches known .reset .reset
  | feed {given} (feeds : given.feeds = true) : Matches known given given

namespace Scheduler

variable {scheduler after : Scheduler H D} {id : TimerId} {timer : Timer H D}

theorem bare?_of_timers {later : Option (Timer H D)}
    (timers : ∀ other, after.timer? other = if other = id then later else scheduler.timer? other)
    (other : TimerId) :
    after.bare? other = if other = id then later.map Timer.bare else scheduler.bare? other := by
  rw [bare?, timers]
  split <;> rfl

theorem bare?_updateTimer (scheduler : Scheduler H D) (id : TimerId)
    {change : Timer H D → Timer H D} (plain : ∀ timer, (change timer).bare = change timer.bare)
    (other : TimerId) :
    (scheduler.updateTimer id change).bare? other =
      if other = id then (scheduler.bare? id).map change else scheduler.bare? other := by
  rw [bare?, timer?_updateTimer]
  split
  next same =>
    subst same
    rw [bare?, Option.map_map, Option.map_map]
    exact Option.map_congr fun timer _ => plain timer
  next => rfl

end Scheduler

namespace Alike

variable {known : TimerId → TimerId → Prop} {first second : Scheduler H D} {id other : TimerId}
  {name name' : TimerId → ι}

section Commands

variable (alike : Alike known first second) (same : known id other)

include alike same

private theorem start (named : name id = name' other) (delay : UInt64) (periodic : Bool)
    (onward : first.queue.nextTurn ≤ (first.start id delay periodic).2.queue.nextTurn) :
    Command.told name (.start id delay periodic : Command H D) (first.start id delay periodic).1 =
        Command.told name' (.start other delay periodic : Command H D)
          (second.start other delay periodic).1 ∧
      Alike known (first.start id delay periodic).2 (second.start other delay periodic).2 := by
  have clock := first.clock_start id delay periodic
  have clock' := second.clock_start other delay periodic
  cases present : first.timer? id with
  | none =>
    rw [Scheduler.start_of_absent present, Scheduler.start_of_absent (alike.absent same present)]
    exact ⟨by simp [Command.told, TimerError.refusal, named], alike⟩
  | some timer =>
    obtain ⟨timer', present', equal⟩ := alike.found same present
    obtain ⟨after, node, started, effect, timers, _⟩ :=
      Scheduler.start_starts alike.tied present delay periodic
    obtain ⟨after', node', started', effect', timers', _⟩ :=
      Scheduler.start_starts alike.tied' present' delay periodic
    rw [started] at onward clock ⊢
    rw [started'] at clock' ⊢
    have tick : second.tick = first.tick := congrArg Prod.fst alike.clock.symm
    refine ⟨rfl, alike.move effect effect' ?_ onward ?_ (clock.trans (alike.clock.trans clock'.symm)) ?_⟩
    · intro any any' pair
      simp only [Option.map_some, Option.some.injEq]
      rw [eq_comm, alike.unique pair same, eq_comm]
    · intro arming arms
      cases arms
      exact ⟨id, same⟩
    · have now : ∀ any, after.bare? any = if any = id then
          some (timer.bare.started (first.tick.after delay) (if periodic then delay else 0))
          else first.bare? any := Scheduler.bare?_of_timers timers
      have now' : ∀ any, after'.bare? any = if any = other then
          some (timer'.bare.started (second.tick.after delay) (if periodic then delay else 0))
          else second.bare? any := Scheduler.bare?_of_timers timers'
      rw [tick, equal] at now'
      intro any any' pair
      exact alike.records_at same now now' pair

private theorem stop (named : name id = name' other) :
    Command.told name (.stop id : Command H D) (first.stop id).1 =
        Command.told name' (.stop other : Command H D) (second.stop other).1 ∧
      Alike known (first.stop id).2 (second.stop other).2 := by
  have clock := first.clock_stop id
  have clock' := second.clock_stop other
  cases present : first.timer? id with
  | none =>
    rw [Scheduler.stop_of_absent present, Scheduler.stop_of_absent (alike.absent same present)]
    exact ⟨by simp [Command.told, TimerError.refusal, named], alike⟩
  | some timer =>
    obtain ⟨timer', present', equal⟩ := alike.found same present
    have node := alike.node present present' equal
    have phase : timer'.phase = timer.phase := congrArg (·.phase) equal
    obtain ⟨after, stopped, effect, timers, _⟩ := Scheduler.stop_stops alike.tied present
    obtain ⟨after', stopped', effect', timers', _⟩ := Scheduler.stop_stops alike.tied' present'
    rw [stopped] at clock ⊢
    rw [stopped'] at clock' ⊢
    refine ⟨by rw [node]; rfl, alike.rest effect effect' (clock.trans (alike.clock.trans clock'.symm)) ?_⟩
    have now : ∀ any, after.bare? any = if any = id then some { timer.bare with
        phase := if timer.node.isSome || timer.phase == .firing then .stopped else timer.phase }
        else first.bare? any := Scheduler.bare?_of_timers timers
    have now' : ∀ any, after'.bare? any = if any = other then some { timer'.bare with
        phase := if timer'.node.isSome || timer'.phase == .firing then .stopped else timer'.phase }
        else second.bare? any := Scheduler.bare?_of_timers timers'
    rw [node, phase, equal] at now'
    intro any any' pair
    exact alike.records_at same now now' pair

private theorem remove (named : name id = name' other) :
    Command.told name (.remove id : Command H D) (first.remove id).1 =
        Command.told name' (.remove other : Command H D) (second.remove other).1 ∧
      Alike known (first.remove id).2 (second.remove other).2 := by
  have clock := first.clock_remove id
  have clock' := second.clock_remove other
  cases present : first.timer? id with
  | none =>
    rw [Scheduler.remove_of_absent present, Scheduler.remove_of_absent (alike.absent same present)]
    exact ⟨by simp [Command.told, TimerError.refusal, named], alike⟩
  | some timer =>
    obtain ⟨timer', present', equal⟩ := alike.found same present
    have handlers : timer'.handler = timer.handler := congrArg (·.handler) equal
    have datas : timer'.data = timer.data := congrArg (·.data) equal
    rcases first.remove_cases id with ⟨error, refused⟩ | ⟨_, handler, data, found, taken, given⟩
    · have lent : timer.handler = none ∨ timer.data = none := by
        cases taken : timer.handler with
        | none => exact .inl rfl
        | some handler =>
          cases given : timer.data with
          | none => exact .inr rfl
          | some data =>
            obtain ⟨after, removed, _⟩ := Scheduler.remove_removes alike.tied present taken given
            rw [removed] at refused
            cases refused
      rw [Scheduler.remove_of_lent present lent,
        Scheduler.remove_of_lent present' (by rw [handlers, datas]; exact lent)]
      exact ⟨by simp [Command.told, TimerError.refusal, named], alike⟩
    · cases found.symm.trans present
      obtain ⟨after, removed, effect, timers, _⟩ :=
        Scheduler.remove_removes alike.tied present taken given
      obtain ⟨after', removed', effect', timers', _⟩ :=
        Scheduler.remove_removes alike.tied' present' (handlers.trans taken) (datas.trans given)
      rw [removed] at clock ⊢
      rw [removed'] at clock' ⊢
      refine ⟨rfl, alike.rest effect effect' (clock.trans (alike.clock.trans clock'.symm)) ?_⟩
      exact alike.records_at same (Scheduler.bare?_of_timers timers)
        (Scheduler.bare?_of_timers timers')

private theorem update {change : Timer H D → Timer H D}
    (kept : ∀ timer, (change timer).node = timer.node ∧ (change timer).expiry = timer.expiry ∧
      (change timer).phase = timer.phase)
    (plain : ∀ timer, (change timer).bare = change timer.bare) :
    Alike known (first.updateTimer id change) (second.updateTimer other change) := by
  apply alike.rest (Scheduler.update_effect alike.tied kept)
    (Scheduler.update_effect alike.tied' kept) alike.clock
  apply alike.records_at same (Scheduler.bare?_updateTimer first id plain)
  rw [alike.records same]
  exact Scheduler.bare?_updateTimer second other plain

private theorem rebind (named : name id = name' other) (handler : H) :
    Command.told name (.rebind id handler : Command H D) (first.rebind id handler).1 =
        Command.told name' (.rebind other handler : Command H D) (second.rebind other handler).1 ∧
      Alike known (first.rebind id handler).2 (second.rebind other handler).2 := by
  cases present : first.timer? id with
  | none =>
    simp only [Scheduler.rebind, present, alike.absent same present]
    exact ⟨by simp [Command.told, TimerError.refusal, named], alike⟩
  | some timer =>
    obtain ⟨timer', present', _⟩ := alike.found same present
    simp only [Scheduler.rebind, present, present']
    exact ⟨rfl, alike.update same (fun _ => ⟨rfl, rfl, rfl⟩) fun _ => rfl⟩

private theorem setPeriod (named : name id = name' other) (period : UInt64) :
    Command.told name (.setPeriod id period : Command H D) (first.setPeriod id period).1 =
        Command.told name' (.setPeriod other period : Command H D)
          (second.setPeriod other period).1 ∧
      Alike known (first.setPeriod id period).2 (second.setPeriod other period).2 := by
  cases present : first.timer? id with
  | none =>
    simp only [Scheduler.setPeriod, present, alike.absent same present]
    exact ⟨by simp [Command.told, TimerError.refusal, named], alike⟩
  | some timer =>
    obtain ⟨timer', present', _⟩ := alike.found same present
    simp only [Scheduler.setPeriod, present, present']
    exact ⟨rfl, alike.update same (fun _ => ⟨rfl, rfl, rfl⟩) fun _ => rfl⟩

private theorem modifyData (change : D → D) :
    (first.modifyData id change).1 = (second.modifyData other change).1 ∧
      Alike known (first.modifyData id change).2 (second.modifyData other change).2 := by
  have changed : Alike known
      (first.updateTimer id fun timer => { timer with data := timer.data.map change })
      (second.updateTimer other fun timer => { timer with data := timer.data.map change }) :=
    alike.update same (fun _ => ⟨rfl, rfl, rfl⟩) fun _ => rfl
  refine ⟨?_, changed⟩
  simp only [Scheduler.modifyData, Scheduler.data?, changed.view? same]

end Commands

private theorem reset (alike : Alike known first second) :
    Alike known first.reset second.reset := by
  have clock : first.reset.clock = second.reset.clock := by
    have same := congrArg (fun clock : Tick × Tick × Bool => (clock.2.1, clock.2)) alike.clock
    exact same
  apply alike.rest first.reset_effect second.reset_effect clock
  intro id other _
  rw [Scheduler.bare?, Scheduler.bare?, Scheduler.timer?_reset, Scheduler.timer?_reset]

theorem congr {first' second' : Scheduler H D} (alike : Alike known first second)
    (queue : first'.queue = first.queue) (timers : first'.timers = first.timers)
    (queue' : second'.queue = second.queue) (timers' : second'.timers = second.timers)
    (clock : first'.clock = second'.clock) : Alike known first' second' := by
  apply alike.rest ((Effect.none alike.tied).congr queue timers)
    ((Effect.none alike.tied').congr queue' timers') clock
  intro id other same
  have records := alike.records same
  simp only [Scheduler.bare?, Scheduler.timer?, timers, timers'] at records ⊢
  exact records

theorem perform (alike : Alike known first second) {given given' : Command H D}
    (matches' : given.Matches known given')
    (named : ∀ {id other}, known id other → name id = name' other)
    (onward : first.queue.nextTurn ≤ (first.perform given).2.queue.nextTurn) :
    given.told name (first.perform given).1 = given'.told name' (second.perform given').1 ∧
      Alike known (first.perform given).2 (second.perform given').2 := by
  cases matches' with
  | start same delay periodic => exact alike.start same (named same) delay periodic onward
  | stop same => exact alike.stop same (named same)
  | remove same => exact alike.remove same (named same)
  | rebind same handler => exact alike.rebind same (named same) handler
  | setPeriod same period => exact alike.setPeriod same (named same) period
  | modifyData same change =>
    obtain ⟨told, after⟩ := alike.modifyData same change
    exact ⟨congrArg Told.changed told, after⟩
  | reset => exact ⟨rfl, alike.reset⟩
  | feed feeds =>
    obtain ⟨_, same⟩ := first.feeds_frame feeds
    obtain ⟨_, same'⟩ := second.feeds_frame feeds
    have told : given.told name (first.perform given).1 =
        given.told name' (second.perform given).1 := by
      cases given with
      | takeReporter | receive | drainEvents => rfl
      | _ => cases feeds
    rw [same, same']
    exact ⟨told, alike.congr rfl rfl rfl rfl alike.clock⟩

end Alike

end Timers
