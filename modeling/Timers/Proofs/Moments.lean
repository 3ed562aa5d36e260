import Timers.System.Fuel

/-! The moments of a scheduler's life, between one operation on it and the next. A moment is
outside of every advance, between two entries of one, or inside the run of a handler. What
happens from moment to moment does not ask which programs make it happen: whoever has the
scheduler may give any command, and a handler may end with anything. Every run of a system
goes through such moments, so what holds of all of them holds of a system wherever it is
looked at, inside its handlers too. -/

namespace Timers

inductive Place where
  | outside
  | between
  | inside (firing : Firing)
  deriving DecidableEq

structure Moment (H D : Type) where
  place : Place
  scheduler : Scheduler H D

inductive Action (H D : Type) where
  | command (given : Command H D)
  | beginAdvance
  | dispatch
  | settle (handler : H) (data : D)
  | endAdvance

inductive Transition {H D : Type} : Action H D → Moment H D → Moment H D → Prop where
  | command {place scheduler} (given : Command H D) (awake : place ≠ .between) :
      Transition (.command given) ⟨place, scheduler⟩ ⟨place, (scheduler.perform given).2⟩
  | beginAdvance {scheduler begun} (begins : scheduler.beginAdvance = .ok begun) :
      Transition .beginAdvance ⟨.outside, scheduler⟩ ⟨.between, begun⟩
  | dispatch {scheduler popped lent : Scheduler H D} {arming turn given}
      (due : scheduler.popDue? = some (arming, turn, popped))
      (taken : popped.lend arming.timer = (some given, lent)) :
      Transition .dispatch ⟨.between, scheduler⟩
        ⟨.inside ⟨arming.timer, lent.tick, arming.expiry, turn⟩, lent⟩
  | skip {scheduler popped left : Scheduler H D} {arming turn}
      (due : scheduler.popDue? = some (arming, turn, popped))
      (refused : popped.lend arming.timer = (none, left)) :
      Transition .dispatch ⟨.between, scheduler⟩ ⟨.between, left⟩
  | settle {firing scheduler} (handler : H) (data : D) :
      Transition (.settle handler data) ⟨.inside firing, scheduler⟩
        ⟨.between, scheduler.settle firing.timer firing.tick handler data⟩
  | endAdvance {scheduler} (finished : scheduler.popDue? = none) :
      Transition .endAdvance ⟨.between, scheduler⟩ ⟨.outside, scheduler.endAdvance⟩

/-- The moment to which an action leads, if the action is possible. -/
def Moment.step? {H D : Type} (moment : Moment H D) (action : Action H D) : Option (Moment H D) :=
  match action, moment with
  | .command _, ⟨.between, _⟩ => none
  | .command given, ⟨place, scheduler⟩ => some ⟨place, (scheduler.perform given).2⟩
  | .beginAdvance, ⟨.outside, scheduler⟩ =>
    match scheduler.beginAdvance with
    | .ok begun => some ⟨.between, begun⟩
    | .error _ => none
  | .dispatch, ⟨.between, scheduler⟩ =>
    match scheduler.popDue? with
    | none => none
    | some (arming, turn, popped) =>
      match popped.lend arming.timer with
      | (none, left) => some ⟨.between, left⟩
      | (some _, lent) => some ⟨.inside ⟨arming.timer, lent.tick, arming.expiry, turn⟩, lent⟩
  | .settle handler data, ⟨.inside firing, scheduler⟩ =>
    some ⟨.between, scheduler.settle firing.timer firing.tick handler data⟩
  | .endAdvance, ⟨.between, scheduler⟩ =>
    match scheduler.popDue? with
    | none => some ⟨.outside, scheduler.endAdvance⟩
    | some _ => none
  | _, _ => none

theorem Moment.step?_eq_some_iff {H D : Type} {moment after : Moment H D} {action : Action H D} :
    moment.step? action = some after ↔ Transition action moment after := by
  constructor
  · intro steps
    simp only [step?] at steps
    split at steps
    · cases steps
    next given place scheduler awake =>
      cases steps
      exact .command given awake
    next scheduler =>
      split at steps
      next begun begins =>
        cases steps
        exact .beginAdvance begins
      next => cases steps
    next scheduler =>
      split at steps
      · cases steps
      next arming turn popped due =>
        split at steps
        next left refused =>
          cases steps
          exact .skip due refused
        next given lent taken =>
          cases steps
          exact .dispatch due taken
    next handler data firing scheduler =>
      cases steps
      exact .settle handler data
    next scheduler =>
      split at steps
      next finished =>
        cases steps
        exact .endAdvance finished
      next => cases steps
    next => cases steps
  · intro steps
    cases steps with
    | @command place scheduler given awake =>
      cases place with
      | between => exact absurd rfl awake
      | outside | inside firing => rfl
    | beginAdvance begins => simp only [step?, begins]
    | dispatch due taken => simp only [step?, due, taken]
    | skip due refused => simp only [step?, due, refused]
    | settle handler data => rfl
    | endAdvance finished => simp only [step?, finished]

structure Step (H D : Type) where
  before : Moment H D
  action : Action H D
  after : Moment H D

/-- The run of a handler that begins with a step. -/
def Step.firing? {H D : Type} (step : Step H D) : Option Firing :=
  match step.before.place, step.after.place with
  | .between, .inside firing => some firing
  | _, _ => none

inductive Run {H D : Type} : Moment H D → List (Step H D) → Moment H D → Prop where
  | nil (moment) : Run moment [] moment
  | cons {action before after last steps} (step : Transition action before after)
      (run : Run after steps last) : Run before (⟨before, action, after⟩ :: steps) last

/-- The run that a list of actions makes, if they are possible one after another. -/
def Moment.run? {H D : Type} (moment : Moment H D) :
    List (Action H D) → Option (List (Step H D) × Moment H D)
  | [] => some ([], moment)
  | action :: rest =>
    match moment.step? action with
    | none => none
    | some after => (after.run? rest).map fun (steps, last) => (⟨moment, action, after⟩ :: steps, last)

theorem Moment.run_of_run? {H D : Type} {moment last : Moment H D} {actions : List (Action H D)}
    {steps : List (Step H D)} (made : moment.run? actions = some (steps, last)) :
    Run moment steps last := by
  induction actions generalizing moment steps last with
  | nil =>
    cases made
    exact .nil moment
  | cons action rest ih =>
    simp only [run?] at made
    split at made
    · cases made
    next after step =>
      obtain ⟨⟨later, final⟩, onward, same⟩ := Option.map_eq_some_iff.mp made
      cases same
      exact .cons (step?_eq_some_iff.mp step) (ih onward)

variable {H D W : Type}

/-- The first moment of a scheduler. -/
def Moment.ofConfig (config : Config) : Moment H D := ⟨.outside, .ofConfig config⟩

def firings (steps : List (Step H D)) : List Firing := steps.filterMap Step.firing?

namespace Run

variable {first middle last : Moment H D} {steps before after : List (Step H D)}

theorem single {action : Action H D} (step : Transition action first last) :
    Run first [⟨first, action, last⟩] last := .cons step (.nil last)

theorem append (earlier : Run first before middle) (later : Run middle after last) :
    Run first (before ++ after) last := by
  induction earlier with
  | nil => exact later
  | cons step run ih => exact .cons step (ih later)

theorem split (run : Run first (before ++ after) last) :
    ∃ middle, Run first before middle ∧ Run middle after last := by
  induction before generalizing first with
  | nil => exact ⟨first, .nil first, run⟩
  | cons step rest ih =>
    cases run with
    | cons made run =>
      obtain ⟨middle, earlier, later⟩ := ih run
      exact ⟨middle, .cons made earlier, later⟩

theorem reaches (run : Run first steps last) {step : Step H D} (member : step ∈ steps) :
    ∃ earlier, Run first earlier step.before ∧ Transition step.action step.before step.after := by
  obtain ⟨earlier, later, rfl⟩ := List.append_of_mem member
  obtain ⟨middle, passed, onward⟩ := run.split
  cases onward with
  | cons made _ => exact ⟨earlier, passed, made⟩

/-- What every step of some kind keeps, a run of such steps keeps. -/
theorem keeps_along {holds : Moment H D → Prop} {allows : Step H D → Prop}
    (kept : ∀ {action before after}, Transition action before after →
      allows ⟨before, action, after⟩ → holds before → holds after)
    (run : Run first steps last) (allowed : ∀ step ∈ steps, allows step) (start : holds first) :
    holds last := by
  induction run with
  | nil => exact start
  | cons step _ ih =>
    obtain ⟨now, later⟩ := List.forall_mem_cons.mp allowed
    exact ih later (kept step now start)

theorem preserves {holds : Moment H D → Prop}
    (kept : ∀ {action before after}, Transition action before after → holds before → holds after)
    (run : Run first steps last) (start : holds first) : holds last :=
  run.keeps_along (fun step _ held => kept step held) (fun _ _ => trivial) start

end Run

theorem firings_cons (step : Step H D) (steps : List (Step H D)) :
    firings (step :: steps) = step.firing?.toList ++ firings steps := by
  simp only [firings]
  rw [List.filterMap_cons]
  cases step.firing? <;> rfl

theorem firings_append (before after : List (Step H D)) :
    firings (before ++ after) = firings before ++ firings after := List.filterMap_append

/-- Whether a command is on nothing but the feed. -/
def Command.feeds : Command H D → Bool
  | .takeReporter | .receive | .drainEvents => true
  | _ => false

namespace Scheduler

/-- The tick, the one to go back to, and whether an advance goes on. -/
def clock (scheduler : Scheduler H D) : Tick × Tick × Bool :=
  (scheduler.tick, scheduler.initialTick, scheduler.dispatching)

variable (scheduler : Scheduler H D)

theorem disarm_frame (id : TimerId) (timer : Timer H D) :
    ∃ queue timers, (scheduler.disarm id timer).2 = { scheduler with queue, timers } := by
  simp only [disarm]
  split <;> exact ⟨_, _, rfl⟩

private theorem start_frame (id : TimerId) (delay : UInt64) (periodic : Bool) :
    ∃ queue timers feed, (scheduler.start id delay periodic).2 =
      { scheduler with queue, timers, feed } := by
  simp only [start]
  split
  · exact ⟨_, _, _, rfl⟩
  next timer _ =>
    obtain ⟨queue, timers, freed⟩ := scheduler.disarm_frame id timer
    split
    next disarmed =>
      rw [disarmed] at freed
      exact ⟨_, _, _, freed⟩
    next disarmed =>
      rw [disarmed] at freed
      obtain rfl := freed
      exact ⟨_, _, _, rfl⟩

private theorem stop_frame (id : TimerId) :
    ∃ queue timers feed, (scheduler.stop id).2 = { scheduler with queue, timers, feed } := by
  simp only [stop]
  split
  · exact ⟨_, _, _, rfl⟩
  next timer _ =>
    obtain ⟨queue, timers, freed⟩ := scheduler.disarm_frame id timer
    split
    next disarmed =>
      rw [disarmed] at freed
      exact ⟨_, _, _, freed⟩
    next disarmed =>
      rw [disarmed] at freed
      obtain rfl := freed
      dsimp only
      split <;> exact ⟨_, _, _, rfl⟩

theorem remove_frame (id : TimerId) :
    ∃ queue timers, (scheduler.remove id).2 = { scheduler with queue, timers } := by
  simp only [remove]
  split
  · exact ⟨_, _, rfl⟩
  next timer _ =>
    obtain ⟨queue, timers, freed⟩ := scheduler.disarm_frame id timer
    split
    next =>
      split
      next disarmed =>
        rw [disarmed] at freed
        exact ⟨_, _, freed⟩
      next disarmed =>
        rw [disarmed] at freed
        obtain rfl := freed
        exact ⟨_, _, rfl⟩
    next => exact ⟨_, _, rfl⟩

theorem feeds_frame {given : Command H D} (feeds : given.feeds = true) :
    ∃ feed, (scheduler.perform given).2 = { scheduler with feed } := by
  cases given with
  | takeReporter =>
    simp only [perform, takeReporter]
    split <;> exact ⟨_, rfl⟩
  | receive =>
    simp only [perform, receive]
    split <;> exact ⟨_, rfl⟩
  | drainEvents =>
    simp only [perform, drainEvents]
    split <;> exact ⟨_, rfl⟩
  | _ => cases feeds

theorem perform_frame (given : Command H D) :
    ∃ queue timers tick feed, (scheduler.perform given).2 =
      { scheduler with queue, timers, tick, feed } := by
  by_cases feeds : given.feeds = true
  · obtain ⟨_, same⟩ := scheduler.feeds_frame feeds
    exact ⟨_, _, _, _, same⟩
  cases given with
  | start id delay periodic =>
    obtain ⟨_, _, _, same⟩ := scheduler.start_frame id delay periodic
    exact ⟨_, _, _, _, same⟩
  | stop id =>
    obtain ⟨_, _, _, same⟩ := scheduler.stop_frame id
    exact ⟨_, _, _, _, same⟩
  | remove id =>
    obtain ⟨_, _, same⟩ := scheduler.remove_frame id
    exact ⟨_, _, _, _, same⟩
  | rebind id handler =>
    simp only [perform, rebind]
    split <;> exact ⟨_, _, _, _, rfl⟩
  | setPeriod id period =>
    simp only [perform, setPeriod]
    split <;> exact ⟨_, _, _, _, rfl⟩
  | takeReporter | receive | drainEvents => exact absurd rfl feeds
  | add | modifyData | reset => exact ⟨_, _, _, _, rfl⟩

theorem lend_frame (id : TimerId) :
    ∃ timers, (scheduler.lend id).2 = { scheduler with timers } := by
  simp only [lend]
  split
  · exact ⟨_, rfl⟩
  · split <;> exact ⟨_, rfl⟩

theorem settle_frame (id : TimerId) (tick : Tick) (handler : H) (data : D) :
    ∃ queue timers feed, scheduler.settle id tick handler data =
      { scheduler with queue, timers, feed } := by
  simp only [settle, rearm]
  split
  · exact ⟨_, _, _, rfl⟩
  · split
    · split <;> exact ⟨_, _, _, rfl⟩
    · exact ⟨_, _, _, rfl⟩

theorem clock_disarm (id : TimerId) (timer : Timer H D) :
    (scheduler.disarm id timer).2.clock = scheduler.clock := by
  obtain ⟨_, _, same⟩ := scheduler.disarm_frame id timer
  rw [same]
  rfl

theorem clock_start (id : TimerId) (delay : UInt64) (periodic : Bool) :
    (scheduler.start id delay periodic).2.clock = scheduler.clock := by
  obtain ⟨_, _, _, same⟩ := scheduler.start_frame id delay periodic
  rw [same]
  rfl

theorem clock_stop (id : TimerId) : (scheduler.stop id).2.clock = scheduler.clock := by
  obtain ⟨_, _, _, same⟩ := scheduler.stop_frame id
  rw [same]
  rfl

theorem clock_remove (id : TimerId) : (scheduler.remove id).2.clock = scheduler.clock := by
  obtain ⟨_, _, same⟩ := scheduler.remove_frame id
  rw [same]
  rfl

/-- Only a reset touches the clock, and what it touches is the tick. -/
theorem clock_perform (given : Command H D) :
    (scheduler.perform given).2.clock =
      match given with
      | .reset => (scheduler.initialTick, scheduler.initialTick, scheduler.dispatching)
      | _ => scheduler.clock := by
  by_cases feeds : given.feeds = true
  · obtain ⟨_, same⟩ := scheduler.feeds_frame feeds
    rw [same]
    cases given with
    | reset => cases feeds
    | _ => rfl
  cases given with
  | add handler data => rfl
  | start id delay periodic => exact scheduler.clock_start id delay periodic
  | stop id => exact scheduler.clock_stop id
  | remove id => exact scheduler.clock_remove id
  | rebind id handler =>
    simp only [perform, rebind]
    split <;> rfl
  | setPeriod id period =>
    simp only [perform, setPeriod]
    split <;> rfl
  | modifyData id change => rfl
  | reset => rfl
  | takeReporter | receive | drainEvents => exact absurd rfl feeds

theorem dispatching_perform (given : Command H D) :
    (scheduler.perform given).2.dispatching = scheduler.dispatching := by
  obtain ⟨_, _, _, _, same⟩ := scheduler.perform_frame given
  rw [same]

theorem clock_lend (id : TimerId) : (scheduler.lend id).2.clock = scheduler.clock := by
  obtain ⟨_, same⟩ := scheduler.lend_frame id
  rw [same]
  rfl

theorem clock_settle (id : TimerId) (tick : Tick) (handler : H) (data : D) :
    (scheduler.settle id tick handler data).clock = scheduler.clock := by
  obtain ⟨_, _, _, same⟩ := scheduler.settle_frame id tick handler data
  rw [same]
  rfl

variable {scheduler}

theorem popDue?_eq {arming : Arming} {turn : UInt64} {popped : Scheduler H D}
    (due : scheduler.popDue? = some (arming, turn, popped)) :
    ∃ queue, popped = { scheduler with queue } := by
  simp only [popDue?] at due
  split at due
  · cases due
  · split at due
    · split at due
      · cases due
        exact ⟨_, rfl⟩
      · cases due
    · cases due

theorem clock_popDue? {arming : Arming} {turn : UInt64} {popped : Scheduler H D}
    (due : scheduler.popDue? = some (arming, turn, popped)) : popped.clock = scheduler.clock := by
  obtain ⟨_, rfl⟩ := popDue?_eq due
  rfl

end Scheduler

/-- A scheduler dispatches as long as it is in an advance. -/
def Moment.Paced (moment : Moment H D) : Prop :=
  moment.scheduler.dispatching = true ↔ moment.place ≠ .outside

theorem Moment.Paced.ofConfig (config : Config) : (Moment.ofConfig config : Moment H D).Paced := by
  simp [Paced, Moment.ofConfig, Scheduler.ofConfig]

theorem Moment.Paced.idle {moment : Moment H D} (paced : moment.Paced)
    (outside : moment.place = .outside) : moment.scheduler.dispatching = false :=
  Bool.eq_false_iff.mpr fun busy => paced.mp busy outside

theorem Scheduler.beginAdvance_eq {scheduler begun : Scheduler H D}
    (begins : scheduler.beginAdvance = .ok begun) :
    scheduler.dispatching = false ∧ ∃ tick, scheduler.tick.next? = some tick ∧
      begun = { scheduler with tick, dispatching := true } := by
  simp only [beginAdvance] at begins
  split at begins
  · cases begins
  next idle =>
    split at begins
    · cases begins
    next tick next =>
      cases begins
      exact ⟨by simpa using idle, tick, next, rfl⟩

theorem Scheduler.beginAdvance_of_busy {scheduler : Scheduler H D}
    (busy : scheduler.dispatching = true) :
    scheduler.beginAdvance = .error .reentrantAdvance := by
  simp [beginAdvance, busy]

theorem Scheduler.error_of_beginAdvance {scheduler : Scheduler H D} {error : TimerError}
    (refused : scheduler.beginAdvance = .error error) :
    error = .reentrantAdvance ∨ error = .tickOverflow := by
  simp only [beginAdvance] at refused
  split at refused
  · cases refused
    exact .inl rfl
  · split at refused
    · cases refused
      exact .inr rfl
    · cases refused

theorem Transition.paced {action : Action H D} {before after : Moment H D}
    (step : Transition action before after) (paced : before.Paced) : after.Paced := by
  simp only [Moment.Paced] at paced ⊢
  cases step with
  | command given awake =>
    rw [Scheduler.dispatching_perform]
    exact paced
  | beginAdvance begins =>
    obtain ⟨_, tick, _, rfl⟩ := Scheduler.beginAdvance_eq begins
    simp
  | @dispatch scheduler popped lent arming _ _ due taken =>
    have clock := popped.clock_lend arming.timer
    rw [taken, Scheduler.clock_popDue? due] at clock
    have same : lent.dispatching = scheduler.dispatching := congrArg (·.2.2) clock
    simpa [same] using paced
  | @skip scheduler popped left arming _ due refused =>
    have clock := popped.clock_lend arming.timer
    rw [refused, Scheduler.clock_popDue? due] at clock
    have same : left.dispatching = scheduler.dispatching := congrArg (·.2.2) clock
    simpa [same] using paced
  | @settle firing scheduler handler data =>
    have clock := scheduler.clock_settle firing.timer firing.tick handler data
    have same : (scheduler.settle firing.timer firing.tick handler data).dispatching =
      scheduler.dispatching := congrArg (·.2.2) clock
    simpa [same] using paced
  | endAdvance finished => simp [Scheduler.endAdvance]

theorem Transition.configured {action : Action H D} {before after : Moment H D}
    (step : Transition action before after) :
    after.scheduler.initialTick = before.scheduler.initialTick ∧
      after.scheduler.reporting = before.scheduler.reporting := by
  cases step with
  | @command place scheduler given awake =>
    obtain ⟨_, _, _, _, same⟩ := scheduler.perform_frame given
    rw [same]
    exact ⟨rfl, rfl⟩
  | beginAdvance begins =>
    obtain ⟨_, _, _, rfl⟩ := Scheduler.beginAdvance_eq begins
    exact ⟨rfl, rfl⟩
  | @dispatch scheduler popped lent arming turn given due taken =>
    obtain ⟨_, rfl⟩ := Scheduler.popDue?_eq due
    obtain ⟨_, same⟩ := Scheduler.lend_frame _ arming.timer
    rw [taken] at same
    obtain rfl := same
    exact ⟨rfl, rfl⟩
  | @skip scheduler popped left arming turn due refused =>
    obtain ⟨_, rfl⟩ := Scheduler.popDue?_eq due
    obtain ⟨_, same⟩ := Scheduler.lend_frame _ arming.timer
    rw [refused] at same
    obtain rfl := same
    exact ⟨rfl, rfl⟩
  | @settle firing scheduler handler data =>
    obtain ⟨_, _, _, same⟩ := scheduler.settle_frame firing.timer firing.tick handler data
    simp [same]
  | endAdvance finished => exact ⟨rfl, rfl⟩

theorem Run.initialTick {first last : Moment H D} {steps : List (Step H D)}
    (run : Run first steps last) : last.scheduler.initialTick = first.scheduler.initialTick :=
  run.preserves (fun step same => step.configured.1.trans same) rfl

theorem System.tryAdvance_refused {system : System H D W} (react : Reaction H D W) (fuel : Nat)
    (busy : system.scheduler.dispatching = true) :
    System.tryAdvance react fuel system = some (.error .reentrantAdvance, system) :=
  System.tryAdvance_of_refused (Scheduler.beginAdvance_of_busy busy)

end Timers
