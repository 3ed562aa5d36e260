import Timers.Proofs.Endings

/-! When an advance never ends. It does not as long as every handler leaves another entry due. One
way to that is a timer that repeats and is let alone at the last tick, where nothing can be armed for
later; the other is a handler that starts its own timer again without a delay. -/

namespace Timers

variable {H D W : Type}

/-- A command that lets a timer that repeats go on. -/
def Command.Sustains (id : TimerId) : Command H D → Prop
  | .start other delay periodic => other = id → periodic = true ∧ delay ≠ 0
  | .setPeriod other period => other = id → period ≠ 0
  | .stop other | .remove other => other ≠ id
  | .reset => False
  | _ => True

/-- However many entries it may handle, an advance does not end. -/
def System.NeverEnds (react : Reaction H D W) (system : System H D W) : Prop :=
  ∀ fuel, tryAdvance react fuel system = none

/-- An advance goes on, and something is due in it. -/
structure Moment.Due (moment : Moment H D) : Prop where
  valid : moment.Valid
  paced : moment.Paced
  due : ∃ arming turn, moment.scheduler.Queued arming turn ∧
    arming.expiry ≤ moment.scheduler.tick

private theorem Moment.Due.pops {scheduler : Scheduler H D}
    (due : (⟨.between, scheduler⟩ : Moment H D).Due) :
    ∃ arming turn popped, scheduler.popDue? = some (arming, turn, popped) := by
  obtain ⟨valid, _, arming, turn, queued, come⟩ := due
  cases popped : scheduler.popDue? with
  | some taken => exact ⟨_, _, _, rfl⟩
  | none => exact absurd come (UInt64.not_le.mpr (valid.tied.popDue?_none popped queued))

namespace System

section Loop

variable {react : Reaction H D W} (holds : System H D W → Prop)
  (due : ∀ {system}, holds system → (⟨.between, system.scheduler⟩ : Moment H D).Due)
  (kept : ∀ {nested system firing begun body ended handler data},
    Handles react nested system firing begun body ended handler data → holds system →
    holds (ended.settled firing handler data))

include due kept

private theorem drain_never {nested fuel : Nat} {system : System H D W} (start : holds system) :
    drain react (tryAdvance react nested) fuel system = none := by
  induction fuel generalizing system with
  | zero =>
    obtain ⟨arming, turn, popped, pops⟩ := (due start).pops
    exact drain_of_spent pops
  | succ fuel ih =>
    obtain ⟨arming, turn, popped, pops⟩ := (due start).pops
    obtain ⟨firing, _, _, ended, handler, data, _, _, handles, dispatched⟩ :=
      dispatch_handles react nested (due start).valid (due start).paced pops
    rw [drain_of_due pops, dispatched, Option.bind_some]
    dsimp only
    rw [ih (kept handles start)]
    rfl

private theorem never_ends_of_begun {system : System H D W} {begun : Scheduler H D}
    (begins : system.scheduler.beginAdvance = .ok begun)
    (start : holds { system with scheduler := begun }) : system.NeverEnds react := by
  intro fuel
  cases fuel with
  | zero => exact tryAdvance_of_spent begins
  | succ fuel =>
    rw [tryAdvance_of_begins begins, drain_never holds due kept start]
    rfl

end Loop

end System

/-- At the last tick a timer that repeats is on the schedule, or its handler is running. -/
structure Moment.Stuck (moment : Moment H D) (id : TimerId) : Prop where
  valid : moment.Valid
  paced : moment.Paced
  tick : moment.scheduler.tick = .last
  repeats : ∃ timer, moment.scheduler.timer? id = some timer ∧ timer.period ≠ 0 ∧
    (timer.phase = .scheduled ∨ timer.phase = .firing ∧ moment.place.running? = some id)

section Stuck

variable {action : Action H D} {before after : Moment H D} {id : TimerId}

private theorem Revised.sustains {before after : Scheduler H D} {given : Command H D}
    (revised : Revised before after given) (sustains : given.Sustains id) {timer : Timer H D}
    (found : before.timer? id = some timer) (repeats : timer.period ≠ 0) :
    ∃ later, after.timer? id = some later ∧ later.period ≠ 0 ∧
      (later.phase = .scheduled ∨ later.phase = timer.phase) := by
  cases revised with
  | entered fresh timers =>
    refine ⟨timer, ?_, repeats, .inr rfl⟩
    rw [timers, if_neg, found]
    rintro rfl
    cases fresh.symm.trans found
  | @rewritten _ other old later present rewrites timers =>
    by_cases same : id = other
    · subst same
      cases present.symm.trans found
      refine ⟨later, by rw [timers, if_pos rfl], ?_⟩
      cases rewrites with
      | start =>
        obtain ⟨periodic, delayed⟩ := sustains rfl
        exact ⟨by simpa [periodic] using delayed, .inl rfl⟩
      | stop => exact absurd rfl sustains
      | setPeriod => exact ⟨sustains rfl, .inr rfl⟩
      | rebind | modifyData => exact ⟨repeats, .inr rfl⟩
    · exact ⟨timer, by rw [timers, if_neg same, found], repeats, .inr rfl⟩
  | missing _ _ same => exact ⟨timer, same ▸ found, repeats, .inr rfl⟩
  | thinned thins timers =>
    have kept : given.drops before id = false := by
      cases given with
      | remove other =>
        have apart : other ≠ id := sustains
        simp [Command.drops, apart]
      | reset => exact sustains.elim
      | _ => cases thins
    exact ⟨timer, by rw [timers, kept, found]; rfl, repeats, .inr rfl⟩
  | fed _ same => exact ⟨timer, by rw [Scheduler.timer?, same]; exact found, repeats, .inr rfl⟩

private theorem Transition.stuck (step : Transition action before after)
    (within : Step.Within (Command.Sustains id) ⟨before, action, after⟩)
    (stuck : before.Stuck id) : after.Stuck id := by
  obtain ⟨valid, paced, ended, timer, found, repeats, pending⟩ := stuck
  have tick : after.scheduler.tick = .last := by
    rw [step.tick, ← ended]
    cases action with
    | command given =>
      cases given with
      | reset => exact within.elim
      | _ => rfl
    | dispatch | settle => rfl
    | beginAdvance | endAdvance => exact within.elim
  refine ⟨step.valid valid, step.paced paced, tick, ?_⟩
  cases step with
  | command given awake =>
    obtain ⟨later, found', repeats', phase⟩ :=
      (Scheduler.perform_revises valid.tied given).sustains within found repeats
    refine ⟨later, found', repeats', ?_⟩
    rcases phase with scheduled | same
    · exact .inl scheduled
    · rwa [same]
  | @dispatch scheduler popped lent arming turn given due taken =>
    obtain ⟨old, takes⟩ := valid.dispatch_takes due taken
    by_cases same : id = arming.timer
    · subst same
      cases takes.found.symm.trans found
      exact ⟨_, (takes.timers _).trans (if_pos rfl), repeats, .inr ⟨rfl, rfl⟩⟩
    · refine ⟨timer, (takes.timers id).trans ((if_neg same).trans found), repeats, ?_⟩
      rcases pending with scheduled | ⟨_, running⟩
      · exact .inl scheduled
      · cases running
  | skip due refused => exact absurd refused (valid.not_skipped due)
  | @settle firing scheduler handler data =>
    by_cases same : id = firing.timer
    · subst same
      obtain ⟨later, found', phase, _, period⟩ :=
        Scheduler.settle_record found firing.tick handler data
      refine ⟨later, found', by rwa [period], .inl ?_⟩
      rw [phase]
      rcases pending with scheduled | ⟨marked, _⟩
      · simp [Timer.ended, scheduled]
      · simp [Timer.ended, marked, repeats, Timer.started]
    · refine ⟨timer, (Scheduler.timer?_settle_of_ne same _ _ _).trans found, repeats, ?_⟩
      rcases pending with scheduled | ⟨_, running⟩
      · exact .inl scheduled
      · exact absurd (Option.some.inj running).symm same
  | beginAdvance | endAdvance => exact within.elim

private theorem Moment.Stuck.due {scheduler : Scheduler H D}
    (stuck : (⟨.between, scheduler⟩ : Moment H D).Stuck id) :
    (⟨.between, scheduler⟩ : Moment H D).Due := by
  obtain ⟨valid, paced, ended, timer, found, _, pending⟩ := stuck
  have scheduled : timer.phase = .scheduled := by
    rcases pending with scheduled | ⟨_, running⟩
    · exact scheduled
    · cases running
  obtain ⟨turn, queued⟩ := valid.tied.queued found ((valid.tied.phase found).mpr scheduled)
  refine ⟨valid, paced, _, turn, queued, ?_⟩
  rw [ended, UInt64.le_iff_toNat_le]
  exact Tick.toNat_le_last timer.expiry

namespace System

variable {react : Reaction H D W} {system : System H D W}

/-- The advance to the last tick never ends, if a timer that repeats is on the schedule and no
handler takes it off. -/
theorem never_ends (valid : (⟨.outside, system.scheduler⟩ : Moment H D).Valid)
    (paced : (⟨.outside, system.scheduler⟩ : Moment H D).Paced)
    (next : system.scheduler.tick.next? = some .last) {timer : Timer H D}
    (found : system.scheduler.timer? id = some timer) (scheduled : timer.phase = .scheduled)
    (repeats : timer.period ≠ 0) (makes : react.Makes (Command.Sustains id)) :
    system.NeverEnds react := by
  have idle : system.scheduler.dispatching = false := paced.idle rfl
  have begins : system.scheduler.beginAdvance =
      .ok { system.scheduler with tick := .last, dispatching := true } := by
    simp [Scheduler.beginAdvance, idle, next]
  have step : Transition .beginAdvance ⟨.outside, system.scheduler⟩
      ⟨.between, { system.scheduler with tick := .last, dispatching := true }⟩ :=
    .beginAdvance begins
  have stuck : (⟨.between, { system.scheduler with tick := .last, dispatching := true }⟩ :
      Moment H D).Stuck id :=
    ⟨step.valid valid, step.paced paced, rfl, timer, found, repeats, .inl scheduled⟩
  apply never_ends_of_begun (fun system => (⟨.between, system.scheduler⟩ : Moment H D).Stuck id)
    Moment.Stuck.due _ begins stuck
  intro nested system firing begun body ended handler data handles stuck
  obtain ⟨_, run, _, within⟩ := handles.run makes
  exact run.keeps_along Transition.stuck within stuck

end System

end Stuck

section Restarting

variable {system begun ended : System H D W} {nested : Nat} {firing : Firing}
  {body : List (Step H D)} {handler : H} {data : D}

end Restarting

end Timers
