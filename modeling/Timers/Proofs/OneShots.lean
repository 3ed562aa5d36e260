import Timers.Proofs.Backlog

/-! Where nobody repeats. If no timer on the schedule has a period and the handlers start none, no
entry is added, so that an advance to any tick ends, the last one included. -/

namespace Timers

variable {H D W : Type}

/-- A command that starts no timer and lets none repeat. -/
def Command.Calms : Command H D → Prop
  | .start .. => False
  | .setPeriod _ period => period = 0
  | _ => True

/-- A timer that is on the schedule, or whose handler may put it back there when it ends. -/
def Timer.Engaged (timer : Timer H D) : Prop := timer.phase = .scheduled ∨ timer.phase = .firing

/-- Nobody on the schedule repeats, and neither does the timer whose handler is running. -/
def Scheduler.Calm (scheduler : Scheduler H D) : Prop :=
  ∀ id timer, scheduler.timer? id = some timer → timer.Engaged → timer.period = 0

section Calm

variable {action : Action H D} {before after : Moment H D}

private theorem Command.Rewrites.engaged {tick : Tick} {timer later : Timer H D}
    {given : Command H D}
    {id : TimerId} (rewrites : given.Rewrites tick timer id later) (calms : given.Calms)
    (engaged : later.Engaged) : timer.Engaged ∧ (timer.period = 0 → later.period = 0) := by
  cases rewrites with
  | start => exact calms.elim
  | stop =>
    by_cases halts : (timer.node.isSome || timer.phase == .firing) = true
    · simp [Timer.Engaged, halts] at engaged
    · rw [if_neg halts] at engaged
      exact ⟨engaged, fun once => once⟩
  | rebind | modifyData => exact ⟨engaged, fun once => once⟩
  | setPeriod => exact ⟨engaged, fun _ => calms⟩

private theorem Scheduler.Calm.perform {scheduler : Scheduler H D} (calm : scheduler.Calm)
    (tied : scheduler.Tied) {given : Command H D} (calms : given.Calms) :
    (scheduler.perform given).2.Calm := by
  have revised := perform_revises tied given
  generalize (scheduler.perform given).2 = after at revised ⊢
  intro id timer found engaged
  cases revised with
  | entered fresh timers =>
    rw [timers] at found
    split at found
    · cases found
      rcases engaged with phase | phase <;> cases phase
    · exact calm id timer found engaged
  | rewritten present rewrites timers =>
    rw [timers] at found
    split at found
    next same =>
      cases found
      obtain ⟨engaged, kept⟩ := rewrites.engaged calms engaged
      exact kept (calm _ _ present engaged)
    next => exact calm id timer found engaged
  | missing _ _ same => exact calm id timer (same ▸ found) engaged
  | thinned _ timers =>
    rw [timers] at found
    split at found
    · cases found
    · exact calm id timer found engaged
  | fed _ same =>
    rw [timer?, same] at found
    exact calm id timer found engaged

private theorem Scheduler.Calm.settle {scheduler : Scheduler H D} (calm : scheduler.Calm)
    (id : TimerId)
    (tick : Tick) (handler : H) (data : D) : (scheduler.settle id tick handler data).Calm := by
  intro other later found engaged
  by_cases same : other = id
  · subst same
    cases present : scheduler.timer? other with
    | none =>
      rw [settle_of_absent present] at found
      cases present.symm.trans found
    | some timer =>
      obtain ⟨_, found', phase, _, period⟩ := settle_record present tick handler data
      cases found.symm.trans found'
      rw [period]
      apply calm other timer present
      by_cases firing : timer.phase = .firing
      · exact .inr firing
      · have ended : timer.ended = timer := by simp [Timer.ended, firing]
        rwa [Timer.Engaged, phase, ended] at engaged
  · rw [timer?_settle_of_ne same] at found
    exact calm other later found engaged

private theorem Transition.calm (step : Transition action before after)
    (within : Step.Within Command.Calms ⟨before, action, after⟩)
    (calm : before.Valid ∧ before.scheduler.Calm) : after.Valid ∧ after.scheduler.Calm := by
  obtain ⟨valid, calm⟩ := calm
  refine ⟨step.valid valid, ?_⟩
  cases step with
  | command given awake => exact calm.perform valid.tied within
  | @dispatch scheduler popped lent arming turn given due taken =>
    obtain ⟨timer, takes⟩ := valid.dispatch_takes due taken
    intro id later found engaged
    rw [takes.timers] at found
    split at found
    next same =>
      cases found
      obtain ⟨_, held⟩ := takes.queued
      obtain ⟨_, found, node, _⟩ := valid.tied.entry held
      cases takes.found.symm.trans found
      exact calm _ timer takes.found (.inl ((valid.tied.phase found).mp (by rw [node]; rfl)))
    next => exact calm id later found engaged
  | skip due refused => exact absurd refused (valid.not_skipped due)
  | settle handler data => exact calm.settle _ _ handler data
  | beginAdvance | endAdvance => exact within.elim

/-- Nobody is armed again, so every handler that runs leaves one entry less. -/
theorem Transition.spends (step : Transition action before after)
    (within : Step.Within Command.Calms ⟨before, action, after⟩)
    (calm : before.Valid ∧ before.scheduler.Calm) :
    after.scheduler.load (fun _ => 1) + (Step.firing? ⟨before, action, after⟩).toList.length ≤
      before.scheduler.load fun _ => 1 := by
  obtain ⟨valid, calm⟩ := calm
  cases step with
  | @command place scheduler given awake =>
    rw [Step.firing?_command]
    have effect := Scheduler.perform_effect valid.tied given
    have nothing : given.starts? scheduler = none := by
      cases given with
      | start => exact within.elim
      | _ => rfl
    rw [nothing] at effect
    simpa using effect.load_le valid.tied fun _ => 1
  | @dispatch scheduler popped lent arming turn given due taken =>
    obtain ⟨timer, takes⟩ := valid.dispatch_takes due taken
    rw [Nat.add_comm]
    exact takes.load_le valid.tied fun _ => 1
  | skip due refused => exact absurd refused (valid.not_skipped due)
  | @settle firing scheduler handler data =>
    have effect := Scheduler.settle_effect valid.tied firing.timer firing.tick handler data
    have nothing : scheduler.again? firing.timer = none := by
      apply Option.eq_none_iff_forall_ne_some.mpr
      intro expiry again
      obtain ⟨timer, found, phase, periodic, _⟩ := Scheduler.again?_eq_some again
      exact periodic (calm _ timer found (.inr phase))
    rw [nothing] at effect
    simpa [Step.firing?] using effect.load_le valid.tied fun _ => 1
  | beginAdvance | endAdvance => exact within.elim

/-- An advance ends where nobody repeats, if nobody starts a timer. -/
theorem System.ends_where_calm {react : Reaction H D W} {system : System H D W}
    (valid : (⟨.outside, system.scheduler⟩ : Moment H D).Valid)
    (paced : (⟨.outside, system.scheduler⟩ : Moment H D).Paced) (calm : system.scheduler.Calm)
    (makes : react.Makes Command.Calms) :
    system.EndsWithin react system.scheduler.scheduledCount := by
  apply ends_of_bounded valid paced makes
  intro begun steps last begins run within
  have step : Transition .beginAdvance ⟨.outside, system.scheduler⟩ ⟨.between, begun⟩ :=
    .beginAdvance begins
  obtain ⟨_, tick, _, rfl⟩ := Scheduler.beginAdvance_eq begins
  have spent := run.firings_le Transition.calm Transition.spends within ⟨step.valid valid, calm⟩
  have few : system.scheduler.load (fun _ => 1) ≤ 1 * system.scheduler.scheduledCount :=
    Scheduler.load_le_scheduledCount valid.tied fun _ _ _ => Nat.le_refl 1
  rw [Nat.one_mul] at few
  exact Nat.le_trans (Nat.le_trans (Nat.le_add_left _ _) spent) few

end Calm

end Timers
