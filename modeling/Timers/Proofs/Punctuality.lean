import Timers.Proofs.Schedule

/-! Handlers run on time. Outside of advances nothing on the schedule is overdue, and each advance
moves the tick on by one, so that no handler begins to run more than one tick after its timer was
due. That it can be one tick late is for timers that are started without a delay. -/

namespace Timers

variable {H D : Type} {action : Action H D} {before after first last : Moment H D}
  {steps : List (Step H D)}

/-- Nothing is overdue, and during an advance by one tick at most. Neither is the timer whose
handler runs, even if the tick is set back meanwhile. -/
structure Moment.Punctual (moment : Moment H D) : Prop where
  home : moment.scheduler.initialTick ≤ moment.scheduler.tick
  outside : moment.place = .outside → ∀ arming turn, moment.scheduler.Queued arming turn →
    moment.scheduler.tick ≤ arming.expiry
  during : ∀ arming turn, moment.scheduler.Queued arming turn →
    moment.scheduler.tick.toNat ≤ arming.expiry.toNat + 1
  running : ∀ firing, moment.place = .inside firing →
    moment.scheduler.tick ≤ firing.tick ∧ firing.tick.toNat ≤ firing.expiry.toNat + 1

theorem Moment.Punctual.ofConfig (config : Config) :
    (Moment.ofConfig config : Moment H D).Punctual where
  home := UInt64.le_refl _
  outside := fun _ arming turn queued => absurd queued (Scheduler.not_queued_ofConfig config arming turn)
  during := fun arming turn queued => absurd queued (Scheduler.not_queued_ofConfig config arming turn)
  running := by
    intro firing inside
    cases inside

private theorem Moment.Punctual.reset {place : Place} {scheduler : Scheduler H D}
    (punctual : (⟨place, scheduler⟩ : Moment H D).Punctual) :
    (⟨place, scheduler.reset⟩ : Moment H D).Punctual := by
  have vacant : ∀ arming turn, ¬ scheduler.reset.Queued arming turn := by
    intro arming turn queued
    simpa using (scheduler.reset_effect.queued arming turn).mp queued
  refine ⟨UInt64.le_refl _, ?_, ?_, ?_⟩
  · exact fun _ arming turn queued => absurd queued (vacant arming turn)
  · exact fun arming turn queued => absurd queued (vacant arming turn)
  · intro firing inside
    obtain ⟨back, late⟩ := punctual.running firing inside
    exact ⟨UInt64.le_trans punctual.home back, late⟩

namespace Transition

/-- What is on the schedule after a step was on it before, or it has been armed for a time that is
not past, or for one that is not before its timer was due last. -/
private theorem queued_cases (step : Transition action before after) (valid : before.Valid)
    {arming : Arming} {turn : UInt64} (queued : after.scheduler.Queued arming turn) :
    before.scheduler.Queued arming turn ∨
      (after.place = .outside ↔ before.place = .outside) ∧
      (before.scheduler.tick ≤ arming.expiry ∨
        ∃ firing, before.place = .inside firing ∧ firing.expiry ≤ arming.expiry) := by
  rcases ((step.effect valid).queued arming turn).mp queued with ⟨old, _⟩ | ⟨arms, _⟩
  · exact .inl old
  · obtain ⟨place, _, ahead⟩ := step.arming_ahead valid arms
    exact .inr ⟨place, ahead⟩

private theorem fires_punctual (step : Transition action before after) (valid : before.Valid)
    (punctual : before.Punctual) {firing : Firing}
    (fires : Step.firing? ⟨before, action, after⟩ = some firing) :
    firing.tick = before.scheduler.tick ∧ firing.tick.toNat ≤ firing.expiry.toNat + 1 := by
  obtain ⟨_, _, tick, _, queued, _⟩ := step.firing valid fires
  exact ⟨tick, tick ▸ punctual.during _ _ queued⟩

private theorem punctual_begins (step : Transition action before after) (valid : before.Valid)
    (punctual : before.Punctual) (outside : before.place = .outside)
    (between : after.place = .between)
    (tick : after.scheduler.tick.toNat = before.scheduler.tick.toNat + 1) : after.Punctual where
  home := by
    have home := punctual.home
    rw [UInt64.le_iff_toNat_le] at home ⊢
    rw [step.configured.1, tick]
    omega
  outside := by
    intro ended
    rw [ended] at between
    cases between
  during := by
    intro arming turn queued
    have old := (step.queued_cases valid queued).resolve_right fun armed => by
      have contrary := armed.1.mpr outside
      rw [between] at contrary
      cases contrary
    have ahead := punctual.outside outside arming turn old
    rw [UInt64.le_iff_toNat_le] at ahead
    omega
  running := by
    intro firing inside
    rw [between] at inside
    cases inside

private theorem punctual_ends (step : Transition action before after) (valid : before.Valid)
    (punctual : before.Punctual) (between : before.place = .between)
    (outside : after.place = .outside) (tick : after.scheduler.tick = before.scheduler.tick)
    (finished : before.scheduler.popDue? = none) : after.Punctual := by
  have ahead : ∀ arming turn, after.scheduler.Queued arming turn →
      after.scheduler.tick < arming.expiry := by
    intro arming turn queued
    have old := (step.queued_cases valid queued).resolve_right fun armed => by
      have contrary := armed.1.mp outside
      rw [between] at contrary
      cases contrary
    rw [tick]
    exact valid.tied.popDue?_none finished old
  refine ⟨?_, fun _ arming turn queued => UInt64.le_of_lt (ahead arming turn queued), ?_, ?_⟩
  · rw [step.configured.1, tick]
    exact punctual.home
  · intro arming turn queued
    have later := ahead arming turn queued
    rw [UInt64.lt_iff_toNat_lt] at later
    omega
  · intro firing inside
    rw [outside] at inside
    cases inside

private theorem punctual_stays (step : Transition action before after) (valid : before.Valid)
    (punctual : before.Punctual) (place : after.place = .outside ↔ before.place = .outside)
    (tick : after.scheduler.tick = before.scheduler.tick) : after.Punctual where
  home := by
    rw [step.configured.1, tick]
    exact punctual.home
  outside := by
    intro outside arming turn queued
    have home := place.mp outside
    rw [tick]
    rcases step.queued_cases valid queued with old | ⟨_, ahead | ⟨firing, inside, _⟩⟩
    · exact punctual.outside home arming turn old
    · exact ahead
    · rw [home] at inside
      cases inside
  during := by
    intro arming turn queued
    rw [tick]
    rcases step.queued_cases valid queued with old | ⟨_, ahead | ⟨firing, inside, ahead⟩⟩
    · exact punctual.during arming turn old
    · rw [UInt64.le_iff_toNat_le] at ahead
      omega
    · obtain ⟨back, late⟩ := punctual.running firing inside
      rw [UInt64.le_iff_toNat_le] at back ahead
      omega
  running := by
    intro firing inside
    rw [tick]
    rcases step.inside_cases inside with fires | ⟨already, _⟩
    · obtain ⟨began, late⟩ := step.fires_punctual valid punctual fires
      exact ⟨UInt64.le_of_eq began.symm, late⟩
    · exact punctual.running firing already

theorem punctual (step : Transition action before after) (valid : before.Valid)
    (punctual : before.Punctual) : after.Punctual := by
  by_cases resets : Step.resets ⟨before, action, after⟩ = true
  · cases step with
    | command given awake =>
      cases given with
      | reset => exact punctual.reset
      | _ => cases resets
    | beginAdvance | dispatch | skip | settle | endAdvance => cases resets
  · rcases step.clock (Bool.eq_false_iff.mpr resets) with
      ⟨outside, between, tick⟩ | ⟨between, outside, tick, finished⟩ | ⟨place, tick⟩
    · exact step.punctual_begins valid punctual outside between tick
    · exact step.punctual_ends valid punctual between outside tick finished
    · exact step.punctual_stays valid punctual place tick

end Transition

theorem Run.punctual (run : Run first steps last) (valid : first.Valid)
    (punctual : first.Punctual) : last.Punctual :=
  run.keeps_valid (fun step valid _ punctual => step.punctual valid punctual) valid
    (fun _ _ => trivial) punctual

/-- A timer that is armed again by the end of its handler is not due before the tick at which the
handler began. -/
theorem Moment.Punctual.again {firing : Firing} {scheduler : Scheduler H D} {timer : Timer H D}
    (punctual : (⟨.inside firing, scheduler⟩ : Moment H D).Punctual)
    (valid : (⟨.inside firing, scheduler⟩ : Moment H D).Valid)
    (found : scheduler.timer? firing.timer = some timer) (phase : timer.phase = .firing)
    (periodic : timer.period ≠ 0) : firing.tick ≤ timer.expiry.after timer.period := by
  obtain ⟨_, late⟩ := punctual.running firing rfl
  have positive : timer.period.toNat ≠ 0 := fun zero => periodic (UInt64.toNat_inj.mp zero)
  have bound := Tick.toNat_le_last firing.tick
  rw [UInt64.le_iff_toNat_le, Tick.toNat_after, valid.running firing timer rfl found phase]
  omega

end Timers
