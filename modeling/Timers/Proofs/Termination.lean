import Timers.Proofs.Endless
import Timers.Proofs.OneShots

/-! Which advances end. Before the last tick they all do, if nobody starts a timer without a delay.
At the last tick nothing can be armed for later, so an advance ends there if nobody repeats, and it
never ends if somebody does and is let alone. -/

namespace Timers

variable {H D W : Type}

/-- From every state that can be reached an advance ends that does not come to the last tick, if no
handler starts a timer without a delay, and it runs at most two handlers for every timer that was
scheduled. An advance to any tick ends, the last one included, if no timer that is scheduled
repeats and the handlers leave it so. But it never ends if it comes to the last tick and a timer
that repeats is scheduled there, unless a handler takes that timer off or lets it repeat no more. -/
theorem advance_ends {config : Config} {past : List (Step H D)} {system : System H D W}
    (reached : Run (.ofConfig config) past ⟨.outside, system.scheduler⟩) (react : Reaction H D W) :
    (system.scheduler.tick.next? ≠ some .last → react.Makes Command.Delays →
      system.EndsWithin react (2 * system.scheduler.scheduledCount)) ∧
    ((∀ id, system.scheduler.isScheduled id = true → system.scheduler.period? id = some 0) →
      react.Makes Command.Calms →
      system.EndsWithin react system.scheduler.scheduledCount) ∧
    ∀ id period, system.scheduler.tick.next? = some .last →
      system.scheduler.isScheduled id = true → system.scheduler.period? id = some period →
      period ≠ 0 → react.Makes (Command.Sustains id) → system.NeverEnds react := by
  have valid := reached.valid
  have paced : (⟨.outside, system.scheduler⟩ : Moment H D).Paced :=
    reached.preserves Transition.paced (.ofConfig config)
  refine ⟨?_, ?_, ?_⟩
  · intro inside makes
    have punctual := reached.punctual (.ofConfig config) (.ofConfig config)
    exact System.ends_before_last valid paced punctual inside makes
  · intro once makes
    apply System.ends_where_calm valid paced _ makes
    intro id timer found engaged
    have scheduled : timer.phase = .scheduled :=
      engaged.resolve_right (valid.whole id timer found (by simp)).phase
    have armed : system.scheduler.isScheduled id = true := by
      rw [Scheduler.isScheduled_eq, found]
      exact (valid.tied.phase found).mpr scheduled
    have period := once id armed
    rw [Scheduler.period?, Scheduler.view?, found] at period
    exact Option.some.inj period
  · intro id period next armed told repeats makes
    rw [Scheduler.isScheduled_eq] at armed
    obtain ⟨timer, found, node⟩ := (Option.any_eq_true _ _).mp armed
    rw [Scheduler.period?, Scheduler.view?, found] at told
    cases told
    exact System.never_ends valid paced next found ((valid.tied.phase found).mp node) repeats makes

/-- A timer that is started at once and given a period runs twice in one advance. One tick before
the last one an advance ends with a timer that fires once, and never with one that repeats and counts
how often it has run. -/
theorem advance_ends_but_at_last :
    let late : Config := { initialTick := Tick.last - 1 }
    let counts : Reaction Unit Nat Unit := .onData fun handler data => (handler, data + 1)
    ∃ twice once forever : System Unit Nat Unit,
      (∃ past, Run (.ofConfig {}) past ⟨.outside, twice.scheduler⟩) ∧
      (∃ past, Run (.ofConfig late) past ⟨.outside, once.scheduler⟩) ∧
      (∃ past, Run (.ofConfig late) past ⟨.outside, forever.scheduler⟩) ∧
      (∃ told final, System.tryAdvance Reaction.idle 3 twice = some (.ok told, final) ∧
        told.length = 2) ∧
      twice.EndsWithin Reaction.idle 2 ∧ once.EndsWithin Reaction.idle 1 ∧
      forever.NeverEnds counts := by
  intro late counts
  let id : TimerId := ⟨⟨0, 0⟩⟩
  have first : ((Moment.ofConfig {} : Moment Unit Nat).run?
      [.command (.add () 0), .command (.start id 0 false), .command (.setPeriod id 1)]).map
      (fun made => (made.2.place, made.2.scheduler.tick.next?, made.2.scheduler.scheduledCount,
        (System.tryAdvance Reaction.idle 3 ⟨made.2.scheduler, ()⟩).map
          (·.1.toOption.map List.length))) =
      some (.outside, some 1, 1, some (some 2)) := by decide +kernel
  have second : ((Moment.ofConfig late : Moment Unit Nat).run?
      [.command (.add () 0), .command (.start id 1 false)]).map
      (fun made => (made.2.place, made.2.scheduler.scheduledCount,
        made.2.scheduler.ids.map made.2.scheduler.period?)) =
      some (.outside, 1, [some 0]) := by decide +kernel
  have third : ((Moment.ofConfig late : Moment Unit Nat).run?
      [.command (.add () 0), .command (.start id 1 true)]).map
      (fun made => (made.2.place, made.2.scheduler.tick.next?, made.2.scheduler.isScheduled id,
        made.2.scheduler.period? id)) =
      some (.outside, some .last, true, some 1) := by decide +kernel
  obtain ⟨⟨past, ⟨place, twice⟩⟩, made, same⟩ := Option.map_eq_some_iff.mp first
  obtain ⟨⟨past', ⟨place', once⟩⟩, made', same'⟩ := Option.map_eq_some_iff.mp second
  obtain ⟨⟨past'', ⟨place'', forever⟩⟩, made'', same''⟩ := Option.map_eq_some_iff.mp third
  simp only [Prod.mk.injEq] at same same' same''
  obtain ⟨rfl, next, count, ended⟩ := same
  obtain ⟨rfl, count', periods⟩ := same'
  obtain ⟨rfl, next'', armed, period⟩ := same''
  obtain ⟨⟨reply, final⟩, finished, few⟩ := Option.map_eq_some_iff.mp ended
  obtain ⟨told, rfl, length⟩ : ∃ told, reply = .ok told ∧ told.length = 2 := by
    cases reply with
    | error => cases few
    | ok told => exact ⟨told, rfl, by simpa [Except.toOption] using few⟩
  have run := Moment.run_of_run? made
  have run' := Moment.run_of_run? made'
  have run'' := Moment.run_of_run? made''
  obtain ⟨ends, _⟩ := @advance_ends _ _ _ _ _ ⟨twice, ()⟩ run .idle
  obtain ⟨_, ends', _⟩ := @advance_ends _ _ _ _ _ ⟨once, ()⟩ run' .idle
  obtain ⟨_, _, never⟩ := @advance_ends _ _ _ _ _ ⟨forever, ()⟩ run'' counts
  have single : ∀ id, once.isScheduled id = true → once.period? id = some 0 := by
    intro id armed
    have known : (once.timer? id).isSome := by
      rw [Scheduler.isScheduled_eq] at armed
      cases found : once.timer? id with
      | some timer => rfl
      | none => simp [found] at armed
    have listed : once.period? id ∈ once.ids.map once.period? :=
      List.mem_map_of_mem (Scheduler.mem_ids_iff.mpr known)
    rw [periods] at listed
    exact List.mem_singleton.mp listed
  have idle (allowed : Command Unit Nat → Prop) :
      (Reaction.idle : Reaction Unit Nat Unit).Makes allowed := Reaction.idle_uses _
  refine ⟨⟨twice, ()⟩, ⟨once, ()⟩, ⟨forever, ()⟩, ⟨past, run⟩, ⟨past', run'⟩, ⟨past'', run''⟩,
    ⟨told, final, finished, length⟩, ?_, ?_, ?_⟩
  · have two := ends (by simp [next, Tick.last]) (idle _)
    rwa [count] at two
  · have one := ends' single (idle _)
    rwa [count'] at one
  · exact never id 1 next'' armed period (by decide) (Reaction.onData_uses _ _)

end Timers
