import Timers.Proofs.Schedule

/-! The order of all firings. Nothing that comes onto the schedule can be due before what has
fired, since nothing is armed for a time that is past and turns only grow. So firings come in
the order of their armings' expiries, and armings with the same expiry fire in the order in
which they were made. -/

namespace Timers

variable {H D W α : Type} {action : Action H D} {before after first last : Moment H D}
  {past steps : List (Step H D)}

/-- A firing comes before whatever is armed for a later tick, or for the same tick at a later
turn. -/
def Firing.Precedes (firing : Firing) (arming : Arming) (turn : UInt64) : Prop :=
  firing.expiry < arming.expiry ∨ firing.expiry = arming.expiry ∧ firing.turn < turn

/-- What the past says of a moment. Turns are numbers of armings; what has fired comes before
what is on the schedule, and its time had come. -/
structure Chronicle (past : List (Step H D)) (moment : Moment H D) : Prop where
  numbered : moment.scheduler.queue.nextTurn.toNat = (armings past).length
  queued : ∀ arming turn, moment.scheduler.Queued arming turn →
    (armings past)[turn.toNat]? = some arming
  issued : ∀ firing ∈ firings past,
    (armings past)[firing.turn.toNat]? = some ⟨firing.expiry, firing.timer⟩
  ahead : ∀ firing ∈ firings past, ∀ arming turn, moment.scheduler.Queued arming turn →
    firing.Precedes arming turn
  reached : ∀ firing ∈ firings past, firing.expiry ≤ moment.scheduler.tick
  running : ∀ current, moment.place = .inside current →
    ∀ firing ∈ firings past, firing.expiry ≤ current.expiry
  ordered : (firings past).Pairwise fun firing next =>
    firing.Precedes ⟨next.expiry, next.timer⟩ next.turn

namespace Chronicle

private theorem ofConfig (config : Config) :
    Chronicle ([] : List (Step H D)) (.ofConfig config) where
  numbered := rfl
  queued := fun arming turn queued =>
    absurd queued (Scheduler.not_queued_ofConfig config arming turn)
  issued := by simp [firings]
  ahead := by simp [firings]
  reached := by simp [firings]
  running := by simp [firings]
  ordered := .nil

private theorem turn_lt (chronicle : Chronicle past before) {firing : Firing}
    (fired : firing ∈ firings past) : firing.turn < before.scheduler.queue.nextTurn := by
  have listed := chronicle.issued firing fired
  rw [UInt64.lt_iff_toNat_lt, chronicle.numbered]
  exact (List.getElem?_eq_some_iff.mp listed).1

end Chronicle

namespace Transition

private theorem arming_follows (step : Transition action before after) (valid : before.Valid)
    (chronicle : Chronicle past before) {arming : Arming}
    (arms : Step.arming? ⟨before, action, after⟩ = some arming) {firing : Firing}
    (fired : firing ∈ firings past) :
    firing.Precedes arming before.scheduler.queue.nextTurn := by
  have turn := chronicle.turn_lt fired
  have reached := chronicle.reached firing fired
  obtain ⟨_, _, due⟩ := step.arming_ahead valid arms
  have later : firing.expiry ≤ arming.expiry := by
    rcases due with ahead | ⟨current, inside, ahead⟩
    · exact UInt64.le_trans reached ahead
    · exact UInt64.le_trans (chronicle.running current inside firing fired) ahead
  rcases UInt64.lt_or_eq_of_le later with less | same
  · exact .inl less
  · exact .inr ⟨same, turn⟩

private theorem firing_precedes (step : Transition action before after) (valid : before.Valid)
    (chronicle : Chronicle past before) {firing : Firing}
    (fires : Step.firing? ⟨before, action, after⟩ = some firing) {arming : Arming} {turn : UInt64}
    (queued : after.scheduler.Queued arming turn) : firing.Precedes arming turn := by
  obtain ⟨_, _, _, _, front, least⟩ := step.firing valid fires
  rcases ((step.effect valid).queued arming turn).mp queued with ⟨left, kept⟩ | ⟨arms, _⟩
  · rcases least arming turn left with less | ⟨same, turns⟩
    · exact .inl less
    · refine .inr ⟨same, ?_⟩
      rcases UInt64.lt_or_eq_of_le turns with less | equal
      · exact less
      · -- Equal turns are one arming, whose timer is the one that has left the schedule.
        subst equal
        have listed := chronicle.queued _ _ front
        rw [chronicle.queued _ _ left] at listed
        cases listed
        exact absurd (.inr (Step.fires_iff.mpr ⟨firing, fires, rfl⟩)) kept
  · rw [step.arming?_of_firing fires] at arms
    cases arms

theorem numbered (step : Transition action before after) (valid : before.Valid)
    (numbered : before.scheduler.queue.nextTurn.toNat = (armings past).length)
    (few : (armings (past ++ [⟨before, action, after⟩])).length < UInt64.size) :
    after.scheduler.queue.nextTurn.toNat =
      (armings (past ++ [⟨before, action, after⟩])).length := by
  rw [armings_snoc, List.length_append] at few ⊢
  rw [(step.effect valid).turn, UInt64.toNat_add, numbered]
  cases arms : Step.arming? ⟨before, action, after⟩ with
  | none =>
    rw [arms] at few
    simpa using Nat.mod_eq_of_lt few
  | some arming =>
    rw [arms] at few
    simpa using Nat.mod_eq_of_lt few

private theorem forward (step : Transition action before after)
    (kept : Step.resets ⟨before, action, after⟩ = false) :
    before.scheduler.tick ≤ after.scheduler.tick := by
  rw [UInt64.le_iff_toNat_le]
  rcases step.clock kept with ⟨_, _, tick⟩ | ⟨_, _, tick, _⟩ | ⟨_, tick⟩
  · omega
  · exact Nat.le_of_eq (congrArg UInt64.toNat tick.symm)
  · exact Nat.le_of_eq (congrArg UInt64.toNat tick.symm)

/-- Nothing has fired that is due later than what is running. -/
private theorem running (step : Transition action before after) (valid : before.Valid)
    (chronicle : Chronicle past before) {current firing : Firing}
    (inside : after.place = .inside current)
    (fired : firing ∈ firings past ∨ Step.firing? ⟨before, action, after⟩ = some firing) :
    firing.expiry ≤ current.expiry := by
  rcases step.inside_cases inside with begins | ⟨already, nothing⟩
  · rcases fired with old | fires
    · obtain ⟨_, _, _, _, front, _⟩ := step.firing valid begins
      rcases chronicle.ahead firing old _ _ front with less | ⟨same, _⟩
      · exact UInt64.le_of_lt less
      · exact UInt64.le_of_eq same
    · rw [begins] at fires
      cases fires
      exact UInt64.le_refl _
  · rcases fired with old | fires
    · exact chronicle.running current already firing old
    · rw [nothing] at fires
      cases fires

private theorem chronicle (step : Transition action before after) (valid : before.Valid)
    (kept : Step.resets ⟨before, action, after⟩ = false) (chronicle : Chronicle past before)
    (few : (armings (past ++ [⟨before, action, after⟩])).length < UInt64.size) :
    Chronicle (past ++ [⟨before, action, after⟩]) after := by
  have effect := step.effect valid
  have listed : ∀ {index : Nat} {arming}, (armings past)[index]? = some arming →
      (armings (past ++ [⟨before, action, after⟩]))[index]? = some arming := by
    intro index arming held
    rw [armings_snoc, List.getElem?_append_left (List.getElem?_eq_some_iff.mp held).1, held]
  have fired : ∀ {firing}, firing ∈ firings (past ++ [⟨before, action, after⟩]) →
      firing ∈ firings past ∨ Step.firing? ⟨before, action, after⟩ = some firing := by
    intro firing member
    rw [firings_append, firings_cons] at member
    simpa [firings] using member
  refine ⟨step.numbered valid chronicle.numbered few, ?_, ?_, ?_, ?_, ?_, ?_⟩
  · intro arming turn queued
    rcases (effect.queued arming turn).mp queued with ⟨old, _⟩ | ⟨arms, rfl⟩
    · exact listed (chronicle.queued arming turn old)
    · rw [armings_snoc, arms, chronicle.numbered]
      simp
  · intro firing member
    rcases fired member with old | fires
    · exact listed (chronicle.issued firing old)
    · obtain ⟨_, _, _, _, front, _⟩ := step.firing valid fires
      exact listed (chronicle.queued _ _ front)
  · intro firing member arming turn queued
    rcases fired member with old | fires
    · rcases (effect.queued arming turn).mp queued with ⟨left, _⟩ | ⟨arms, rfl⟩
      · exact chronicle.ahead firing old arming turn left
      · exact step.arming_follows valid chronicle arms old
    · exact step.firing_precedes valid chronicle fires queued
  · intro firing member
    have forward := step.forward kept
    rcases fired member with old | fires
    · exact UInt64.le_trans (chronicle.reached firing old) forward
    · obtain ⟨_, _, _, due, _⟩ := step.firing valid fires
      exact UInt64.le_trans due forward
  · exact fun current inside firing member => step.running valid chronicle inside (fired member)
  · rw [firings_append, firings_cons, List.pairwise_append]
    refine ⟨chronicle.ordered, ?_, ?_⟩
    · cases Step.firing? ⟨before, action, after⟩ <;> simp [firings]
    · intro firing old next begun
      have fires : Step.firing? ⟨before, action, after⟩ = some next := by
        simpa [firings] using begun
      obtain ⟨_, _, _, _, front, _⟩ := step.firing valid fires
      exact chronicle.ahead firing old _ _ front

end Transition

theorem Run.numbered (run : Run first steps last) (valid : first.Valid)
    (numbered : first.scheduler.queue.nextTurn.toNat = (armings past).length)
    (few : (armings (past ++ steps)).length < UInt64.size) :
    last.scheduler.queue.nextTurn.toNat = (armings (past ++ steps)).length :=
  run.extends_history (fun step valid _ few numbered => step.numbered valid numbered few) valid
    (fun _ _ => trivial) few numbered

theorem Run.chronicle (run : Run first steps last) (valid : first.Valid)
    (chronicle : Chronicle past first) (kept : ∀ step ∈ steps, step.resets = false)
    (few : (armings (past ++ steps)).length < UInt64.size) : Chronicle (past ++ steps) last :=
  run.extends_history
    (fun step valid now few chronicle => step.chronicle valid now chronicle few) valid kept few
    chronicle

private theorem Run.in_order {config : Config} (run : Run (.ofConfig config) steps last)
    (kept : ∀ step ∈ steps, step.resets = false) (few : (armings steps).length < UInt64.size) :
    ((firings steps).Pairwise fun firing next =>
      firing.expiry < next.expiry ∨ firing.expiry = next.expiry ∧ firing.turn < next.turn) ∧
    ∀ firing ∈ firings steps,
      (armings steps)[firing.turn.toNat]? = some ⟨firing.expiry, firing.timer⟩ := by
  have chronicle : Chronicle steps last :=
    run.chronicle (.ofConfig config) (.ofConfig config) kept (by simpa using few)
  exact ⟨chronicle.ordered, chronicle.issued⟩

/-- A program that ends is told of handlers in the order of the expiries of their armings and then
of the numbers of these, by all its advances together. -/
theorem System.tells_in_order {config : Config} {shared : W} {react : Reaction H D W} {fuel : Nat}
    {program : Program H D W α} {value : α} {final : System H D W}
    (finished : System.run ⟨.ofConfig config, shared⟩ react fuel program = some (value, final))
    (kept : ∀ step ∈ System.steps ⟨.ofConfig config, shared⟩ react fuel program,
      step.resets = false)
    (few : (armings (System.steps ⟨.ofConfig config, shared⟩ react fuel program)).length <
      UInt64.size) :
    ((System.tells ⟨.ofConfig config, shared⟩ react fuel program).Pairwise fun firing next =>
      firing.expiry < next.expiry ∨ firing.expiry = next.expiry ∧ firing.turn < next.turn) ∧
    ∀ firing ∈ System.tells ⟨.ofConfig config, shared⟩ react fuel program,
      (armings (System.steps ⟨.ofConfig config, shared⟩ react fuel program))[firing.turn.toNat]? =
        some ⟨firing.expiry, firing.timer⟩ := by
  rw [← System.firings_steps finished]
  exact (System.steps_lead finished).in_order kept few

/-- In a run without a reset the firings are ordered by the expiries of their armings and then
by the numbers of these, where a firing's turn is the number of its arming. -/
theorem firings_in_order {config : Config} (run : Run (.ofConfig config) steps last)
    (kept : ∀ step ∈ steps, step.resets = false) (few : (armings steps).length < UInt64.size) :
    ((firings steps).Pairwise fun firing next =>
      firing.expiry < next.expiry ∨ firing.expiry = next.expiry ∧ firing.turn < next.turn) ∧
    ∀ firing ∈ firings steps,
      (armings steps)[firing.turn.toNat]? = some ⟨firing.expiry, firing.timer⟩ :=
  run.in_order kept few

/-- A timer with a period is due with another one, is armed again, and fires again alone. -/
theorem firings_in_order_rearmed :
    ∃ (steps : List (Step Nat Nat)) (last : Moment Nat Nat), Run (.ofConfig {}) steps last ∧
      firings steps = [⟨⟨⟨0, 0⟩⟩, 1, 1, 0⟩, ⟨⟨⟨1, 0⟩⟩, 1, 1, 1⟩, ⟨⟨⟨0, 0⟩⟩, 2, 2, 2⟩] ∧
      (firings steps).Pairwise fun firing next =>
        firing.expiry < next.expiry ∨ firing.expiry = next.expiry ∧ firing.turn < next.turn := by
  have told : ((Moment.ofConfig {} : Moment Nat Nat).run?
      [.command (.add 7 5), .command (.add 8 5), .command (.start ⟨⟨0, 0⟩⟩ 1 true),
        .command (.start ⟨⟨1, 0⟩⟩ 1 false), .beginAdvance, .dispatch, .settle 7 5, .dispatch,
        .settle 8 5, .endAdvance, .beginAdvance, .dispatch, .settle 7 5, .endAdvance]).map
      (fun made =>
        (firings made.1, (armings made.1).length, made.1.all fun step => !step.resets)) =
      some ([⟨⟨⟨0, 0⟩⟩, 1, 1, 0⟩, ⟨⟨⟨1, 0⟩⟩, 1, 1, 1⟩, ⟨⟨⟨0, 0⟩⟩, 2, 2, 2⟩], 4, true) := by
    decide +kernel
  obtain ⟨⟨steps, last⟩, made, same⟩ := Option.map_eq_some_iff.mp told
  obtain ⟨fired, count, kept⟩ := Prod.mk.inj same |>.imp_right Prod.mk.inj
  have run := Moment.run_of_run? made
  refine ⟨steps, last, run, fired, (firings_in_order run ?_ ?_).1⟩
  · intro step member
    simpa using List.all_eq_true.mp kept step member
  · rw [count]
    decide

end Timers
