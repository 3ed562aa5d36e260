import Timers.Proofs.Representation

/-! What a step does to the schedule. A step arms at most one timer, which then has the next
turn; it takes off the timers that it disturbs, and the one whose handler begins to run. -/

namespace Timers

variable {H D : Type}

/-- The timer that is started by a step, or armed again at the end of its handler's run. -/
def Step.arms? (step : Step H D) : Option TimerId :=
  match step.action, step.before.place with
  | .command given, _ => given.starts? step.before.scheduler
  | .settle .., .inside firing =>
    if !step.before.scheduler.isScheduled firing.timer &&
        step.after.scheduler.isScheduled firing.timer then
      some firing.timer
    else none
  | _, _ => none

/-- The arming that is made by a step, as the timer's record tells it afterwards. -/
def Step.arming? (step : Step H D) : Option Arming := step.arms?.bind step.after.scheduler.armed?

/-- Whether a step takes a timer off the schedule or starts it anew, and is not refused. -/
def Step.disturbs (step : Step H D) (id : TimerId) : Bool :=
  match step.action with
  | .command given => given.disturbs step.before.scheduler id
  | _ => false

def Step.resets (step : Step H D) : Bool :=
  match step.action with
  | .command .reset => true
  | _ => false

def Step.fires (step : Step H D) (id : TimerId) : Bool := step.firing?.any (·.timer = id)

/-- All armings in the order in which they are made. -/
def armings (steps : List (Step H D)) : List Arming := steps.filterMap Step.arming?

def Step.Onward (step : Step H D) : Prop :=
  step.before.scheduler.queue.nextTurn ≤ step.after.scheduler.queue.nextTurn

instance (step : Step H D) : Decidable step.Onward :=
  inferInstanceAs (Decidable
    (step.before.scheduler.queue.nextTurn ≤ step.after.scheduler.queue.nextTurn))

variable {action : Action H D} {before after : Moment H D}

theorem armings_cons (step : Step H D) (steps : List (Step H D)) :
    armings (step :: steps) = step.arming?.toList ++ armings steps := by
  simp only [armings]
  rw [List.filterMap_cons]
  cases step.arming? <;> rfl

theorem armings_append (earlier later : List (Step H D)) :
    armings (earlier ++ later) = armings earlier ++ armings later := List.filterMap_append

theorem armings_snoc (steps : List (Step H D)) (step : Step H D) :
    armings (steps ++ [step]) = armings steps ++ step.arming?.toList := by
  rw [armings_append, armings_cons]
  exact congrArg (armings steps ++ ·) (List.append_nil _)

theorem Step.disturbs_of_resets {step : Step H D} (resets : step.resets = true) (id : TimerId) :
    step.disturbs id = true := by
  simp only [Step.resets] at resets
  split at resets
  next reset => simp [Step.disturbs, reset, Command.disturbs]
  next => cases resets

theorem Step.fires_iff {step : Step H D} {id : TimerId} :
    step.fires id = true ↔ ∃ firing, step.firing? = some firing ∧ firing.timer = id := by
  simp only [Step.fires]
  cases step.firing? <;> simp

namespace Transition

theorem effect (step : Transition action before after) (valid : before.Valid) :
    Effect before.scheduler (Step.arming? ⟨before, action, after⟩)
      (fun id => Step.disturbs ⟨before, action, after⟩ id = true ∨
        Step.fires ⟨before, action, after⟩ id = true) after.scheduler := by
  cases step with
  | @command place scheduler given awake =>
    apply (Scheduler.perform_changes valid.tied given).effect.relabel rfl
    intro id
    cases place with
    | between => exact absurd rfl awake
    | outside | inside firing => simp [Step.disturbs, Step.fires, Step.firing?]
  | @beginAdvance scheduler begun begins =>
    obtain ⟨_, tick, _, rfl⟩ := Scheduler.beginAdvance_eq begins
    have still : Effect scheduler none (fun _ => False)
        { scheduler with tick, dispatching := true } :=
      (Effect.none valid.tied).congr rfl rfl
    exact still.relabel rfl (by simp [Step.disturbs, Step.fires, Step.firing?])
  | @dispatch scheduler popped lent arming turn given due taken =>
    obtain ⟨timer, takes⟩ := valid.dispatch_takes due taken
    refine ⟨takes.tied, ?_, ?_⟩
    · intro other later
      rw [takes.left]
      simp [Step.arming?, Step.arms?, Step.disturbs, Step.fires, Step.firing?, eq_comm]
    · simp [Step.arming?, Step.arms?, takes.issued]
  | skip due refused => exact absurd refused (valid.not_skipped due)
  | @settle firing scheduler handler data =>
    obtain ⟨armed, settled⟩ :=
      Scheduler.settle_settles valid.tied firing.timer firing.tick handler data
    refine settled.effect.relabel ?_ (by simp [Step.disturbs, Step.fires, Step.firing?])
    cases armed with
    | none =>
      have same := settled.quiet rfl
      simp [Step.arming?, Step.arms?, same]
    | some arming =>
      obtain ⟨idle, set, told, _⟩ := settled.rearmed arming rfl
      simp [Step.arming?, Step.arms?, idle, set, told]
  | @endAdvance scheduler finished =>
    have still : Effect scheduler none (fun _ => False) scheduler.endAdvance :=
      (Effect.none valid.tied).congr rfl rfl
    exact still.relabel rfl (by simp [Step.disturbs, Step.fires, Step.firing?])

theorem firing (step : Transition action before after) (valid : before.Valid) {firing : Firing}
    (fires : Step.firing? ⟨before, action, after⟩ = some firing) :
    before.place = .between ∧ after.place = .inside firing ∧
      firing.tick = before.scheduler.tick ∧ firing.expiry ≤ before.scheduler.tick ∧
      before.scheduler.Queued ⟨firing.expiry, firing.timer⟩ firing.turn ∧
      ∀ other later, before.scheduler.Queued other later →
        firing.expiry < other.expiry ∨ firing.expiry = other.expiry ∧ firing.turn ≤ later := by
  cases step with
  | @command place scheduler given awake => cases place <;> cases fires
  | @dispatch scheduler popped lent arming turn given due taken =>
    obtain ⟨timer, takes⟩ := valid.dispatch_takes due taken
    have clock := popped.clock_lend arming.timer
    rw [taken, Scheduler.clock_popDue? due] at clock
    have tick : lent.tick = scheduler.tick := congrArg Prod.fst clock
    cases fires
    exact ⟨rfl, rfl, tick, takes.due, takes.queued, takes.first⟩
  | beginAdvance | skip | settle | endAdvance => cases fires

/-- A handler that runs after a step begins with it, or it has been running. -/
theorem inside_cases (step : Transition action before after) {current : Firing}
    (inside : after.place = .inside current) :
    Step.firing? ⟨before, action, after⟩ = some current ∨
      before.place = .inside current ∧ Step.firing? ⟨before, action, after⟩ = none := by
  cases step with
  | @command place scheduler given awake =>
    cases inside
    exact .inr ⟨rfl, rfl⟩
  | dispatch due taken =>
    cases inside
    exact .inl rfl
  | beginAdvance | skip | settle | endAdvance => cases inside

theorem arming?_of_firing (step : Transition action before after) {firing : Firing}
    (fires : Step.firing? ⟨before, action, after⟩ = some firing) :
    Step.arming? ⟨before, action, after⟩ = none := by
  cases step with
  | @command place scheduler given awake => cases place <;> cases fires
  | dispatch due taken => rfl
  | beginAdvance | skip | settle | endAdvance => cases fires

/-- Nothing is armed for a time that is past, but that a timer with a period is armed again
from when it was due. -/
theorem arming_ahead (step : Transition action before after) (valid : before.Valid)
    {arming : Arming} (arms : Step.arming? ⟨before, action, after⟩ = some arming) :
    (after.place = .outside ↔ before.place = .outside) ∧
      after.scheduler.tick = before.scheduler.tick ∧
      (before.scheduler.tick ≤ arming.expiry ∨
        ∃ firing, before.place = .inside firing ∧ firing.expiry ≤ arming.expiry) := by
  cases step with
  | @command place scheduler given awake =>
    obtain ⟨id, starts, told⟩ := Option.bind_eq_some_iff.mp arms
    obtain ⟨delay, _, _, armed⟩ := Scheduler.armed_of_starts valid.tied starts
    have clock := scheduler.clock_perform given
    have tick : (scheduler.perform given).2.tick = scheduler.tick := by
      cases given with
      | reset => cases starts
      | _ => exact congrArg Prod.fst clock
    refine ⟨Iff.rfl, tick, .inl ?_⟩
    rw [armed] at told
    cases told
    exact Tick.le_after scheduler.tick delay
  | @settle firing scheduler handler data =>
    have clock := scheduler.clock_settle firing.timer firing.tick handler data
    refine ⟨by simp, congrArg Prod.fst clock, .inr ⟨firing, rfl, ?_⟩⟩
    obtain ⟨armed, settled⟩ :=
      Scheduler.settle_settles valid.tied firing.timer firing.tick handler data
    cases armed with
    | none => simp [Step.arming?, Step.arms?, settled.quiet rfl] at arms
    | some rearmed =>
      obtain ⟨idle, set, told, timer, found, phase, _, due⟩ := settled.rearmed rearmed rfl
      simp only [Step.arming?, Step.arms?, idle, set, Bool.not_false, Bool.and_self, if_true,
        Option.bind_some, told] at arms
      cases arms
      rw [due, ← valid.running firing timer rfl found phase]
      exact Tick.le_after timer.expiry timer.period
  | beginAdvance | dispatch | skip | endAdvance => cases arms

/-- An advance begins with the tick moving on and ends when nothing is due. Else the tick stays,
unless it is set back. -/
theorem clock (step : Transition action before after)
    (kept : Step.resets ⟨before, action, after⟩ = false) :
    (before.place = .outside ∧ after.place = .between ∧
        after.scheduler.tick.toNat = before.scheduler.tick.toNat + 1) ∨
      (before.place = .between ∧ after.place = .outside ∧
        after.scheduler.tick = before.scheduler.tick ∧ before.scheduler.popDue? = none) ∨
      ((after.place = .outside ↔ before.place = .outside) ∧
        after.scheduler.tick = before.scheduler.tick) := by
  cases step with
  | @command place scheduler given awake =>
    refine .inr (.inr ⟨Iff.rfl, ?_⟩)
    have clock := scheduler.clock_perform given
    cases given with
    | reset => cases kept
    | _ => exact congrArg Prod.fst clock
  | beginAdvance begins =>
    obtain ⟨_, tick, next, rfl⟩ := Scheduler.beginAdvance_eq begins
    exact .inl ⟨rfl, rfl, Tick.toNat_of_next? next⟩
  | @dispatch scheduler popped lent arming turn given due taken =>
    have clock := popped.clock_lend arming.timer
    rw [taken, Scheduler.clock_popDue? due] at clock
    exact .inr (.inr ⟨by simp, congrArg Prod.fst clock⟩)
  | @skip scheduler popped left arming turn due refused =>
    have clock := popped.clock_lend arming.timer
    rw [refused, Scheduler.clock_popDue? due] at clock
    exact .inr (.inr ⟨by simp, congrArg Prod.fst clock⟩)
  | @settle firing scheduler handler data =>
    have clock := scheduler.clock_settle firing.timer firing.tick handler data
    exact .inr (.inr ⟨by simp, congrArg Prod.fst clock⟩)
  | endAdvance finished => exact .inr (.inl ⟨rfl, rfl, rfl, finished⟩)

end Transition

theorem Run.onward_of_few {first last : Moment H D} {steps : List (Step H D)}
    (run : Run first steps last) (valid : first.Valid)
    (few : first.scheduler.queue.nextTurn.toNat + (armings steps).length < UInt64.size) :
    ∀ step ∈ steps, step.Onward := by
  induction run with
  | nil => simp
  | @cons action before after last steps step _ ih =>
    have turn := congrArg UInt64.toNat (step.effect valid).turn
    rw [armings_cons, List.length_append] at few
    have room : before.scheduler.queue.nextTurn.toNat +
        (Step.arming? ⟨before, action, after⟩).toList.length < 2 ^ 64 := by
      have size : UInt64.size = 2 ^ 64 := rfl
      omega
    have next : after.scheduler.queue.nextTurn.toNat = before.scheduler.queue.nextTurn.toNat +
        (Step.arming? ⟨before, action, after⟩).toList.length := by
      rw [turn, UInt64.toNat_add]
      cases arms : Step.arming? ⟨before, action, after⟩ with
      | none => simp
      | some arming =>
        rw [arms] at room
        exact Nat.mod_eq_of_lt room
    refine List.forall_mem_cons.mpr ⟨UInt64.le_iff_toNat_le.mpr (by simp only [next]; omega), ?_⟩
    exact ih (step.valid valid) (by omega)

/-- What holds of a moment and the steps that led to it, and what every step of some kind extends
by itself as long as the armings can be numbered, a run of such steps extends by all its steps. -/
theorem Run.extends_history {holds : List (Step H D) → Moment H D → Prop}
    {allows : Step H D → Prop} {first last : Moment H D} {past steps : List (Step H D)}
    (kept : ∀ {past action before after}, Transition action before after → before.Valid →
      allows ⟨before, action, after⟩ →
      (armings (past ++ [⟨before, action, after⟩])).length < UInt64.size →
      holds past before → holds (past ++ [⟨before, action, after⟩]) after)
    (run : Run first steps last) (valid : first.Valid) (allowed : ∀ step ∈ steps, allows step)
    (few : (armings (past ++ steps)).length < UInt64.size) (start : holds past first) :
    holds (past ++ steps) last := by
  induction run generalizing past with
  | nil =>
    rw [List.append_nil]
    exact start
  | @cons action before after last steps step _ ih =>
    obtain ⟨now, later⟩ := List.forall_mem_cons.mp allowed
    rw [List.append_cons] at few ⊢
    have fewer : (armings (past ++ [⟨before, action, after⟩])).length < UInt64.size := by
      rw [armings_append, List.length_append] at few
      omega
    exact ih (step.valid valid) later few (kept step valid now fewer start)

theorem Run.steady_of_short {config : Config} {last : Moment H D} {steps : List (Step H D)}
    (run : Run (.ofConfig config) steps last) (short : steps.length < UInt32.size) :
    ∀ step ∈ steps, step.Unwrapped ∧ step.Onward := by
  have fewer : (armings steps).length ≤ steps.length := List.length_filterMap_le _ _
  have few : (armings steps).length < UInt64.size :=
    Nat.lt_trans (Nat.lt_of_le_of_lt fewer short) (by decide)
  have onward := run.onward_of_few (.ofConfig config) ((Nat.zero_add _).symm ▸ few)
  exact fun step member => ⟨run.unwrapped_of_short short step member, onward step member⟩

end Timers
