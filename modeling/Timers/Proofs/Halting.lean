import Mathlib.Data.List.TakeWhile
import Timers.Proofs.FiringTime
import Timers.Proofs.Registry

/-! What is taken off the schedule stays off it. A timer that was stopped or unregistered has no
entry, and the run of its own handler does not bring it back, so only a start makes it fire
again; and for one that was unregistered every start is refused. -/

namespace Timers

variable {H D W α : Type} {id : TimerId} {action : Action H D} {before after first last : Moment H D}
  {steps : List (Step H D)}

/-- Whether a command takes a timer off the schedule, and is not refused. -/
def Command.halts (given : Command H D) (scheduler : Scheduler H D) (id : TimerId) : Bool :=
  match given with
  | .stop other => other = id && (scheduler.stop other).1.isOk
  | _ => given.drops scheduler id

def Step.halts (step : Step H D) (id : TimerId) : Bool :=
  match step.action with
  | .command given => given.halts step.before.scheduler id
  | _ => false

/-- Whether a step starts a timer, and is not refused. -/
def Step.starts (step : Step H D) (id : TimerId) : Bool :=
  match step.action with
  | .command given => given.starts? step.before.scheduler = some id
  | _ => false

/-- The timer is off the schedule, and the end of its handler's run will not arm it again. -/
structure Moment.Halted (moment : Moment H D) (id : TimerId) : Prop where
  unqueued : ∀ arming turn, arming.timer = id → ¬ moment.scheduler.Queued arming turn
  phase : ∀ timer, moment.scheduler.timer? id = some timer → timer.phase ≠ .firing

private theorem Command.disturbs_of_halts {given : Command H D} {scheduler : Scheduler H D}
    (halts : given.halts scheduler id = true) :
    given.disturbs scheduler id = true ∧ given.starts? scheduler = none := by
  cases given with
  | stop | remove => exact ⟨halts, rfl⟩
  | reset => exact ⟨rfl, rfl⟩
  | add | start | rebind | setPeriod | modifyData | takeReporter | receive
  | drainEvents => cases halts

private theorem Scheduler.phase_of_halts {scheduler : Scheduler H D} (tied : scheduler.Tied)
    {given : Command H D} (halts : given.halts scheduler id = true) {timer : Timer H D}
    (found : (scheduler.perform given).2.timer? id = some timer) : timer.phase ≠ .firing := by
  cases given with
  | stop other =>
    obtain ⟨rfl, succeeds⟩ : other = id ∧ (scheduler.stop other).1.isOk = true := by
      simpa [Command.halts] using halts
    cases present : scheduler.timer? other with
    | none => simp [stop_of_absent present] at succeeds
    | some old =>
      obtain ⟨after, stopped, _, timers, _⟩ := stop_stops tied present
      rw [perform, stopped, timers, if_pos rfl] at found
      cases found
      by_cases firing : old.phase = .firing
      · simp [firing]
      · simp only
        split
        · simp
        · exact firing
  | remove other =>
    rw [((perform_revises tied (.remove other)).dropped halts).1] at found
    cases found
  | reset =>
    rw [((perform_revises tied .reset).dropped halts).1] at found
    cases found
  | add | start | rebind | setPeriod | modifyData | takeReporter | receive
  | drainEvents => cases halts

namespace Transition

private theorem halts (step : Transition action before after) (valid : before.Valid)
    (halts : Step.halts ⟨before, action, after⟩ id = true) : after.Halted id := by
  cases step with
  | @command place scheduler given awake =>
    obtain ⟨disturbs, unarmed⟩ := Command.disturbs_of_halts halts
    have effect := (Scheduler.perform_changes valid.tied given).effect
    refine ⟨fun arming turn same queued => ?_, fun timer found =>
      Scheduler.phase_of_halts valid.tied halts found⟩
    rcases (effect.queued arming turn).mp queued with ⟨_, kept⟩ | ⟨arms, _⟩
    · exact kept (same ▸ disturbs)
    · rw [unarmed] at arms
      cases arms
  | beginAdvance | dispatch | skip | settle | endAdvance => cases halts

private theorem firing?_of_halts (step : Transition action before after)
    (halts : Step.halts ⟨before, action, after⟩ id = true) :
    Step.firing? ⟨before, action, after⟩ = none := by
  cases step with
  | @command place scheduler given awake => cases place <;> rfl
  | beginAdvance | dispatch | skip | settle | endAdvance => cases halts

/-- A timer that is armed by a step is started by it, or its handler has been running. -/
private theorem arms_cases (step : Transition action before after) (valid : before.Valid)
    {arming : Arming} (arms : Step.arming? ⟨before, action, after⟩ = some arming) :
    Step.starts ⟨before, action, after⟩ arming.timer = true ∨
      ∃ timer, before.scheduler.timer? arming.timer = some timer ∧ timer.phase = .firing := by
  cases step with
  | @command place scheduler given awake =>
    obtain ⟨id, starts, told⟩ := Option.bind_eq_some_iff.mp arms
    obtain ⟨expiry, _, rfl⟩ := Option.map_eq_some_iff.mp told
    have starts : given.starts? scheduler = some id := starts
    exact .inl (by simp [Step.starts, starts])
  | @settle firing scheduler handler data =>
    obtain ⟨armed, settled⟩ :=
      Scheduler.settle_settles valid.tied firing.timer firing.tick handler data
    cases armed with
    | none => simp [Step.arming?, Step.arms?, settled.quiet rfl] at arms
    | some rearmed =>
      obtain ⟨idle, set, told, timer, found, phase, same, _⟩ := settled.rearmed rearmed rfl
      simp only [Step.arming?, Step.arms?, idle, set, Bool.not_false, Bool.and_self, if_true,
        Option.bind_some, told] at arms
      cases arms
      exact .inr ⟨timer, same ▸ found, phase⟩
  | beginAdvance | dispatch | skip | endAdvance => cases arms

theorem halted (step : Transition action before after) (valid : before.Valid)
    (halted : before.Halted id) (idle : Step.starts ⟨before, action, after⟩ id = false) :
    after.Halted id := by
  refine ⟨step.unqueued valid halted.unqueued fun arming arms same => ?_, fun timer found => ?_⟩
  · rcases step.arms_cases valid arms with starts | ⟨timer, found, firing⟩
    · rw [same, idle] at starts
      cases starts
    · exact halted.phase timer (same ▸ found) firing
  · cases step with
    | command given awake =>
      rcases (Scheduler.perform_changes valid.tied given).followed.known id timer found with
        ⟨old, known, follows⟩ | whole
      · exact fun firing => halted.phase old known (follows.phase firing).1
      · exact whole.phase
    | beginAdvance begins =>
      obtain ⟨_, tick, _, rfl⟩ := Scheduler.beginAdvance_eq begins
      exact halted.phase timer found
    | @dispatch scheduler popped lent arming turn given due taken =>
      obtain ⟨old, takes⟩ := valid.dispatch_takes due taken
      have apart : id ≠ arming.timer := fun same =>
        halted.unqueued arming turn same.symm takes.queued
      rw [takes.timers, if_neg apart] at found
      exact halted.phase timer found
    | skip due refused => exact absurd refused (valid.not_skipped due)
    | @settle firing scheduler handler data =>
      obtain ⟨armed, settled⟩ :=
        Scheduler.settle_settles valid.tied firing.timer firing.tick handler data
      rcases settled.timers id timer found with ⟨_, kept⟩ | whole
      · exact halted.phase timer kept
      · exact whole.phase
    | endAdvance finished => exact halted.phase timer found

theorem silent (step : Transition action before after) (valid : before.Valid)
    (halted : before.Halted id) : Step.fires ⟨before, action, after⟩ id = false := by
  rw [Bool.eq_false_iff]
  intro fires
  obtain ⟨firing, fired, same⟩ := Step.fires_iff.mp fires
  obtain ⟨_, _, _, _, queued, _⟩ := step.firing valid fired
  exact halted.unqueued _ _ same queued

end Transition

namespace Run

theorem silent (run : Run first steps last) (valid : first.Valid) (halted : first.Halted id) :
    ∀ step ∈ steps.takeWhile fun step => !step.starts id, step.fires id = false := by
  induction run with
  | nil => simp
  | @cons action before after last steps step _ ih =>
    rw [List.takeWhile_cons]
    split
    next idle =>
      have idle : Step.starts ⟨before, action, after⟩ id = false := by simpa using idle
      refine List.forall_mem_cons.mpr ⟨step.silent valid halted, ?_⟩
      exact ih (step.valid valid) (step.halted valid halted idle)
    next => simp

theorem silent_after {config : Config} {earlier later : List (Step H D)} {halt : Step H D}
    (run : Run (.ofConfig config) (earlier ++ halt :: later) last) (halts : halt.halts id = true) :
    ∀ step ∈ later.takeWhile fun step => !step.starts id, step.fires id = false := by
  obtain ⟨before, prior, run⟩ := run.split
  cases run with
  | cons step run => exact run.silent (step.valid prior.valid) (step.halts prior.valid halts)

end Run

theorem Scheduler.stop_tells {scheduler : Scheduler H D} (tied : scheduler.Tied) (id : TimerId) :
    (scheduler.stop id).1 = .ok true ↔ ∃ arming ∈ scheduler.queue.toList, arming.timer = id := by
  have listed : (∃ arming ∈ scheduler.queue.toList, arming.timer = id) ↔
      ∃ timer, scheduler.timer? id = some timer ∧ timer.node.isSome := by
    constructor
    · rintro ⟨arming, member, rfl⟩
      obtain ⟨turn, key, held⟩ := tied.mem_toList_iff.mp member
      obtain ⟨timer, present, node, _⟩ := tied.entry held
      exact ⟨timer, present, by rw [node]; rfl⟩
    · rintro ⟨timer, found, armed⟩
      exact ⟨⟨timer.expiry, id⟩, tied.mem_toList_iff.mpr (tied.queued found armed), rfl⟩
  rw [listed]
  cases found : scheduler.timer? id with
  | none => simp [stop_of_absent found]
  | some timer =>
    obtain ⟨after, stopped, _⟩ := stop_stops tied found
    simp [stopped]

/-- The advances of a program tell of no firing of a timer that was stopped, removed or reset, unless
it is started afterwards. -/
theorem System.tells_none_of_halted {config : Config} {shared : W} {react : Reaction H D W}
    {fuel : Nat} {program : Program H D W α} {value : α} {final : System H D W}
    {earlier later : List (Step H D)} {halt : Step H D}
    (made : System.steps ⟨.ofConfig config, shared⟩ react fuel program = earlier ++ halt :: later)
    (halts : halt.halts id = true) (idle : ∀ step ∈ later, step.starts id = false)
    (finished : System.run ⟨.ofConfig config, shared⟩ react fuel program = some (value, final)) :
    System.tells ⟨.ofConfig config, shared⟩ react fuel program = firings earlier ++ firings later ∧
      ∀ firing ∈ firings later, firing.timer ≠ id := by
  have run := System.steps_lead finished
  have told := System.firings_steps finished
  rw [made] at run told
  refine ⟨?_, silent_iff.mp ?_⟩
  · obtain ⟨_, _, onward⟩ := run.split
    cases onward with
    | cons step _ => rw [← told, firings_append, firings_cons, step.firing?_of_halts halts]; rfl
  · have idle : later.takeWhile (fun step => !step.starts id) = later :=
      List.takeWhile_eq_self_iff.mpr fun step member => by simp [idle step member]
    have silent := run.silent_after halts
    rwa [idle] at silent

/-- A timer that was stopped, removed or reset does not fire again until it is started, whatever
else is done. One that was removed or reset is never found again either, unless the generation
of its slot wraps. And a stop tells whether the timer was in the queue. -/
theorem halted_until_started {config : Config} (run : Run (.ofConfig config) steps last)
    (id : TimerId) :
    (∀ earlier halt later, steps = earlier ++ halt :: later →
      (halt.halts id = true →
        ∀ step ∈ later.takeWhile fun step => !step.starts id, step.fires id = false) ∧
      (halt.drops id = true →
        (∃ step ∈ earlier ++ [halt], (step.before.scheduler.timer? id).isSome) →
        (∀ step ∈ steps, step.UnwrappedAt id.key.index) → last.scheduler.Refuses id)) ∧
    ((last.scheduler.stop id).1 = .ok true ↔
      ∃ arming ∈ last.scheduler.queue.toList, arming.timer = id) := by
  refine ⟨?_, Scheduler.stop_tells run.valid.tied id⟩
  rintro earlier halt later rfl
  refine ⟨run.silent_after, ?_⟩
  obtain ⟨before, prior, run⟩ := run.split
  have valid := prior.valid
  cases run with
  | cons step run =>
    intro drops ⟨known, member, registered⟩ unwrapped
    have registered := Option.isSome_iff_exists.mp registered
    have accounts : before.scheduler.Accounts id := by
      rcases List.mem_append.mp member with old | now
      · exact prior.accounts_of_mem (.ofConfig config) old (.inl registered) fun step member =>
          unwrapped step (List.mem_append_left _ member)
      · cases List.mem_singleton.mp now
        exact .inl registered
    obtain ⟨now, later⟩ := List.forall_mem_cons.mp fun step member =>
      unwrapped step (List.mem_append_right _ member)
    have outdated := run.outdated (step.drops valid drops accounts now) later
    exact Scheduler.refuses_of_absent outdated.get?

/-- Two timers are due, and the handler of the first one removes the second one. -/
theorem halted_until_started_due :
    ∃ (earlier later : List (Step Nat Nat)) (halt : Step Nat Nat) (last : Moment Nat Nat),
      Run (.ofConfig {}) (earlier ++ halt :: later) last ∧ last.scheduler.tick = 2 ∧
        (∀ step ∈ later, step.fires ⟨⟨1, 0⟩⟩ = false) ∧ last.scheduler.Refuses ⟨⟨1, 0⟩⟩ ∧
        (last.scheduler.stop ⟨⟨1, 0⟩⟩).1 ≠ .ok true := by
  let id : TimerId := ⟨⟨1, 0⟩⟩
  have told : ((Moment.ofConfig {} : Moment Nat Nat).run?
      [.command (.add 7 5), .command (.add 8 5), .command (.start ⟨⟨0, 0⟩⟩ 1 false),
        .command (.start id 1 true), .beginAdvance, .dispatch, .command (.remove id),
        .settle 7 5, .endAdvance, .beginAdvance, .endAdvance]).map (fun made =>
      (made.1[6]?.map fun step =>
        (step.halts id, step.drops id, (step.before.scheduler.timer? id).isSome),
        made.1.length, (made.1.drop 7).all (fun step => !step.starts id),
        made.2.scheduler.tick, made.2.scheduler.queue.toList)) =
      some (some (true, true, true), 11, true, 2, []) := by decide +kernel
  obtain ⟨⟨steps, last⟩, made, same⟩ := Option.map_eq_some_iff.mp told
  obtain ⟨halting, length, idle, tick, queue⟩ :
      (steps[6]?.map fun step =>
        (step.halts id, step.drops id, (step.before.scheduler.timer? id).isSome)) =
        some (true, true, true) ∧ steps.length = 11 ∧
      (steps.drop 7).all (fun step => !step.starts id) = true ∧ last.scheduler.tick = 2 ∧
        last.scheduler.queue.toList = [] := by simpa using same
  obtain ⟨halt, seventh, same⟩ := Option.map_eq_some_iff.mp halting
  obtain ⟨halts, drops, registered⟩ := Prod.mk.inj same |>.imp_right Prod.mk.inj
  have split : steps = steps.take 6 ++ halt :: steps.drop 7 := by
    obtain ⟨inside, rfl⟩ := List.getElem?_eq_some_iff.mp seventh
    simp
  have run := Moment.run_of_run? made
  have unwrapped := run.unwrapped_of_short (by rw [length]; decide)
  obtain ⟨halted, stops⟩ := halted_until_started run id
  obtain ⟨silent, refuses⟩ := halted _ halt _ split
  refine ⟨_, _, halt, last, split ▸ run, tick, ?_, ?_, ?_⟩
  · intro step member
    apply silent halts
    rw [List.takeWhile_eq_self_iff.mpr (List.all_eq_true.mp idle)]
    exact member
  · exact refuses drops ⟨halt, by simp, registered⟩ fun step member => unwrapped step member _
  · rw [ne_eq, stops, queue]
    simp

end Timers
