import Timers.Proofs.Pairing

/-! A reset makes a scheduler as good as new. Free slots and turns that were used before remain,
so ids and turns differ from those of a new scheduler; but nobody can tell who names timers by the
order in which they have been added. -/

namespace Timers

variable {H D W α : Type}

private theorem Scheduler.enrolled_nil {scheduler : Scheduler H D} (sound : scheduler.timers.Sound)
    (nobody : ∀ id, scheduler.timer? id = none) : scheduler.Enrolled [] where
  sound := sound
  single := .nil
  accounts := by simp
  all := fun id found => by
    rw [nobody] at found
    cases found

private theorem Paired.renewed {config : Config} {past : List (Step H D)}
    {scheduler : Scheduler H D}
    (run : Run (.ofConfig config) past ⟨.outside, scheduler⟩) (shared : W) :
    Paired .outside .outside ⟨scheduler.reset, shared, []⟩ ⟨.ofConfig config, shared, []⟩ := by
  have again : Transition (.command .reset) ⟨.outside, scheduler⟩ ⟨.outside, scheduler.reset⟩ :=
    .command .reset (by simp)
  have later : Run (.ofConfig config) _ ⟨.outside, scheduler.reset⟩ := run.append (.single again)
  have valid := later.valid
  have valid' : (Moment.ofConfig config : Moment H D).Valid := .ofConfig config
  have paced : (⟨.outside, scheduler.reset⟩ : Moment H D).Paced :=
    later.preserves Transition.paced (.ofConfig config)
  have start : scheduler.reset.initialTick = config.initialTick := later.initialTick
  have idle : scheduler.reset.dispatching = false := paced.idle rfl
  have vacant : ∀ arming turn, ¬ scheduler.reset.Queued arming turn := by
    intro arming turn queued
    simpa using (scheduler.reset_effect.queued arming turn).mp queued
  have alike : Alike (Numbered [] []) scheduler.reset (Scheduler.ofConfig config) := by
    apply Alike.of_idle valid.tied valid'.tied vacant (Scheduler.not_queued_ofConfig config)
    · have tick : scheduler.reset.tick = scheduler.reset.initialTick := rfl
      simp only [Scheduler.clock, tick, start, idle]
      rfl
    · exact UInt64.le_iff_toNat_le.mpr (Nat.zero_le _)
    · rintro _ _ _ _ ⟨_, found, _⟩
      simp at found
    · rintro _ _ ⟨_, found, _⟩
      simp at found
  have sound : scheduler.reset.timers.Sound := later.preserves Transition.sound .empty
  exact ⟨rfl, valid, valid', paced, .ofConfig config,
    Scheduler.enrolled_nil sound scheduler.timer?_reset,
    Scheduler.enrolled_nil .empty (Scheduler.timer?_ofConfig config), rfl, alike⟩

/-- What can be seen of two schedulers whose timers are matched by the order in which they have
been added. -/
structure Renamed (issued issued' : List TimerId) (scheduler scheduler' : Scheduler H D) : Prop where
  single : issued.Nodup
  single' : issued'.Nodup
  length : issued.length = issued'.length
  listed : ∀ id ∈ scheduler.ids, id ∈ issued
  listed' : ∀ id ∈ scheduler'.ids, id ∈ issued'
  views : ∀ id other, Numbered issued issued' id other → scheduler.view? id = scheduler'.view? other
  timers : (scheduler.ids.map issued.idxOf).Perm (scheduler'.ids.map issued'.idxOf)
  summary : { scheduler.summary with nextTimer := none } = { scheduler'.summary with nextTimer := none }
  next : scheduler.nextTimer?.map issued.idxOf = scheduler'.nextTimer?.map issued'.idxOf

private theorem Paired.renamed {place place' : Place}
    {system system' : System H D (W × List TimerId)} (paired : Paired place place' system system') :
    Renamed system.shared.2 system'.shared.2 system.scheduler system'.scheduler := by
  have summary := paired.summary
  have matched := paired.matched
  simp only [Request.answer, Answer.summary.injEq] at summary
  exact ⟨matched.enrolled.single, matched.enrolled'.single, matched.length,
    fun id member => matched.enrolled.all id (Scheduler.mem_ids_iff.mp member),
    fun id member => matched.enrolled'.all id (Scheduler.mem_ids_iff.mp member),
    fun id other same => matched.alike.view? same, matched.timers, summary.1, summary.2⟩

/-- A scheduler that is reset and one that is new cannot be told apart. Whatever is done to them,
and whatever their handlers do, as long as timers are named by the order in which they have been
added, it comes to the same end on both. -/
theorem reset_renews {config : Config} {past : List (Step H D)} {scheduler : Scheduler H D}
    (run : Run (.ofConfig config) past ⟨.outside, scheduler⟩)
    (react : H → Nat → D → Errand H D W (H × D)) (shared : W) (fuel : Nat) (errand : Errand H D W α)
    (steady : ∀ step ∈ System.steps ⟨scheduler.reset, shared, []⟩ (Errand.reaction react) fuel
      errand.program, step.Unwrapped ∧ step.Onward)
    (steady' : ∀ step ∈ System.steps ⟨.ofConfig config, shared, []⟩ (Errand.reaction react) fuel
      errand.program, step.Unwrapped) :
    Option.Rel (fun made made' => made.1 = made'.1 ∧ made.2.shared.1 = made'.2.shared.1 ∧
        Renamed made.2.shared.2 made'.2.shared.2 made.2.scheduler made'.2.scheduler)
      (System.run ⟨scheduler.reset, shared, []⟩ (Errand.reaction react) fuel errand.program)
      (System.run ⟨.ofConfig config, shared, []⟩ (Errand.reaction react) fuel errand.program) := by
  have ends := Errand.paired (by simp) (by simp) (Advance.agrees_outside react fuel) errand
    (Paired.renewed run shared) steady steady'
  exact rel_imp (fun done => ⟨done.1, done.2.paired.value, done.2.paired.renamed⟩) ends

/-- Two timers are added to a scheduler that was used before. Both are due at once, and the first
one's handler adds a third, which has number 2. The ids differ from those of a new scheduler. -/
theorem reset_renews_twice :
    ∃ (past : List (Step Nat Nat)) (scheduler : Scheduler Nat Nat)
      (react : Nat → Nat → Nat → Errand Nat Nat (List Nat) (Nat × Nat))
      (errand : Errand Nat Nat (List Nat) (Option Nat)) (final : System Nat Nat (List Nat × List TimerId)),
      Run (.ofConfig {}) past ⟨.outside, scheduler⟩ ∧
      System.run ⟨scheduler.reset, [], []⟩ (Errand.reaction react) 9 errand.program =
        some (some 2, final) ∧
      final.shared = ([1, 0], [⟨⟨1, 1⟩⟩, ⟨⟨0, 1⟩⟩, ⟨⟨2, 0⟩⟩]) ∧
      (System.run ⟨.ofConfig {}, [], []⟩ (Errand.reaction react) 9 errand.program).map
        (fun made => (made.1, made.2.shared)) =
        some (some 2, [1, 0], [⟨⟨0, 0⟩⟩, ⟨⟨1, 0⟩⟩, ⟨⟨2, 0⟩⟩]) := by
  let react : Nat → Nat → Nat → Errand Nat Nat (List Nat) (Nat × Nat) := fun handler number data =>
    .order (.shared (number :: ·)) fun _ =>
      if number = 0 then
        .order (.add 9 0) fun _ => .order (.start 2 3 false) fun _ => .done (handler, data)
      else .done (handler, data)
  let errand : Errand Nat Nat (List Nat) (Option Nat) :=
    .order (.add 7 5) fun _ => .order (.add 8 6) fun _ =>
      .order (.start 0 1 false) fun _ => .order (.start 1 1 false) fun _ =>
        .order .advance fun _ => .order .summary fun answer =>
          match answer with
          | .summary _ next => .done next
          | _ => .done none
  let used := (Moment.ofConfig {} : Moment Nat Nat).run?
    [.command (.add 7 5), .command (.add 8 5), .command (.start ⟨⟨1, 0⟩⟩ 4 true),
      .beginAdvance, .endAdvance]
  have place : used.map (fun made => (made.1.length, made.2.place)) = some (5, .outside) := by
    decide +kernel
  have ended : used.map (fun made => (System.run ⟨made.2.scheduler.reset, [], []⟩
      (Errand.reaction react) 9 errand.program).map (fun made => (made.1, made.2.shared))) =
      some (some (some 2, [1, 0], [⟨⟨1, 1⟩⟩, ⟨⟨0, 1⟩⟩, ⟨⟨2, 0⟩⟩])) := by decide +kernel
  have count : used.map (fun made => (System.steps ⟨made.2.scheduler.reset, [], []⟩
      (Errand.reaction react) 9 errand.program).length) = some 12 := by decide +kernel
  have count' : (System.steps ⟨.ofConfig {}, [], []⟩ (Errand.reaction react) 9
      errand.program).length = 12 := by decide +kernel
  have ended' : (System.run ⟨.ofConfig {}, [], []⟩ (Errand.reaction react) 9
      errand.program).map (·.2.shared.2) = some [⟨⟨0, 0⟩⟩, ⟨⟨1, 0⟩⟩, ⟨⟨2, 0⟩⟩] := by decide +kernel
  obtain ⟨⟨past, last⟩, made, same⟩ := Option.map_eq_some_iff.mp place
  obtain ⟨length, outside⟩ : past.length = 5 ∧ last.place = .outside := by simpa using same
  rw [made] at ended count
  obtain ⟨_, scheduler⟩ := last
  cases outside
  have run := Moment.run_of_run? made
  have reset : Run (.ofConfig {}) (past ++ [_]) ⟨.outside, scheduler.reset⟩ :=
    run.append (.single (.command .reset (by simp)))
  have paced : (⟨.outside, scheduler.reset⟩ : Moment Nat Nat).Paced :=
    reset.preserves Transition.paced (.ofConfig {})
  obtain ⟨_, later⟩ := System.exists_run_steps ⟨scheduler.reset, [], []⟩ (Errand.reaction react) 9
    errand.program (Bool.eq_false_iff.mpr fun busy => paced.mp busy rfl)
  obtain ⟨_, later'⟩ := System.exists_run_steps ⟨.ofConfig {}, [], []⟩ (Errand.reaction react) 9
    errand.program rfl
  have count : (System.steps ⟨scheduler.reset, [], []⟩ (Errand.reaction react) 9
      errand.program).length = 12 := Option.some.inj count
  have steady := (reset.append later).steady_of_short (by
    rw [List.length_append, List.length_append, List.length_singleton, length, count]
    decide)
  have steady' := later'.steady_of_short (by
    rw [count']
    decide)
  have same := reset_renews run react [] 9 errand
    (fun step member => steady step (List.mem_append_right _ member))
    (fun step member => (steady' step member).1)
  obtain ⟨⟨value, final⟩, ends, told⟩ := Option.map_eq_some_iff.mp (Option.some.inj ended)
  obtain ⟨⟨value', final'⟩, ends', issued'⟩ := Option.map_eq_some_iff.mp ended'
  rw [ends, ends'] at same
  obtain ⟨equal, log, _⟩ := Option.rel_some_some.mp same
  obtain ⟨rfl, shared⟩ := Prod.mk.inj told
  refine ⟨past, scheduler, react, errand, final, run, ends, shared, ?_⟩
  have logged : final.shared.1 = [1, 0] := congrArg Prod.fst shared
  rw [ends', Option.map_some, ← equal, Option.some.injEq, Prod.mk.injEq]
  exact ⟨rfl, Prod.ext (log.symm.trans logged) issued'⟩

end Timers
