import Timers.Proofs.CheckedQueue
import Timers.Proofs.FiringOrder
import Timers.Proofs.Shapes

/-! What a scheduler tells about itself as a whole is what the records of its timers tell. The
views are read off the queue, which holds an entry for each scheduled timer and no other, and off
the arena's count. The number of an arming is the turn of its entry, so among entries that are due
together the front is the one that was armed first. -/

namespace Timers

variable {H D W α : Type} {action : Action H D} {before after first last : Moment H D}
  {past steps : List (Step H D)}

/-- The number of the arming of a timer after which it was not armed again. -/
def LastArmed (armings : List Arming) (id : TimerId) (number : Nat) : Prop :=
  (∃ expiry, armings[number]? = some ⟨expiry, id⟩) ∧
    ∀ later arming, number < later → armings[later]? = some arming → arming.timer ≠ id

/-- Turns are numbers of armings, and what is on the schedule was armed last with its turn. -/
structure Recorded (past : List (Step H D)) (moment : Moment H D) : Prop where
  numbered : moment.scheduler.queue.nextTurn.toNat = (armings past).length
  queued : ∀ arming turn, moment.scheduler.Queued arming turn →
    (armings past)[turn.toNat]? = some arming
  latest : ∀ arming turn, moment.scheduler.Queued arming turn →
    LastArmed (armings past) arming.timer turn.toNat

private theorem Recorded.ofConfig (config : Config) :
    Recorded ([] : List (Step H D)) (.ofConfig config) where
  numbered := rfl
  queued := fun arming turn queued =>
    absurd queued (Scheduler.not_queued_ofConfig config arming turn)
  latest := fun arming turn queued =>
    absurd queued (Scheduler.not_queued_ofConfig config arming turn)

/-- An arming is the last one of its timer, and of the others those stay the last ones that are
still on the schedule. -/
private theorem Transition.recorded (step : Transition action before after) (valid : before.Valid)
    (recorded : Recorded past before)
    (few : (armings (past ++ [⟨before, action, after⟩])).length < UInt64.size) :
    Recorded (past ++ [⟨before, action, after⟩]) after := by
  have effect := step.effect valid
  have tied := (step.valid valid).tied
  have numbered := recorded.numbered
  have queued : ∀ arming turn, after.scheduler.Queued arming turn →
      (armings (past ++ [⟨before, action, after⟩]))[turn.toNat]? = some arming := by
    intro arming turn queued
    rw [armings_snoc]
    rcases (effect.queued arming turn).mp queued with ⟨old, _⟩ | ⟨arms, rfl⟩
    · have listed := recorded.queued arming turn old
      rw [List.getElem?_append_left (List.getElem?_eq_some_iff.mp listed).1, listed]
    · rw [arms, numbered]
      simp
  refine ⟨step.numbered valid numbered few, queued, ?_⟩
  intro arming turn held
  refine ⟨⟨arming.expiry, queued arming turn held⟩, ?_⟩
  intro later other beyond listed same
  rw [armings_snoc] at listed
  rcases (effect.queued arming turn).mp held with ⟨old, kept⟩ | ⟨arms, rfl⟩
  · have bound := (List.getElem?_eq_some_iff.mp (recorded.queued arming turn old)).1
    rcases Nat.lt_or_ge later (armings past).length with inside | outside
    · rw [List.getElem?_append_left inside] at listed
      exact (recorded.latest arming turn old).2 later other beyond listed same
    · -- The timer was armed in this step, so its entry of before is gone.
      rw [List.getElem?_append_right outside] at listed
      have arms : Step.arming? ⟨before, action, after⟩ = some other := by
        have member := List.mem_of_getElem? listed
        simpa using member
      have fresh := (effect.queued other _).mpr (.inr ⟨arms, rfl⟩)
      obtain ⟨_, turns⟩ := tied.queued_unique held fresh same.symm
      rw [turns, numbered] at bound
      exact Nat.lt_irrefl _ bound
  · have ends : later < ((armings past) ++ (Step.arming? ⟨before, action, after⟩).toList).length :=
      (List.getElem?_eq_some_iff.mp listed).1
    rw [arms, List.length_append, Option.toList_some, List.length_singleton] at ends
    omega

namespace Scheduler

variable {scheduler : Scheduler H D} {id : TimerId} {expiry : Tick}

theorem isScheduled_iff (tied : scheduler.Tied) :
    scheduler.isScheduled id = true ↔ ∃ expiry turn, scheduler.Queued ⟨expiry, id⟩ turn := by
  rw [isScheduled_eq]
  constructor
  · intro scheduled
    obtain ⟨timer, found, armed⟩ := (Option.any_eq_true _ _).mp scheduled
    exact ⟨timer.expiry, tied.queued found armed⟩
  · rintro ⟨expiry, turn, key, held⟩
    obtain ⟨timer, found, node, _⟩ := tied.entry held
    simp [found, node]

theorem expiry?_of_queued (tied : scheduler.Tied) {turn : UInt64}
    (queued : scheduler.Queued ⟨expiry, id⟩ turn) : scheduler.expiry? id = some expiry := by
  obtain ⟨key, held⟩ := queued
  obtain ⟨timer, found, _, same⟩ := tied.entry held
  rw [expiry?, view?, found]
  exact congrArg some same

theorem mem_ids_iff : id ∈ scheduler.ids ↔ (scheduler.timer? id).isSome := by
  simp only [ids, List.mem_map, Prod.exists, Option.isSome_iff_exists]
  constructor
  · rintro ⟨key, timer, listed, rfl⟩
    exact ⟨timer, Arena.mem_toList_iff.mp listed⟩
  · rintro ⟨timer, found⟩
    exact ⟨id.key, timer, Arena.mem_toList_iff.mpr found, rfl⟩

theorem ids_nodup (scheduler : Scheduler H D) : scheduler.ids.Nodup := by
  have keys := scheduler.timers.keys_nodup
  have split : scheduler.ids = (scheduler.timers.toList.map (·.1)).map TimerId.mk := by
    rw [List.map_map]
    rfl
  rw [split]
  exact keys.map fun first second same => congrArg TimerId.key same

theorem scheduledCount_eq (tied : scheduler.Tied) :
    scheduler.scheduledCount = (scheduler.ids.filter scheduler.isScheduled).length := by
  have members : (scheduler.queue.toList.map (·.timer)).Perm
      (scheduler.ids.filter scheduler.isScheduled) := by
    apply (List.perm_ext_iff_of_nodup tied.timers_nodup (scheduler.ids_nodup.filter _)).mpr
    intro id
    rw [List.mem_map, List.mem_filter, mem_ids_iff, isScheduled_iff tied]
    constructor
    · rintro ⟨arming, listed, rfl⟩
      obtain ⟨turn, key, held⟩ := tied.mem_toList_iff.mp listed
      obtain ⟨timer, present, _⟩ := tied.entry held
      exact ⟨by simp [present], arming.expiry, turn, key, held⟩
    · rintro ⟨_, expiry, queued⟩
      exact ⟨⟨expiry, id⟩, tied.mem_toList_iff.mpr queued, rfl⟩
  rw [← members.length_eq, List.length_map, PriorityQueue.length_toList tied.linked]
  rfl

theorem views_cases (tied : scheduler.Tied) :
    (scheduler.nextExpiry? = none ∧ scheduler.nextTimer? = none ∧
      ∀ arming turn, ¬ scheduler.Queued arming turn) ∨
    ∃ arming turn, scheduler.nextExpiry? = some arming.expiry ∧
      scheduler.nextTimer? = some arming.timer ∧ scheduler.Queued arming turn ∧
      ∀ other later, scheduler.Queued other later →
        arming.expiry < other.expiry ∨ arming.expiry = other.expiry ∧ turn ≤ later := by
  rcases tied.front_cases with ⟨front, nothing⟩ | ⟨node, front, queued, first⟩
  · exact .inl ⟨by simp [nextExpiry?, PriorityQueue.peek?, front],
      by simp [nextTimer?, PriorityQueue.peek?, front], nothing⟩
  · exact .inr ⟨node.item, node.turn, by simp [nextExpiry?, PriorityQueue.peek?, front],
      by simp [nextTimer?, PriorityQueue.peek?, front], queued, first⟩

end Scheduler

/-- The views of a scheduler agree with the records of its timers, and with the order in which
these were armed. -/
structure Summarized (armings : List Arming) (scheduler : Scheduler H D) : Prop where
  scheduled : scheduler.scheduledCount = (scheduler.ids.filter scheduler.isScheduled).length
  idle : scheduler.nextExpiry? = none ↔ ∀ id, scheduler.isScheduled id = false
  least : ∀ expiry, scheduler.nextExpiry? = some expiry →
    (∃ id, scheduler.isScheduled id = true ∧ scheduler.expiry? id = some expiry) ∧
      ∀ id due, scheduler.isScheduled id = true → scheduler.expiry? id = some due → expiry ≤ due
  named : scheduler.nextTimer?.isSome = scheduler.nextExpiry?.isSome
  first : ∀ id, scheduler.nextTimer? = some id →
    scheduler.isScheduled id = true ∧ scheduler.expiry? id = scheduler.nextExpiry? ∧
      ∃ number, LastArmed armings id number ∧
        ∀ other, other ≠ id → scheduler.isScheduled other = true →
          scheduler.expiry? other = scheduler.nextExpiry? →
          ∃ later, LastArmed armings other later ∧ number < later
  count : scheduler.timerCount = scheduler.ids.length
  single : scheduler.ids.Nodup
  listed : ∀ id, id ∈ scheduler.ids ↔ (scheduler.view? id).isSome

/-- Entries of two timers come from two armings. -/
private theorem Recorded.turn_lt (recorded : Recorded past before) {one two : Arming}
    {turn later : UInt64} (first : before.scheduler.Queued one turn)
    (second : before.scheduler.Queued two later) (apart : two.timer ≠ one.timer)
    (turns : turn ≤ later) : turn.toNat < later.toNat := by
  apply Nat.lt_of_le_of_ne (UInt64.le_iff_toNat_le.mp turns)
  intro same
  have entry := recorded.queued _ _ first
  rw [same, recorded.queued _ _ second] at entry
  cases entry
  exact apart rfl

private theorem Recorded.summarized (recorded : Recorded past before) (tied : before.scheduler.Tied)
    (sound : before.scheduler.timers.Sound) : Summarized (armings past) before.scheduler := by
  have count : before.scheduler.timerCount = before.scheduler.ids.length := by
    rw [Scheduler.ids, List.length_map, sound.length_toList]
    rfl
  have listed : ∀ id, id ∈ before.scheduler.ids ↔ (before.scheduler.view? id).isSome := by
    intro id
    rw [Scheduler.mem_ids_iff, Scheduler.view?, Option.isSome_map]
  have scheduled := Scheduler.scheduledCount_eq tied
  have single := before.scheduler.ids_nodup
  rcases Scheduler.views_cases tied with
    ⟨noExpiry, noTimer, nothing⟩ | ⟨⟨expiry, timer⟩, turn, due, named, front, least⟩
  · have idle : ∀ id, before.scheduler.isScheduled id = false := by
      intro id
      apply Bool.eq_false_iff.mpr
      intro armed
      obtain ⟨expiry, turn, queued⟩ := (Scheduler.isScheduled_iff tied).mp armed
      exact nothing _ turn queued
    refine ⟨scheduled, ⟨fun _ => idle, fun _ => noExpiry⟩, ?_, by rw [noTimer, noExpiry]; rfl, ?_,
      count, single, listed⟩
    · intro expiry found
      cases noExpiry.symm.trans found
    · intro id found
      cases noTimer.symm.trans found
  · have armed : before.scheduler.isScheduled timer = true :=
      (Scheduler.isScheduled_iff tied).mpr ⟨expiry, turn, front⟩
    have told := Scheduler.expiry?_of_queued tied front
    refine ⟨scheduled, ?_, ?_, by rw [named, due]; rfl, ?_, count, single, listed⟩
    · rw [due]
      refine ⟨fun nothing => ?_, fun idle => ?_⟩
      · cases nothing
      · cases (idle timer).symm.trans armed
    · intro minimum found
      cases due.symm.trans found
      refine ⟨⟨timer, armed, told⟩, ?_⟩
      intro id other scheduled found
      obtain ⟨expiry', turn', queued⟩ := (Scheduler.isScheduled_iff tied).mp scheduled
      cases (Scheduler.expiry?_of_queued tied queued).symm.trans found
      rcases least _ _ queued with less | ⟨same, _⟩
      · exact UInt64.le_of_lt less
      · exact UInt64.le_of_eq same
    · intro id found
      cases named.symm.trans found
      refine ⟨armed, told.trans due.symm, turn.toNat, recorded.latest _ _ front, ?_⟩
      intro other apart scheduled equal
      obtain ⟨expiry', later, queued⟩ := (Scheduler.isScheduled_iff tied).mp scheduled
      have latest := recorded.latest _ _ queued
      refine ⟨later.toNat, latest, ?_⟩
      have same := (Scheduler.expiry?_of_queued tied queued).symm.trans (equal.trans due)
      rcases least _ _ queued with less | ⟨_, turns⟩
      · rw [← Option.some.inj same] at less
        exact absurd less (UInt64.lt_irrefl _)
      · exact recorded.turn_lt front queued apart turns

theorem Run.recorded (run : Run first steps last) (valid : first.Valid)
    (recorded : Recorded past first) (few : (armings (past ++ steps)).length < UInt64.size) :
    Recorded (past ++ steps) last :=
  run.extends_history (fun step valid _ few recorded => step.recorded valid recorded few) valid
    (fun _ _ => trivial) few recorded

private theorem Run.summarized {config : Config} (run : Run (.ofConfig config) steps last)
    (few : (armings steps).length < UInt64.size) : Summarized (armings steps) last.scheduler := by
  have recorded : Recorded steps last :=
    run.recorded (.ofConfig config) (.ofConfig config) (by simpa using few)
  have sound : last.scheduler.timers.Sound := run.preserves Transition.sound .empty
  exact recorded.summarized run.valid.tied sound

/-- Whatever a program does, the views agree with the records before and after each of its steps,
those of its handlers included, and where it ends. -/
theorem System.summarized {config : Config} {shared : W} {react : Reaction H D W} {fuel : Nat}
    {program : Program H D W α}
    (few : (armings (System.steps ⟨.ofConfig config, shared⟩ react fuel program)).length <
      UInt64.size) :
    (∀ earlier step later,
      System.steps ⟨.ofConfig config, shared⟩ react fuel program = earlier ++ step :: later →
      Summarized (armings earlier) step.before.scheduler ∧
        Summarized (armings (earlier ++ [step])) step.after.scheduler) ∧
    ∀ value final,
      System.run ⟨.ofConfig config, shared⟩ react fuel program = some (value, final) →
      Summarized (armings (System.steps ⟨.ofConfig config, shared⟩ react fuel program))
        final.scheduler := by
  refine ⟨fun earlier step later made => ?_, fun value final finished => ?_⟩
  · obtain ⟨last, run, _⟩ := System.steps_make config shared react fuel program
    rw [made, List.append_cons] at run
    rw [made, List.append_cons, armings_append, List.length_append] at few
    obtain ⟨middle, passed, _⟩ := run.split
    have after := passed.summarized (by omega)
    obtain ⟨_, prior, onward⟩ := passed.split
    rw [armings_append, List.length_append] at few
    cases onward with
    | cons made rest =>
      cases rest
      exact ⟨prior.summarized (by omega), after⟩
  · exact (System.steps_lead finished).summarized few

/-- At every moment of a run, inside handlers and between their runs too, the views agree with
the records. Resets do not matter, as long as turns do not wrap. -/
theorem run_summarized {config : Config} (run : Run (.ofConfig config) steps last)
    (few : (armings steps).length < UInt64.size) :
    Summarized (armings steps) last.scheduler := run.summarized few

/-- A handler runs while two timers wait for the same tick, and the one that was started first is
named, not the one that was added first. -/
theorem run_summarized_tie :
    ∃ (steps : List (Step Nat Nat)) (last : Moment Nat Nat), Run (.ofConfig {}) steps last ∧
      last.place = .inside ⟨⟨⟨2, 0⟩⟩, 1, 1, 0⟩ ∧
      last.scheduler.nextTimer? = some ⟨⟨1, 0⟩⟩ ∧ last.scheduler.scheduledCount = 2 ∧
      Summarized (armings steps) last.scheduler := by
  have told : ((Moment.ofConfig {} : Moment Nat Nat).run?
      [.command (.add 7 5), .command (.add 8 5), .command (.add 9 5),
        .command (.start ⟨⟨2, 0⟩⟩ 1 false), .command (.start ⟨⟨1, 0⟩⟩ 2 false),
        .command (.start ⟨⟨0, 0⟩⟩ 2 false), .beginAdvance, .dispatch]).map
      (fun made => (made.2.place, made.2.scheduler.nextTimer?, made.2.scheduler.scheduledCount,
        (armings made.1).length)) =
      some (.inside ⟨⟨⟨2, 0⟩⟩, 1, 1, 0⟩, some ⟨⟨1, 0⟩⟩, 2, 3) := by decide +kernel
  obtain ⟨⟨steps, last⟩, made, same⟩ := Option.map_eq_some_iff.mp told
  obtain ⟨place, named, count, armed⟩ := by simpa only [Prod.mk.injEq] using same
  have run := Moment.run_of_run? made
  refine ⟨steps, last, run, place, named, count, run_summarized run ?_⟩
  rw [armed]
  decide

end Timers
