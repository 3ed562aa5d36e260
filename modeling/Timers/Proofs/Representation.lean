import Timers.Proofs.Executions
import Timers.Proofs.Revisions

/-! What holds of a scheduler at every moment. Records and entries are tied to each other, and
handler and data are in every record but that of the timer whose handler runs. -/

namespace Timers

variable {H D : Type}

/-- The timer whose handler is running. -/
def Place.running? : Place → Option TimerId
  | .inside firing => some firing.timer
  | _ => none

@[simp] theorem Place.running?_outside : Place.outside.running? = none := rfl

@[simp] theorem Place.running?_between : Place.between.running? = none := rfl

/-- A timer that is still marked as firing has not been started since, so it is due when it
was when its handler began. -/
structure Moment.Valid (moment : Moment H D) : Prop where
  tied : moment.scheduler.Tied
  whole : ∀ id timer, moment.scheduler.timer? id = some timer →
    moment.place.running? ≠ some id → timer.Whole
  running : ∀ firing timer, moment.place = .inside firing →
    moment.scheduler.timer? firing.timer = some timer → timer.phase = .firing →
    timer.expiry = firing.expiry

private theorem Timer.Whole.follow {timer later : Timer H D} (whole : timer.Whole)
    (follows : timer.Follows later) : later.Whole where
  handler := follows.handler whole.handler
  data := follows.data.trans whole.data
  phase := fun firing => whole.phase (follows.phase firing).1

theorem Scheduler.timer?_ofConfig (config : Config) (id : TimerId) :
    (Scheduler.ofConfig config : Scheduler H D).timer? id = none := by
  simp [Scheduler.timer?, Scheduler.ofConfig, Arena.get?, Arena.entryAt?]

theorem Scheduler.not_queued_ofConfig (config : Config) (arming : Arming) (turn : UInt64) :
    ¬ (Scheduler.ofConfig config : Scheduler H D).Queued arming turn := by
  rintro ⟨key, held⟩
  cases (PriorityQueue.held?_empty key).symm.trans held

namespace Moment

theorem Valid.ofConfig (config : Config) : (Moment.ofConfig config : Moment H D).Valid where
  tied := by
    have nothing : ∀ key, (Scheduler.ofConfig config : Scheduler H D).queue.held? key = none :=
      PriorityQueue.held?_empty
    apply Scheduler.Tied.of PriorityQueue.empty_linked PriorityQueue.empty_ordered
    · intro key arming turn held
      rw [Moment.ofConfig, nothing] at held
      cases held
    · intro id timer key found
      rw [Moment.ofConfig, Scheduler.timer?_ofConfig] at found
      cases found
    · intro id timer found
      rw [Moment.ofConfig, Scheduler.timer?_ofConfig] at found
      cases found
  whole := by
    intro id timer found
    rw [Moment.ofConfig, Scheduler.timer?_ofConfig] at found
    cases found
  running := by
    intro firing timer place
    cases place

section Dispatch

variable {scheduler popped : Scheduler H D} {arming : Arming} {turn : UInt64}
  (valid : (⟨.between, scheduler⟩ : Moment H D).Valid)
  (due : scheduler.popDue? = some (arming, turn, popped))

include valid due

theorem Valid.dispatches : ∃ timer given after, popped.lend arming.timer = (some given, after) ∧
    scheduler.Taken arming turn timer after :=
  Scheduler.popDue?_takes valid.tied
    (fun id timer found =>
      have whole := valid.whole id timer found (by simp)
      ⟨whole.handler, whole.data⟩) due

theorem Valid.dispatch_takes {given : H × D} {lent : Scheduler H D}
    (taken : popped.lend arming.timer = (some given, lent)) :
    ∃ timer, scheduler.Taken arming turn timer lent := by
  obtain ⟨timer, given', after, taken', takes⟩ := valid.dispatches due
  rw [taken] at taken'
  cases taken'
  exact ⟨timer, takes⟩

/-- The entry that is due is never skipped. -/
theorem Valid.not_skipped {left : Scheduler H D} : popped.lend arming.timer ≠ (none, left) := by
  obtain ⟨timer, given, after, taken, _⟩ := valid.dispatches due
  rw [taken]
  intro refused
  cases refused

end Dispatch

end Moment

theorem Transition.valid {action : Action H D} {before after : Moment H D}
    (step : Transition action before after) (valid : before.Valid) : after.Valid := by
  cases step with
  | @command place scheduler given awake =>
    obtain ⟨effect, followed, _⟩ := Scheduler.perform_changes valid.tied given
    refine ⟨effect.tied, ?_, ?_⟩
    · intro id later found idle
      rcases followed.known id later found with ⟨timer, known, follows⟩ | whole
      · exact (valid.whole id timer known idle).follow follows
      · exact whole
    · intro firing later running found phase
      rcases followed.known _ later found with ⟨timer, known, follows⟩ | whole
      · obtain ⟨phase', expiry⟩ := follows.phase phase
        exact expiry.trans (valid.running firing timer running known phase')
      · exact absurd phase whole.phase
  | beginAdvance begins =>
    obtain ⟨_, tick, _, rfl⟩ := Scheduler.beginAdvance_eq begins
    exact ⟨valid.tied.congr rfl rfl, valid.whole, by simp⟩
  | @dispatch scheduler popped lent arming turn given due taken =>
    obtain ⟨timer, takes⟩ := valid.dispatch_takes due taken
    refine ⟨takes.tied, ?_, ?_⟩
    · intro id later found idle
      have apart : id ≠ arming.timer := fun same => idle (congrArg some same.symm)
      rw [takes.timers, if_neg apart] at found
      exact valid.whole id later found (by simp)
    · intro firing later running found phase
      cases running
      rw [takes.timers, if_pos rfl] at found
      cases found
      exact takes.expiry
  | skip due refused => exact absurd refused (valid.not_skipped due)
  | @settle firing scheduler handler data =>
    obtain ⟨armed, settled⟩ :=
      Scheduler.settle_settles valid.tied firing.timer firing.tick handler data
    refine ⟨settled.effect.tied, ?_, by simp⟩
    intro id later found _
    rcases settled.timers id later found with ⟨apart, kept⟩ | whole
    · exact valid.whole id later kept fun same => apart (Option.some.inj same).symm
    · exact whole
  | endAdvance finished => exact ⟨valid.tied.congr rfl rfl, valid.whole, by simp⟩

theorem Run.valid {config : Config} {steps : List (Step H D)} {moment : Moment H D}
    (run : Run (.ofConfig config) steps moment) : moment.Valid :=
  run.preserves Transition.valid (.ofConfig config)

/-- What every step of some kind keeps between valid moments, a run of such steps keeps. -/
theorem Run.keeps_valid {holds : Moment H D → Prop} {allows : Step H D → Prop}
    {first last : Moment H D} {steps : List (Step H D)}
    (kept : ∀ {action before after}, Transition action before after → before.Valid →
      allows ⟨before, action, after⟩ → holds before → holds after)
    (run : Run first steps last) (valid : first.Valid) (allowed : ∀ step ∈ steps, allows step)
    (start : holds first) : holds last := by
  induction run with
  | nil => exact start
  | cons step _ ih =>
    obtain ⟨now, later⟩ := List.forall_mem_cons.mp allowed
    exact ih (step.valid valid) later (kept step valid now start)

/-- No generation of a timer's slot wraps. -/
def Step.Unwrapped (step : Step H D) : Prop :=
  step.before.scheduler.timers.Unwrapped step.after.scheduler.timers

/-- The running timer is registered without data, or it is gone for good. -/
def Moment.Lends (moment : Moment H D) : Prop :=
  ∀ firing, moment.place = .inside firing →
    (∃ timer, moment.scheduler.timer? firing.timer = some timer ∧ timer.data = none) ∨
      moment.scheduler.timers.Outdated firing.timer.key

theorem Moment.Lends.ofConfig (config : Config) : (Moment.ofConfig config : Moment H D).Lends := by
  intro firing place
  cases place

theorem Transition.lends {action : Action H D} {before after : Moment H D}
    (step : Transition action before after) (valid : before.Valid) (lends : before.Lends)
    (unwrapped : before.scheduler.timers.Unwrapped after.scheduler.timers) : after.Lends := by
  intro firing running
  cases step with
  | @command place scheduler given awake =>
    have followed := (Scheduler.perform_changes valid.tied given).followed
    rcases lends firing running with ⟨timer, found, lent⟩ | outdated
    · rcases followed.kept _ timer found with ⟨later, kept, follows⟩ | moved
      · have data := follows.data
        rw [lent] at data
        exact .inl ⟨later, kept, by simpa using data⟩
      · exact .inr (Arena.outdated_of_vacated found moved (unwrapped _))
    · exact .inr (outdated.keep (unwrapped _))
  | @dispatch scheduler popped lent arming turn given due taken =>
    obtain ⟨timer, takes⟩ := valid.dispatch_takes due taken
    cases running
    exact .inl ⟨timer.lentOut, by rw [takes.timers, if_pos rfl], rfl⟩
  | beginAdvance | skip | settle | endAdvance => cases running

theorem Run.lends {first last : Moment H D} {steps : List (Step H D)} (run : Run first steps last)
    (valid : first.Valid) (lends : first.Lends) (unwrapped : ∀ step ∈ steps, step.Unwrapped) :
    last.Lends :=
  run.keeps_valid (fun step valid now lends => step.lends valid lends now) valid unwrapped lends

private theorem Transition.generationAt {action : Action H D} {before after : Moment H D}
    (step : Transition action before after) (valid : before.Valid) (index : Nat) :
    after.scheduler.timers.generationAt index = before.scheduler.timers.generationAt index ∨
      after.scheduler.timers.generationAt index =
        before.scheduler.timers.generationAt index + 1 := by
  cases step with
  | command given awake => exact (Scheduler.perform_changes valid.tied given).generations index
  | beginAdvance begins =>
    obtain ⟨_, tick, _, rfl⟩ := Scheduler.beginAdvance_eq begins
    exact .inl rfl
  | dispatch due taken =>
    obtain ⟨timer, takes⟩ := valid.dispatch_takes due taken
    exact .inl (takes.generations index)
  | skip due refused => exact absurd refused (valid.not_skipped due)
  | settle handler data => exact .inl (Scheduler.generationAt_settle _ _ _ _ _ index)
  | endAdvance finished => exact .inl rfl

private theorem unwrapped_of_room {first last : Moment H D} {steps : List (Step H D)}
    (run : Run first steps last) (valid : first.Valid)
    (room : ∀ index, (first.scheduler.timers.generationAt index).toNat + steps.length < UInt32.size) :
    ∀ step ∈ steps, step.Unwrapped := by
  induction run with
  | nil => simp
  | @cons action before after last steps step _ ih =>
    obtain ⟨unwrapped, grown⟩ := Arena.unwrapped_of_step (step.generationAt valid)
      fun index => by
        have bound := room index
        rw [List.length_cons] at bound
        omega
    refine List.forall_mem_cons.mpr ⟨unwrapped, ih (step.valid valid) fun index => ?_⟩
    have bound := room index
    have reached := grown index
    rw [List.length_cons] at bound
    omega

theorem Run.unwrapped_of_short {config : Config} {moment : Moment H D} {steps : List (Step H D)}
    (run : Run (.ofConfig config) steps moment) (short : steps.length < UInt32.size) :
    ∀ step ∈ steps, step.Unwrapped :=
  unwrapped_of_room run (.ofConfig config) fun index => by
    simpa [Moment.ofConfig, Scheduler.ofConfig, Arena.generationAt] using short

/-- How a scheduler represents its schedule. Nodes are for scheduled timers, and a node finds
the entry of its timer. Every entry has one timer that points at it, and the heap lists every
entry once and none twice for a timer. Only of the timer whose handler runs, handler or data may
be missing or the phase may be firing; as long as it is registered, its data are missing. -/
structure Moment.Represented (moment : Moment H D) : Prop where
  scheduled : ∀ id timer, moment.scheduler.timer? id = some timer →
    (timer.node.isSome ↔ timer.phase = .scheduled)
  resolves : ∀ id timer key, moment.scheduler.timer? id = some timer → timer.node = some key →
    moment.scheduler.queue.get? key = some ⟨timer.expiry, id⟩
  pointed : ∀ key arming, moment.scheduler.queue.get? key = some arming →
    ∃ id, (∃ timer, moment.scheduler.timer? id = some timer ∧ timer.node = some key) ∧
      ∀ other timer, moment.scheduler.timer? other = some timer → timer.node = some key →
        other = id
  listed : ∀ arming, arming ∈ moment.scheduler.queue.toList ↔
    ∃ key, moment.scheduler.queue.get? key = some arming
  single : (moment.scheduler.queue.toList.map (·.timer)).Nodup
  whole : ∀ id timer, moment.scheduler.timer? id = some timer →
    (∀ firing, moment.place = .inside firing → firing.timer ≠ id) →
    timer.handler.isSome ∧ timer.data.isSome ∧ timer.phase ≠ .firing
  lent : ∀ firing timer, moment.place = .inside firing →
    moment.scheduler.timer? firing.timer = some timer → timer.data = none

private theorem held?_of_get? {scheduler : Scheduler H D} {key : NodeKey} {arming : Arming}
    (found : scheduler.queue.get? key = some arming) :
    ∃ turn, scheduler.queue.held? key = some (arming, turn) := by
  rw [PriorityQueue.get?_eq_held?] at found
  obtain ⟨⟨_, turn⟩, held, rfl⟩ := Option.map_eq_some_iff.mp found
  exact ⟨turn, held⟩

theorem Moment.Valid.represented {moment : Moment H D} (valid : moment.Valid)
    (lends : moment.Lends) : moment.Represented := by
  obtain ⟨tied, whole, running⟩ := valid
  refine ⟨fun id timer found => tied.phase found, ?_, ?_, ?_, tied.timers_nodup, ?_, ?_⟩
  · intro id timer key found node
    obtain ⟨turn, held⟩ := tied.record found node
    rw [PriorityQueue.get?_eq_held?, held]
    rfl
  · intro key arming found
    obtain ⟨turn, held⟩ := held?_of_get? found
    obtain ⟨timer, present, node, _⟩ := tied.entry held
    refine ⟨arming.timer, ⟨timer, present, node⟩, ?_⟩
    intro other timer' present' node'
    obtain ⟨turn', held'⟩ := tied.record present' node'
    rw [held] at held'
    cases held'
    rfl
  · exact fun arming => PriorityQueue.mem_toList_iff tied.linked
  · intro id timer found idle
    have apart : moment.place.running? ≠ some id := by
      intro same
      cases place : moment.place with
      | inside firing =>
        rw [place] at same
        exact idle firing place (Option.some.inj same)
      | outside | between =>
        rw [place] at same
        cases same
    obtain ⟨handler, data, phase⟩ := whole id timer found apart
    exact ⟨handler, data, phase⟩
  · intro firing timer place found
    rcases lends firing place with ⟨timer', found', lent⟩ | outdated
    · rw [found] at found'
      cases found'
      exact lent
    · have lapsed : moment.scheduler.timer? firing.timer = none := outdated.get?
      rw [found] at lapsed
      cases lapsed

theorem Run.represented {config : Config} {steps : List (Step H D)} {moment : Moment H D}
    (run : Run (.ofConfig config) steps moment) (unwrapped : ∀ step ∈ steps, step.Unwrapped) :
    moment.Represented :=
  run.valid.represented (run.lends (.ofConfig config) (.ofConfig config) unwrapped)

/-- Every moment that a scheduler reaches is represented, whatever commands it is given and
whatever its handlers do, as long as no generation of a slot wraps. And whatever a program does
on a system that starts with such a scheduler, its steps go from one such moment to the next, inside
handlers too, whether or not the program ends within its bound; and they lead to where it ends. -/
theorem run_represented (config : Config) :
    (∀ (steps : List (Step H D)) (moment : Moment H D), Run (.ofConfig config) steps moment →
      (∀ step ∈ steps, step.Unwrapped) → moment.Represented) ∧
    ∀ (W α : Type) (react : Reaction H D W) (fuel : Nat) (shared : W) (program : Program H D W α),
      ((∀ step ∈ System.steps ⟨.ofConfig config, shared⟩ react fuel program, step.Unwrapped) →
        ∀ step ∈ System.steps ⟨.ofConfig config, shared⟩ react fuel program,
          step.before.Represented ∧ step.after.Represented) ∧
      ∀ (value : α) (final : System H D W),
        System.run ⟨.ofConfig config, shared⟩ react fuel program = some (value, final) →
        Run (.ofConfig config) (System.steps ⟨.ofConfig config, shared⟩ react fuel program)
            ⟨.outside, final.scheduler⟩ ∧
          ((∀ step ∈ System.steps ⟨.ofConfig config, shared⟩ react fuel program, step.Unwrapped) →
            (⟨.outside, final.scheduler⟩ : Moment H D).Represented) := by
  refine ⟨fun steps moment => Run.represented, fun W α react fuel shared program => ?_⟩
  refine ⟨fun unwrapped step member => ?_, fun value final finished => ?_⟩
  · obtain ⟨last, run, _⟩ := System.steps_make config shared react fuel program
    obtain ⟨earlier, later, split⟩ := List.append_of_mem member
    rw [split] at run unwrapped
    obtain ⟨past, future⟩ := List.forall_mem_append.mp unwrapped
    obtain ⟨now, _⟩ := List.forall_mem_cons.mp future
    obtain ⟨middle, passed, onward⟩ := run.split
    cases onward with
    | cons step _ =>
      refine ⟨passed.represented past, (passed.append (.single step)).represented ?_⟩
      exact List.forall_mem_append.mpr ⟨past, by simpa using now⟩
  · have run := System.steps_lead finished
    exact ⟨run, run.represented⟩

/-- A handler runs, and its timer is marked as firing without data and without an entry. -/
theorem run_represented_inside :
    ∃ (steps : List (Step Nat Nat)) (moment : Moment Nat Nat) (firing : Firing),
      Run (.ofConfig {}) steps moment ∧ moment.place = .inside firing ∧ moment.Represented := by
  have told : ((Moment.ofConfig {} : Moment Nat Nat).run?
      [.command (.add 7 5), .command (.start ⟨⟨0, 0⟩⟩ 1 true), .beginAdvance, .dispatch]).map
      (fun made => (made.1.length, made.2.place)) =
      some (4, .inside ⟨⟨⟨0, 0⟩⟩, 1, 1, 0⟩) := by decide +kernel
  obtain ⟨⟨steps, moment⟩, made, same⟩ := Option.map_eq_some_iff.mp told
  obtain ⟨length, place⟩ := Prod.mk.inj same
  have run := Moment.run_of_run? made
  have short : steps.length < UInt32.size := by
    rw [length]
    decide
  exact ⟨steps, moment, _, run, place,
    (run_represented {}).1 steps moment run (run.unwrapped_of_short short)⟩

end Timers
