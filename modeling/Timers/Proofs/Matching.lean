import Timers.Proofs.Enrolment
import Timers.Proofs.Errands
import Timers.Proofs.Lockstep

/-! Two schedulers to which the same timers have been added, each under its own id. What they tell
is the same when timers are named by their numbers. -/

namespace Timers

variable {H D : Type} {action action' : Action H D} {before after before' after' : Moment H D}
  {issued issued' : List TimerId} {id other : TimerId}

/-- Two moments that differ only in the ids of the timers, the first of which has not fewer
turns behind it. -/
structure Matched (issued issued' : List TimerId) (moment moment' : Moment H D) : Prop where
  valid : moment.Valid
  valid' : moment'.Valid
  paced : moment.Paced
  paced' : moment'.Paced
  enrolled : moment.scheduler.Enrolled issued
  enrolled' : moment'.scheduler.Enrolled issued'
  length : issued.length = issued'.length
  alike : Alike (Numbered issued issued') moment.scheduler moment'.scheduler

private theorem Command.feeds_issues {given : Command H D} (feeds : given.feeds = true)
    (scheduler : Scheduler H D) : given.issues scheduler = [] := by
  cases given with
  | add handler data => cases feeds
  | _ => rfl

namespace Command.Matches

variable {known : TimerId → TimerId → Prop} {given given' : Command H D}

private theorem issues (matches' : given.Matches known given') (scheduler : Scheduler H D) :
    given.issues scheduler = [] := by
  cases matches' with
  | feed feeds => exact feeds_issues feeds scheduler
  | _ => rfl

private theorem issues' (matches' : given.Matches known given') (scheduler : Scheduler H D) :
    given'.issues scheduler = [] := by
  cases matches' with
  | feed feeds => exact feeds_issues feeds scheduler
  | _ => rfl

end Command.Matches

private theorem Step.unwrapped_of_same {step : Step H D}
    (same : ∀ index, step.after.scheduler.timers.generationAt index =
      step.before.scheduler.timers.generationAt index) : step.Unwrapped :=
  fun index => UInt32.le_of_eq (same index).symm

namespace Matched

theorem step (matched : Matched issued issued' before before')
    (step : Transition action before after) (step' : Transition action' before' after')
    (unwrapped : Step.Unwrapped ⟨before, action, after⟩)
    (unwrapped' : Step.Unwrapped ⟨before', action', after'⟩)
    (length : (Step.issues ⟨before, action, after⟩).length =
      (Step.issues ⟨before', action', after'⟩).length)
    (alike : Alike (Numbered (issued ++ Step.issues ⟨before, action, after⟩)
      (issued' ++ Step.issues ⟨before', action', after'⟩)) after.scheduler after'.scheduler) :
    Matched (issued ++ Step.issues ⟨before, action, after⟩)
      (issued' ++ Step.issues ⟨before', action', after'⟩) after after' where
  valid := step.valid matched.valid
  valid' := step'.valid matched.valid'
  paced := step.paced matched.paced
  paced' := step'.paced matched.paced'
  enrolled := step.enrolled matched.valid unwrapped matched.enrolled
  enrolled' := step'.enrolled matched.valid' unwrapped' matched.enrolled'
  length := by rw [List.length_append, List.length_append, matched.length, length]
  alike := alike

theorem quiet (matched : Matched issued issued' before before')
    (step : Transition action before after) (step' : Transition action' before' after')
    (unwrapped : Step.Unwrapped ⟨before, action, after⟩)
    (unwrapped' : Step.Unwrapped ⟨before', action', after'⟩)
    (nobody : Step.issues ⟨before, action, after⟩ = [])
    (nobody' : Step.issues ⟨before', action', after'⟩ = [])
    (alike : Alike (Numbered issued issued') after.scheduler after'.scheduler) :
    Matched issued issued' after after' := by
  have next := matched.step step step' unwrapped unwrapped'
  rw [nobody, nobody', List.append_nil, List.append_nil] at next
  exact next rfl alike

theorem named (matched : Matched issued issued' before before')
    (same : Numbered issued issued' id other) : issued.idxOf id = issued'.idxOf other :=
  same.idxOf matched.enrolled.single matched.enrolled'.single

/-- Timers that are chosen from both, by what is told of them, have the same numbers. -/
private theorem numbers (matched : Matched issued issued' before before')
    (chosen chosen' : TimerId → Bool)
    (same : ∀ {id other}, Numbered issued issued' id other → chosen id = chosen' other) :
    ((before.scheduler.ids.filter chosen).map issued.idxOf).Perm
      ((before'.scheduler.ids.filter chosen').map issued'.idxOf) := by
  have among : ∀ id ∈ before.scheduler.ids.filter chosen, id ∈ issued := fun id member =>
    matched.enrolled.all id (Scheduler.mem_ids_iff.mp (List.mem_of_mem_filter member))
  have among' : ∀ id ∈ before'.scheduler.ids.filter chosen', id ∈ issued' := fun id member =>
    matched.enrolled'.all id (Scheduler.mem_ids_iff.mp (List.mem_of_mem_filter member))
  apply numbers_perm_of_alike matched.enrolled.single matched.enrolled'.single matched.length
    (before.scheduler.ids_nodup.filter _) (before'.scheduler.ids_nodup.filter _) among among'
  intro id other numbered
  have views := matched.alike.view? numbered
  have listed : (before.scheduler.timer? id).isSome = (before'.scheduler.timer? other).isSome := by
    simpa [Scheduler.view?] using congrArg Option.isSome views
  rw [List.mem_filter, List.mem_filter, Scheduler.mem_ids_iff, Scheduler.mem_ids_iff, listed,
    same numbered]

theorem timers (matched : Matched issued issued' before before') :
    (before.scheduler.ids.map issued.idxOf).Perm (before'.scheduler.ids.map issued'.idxOf) := by
  have perm := matched.numbers (fun _ => true) (fun _ => true) fun _ => rfl
  simpa using perm

theorem timerCount (matched : Matched issued issued' before before') :
    before.scheduler.timerCount = before'.scheduler.timerCount := by
  have count : ∀ {scheduler : Scheduler H D}, scheduler.timers.Sound →
      scheduler.timerCount = scheduler.ids.length := by
    intro scheduler sound
    rw [Scheduler.ids, List.length_map, sound.length_toList]
    rfl
  rw [count matched.enrolled.sound, count matched.enrolled'.sound]
  simpa using matched.timers.length_eq

theorem scheduledCount (matched : Matched issued issued' before before') :
    before.scheduler.scheduledCount = before'.scheduler.scheduledCount := by
  rw [Scheduler.scheduledCount_eq matched.valid.tied, Scheduler.scheduledCount_eq matched.valid'.tied]
  have perm := matched.numbers before.scheduler.isScheduled before'.scheduler.isScheduled
    fun numbered => by
      rw [Scheduler.isScheduled, Scheduler.isScheduled, matched.alike.view? numbered]
  simpa using perm.length_eq

theorem next (matched : Matched issued issued' before before') :
    before.scheduler.nextExpiry? = before'.scheduler.nextExpiry? ∧
      before.scheduler.nextTimer?.map issued.idxOf =
        before'.scheduler.nextTimer?.map issued'.idxOf := by
  obtain ⟨expiry, timer⟩ := matched.alike.next fun {arming turn} queued => by
    obtain ⟨key, held⟩ := queued
    obtain ⟨_, present, _⟩ := matched.valid.tied.entry held
    exact numbered_of_mem matched.length (matched.enrolled.all arming.timer (by simp [present]))
  refine ⟨expiry, ?_⟩
  rcases rel_cases timer with ⟨nobody, nobody'⟩ | ⟨id, other, first, first', same⟩
  · rw [nobody, nobody']
    rfl
  · rw [first, first', Option.map_some, Option.map_some, matched.named same]

section Steps

variable {place place' : Place} {scheduler scheduler' : Scheduler H D}

theorem add (matched : Matched issued issued' ⟨place, scheduler⟩ ⟨place', scheduler'⟩)
    (awake : place ≠ .between) (awake' : place' ≠ .between) (handler : H) (data : D)
    (unwrapped : scheduler.timers.Unwrapped (scheduler.add handler data).2.timers)
    (unwrapped' : scheduler'.timers.Unwrapped (scheduler'.add handler data).2.timers) :
    Matched (issued ++ [(scheduler.add handler data).1]) (issued' ++ [(scheduler'.add handler data).1])
      ⟨place, (scheduler.add handler data).2⟩ ⟨place', (scheduler'.add handler data).2⟩ := by
  have fresh : (scheduler.add handler data).1 ∉ issued := fun member =>
    scheduler.add_fresh handler data (matched.enrolled.accounts _ member)
  have fresh' : (scheduler'.add handler data).1 ∉ issued' := fun member =>
    scheduler'.add_fresh handler data (matched.enrolled'.accounts _ member)
  obtain ⟨effect, absent, timers⟩ := Scheduler.add_adds matched.valid.tied handler data
  obtain ⟨effect', absent', timers'⟩ := Scheduler.add_adds matched.valid'.tied handler data
  apply matched.step (.command (.add handler data) awake) (.command (.add handler data) awake')
    unwrapped unwrapped' rfl
  have added : Alike (Numbered issued issued') (scheduler.add handler data).2
      (scheduler'.add handler data).2 := by
    apply matched.alike.adds handler data
    intro id other numbered
    exact iff_of_false (fun same => fresh (same ▸ numbered.mem.1))
      (fun same => fresh' (same ▸ numbered.mem.2))
  have met := added.meet
    (fun {any} => ⟨fun numbered : Numbered issued issued' _ any => fresh numbered.mem.1,
      fun numbered : Numbered issued issued' any _ => fresh' numbered.mem.2⟩)
    (by rw [Scheduler.bare?_of_timers timers, Scheduler.bare?_of_timers timers', if_pos rfl, if_pos rfl])
    (fun {arming turn} queued same => by
      rcases (effect.queued arming turn).mp queued with ⟨⟨key, held⟩, _⟩ | ⟨arms, _⟩
      · obtain ⟨_, present, _⟩ := matched.valid.tied.entry held
        cases absent.symm.trans (same ▸ present)
      · cases arms)
  have known : (fun any any' => Numbered issued issued' any any' ∨
      any = (scheduler.add handler data).1 ∧ any' = (scheduler'.add handler data).1) =
      Numbered (issued ++ [(scheduler.add handler data).1])
        (issued' ++ [(scheduler'.add handler data).1]) := by
    funext any any'
    exact propext (numbered_snoc_iff matched.length).symm
  exact known ▸ met

theorem perform (matched : Matched issued issued' ⟨place, scheduler⟩ ⟨place', scheduler'⟩)
    (awake : place ≠ .between) (awake' : place' ≠ .between) {given given' : Command H D}
    (matches' : given.Matches (Numbered issued issued') given')
    (unwrapped : scheduler.timers.Unwrapped (scheduler.perform given).2.timers)
    (unwrapped' : scheduler'.timers.Unwrapped (scheduler'.perform given').2.timers)
    (onward : scheduler.queue.nextTurn ≤ (scheduler.perform given).2.queue.nextTurn) :
    given.told issued.idxOf (scheduler.perform given).1 =
        given'.told issued'.idxOf (scheduler'.perform given').1 ∧
      Matched issued issued' ⟨place, (scheduler.perform given).2⟩
        ⟨place', (scheduler'.perform given').2⟩ := by
  obtain ⟨told, alike⟩ := matched.alike.perform matches' matched.named onward
  exact ⟨told, matched.quiet (.command given awake) (.command given' awake') unwrapped unwrapped'
    (matches'.issues scheduler) (matches'.issues' scheduler') alike⟩

theorem begins (matched : Matched issued issued' ⟨.outside, scheduler⟩ ⟨.outside, scheduler'⟩) :
    (∃ error, scheduler.beginAdvance = .error error ∧ scheduler'.beginAdvance = .error error) ∨
      ∃ begun begun', scheduler.beginAdvance = .ok begun ∧ scheduler'.beginAdvance = .ok begun' ∧
        Matched issued issued' ⟨.between, begun⟩ ⟨.between, begun'⟩ := by
  rcases matched.alike.begins with refused | ⟨begun, begun', begins, begins', alike⟩
  · exact .inl refused
  · obtain ⟨_, _, _, rfl⟩ := Scheduler.beginAdvance_eq begins
    obtain ⟨_, _, _, rfl⟩ := Scheduler.beginAdvance_eq begins'
    exact .inr ⟨_, _, begins, begins', matched.quiet (.beginAdvance begins) (.beginAdvance begins')
      (Step.unwrapped_of_same fun _ => rfl) (Step.unwrapped_of_same fun _ => rfl) rfl rfl alike⟩

theorem ends (matched : Matched issued issued' ⟨.between, scheduler⟩ ⟨.between, scheduler'⟩)
    (finished : scheduler.popDue? = none) (finished' : scheduler'.popDue? = none) :
    Matched issued issued' ⟨.outside, scheduler.endAdvance⟩ ⟨.outside, scheduler'.endAdvance⟩ :=
  matched.quiet (.endAdvance finished) (.endAdvance finished')
    (Step.unwrapped_of_same fun _ => rfl) (Step.unwrapped_of_same fun _ => rfl) rfl rfl
    matched.alike.ends

theorem dispatches (matched : Matched issued issued' ⟨.between, scheduler⟩ ⟨.between, scheduler'⟩) :
    (scheduler.popDue? = none ∧ scheduler'.popDue? = none) ∨
      ∃ expiry id other turn turn' popped popped' given lent lent',
        scheduler.popDue? = some (⟨expiry, id⟩, turn, popped) ∧
        scheduler'.popDue? = some (⟨expiry, other⟩, turn', popped') ∧
        popped.lend id = (some given, lent) ∧ popped'.lend other = (some given, lent') ∧
        Numbered issued issued' id other ∧
        Matched issued issued' ⟨.inside ⟨id, lent.tick, expiry, turn⟩, lent⟩
          ⟨.inside ⟨other, lent'.tick, expiry, turn'⟩, lent'⟩ := by
  cases due : scheduler.popDue? with
  | none => exact .inl ⟨rfl, matched.alike.finished matched.valid' due⟩
  | some taken =>
    obtain ⟨⟨expiry, id⟩, turn, popped⟩ := taken
    obtain ⟨timer, given, lent, lends, takes⟩ := matched.valid.dispatches due
    obtain ⟨other, same⟩ :=
      numbered_of_mem matched.length (matched.enrolled.all id (by simp [takes.found]))
    obtain ⟨turn', popped', lent', due', lends', alike⟩ :=
      matched.alike.dispatches matched.valid due matched.valid' same lends
    obtain ⟨timer', takes'⟩ := matched.valid'.dispatch_takes due' lends'
    exact .inr ⟨expiry, id, other, turn, turn', popped, popped', given, lent, lent', rfl, due',
      lends, lends', same, matched.quiet (.dispatch due lends) (.dispatch due' lends')
        (Step.unwrapped_of_same takes.generations) (Step.unwrapped_of_same takes'.generations)
        rfl rfl alike⟩

theorem settles {firing firing' : Firing}
    (matched : Matched issued issued' ⟨.inside firing, scheduler⟩ ⟨.inside firing', scheduler'⟩)
    (same : Numbered issued issued' firing.timer firing'.timer) (handler : H) (data : D)
    (onward : scheduler.queue.nextTurn ≤
      (scheduler.settle firing.timer firing.tick handler data).queue.nextTurn) :
    Matched issued issued' ⟨.between, scheduler.settle firing.timer firing.tick handler data⟩
      ⟨.between, scheduler'.settle firing'.timer firing'.tick handler data⟩ :=
  matched.quiet (.settle handler data) (.settle handler data)
    (Step.unwrapped_of_same (scheduler.generationAt_settle _ _ _ _))
    (Step.unwrapped_of_same (scheduler'.generationAt_settle _ _ _ _)) rfl rfl
    (matched.alike.settles same firing.tick firing'.tick handler data onward)

end Steps

end Matched

end Timers
