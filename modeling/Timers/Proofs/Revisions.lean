import Timers.Proofs.Effects

/-! What a command does to the records, said once. It enters a new timer, rewrites the record of
one, drops one timer or all, or leaves the records as they are. What any command keeps of the
records is read off these cases. -/

namespace Timers

variable {H D : Type}

/-- What is lent out of a record stays out, and what is in it stays in. -/
structure Timer.Follows (before after : Timer H D) : Prop where
  handler : before.handler.isSome → after.handler.isSome
  data : after.data.isSome = before.data.isSome
  phase : after.phase = .firing → before.phase = .firing ∧ after.expiry = before.expiry

/-- What a command does to the records: it changes some, adds whole ones, and a record that is
lost leaves its slot. -/
structure Followed (before after : Scheduler H D) : Prop where
  kept : ∀ id timer, before.timer? id = some timer →
    (∃ later, after.timer? id = some later ∧ timer.Follows later) ∨
      after.timers.generationAt id.key.index = before.timers.generationAt id.key.index + 1
  known : ∀ id later, after.timer? id = some later →
    (∃ timer, before.timer? id = some timer ∧ timer.Follows later) ∨ later.Whole

/-- All that an operation does, to the schedule, to the records and to their slots. -/
structure Change (before : Scheduler H D) (armed : Option Arming) (freed : TimerId → Prop)
    (after : Scheduler H D) : Prop where
  effect : Effect before armed freed after
  followed : Followed before after
  generations : ∀ index, after.timers.generationAt index = before.timers.generationAt index ∨
    after.timers.generationAt index = before.timers.generationAt index + 1

namespace Command

def drops (given : Command H D) (scheduler : Scheduler H D) (id : TimerId) : Bool :=
  match given with
  | .remove other => other = id && (scheduler.remove other).1.isOk
  | .reset => true
  | _ => false

/-- The timer whose record a command rewrites. -/
def rewrites? : Command H D → Option TimerId
  | .start id _ _ | .stop id | .rebind id _ | .setPeriod id _ | .modifyData id _ => some id
  | _ => none

/-- Whether a command may unregister timers. -/
def thins : Command H D → Bool
  | .remove _ | .reset => true
  | _ => false

/-- What a command makes of the record of a timer. Where the entry of a started timer is, only the
queue can tell. -/
inductive Rewrites (tick : Tick) (timer : Timer H D) :
    Command H D → TimerId → Timer H D → Prop where
  | start (id : TimerId) (delay : UInt64) (periodic : Bool) (node : NodeKey) :
    Rewrites tick timer (.start id delay periodic) id { timer with
      expiry := tick.after delay, period := if periodic then delay else 0,
      phase := .scheduled, node := some node }
  | stop (id : TimerId) : Rewrites tick timer (.stop id) id { timer with
      node := none
      phase := if timer.node.isSome || timer.phase == .firing then .stopped else timer.phase }
  | rebind (id : TimerId) (handler : H) :
    Rewrites tick timer (.rebind id handler) id { timer with handler := some handler }
  | setPeriod (id : TimerId) (period : UInt64) :
    Rewrites tick timer (.setPeriod id period) id { timer with period }
  | modifyData (id : TimerId) (change : D → D) :
    Rewrites tick timer (.modifyData id change) id { timer with data := timer.data.map change }

theorem Rewrites.follows {tick : Tick} {timer later : Timer H D} {given : Command H D}
    {id : TimerId} (rewrites : given.Rewrites tick timer id later) : timer.Follows later := by
  cases rewrites with
  | start => exact ⟨fun held => held, rfl, by simp⟩
  | stop =>
    refine ⟨fun held => held, rfl, fun phase => ?_⟩
    by_cases firing : timer.phase = .firing
    · simp [firing] at phase
    · simp only at phase
      split at phase
      · cases phase
      · exact absurd phase firing
  | rebind => exact ⟨fun _ => rfl, rfl, fun firing => ⟨firing, rfl⟩⟩
  | setPeriod => exact ⟨fun held => held, rfl, fun firing => ⟨firing, rfl⟩⟩
  | modifyData => exact ⟨fun held => held, Option.isSome_map, fun firing => ⟨firing, rfl⟩⟩

theorem Rewrites.names {tick : Tick} {timer later : Timer H D} {given : Command H D} {id : TimerId}
    (rewrites : given.Rewrites tick timer id later) : given.rewrites? = some id := by
  cases rewrites <;> rfl

end Command

private theorem Timer.Follows.refl (timer : Timer H D) : timer.Follows timer :=
  ⟨id, rfl, fun firing => ⟨firing, rfl⟩⟩

/-- What a command has done to the records and to their slots. -/
inductive Revised (before after : Scheduler H D) : Command H D → Prop where
  | entered {handler : H} {data : D}
    (fresh : before.timer? (before.add handler data).1 = none)
    (timers : ∀ other, after.timer? other =
      if other = (before.add handler data).1 then
        some { handler := some handler, data := some data }
      else before.timer? other)
    (generations : ∀ index,
      after.timers.generationAt index = before.timers.generationAt index) :
    Revised before after (.add handler data)
  | rewritten {given : Command H D} {id : TimerId} {timer later : Timer H D}
    (found : before.timer? id = some timer) (rewrites : given.Rewrites before.tick timer id later)
    (timers : ∀ other, after.timer? other =
      if other = id then some later else before.timer? other)
    (generations : ∀ index,
      after.timers.generationAt index = before.timers.generationAt index) :
    Revised before after given
  | missing {given : Command H D} {id : TimerId} (names : given.rewrites? = some id)
    (absent : before.timer? id = none) (same : after = before) : Revised before after given
  | thinned {given : Command H D} (thins : given.thins = true)
    (timers : ∀ id, after.timer? id =
      if given.drops before id then none else before.timer? id)
    (vacated : ∀ id timer, given.drops before id = true → before.timer? id = some timer →
      after.timers.generationAt id.key.index = before.timers.generationAt id.key.index + 1)
    (generations : ∀ index,
      after.timers.generationAt index = before.timers.generationAt index ∨
        after.timers.generationAt index = before.timers.generationAt index + 1) :
    Revised before after given
  | fed {given : Command H D} (feeds : given.feeds = true) (same : after.timers = before.timers) :
    Revised before after given

namespace Scheduler

variable {scheduler : Scheduler H D} {id : TimerId} {timer : Timer H D}

theorem updateTimer_of_absent (absent : scheduler.timer? id = none)
    (change : Timer H D → Timer H D) : scheduler.updateTimer id change = scheduler := by
  have stale : scheduler.timers.contains id.key = false := by
    simpa [Arena.contains, timer?] using absent
  rw [updateTimer, Arena.modify_of_not_contains stale]

private theorem revised_of_update {given : Command H D} {change : Timer H D → Timer H D}
    (found : scheduler.timer? id = some timer)
    (rewrites : given.Rewrites scheduler.tick timer id (change timer)) :
    Revised scheduler (scheduler.updateTimer id change) given :=
  .rewritten found rewrites (timer?_of_update found change) (Arena.generationAt_modify _ _ _)

theorem perform_revises (tied : scheduler.Tied) (given : Command H D) :
    Revised scheduler (scheduler.perform given).2 given := by
  by_cases feeds : given.feeds = true
  · obtain ⟨_, same⟩ := scheduler.feeds_frame feeds
    exact .fed feeds (congrArg (·.timers) same)
  cases given with
  | add handler data =>
    obtain ⟨_, fresh, timers⟩ := add_adds tied handler data
    exact .entered fresh timers (Arena.generationAt_insert _ _)
  | start id delay periodic =>
    cases found : scheduler.timer? id with
    | none => exact .missing rfl found (by rw [perform, start_of_absent found])
    | some timer =>
      obtain ⟨after, node, started, _, timers, generations⟩ :=
        start_starts tied found delay periodic
      rw [perform, started]
      exact .rewritten found (.start id delay periodic node) timers generations
  | stop id =>
    cases found : scheduler.timer? id with
    | none => exact .missing rfl found (by rw [perform, stop_of_absent found])
    | some timer =>
      obtain ⟨after, stopped, _, timers, generations⟩ := stop_stops tied found
      rw [perform, stopped]
      exact .rewritten found (.stop id) timers generations
  | rebind id handler =>
    cases found : scheduler.timer? id with
    | none => exact .missing rfl found (by simp only [perform, rebind, found])
    | some timer =>
      simp only [perform, rebind, found]
      exact revised_of_update found (.rebind id handler)
  | setPeriod id period =>
    cases found : scheduler.timer? id with
    | none => exact .missing rfl found (by simp only [perform, setPeriod, found])
    | some timer =>
      simp only [perform, setPeriod, found]
      exact revised_of_update found (.setPeriod id period)
  | modifyData id change =>
    cases found : scheduler.timer? id with
    | none => exact .missing rfl found (updateTimer_of_absent found _)
    | some timer => exact revised_of_update found (.modifyData id change)
  | remove id =>
    rcases scheduler.remove_cases id with
      ⟨error, refused⟩ | ⟨timer, handler, data, found, taken, given⟩
    · have kept : ∀ other, (Command.remove id).drops scheduler other = false := by
        simp [Command.drops, refused]
      rw [perform, refused]
      exact .thinned rfl (by simp [kept]) (by simp [kept]) fun _ => .inl rfl
    · obtain ⟨after, removed, _, timers, generations⟩ := remove_removes tied found taken given
      have drops : ∀ other, (Command.remove id).drops scheduler other = true ↔ other = id := by
        simp [Command.drops, removed, eq_comm]
      rw [perform, removed]
      refine .thinned rfl ?_ ?_ fun index => ?_
      · simp only [drops, timers, implies_true]
      · intro other timer dropped _
        rw [generations, (drops other).mp dropped, if_pos rfl]
      · rw [generations]
        split
        · exact .inr rfl
        · exact .inl rfl
  | reset =>
    have cleared := scheduler.timers.generationAt_clear
    refine .thinned rfl scheduler.timer?_reset ?_ fun index => ?_
    · intro id timer _ found
      have moved := cleared id.key.index
      rw [Arena.getAt?_of_get? found] at moved
      exact moved
    · rw [perform, reset, cleared]
      split
      · exact .inr rfl
      · exact .inl rfl
  | takeReporter | receive | drainEvents => exact absurd rfl feeds

end Scheduler

namespace Revised

variable {before after : Scheduler H D} {given : Command H D} {id : TimerId}
  {timer later : Timer H D}

theorem keeps (revised : Revised before after given) (kept : given.drops before id = false)
    (found : before.timer? id = some timer) :
    ∃ later, after.timer? id = some later ∧ timer.Follows later := by
  cases revised with
  | @entered handler data fresh timers =>
    have old : id ≠ (before.add handler data).1 := by
      rintro rfl
      rw [fresh] at found
      cases found
    exact ⟨timer, by rw [timers, if_neg old, found], .refl timer⟩
  | rewritten present rewrites timers =>
    rw [timers]
    split
    next same =>
      subst same
      cases present.symm.trans found
      exact ⟨_, rfl, rewrites.follows⟩
    next => exact ⟨timer, found, .refl timer⟩
  | missing _ _ same => exact ⟨timer, same ▸ found, .refl timer⟩
  | thinned _ timers => exact ⟨timer, by rw [timers, kept, found]; rfl, .refl timer⟩
  | fed _ same => exact ⟨timer, by rw [Scheduler.timer?, same]; exact found, .refl timer⟩

theorem dropped (revised : Revised before after given) (drops : given.drops before id = true) :
    after.timer? id = none ∧ ∀ timer, before.timer? id = some timer →
      after.timers.generationAt id.key.index = before.timers.generationAt id.key.index + 1 := by
  cases revised with
  | thinned _ timers vacated =>
    exact ⟨by rw [timers, if_pos drops], fun timer found => vacated id timer drops found⟩
  | entered => cases drops
  | rewritten _ rewrites => cases rewrites <;> cases drops
  | missing names =>
    cases given with
    | remove | reset => cases names
    | _ => cases drops
  | fed feeds =>
    cases given with
    | remove | reset => cases feeds
    | _ => cases drops

/-- A record that is there after a command was there before, or it is that of a new timer. -/
theorem known (revised : Revised before after given) (found : after.timer? id = some later) :
    (∃ timer, before.timer? id = some timer ∧ timer.Follows later) ∨
      ∃ handler data, given = .add handler data ∧ id = (before.add handler data).1 ∧
        later = { handler := some handler, data := some data } := by
  cases revised with
  | @entered handler data _ timers =>
    rw [timers] at found
    split at found
    next same =>
      cases found
      exact .inr ⟨handler, data, rfl, same, rfl⟩
    next => exact .inl ⟨later, found, .refl later⟩
  | rewritten present rewrites timers =>
    rw [timers] at found
    split at found
    next same =>
      cases found
      exact .inl ⟨_, same ▸ present, rewrites.follows⟩
    next => exact .inl ⟨later, found, .refl later⟩
  | missing _ _ same => exact .inl ⟨later, same ▸ found, .refl later⟩
  | thinned _ timers =>
    rw [timers] at found
    split at found
    · cases found
    · exact .inl ⟨later, found, .refl later⟩
  | fed _ same =>
    rw [Scheduler.timer?, same] at found
    exact .inl ⟨later, found, .refl later⟩

theorem followed (revised : Revised before after given) : Followed before after where
  kept := by
    intro id timer found
    cases drops : given.drops before id with
    | false => exact .inl (revised.keeps drops found)
    | true => exact .inr ((revised.dropped drops).2 timer found)
  known := by
    intro id later found
    rcases revised.known found with known | ⟨handler, data, _, _, rfl⟩
    · exact .inl known
    · exact .inr ⟨rfl, rfl, by simp [Phase.initial]⟩

theorem generations (revised : Revised before after given) (index : Nat) :
    after.timers.generationAt index = before.timers.generationAt index ∨
      after.timers.generationAt index = before.timers.generationAt index + 1 := by
  cases revised with
  | entered _ _ generations => exact .inl (generations index)
  | rewritten _ _ _ generations => exact .inl (generations index)
  | missing _ _ same => exact .inl (by rw [same])
  | thinned _ _ _ generations => exact generations index
  | fed _ same => exact .inl (by rw [same])

end Revised

/-- All that a command does: whom it disturbs is taken off the schedule, and whom it starts is put
on. -/
theorem Scheduler.perform_changes {scheduler : Scheduler H D} (tied : scheduler.Tied)
    (given : Command H D) :
    Change scheduler
      ((given.starts? scheduler).bind fun id => (scheduler.perform given).2.armed? id)
      (fun id => given.disturbs scheduler id = true) (scheduler.perform given).2 where
  effect := perform_effect tied given
  followed := (perform_revises tied given).followed
  generations := (perform_revises tied given).generations

end Timers
