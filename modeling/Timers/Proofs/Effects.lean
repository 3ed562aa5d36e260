import Timers.Proofs.Moments
import Timers.Proofs.Ties

/-! What each operation on a scheduler does to the schedule and to the records. The schedule
loses the entries of the timers that the operation takes off and gains one entry at most,
which has the next turn. -/

namespace Timers

variable {H D : Type}

@[simp] theorem isOk_ok {ε α : Type} (value : α) : (.ok value : Except ε α).isOk = true := rfl

@[simp] theorem isOk_error {ε α : Type} (error : ε) : (.error error : Except ε α).isOk = false := rfl

/-- Whether a command takes a timer off the schedule, or starts it anew. -/
def Command.disturbs (given : Command H D) (scheduler : Scheduler H D) (id : TimerId) : Bool :=
  match given with
  | .start other delay periodic => other = id && (scheduler.start other delay periodic).1.isOk
  | .stop other => other = id && (scheduler.stop other).1.isOk
  | .remove other => other = id && (scheduler.remove other).1.isOk
  | .reset => true
  | _ => false

/-- The timer that a command starts. -/
def Command.starts? (given : Command H D) (scheduler : Scheduler H D) : Option TimerId :=
  match given with
  | .start id delay periodic => if (scheduler.start id delay periodic).1.isOk then some id else none
  | _ => none

/-- What the record of a timer says of its arming. -/
def Scheduler.armed? (scheduler : Scheduler H D) (id : TimerId) : Option Arming :=
  (scheduler.expiry? id).map fun expiry => ⟨expiry, id⟩

/-- What an operation does to the schedule. -/
structure Effect (before : Scheduler H D) (armed : Option Arming) (freed : TimerId → Prop)
    (after : Scheduler H D) : Prop where
  tied : after.Tied
  queued : ∀ arming turn, after.Queued arming turn ↔
    before.Queued arming turn ∧ ¬ freed arming.timer ∨
      armed = some arming ∧ turn = before.queue.nextTurn
  turn : after.queue.nextTurn = before.queue.nextTurn + if armed.isSome then 1 else 0

/-- Handler and data are in the record, and the handler is not running. -/
structure Timer.Whole (timer : Timer H D) : Prop where
  handler : timer.handler.isSome
  data : timer.data.isSome
  phase : timer.phase ≠ .firing

namespace Scheduler

variable {scheduler before after last : Scheduler H D} {id : TimerId} {timer : Timer H D}
  {gone : Option TimerId} {armed : Option Arming} {freed : TimerId → Prop}

theorem TiedBut.congr (tied : before.TiedBut gone) (queue : after.queue = before.queue)
    (timers : after.timers = before.timers) : after.TiedBut gone := by
  obtain ⟨linked, ordered, entry, record, phase⟩ := tied
  simp only [timer?] at entry record phase
  rw [← queue] at linked ordered entry record
  rw [← timers] at entry record phase
  exact ⟨linked, ordered, entry, record, phase⟩

end Scheduler

theorem Effect.none {scheduler : Scheduler H D} (tied : scheduler.Tied) :
    Effect scheduler none (fun _ => False) scheduler where
  tied := tied
  queued := by simp
  turn := by simp

theorem Effect.relabel {before after : Scheduler H D} {armed armed' : Option Arming}
    {freed freed' : TimerId → Prop} (effect : Effect before armed freed after)
    (same : armed' = armed) (frees : ∀ id, freed' id ↔ freed id) :
    Effect before armed' freed' after := by
  obtain rfl : freed' = freed := funext fun id => propext (frees id)
  rw [same]
  exact effect

theorem Effect.congr {before after last : Scheduler H D} {armed : Option Arming}
    {freed : TimerId → Prop} (effect : Effect before armed freed after)
    (queue : last.queue = after.queue) (timers : last.timers = after.timers) :
    Effect before armed freed last where
  tied := effect.tied.congr queue timers
  queued := fun arming turn => (Scheduler.queued_congr queue).trans (effect.queued arming turn)
  turn := by rw [queue, effect.turn]

namespace Scheduler

variable {scheduler after : Scheduler H D} {id : TimerId} {timer : Timer H D}

theorem start_of_absent (absent : scheduler.timer? id = none) (delay : UInt64) (periodic : Bool) :
    scheduler.start id delay periodic = (.error (.invalidTimer id), scheduler) := by
  simp only [start, absent]

theorem stop_of_absent (absent : scheduler.timer? id = none) :
    scheduler.stop id = (.error (.invalidTimer id), scheduler) := by
  simp only [stop, absent]

theorem remove_of_absent (absent : scheduler.timer? id = none) :
    scheduler.remove id = (.error (.invalidTimer id), scheduler) := by
  simp only [remove, absent]

theorem start_starts (tied : scheduler.Tied) (found : scheduler.timer? id = some timer)
    (delay : UInt64) (periodic : Bool) :
    ∃ after node, scheduler.start id delay periodic = (.ok (), after) ∧
      Effect scheduler (some ⟨scheduler.tick.after delay, id⟩) (· = id) after ∧
      (∀ other, after.timer? other =
        if other = id then some { timer with
          expiry := scheduler.tick.after delay, period := if periodic then delay else 0,
          phase := .scheduled, node := some node }
        else scheduler.timer? other) ∧
      ∀ index, after.timers.generationAt index = scheduler.timers.generationAt index := by
  obtain ⟨free, reply, disarmed⟩ := disarm_disarms tied found
  have clock := scheduler.clock_disarm id timer
  rw [reply] at clock
  have tick : free.tick = scheduler.tick := congrArg Prod.fst clock
  have loose := disarmed.tied.update_gone ({ · with period := if periodic then delay else 0 })
  have repeating := timer?_of_update disarmed.found ({ · with period := if periodic then delay else 0 })
  have armed := arm_arms loose ((repeating id).trans (if_pos rfl)) (scheduler.tick.after delay)
  obtain ⟨node, timers⟩ := armed.timers
  have started : scheduler.start id delay periodic = (.ok (),
      ((free.updateTimer id ({ · with period := if periodic then delay else 0 })).arm id
        (scheduler.tick.after delay)).publish (.started id (scheduler.tick.after delay))) := by
    simp only [start, found, reply, tick]
  refine ⟨_, node, started, ?_, ?_, ?_⟩
  · refine Effect.congr ⟨armed.tied, ?_, ?_⟩ rfl rfl
    · intro arming turn
      rw [armed.queued]
      have same : (free.updateTimer id
          ({ · with period := if periodic then delay else 0 })).Queued arming turn ↔
          free.Queued arming turn := Iff.rfl
      have turns : (free.updateTimer id
        ({ · with period := if periodic then delay else 0 })).queue.nextTurn =
          scheduler.queue.nextTurn := disarmed.turn
      rw [same, turns, disarmed.queued, Option.some.injEq, eq_comm (a := arming)]
    · exact armed.turn.trans (congrArg (· + 1) disarmed.turn)
  · intro other
    apply (timers other).trans
    rw [repeating, disarmed.timers]
    split <;> rfl
  · intro index
    exact (armed.generations index).trans
      ((Arena.generationAt_modify _ _ _ index).trans (disarmed.generations index))

private theorem Disarmed.effect {free halted : Scheduler H D}
    (disarmed : Disarmed scheduler id timer free)
    (tied : halted.Tied) (queue : halted.queue = free.queue) :
    Effect scheduler none (· = id) halted where
  tied := tied
  queued := by
    intro arming turn
    rw [queued_congr queue]
    simp [disarmed.queued]
  turn := by simp [queue, disarmed.turn]

theorem stop_stops (tied : scheduler.Tied) (found : scheduler.timer? id = some timer) :
    ∃ after, scheduler.stop id = (.ok timer.node.isSome, after) ∧
      Effect scheduler none (· = id) after ∧
      (∀ other, after.timer? other =
        if other = id then some { timer with
          node := none
          phase := if timer.node.isSome || timer.phase == .firing then .stopped else timer.phase }
        else scheduler.timer? other) ∧
      ∀ index, after.timers.generationAt index = scheduler.timers.generationAt index := by
  obtain ⟨free, reply, disarmed⟩ := disarm_disarms tied found
  by_cases halts : (timer.node.isSome || timer.phase == .firing) = true
  · have stopped : scheduler.stop id = (.ok timer.node.isSome,
        (free.updateTimer id ({ · with phase := .stopped })).publish (.stopped id)) := by
      simp only [stop, found, reply, halts, if_true]
    have timers := timer?_of_update disarmed.found ({ · with phase := .stopped })
    have tied' : (free.updateTimer id ({ · with phase := .stopped })).Tied := by
      apply (disarmed.tied.update_gone _).release
      intro timer' found'
      rw [timers, if_pos rfl] at found'
      cases found'
      exact ⟨rfl, by simp⟩
    refine ⟨_, stopped, (disarmed.effect tied' rfl).congr rfl rfl, ?_, ?_⟩
    · intro other
      apply (timers other).trans
      rw [disarmed.timers, if_pos halts]
      split <;> rfl
    · intro index
      exact (Arena.generationAt_modify _ _ _ index).trans (disarmed.generations index)
  · have stopped : scheduler.stop id = (.ok timer.node.isSome, free.publish (.stopped id)) := by
      simp only [stop, found, reply, halts, if_false, Bool.false_eq_true]
    have phase : timer.phase ≠ .scheduled := by
      intro scheduled
      have node := (tied.phase found).mpr scheduled
      simp [node] at halts
    have tied' : free.Tied := by
      apply disarmed.tied.release
      intro timer' found'
      rw [disarmed.found] at found'
      cases found'
      exact ⟨rfl, phase⟩
    refine ⟨_, stopped, (disarmed.effect tied' rfl).congr rfl rfl, ?_, disarmed.generations⟩
    intro other
    apply (disarmed.timers other).trans
    rw [if_neg halts]

theorem remove_removes (tied : scheduler.Tied) (found : scheduler.timer? id = some timer)
    {handler : H} (taken : timer.handler = some handler) {data : D}
    (given : timer.data = some data) :
    ∃ after, scheduler.remove id = (.ok data, after) ∧
      Effect scheduler none (· = id) after ∧
      (∀ other, after.timer? other = if other = id then none else scheduler.timer? other) ∧
      ∀ index, after.timers.generationAt index =
        if index = id.key.index then scheduler.timers.generationAt index + 1
        else scheduler.timers.generationAt index := by
  obtain ⟨free, reply, disarmed⟩ := disarm_disarms tied found
  have removed : scheduler.remove id =
      (.ok data, { free with timers := (free.timers.remove id.key).2 }) := by
    simp only [remove, found, taken, given, reply]
  have timers : ∀ other, { free with timers := (free.timers.remove id.key).2 }.timer? other =
      if other = id then none else free.timer? other := by
    intro other
    obtain ⟨id⟩ := id
    obtain ⟨other⟩ := other
    simp only [timer?, Arena.get?_remove, TimerId.mk.injEq]
  refine ⟨_, removed, disarmed.effect (disarmed.tied.forget rfl timers) rfl, ?_, ?_⟩
  · intro other
    rw [timers, disarmed.timers]
    split <;> rfl
  · intro index
    rw [← disarmed.generations]
    exact Arena.generationAt_remove disarmed.found index

theorem remove_of_lent (found : scheduler.timer? id = some timer)
    (lent : timer.handler = none ∨ timer.data = none) :
    scheduler.remove id = (.error (.firing id), scheduler) := by
  rcases lent with handler | data
  · simp only [remove, found, handler]
    cases timer.data <;> rfl
  · simp only [remove, found, data]

theorem remove_cases (scheduler : Scheduler H D) (id : TimerId) :
    (∃ error, scheduler.remove id = (.error error, scheduler)) ∨
      ∃ timer handler data, scheduler.timer? id = some timer ∧ timer.handler = some handler ∧
        timer.data = some data := by
  cases found : scheduler.timer? id with
  | none => exact .inl ⟨_, remove_of_absent found⟩
  | some timer =>
    cases taken : timer.handler with
    | none => exact .inl ⟨_, remove_of_lent found (.inl taken)⟩
    | some handler =>
      cases given : timer.data with
      | none => exact .inl ⟨_, remove_of_lent found (.inr given)⟩
      | some data => exact .inr ⟨timer, handler, data, rfl, taken, given⟩

theorem add_adds (tied : scheduler.Tied) (handler : H) (data : D) :
    Effect scheduler none (fun _ => False) (scheduler.add handler data).2 ∧
      scheduler.timer? (scheduler.add handler data).1 = none ∧
      ∀ other, (scheduler.add handler data).2.timer? other =
        if other = (scheduler.add handler data).1 then
          some { handler := some handler, data := some data }
        else scheduler.timer? other := by
  have fresh : scheduler.timer? (scheduler.add handler data).1 = none :=
    Arena.get?_of_insert scheduler.timers _ rfl
  have timers : ∀ other, (scheduler.add handler data).2.timer? other =
      if other = (scheduler.add handler data).1 then
        some { handler := some handler, data := some data }
      else scheduler.timer? other := by
    intro other
    obtain ⟨other⟩ := other
    simp only [add, timer?, Arena.get?_insert, TimerId.mk.injEq]
  have queued : ∀ arming turn, (scheduler.add handler data).2.Queued arming turn ↔
      scheduler.Queued arming turn := fun _ _ => Iff.rfl
  refine ⟨⟨.of tied.linked tied.ordered ?_ ?_ ?_, by simp [queued], by simp [add]⟩, fresh, timers⟩
  · intro key arming turn held
    obtain ⟨timer, found, node, expiry⟩ := tied.entry held
    have old : arming.timer ≠ (scheduler.add handler data).1 := by
      intro same
      rw [same, fresh] at found
      cases found
    exact ⟨timer, by rw [timers, if_neg old, found], node, expiry⟩
  · intro id timer key found node
    rw [timers] at found
    split at found
    · cases found
      cases node
    · exact tied.record found node
  · intro id timer found
    rw [timers] at found
    split at found
    · cases found
      simp [Phase.initial]
    · exact tied.phase found

theorem update_effect (tied : scheduler.Tied) {change : Timer H D → Timer H D}
    (kept : ∀ timer, (change timer).node = timer.node ∧ (change timer).expiry = timer.expiry ∧
      (change timer).phase = timer.phase) :
    Effect scheduler none (fun _ => False) (scheduler.updateTimer id change) where
  tied := tied.update fun _ => kept
  queued := by
    intro arming turn
    have same : (scheduler.updateTimer id change).Queued arming turn ↔
      scheduler.Queued arming turn := Iff.rfl
    simp [same]
  turn := by simp [updateTimer]

theorem reset_effect (scheduler : Scheduler H D) :
    Effect scheduler none (fun _ => True) scheduler.reset := by
  have nothing : ∀ key, scheduler.reset.queue.held? key = none :=
    PriorityQueue.held?_clear scheduler.queue
  refine ⟨.of (PriorityQueue.clear_linked _) (PriorityQueue.clear_ordered _) ?_ ?_ ?_, ?_, ?_⟩
  · intro key arming turn held
    rw [nothing] at held
    cases held
  · intro id timer key found
    rw [timer?_reset] at found
    cases found
  · intro id timer found
    rw [timer?_reset] at found
    cases found
  · simp [Queued, nothing]
  · simp [reset, PriorityQueue.clear]

theorem armed?_start (tied : scheduler.Tied) (found : scheduler.timer? id = some timer)
    (delay : UInt64) (periodic : Bool) :
    (scheduler.start id delay periodic).2.armed? id = some ⟨scheduler.tick.after delay, id⟩ := by
  obtain ⟨after, node, started, _, timers, _⟩ := start_starts tied found delay periodic
  rw [started]
  simp [armed?, expiry?, view?, timers]

theorem armed_of_starts (tied : scheduler.Tied) {given : Command H D}
    (starts : given.starts? scheduler = some id) :
    ∃ delay periodic, given = .start id delay periodic ∧
      (scheduler.perform given).2.armed? id = some ⟨scheduler.tick.after delay, id⟩ := by
  cases given with
  | start other delay periodic =>
    cases found : scheduler.timer? other with
    | none =>
      simp [Command.starts?, start_of_absent found] at starts
    | some timer =>
      obtain ⟨after, node, started, _⟩ := start_starts tied found delay periodic
      simp only [Command.starts?, started, isOk_ok, if_true, Option.some.injEq] at starts
      subst starts
      exact ⟨delay, periodic, rfl, armed?_start tied found delay periodic⟩
  | add | stop | remove | rebind | setPeriod | modifyData | reset | takeReporter | receive
  | drainEvents => cases starts

/-- What a command does to the schedule: whom it disturbs is taken off, and whom it starts is put
on. -/
theorem perform_effect (tied : scheduler.Tied) (given : Command H D) :
    Effect scheduler
      ((given.starts? scheduler).bind fun id => (scheduler.perform given).2.armed? id)
      (fun id => given.disturbs scheduler id = true) (scheduler.perform given).2 := by
  have still : Effect scheduler none (fun _ => False) scheduler := .none tied
  by_cases feeds : given.feeds = true
  · obtain ⟨_, same⟩ := scheduler.feeds_frame feeds
    have quiet : given.starts? scheduler = none ∧ ∀ id, given.disturbs scheduler id = false := by
      cases given with
      | takeReporter | receive | drainEvents => exact ⟨rfl, fun _ => rfl⟩
      | _ => cases feeds
    rw [same]
    exact (still.relabel (by rw [quiet.1]; rfl) (by simp [quiet.2])).congr rfl rfl
  cases given with
  | add handler data =>
    exact (add_adds tied handler data).1.relabel rfl (by simp [Command.disturbs])
  | start id delay periodic =>
    cases found : scheduler.timer? id with
    | none =>
      simp only [Command.starts?, Command.disturbs, perform, start_of_absent found]
      exact still.relabel rfl (by simp)
    | some timer =>
      have armed := armed?_start tied found delay periodic
      obtain ⟨after, node, started, effect, _⟩ := start_starts tied found delay periodic
      rw [started] at armed
      simp only [Command.starts?, Command.disturbs, perform, started]
      exact effect.relabel (by simp [armed]) (by simp [eq_comm])
  | stop id =>
    cases found : scheduler.timer? id with
    | none =>
      simp only [Command.starts?, Command.disturbs, perform, stop_of_absent found]
      exact still.relabel rfl (by simp)
    | some timer =>
      obtain ⟨after, stopped, effect, _⟩ := stop_stops tied found
      simp only [Command.starts?, Command.disturbs, perform, stopped]
      exact effect.relabel rfl (by simp [eq_comm])
  | remove id =>
    rcases scheduler.remove_cases id with
      ⟨error, refused⟩ | ⟨timer, handler, data, found, taken, given⟩
    · simp only [Command.starts?, Command.disturbs, perform, refused]
      exact still.relabel rfl (by simp)
    · obtain ⟨after, removed, effect, _⟩ := remove_removes tied found taken given
      simp only [Command.starts?, Command.disturbs, perform, removed]
      exact effect.relabel rfl (by simp [eq_comm])
  | rebind id handler =>
    have changed : Effect scheduler none (fun _ => False)
        (scheduler.updateTimer id ({ · with handler := some handler })) :=
      update_effect tied fun _ => ⟨rfl, rfl, rfl⟩
    simp only [Command.starts?, Command.disturbs, perform, rebind]
    split
    · exact still.relabel rfl (by simp)
    · exact changed.relabel rfl (by simp)
  | setPeriod id period =>
    have changed : Effect scheduler none (fun _ => False)
        (scheduler.updateTimer id ({ · with period })) :=
      update_effect tied fun _ => ⟨rfl, rfl, rfl⟩
    simp only [Command.starts?, Command.disturbs, perform, setPeriod]
    split
    · exact still.relabel rfl (by simp)
    · exact changed.relabel rfl (by simp)
  | modifyData id change =>
    have changed : Effect scheduler none (fun _ => False)
        (scheduler.updateTimer id fun timer => { timer with data := timer.data.map change }) :=
      update_effect tied fun _ => ⟨rfl, rfl, rfl⟩
    exact changed.relabel rfl (by simp [Command.disturbs])
  | reset => exact scheduler.reset_effect.relabel rfl (by simp [Command.disturbs])
  | takeReporter | receive | drainEvents => exact absurd rfl feeds

theorem generationAt_settle (scheduler : Scheduler H D) (id : TimerId) (tick : Tick) (handler : H)
    (data : D) (index : Nat) :
    (scheduler.settle id tick handler data).timers.generationAt index =
      scheduler.timers.generationAt index := by
  have back : ((scheduler.publish (.fired id tick)).takeBack id handler data).timers.generationAt
      index = scheduler.timers.generationAt index := Arena.generationAt_modify _ _ _ index
  simp only [settle, rearm]
  split
  · exact back
  · split
    · split
      · exact (Arena.generationAt_modify _ _ _ index).trans back
      · exact (Arena.generationAt_modify _ _ _ index).trans back
    · exact back

theorem isScheduled_eq (scheduler : Scheduler H D) (id : TimerId) :
    scheduler.isScheduled id = (scheduler.timer? id).any (·.node.isSome) := by
  simp only [isScheduled, view?]
  cases scheduler.timer? id <;> rfl

/-- What the end of a handler's run does: the timer is whole again, and it is armed again if
it is still marked as firing and has a period. -/
structure Settled (before : Scheduler H D) (id : TimerId) (armed : Option Arming)
    (after : Scheduler H D) : Prop where
  effect : Effect before armed (fun _ => False) after
  quiet : armed = none → after.isScheduled id = before.isScheduled id
  rearmed : ∀ arming, armed = some arming → before.isScheduled id = false ∧
    after.isScheduled id = true ∧ after.armed? id = armed ∧
    ∃ timer, before.timer? id = some timer ∧ timer.phase = .firing ∧
      arming.timer = id ∧ arming.expiry = timer.expiry.after timer.period
  timers : ∀ other later, after.timer? other = some later →
    other ≠ id ∧ before.timer? other = some later ∨ later.Whole

section Rearm

variable (whole : ∀ timer, scheduler.timer? id = some timer →
  timer.handler.isSome ∧ timer.data.isSome)

include whole

private theorem rearm_idle (tied : scheduler.Tied)
    (idle : ∀ timer, scheduler.timer? id = some timer → timer.phase ≠ .firing) :
    Settled scheduler id none (scheduler.rearm id) := by
  have same : scheduler.rearm id = scheduler := by
    simp only [rearm]
    split
    · rfl
    next timer found => rw [if_neg (idle timer found)]
  rw [same]
  refine ⟨.none tied, fun _ => rfl, by simp, ?_⟩
  intro other later found
  by_cases equal : other = id
  · subst equal
    exact .inr ⟨(whole later found).1, (whole later found).2, idle later found⟩
  · exact .inl ⟨equal, found⟩

private theorem rearm_fires (tied : scheduler.TiedBut (some id))
    (found : scheduler.timer? id = some timer)
    (firing : timer.phase = .firing) (node : timer.node = none) (once : timer.period = 0) :
    Settled scheduler id none (scheduler.rearm id) := by
  have same : scheduler.rearm id = scheduler.updateTimer id ({ · with phase := .fired }) := by
    simp only [rearm, found, firing, once, if_true]
  have timers := timer?_of_update found ({ · with phase := .fired })
  have tied' : (scheduler.updateTimer id ({ · with phase := .fired })).Tied := by
    apply (tied.update_gone _).release
    intro later found'
    rw [timers, if_pos rfl] at found'
    cases found'
    exact ⟨node, by simp⟩
  rw [same]
  refine ⟨⟨tied', ?_, by simp [updateTimer]⟩, fun _ => ?_, by simp, ?_⟩
  · intro arming turn
    have queued : (scheduler.updateTimer id ({ · with phase := .fired })).Queued arming turn ↔
      scheduler.Queued arming turn := queued_congr rfl
    simp [queued]
  · simp [isScheduled_eq, timers, found]
  · intro other later found'
    rw [timers] at found'
    split at found'
    · cases found'
      obtain ⟨handler, data⟩ := whole timer found
      exact .inr ⟨handler, data, by simp⟩
    next apart => exact .inl ⟨apart, found'⟩

private theorem rearm_arms (tied : scheduler.TiedBut (some id))
    (found : scheduler.timer? id = some timer)
    (firing : timer.phase = .firing) (node : timer.node = none) (periodic : timer.period ≠ 0) :
    Settled scheduler id (some ⟨timer.expiry.after timer.period, id⟩) (scheduler.rearm id) := by
  have same : scheduler.rearm id = (scheduler.arm id (timer.expiry.after timer.period)).publish
      (.rearmed id (timer.expiry.after timer.period)) := by
    simp only [rearm, found, firing, periodic, if_true, if_false]
  have armed := arm_arms tied found (timer.expiry.after timer.period)
  obtain ⟨key, timers⟩ := armed.timers
  have later := (timers id).trans (if_pos rfl)
  rw [same]
  refine ⟨Effect.congr ⟨armed.tied, ?_, armed.turn⟩ rfl rfl, by simp, ?_, ?_⟩
  · intro arming turn
    rw [armed.queued, Option.some.injEq, eq_comm (a := arming)]
    simp
  · intro arming equal
    cases equal
    refine ⟨by simp [isScheduled_eq, found, node], ?_, ?_, timer, found, firing, rfl, rfl⟩
    · rw [isScheduled_eq]
      exact congrArg (·.any (·.node.isSome)) later
    · have view : ((scheduler.arm id (timer.expiry.after timer.period)).timer? id).map
          (·.expiry) = some (timer.expiry.after timer.period) := congrArg (·.map (·.expiry)) later
      simpa [armed?, expiry?, view?, publish, timer?] using view
  · intro other later found'
    replace found' := (timers other).symm.trans found'
    split at found'
    · cases found'
      obtain ⟨handler, data⟩ := whole timer found
      exact .inr ⟨handler, data, by simp⟩
    next apart => exact .inl ⟨apart, found'⟩

private theorem rearm_settles (tied : scheduler.Tied) :
    ∃ armed, Settled scheduler id armed (scheduler.rearm id) := by
  by_cases fires : ∃ timer, scheduler.timer? id = some timer ∧ timer.phase = .firing
  · obtain ⟨timer, found, firing⟩ := fires
    have node : timer.node = none := by
      rw [← Option.not_isSome_iff_eq_none, tied.phase found, firing]
      simp
    obtain ⟨loose, _⟩ := TiedBut.loosen tied found node
    by_cases once : timer.period = 0
    · exact ⟨none, rearm_fires whole loose found firing node once⟩
    · exact ⟨_, rearm_arms whole loose found firing node once⟩
  · exact ⟨none, rearm_idle whole tied fun timer found firing => fires ⟨timer, found, firing⟩⟩

end Rearm

theorem settle_settles (tied : scheduler.Tied) (id : TimerId) (tick : Tick) (handler : H)
    (data : D) : ∃ armed, Settled scheduler id armed (scheduler.settle id tick handler data) := by
  let returned := (scheduler.publish (.fired id tick)).takeBack id handler data
  have tied' : returned.Tied := by
    have published : (scheduler.publish (.fired id tick)).Tied := tied.congr rfl rfl
    exact published.update fun _ _ => ⟨rfl, rfl, rfl⟩
  have timers : ∀ other, returned.timer? other =
      if other = id then
        (scheduler.timer? other).map fun timer =>
          { timer with handler := some (timer.handler.getD handler), data := some data }
      else scheduler.timer? other := fun other =>
        timer?_updateTimer (scheduler.publish (.fired id tick)) id other _
  have whole : ∀ timer, returned.timer? id = some timer →
      timer.handler.isSome ∧ timer.data.isSome := by
    intro timer found
    rw [timers, if_pos rfl] at found
    obtain ⟨old, _, rfl⟩ := Option.map_eq_some_iff.mp found
    exact ⟨rfl, rfl⟩
  have scheduled : returned.isScheduled id = scheduler.isScheduled id := by
    rw [isScheduled_eq, isScheduled_eq, timers, if_pos rfl]
    cases scheduler.timer? id <;> rfl
  have queued : ∀ arming turn, returned.Queued arming turn ↔ scheduler.Queued arming turn :=
    fun _ _ => Iff.rfl
  have turn : returned.queue.nextTurn = scheduler.queue.nextTurn := rfl
  obtain ⟨armed, effect, quiet, rearmed, others⟩ := rearm_settles whole tied'
  refine ⟨armed, ⟨effect.tied, ?_, ?_⟩, ?_, ?_, ?_⟩
  · intro arming later
    rw [← queued, ← turn]
    exact effect.queued arming later
  · rw [← turn]
    exact effect.turn
  · intro nothing
    rw [← scheduled]
    exact quiet nothing
  · intro arming equal
    obtain ⟨idle, set, expiry, timer, found, firing, same, due⟩ := rearmed arming equal
    rw [timers, if_pos rfl] at found
    obtain ⟨old, present, rfl⟩ := Option.map_eq_some_iff.mp found
    exact ⟨scheduled ▸ idle, set, expiry, old, present, firing, same, due⟩
  · intro other later found
    rcases others other later found with ⟨apart, kept⟩ | whole
    · exact .inl ⟨apart, by rw [← kept, timers, if_neg apart]⟩
    · exact .inr whole

end Scheduler

end Timers
