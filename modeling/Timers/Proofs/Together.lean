import Timers.Proofs.Cadence

/-! Timers that are started one after another, with nothing else on the schedule. Once all of
them are started, the agenda holds, and from then on they fire by the timetable. -/

namespace Timers

variable {H D W : Type}

def Program.startAll : List Plan → Program H D W Unit
  | [] => return ()
  | plan :: rest => do
    let _ ← start plan.timer plan.delay plan.periodic
    startAll rest

/-- Some of the timers have been started, in their order. The others may still be on the schedule
from before. -/
structure Underway (plans started : List Plan) (first : Scheduler H D) (turnOf : Plan → UInt64)
    (scheduler : Scheduler H D) : Prop where
  valid : (⟨.outside, scheduler⟩ : Moment H D).Valid
  clock : scheduler.clock = first.clock
  alone : ∀ arming turn, scheduler.Queued arming turn → ∃ plan ∈ plans, plan.timer = arming.timer
  queued : ∀ plan ∈ started, ∀ arming turn, arming.timer = plan.timer →
    (scheduler.Queued arming turn ↔
      arming.expiry = first.tick.after plan.delay ∧ turn = turnOf plan)
  turns : started.Pairwise fun one two => turnOf one < turnOf two
  fresh : ∀ plan ∈ started, turnOf plan < scheduler.queue.nextTurn
  numbered : scheduler.queue.nextTurn.toNat = first.queue.nextTurn.toNat + started.length
  cells : ∀ plan ∈ plans, ∃ timer cell, scheduler.timer? plan.timer = some timer ∧
    timer.handler = some cell.1 ∧ timer.data = some cell.2 ∧
    first.cell? plan.timer = some cell ∧ (plan ∈ started → timer.period = plan.period)

variable {react : Reaction H D W} {quiet : H → Prop} {plans started rest : List Plan} {plan : Plan}
  {first scheduler : Scheduler H D} {turnOf : Plan → UInt64}

namespace Underway

private theorem initial (valid : (⟨.outside, first⟩ : Moment H D).Valid)
    (alone : ∀ id, first.isScheduled id = true → ∃ plan ∈ plans, plan.timer = id)
    (cells : ∀ plan ∈ plans, ∃ cell, first.cell? plan.timer = some cell) :
    Underway plans [] first (fun _ => 0) first where
  valid := valid
  clock := rfl
  alone := by
    intro arming turn queued
    obtain ⟨key, held⟩ := queued
    obtain ⟨timer, found, node, _⟩ := valid.tied.entry held
    apply alone
    rw [Scheduler.isScheduled_eq, found, Option.any_some, node]
    rfl
  queued := by simp
  turns := .nil
  fresh := by simp
  numbered := rfl
  cells := by
    intro plan member
    obtain ⟨cell, began⟩ := cells plan member
    obtain ⟨timer, found, handler, data⟩ := Scheduler.cell?_eq_some_iff.mp began
    exact ⟨timer, cell, found, handler, data, began, by simp⟩

section Next

variable {after : Scheduler H D} (underway : Underway plans started first turnOf scheduler)
  (apart : ∀ {other}, other ∈ started → other ≠ plan)

include underway apart

private theorem next_queued
    (differs : ∀ {other}, other ∈ started → other.timer ≠ plan.timer)
    (effect : Effect scheduler (some ⟨scheduler.tick.after plan.delay, plan.timer⟩)
      (· = plan.timer) after) :
    ∀ other ∈ started ++ [plan], ∀ arming turn, arming.timer = other.timer →
      (after.Queued arming turn ↔ arming.expiry = first.tick.after other.delay ∧
        turn = if other = plan then scheduler.queue.nextTurn else turnOf other) := by
  intro other listed arming turn same
  apply (effect.queued arming turn).trans
  rcases List.mem_append.mp listed with before | now
  · have differs : arming.timer ≠ plan.timer := same.trans_ne (differs before)
    rw [underway.queued other before arming turn same, if_neg (apart before)]
    constructor
    · intro queued
      rcases queued with ⟨known, _⟩ | ⟨arms, _⟩
      · exact known
      · cases arms
        exact absurd rfl differs
    · exact fun known => .inl ⟨known, differs⟩
  · have tick : scheduler.tick = first.tick := congrArg Prod.fst underway.clock
    cases List.mem_singleton.mp now
    rw [if_pos rfl, ← tick]
    constructor
    · intro queued
      rcases queued with ⟨_, differs⟩ | ⟨arms, turns⟩
      · exact absurd same differs
      · cases arms
        exact ⟨rfl, turns⟩
    · intro planned
      obtain ⟨expiry, turns⟩ := planned
      exact .inr ⟨by rw [← expiry, ← same], turns⟩

private theorem next_turns : (started ++ [plan]).Pairwise fun one two =>
    (if one = plan then scheduler.queue.nextTurn else turnOf one) <
      if two = plan then scheduler.queue.nextTurn else turnOf two := by
  apply List.pairwise_append.mpr
  refine ⟨?_, by simp, ?_⟩
  · apply underway.turns.imp_of_mem
    intro one two listed listed' less
    rwa [if_neg (apart listed), if_neg (apart listed')]
  · intro one listed two now
    cases List.mem_singleton.mp now
    rw [if_neg (apart listed), if_pos rfl]
    exact underway.fresh one listed

private theorem next_fresh
    (turn : after.queue.nextTurn.toNat = scheduler.queue.nextTurn.toNat + 1) :
    ∀ other ∈ started ++ [plan],
      (if other = plan then scheduler.queue.nextTurn else turnOf other) < after.queue.nextTurn := by
  intro other listed
  rw [UInt64.lt_iff_toNat_lt, turn]
  rcases List.mem_append.mp listed with before | now
  · have less := UInt64.lt_iff_toNat_lt.mp (underway.fresh other before)
    rw [if_neg (apart before)]
    omega
  · cases List.mem_singleton.mp now
    rw [if_pos rfl]
    exact Nat.lt_succ_self _

omit apart in
private theorem next_turn (effect : Effect scheduler
      (some ⟨scheduler.tick.after plan.delay, plan.timer⟩) (· = plan.timer) after)
    (room : first.queue.nextTurn.toNat + started.length + 1 < UInt64.size) :
    after.queue.nextTurn.toNat = scheduler.queue.nextTurn.toNat + 1 := by
  have numbered := underway.numbered
  rw [effect.turn, UInt64.toNat_add]
  simp only [Option.isSome_some, if_true]
  apply Nat.mod_eq_of_lt
  simp only [UInt64.size] at room
  simp only [UInt64.reduceToNat]
  omega

omit apart in
private theorem next_cells {record begun : Timer H D} (differs : ∀ {other},
      other ∈ plans → other ≠ plan → other.timer ≠ plan.timer)
    (found : scheduler.timer? plan.timer = some record)
    (timers : ∀ other, after.timer? other =
      if other = plan.timer then some begun else scheduler.timer? other)
    (handler : begun.handler = record.handler) (data : begun.data = record.data)
    (period : begun.period = plan.period) :
    ∀ other ∈ plans, ∃ timer cell, after.timer? other.timer = some timer ∧
      timer.handler = some cell.1 ∧ timer.data = some cell.2 ∧
      first.cell? other.timer = some cell ∧
      (other ∈ started ++ [plan] → timer.period = other.period) := by
  intro other listed
  obtain ⟨timer, cell, known, handler', data', began, period'⟩ := underway.cells other listed
  by_cases same : other = plan
  · subst same
    rw [found] at known
    cases known
    exact ⟨begun, cell, (timers other.timer).trans (if_pos rfl), handler.trans handler',
      data.trans data', began, fun _ => period⟩
  · refine ⟨timer, cell, ?_, handler', data', began, fun now => ?_⟩
    · rw [timers, if_neg (differs listed same), known]
    · rcases List.mem_append.mp now with before | last
      · exact period' before
      · exact absurd (List.mem_singleton.mp last) same

end Next

private theorem start (underway : Underway plans started first turnOf scheduler)
    (distinct : (plans.map (·.timer)).Nodup) (split : plans = started ++ plan :: rest)
    (room : first.queue.nextTurn.toNat + plans.length < UInt64.size) :
    ∃ after, scheduler.start plan.timer plan.delay plan.periodic = (.ok (), after) ∧
      Underway plans (started ++ [plan]) first
        (fun other => if other = plan then scheduler.queue.nextTurn else turnOf other) after := by
  have member : plan ∈ plans := by simp [split]
  have differs : ∀ {other}, other ∈ plans → other ≠ plan → other.timer ≠ plan.timer :=
    fun listed other same => other (eq_of_timer distinct listed member same)
  have old : ∀ {other}, other ∈ started → other ∈ plans := fun listed =>
    split ▸ List.mem_append_left _ listed
  have apart : ∀ {other}, other ∈ started → other ≠ plan := by
    intro other listed same
    subst same
    have unique := distinct.of_map
    rw [split] at unique
    exact (List.disjoint_of_nodup_append unique) listed (by simp)
  obtain ⟨record, _, found, _⟩ := underway.cells plan member
  obtain ⟨after, node, started', effect, timers, _⟩ :=
    Scheduler.start_starts underway.valid.tied found plan.delay plan.periodic
  have turn : after.queue.nextTurn.toNat = scheduler.queue.nextTurn.toNat + 1 := by
    have length := congrArg List.length split
    rw [List.length_append, List.length_cons] at length
    exact underway.next_turn effect (by omega)
  refine ⟨after, started', ?_, ?_, ?_,
    underway.next_queued apart (fun listed => differs (old listed) (apart listed)) effect,
    underway.next_turns apart, underway.next_fresh apart turn, ?_,
    underway.next_cells differs found timers rfl rfl rfl⟩
  · have step : Transition (.command (.start plan.timer plan.delay plan.periodic))
        (⟨.outside, scheduler⟩ : Moment H D) ⟨.outside, _⟩ := .command _ (by simp)
    rw [Scheduler.perform, started'] at step
    exact step.valid underway.valid
  · have clock := scheduler.clock_start plan.timer plan.delay plan.periodic
    rw [started'] at clock
    exact clock.trans underway.clock
  · intro arming turn queued
    rcases (effect.queued arming turn).mp queued with ⟨before, _⟩ | ⟨arms, _⟩
    · exact underway.alone arming turn before
    · cases arms
      exact ⟨plan, member, rfl⟩
  · rw [turn, underway.numbered, List.length_append]
    rfl

private theorem startAll (underway : Underway plans started first turnOf scheduler)
    (distinct : (plans.map (·.timer)).Nodup) (split : plans = started ++ rest)
    (room : first.queue.nextTurn.toNat + plans.length < UInt64.size) (advance : Advance H D W)
    (shared : W) :
    ∃ final turnOf', (Program.startAll rest).run advance ⟨scheduler, shared⟩ =
        some ((), ⟨final, shared⟩) ∧ Underway plans plans first turnOf' final := by
  induction rest generalizing started turnOf scheduler with
  | nil =>
    rw [List.append_nil] at split
    exact ⟨scheduler, turnOf, rfl, split ▸ underway⟩
  | cons plan rest ih =>
    obtain ⟨after, started', underway⟩ := underway.start distinct split room
    obtain ⟨final, turnOf', ran, done⟩ := ih underway (by rw [split, List.append_cons])
    refine ⟨final, turnOf', ?_, done⟩
    change (Program.bind (Program.start _ _ _) _).run _ _ = _
    have asked : (Program.start plan.timer plan.delay plan.periodic).run advance
        ⟨scheduler, shared⟩ = some (.ok (), ⟨after, shared⟩) := by
      apply (Program.run_request (.command _) advance _).trans
      simp only [System.perform, Scheduler.perform, started']
      rfl
    rw [Program.run_bind, asked]
    exact ran

/-- What has been started together is due when the delays are over. -/
private theorem agenda (underway : Underway plans plans first turnOf scheduler)
    (delays : ∀ plan ∈ plans, plan.delay ≠ 0)
    (quiets : ∀ plan ∈ plans, ∃ cell, first.cell? plan.timer = some cell ∧ quiet cell.1) :
    Agenda react quiet plans first (first.queue.nextTurn.toNat + plans.length) 0 [] turnOf
      scheduler where
  tied := underway.valid.tied
  whole := fun id timer found => underway.valid.whole id timer found (by simp)
  tick := congrArg (fun clock => clock.1.toNat) underway.clock
  queued := by
    intro arming turn
    constructor
    · intro queued
      obtain ⟨plan, member, same⟩ := underway.alone arming turn queued
      obtain ⟨expiry, turns⟩ := (underway.queued plan member arming turn same.symm).mp queued
      refine ⟨plan, member, plan.delay.toNat, ?_, same.symm, ?_, turns⟩
      · rw [Plan.awaited?_of_not_mem (by simp), Plan.dueAfter_zero (delays plan member)]
      · rw [expiry, Tick.toNat_after]
    · intro planned
      obtain ⟨plan, member, offset, awaited, same, expiry, turns⟩ := planned
      rw [Plan.awaited?_of_not_mem (by simp), Plan.dueAfter_zero (delays plan member)] at awaited
      cases awaited
      apply (underway.queued plan member arming turn same).mpr
      refine ⟨UInt64.toNat_inj.mp ?_, turns⟩
      rw [expiry, Tick.toNat_after]
  turns := by
    intro one member two member' before offset awaited awaited'
    rw [Plan.awaited?_of_not_mem (by simp), Plan.dueAfter_zero (delays one member)] at awaited
    rw [Plan.awaited?_of_not_mem (by simp), Plan.dueAfter_zero (delays two member')] at awaited'
    have equal : one.delay.toNat = two.delay.toNat :=
      Option.some.inj (awaited.trans awaited'.symm)
    rcases before with less | ⟨_, place⟩
    · rw [UInt64.lt_iff_toNat_lt] at less
      omega
    · have placed := List.idxOf_lt_length_of_mem member
      have placed' := List.idxOf_lt_length_of_mem member'
      have turns := List.pairwise_iff_getElem.mp underway.turns _ _ placed placed' place
      rwa [List.getElem_idxOf, List.getElem_idxOf] at turns
  fresh := fun plan member _ => underway.fresh plan member
  numbered := by
    rw [List.countP_nil, sum_rearmings_zero]
    exact underway.numbered
  cells := by
    intro plan member
    obtain ⟨timer, cell, found, handler, data, began, period⟩ := underway.cells plan member
    obtain ⟨_, began', still⟩ := quiets plan member
    rw [began] at began'
    cases began'
    refine ⟨timer, cell, cell, 0, found, period member, handler, data, still, began, .never cell, ?_⟩
    rw [if_neg (by simp), Plan.firings_zero (delays plan member)]

end Underway

/-- If timers are started together and nothing else is on the schedule, and if their handlers
leave the scheduler alone, then they fire by the timetable: at each of its ticks every timer
that is due, the longest delays first and equal delays as they were started. So the number of
firings is known, and the handlers have been applied so often to the data of their timers. -/
theorem started_fire_by_timetable {config : Config} {past : List (Step H D)}
    (run : Run (.ofConfig config) past ⟨.outside, scheduler⟩) (quiets : react.Quiet quiet)
    (distinct : (plans.map (·.timer)).Nodup) (delays : ∀ plan ∈ plans, plan.delay ≠ 0)
    (cells : ∀ plan ∈ plans, ∃ cell, scheduler.cell? plan.timer = some cell ∧ quiet cell.1)
    (alone : ∀ id, scheduler.isScheduled id = true → ∃ plan ∈ plans, plan.timer = id)
    {ticks : Nat} (inside : scheduler.tick.toNat + ticks < Tick.last.toNat)
    (few : (armings past).length + plans.length + (plans.map (·.rearmings ticks)).sum <
      UInt64.size) (shared : W) :
    ∃ told final calls,
      (∀ fuel, plans.length < fuel →
        System.run ⟨scheduler, shared⟩ react fuel (do
          Program.startAll plans
          Program.advanceTicks ticks) = some (told, final)) ∧
      Timetable plans scheduler.tick.toNat ticks calls ∧
      told.map Firing.call = calls.map (fun call => (call.1, call.2.timer)) ∧
      told.length = (plans.map (·.firings ticks)).sum ∧
      ∀ plan ∈ plans, ∃ before after, scheduler.cell? plan.timer = some before ∧
        final.scheduler.cell? plan.timer = some after ∧
        Applied react plan.timer (plan.firings ticks) before after := by
  have idle : scheduler.dispatching = false := by
    have busy := run.preserves Transition.paced (.ofConfig config)
    simpa [Moment.Paced] using busy
  have numbered : scheduler.queue.nextTurn.toNat = (armings ([] ++ past)).length :=
    run.numbered (.ofConfig config) rfl (by rw [List.nil_append]; omega)
  have unstarted : Underway plans [] scheduler (fun _ => 0) scheduler :=
    .initial run.valid alone fun plan member => (cells plan member).imp fun _ => And.left
  obtain ⟨begun, turnOf, began, underway⟩ :=
    unstarted.startAll distinct (List.nil_append plans).symm (by rw [numbered, List.nil_append]; omega)
      (System.tryAdvance react (plans.length + 1)) shared
  have agenda : Agenda react quiet plans scheduler _ 0 [] turnOf begun := underway.agenda delays cells
  rw [numbered, List.nil_append] at agenda
  have clock : begun.dispatching = false := (congrArg (·.2.2) underway.clock).trans idle
  obtain ⟨told, final, turnOf', advanced, calls, done⟩ :=
    agenda.advancesBy quiets distinct delays ticks clock (by omega) (by rwa [Nat.zero_add]) shared
  rw [Nat.zero_add] at done
  refine ⟨told, final, callsAfter plans scheduler.tick.toNat 0 ticks, ?_,
    timetable distinct.of_map _ _, calls, ?_, ?_⟩
  · intro fuel enough
    apply System.run_extends enough
    rw [System.run]
    change (Program.bind (Program.startAll plans) _).run _ _ = _
    rw [Program.run_bind, began]
    exact advanced
  · have length := length_callsAfter plans scheduler.tick.toNat 0 ticks
    rw [sum_firings_zero delays, Nat.zero_add] at length
    have same := congrArg List.length calls
    rw [List.length_map, List.length_map] at same
    exact same.trans length
  · intro plan member
    obtain ⟨timer, origin, cell, times, found, _, handler, data, _, began, applied, often⟩ :=
      done.cells plan member
    rw [if_neg (by simp), Nat.add_zero] at often
    exact ⟨origin, cell, began, Scheduler.cell?_eq_some_iff.mpr ⟨timer, found, handler, data⟩,
      often ▸ applied⟩

/-- Two timers with periods meet at the second tick, where the one with the longer delay fires
first; and each firing has counted. -/
theorem started_fire_by_timetable_twice :
    ∃ (past : List (Step Nat Nat)) (scheduler : Scheduler Nat Nat) (told : List Firing)
      (final : System Nat Nat Unit),
      Run (.ofConfig {}) past ⟨.outside, scheduler⟩ ∧
      System.run ⟨scheduler, ()⟩ (.onData fun handler data => (handler, data + 1)) 3 (do
        Program.startAll [⟨⟨⟨0, 0⟩⟩, 1, true⟩, ⟨⟨⟨1, 0⟩⟩, 2, true⟩]
        Program.advanceTicks 2) = some (told, final) ∧
      told.map Firing.call = [(1, ⟨⟨0, 0⟩⟩), (2, ⟨⟨1, 0⟩⟩), (2, ⟨⟨0, 0⟩⟩)] ∧
      final.scheduler.cell? ⟨⟨0, 0⟩⟩ = some (7, 7) := by
  let one : Scheduler Nat Nat := ((Scheduler.ofConfig {}).perform (.add 7 5)).2
  let two : Scheduler Nat Nat := (one.perform (.add 8 5)).2
  let plans : List Plan := [⟨⟨⟨0, 0⟩⟩, 1, true⟩, ⟨⟨⟨1, 0⟩⟩, 2, true⟩]
  let react : Reaction Nat Nat Unit := .onData fun handler data => (handler, data + 1)
  have run : Run (.ofConfig {}) [⟨_, .command (.add 7 5), _⟩, ⟨_, .command (.add 8 5), _⟩]
      ⟨.outside, two⟩ :=
    .cons (.command (.add 7 5) (by simp)) (.single (.command (.add 8 5) (by simp)))
  have quiets : react.Quiet fun _ => True := fun handler id data shared _ =>
    ⟨_, _, rfl, trivial⟩
  have began : two.cell? ⟨⟨0, 0⟩⟩ = some (7, 5) := by decide +kernel
  have cells : ∀ plan ∈ plans, ∃ cell, two.cell? plan.timer = some cell ∧ True := by
    intro plan member
    rcases List.mem_cons.mp member with rfl | member
    · exact ⟨(7, 5), began, trivial⟩
    · cases List.mem_singleton.mp member
      exact ⟨(8, 5), by decide +kernel, trivial⟩
  have alone : ∀ id, two.isScheduled id = true → ∃ plan ∈ plans, plan.timer = id := by
    intro id scheduled
    rw [Scheduler.isScheduled_eq, Option.any_eq_true] at scheduled
    obtain ⟨timer, found, armed⟩ := scheduled
    obtain ⟨turn, key, held⟩ := run.valid.tied.queued found armed
    have nothing : two.queue.held? key = none := PriorityQueue.held?_empty key
    rw [nothing] at held
    cases held
  have inside : two.tick.toNat + 2 < Tick.last.toNat := by decide
  obtain ⟨told, final, calls, ran, planned, same, _, counted⟩ :=
    started_fire_by_timetable run quiets (by decide) (by decide) cells alone inside (by decide) ()
  have expected : Timetable plans 0 2 (callsAfter plans 0 0 2) := timetable (by decide) 0 2
  refine ⟨_, two, told, final, run, ran 3 (by decide), ?_, ?_⟩
  · rw [same, planned.unique expected]
    decide +kernel
  · obtain ⟨before, after, began', ended, applied⟩ := counted _ (List.mem_cons_self ..)
    rw [began] at began'
    cases began'
    rw [ended, applied.eq_iterate]
    rfl

end Timers
