import Mathlib.Data.List.Nodup
import Mathlib.Logic.Function.Iterate
import Timers.Proofs.FiringOrder
import Timers.Proofs.Published
import Timers.Proofs.Timetable

/-! Timers that are started together and whose handlers leave the scheduler alone fire by the
timetable. The agenda says between two firings what is on the schedule: the timers that are
left for the tick, in the order of their turns, and the others when they are due next. One
firing takes one timer off the front of the agenda, and one tick works off all that are due. -/

namespace Timers

variable {H D W α : Type}

/-- What a program comes to that leaves the scheduler alone. Another one comes to nothing here. -/
def Program.alone? : Program H D W α → W → Option (α × W)
  | .done value, shared => some (value, shared)
  | .request (.shared change) next, shared => (next shared).alone? (change shared)
  | .request _ _, _ => none

/-- These handlers leave the scheduler alone, and they stay such handlers. -/
def Reaction.Quiet (react : Reaction H D W) (quiet : H → Prop) : Prop :=
  ∀ handler id data shared, quiet handler → ∃ cell later,
    (react handler id data).alone? shared = some (cell, later) ∧ quiet cell.1

/-- So often a handler has run, and this is what has become of handler and data. -/
inductive Applied (react : Reaction H D W) (id : TimerId) : Nat → H × D → H × D → Prop where
  | never (cell : H × D) : Applied react id 0 cell cell
  | again {times : Nat} {first cell last : H × D} {shared later : W}
      (before : Applied react id times first cell)
      (runs : (react cell.1 id cell.2).alone? shared = some (last, later)) :
      Applied react id (times + 1) first last

/-- Handler and data of a timer. -/
def Scheduler.cell? (scheduler : Scheduler H D) (id : TimerId) : Option (H × D) := do
  let timer ← scheduler.timer? id
  return (← timer.handler, ← timer.data)

/-- What a firing tells of a call. -/
def Firing.call (firing : Firing) : Nat × TimerId := (firing.tick.toNat, firing.timer)

/-- When a timer is due next, if these are the timers that are left for the tick. -/
def Plan.awaited? (plan : Plan) (now : Nat) (due : List Plan) : Option Nat :=
  if plan ∈ due then some now else plan.dueAfter now

private theorem Program.run_of_alone? {program : Program H D W α} {shared later : W} {value : α}
    (alone : program.alone? shared = some (value, later)) (advance : Advance H D W)
    (scheduler : Scheduler H D) :
    program.run advance ⟨scheduler, shared⟩ = some (value, ⟨scheduler, later⟩) := by
  induction program generalizing shared with
  | done _ =>
    cases alone
    rfl
  | request operation next ih =>
    cases operation with
    | shared change => exact ih shared alone
    | query | command | advance => cases alone

private theorem System.run_advanceTicks {react : Reaction H D W} {fuel ticks : Nat}
    {system after final : System H D W} {told more : List Firing}
    (advanced : System.tryAdvance react fuel system = some (.ok told, after))
    (onward : after.run react fuel (Program.advanceTicks ticks) = some (more, final)) :
    system.run react fuel (Program.advanceTicks (ticks + 1)) = some (told ++ more, final) := by
  rw [run_advanceTicks_succ, run_advanceTick, advanced, Option.map_some, Option.bind_some]
  dsimp only
  rw [onward]
  rfl

theorem Applied.eq_iterate {change : H → D → H × D} {id : TimerId} {times : Nat} {first last : H × D}
    (applied : Applied (Reaction.onData change : Reaction H D W) id times first last) :
    last = (fun cell => change cell.1 cell.2)^[times] first := by
  induction applied with
  | never => rfl
  | again _ runs ih =>
    cases runs
    rw [Function.iterate_succ_apply', ← ih]

namespace Scheduler

variable {scheduler popped lent : Scheduler H D} {id : TimerId} {timer : Timer H D}

theorem cell?_eq_some_iff {cell : H × D} : scheduler.cell? id = some cell ↔
    ∃ timer, scheduler.timer? id = some timer ∧ timer.handler = some cell.1 ∧
      timer.data = some cell.2 := by
  obtain ⟨handler, data⟩ := cell
  cases found : scheduler.timer? id with
  | none => simp [cell?, found]
  | some timer =>
    cases taken : timer.handler <;> cases given : timer.data <;> simp [cell?, found, taken, given]

end Scheduler

/-- What holds between two firings of timers that were started together. These are due at this
tick and have not fired yet; nothing but these and what is due later is on the schedule; and
every handler has run as often as its timer has fired. -/
structure Agenda (react : Reaction H D W) (quiet : H → Prop) (plans : List Plan)
    (first : Scheduler H D) (base now : Nat) (due : List Plan) (turnOf : Plan → UInt64)
    (scheduler : Scheduler H D) : Prop where
  tied : scheduler.Tied
  whole : ∀ id timer, scheduler.timer? id = some timer → timer.Whole
  tick : scheduler.tick.toNat = first.tick.toNat + now
  queued : ∀ arming turn, scheduler.Queued arming turn ↔
    ∃ plan ∈ plans, ∃ offset, plan.awaited? now due = some offset ∧ arming.timer = plan.timer ∧
      arming.expiry.toNat = min (first.tick.toNat + offset) Tick.last.toNat ∧ turn = turnOf plan
  turns : ∀ one ∈ plans, ∀ two ∈ plans, Precedes plans one two → ∀ offset,
    one.awaited? now due = some offset → two.awaited? now due = some offset →
    turnOf one < turnOf two
  fresh : ∀ plan ∈ plans, (plan.awaited? now due).isSome →
    turnOf plan < scheduler.queue.nextTurn
  numbered : scheduler.queue.nextTurn.toNat + due.countP (·.periodic) =
    base + (plans.map (·.rearmings now)).sum
  cells : ∀ plan ∈ plans, ∃ timer origin cell times, scheduler.timer? plan.timer = some timer ∧
    timer.period = plan.period ∧ timer.handler = some cell.1 ∧ timer.data = some cell.2 ∧
    quiet cell.1 ∧ first.cell? plan.timer = some origin ∧
    Applied react plan.timer times origin cell ∧
    times + (if plan ∈ due then 1 else 0) = plan.firings now

variable {react : Reaction H D W} {quiet : H → Prop} {plans fired due rest : List Plan}
  {plan other : Plan} {first scheduler : Scheduler H D} {base now offset : Nat}
  {turnOf : Plan → UInt64}

private theorem Plan.awaited?_of_mem (member : plan ∈ due) : plan.awaited? now due = some now :=
  if_pos member

theorem Plan.awaited?_of_not_mem (absent : plan ∉ due) : plan.awaited? now due = plan.dueAfter now :=
  if_neg absent

private theorem Plan.awaited?_cons (apart : other ≠ plan) :
    other.awaited? now (plan :: rest) = other.awaited? now rest := by
  simp [awaited?, apart]

private theorem Plan.awaited?_dueAt (member : plan ∈ plans) :
    plan.awaited? (now + 1) (dueAt plans (now + 1)) = plan.awaited? now [] := by
  by_cases due : plan.Due (now + 1)
  · rw [awaited?_of_mem (mem_dueAt.mpr ⟨member, due⟩), awaited?_of_not_mem (by simp),
      dueAfter_of_due due]
  · rw [awaited?_of_not_mem fun listed => due (mem_dueAt.mp listed).2,
      awaited?_of_not_mem (by simp), dueAfter_succ due]

theorem eq_of_timer (distinct : (plans.map (·.timer)).Nodup) (member : plan ∈ plans)
    (member' : other ∈ plans) (same : plan.timer = other.timer) : plan = other :=
  List.inj_on_of_nodup_map distinct member member' same

namespace Agenda

private theorem dispatches (agenda : Agenda react quiet plans first base now due turnOf scheduler)
    {arming : Arming} {turn : UInt64} {popped : Scheduler H D}
    (come : scheduler.popDue? = some (arming, turn, popped)) :
    ∃ timer given lent, popped.lend arming.timer = (some given, lent) ∧
      scheduler.Taken arming turn timer lent := by
  apply Scheduler.popDue?_takes agenda.tied _ come
  intro id timer found
  have whole := agenda.whole id timer found
  exact ⟨whole.handler, whole.data⟩

section Tick

variable (agenda : Agenda react quiet plans first base now due turnOf scheduler)
  (delays : ∀ plan ∈ plans, plan.delay ≠ 0)
  (inside : first.tick.toNat + now < Tick.last.toNat)

include agenda delays inside

private theorem due_of_queued {arming : Arming} {turn : UInt64}
    (queued : scheduler.Queued arming turn) (come : arming.expiry ≤ scheduler.tick) :
    ∃ plan ∈ due, arming = ⟨scheduler.tick, plan.timer⟩ ∧ turn = turnOf plan := by
  obtain ⟨plan, member, offset, awaited, timer, expiry, same⟩ := (agenda.queued arming turn).mp queued
  have tick := agenda.tick
  rw [UInt64.le_iff_toNat_le] at come
  by_cases left : plan ∈ due
  · rw [Plan.awaited?_of_mem left] at awaited
    cases awaited
    have expiry : arming.expiry = scheduler.tick := by
      apply UInt64.toNat_inj.mp
      omega
    refine ⟨plan, left, ?_, same⟩
    rw [← expiry, ← timer]
  · rw [Plan.awaited?_of_not_mem left] at awaited
    have ahead := Plan.lt_dueAfter (delays plan member) awaited
    omega

private theorem rests (nothing : due = []) : scheduler.popDue? = none := by
  cases popped : scheduler.popDue? with
  | none => rfl
  | some popped' =>
    obtain ⟨arming, turn, lent⟩ := popped'
    obtain ⟨timer, given, after, _, takes⟩ := agenda.dispatches popped
    obtain ⟨plan, left, _⟩ := agenda.due_of_queued delays inside takes.queued takes.due
    rw [nothing] at left
    cases left

end Tick

private theorem front
    (agenda : Agenda react quiet plans first base now (plan :: rest) turnOf scheduler)
    (delays : ∀ plan ∈ plans, plan.delay ≠ 0)
    (inside : first.tick.toNat + now < Tick.last.toNat)
    (order : (plan :: rest).Pairwise (Precedes plans))
    (listed : ∀ other ∈ plan :: rest, other ∈ plans) :
    ∃ turn popped timer given lent,
      scheduler.popDue? = some (⟨scheduler.tick, plan.timer⟩, turn, popped) ∧
      popped.lend plan.timer = (some given, lent) ∧
      timer.handler = some given.1 ∧ timer.data = some given.2 ∧
      scheduler.Taken ⟨scheduler.tick, plan.timer⟩ turn timer lent ∧
      lent.tick = scheduler.tick := by
  have tick := agenda.tick
  have waiting : scheduler.Queued ⟨scheduler.tick, plan.timer⟩ (turnOf plan) := by
    refine (agenda.queued _ _).mpr ⟨plan, listed plan (by simp), now,
      Plan.awaited?_of_mem (by simp), rfl, ?_, rfl⟩
    simp only
    omega
  cases popped : scheduler.popDue? with
  | none => exact absurd (agenda.tied.popDue?_none popped waiting) (UInt64.lt_irrefl _)
  | some popped' =>
    obtain ⟨arming, turn, left⟩ := popped'
    obtain ⟨timer, given, lent, taken, takes⟩ := agenda.dispatches popped
    obtain ⟨next, member, same, turns⟩ := agenda.due_of_queued delays inside takes.queued takes.due
    have foremost : next = plan := by
      rcases List.mem_cons.mp member with now | later
      · exact now
      · have earlier := (List.pairwise_cons.mp order).1 next later
        have before := agenda.turns plan (listed plan (by simp)) next (listed next member) earlier now
          (Plan.awaited?_of_mem (by simp)) (Plan.awaited?_of_mem member)
        rcases takes.first _ _ waiting with less | ⟨_, turns'⟩
        · rw [same] at less
          exact absurd less (UInt64.lt_irrefl _)
        · rw [turns] at turns'
          exact absurd before (UInt64.not_lt.mpr turns')
    subst foremost
    subst same
    have clock := left.clock_lend next.timer
    rw [taken, Scheduler.clock_popDue? popped] at clock
    have found : left.timer? next.timer = some timer := by
      obtain ⟨_, rfl⟩ := Scheduler.popDue?_eq popped
      exact takes.found
    obtain ⟨handler, data⟩ := Scheduler.lend_gives found taken
    exact ⟨turn, left, timer, given, lent, rfl, taken, handler, data, takes, congrArg Prod.fst clock⟩

section Firing

variable {turn : UInt64} {timer : Timer H D} {lent : Scheduler H D}
  (agenda : Agenda react quiet plans first base now (plan :: rest) turnOf scheduler)
  (distinct : (plans.map (·.timer)).Nodup) (delays : ∀ plan ∈ plans, plan.delay ≠ 0)
  (split : dueAt plans now = fired ++ plan :: rest)
  (takes : scheduler.Taken ⟨scheduler.tick, plan.timer⟩ turn timer lent)

include split in
private theorem due_of_split : plan ∈ plans ∧ plan.Due now :=
  mem_dueAt.mp (split ▸ List.mem_append_right fired (List.mem_cons_self ..))

include distinct split in
private theorem order_of_split :
    (∀ earlier ∈ fired, Precedes plans earlier plan) ∧ (plan :: rest).Pairwise (Precedes plans) := by
  have order := dueAt_pairwise distinct.of_map now
  rw [split, List.pairwise_append] at order
  exact ⟨fun earlier member => order.2.2 earlier member plan (by simp), order.2.1⟩

include distinct split in
private theorem not_mem_of_split : plan ∉ rest := by
  intro again
  obtain ⟨_, order⟩ := order_of_split distinct split
  have before := (List.pairwise_cons.mp order).1 plan again
  exact before.asymm before

include distinct split in
private theorem awaited?_of_split : plan.awaited? now rest =
    if plan.periodic then some (now + plan.delay.toNat) else none := by
  rw [Plan.awaited?_of_not_mem (not_mem_of_split distinct split)]
  exact Plan.dueAfter_again (due_of_split split).2

include distinct delays split in
/-- No timer that is awaited for the same tick comes after the timer that is armed now. -/
private theorem last_of_split (begun : 0 < now) (apart : other ≠ plan) (member : other ∈ plans)
    (later : Precedes plans plan other) (awaited : plan.awaited? now rest = some offset) :
    other.awaited? now rest ≠ some offset := by
  intro awaited'
  rw [awaited?_of_split distinct split] at awaited
  split at awaited <;> cases awaited
  have positive := Plan.delay_pos (delays plan (due_of_split split).1)
  have shorter : other.delay.toNat ≤ plan.delay.toNat := by
    rcases later with less | ⟨same, _⟩
    · exact Nat.le_of_lt (UInt64.lt_iff_toNat_lt.mp less)
    · exact Nat.le_of_eq (congrArg UInt64.toNat same.symm)
  by_cases left : other ∈ rest
  · rw [Plan.awaited?_of_mem left] at awaited'
    have same := Option.some.inj awaited'
    omega
  · rw [Plan.awaited?_of_not_mem left] at awaited'
    obtain ⟨_, due⟩ := Plan.due_of_dueAfter begun awaited' shorter
    have listed := mem_dueAt.mpr ⟨member, due⟩
    rw [split] at listed
    rcases List.mem_append.mp listed with earlier | now
    · exact later.asymm ((order_of_split distinct split).1 other earlier)
    · rcases List.mem_cons.mp now with same | behind
      · exact apart same
      · exact left behind

include agenda distinct delays split in
private theorem turns_fired (begun : 0 < now) :
    ∀ one ∈ plans, ∀ two ∈ plans, Precedes plans one two →
    ∀ offset, one.awaited? now rest = some offset → two.awaited? now rest = some offset →
    (if one = plan then scheduler.queue.nextTurn else turnOf one) <
      if two = plan then scheduler.queue.nextTurn else turnOf two := by
  intro one member two member' before offset awaited awaited'
  by_cases same : one = plan
  · subst same
    have apart : two ≠ one := by
      intro same
      subst same
      exact before.asymm before
    exact absurd awaited' (last_of_split distinct delays split begun apart member' before awaited)
  · rw [if_neg same]
    have awaited := (Plan.awaited?_cons same).trans awaited
    by_cases armed : two = plan
    · rw [if_pos armed]
      exact agenda.fresh one member (Option.isSome_iff_exists.mpr ⟨_, awaited⟩)
    · rw [if_neg armed]
      exact agenda.turns one member two member' before offset awaited
        ((Plan.awaited?_cons armed).trans awaited')

include agenda delays split takes in
private theorem settles (cell : H × D) :
    Effect lent
      (if plan.periodic then some ⟨scheduler.tick.after plan.delay, plan.timer⟩ else none)
      (fun _ => False) (lent.settle plan.timer lent.tick cell.1 cell.2) := by
  obtain ⟨member, _⟩ := due_of_split split
  obtain ⟨record, _, _, _, found, period, _⟩ := agenda.cells plan member
  have same := takes.found
  rw [found] at same
  cases same
  have lentOut := (takes.timers plan.timer).trans (if_pos rfl)
  apply (Scheduler.settle_rearms takes.tied lentOut lent.tick cell.1 cell.2).relabel _
    (fun _ => Iff.rfl)
  have expiry : timer.expiry = scheduler.tick := takes.expiry
  have delay := delays plan member
  simp only [Timer.again?, Timer.lentOut, period, Plan.period, expiry]
  by_cases periodic : plan.periodic = true
  · simp [periodic, delay]
  · simp [periodic]

include agenda distinct delays split takes in
private theorem queued_fired (cell : H × D) (arming : Arming) (turn : UInt64) :
    (lent.settle plan.timer lent.tick cell.1 cell.2).Queued arming turn ↔
      ∃ other ∈ plans, ∃ offset, other.awaited? now rest = some offset ∧
        arming.timer = other.timer ∧
        arming.expiry.toNat = min (first.tick.toNat + offset) Tick.last.toNat ∧
        turn = if other = plan then scheduler.queue.nextTurn else turnOf other := by
  obtain ⟨member, _⟩ := due_of_split split
  have tick := agenda.tick
  have again := awaited?_of_split distinct split
  apply ((agenda.settles delays split takes cell).queued arming turn).trans
  rw [takes.left, agenda.queued, takes.issued]
  constructor
  · intro queued
    rcases queued with ⟨⟨old, apart⟩, _⟩ | ⟨arms, rfl⟩
    · obtain ⟨other, member', offset, awaited, same, expiry, turns⟩ := old
      have differs : other ≠ plan := by
        intro equal
        subst equal
        exact apart same
      rw [Plan.awaited?_cons differs] at awaited
      exact ⟨other, member', offset, awaited, same, expiry, by rw [if_neg differs, turns]⟩
    · split at arms
      next periodic =>
        cases arms
        rw [if_pos periodic] at again
        refine ⟨plan, member, _, again, rfl, ?_, (if_pos rfl).symm⟩
        rw [Tick.toNat_after, tick, Nat.add_assoc]
      next => cases arms
  · intro planned
    obtain ⟨other, member', offset, awaited, same, expiry, turns⟩ := planned
    by_cases armed : other = plan
    · subst armed
      rw [again] at awaited
      split at awaited <;> cases awaited
      next periodic =>
        refine .inr ⟨?_, by rw [turns, if_pos rfl]⟩
        have due : arming.expiry = scheduler.tick.after other.delay := by
          apply UInt64.toNat_inj.mp
          rw [expiry, Tick.toNat_after, tick, Nat.add_assoc]
        rw [if_pos periodic, ← due, ← same]
    · rw [if_neg armed] at turns
      refine .inl ⟨⟨⟨other, member', offset, ?_, same, expiry, turns⟩, ?_⟩, by simp⟩
      · rw [Plan.awaited?_cons armed, awaited]
      · intro timers
        exact armed (eq_of_timer distinct member' member (same.symm.trans timers))

include agenda delays split takes in
private theorem numbered_fired (room : base + (plans.map (·.rearmings now)).sum < UInt64.size)
    (cell : H × D) :
    (lent.settle plan.timer lent.tick cell.1 cell.2).queue.nextTurn.toNat =
      scheduler.queue.nextTurn.toNat + if plan.periodic then 1 else 0 := by
  have numbered := agenda.numbered
  rw [List.countP_cons] at numbered
  rw [(agenda.settles delays split takes cell).turn, takes.issued, UInt64.toNat_add]
  by_cases periodic : plan.periodic = true
  · simp only [periodic, if_true, Option.isSome_some] at numbered ⊢
    exact Nat.mod_eq_of_lt (by simp only [UInt64.size] at room; simp; omega)
  · simp [periodic]

include agenda distinct split takes in
private theorem cells_fired {given cell : H × D} {shared later : W}
    (handler : timer.handler = some given.1) (data : timer.data = some given.2)
    (runs : (react given.1 plan.timer given.2).alone? shared = some (cell, later))
    (quiets : quiet cell.1) :
    ∀ other ∈ plans, ∃ timer origin last times,
      (lent.settle plan.timer lent.tick cell.1 cell.2).timer? other.timer = some timer ∧
      timer.period = other.period ∧ timer.handler = some last.1 ∧ timer.data = some last.2 ∧
      quiet last.1 ∧ first.cell? other.timer = some origin ∧
      Applied react other.timer times origin last ∧
      times + (if other ∈ rest then 1 else 0) = other.firings now := by
  intro other member
  obtain ⟨record, origin, last, times, found, period, held, held', still, began, applied, often⟩ :=
    agenda.cells other member
  by_cases fires : other = plan
  · subst fires
    have same := takes.found
    rw [found] at same
    cases same
    have lentOut := (takes.timers other.timer).trans (if_pos rfl)
    obtain ⟨after, ended, timers⟩ := Scheduler.settle_ends lentOut lent.tick cell.1 cell.2
    have last_eq : last = given := by
      rw [held] at handler
      rw [held'] at data
      exact Prod.ext (Option.some.inj handler) (Option.some.inj data)
    subst last_eq
    refine ⟨after, origin, cell, times + 1, (timers other.timer).trans (if_pos rfl),
      ended.period.trans period, ended.handler, ended.data, quiets, began, .again applied runs, ?_⟩
    rw [if_neg (not_mem_of_split distinct split)]
    rw [if_pos (by simp)] at often
    exact often
  · have apart : other.timer ≠ plan.timer := fun same =>
      fires (eq_of_timer distinct member (due_of_split split).1 same)
    refine ⟨record, origin, last, times, ?_, period, held, held', still, began, applied, ?_⟩
    · rw [Scheduler.timer?_settle_of_ne apart, takes.timers, if_neg apart, found]
    · simpa [fires] using often

include agenda distinct delays split takes in
private theorem fire (begun : 0 < now)
    (room : base + (plans.map (·.rearmings now)).sum < UInt64.size)
    (tick : lent.tick = scheduler.tick) {given cell : H × D} {shared later : W}
    (handler : timer.handler = some given.1) (data : timer.data = some given.2)
    (runs : (react given.1 plan.timer given.2).alone? shared = some (cell, later))
    (quiets : quiet cell.1) :
    Agenda react quiet plans first base now rest
      (fun other => if other = plan then scheduler.queue.nextTurn else turnOf other)
      (lent.settle plan.timer lent.tick cell.1 cell.2) where
  tied := (agenda.settles delays split takes cell).tied
  whole := by
    intro id timer found
    obtain ⟨_, settled⟩ := Scheduler.settle_settles takes.tied plan.timer lent.tick cell.1 cell.2
    rcases settled.timers id timer found with ⟨apart, kept⟩ | whole
    · rw [takes.timers, if_neg apart] at kept
      exact agenda.whole id timer kept
    · exact whole
  tick := by
    have clock := lent.clock_settle plan.timer lent.tick cell.1 cell.2
    have same : (lent.settle plan.timer lent.tick cell.1 cell.2).tick = lent.tick :=
      congrArg Prod.fst clock
    rw [same, tick]
    exact agenda.tick
  queued := agenda.queued_fired distinct delays split takes cell
  turns := agenda.turns_fired distinct delays split begun
  fresh := by
    intro other member awaited
    have numbered := agenda.numbered_fired delays split takes room cell
    rw [UInt64.lt_iff_toNat_lt, numbered]
    by_cases same : other = plan
    · subst same
      rw [awaited?_of_split distinct split] at awaited
      split at awaited
      next periodic => simp [periodic]
      next => cases awaited
    · rw [Plan.awaited?_cons same |>.symm] at awaited
      have less := UInt64.lt_iff_toNat_lt.mp (agenda.fresh other member awaited)
      rw [if_neg same]
      omega
  numbered := by
    have numbered := agenda.numbered
    rw [List.countP_cons] at numbered
    rw [agenda.numbered_fired delays split takes room cell]
    omega
  cells := agenda.cells_fired distinct split takes handler data runs quiets

end Firing

section Ticks

variable (quiets : react.Quiet quiet) (distinct : (plans.map (·.timer)).Nodup)
  (delays : ∀ plan ∈ plans, plan.delay ≠ 0)

include quiets distinct delays

private theorem drains (agenda : Agenda react quiet plans first base now due turnOf scheduler)
    (split : dueAt plans now = fired ++ due) (begun : 0 < now)
    (inside : first.tick.toNat + now < Tick.last.toNat)
    (room : base + (plans.map (·.rearmings now)).sum < UInt64.size) {fuel : Nat}
    (enough : due.length ≤ fuel) (nested : Advance H D W) (shared : W) :
    ∃ told final turnOf', System.drain react nested fuel ⟨scheduler, shared⟩ = some (told, final) ∧
      told.map Firing.call = due.map (fun plan => (first.tick.toNat + now, plan.timer)) ∧
      Agenda react quiet plans first base now [] turnOf' final.scheduler := by
  induction due generalizing fired turnOf scheduler shared fuel with
  | nil =>
    have nothing : scheduler.popDue? = none := agenda.rests delays inside rfl
    exact ⟨[], ⟨scheduler, shared⟩, turnOf, System.drain_of_idle nothing, rfl, agenda⟩
  | cons plan rest ih =>
    obtain ⟨fuel, rfl⟩ : ∃ less, fuel = less + 1 :=
      ⟨fuel - 1, by simp only [List.length_cons] at enough; omega⟩
    obtain ⟨_, order⟩ := order_of_split distinct split
    obtain ⟨turn, popped, timer, given, lent, due, taken, handler, data, takes, tick⟩ :=
      agenda.front delays inside order fun other member =>
        (mem_dueAt.mp (split ▸ List.mem_append_right fired member)).1
    have still : quiet given.1 := by
      obtain ⟨record, _, cell, _, found, _, held, _, still, _⟩ :=
        agenda.cells plan (due_of_split split).1
      have same := takes.found
      rw [found] at same
      cases same
      rw [held] at handler
      exact Option.some.inj handler ▸ still
    obtain ⟨cell, later, runs, still⟩ := quiets given.1 plan.timer given.2 shared still
    have left := agenda.fire distinct delays split takes begun room tick handler data runs still
    have split' : dueAt plans now = (fired ++ [plan]) ++ rest := by rw [split, List.append_cons]
    obtain ⟨told, final, turnOf', drained, calls, done⟩ :=
      ih left split' (Nat.le_of_succ_le_succ enough) later
    rw [tick] at drained
    refine ⟨⟨plan.timer, scheduler.tick, scheduler.tick, turn⟩ :: told, final, turnOf', ?_, ?_, done⟩
    · have ran := Program.run_of_alone? runs nested lent
      rw [System.drain_of_due due, System.dispatch_of_lends taken, ran, Option.map_some,
        Option.bind_some]
      dsimp only
      rw [tick, drained]
      rfl
    · simp [Firing.call, calls, agenda.tick]

omit quiets distinct delays in
private theorem begins (agenda : Agenda react quiet plans first base now [] turnOf scheduler)
    {tick : Tick} (next : scheduler.tick.next? = some tick) :
    Agenda react quiet plans first base (now + 1) (dueAt plans (now + 1)) turnOf
      { scheduler with tick, dispatching := true } where
  tied := agenda.tied.congr rfl rfl
  whole := agenda.whole
  tick := by
    have before := agenda.tick
    simp only [Tick.toNat_of_next? next]
    omega
  queued := by
    intro arming turn
    apply (agenda.queued arming turn).trans
    constructor
    · intro planned
      obtain ⟨plan, member, known⟩ := planned
      exact ⟨plan, member, by rwa [Plan.awaited?_dueAt member]⟩
    · intro planned
      obtain ⟨plan, member, known⟩ := planned
      exact ⟨plan, member, by rwa [Plan.awaited?_dueAt member] at known⟩
  turns := by
    intro one member two member' before offset awaited awaited'
    rw [Plan.awaited?_dueAt member] at awaited
    rw [Plan.awaited?_dueAt member'] at awaited'
    exact agenda.turns one member two member' before offset awaited awaited'
  fresh := by
    intro plan member awaited
    rw [Plan.awaited?_dueAt member] at awaited
    exact agenda.fresh plan member awaited
  numbered := by
    have numbered := agenda.numbered
    rw [List.countP_nil] at numbered
    rw [sum_rearmings_succ]
    simp only
    omega
  cells := by
    intro plan member
    obtain ⟨timer, origin, cell, times, found, period, held, held', still, began, applied, often⟩ :=
      agenda.cells plan member
    refine ⟨timer, origin, cell, times, found, period, held, held', still, began, applied, ?_⟩
    simp only [List.not_mem_nil, if_false, Nat.add_zero] at often
    simp only [mem_dueAt, member, true_and, Plan.firings_succ, often]

private theorem advances (agenda : Agenda react quiet plans first base now [] turnOf scheduler)
    (idle : scheduler.dispatching = false)
    (inside : first.tick.toNat + (now + 1) < Tick.last.toNat)
    (room : base + (plans.map (·.rearmings (now + 1))).sum < UInt64.size) (shared : W) :
    ∃ told final turnOf',
      System.tryAdvance react (plans.length + 1) ⟨scheduler, shared⟩ = some (.ok told, final) ∧
      told.map Firing.call = (dueAt plans (now + 1)).map
        (fun plan => (first.tick.toNat + (now + 1), plan.timer)) ∧
      Agenda react quiet plans first base (now + 1) [] turnOf' final.scheduler ∧
      final.scheduler.dispatching = false := by
  have few : (dueAt plans (now + 1)).length ≤ plans.length := by
    rw [(dueAt_perm plans (now + 1)).length_eq]
    exact List.length_filter_le _ plans
  cases next : scheduler.tick.next? with
  | none =>
    have last := agenda.tick
    rw [Tick.next?_eq_none_iff.mp next] at last
    omega
  | some tick =>
    obtain ⟨told, final, turnOf', drained, calls, done⟩ :=
      (agenda.begins next).drains quiets distinct delays (List.nil_append _).symm
        (Nat.succ_pos now) inside room few (System.tryAdvance react plans.length) shared
    have begins : scheduler.beginAdvance = .ok { scheduler with tick, dispatching := true } := by
      simp [Scheduler.beginAdvance, idle, next]
    exact ⟨told, _, turnOf', System.advanced_iff.mp (.made begins drained), calls,
      { done with tied := done.tied.congr rfl rfl }, rfl⟩

/-- Many advances run the handlers by the timetable. -/
theorem advancesBy (ticks : Nat)
    (agenda : Agenda react quiet plans first base now [] turnOf scheduler)
    (idle : scheduler.dispatching = false)
    (inside : first.tick.toNat + (now + ticks) < Tick.last.toNat)
    (room : base + (plans.map (·.rearmings (now + ticks))).sum < UInt64.size) (shared : W) :
    ∃ told final turnOf',
      System.run ⟨scheduler, shared⟩ react (plans.length + 1) (Program.advanceTicks ticks) =
        some (told, final) ∧
      told.map Firing.call = (callsAfter plans first.tick.toNat now ticks).map
        (fun call => (call.1, call.2.timer)) ∧
      Agenda react quiet plans first base (now + ticks) [] turnOf' final.scheduler := by
  induction ticks generalizing now turnOf scheduler shared with
  | zero => exact ⟨[], ⟨scheduler, shared⟩, turnOf, rfl, rfl, agenda⟩
  | succ ticks ih =>
    have order : now + 1 + ticks = now + (ticks + 1) := by omega
    have less : (plans.map (·.rearmings (now + 1))).sum ≤
      (plans.map (·.rearmings (now + (ticks + 1)))).sum := sum_rearmings_le plans (by omega)
    obtain ⟨told, ⟨after, shared'⟩, turnOf', advanced, calls, agenda', idle'⟩ :=
      agenda.advances quiets distinct delays idle (by omega) (by omega) shared
    obtain ⟨more, final, last, onward, calls', done⟩ :=
      ih agenda' idle' (by omega) (by rwa [order]) shared'
    refine ⟨told ++ more, final, last, ?_, ?_, order ▸ done⟩
    · exact System.run_advanceTicks advanced onward
    · rw [callsAfter_succ, List.map_append, List.map_append, calls, calls', List.map_map]
      rfl

end Ticks

end Agenda

end Timers
