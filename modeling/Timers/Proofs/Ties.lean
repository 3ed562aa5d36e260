import Timers.Proofs.QueueOrder
import Timers.Scheduler.Dispatch

/-! Records and entries point at each other. While a timer is rescheduled its own ties are
cut for a moment, so the invariant can leave one timer out; taking its entry away leaves it
out, and giving it an entry, or none for good, takes it in again. -/

namespace Timers

variable {H D : Type}

instance : Std.TransCmp Arming.byExpiry :=
  inferInstanceAs (Std.TransCmp (compareOn Arming.expiry))

/-- The record of a timer while its handler runs, as long as nothing has changed it. -/
def Timer.lentOut (timer : Timer H D) : Timer H D :=
  { timer with node := none, handler := none, data := none, phase := .firing }

namespace Scheduler

variable {scheduler before after : Scheduler H D} {id : TimerId} {timer : Timer H D}
  {gone : Option TimerId}

/-- The timer is due at a tick, at a turn among all that are due then. -/
def Queued (scheduler : Scheduler H D) (arming : Arming) (turn : UInt64) : Prop :=
  ∃ key, scheduler.queue.held? key = some (arming, turn)

theorem queued_congr (queue : after.queue = before.queue) {arming : Arming} {turn : UInt64} :
    after.Queued arming turn ↔ before.Queued arming turn := by
  simp only [Queued]
  rw [queue]

/-- The ties between records and entries, but for those of one timer, which has no entry. -/
structure TiedBut (scheduler : Scheduler H D) (gone : Option TimerId) : Prop where
  linked : scheduler.queue.Linked
  ordered : scheduler.queue.Ordered
  entry : ∀ key arming turn, scheduler.queue.held? key = some (arming, turn) →
    gone ≠ some arming.timer ∧ ∃ timer, scheduler.timer? arming.timer = some timer ∧
      timer.node = some key ∧ timer.expiry = arming.expiry
  record : ∀ id timer key, gone ≠ some id → scheduler.timer? id = some timer →
    timer.node = some key → ∃ turn, scheduler.queue.held? key = some (⟨timer.expiry, id⟩, turn)
  phase : ∀ id timer, gone ≠ some id → scheduler.timer? id = some timer →
    (timer.node.isSome ↔ timer.phase = .scheduled)

def Tied (scheduler : Scheduler H D) : Prop := scheduler.TiedBut none

namespace Tied

theorem of (linked : scheduler.queue.Linked) (ordered : scheduler.queue.Ordered)
    (entry : ∀ key arming turn, scheduler.queue.held? key = some (arming, turn) →
      ∃ timer, scheduler.timer? arming.timer = some timer ∧ timer.node = some key ∧
        timer.expiry = arming.expiry)
    (record : ∀ id timer key, scheduler.timer? id = some timer → timer.node = some key →
      ∃ turn, scheduler.queue.held? key = some (⟨timer.expiry, id⟩, turn))
    (phase : ∀ id timer, scheduler.timer? id = some timer →
      (timer.node.isSome ↔ timer.phase = .scheduled)) : scheduler.Tied :=
  ⟨linked, ordered, fun key arming turn held => ⟨by simp, entry key arming turn held⟩,
    fun id timer key _ => record id timer key, fun id timer _ => phase id timer⟩

theorem entry (tied : scheduler.Tied) {key : NodeKey} {arming : Arming} {turn : UInt64}
    (held : scheduler.queue.held? key = some (arming, turn)) :
    ∃ timer, scheduler.timer? arming.timer = some timer ∧ timer.node = some key ∧
      timer.expiry = arming.expiry := (TiedBut.entry tied key arming turn held).2

theorem record (tied : scheduler.Tied) {key : NodeKey} (found : scheduler.timer? id = some timer)
    (node : timer.node = some key) :
    ∃ turn, scheduler.queue.held? key = some (⟨timer.expiry, id⟩, turn) :=
  TiedBut.record tied id timer key (by simp) found node

theorem phase (tied : scheduler.Tied) (found : scheduler.timer? id = some timer) :
    timer.node.isSome ↔ timer.phase = .scheduled := TiedBut.phase tied id timer (by simp) found

theorem queued (tied : scheduler.Tied) (found : scheduler.timer? id = some timer)
    (armed : timer.node.isSome) : ∃ turn, scheduler.Queued ⟨timer.expiry, id⟩ turn := by
  obtain ⟨key, node⟩ := Option.isSome_iff_exists.mp armed
  obtain ⟨turn, held⟩ := tied.record found node
  exact ⟨turn, key, held⟩

end Tied

theorem timer?_updateTimer (scheduler : Scheduler H D) (id other : TimerId)
    (change : Timer H D → Timer H D) :
    (scheduler.updateTimer id change).timer? other =
      if other = id then (scheduler.timer? other).map change else scheduler.timer? other := by
  obtain ⟨id⟩ := id
  obtain ⟨other⟩ := other
  simp only [timer?, updateTimer, Arena.get?_modify, TimerId.mk.injEq]

theorem timer?_reset (scheduler : Scheduler H D) (id : TimerId) :
    scheduler.reset.timer? id = none := Arena.get?_clear scheduler.timers id.key

theorem timer?_of_update (found : scheduler.timer? id = some timer)
    (change : Timer H D → Timer H D) (other : TimerId) :
    (scheduler.updateTimer id change).timer? other =
      if other = id then some (change timer) else scheduler.timer? other := by
  rw [timer?_updateTimer]
  by_cases same : other = id
  · subst same
    rw [found]
    rfl
  · simp [same]

namespace TiedBut

private theorem key_unique (tied : scheduler.TiedBut gone) {first second : NodeKey}
    {left right : Arming}
    {turn later : UInt64} (held : scheduler.queue.held? first = some (left, turn))
    (other : scheduler.queue.held? second = some (right, later)) (same : left.timer = right.timer) :
    first = second := by
  obtain ⟨_, timer, found, node, _⟩ := tied.entry first left turn held
  obtain ⟨_, timer', found', node', _⟩ := tied.entry second right later other
  rw [same, found'] at found
  cases found
  exact Option.some.inj (node.symm.trans node')

theorem queued_unique (tied : scheduler.TiedBut gone) {left right : Arming} {turn later : UInt64}
    (first : scheduler.Queued left turn) (second : scheduler.Queued right later)
    (same : left.timer = right.timer) : left = right ∧ turn = later := by
  obtain ⟨key, held⟩ := first
  obtain ⟨other, held'⟩ := second
  have keys := tied.key_unique held held' same
  subst keys
  rw [held] at held'
  cases held'
  exact ⟨rfl, rfl⟩

theorem mem_toList_iff (tied : scheduler.TiedBut gone) {arming : Arming} :
    arming ∈ scheduler.queue.toList ↔ ∃ turn, scheduler.Queued arming turn := by
  rw [PriorityQueue.mem_toList_iff tied.linked]
  simp only [PriorityQueue.get?_eq_held?, Option.map_eq_some_iff, Prod.exists, Queued]
  constructor
  · rintro ⟨key, _, turn, held, rfl⟩
    exact ⟨turn, key, held⟩
  · rintro ⟨turn, key, held⟩
    exact ⟨key, arming, turn, held, rfl⟩

theorem timers_nodup (tied : scheduler.TiedBut gone) :
    (scheduler.queue.toList.map (·.timer)).Nodup := by
  apply PriorityQueue.toList_map_nodup tied.linked
  intro key other first second found found' same
  rw [PriorityQueue.get?_eq_held?] at found found'
  obtain ⟨⟨arming, turn⟩, held, rfl⟩ := Option.map_eq_some_iff.mp found
  obtain ⟨⟨arming', turn'⟩, held', rfl⟩ := Option.map_eq_some_iff.mp found'
  exact tied.key_unique held held' same

/-- A change of a record keeps the ties, unless it is one of the ties that is changed. -/
theorem update (tied : scheduler.TiedBut gone) {change : Timer H D → Timer H D}
    (kept : gone ≠ some id → ∀ timer, (change timer).node = timer.node ∧
      (change timer).expiry = timer.expiry ∧ (change timer).phase = timer.phase) :
    (scheduler.updateTimer id change).TiedBut gone where
  linked := tied.linked
  ordered := tied.ordered
  entry := by
    intro key arming turn held
    obtain ⟨apart, timer, found, node, expiry⟩ := tied.entry key arming turn held
    refine ⟨apart, ?_⟩
    rw [timer?_updateTimer, found]
    by_cases same : arming.timer = id
    · obtain ⟨node', expiry', _⟩ := kept (same ▸ apart) timer
      exact ⟨change timer, by rw [if_pos same]; rfl, node'.trans node, expiry'.trans expiry⟩
    · exact ⟨timer, if_neg same, node, expiry⟩
  record := by
    intro other timer key apart found node
    rw [timer?_updateTimer] at found
    split at found
    next same =>
      obtain ⟨old, present, rfl⟩ := Option.map_eq_some_iff.mp found
      obtain ⟨node', expiry', _⟩ := kept (same ▸ apart) old
      rw [expiry']
      exact tied.record other old key apart present (node'.symm.trans node)
    next => exact tied.record other timer key apart found node
  phase := by
    intro other timer apart found
    rw [timer?_updateTimer] at found
    split at found
    next same =>
      obtain ⟨old, present, rfl⟩ := Option.map_eq_some_iff.mp found
      obtain ⟨node', _, phase'⟩ := kept (same ▸ apart) old
      rw [node', phase']
      exact tied.phase other old apart present
    next => exact tied.phase other timer apart found

theorem update_gone (tied : scheduler.TiedBut (some id)) (change : Timer H D → Timer H D) :
    (scheduler.updateTimer id change).TiedBut (some id) :=
  tied.update fun apart => absurd rfl apart

theorem release (tied : scheduler.TiedBut (some id))
    (idle : ∀ timer, scheduler.timer? id = some timer →
      timer.node = none ∧ timer.phase ≠ .scheduled) : scheduler.Tied := by
  refine .of tied.linked tied.ordered
    (fun key arming turn held => (tied.entry key arming turn held).2) ?_ ?_
  · intro other timer key found node
    by_cases same : other = id
    · subst same
      rw [(idle timer found).1] at node
      cases node
    · exact tied.record other timer key (fun equal => same (Option.some.inj equal).symm) found node
  · intro other timer found
    by_cases same : other = id
    · subst same
      obtain ⟨node, phase⟩ := idle timer found
      simp [node, phase]
    · exact tied.phase other timer (fun equal => same (Option.some.inj equal).symm) found

theorem forget (tied : before.TiedBut (some id)) (queue : after.queue = before.queue)
    (timers : ∀ other, after.timer? other = if other = id then none else before.timer? other) :
    after.Tied := by
  obtain ⟨linked, ordered, entry, record, phase⟩ := tied
  rw [← queue] at linked ordered entry record
  have others : ∀ {other timer}, after.timer? other = some timer →
      some id ≠ some other ∧ before.timer? other = some timer := by
    intro other timer found
    rw [timers] at found
    split at found
    · cases found
    next apart => exact ⟨fun same => apart (Option.some.inj same).symm, found⟩
  apply Tied.of linked ordered
  · intro key arming turn held
    obtain ⟨apart, timer, found, node, expiry⟩ := entry key arming turn held
    have other : arming.timer ≠ id := fun same => apart (congrArg some same.symm)
    exact ⟨timer, by rw [timers, if_neg other, found], node, expiry⟩
  · intro other timer key found node
    exact record other timer key (others found).1 (others found).2 node
  · intro other timer found
    exact phase other timer (others found).1 (others found).2

theorem loosen (tied : scheduler.Tied) (found : scheduler.timer? id = some timer)
    (node : timer.node = none) : scheduler.TiedBut (some id) ∧
      ∀ arming turn, scheduler.Queued arming turn → arming.timer ≠ id := by
  have apart : ∀ key arming turn, scheduler.queue.held? key = some (arming, turn) →
      arming.timer ≠ id := by
    intro key arming turn held same
    obtain ⟨other, found', node', _⟩ := tied.entry held
    rw [same, found] at found'
    cases found'
    rw [node] at node'
    cases node'
  refine ⟨⟨tied.linked, tied.ordered, ?_, ?_, ?_⟩, ?_⟩
  · intro key arming turn held
    have other := apart key arming turn held
    exact ⟨fun equal => other (Option.some.inj equal).symm, tied.entry held⟩
  · exact fun other timer key _ => tied.record
  · exact fun other timer _ => tied.phase
  · exact fun arming turn ⟨key, held⟩ => apart key arming turn held

private theorem withdraw (tied : scheduler.Tied) (found : scheduler.timer? id = some timer)
    {key : NodeKey} (node : timer.node = some key)
    {queue : PriorityQueue Arming Arming.byExpiry}
    (removed : PriorityQueue.Removed scheduler.queue key queue) (ordered : queue.Ordered) :
    { scheduler with queue }.TiedBut (some id) ∧
      ∀ arming turn, { scheduler with queue }.Queued arming turn ↔
        scheduler.Queued arming turn ∧ arming.timer ≠ id := by
  obtain ⟨turn, held⟩ := tied.record found node
  have others : ∀ other arming turn, queue.held? other = some (arming, turn) ↔
      scheduler.queue.held? other = some (arming, turn) ∧ arming.timer ≠ id := by
    intro other arming turn'
    rw [removed.held]
    by_cases same : other = key
    · subst same
      simp only [if_true, reduceCtorEq, false_iff]
      rintro ⟨held', apart⟩
      rw [held] at held'
      cases held'
      exact apart rfl
    · simp only [same, if_false, iff_self_and]
      exact fun held' equal => same (tied.key_unique held' held equal)
  refine ⟨⟨removed.linked, ordered, ?_, ?_, ?_⟩, ?_⟩
  · intro other arming turn' left
    obtain ⟨held', apart⟩ := (others other arming turn').mp left
    exact ⟨fun equal => apart (Option.some.inj equal).symm, tied.entry held'⟩
  · intro other timer' key' apart found' node'
    obtain ⟨turn', held'⟩ := tied.record found' node'
    exact ⟨turn', (others key' _ turn').mpr ⟨held', fun same => apart (congrArg some same.symm)⟩⟩
  · exact fun other timer' _ => tied.phase
  · intro arming turn'
    constructor
    · rintro ⟨other, left⟩
      obtain ⟨held', apart⟩ := (others other arming turn').mp left
      exact ⟨⟨other, held'⟩, apart⟩
    · rintro ⟨⟨other, held'⟩, apart⟩
      exact ⟨other, (others other arming turn').mpr ⟨held', apart⟩⟩

end TiedBut

/-- What disarming a timer does. -/
structure Disarmed (before : Scheduler H D) (id : TimerId) (timer : Timer H D)
    (after : Scheduler H D) : Prop where
  tied : after.TiedBut (some id)
  queued : ∀ arming turn, after.Queued arming turn ↔
    before.Queued arming turn ∧ arming.timer ≠ id
  turn : after.queue.nextTurn = before.queue.nextTurn
  timers : ∀ other, after.timer? other =
    if other = id then some { timer with node := none } else before.timer? other
  generations : ∀ index, after.timers.generationAt index = before.timers.generationAt index

theorem Disarmed.found (disarmed : Disarmed before id timer after) :
    after.timer? id = some { timer with node := none } :=
  (disarmed.timers id).trans (if_pos rfl)

theorem disarm_disarms (tied : scheduler.Tied) (found : scheduler.timer? id = some timer) :
    ∃ after, scheduler.disarm id timer = (.ok timer.node.isSome, after) ∧
      Disarmed scheduler id timer after := by
  cases node : timer.node with
  | none =>
    obtain ⟨loose, apart⟩ := TiedBut.loosen tied found node
    refine ⟨scheduler, by simp [disarm, node], loose, ?_, rfl, ?_, fun _ => rfl⟩
    · exact fun arming turn => ⟨fun queued => ⟨queued, apart arming turn queued⟩, And.left⟩
    · intro other
      split
      next same =>
        subst same
        rw [found, ← node]
      next => rfl
  | some key =>
    obtain ⟨turn, held⟩ := tied.record found node
    obtain ⟨reply, removed⟩ := PriorityQueue.remove_removes tied.linked held
    have ordered := PriorityQueue.remove_ordered tied.ordered tied.linked key
    obtain ⟨loose, queued⟩ := TiedBut.withdraw tied found node removed ordered
    let free : Scheduler H D := { scheduler with queue := (scheduler.queue.remove key).2 }
    have still : free.timer? id = some timer := found
    refine ⟨free.updateTimer id ({ · with node := none }), ?_, loose.update_gone _, ?_,
      removed.turn, timer?_of_update still _, ?_⟩
    · have split : scheduler.queue.remove key =
          (.ok ⟨timer.expiry, id⟩, (scheduler.queue.remove key).2) := Prod.ext reply rfl
      simp only [disarm, node, updateTimer]
      rw [split]
      rfl
    · exact fun arming turn => (queued_congr rfl).trans (queued arming turn)
    · exact Arena.generationAt_modify _ _ _

/-- What arming a timer does that has no entry. -/
structure Armed (before : Scheduler H D) (id : TimerId) (timer : Timer H D) (expiry : Tick)
    (after : Scheduler H D) : Prop where
  tied : after.Tied
  queued : ∀ arming turn, after.Queued arming turn ↔
    before.Queued arming turn ∨ arming = ⟨expiry, id⟩ ∧ turn = before.queue.nextTurn
  turn : after.queue.nextTurn = before.queue.nextTurn + 1
  timers : ∃ node, ∀ other, after.timer? other =
    if other = id then some { timer with expiry, phase := .scheduled, node := some node }
    else before.timer? other
  generations : ∀ index, after.timers.generationAt index = before.timers.generationAt index

theorem arm_arms (tied : scheduler.TiedBut (some id)) (found : scheduler.timer? id = some timer)
    (expiry : Tick) : Armed scheduler id timer expiry (scheduler.arm id expiry) := by
  have inserted := PriorityQueue.insert_inserts tied.linked ⟨expiry, id⟩
  have ordered := PriorityQueue.insert_ordered tied.ordered tied.linked ⟨expiry, id⟩
  have held : ∀ key, (scheduler.arm id expiry).queue.held? key =
      if key = (scheduler.queue.insert ⟨expiry, id⟩).1 then
        some (⟨expiry, id⟩, scheduler.queue.nextTurn)
      else scheduler.queue.held? key := inserted.held
  have timers : ∀ other, (scheduler.arm id expiry).timer? other =
      if other = id then some { timer with
        expiry, phase := .scheduled, node := some (scheduler.queue.insert ⟨expiry, id⟩).1 }
      else scheduler.timer? other := timer?_of_update found _
  refine ⟨.of inserted.linked ordered ?_ ?_ ?_, ?_, inserted.turn, ⟨_, timers⟩, ?_⟩
  · intro key arming turn present
    rw [held] at present
    split at present
    next same =>
      cases present
      exact ⟨_, by rw [timers, if_pos rfl], congrArg some same.symm, rfl⟩
    next =>
      obtain ⟨apart, timer', found', node, expiry'⟩ := tied.entry key arming turn present
      have other : arming.timer ≠ id := fun same => apart (congrArg some same.symm)
      exact ⟨timer', by rw [timers, if_neg other, found'], node, expiry'⟩
  · intro other timer' key found' node
    rw [timers] at found'
    rw [held]
    split at found'
    next same =>
      cases found'
      rw [if_pos (Option.some.inj node).symm, same]
      exact ⟨_, rfl⟩
    next apart =>
      have left : some id ≠ some other := fun same => apart (Option.some.inj same).symm
      obtain ⟨turn, present⟩ := tied.record other timer' key left found' node
      exact ⟨turn, by rw [if_neg (inserted.apart present), present]⟩
  · intro other timer' found'
    rw [timers] at found'
    split at found'
    next =>
      cases found'
      simp
    next apart =>
      have left : some id ≠ some other := fun same => apart (Option.some.inj same).symm
      exact tied.phase other timer' left found'
  · intro arming turn
    rw [← Prod.mk.injEq]
    exact inserted.holds
  · exact Arena.generationAt_modify _ _ _

private theorem rankOrder_byExpiry {first second : Arming} {turn later : UInt64} :
    PriorityQueue.rankOrder Arming.byExpiry (first, turn) (second, later) = .lt ↔
      first.expiry < second.expiry ∨ first.expiry = second.expiry ∧ turn < later := by
  have unfolded : PriorityQueue.rankOrder Arming.byExpiry (first, turn) (second, later) =
      (compare first.expiry second.expiry).then (compare turn later) := rfl
  rw [unfolded, Ordering.then_eq_lt, Std.compare_eq_lt, Std.compare_eq_lt, Std.compare_eq_iff_eq]

private theorem TiedBut.front_first (tied : scheduler.TiedBut gone)
    {node : PriorityQueue.Node Arming}
    (front : scheduler.queue.front? = some node) {arming : Arming} {turn : UInt64}
    (queued : scheduler.Queued arming turn) :
    node.item.expiry < arming.expiry ∨ node.item.expiry = arming.expiry ∧ node.turn ≤ turn := by
  obtain ⟨key, held⟩ := queued
  have least := PriorityQueue.front_foremost tied.ordered tied.linked front held
  have unfolded : node.rank = (node.item, node.turn) := rfl
  rw [unfolded, ne_eq, rankOrder_byExpiry] at least
  simp only [UInt64.lt_iff_toNat_lt, UInt64.le_iff_toNat_le, ← UInt64.toNat_inj] at least ⊢
  omega

/-- Either nothing is on the schedule, or the front is, and it comes first. -/
theorem TiedBut.front_cases (tied : scheduler.TiedBut gone) :
    (scheduler.queue.front? = none ∧ ∀ arming turn, ¬ scheduler.Queued arming turn) ∨
    ∃ node, scheduler.queue.front? = some node ∧ scheduler.Queued node.item node.turn ∧
      ∀ other later, scheduler.Queued other later →
        node.item.expiry < other.expiry ∨ node.item.expiry = other.expiry ∧ node.turn ≤ later := by
  rcases PriorityQueue.front?_cases tied.linked with
    ⟨_, front, _, vacant⟩ | ⟨key, node, _, front, _, held⟩
  · refine .inl ⟨front, ?_⟩
    rintro arming turn ⟨key, held⟩
    rw [vacant] at held
    cases held
  · exact .inr ⟨node, front, ⟨key, held⟩, fun other later queued => tied.front_first front queued⟩

theorem TiedBut.popDue?_of_front (tied : scheduler.TiedBut gone) {node : PriorityQueue.Node Arming}
    (front : scheduler.queue.front? = some node) :
    scheduler.popDue? = if node.item.expiry ≤ scheduler.tick then
      some (node.item, node.turn, { scheduler with queue := scheduler.queue.pop.2 }) else none := by
  rcases PriorityQueue.front?_cases tied.linked with
    ⟨_, absent, _, _⟩ | ⟨key, found, listed, same, _, held⟩
  · cases absent.symm.trans front
  · cases same.symm.trans front
    have reply := (PriorityQueue.pop_removes tied.linked listed held).1
    have split : scheduler.queue.pop = (some node.item, scheduler.queue.pop.2) := Prod.ext reply rfl
    simp only [popDue?, front]
    rw [split]

theorem TiedBut.popDue?_none (tied : scheduler.TiedBut gone) (nothing : scheduler.popDue? = none)
    {arming : Arming} {turn : UInt64} (queued : scheduler.Queued arming turn) :
    scheduler.tick < arming.expiry := by
  rcases tied.front_cases with ⟨_, vacant⟩ | ⟨node, front, _, least⟩
  · exact absurd queued (vacant arming turn)
  · have first := least arming turn queued
    have ahead : ¬ node.item.expiry ≤ scheduler.tick := by
      intro come
      rw [tied.popDue?_of_front front, if_pos come] at nothing
      cases nothing
    simp only [UInt64.lt_iff_toNat_lt, UInt64.le_iff_toNat_le, ← UInt64.toNat_inj] at first ahead ⊢
    omega

theorem TiedBut.popDue?_of_ahead (tied : scheduler.TiedBut gone)
    (ahead : ∀ arming turn, scheduler.Queued arming turn → scheduler.tick < arming.expiry) :
    scheduler.popDue? = none := by
  rcases tied.front_cases with ⟨front, _⟩ | ⟨node, front, queued, _⟩
  · simp only [popDue?, front]
  · have later := ahead _ _ queued
    rw [tied.popDue?_of_front front, if_neg (UInt64.not_le.mpr later)]

/-- What becomes of a timer whose entry is due: the entry leaves the queue, and handler and
data leave the record. -/
structure Taken (before : Scheduler H D) (arming : Arming) (turn : UInt64) (timer : Timer H D)
    (after : Scheduler H D) : Prop where
  due : arming.expiry ≤ before.tick
  queued : before.Queued arming turn
  first : ∀ other later, before.Queued other later →
    arming.expiry < other.expiry ∨ arming.expiry = other.expiry ∧ turn ≤ later
  found : before.timer? arming.timer = some timer
  expiry : timer.expiry = arming.expiry
  tied : after.Tied
  left : ∀ other later, after.Queued other later ↔
    before.Queued other later ∧ other.timer ≠ arming.timer
  issued : after.queue.nextTurn = before.queue.nextTurn
  timers : ∀ other, after.timer? other =
    if other = arming.timer then some timer.lentOut else before.timer? other
  generations : ∀ index, after.timers.generationAt index = before.timers.generationAt index

theorem lend_lends {handler : H} {data : D} (tied : scheduler.TiedBut (some id))
    (found : scheduler.timer? id = some timer) (taken : timer.handler = some handler)
    (taken' : timer.data = some data) :
    ∃ after, scheduler.lend id = (some (handler, data), after) ∧ after.Tied ∧
      after.queue = scheduler.queue ∧
      (∀ other, after.timer? other =
        if other = id then some timer.lentOut else scheduler.timer? other) ∧
      ∀ index, after.timers.generationAt index = scheduler.timers.generationAt index := by
  have lent : scheduler.lend id = (some (handler, data),
      (scheduler.updateTimer id ({ · with node := none })).updateTimer id
        ({ · with handler := none, data := none, phase := .firing })) := by
    simp only [lend, found, taken, taken']
  have timers : ∀ other, (scheduler.lend id).2.timer? other =
      if other = id then some timer.lentOut else scheduler.timer? other := by
    intro other
    have unlinked := timer?_of_update found ({ · with node := none })
    rw [lent, timer?_of_update ((unlinked id).trans (if_pos rfl)), unlinked]
    split <;> rfl
  have loose : (scheduler.lend id).2.TiedBut (some id) := by
    rw [lent]
    exact (tied.update_gone _).update_gone _
  refine ⟨(scheduler.lend id).2, by rw [lent], ?_, ?_, timers, ?_⟩
  · apply loose.release
    intro timer' found'
    rw [timers, if_pos rfl] at found'
    cases found'
    exact ⟨rfl, by simp [Timer.lentOut]⟩
  · rw [lent]
    rfl
  · intro index
    rw [lent]
    exact (Arena.generationAt_modify _ _ _ index).trans (Arena.generationAt_modify _ _ _ index)

theorem lend_gives {given : H × D} {lent : Scheduler H D} (found : scheduler.timer? id = some timer)
    (taken : scheduler.lend id = (some given, lent)) :
    timer.handler = some given.1 ∧ timer.data = some given.2 := by
  unfold lend at taken
  rw [found] at taken
  dsimp only at taken
  split at taken
  next handler data =>
    cases taken
    exact ⟨handler, data⟩
  next => cases taken

theorem popDue?_takes {arming : Arming} {turn : UInt64} {popped : Scheduler H D}
    (tied : scheduler.Tied)
    (whole : ∀ id timer, scheduler.timer? id = some timer →
      timer.handler.isSome ∧ timer.data.isSome)
    (due : scheduler.popDue? = some (arming, turn, popped)) :
    ∃ timer given after, popped.lend arming.timer = (some given, after) ∧
      Taken scheduler arming turn timer after := by
  rcases PriorityQueue.front?_cases tied.linked with ⟨_, front, _, _⟩ | ⟨key, node, listed, front, _, held⟩
  · simp [popDue?, front] at due
  · obtain ⟨_, removed⟩ := PriorityQueue.pop_removes tied.linked listed held
    have ordered := PriorityQueue.pop_ordered tied.ordered tied.linked
    rw [tied.popDue?_of_front front] at due
    split at due
    next come =>
      cases due
      obtain ⟨timer, found, node', expiry⟩ := tied.entry held
      obtain ⟨loose, left⟩ := TiedBut.withdraw tied found node' removed ordered
      obtain ⟨handler, data⟩ := whole _ timer found
      obtain ⟨handler, lentHandler⟩ := Option.isSome_iff_exists.mp handler
      obtain ⟨data, lentData⟩ := Option.isSome_iff_exists.mp data
      obtain ⟨after, lent, tied', queue, timers, generations⟩ :=
        lend_lends loose found lentHandler lentData
      refine ⟨timer, _, after, lent, come, ⟨key, held⟩, ?_, found, expiry, tied', ?_, ?_, timers,
        generations⟩
      · exact fun other later queued => tied.front_first front queued
      · exact fun other later => (queued_congr queue).trans (left other later)
      · rw [queue]
        exact removed.turn
    next => cases due

end Scheduler

end Timers
