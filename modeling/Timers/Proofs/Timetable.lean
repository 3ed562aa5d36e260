import Mathlib.Algebra.GroupWithZero.Nat
import Mathlib.Data.List.Sort
import Timers.Timer

/-! When timers are due that were started together and are left alone. A timer with a period is
due at every multiple of its delay, and another one once. Of timers that are due at once, the
one with the longer delay has been armed for longer; with equal delays they have been armed
together, in the order in which they were started. -/

namespace Timers

/-- How a timer is started. -/
structure Plan where
  timer : TimerId
  delay : UInt64
  periodic : Bool
  deriving DecidableEq

namespace Plan

/-- The period of the timer, once it is started. -/
def period (plan : Plan) : UInt64 := if plan.periodic then plan.delay else 0

/-- Whether the timer is due that many ticks after it was started. -/
def Due (plan : Plan) (offset : Nat) : Prop :=
  if plan.periodic then plan.delay.toNat ∣ offset else offset = plan.delay.toNat

instance (plan : Plan) (offset : Nat) : Decidable (plan.Due offset) :=
  inferInstanceAs (Decidable (if plan.periodic then _ else _))

/-- When the timer is due next, after so many ticks. -/
def dueAfter (plan : Plan) (now : Nat) : Option Nat :=
  if plan.periodic then some ((now / plan.delay.toNat + 1) * plan.delay.toNat)
  else if now < plan.delay.toNat then some plan.delay.toNat
  else none

/-- How often the timer has been due by then. -/
def firings (plan : Plan) (ticks : Nat) : Nat :=
  if plan.periodic then ticks / plan.delay.toNat
  else if plan.delay.toNat ≤ ticks then 1
  else 0

/-- How often the timer has been armed again by then. -/
def rearmings (plan : Plan) (ticks : Nat) : Nat :=
  if plan.periodic then ticks / plan.delay.toNat else 0

end Plan

/-- Of two timers that are due at once, the first one is the one that has been armed earlier. -/
def Precedes (plans : List Plan) (first second : Plan) : Prop :=
  second.delay < first.delay ∨
    first.delay = second.delay ∧ plans.idxOf first < plans.idxOf second

instance (plans : List Plan) (first second : Plan) : Decidable (Precedes plans first second) :=
  inferInstanceAs (Decidable (_ ∨ _))

/-- The timers that are due that many ticks after their start, in the order of their armings. -/
def dueAt (plans : List Plan) (offset : Nat) : List Plan :=
  (plans.filter (·.Due offset)).insertionSort fun first second => ¬ Precedes plans second first

/-- What is due in so many ticks, if the timers were started so many ticks ago. -/
def callsAfter (plans : List Plan) (start now ticks : Nat) : List (Nat × Plan) :=
  (List.range' (now + 1) ticks).flatMap fun offset =>
    (dueAt plans offset).map fun plan => (start + offset, plan)

/-- The calls of timers that were started together at a tick: for every timer the ticks at which
it is due, ordered by the ticks, then from the longest delay on, then as they were started. -/
structure Timetable (plans : List Plan) (start ticks : Nat) (calls : List (Nat × Plan)) : Prop where
  listed : ∀ tick plan, (tick, plan) ∈ calls ↔
    plan ∈ plans ∧ start < tick ∧ tick ≤ start + ticks ∧ plan.Due (tick - start)
  ordered : calls.Pairwise fun first second =>
    first.1 < second.1 ∨ first.1 = second.1 ∧ Precedes plans first.2 second.2

variable {plans : List Plan} {plan first second third : Plan} {now offset start ticks : Nat}

namespace Plan

theorem dueAfter_of_due (due : plan.Due (now + 1)) : plan.dueAfter now = some (now + 1) := by
  unfold Due at due
  unfold dueAfter
  split
  next periodic =>
    rw [if_pos periodic] at due
    have next := Nat.succ_div (a := now) (b := plan.delay.toNat)
    rw [if_pos due] at next
    rw [← next, Nat.div_mul_cancel due]
  next once =>
    rw [if_neg once] at due
    rw [if_pos (by omega), due]

theorem dueAfter_succ (idle : ¬ plan.Due (now + 1)) :
    plan.dueAfter now = plan.dueAfter (now + 1) := by
  unfold Due at idle
  unfold dueAfter
  split
  next periodic =>
    rw [if_pos periodic] at idle
    rw [Nat.succ_div, if_neg idle, Nat.add_zero]
  next once =>
    rw [if_neg once] at idle
    split <;> split <;> first | rfl | omega

theorem delay_pos (delays : plan.delay ≠ 0) : 0 < plan.delay.toNat :=
  Nat.pos_of_ne_zero fun zero => delays (UInt64.toNat_inj.mp zero)

theorem lt_dueAfter (delays : plan.delay ≠ 0) (due : plan.dueAfter now = some offset) :
    now < offset := by
  unfold dueAfter at due
  split at due
  · cases due
    have below := Nat.lt_div_mul_add (a := now) (delay_pos delays)
    rw [Nat.add_mul, Nat.one_mul]
    exact below
  · split at due <;> cases due
    assumption

theorem dueAfter_zero (delays : plan.delay ≠ 0) : plan.dueAfter 0 = some plan.delay.toNat := by
  unfold dueAfter
  split
  · rw [Nat.zero_div, Nat.zero_add, Nat.one_mul]
  · rw [if_pos (delay_pos delays)]

theorem dueAfter_again (due : plan.Due now) :
    plan.dueAfter now = if plan.periodic then some (now + plan.delay.toNat) else none := by
  unfold Due at due
  unfold dueAfter
  split
  next periodic =>
    rw [if_pos periodic] at due
    rw [Nat.add_mul, Nat.one_mul, Nat.div_mul_cancel due]
  next once =>
    rw [if_neg once] at due
    rw [if_neg (by omega)]

/-- Only a timer that is due has to wait for its whole delay. -/
theorem due_of_dueAfter (begun : 0 < now) (next : plan.dueAfter now = some (now + offset))
    (wait : plan.delay.toNat ≤ offset) : plan.delay.toNat = offset ∧ plan.Due now := by
  unfold dueAfter at next
  unfold Due
  split at next
  next periodic =>
    have next := Option.some.inj next
    have below := Nat.div_mul_le_self now plan.delay.toNat
    rw [Nat.add_mul, Nat.one_mul] at next
    rw [if_pos periodic]
    have whole : now % plan.delay.toNat = 0 := by
      have parts := Nat.div_add_mod' now plan.delay.toNat
      omega
    exact ⟨by omega, Nat.dvd_of_mod_eq_zero whole⟩
  next once =>
    split at next
    · have next := Option.some.inj next
      omega
    · cases next

theorem firings_zero (delays : plan.delay ≠ 0) : plan.firings 0 = 0 := by
  unfold firings
  split
  · exact Nat.zero_div _
  · rw [if_neg (Nat.not_le.mpr (delay_pos delays))]

theorem firings_succ (plan : Plan) (ticks : Nat) :
    plan.firings (ticks + 1) = plan.firings ticks + if plan.Due (ticks + 1) then 1 else 0 := by
  unfold firings Due
  split
  · exact Nat.succ_div
  · split <;> split <;> split <;> omega

private theorem rearmings_succ (plan : Plan) (ticks : Nat) :
    plan.rearmings (ticks + 1) =
      plan.rearmings ticks + if plan.Due (ticks + 1) ∧ plan.periodic then 1 else 0 := by
  unfold rearmings Due
  split
  next periodic => simp [periodic, Nat.succ_div]
  next once => simp [once]

end Plan

theorem Precedes.asymm (before : Precedes plans first second) : ¬ Precedes plans second first := by
  unfold Precedes at *
  simp only [UInt64.lt_iff_toNat_lt, ← UInt64.toNat_inj] at *
  omega

private theorem Precedes.total (member : first ∈ plans) (apart : first ≠ second)
    (later : ¬ Precedes plans second first) : Precedes plans first second := by
  have places : plans.idxOf first ≠ plans.idxOf second :=
    fun same => apart ((List.idxOf_inj member).mp same)
  unfold Precedes at *
  simp only [UInt64.lt_iff_toNat_lt, ← UInt64.toNat_inj] at *
  omega

theorem mem_dueAt : plan ∈ dueAt plans offset ↔ plan ∈ plans ∧ plan.Due offset := by
  simp [dueAt]

theorem dueAt_perm (plans : List Plan) (offset : Nat) :
    (dueAt plans offset).Perm (plans.filter (·.Due offset)) := List.perm_insertionSort _ _

theorem dueAt_pairwise (distinct : plans.Nodup) (offset : Nat) :
    (dueAt plans offset).Pairwise (Precedes plans) := by
  have total : Std.Total fun first second => ¬ Precedes plans second first := by
    constructor
    intro first second
    simp only [Precedes, UInt64.lt_iff_toNat_lt, ← UInt64.toNat_inj]
    omega
  have transitive : IsTrans Plan fun first second => ¬ Precedes plans second first := by
    constructor
    intro first second third
    simp only [Precedes, UInt64.lt_iff_toNat_lt, ← UInt64.toNat_inj]
    omega
  have sorted := List.pairwise_insertionSort (fun first second => ¬ Precedes plans second first)
    (plans.filter (·.Due offset))
  have apart : (dueAt plans offset).Nodup :=
    (dueAt_perm plans offset).nodup_iff.mpr (distinct.filter _)
  apply (sorted.and apart).imp_of_mem
  intro first second member _ sorted
  obtain ⟨later, apart⟩ := sorted
  exact Precedes.total (mem_dueAt.mp member).1 apart later

theorem callsAfter_succ (plans : List Plan) (start now ticks : Nat) :
    callsAfter plans start now (ticks + 1) =
      (dueAt plans (now + 1)).map (fun plan => (start + (now + 1), plan)) ++
        callsAfter plans start (now + 1) ticks := by
  rw [callsAfter, List.range'_succ, List.flatMap_cons]
  rfl

theorem mem_callsAfter {tick : Nat} : (tick, plan) ∈ callsAfter plans start now ticks ↔
    plan ∈ plans ∧ start + now < tick ∧ tick ≤ start + now + ticks ∧ plan.Due (tick - start) := by
  unfold callsAfter
  simp only [List.mem_flatMap, List.mem_map, List.mem_range'_1, mem_dueAt]
  constructor
  · intro called
    obtain ⟨offset, ⟨above, below⟩, other, ⟨member, due⟩, same⟩ := called
    cases same
    rw [Nat.add_sub_cancel_left]
    exact ⟨member, by omega, by omega, due⟩
  · intro called
    obtain ⟨member, above, below, due⟩ := called
    refine ⟨tick - start, by omega, plan, ⟨member, due⟩, ?_⟩
    rw [Nat.add_sub_cancel' (by omega)]

theorem timetable (distinct : plans.Nodup) (start ticks : Nat) :
    Timetable plans start ticks (callsAfter plans start 0 ticks) where
  listed := fun _ _ => mem_callsAfter
  ordered := by
    unfold callsAfter
    apply List.pairwise_flatMap.mpr
    constructor
    · intro offset _
      apply List.pairwise_map.mpr
      exact (dueAt_pairwise distinct offset).imp fun before => .inr ⟨rfl, before⟩
    · have increasing : (List.range' (0 + 1) ticks).Pairwise (· < ·) := List.pairwise_lt_range' 1
      apply increasing.imp
      intro first second before call called other later
      obtain ⟨_, _, rfl⟩ := List.mem_map.mp called
      obtain ⟨_, _, rfl⟩ := List.mem_map.mp later
      exact .inl (Nat.add_lt_add_left before start)

theorem Timetable.unique {calls other : List (Nat × Plan)}
    (timetable : Timetable plans start ticks calls)
    (timetable' : Timetable plans start ticks other) : calls = other := by
  let before : Nat × Plan → Nat × Plan → Prop := fun first second =>
    first.1 < second.1 ∨ first.1 = second.1 ∧ Precedes plans first.2 second.2
  have asymm : ∀ {first second}, before first second → ¬ before second first := by
    intro first second one two
    rcases one with less | ⟨same, earlier⟩
    · rcases two with less' | ⟨same', _⟩ <;> omega
    · rcases two with less' | ⟨_, earlier'⟩
      · omega
      · exact earlier.asymm earlier'
  have distinct : ∀ {calls : List (Nat × Plan)}, calls.Pairwise before → calls.Nodup := by
    intro calls ordered
    apply ordered.imp
    intro first second earlier same
    subst same
    exact asymm earlier earlier
  have ordered : calls.Pairwise before := timetable.ordered
  have ordered' : other.Pairwise before := timetable'.ordered
  have same : calls.Perm other := by
    apply (List.perm_ext_iff_of_nodup (distinct ordered) (distinct ordered')).mpr
    intro call
    obtain ⟨tick, plan⟩ := call
    exact (timetable.listed tick plan).trans (timetable'.listed tick plan).symm
  apply same.eq_of_pairwise _ ordered ordered'
  exact fun first second _ _ earlier later => absurd later (asymm earlier)

private theorem sum_map_add_ite (f : Plan → Nat) (chosen : Plan → Prop) [DecidablePred chosen]
    (plans : List Plan) :
    (plans.map fun plan => f plan + if chosen plan then 1 else 0).sum =
      (plans.map f).sum + plans.countP (chosen ·) := by
  induction plans with
  | nil => rfl
  | cons plan rest ih =>
    simp only [List.map_cons, List.sum_cons, List.countP_cons, decide_eq_true_eq, ih]
    omega

/-- In all, the timers are armed again by a tick as often as those that are due have a period. -/
theorem sum_rearmings_succ (plans : List Plan) (ticks : Nat) :
    (plans.map (·.rearmings (ticks + 1))).sum =
      (plans.map (·.rearmings ticks)).sum + (dueAt plans (ticks + 1)).countP (·.periodic) := by
  simp only [Plan.rearmings_succ]
  rw [sum_map_add_ite, (dueAt_perm plans (ticks + 1)).countP_eq, List.countP_filter]
  congr
  funext plan
  simp [Bool.and_comm]

theorem sum_rearmings_le (plans : List Plan) (order : now ≤ ticks) :
    (plans.map (·.rearmings now)).sum ≤ (plans.map (·.rearmings ticks)).sum := by
  induction order with
  | refl => exact Nat.le_refl _
  | step _ ih =>
    rw [sum_rearmings_succ]
    exact Nat.le_add_right_of_le ih

private theorem sum_firings_succ (plans : List Plan) (ticks : Nat) :
    (plans.map (·.firings (ticks + 1))).sum =
      (plans.map (·.firings ticks)).sum + (dueAt plans (ticks + 1)).length := by
  simp only [Plan.firings_succ]
  rw [sum_map_add_ite, (dueAt_perm plans (ticks + 1)).length_eq, List.countP_eq_length_filter]

theorem sum_firings_zero (delays : ∀ plan ∈ plans, plan.delay ≠ 0) :
    (plans.map (·.firings 0)).sum = 0 := by
  apply List.sum_eq_zero_iff_forall_eq_nat.mpr
  intro times listed
  obtain ⟨plan, member, rfl⟩ := List.mem_map.mp listed
  exact Plan.firings_zero (delays plan member)

theorem sum_rearmings_zero (plans : List Plan) : (plans.map (·.rearmings 0)).sum = 0 := by
  apply List.sum_eq_zero_iff_forall_eq_nat.mpr
  intro times listed
  obtain ⟨plan, _, rfl⟩ := List.mem_map.mp listed
  unfold Plan.rearmings
  split
  · exact Nat.zero_div _
  · rfl

theorem length_callsAfter (plans : List Plan) (start now ticks : Nat) :
    (callsAfter plans start now ticks).length + (plans.map (·.firings now)).sum =
      (plans.map (·.firings (now + ticks))).sum := by
  induction ticks generalizing now with
  | zero => simp [callsAfter]
  | succ ticks ih =>
    have later := @ih (now + 1)
    rw [sum_firings_succ] at later
    rw [callsAfter_succ, List.length_append, List.length_map]
    have order : now + 1 + ticks = now + (ticks + 1) := by omega
    rw [order] at later
    omega

end Timers
