import Mathlib.Algebra.GroupWithZero.Nat
import Mathlib.Algebra.Order.BigOperators.Group.List
import Mathlib.Algebra.Order.Group.Nat
import Mathlib.Data.List.Perm.Subperm
import Timers.Proofs.Endings

/-! What is owed before the last tick. The entries of the queue owe as many handlers as they are
ticks late, and one more each; whoever is popped pays one, and a timer that is armed again or
started with a delay adds nothing. So an advance that does not come to the last tick ends, if nobody
starts a timer without a delay. -/

namespace Timers

variable {H D W : Type}

/-- A command that starts no timer without a delay. -/
def Command.Delays : Command H D → Prop
  | .start _ delay _ => delay ≠ 0
  | _ => True

namespace Scheduler

variable {scheduler before after : Scheduler H D}

/-- What the entries of the queue weigh in all. -/
def load (weight : Arming → Nat) (scheduler : Scheduler H D) : Nat :=
  (scheduler.queue.toList.map weight).sum

/-- The queue lists no entry twice, so it weighs no more than any list of what it may hold. -/
private theorem load_le (tied : scheduler.Tied) (weight : Arming → Nat) {items : List Arming}
    (listed : ∀ arming turn, scheduler.Queued arming turn → arming ∈ items) :
    scheduler.load weight ≤ (items.map weight).sum := by
  have single : scheduler.queue.toList.Nodup := .of_map _ tied.timers_nodup
  have within : scheduler.queue.toList ⊆ items := by
    intro arming member
    obtain ⟨turn, queued⟩ := tied.mem_toList_iff.mp member
    exact listed arming turn queued
  obtain ⟨part, same, sub⟩ := single.subperm within
  calc scheduler.load weight = (part.map weight).sum := ((same.map weight).sum_eq).symm
    _ ≤ (items.map weight).sum := (sub.map weight).sum_le_sum (by simp)

theorem load_le_scheduledCount (tied : scheduler.Tied) {weight : Arming → Nat} {most : Nat}
    (light : ∀ arming turn, scheduler.Queued arming turn → weight arming ≤ most) :
    scheduler.load weight ≤ most * scheduler.scheduledCount := by
  have each : ∀ value ∈ scheduler.queue.toList.map weight, value ≤ most := by
    intro value member
    obtain ⟨arming, listed, rfl⟩ := List.mem_map.mp member
    obtain ⟨turn, queued⟩ := tied.mem_toList_iff.mp listed
    exact light arming turn queued
  have total := List.sum_le_card_nsmul _ most each
  rwa [List.length_map, PriorityQueue.length_toList tied.linked, Nat.nsmul_eq_mul, Nat.mul_comm] at total

theorem Taken.load_le {arming : Arming} {turn : UInt64} {timer : Timer H D}
    (takes : Taken before arming turn timer after) (tied : before.Tied) (weight : Arming → Nat) :
    weight arming + after.load weight ≤ before.load weight := by
  have listed : arming ∈ before.queue.toList := tied.mem_toList_iff.mpr ⟨turn, takes.queued⟩
  have less : after.load weight ≤ ((before.queue.toList.erase arming).map weight).sum := by
    apply Scheduler.load_le takes.tied
    intro other later queued
    obtain ⟨old, apart⟩ := (takes.left other later).mp queued
    have differs : other ≠ arming := fun same => apart (congrArg Arming.timer same)
    exact (List.mem_erase_of_ne differs).mpr (tied.mem_toList_iff.mpr ⟨later, old⟩)
  calc weight arming + after.load weight
    _ ≤ weight arming + ((before.queue.toList.erase arming).map weight).sum :=
      Nat.add_le_add_left less _
    _ = before.load weight := List.sum_map_erase weight listed

end Scheduler

theorem Effect.load_le {before after : Scheduler H D} {armed : Option Arming}
    {freed : TimerId → Prop} (effect : Effect before armed freed after) (tied : before.Tied)
    (weight : Arming → Nat) :
    after.load weight ≤ (armed.toList.map weight).sum + before.load weight := by
  have less : after.load weight ≤ ((armed.toList ++ before.queue.toList).map weight).sum := by
    apply Scheduler.load_le effect.tied
    intro arming turn queued
    rcases (effect.queued arming turn).mp queued with ⟨old, _⟩ | ⟨rfl, _⟩
    · exact List.mem_append_right _ (tied.mem_toList_iff.mpr ⟨turn, old⟩)
    · simp
  rwa [List.map_append, List.sum_append] at less

/-- By how many ticks the entries are late, each counted from the tick before it was due. -/
def Scheduler.backlog (scheduler : Scheduler H D) : Nat :=
  scheduler.load fun arming => scheduler.tick.toNat + 1 - arming.expiry.toNat

/-- How many handlers may still run in an advance. The timer whose handler is running may come to
run again for every tick by which it was late. -/
def Moment.owed (moment : Moment H D) : Nat :=
  moment.scheduler.backlog +
    match moment.place with
    | .inside firing => firing.tick.toNat - firing.expiry.toNat
    | _ => 0

/-- The tick has not come to its end. -/
structure Moment.Early (moment : Moment H D) : Prop where
  valid : moment.Valid
  punctual : moment.Punctual
  inside : moment.scheduler.tick ≠ .last

private theorem Moment.Early.lt_last {moment : Moment H D} (early : moment.Early) :
    moment.scheduler.tick.toNat < Tick.last.toNat := by
  have bound := Tick.toNat_le_last moment.scheduler.tick
  have apart : moment.scheduler.tick.toNat ≠ Tick.last.toNat := fun same =>
    early.inside (UInt64.toNat_inj.mp same)
  omega

private theorem toNat_pos {value : UInt64} (positive : value ≠ 0) : 0 < value.toNat :=
  Nat.pos_of_ne_zero fun zero => positive (UInt64.toNat_inj.mp zero)

namespace Scheduler

variable {scheduler : Scheduler H D}

private theorem backlog_perform (tied : scheduler.Tied)
    (inside : scheduler.tick.toNat < Tick.last.toNat)
    {given : Command H D} (delays : given.Delays) :
    (scheduler.perform given).2.backlog ≤ scheduler.backlog := by
  have effect := perform_effect tied given
  have clock := scheduler.clock_perform given
  by_cases resets : given = .reset
  · subst resets
    have vacant : ∀ arming turn, (scheduler.perform .reset).2.Queued arming turn →
        arming ∈ ([] : List Arming) := by
      intro arming turn queued
      rcases (effect.queued arming turn).mp queued with ⟨_, kept⟩ | ⟨arms, _⟩
      · exact absurd rfl kept
      · cases arms
    exact Nat.le_trans (load_le effect.tied _ vacant) (Nat.zero_le _)
  · have tick : (scheduler.perform given).2.tick = scheduler.tick := by
      cases given with
      | reset => exact absurd rfl resets
      | _ => exact congrArg Prod.fst clock
    rw [backlog, tick]
    apply Nat.le_trans (effect.load_le tied _)
    cases arms : (given.starts? scheduler).bind fun id => (scheduler.perform given).2.armed? id with
    | none => simp [backlog]
    | some arming =>
      obtain ⟨id, starts, told⟩ := Option.bind_eq_some_iff.mp arms
      obtain ⟨delay, periodic, rfl, armed⟩ := armed_of_starts tied starts
      rw [armed] at told
      cases told
      have later := toNat_pos delays
      have ahead : scheduler.tick.toNat + 1 ≤ (scheduler.tick.after delay).toNat := by
        rw [Tick.toNat_after]
        omega
      simp [backlog, Nat.sub_eq_zero_of_le ahead]

private theorem backlog_settle {firing : Firing}
    (valid : (⟨.inside firing, scheduler⟩ : Moment H D).Valid)
    (punctual : (⟨.inside firing, scheduler⟩ : Moment H D).Punctual)
    (inside : scheduler.tick.toNat < Tick.last.toNat) (handler : H) (data : D) :
    (scheduler.settle firing.timer firing.tick handler data).backlog ≤
      scheduler.backlog + (firing.tick.toNat - firing.expiry.toNat) := by
  have effect := settle_effect valid.tied firing.timer firing.tick handler data
  have tick := congrArg Prod.fst (scheduler.clock_settle firing.timer firing.tick handler data)
  dsimp only [clock] at tick
  rw [backlog, tick]
  apply Nat.le_trans (effect.load_le valid.tied _)
  cases again : scheduler.again? firing.timer with
  | none => simp [backlog]
  | some expiry =>
    obtain ⟨timer, found, phase, periodic, rfl⟩ := again?_eq_some again
    have back := (punctual.running firing rfl).1
    rw [UInt64.le_iff_toNat_le] at back
    have later := toNat_pos periodic
    have paid : scheduler.tick.toNat + 1 - (timer.expiry.after timer.period).toNat ≤
        firing.tick.toNat - firing.expiry.toNat := by
      rw [Tick.toNat_after, valid.running firing timer rfl found phase]
      dsimp only at back
      omega
    simp only [Option.map_some, Option.toList_some, List.map_cons, List.map_nil, List.sum_cons,
      List.sum_nil, backlog]
    omega

end Scheduler

section Early

variable {action : Action H D} {before after : Moment H D}

private theorem Transition.tick_le {allowed : Command H D → Prop}
    (step : Transition action before after)
    (within : Step.Within allowed ⟨before, action, after⟩) (punctual : before.Punctual) :
    after.scheduler.tick ≤ before.scheduler.tick := by
  rw [step.tick]
  cases action with
  | command given =>
    cases given with
    | reset => exact punctual.home
    | _ => exact UInt64.le_refl _
  | dispatch | settle => exact UInt64.le_refl _
  | beginAdvance | endAdvance => exact within.elim

private theorem Transition.early (step : Transition action before after)
    (within : Step.Within Command.Delays ⟨before, action, after⟩) (early : before.Early) :
    after.Early where
  valid := step.valid early.valid
  punctual := step.punctual early.valid early.punctual
  inside := by
    have earlier := early.lt_last
    have tick := step.tick_le within early.punctual
    rw [UInt64.le_iff_toNat_le] at tick
    intro same
    rw [same] at tick
    omega

/-- Every handler that begins to run pays for it: what is owed grows less by one, and nothing that
a handler does lets it grow. -/
theorem Transition.pays (step : Transition action before after)
    (within : Step.Within Command.Delays ⟨before, action, after⟩) (early : before.Early) :
    after.owed + (Step.firing? ⟨before, action, after⟩).toList.length ≤ before.owed := by
  have inside := early.lt_last
  cases step with
  | @command place scheduler given awake =>
    rw [Step.firing?_command]
    exact Nat.add_le_add_right (scheduler.backlog_perform early.valid.tied inside within) _
  | @dispatch scheduler popped lent arming turn given due taken =>
    obtain ⟨timer, takes⟩ := early.valid.dispatch_takes due taken
    have clock := popped.clock_lend arming.timer
    rw [taken, Scheduler.clock_popDue? due] at clock
    have tick : lent.tick = scheduler.tick := congrArg Prod.fst clock
    have lighter := takes.load_le early.valid.tied
      fun arming => scheduler.tick.toNat + 1 - arming.expiry.toNat
    have come := takes.due
    rw [UInt64.le_iff_toNat_le] at come
    simp only [Moment.owed, Scheduler.backlog, tick, Step.firing?, Option.toList_some,
      List.length_singleton]
    omega
  | skip due refused => exact absurd refused (early.valid.not_skipped due)
  | @settle firing scheduler handler data =>
    exact Scheduler.backlog_settle early.valid early.punctual inside handler data
  | beginAdvance | endAdvance => exact within.elim

end Early

section Advance

variable {react : Reaction H D W} {system : System H D W}
  (valid : (⟨.outside, system.scheduler⟩ : Moment H D).Valid)
  (paced : (⟨.outside, system.scheduler⟩ : Moment H D).Paced)

include valid paced in
/-- An advance to a tick before the last one ends, if nobody starts a timer without a delay. -/
theorem System.ends_before_last (punctual : (⟨.outside, system.scheduler⟩ : Moment H D).Punctual)
    (inside : system.scheduler.tick.next? ≠ some .last) (makes : react.Makes Command.Delays) :
    system.EndsWithin react (2 * system.scheduler.scheduledCount) := by
  apply ends_of_bounded valid paced makes
  intro begun steps last begins run within
  have step : Transition .beginAdvance ⟨.outside, system.scheduler⟩ ⟨.between, begun⟩ :=
    .beginAdvance begins
  obtain ⟨_, tick, next, rfl⟩ := Scheduler.beginAdvance_eq begins
  have early : (⟨.between, { system.scheduler with tick, dispatching := true }⟩ :
      Moment H D).Early := by
    refine ⟨step.valid valid, step.punctual valid punctual, ?_⟩
    rintro rfl
    exact inside next
  have paid := run.firings_le Transition.early Transition.pays within early
  have light : ∀ arming turn, system.scheduler.Queued arming turn →
      tick.toNat + 1 - arming.expiry.toNat ≤ 2 := by
    intro arming turn queued
    have ahead := punctual.outside rfl arming turn queued
    have following := Tick.toNat_of_next? next
    rw [UInt64.le_iff_toNat_le] at ahead
    dsimp only at ahead
    omega
  have few : Moment.owed ⟨.between, { system.scheduler with tick, dispatching := true }⟩ ≤
      2 * system.scheduler.scheduledCount := Scheduler.load_le_scheduledCount valid.tied light
  exact Nat.le_trans (Nat.le_trans (Nat.le_add_left _ _) paid) few

end Advance

end Timers
