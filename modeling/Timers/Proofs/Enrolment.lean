import Timers.Proofs.Registry
import Timers.Proofs.Summaries

/-! The ids that have been issued, as a list that grows. Whoever is registered is on it, and an id
on it is issued a second time only if the generation of its slot wraps. -/

namespace Timers

variable {H D : Type} {action : Action H D} {before after : Moment H D} {issued : List TimerId}

/-- The ids that a command issues. -/
def Command.issues (given : Command H D) (scheduler : Scheduler H D) : List TimerId :=
  match given with
  | .add handler data => [(scheduler.add handler data).1]
  | _ => []

def Step.issues (step : Step H D) : List TimerId :=
  match step.action with
  | .command given => given.issues step.before.scheduler
  | _ => []

/-- These are the ids that have been issued. -/
structure Scheduler.Enrolled (scheduler : Scheduler H D) (issued : List TimerId) : Prop where
  sound : scheduler.timers.Sound
  single : issued.Nodup
  accounts : ∀ id ∈ issued, scheduler.Accounts id
  all : ∀ id, (scheduler.timer? id).isSome → id ∈ issued

namespace Scheduler

variable {scheduler : Scheduler H D} {id : TimerId}

private theorem registered_of_change {after : Scheduler H D} {other : TimerId}
    {later : Option (Timer H D)} (present : (scheduler.timer? other).isSome)
    (timers : ∀ id, after.timer? id = if id = other then later else scheduler.timer? id)
    (found : (after.timer? id).isSome) : (scheduler.timer? id).isSome := by
  rw [timers] at found
  split at found
  next same => exact same ▸ present
  next => exact found

private theorem perform_registers (tied : scheduler.Tied) (given : Command H D)
    (found : ((scheduler.perform given).2.timer? id).isSome) :
    (scheduler.timer? id).isSome ∨ id ∈ given.issues scheduler := by
  obtain ⟨later, found⟩ := Option.isSome_iff_exists.mp found
  rcases (perform_revises tied given).known found with ⟨timer, known, _⟩ | ⟨_, _, rfl, issued, _⟩
  · exact .inl (Option.isSome_iff_exists.mpr ⟨timer, known⟩)
  · exact .inr (List.mem_singleton.mpr issued)

end Scheduler

private theorem Transition.registers (step : Transition action before after) (valid : before.Valid)
    {id : TimerId} (found : (after.scheduler.timer? id).isSome) :
    (before.scheduler.timer? id).isSome ∨ id ∈ Step.issues ⟨before, action, after⟩ := by
  cases step with
  | command given awake => exact Scheduler.perform_registers valid.tied given found
  | beginAdvance begins =>
    obtain ⟨_, tick, _, rfl⟩ := Scheduler.beginAdvance_eq begins
    exact .inl found
  | @dispatch scheduler popped lent arming turn given due taken =>
    obtain ⟨old, takes⟩ := valid.dispatch_takes due taken
    exact .inl (Scheduler.registered_of_change (by simp [takes.found]) takes.timers found)
  | skip due refused => exact absurd refused (valid.not_skipped due)
  | @settle firing scheduler handler data =>
    rw [scheduler.timer?_settle_isSome firing.timer id firing.tick handler data] at found
    exact .inl found
  | endAdvance finished => exact .inl found

private theorem Transition.issues (step : Transition action before after) (valid : before.Valid)
    {id : TimerId} (new : id ∈ Step.issues ⟨before, action, after⟩) :
    ¬ before.scheduler.Accounts id ∧ after.scheduler.Accounts id := by
  cases step with
  | @command place scheduler given awake =>
    cases given with
    | add handler data =>
      obtain ⟨_, _, timers⟩ := Scheduler.add_adds valid.tied handler data
      obtain rfl : id = (scheduler.add handler data).1 := List.mem_singleton.mp new
      exact ⟨scheduler.add_fresh handler data, .inl ⟨_, (timers _).trans (if_pos rfl)⟩⟩
    | _ => cases new
  | beginAdvance | dispatch | skip | settle | endAdvance => cases new

private theorem Step.issues_nodup (step : Step H D) : step.issues.Nodup := by
  unfold Step.issues
  split
  next given _ =>
    unfold Command.issues
    split
    · exact List.nodup_singleton _
    · exact .nil
  next => exact .nil

/-- The list grows by what a step issues. -/
theorem Transition.enrolled (step : Transition action before after) (valid : before.Valid)
    (unwrapped : Step.Unwrapped ⟨before, action, after⟩)
    (enrolled : before.scheduler.Enrolled issued) :
    after.scheduler.Enrolled (issued ++ Step.issues ⟨before, action, after⟩) where
  sound := step.sound enrolled.sound
  single := by
    apply enrolled.single.append (Step.issues_nodup _)
    intro id old new
    exact (step.issues valid new).1 (enrolled.accounts id old)
  accounts := by
    intro id member
    rcases List.mem_append.mp member with old | new
    · exact step.accounts valid (enrolled.accounts id old) (unwrapped id.key.index)
    · exact (step.issues valid new).2
  all := by
    intro id found
    rcases step.registers valid found with old | new
    · exact List.mem_append_left _ (enrolled.all id old)
    · exact List.mem_append_right _ new

end Timers
