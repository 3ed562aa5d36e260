import Timers.Proofs.Effects
import Timers.Proofs.Vacancies

/-! The shape of an arena is what is left of it when its values are forgotten: the generations of
the slots and which of them are vacant, in their order. Which keys an arena gives out depends on
nothing else, and only additions, removals and resets change the shape of the arena of timers. -/

namespace Timers

namespace Arena

variable {α : Type u} {change : α → α}

theorem vacancy?_mapAll (arena : Arena α) (change : α → α) :
    (arena.mapAll change).vacancy? = arena.vacancy? := by
  simp only [vacancy?, mapAll, Array.getElem?_map]
  cases arena.freeHead with
  | none => rfl
  | some index =>
    dsimp only
    cases arena.slots[index]? with
    | none => rfl
    | some slot =>
      obtain ⟨generation, content⟩ := slot
      cases content <;> rfl

theorem contains_mapAll (arena : Arena α) (change : α → α) (key : Key) :
    (arena.mapAll change).contains key = arena.contains key := by
  simp only [contains, get?_mapAll, Option.isSome_map]

theorem mapAll_modify (arena : Arena α) (key : Key) {first second : α → α}
    (forgets : ∀ value, second (first value) = second value) :
    (arena.modify key first).mapAll second = arena.mapAll second := by
  unfold modify
  split
  · exact mapAll_modifyAt arena key.index forgets
  · rfl

theorem mapAll_insert (arena : Arena α) (value : α) (change : α → α) :
    (arena.mapAll change).insert (change value) =
      ((arena.insert value).1, (arena.insert value).2.mapAll change) := by
  unfold insert
  rw [vacancy?_mapAll]
  cases arena.vacancy? with
  | none => simp [mapAll, Slot.map]
  | some vacancy =>
    obtain ⟨index, generation, next⟩ := vacancy
    simp [mapAll, Slot.map, Array.map_setIfInBounds]

theorem mapAll_removeAt (arena : Arena α) (index : Nat) (change : α → α) :
    ((arena.mapAll change).removeAt index).2 = (arena.removeAt index).2.mapAll change := by
  simp only [removeAt, mapAll, Array.getElem?_map]
  cases arena.slots[index]? with
  | none => rfl
  | some slot =>
    obtain ⟨generation, content⟩ := slot
    cases content with
    | occupied value => simp [Slot.map, Array.map_setIfInBounds]
    | vacant next => rfl

theorem mapAll_remove (arena : Arena α) (key : Key) (change : α → α) :
    ((arena.mapAll change).remove key).2 = (arena.remove key).2.mapAll change := by
  simp only [remove, contains_mapAll]
  split
  · exact mapAll_removeAt arena key.index change
  · rfl

theorem toList_mapAll (arena : Arena α) (change : α → α) :
    (arena.mapAll change).toList = arena.toList.map fun (key, value) => (key, change value) := by
  have size : (arena.mapAll change).slots.size = arena.slots.size := Array.size_map
  rw [toList, toList, size, List.map_filterMap]
  congr
  funext index
  exact arena.entryAt?_mapAll change index

theorem mapAll_clear (arena : Arena α) (change : α → α) :
    (arena.mapAll change).clear = arena.clear.mapAll change := by
  have size : (arena.mapAll change).slots.size = arena.slots.size := Array.size_map
  have folds : ∀ (indices : List Nat) (arena : Arena α),
      indices.foldl (fun arena index => (arena.removeAt index).2) (arena.mapAll change) =
        (indices.foldl (fun arena index => (arena.removeAt index).2) arena).mapAll change := by
    intro indices
    induction indices with
    | nil => exact fun _ => rfl
    | cons index rest ih =>
      intro arena
      rw [List.foldl_cons, List.foldl_cons, mapAll_removeAt, ih]
  rw [clear, size]
  exact folds _ arena

end Arena

variable {H D : Type}

def Timer.blank : Timer H D := { handler := none, data := none }

namespace Scheduler

def shape (scheduler : Scheduler H D) : Arena (Timer H D) :=
  scheduler.timers.mapAll fun _ => .blank

theorem ids_shape (scheduler : Scheduler H D) :
    scheduler.ids = scheduler.shape.toList.map (⟨·.1⟩) := by
  rw [ids, shape, Arena.toList_mapAll, List.map_map]
  rfl

/-- The shape that a command leaves, if it succeeds where it can be refused. -/
def reshaped (scheduler : Scheduler H D) : Command H D → Arena (Timer H D)
  | .add .. => (scheduler.shape.insert .blank).2
  | .remove id =>
    if (scheduler.remove id).1.isOk then (scheduler.shape.remove id.key).2 else scheduler.shape
  | .reset => scheduler.shape.clear
  | _ => scheduler.shape

variable (scheduler : Scheduler H D)

private theorem shape_updateTimer (id : TimerId) (change : Timer H D → Timer H D) :
    (scheduler.updateTimer id change).shape = scheduler.shape :=
  Arena.mapAll_modify scheduler.timers id.key fun _ => rfl

private theorem shape_disarm (id : TimerId) (timer : Timer H D) :
    (scheduler.disarm id timer).2.shape = scheduler.shape := by
  unfold disarm
  split
  · rfl
  · exact scheduler.shape_updateTimer id _

private theorem shape_arm (id : TimerId) (expiry : Tick) :
    (scheduler.arm id expiry).shape = scheduler.shape :=
  Arena.mapAll_modify scheduler.timers id.key fun _ => rfl

theorem shape_start (id : TimerId) (delay : UInt64) (periodic : Bool) :
    (scheduler.start id delay periodic).2.shape = scheduler.shape := by
  unfold start
  split
  · rfl
  next timer _ =>
    have freed := scheduler.shape_disarm id timer
    split
    next disarmed =>
      rw [disarmed] at freed
      exact freed
    next free disarmed =>
      rw [disarmed] at freed
      exact (shape_arm _ id _).trans ((shape_updateTimer _ id _).trans freed)

theorem shape_stop (id : TimerId) : (scheduler.stop id).2.shape = scheduler.shape := by
  unfold stop
  split
  · rfl
  next timer _ =>
    have freed := scheduler.shape_disarm id timer
    split
    next disarmed =>
      rw [disarmed] at freed
      exact freed
    next free disarmed =>
      rw [disarmed] at freed
      dsimp only
      split
      · exact (shape_updateTimer _ id _).trans freed
      · exact freed

private theorem shape_remove (id : TimerId) :
    (scheduler.remove id).2.shape =
      if (scheduler.remove id).1.isOk then (scheduler.shape.remove id.key).2 else scheduler.shape := by
  cases found : scheduler.timer? id with
  | none => simp [remove, found]
  | some timer =>
    have freed := scheduler.shape_disarm id timer
    obtain ⟨reply, free, disarmed⟩ : ∃ reply free, scheduler.disarm id timer = (reply, free) :=
      ⟨_, _, rfl⟩
    rw [disarmed] at freed
    simp only [remove, found, disarmed]
    split
    next =>
      cases reply with
      | error cause => exact freed
      | ok armed =>
        rw [isOk_ok, if_pos rfl, ← freed]
        exact (Arena.mapAll_remove free.timers id.key _).symm
    next => rfl

theorem shape_perform (given : Command H D) :
    (scheduler.perform given).2.shape = scheduler.reshaped given := by
  by_cases feeds : given.feeds = true
  · obtain ⟨_, same⟩ := scheduler.feeds_frame feeds
    rw [same]
    cases given with
    | takeReporter | receive | drainEvents => rfl
    | _ => cases feeds
  cases given with
  | add handler data =>
    exact (congrArg Prod.snd (Arena.mapAll_insert scheduler.timers _ fun _ => .blank)).symm
  | start id delay periodic => exact scheduler.shape_start id delay periodic
  | stop id => exact scheduler.shape_stop id
  | remove id => exact scheduler.shape_remove id
  | rebind id handler =>
    simp only [perform, rebind]
    split
    · rfl
    · exact scheduler.shape_updateTimer id _
  | setPeriod id period =>
    simp only [perform, setPeriod]
    split
    · rfl
    · exact scheduler.shape_updateTimer id _
  | modifyData id change => exact scheduler.shape_updateTimer id _
  | reset => exact (Arena.mapAll_clear scheduler.timers _).symm
  | takeReporter | receive | drainEvents => exact absurd rfl feeds

private theorem shape_lend (id : TimerId) : (scheduler.lend id).2.shape = scheduler.shape := by
  unfold lend
  split
  · rfl
  · dsimp only
    split
    · exact (shape_updateTimer _ id _).trans (scheduler.shape_updateTimer id _)
    · exact scheduler.shape_updateTimer id _

private theorem shape_rearm (id : TimerId) : (scheduler.rearm id).shape = scheduler.shape := by
  unfold rearm
  split
  · rfl
  · split
    · split
      · exact scheduler.shape_updateTimer id _
      · exact scheduler.shape_arm id _
    · rfl

private theorem shape_settle (id : TimerId) (tick : Tick) (handler : H) (data : D) :
    (scheduler.settle id tick handler data).shape = scheduler.shape := by
  have published : (scheduler.publish (.fired id tick)).shape = scheduler.shape := rfl
  exact (shape_rearm _ id).trans ((shape_updateTimer _ id _).trans published)

variable {scheduler}

private theorem shape_popDue? {arming : Arming} {turn : UInt64} {popped : Scheduler H D}
    (due : scheduler.popDue? = some (arming, turn, popped)) : popped.shape = scheduler.shape := by
  obtain ⟨queue, rfl⟩ := popDue?_eq due
  rfl

end Scheduler

theorem Transition.shape {action : Action H D} {before after : Moment H D}
    (step : Transition action before after) :
    after.scheduler.shape =
      match action with
      | .command given => before.scheduler.reshaped given
      | _ => before.scheduler.shape := by
  cases step with
  | command given awake => exact Scheduler.shape_perform _ given
  | beginAdvance begins =>
    obtain ⟨_, tick, _, rfl⟩ := Scheduler.beginAdvance_eq begins
    rfl
  | @dispatch scheduler popped lent arming turn given due taken =>
    have kept := popped.shape_lend arming.timer
    rw [taken] at kept
    exact kept.trans (Scheduler.shape_popDue? due)
  | @skip scheduler popped left arming turn due refused =>
    have kept := popped.shape_lend arming.timer
    rw [refused] at kept
    exact kept.trans (Scheduler.shape_popDue? due)
  | settle handler data => exact Scheduler.shape_settle _ _ _ handler data
  | endAdvance finished => rfl

theorem Scheduler.sound_iff {scheduler : Scheduler H D} :
    scheduler.timers.Sound ↔ scheduler.shape.Sound := Arena.Sound.mapAll_iff.symm

/-- The vacant slots of the timers are never lost. -/
theorem Transition.sound {action : Action H D} {before after : Moment H D}
    (step : Transition action before after) (sound : before.scheduler.timers.Sound) :
    after.scheduler.timers.Sound := by
  rw [Scheduler.sound_iff] at sound ⊢
  rw [step.shape]
  cases action with
  | command given =>
    cases given with
    | add handler data => exact sound.insert _
    | remove id =>
      dsimp only [Scheduler.reshaped]
      split
      · exact sound.remove id.key
      · exact sound
    | reset => exact sound.clear
    | _ => exact sound
  | _ => exact sound

end Timers
