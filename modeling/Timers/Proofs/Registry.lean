import Timers.Proofs.Representation

/-! Who is registered. A timer stays registered until it is removed or everything is reset, and
an id that has lost its timer finds none again, unless the generation of its slot wraps. -/

namespace Timers

variable {H D : Type}

def Step.drops (step : Step H D) (id : TimerId) : Bool :=
  match step.action with
  | .command given => given.drops step.before.scheduler id
  | _ => false

/-- The generation of a slot does not wrap. -/
def Step.UnwrappedAt (step : Step H D) (index : Nat) : Prop :=
  step.before.scheduler.timers.generationAt index ≤ step.after.scheduler.timers.generationAt index

/-- The id has been issued: its timer is registered, or gone for good. -/
def Scheduler.Accounts (scheduler : Scheduler H D) (id : TimerId) : Prop :=
  (∃ timer, scheduler.timer? id = some timer) ∨ scheduler.timers.Outdated id.key

/-- Whoever asks for the timer is told that there is none. -/
structure Scheduler.Refuses (scheduler : Scheduler H D) (id : TimerId) : Prop where
  start : ∀ delay periodic,
    scheduler.start id delay periodic = (.error (.invalidTimer id), scheduler)
  stop : scheduler.stop id = (.error (.invalidTimer id), scheduler)
  remove : scheduler.remove id = (.error (.invalidTimer id), scheduler)
  rebind : ∀ handler, scheduler.rebind id handler = (.error (.invalidTimer id), scheduler)
  setPeriod : ∀ period, scheduler.setPeriod id period = (.error (.invalidTimer id), scheduler)
  modifyData : ∀ change, scheduler.modifyData id change = (none, scheduler)
  view? : scheduler.view? id = none

namespace Scheduler

variable {scheduler : Scheduler H D} {id other : TimerId} {timer : Timer H D}

theorem refuses_of_absent (absent : scheduler.timer? id = none) : scheduler.Refuses id where
  start := start_of_absent absent
  stop := stop_of_absent absent
  remove := remove_of_absent absent
  rebind := fun _ => by simp only [Scheduler.rebind, absent]
  setPeriod := fun _ => by simp only [Scheduler.setPeriod, absent]
  modifyData := by
    intro change
    simp only [Scheduler.modifyData, updateTimer_of_absent absent, data?, Scheduler.view?, absent]
    rfl
  view? := by simp only [Scheduler.view?, absent, Option.map_none]

/-- The id of a timer that is added has not been issued before. -/
theorem add_fresh (scheduler : Scheduler H D) (handler : H) (data : D) :
    ¬ scheduler.Accounts (scheduler.add handler data).1 := by
  intro accounts
  rcases accounts with ⟨timer, found⟩ | outdated
  · have fresh : scheduler.timer? (scheduler.add handler data).1 = none :=
      Arena.get?_of_insert scheduler.timers _ rfl
    rw [fresh] at found
    cases found
  · have issued := Arena.generation_of_insert scheduler.timers
      ({ handler := some handler, data := some data } : Timer H D)
    simp only [Arena.Outdated, add, issued] at outdated
    exact absurd outdated (UInt32.lt_irrefl _)

private theorem timer?_rearm_isSome (scheduler : Scheduler H D) (id other : TimerId) :
    ((scheduler.rearm id).timer? other).isSome = (scheduler.timer? other).isSome := by
  have update : ∀ (before : Scheduler H D) (change : Timer H D → Timer H D),
      ((before.updateTimer id change).timer? other).isSome = (before.timer? other).isSome := by
    intro before change
    rw [timer?_updateTimer]
    split
    · exact Option.isSome_map
    · rfl
  simp only [rearm]
  split
  · rfl
  · split
    · split
      · exact update scheduler _
      · exact update _ _
    · rfl

theorem timer?_settle_isSome (scheduler : Scheduler H D) (id other : TimerId) (tick : Tick)
    (handler : H) (data : D) :
    ((scheduler.settle id tick handler data).timer? other).isSome =
      (scheduler.timer? other).isSome := by
  rw [settle, timer?_rearm_isSome, takeBack, timer?_updateTimer]
  split
  · exact Option.isSome_map
  · rfl

end Scheduler

variable {id : TimerId} {action : Action H D} {before after first last : Moment H D}
  {steps : List (Step H D)}

theorem Moment.Lends.accounts {moment : Moment H D} {firing : Firing} (loans : moment.Lends)
    (inside : moment.place = .inside firing) : moment.scheduler.Accounts firing.timer := by
  rcases loans firing inside with ⟨timer, found, _⟩ | outdated
  · exact .inl ⟨timer, found⟩
  · exact .inr outdated

theorem Transition.accounts (step : Transition action before after) (valid : before.Valid)
    (accounts : before.scheduler.Accounts id)
    (unwrapped : Step.UnwrappedAt ⟨before, action, after⟩ id.key.index) :
    after.scheduler.Accounts id := by
  rcases accounts with ⟨timer, found⟩ | outdated
  · cases step with
    | command given awake =>
      have followed := (Scheduler.perform_changes valid.tied given).followed
      rcases followed.kept id timer found with ⟨later, kept, _⟩ | moved
      · exact .inl ⟨later, kept⟩
      · exact .inr (Arena.outdated_of_vacated found moved unwrapped)
    | beginAdvance begins =>
      obtain ⟨_, tick, _, rfl⟩ := Scheduler.beginAdvance_eq begins
      exact .inl ⟨timer, found⟩
    | @dispatch scheduler popped lent arming turn given due taken =>
      obtain ⟨old, takes⟩ := valid.dispatch_takes due taken
      refine .inl ?_
      rw [takes.timers]
      split
      · exact ⟨_, rfl⟩
      · exact ⟨timer, found⟩
    | skip due refused => exact absurd refused (valid.not_skipped due)
    | @settle firing scheduler handler data =>
      have same := scheduler.timer?_settle_isSome firing.timer id firing.tick handler data
      rw [found] at same
      exact .inl (Option.isSome_iff_exists.mp same)
    | endAdvance finished => exact .inl ⟨timer, found⟩
  · exact .inr (outdated.keep unwrapped)

theorem Run.accounts (run : Run first steps last) (valid : first.Valid)
    (accounts : first.scheduler.Accounts id)
    (unwrapped : ∀ step ∈ steps, step.UnwrappedAt id.key.index) : last.scheduler.Accounts id :=
  run.keeps_valid
    (fun step valid now accounts => step.accounts valid accounts now) valid unwrapped accounts

theorem Run.accounts_of_mem (run : Run first steps last) (valid : first.Valid) {known : Step H D}
    (member : known ∈ steps) (accounts : known.before.scheduler.Accounts id)
    (unwrapped : ∀ step ∈ steps, step.UnwrappedAt id.key.index) : last.scheduler.Accounts id := by
  induction run with
  | nil => cases member
  | @cons action before after last steps step run ih =>
    obtain ⟨now, later⟩ := List.forall_mem_cons.mp unwrapped
    have valid' := step.valid valid
    rcases List.mem_cons.mp member with rfl | member
    · exact run.accounts valid' (step.accounts valid accounts now) later
    · exact ih valid' member later

theorem Transition.drops (step : Transition action before after) (valid : before.Valid)
    (drops : Step.drops ⟨before, action, after⟩ id = true)
    (accounts : before.scheduler.Accounts id)
    (unwrapped : Step.UnwrappedAt ⟨before, action, after⟩ id.key.index) :
    after.scheduler.timers.Outdated id.key := by
  rcases step.accounts valid accounts unwrapped with ⟨later, found⟩ | outdated
  · cases step with
    | command given awake =>
      rw [((Scheduler.perform_revises valid.tied given).dropped drops).1] at found
      cases found
    | beginAdvance | dispatch | skip | settle | endAdvance => cases drops
  · exact outdated

theorem Run.outdated (run : Run first steps last)
    (outdated : first.scheduler.timers.Outdated id.key)
    (unwrapped : ∀ step ∈ steps, step.UnwrappedAt id.key.index) :
    last.scheduler.timers.Outdated id.key :=
  run.keeps_along (fun {_ before _} _ now (outdated : before.scheduler.timers.Outdated id.key) =>
    outdated.keep now) unwrapped outdated

end Timers
