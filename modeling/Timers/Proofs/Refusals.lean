import Timers.Proofs.Registry

/-! What can be refused, and why. A command is refused when its timer is not registered, and a
removal also while the timer's handler holds its data; an advance is refused inside a handler and
at the last tick. Nothing else fails: the queue always holds the entry that a record points at,
and a timer that is due is always there with its handler. What is refused changes nothing. -/

namespace Timers

variable {H D W : Type}

/-- The error that a reply tells. -/
def Command.error? : (given : Command H D) → given.Reply → Option TimerError
  | .start .., .error error | .stop _, .error error | .remove _, .error error
  | .rebind .., .error error | .setPeriod .., .error error => some error
  | _, _ => none

/-- Why a command is refused, given who is registered and whose data a handler holds. -/
def Command.refusal? (given : Command H D) (registered : TimerId → Bool)
    (lent : Option TimerId) : Option TimerError :=
  match given with
  | .start id _ _ | .stop id | .rebind id _ | .setPeriod id _ =>
    if registered id then none else some (.invalidTimer id)
  | .remove id =>
    if registered id then if lent = some id then some (.firing id) else none
    else some (.invalidTimer id)
  | _ => none

/-- Whether an entry is popped from the queue. -/
def Step.pops (step : Step H D) : Bool :=
  match step.action with
  | .dispatch => true
  | _ => false

/-- The timer whose handler is running after a step, unless a reset has dropped it. -/
def Step.lends? (lent : Option TimerId) (step : Step H D) : Option TimerId :=
  match step.action with
  | .dispatch => step.firing?.map (·.timer)
  | .settle .. | .command .reset => none
  | _ => lent

def lent? (steps : List (Step H D)) : Option TimerId := steps.foldl Step.lends? none

def Scheduler.registers (scheduler : Scheduler H D) (id : TimerId) : Bool :=
  (scheduler.timer? id).isSome

/-- Of one registered timer at most the data are lent out. -/
structure Moment.LendsOnly (moment : Moment H D) (lent : Option TimerId) : Prop where
  running : ∀ id, lent = some id → moment.place.running? = some id
  out : ∀ id, lent = some id → ∃ timer, moment.scheduler.timer? id = some timer ∧ timer.data = none
  whole : ∀ id timer, moment.scheduler.timer? id = some timer → lent ≠ some id →
    timer.handler.isSome ∧ timer.data.isSome

private theorem Command.refusal?_ne_queue (given : Command H D) (registered : TimerId → Bool)
    (lent : Option TimerId) (cause : QueueError) :
    given.refusal? registered lent ≠ some (.queue cause) := by
  cases given <;> simp only [refusal?] <;> grind

namespace Scheduler

variable {scheduler : Scheduler H D} {id : TimerId} {lent : Option TimerId} {place : Place}

theorem perform_fails (tied : scheduler.Tied)
    (lends : (⟨place, scheduler⟩ : Moment H D).LendsOnly lent) (given : Command H D) :
    given.error? (scheduler.perform given).1 = given.refusal? scheduler.registers lent ∧
      (given.error? (scheduler.perform given).1 ≠ none →
        (scheduler.perform given).2 = scheduler) := by
  cases given with
  | start id delay periodic =>
    cases found : scheduler.timer? id with
    | none =>
      simp [perform, start_of_absent found, Command.error?, Command.refusal?, registers, found]
    | some timer =>
      obtain ⟨after, node, started, _⟩ := start_starts tied found delay periodic
      simp [perform, started, Command.error?, Command.refusal?, registers, found]
  | stop id =>
    cases found : scheduler.timer? id with
    | none =>
      simp [perform, stop_of_absent found, Command.error?, Command.refusal?, registers, found]
    | some timer =>
      obtain ⟨after, stopped, _⟩ := stop_stops tied found
      simp [perform, stopped, Command.error?, Command.refusal?, registers, found]
  | remove id =>
    cases found : scheduler.timer? id with
    | none =>
      simp [perform, remove_of_absent found, Command.error?, Command.refusal?, registers, found]
    | some timer =>
      by_cases out : lent = some id
      · obtain ⟨timer', found', data⟩ := lends.out id out
        rw [found] at found'
        cases found'
        simp [perform, remove_of_lent found (.inr data), Command.error?, Command.refusal?,
          registers, found, out]
      · obtain ⟨handler, data⟩ := lends.whole id timer found out
        obtain ⟨handler, taken⟩ := Option.isSome_iff_exists.mp handler
        obtain ⟨data, given⟩ := Option.isSome_iff_exists.mp data
        obtain ⟨after, removed, _⟩ := remove_removes tied found taken given
        simp [perform, removed, Command.error?, Command.refusal?, registers, found, out]
  | rebind id handler =>
    cases found : scheduler.timer? id <;>
      simp [perform, rebind, found, Command.error?, Command.refusal?, registers]
  | setPeriod id period =>
    cases found : scheduler.timer? id <;>
      simp [perform, setPeriod, found, Command.error?, Command.refusal?, registers]
  | add | modifyData | reset | takeReporter | receive | drainEvents =>
    simp [Command.error?, Command.refusal?]

theorem drops_of_lent {timer : Timer H D} (found : scheduler.timer? id = some timer)
    (lent : timer.data = none) {given : Command H D} (kept : given ≠ .reset) :
    given.drops scheduler id = false := by
  cases given with
  | remove other =>
    by_cases same : other = id
    · subst same
      simp [Command.drops, remove_of_lent found (.inr lent)]
    · simp [Command.drops, same]
  | reset => exact absurd rfl kept
  | add | start | stop | rebind | setPeriod | modifyData | takeReporter | receive
  | drainEvents => rfl

end Scheduler

variable {config : Config} {action : Action H D} {before after first last : Moment H D}
  {steps : List (Step H D)} {lent : Option TimerId}

private theorem Moment.Valid.lendsOnly {moment : Moment H D} (valid : moment.Valid)
    (idle : moment.place.running? = none) : moment.LendsOnly none where
  running := by simp
  out := by simp
  whole := by
    intro id timer found _
    have whole := valid.whole id timer found (by simp [idle])
    exact ⟨whole.handler, whole.data⟩

private theorem Moment.LendsOnly.nobody {moment : Moment H D} (lends : moment.LendsOnly lent)
    (idle : moment.place.running? = none) : lent = none := by
  cases lent with
  | none => rfl
  | some id =>
    have running := lends.running id rfl
    rw [idle] at running
    cases running

private theorem Moment.LendsOnly.perform {place : Place} {scheduler : Scheduler H D}
    (lends : (⟨place, scheduler⟩ : Moment H D).LendsOnly lent)
    (valid : (⟨place, scheduler⟩ : Moment H D).Valid) {given : Command H D}
    (kept : given ≠ .reset) :
    (⟨place, (scheduler.perform given).2⟩ : Moment H D).LendsOnly lent where
  running := lends.running
  out := by
    intro id out
    obtain ⟨timer, found, data⟩ := lends.out id out
    obtain ⟨later, found', follows⟩ := (Scheduler.perform_revises valid.tied given).keeps
      (Scheduler.drops_of_lent found data kept) found
    have same := follows.data
    rw [data] at same
    exact ⟨later, found', by simpa using same⟩
  whole := by
    intro id later found stays
    have followed := (Scheduler.perform_changes valid.tied given).followed
    rcases followed.known id later found with ⟨timer, known, follows⟩ | whole
    · obtain ⟨handler, data⟩ := lends.whole id timer known stays
      exact ⟨follows.handler handler, follows.data.trans data⟩
    · exact ⟨whole.handler, whole.data⟩

namespace Transition

private theorem lendsOnly (step : Transition action before after) (valid : before.Valid)
    (lends : before.LendsOnly lent) :
    after.LendsOnly (Step.lends? lent ⟨before, action, after⟩) := by
  have valid' := step.valid valid
  cases step with
  | @command place scheduler given awake =>
    cases given with
    | reset =>
      refine ⟨by simp [Step.lends?], by simp [Step.lends?], fun id timer found _ => ?_⟩
      rw [Scheduler.perform, Scheduler.timer?_reset] at found
      cases found
    | _ => exact lends.perform valid (by simp)
  | beginAdvance begins => exact lends.nobody rfl ▸ valid'.lendsOnly rfl
  | @dispatch scheduler popped lent' arming turn given due taken =>
    obtain ⟨timer, takes⟩ := valid.dispatch_takes due taken
    refine ⟨fun id same => same, fun id same => ?_, fun id later found stays => ?_⟩
    · cases same
      exact ⟨timer.lentOut, by rw [takes.timers, if_pos rfl], rfl⟩
    · have apart : id ≠ arming.timer := fun same => stays (congrArg some same.symm)
      rw [takes.timers, if_neg apart] at found
      have whole := valid.whole id later found (by simp)
      exact ⟨whole.handler, whole.data⟩
  | skip due refused => exact absurd refused (valid.not_skipped due)
  | settle handler data => exact valid'.lendsOnly rfl
  | endAdvance finished => exact lends.nobody rfl ▸ valid'.lendsOnly rfl

private theorem pops_fires (step : Transition action before after) (valid : before.Valid) :
    Step.pops ⟨before, action, after⟩ = (Step.firing? ⟨before, action, after⟩).isSome := by
  cases step with
  | @command place scheduler given awake =>
    cases place with
    | between => exact absurd rfl awake
    | outside | inside firing => rfl
  | skip due refused => exact absurd refused (valid.not_skipped due)
  | beginAdvance | dispatch | settle | endAdvance => rfl

end Transition

namespace Run

theorem lendsOnly (run : Run first steps last) (valid : first.Valid)
    (lends : first.LendsOnly lent) : last.LendsOnly (steps.foldl Step.lends? lent) := by
  induction run generalizing lent with
  | nil => exact lends
  | cons step _ ih => exact ih (step.valid valid) (step.lendsOnly valid lends)

private theorem pops_fires (run : Run first steps last) (valid : first.Valid) :
    ∀ step ∈ steps, step.pops = step.firing?.isSome := by
  induction run with
  | nil => simp
  | cons step _ ih =>
    exact List.forall_mem_cons.mpr ⟨step.pops_fires valid, ih (step.valid valid)⟩

private theorem countP_pops (run : Run first steps last) (valid : first.Valid) :
    steps.countP Step.pops = (firings steps).length := by
  rw [firings, List.length_filterMap_eq_countP]
  apply List.countP_congr
  intro step member
  rw [run.pops_fires valid step member]

end Run

/-- The timer whose data are lent out is the one whose handler is running, as long as it is
registered. -/
private theorem Moment.LendsOnly.lent_iff {moment : Moment H D} (lends : moment.LendsOnly lent)
    (loans : moment.Lends) (id : TimerId) :
    lent = some id ↔ moment.place.running? = some id ∧ moment.scheduler.registers id = true := by
  constructor
  · intro out
    obtain ⟨timer, found, _⟩ := lends.out id out
    exact ⟨lends.running id out, by simp [Scheduler.registers, found]⟩
  · intro held
    obtain ⟨running, registered⟩ := held
    obtain ⟨timer, found⟩ := Option.isSome_iff_exists.mp registered
    cases place : moment.place with
    | inside firing =>
      have same : firing.timer = id := by simpa [place, Place.running?] using running
      subst same
      rcases loans firing place with ⟨timer', found', data⟩ | outdated
      · rw [found] at found'
        cases found'
        by_cases out : lent = some firing.timer
        · exact out
        · have stays := (lends.whole firing.timer timer found out).2
          rw [data] at stays
          cases stays
      · have lapsed : moment.scheduler.timer? firing.timer = none := outdated.get?
        rw [found] at lapsed
        cases lapsed
    | outside | between =>
      rw [place] at running
      cases running

section Advance

variable {react : Reaction H D W} {fuel : Nat} {system final : System H D W}

private theorem System.tryAdvance_error {error : TimerError}
    (refused : System.tryAdvance react fuel system = some (.error error, final)) :
    final = system ∧ (error = .reentrantAdvance ∨ error = .tickOverflow) := by
  cases System.advanced_iff.mpr refused with
  | refused begins => exact ⟨rfl, Scheduler.error_of_beginAdvance begins⟩

private theorem System.outside_of_tryAdvance {place : Place} {told : List Firing}
    (paced : (⟨place, system.scheduler⟩ : Moment H D).Paced)
    (finished : System.tryAdvance react fuel system = some (.ok told, final)) :
    place = .outside := by
  by_cases outside : place = .outside
  · exact outside
  · rw [System.tryAdvance_refused react fuel (paced.mpr outside)] at finished
    cases finished

private theorem System.advanceSteps_refused (busy : system.scheduler.dispatching = true) :
    System.advanceSteps react fuel system = [] := by
  rw [System.advanceSteps, Scheduler.beginAdvance_of_busy busy]

/-- Whatever an advance pops makes a handler run, whether or not it comes to its end. -/
theorem System.advanceSteps_pops {place : Place}
    (valid : (⟨place, system.scheduler⟩ : Moment H D).Valid)
    (paced : (⟨place, system.scheduler⟩ : Moment H D).Paced) :
    ∀ step ∈ System.advanceSteps react fuel system, step.pops = true →
      ∃ firing, step.firing? = some firing := by
  intro step member pops
  by_cases outside : place = .outside
  · subst outside
    obtain ⟨last, run, _⟩ : (⟨.outside, system.scheduler⟩ : Moment H D).Makes
      (System.advanceSteps react fuel system) _ := System.tryAdvance_makes
    rw [run.pops_fires valid step member] at pops
    exact Option.isSome_iff_exists.mp pops
  · rw [System.advanceSteps_refused (paced.mpr outside)] at member
    cases member

theorem System.tryAdvance_pops {told : List Firing}
    (valid : (⟨.outside, system.scheduler⟩ : Moment H D).Valid)
    (finished : System.tryAdvance react fuel system = some (.ok told, final)) :
    Run ⟨.outside, system.scheduler⟩ (System.advanceSteps react fuel system)
        ⟨.outside, final.scheduler⟩ ∧
      firings (System.advanceSteps react fuel system) = told ∧
      (System.advanceSteps react fuel system).countP Step.pops = told.length := by
  have run : Run ⟨.outside, system.scheduler⟩ (System.advanceSteps react fuel system)
      ⟨.outside, final.scheduler⟩ := System.tryAdvance_makes.run (by rw [finished]; rfl)
  have same : firings (System.advanceSteps react fuel system) = told :=
    System.firings_advanceSteps finished
  exact ⟨run, same, by rw [run.countP_pops valid, same]⟩

end Advance

/-- Whatever is asked at any moment fails for its own reason only: because the timer is not
registered, or because it is the one whose handler is running. A failure leaves everything as it
was. No entry is popped without a handler that runs, in the past or in an advance from here; and
an advance that is made is told as many handlers as its own steps have popped entries. -/
theorem failures_change_nothing {moment : Moment H D} (run : Run (.ofConfig config) steps moment) :
    (∀ given : Command H D,
      given.error? (moment.scheduler.perform given).1 =
        given.refusal? moment.scheduler.registers (lent? steps) ∧
      (∀ cause, given.error? (moment.scheduler.perform given).1 ≠ some (.queue cause)) ∧
      (given.error? (moment.scheduler.perform given).1 ≠ none →
        (moment.scheduler.perform given).2 = moment.scheduler)) ∧
    ((∀ step ∈ steps, step.Unwrapped) → ∀ id, lent? steps = some id ↔
      moment.place.running? = some id ∧ moment.scheduler.registers id = true) ∧
    (∀ step ∈ steps, step.pops = true → ∃ firing, step.firing? = some firing) ∧
    ∀ (W : Type) (react : Reaction H D W) (fuel : Nat) (shared : W) (final : System H D W),
      (∀ error,
        System.tryAdvance react fuel ⟨moment.scheduler, shared⟩ = some (.error error, final) →
        final = ⟨moment.scheduler, shared⟩ ∧ ∀ cause, error ≠ .queue cause) ∧
      (∀ step ∈ System.advanceSteps react fuel ⟨moment.scheduler, shared⟩, step.pops = true →
        ∃ firing, step.firing? = some firing) ∧
      ∀ told, System.tryAdvance react fuel ⟨moment.scheduler, shared⟩ = some (.ok told, final) →
        Run moment (System.advanceSteps react fuel ⟨moment.scheduler, shared⟩)
          ⟨.outside, final.scheduler⟩ ∧
        firings (System.advanceSteps react fuel ⟨moment.scheduler, shared⟩) = told ∧
        (System.advanceSteps react fuel ⟨moment.scheduler, shared⟩).countP Step.pops =
          told.length ∧
        ∃ begun later, System.advanceSteps react fuel ⟨moment.scheduler, shared⟩ =
            ⟨moment, .beginAdvance, ⟨.between, begun⟩⟩ :: later ∧
          ∀ step ∈ later, step.before.place ≠ .outside := by
  have valid := run.valid
  have lends : moment.LendsOnly (lent? steps) :=
    run.lendsOnly (.ofConfig config) ((Moment.Valid.ofConfig config).lendsOnly rfl)
  have paced : moment.Paced := run.preserves Transition.paced (.ofConfig config)
  refine ⟨fun given => ?_, fun unwrapped id => ?_, fun step member pops => ?_, ?_⟩
  · obtain ⟨fails, unchanged⟩ := Scheduler.perform_fails valid.tied lends given
    exact ⟨fails, fun cause => fails ▸ given.refusal?_ne_queue _ _ cause, unchanged⟩
  · have loans : moment.Lends := run.lends (.ofConfig config) (.ofConfig config) unwrapped
    exact lends.lent_iff loans id
  · rw [run.pops_fires (.ofConfig config) step member] at pops
    exact Option.isSome_iff_exists.mp pops
  · intro W react fuel shared final
    refine ⟨?_, System.advanceSteps_pops valid paced, ?_⟩
    · intro error refused
      obtain ⟨same, told⟩ := System.tryAdvance_error refused
      refine ⟨same, fun cause equal => ?_⟩
      rcases told with reentrant | overflow
      · rw [equal] at reentrant
        cases reentrant
      · rw [equal] at overflow
        cases overflow
    · intro told finished
      obtain ⟨place, scheduler⟩ := moment
      cases System.outside_of_tryAdvance paced finished
      obtain ⟨onward, same, count⟩ := System.tryAdvance_pops valid finished
      obtain ⟨begun, later, _, begin, within⟩ := System.begins_of_tryAdvance finished
      exact ⟨onward, same, count, begun, later, begin, within⟩

/-- A handler that has started its own timer anew cannot remove it. And of two timers that are due
an advance pops both, and it is told of both. -/
theorem failures_change_nothing_restarted :
    ∃ (steps steps' : List (Step Nat Nat)) (moment moment' : Moment Nat Nat) (id : TimerId),
      Run (.ofConfig {}) steps moment ∧ moment.place.running? = some id ∧
        moment.scheduler.isScheduled id = true ∧
        moment.scheduler.perform (.remove id) = (.error (.firing id), moment.scheduler) ∧
      Run (.ofConfig {}) steps' moment' ∧ ∃ told final,
        System.tryAdvance Reaction.idle 3 ⟨moment'.scheduler, ()⟩ = some (.ok told, final) ∧
        told.length = 2 ∧
        (System.advanceSteps Reaction.idle 3 ⟨moment'.scheduler, ()⟩).countP Step.pops = 2 := by
  let id : TimerId := ⟨⟨0, 0⟩⟩
  have told : ((Moment.ofConfig {} : Moment Nat Nat).run?
      [.command (.add 7 5), .command (.start id 1 true), .beginAdvance, .dispatch,
        .command (.start id 3 false)]).map (fun made =>
      (lent? made.1, made.2.scheduler.registers id, made.2.place.running?,
        made.2.scheduler.isScheduled id)) =
      some (some id, true, some id, true) := by decide +kernel
  have told' : ((Moment.ofConfig {} : Moment Nat Nat).run?
      [.command (.add 7 5), .command (.add 8 6), .command (.start id 1 true),
        .command (.start ⟨⟨1, 0⟩⟩ 1 false)]).bind (fun made =>
      (System.tryAdvance Reaction.idle 3 ⟨made.2.scheduler, ()⟩).bind fun advanced =>
        advanced.1.toOption.map List.length) = some 2 := by decide +kernel
  obtain ⟨⟨steps, moment⟩, made, same⟩ := Option.map_eq_some_iff.mp told
  obtain ⟨⟨steps', moment'⟩, made', same'⟩ := Option.bind_eq_some_iff.mp told'
  obtain ⟨⟨reply, final⟩, finished, length⟩ := Option.bind_eq_some_iff.mp same'
  obtain ⟨lent, registered, running, scheduled⟩ : lent? steps = some id ∧
      moment.scheduler.registers id = true ∧ moment.place.running? = some id ∧
      moment.scheduler.isScheduled id = true := by simpa using same
  have run := Moment.run_of_run? made
  have run' := Moment.run_of_run? made'
  obtain ⟨fails, _, unchanged⟩ := (failures_change_nothing run).1 (.remove id)
  have firing : Command.error? (.remove id) (moment.scheduler.perform (.remove id)).1 =
      some (.firing id) := by
    rw [fails]
    simp [Command.refusal?, registered, lent]
  have refused : moment.scheduler.perform (.remove id) = (.error (.firing id), moment.scheduler) := by
    refine Prod.ext ?_ (unchanged (by simp [firing]))
    cases reply : (moment.scheduler.perform (.remove id)).1 with
    | ok data =>
      rw [reply] at firing
      cases firing
    | error error =>
      rw [reply] at firing
      exact congrArg Except.error (Option.some.inj firing)
  cases reply with
  | error error => cases length
  | ok told =>
    have two : told.length = 2 := Option.some.inj length
    obtain ⟨_, _, advances⟩ :=
      (failures_change_nothing run').2.2.2 Unit Reaction.idle 3 () final
    obtain ⟨_, _, count, _⟩ := advances told finished
    exact ⟨steps, steps', moment, moment', id, run, running, scheduled, refused, run', told, final,
      finished, two, count.trans two⟩

end Timers
