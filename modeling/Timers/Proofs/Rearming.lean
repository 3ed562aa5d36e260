import Timers.Proofs.Conduct
import Timers.Proofs.Lockstep
import Timers.Proofs.Refusals

/-! What becomes of a timer whose handler has run. If the handler has reset the scheduler, the timer
is gone for good. Else the last start or stop of the timer that the handler made counts, and if it
made none, the timer's period does: the timer is armed again from when it was due, or it has fired.
What the handler did to the timer is read off its record alone. The invariant is that the phase in
the record tells the last decision, whatever else has been asked for and refused. -/

namespace Timers

variable {H D W : Type}

/-- What a handler has decided about a timer: it is due at a tick, or off the schedule. -/
inductive Decision where
  | start (expiry : Tick)
  | stop
  deriving DecidableEq

/-- What a command decides about a timer. One that is refused decides nothing. -/
def Command.decision? (given : Command H D) (scheduler : Scheduler H D) (id : TimerId) :
    Option Decision :=
  match given with
  | .start other delay periodic =>
    if other = id ∧ (scheduler.start other delay periodic).1.isOk then
      some (.start (scheduler.tick.after delay))
    else none
  | .stop other => if other = id ∧ (scheduler.stop other).1.isOk then some .stop else none
  | _ => none

def Step.decision? (id : TimerId) (step : Step H D) : Option Decision :=
  match step.action with
  | .command given => given.decision? step.before.scheduler id
  | _ => none

def lastDecision? (id : TimerId) (steps : List (Step H D)) : Option Decision :=
  (steps.filterMap (Step.decision? id)).getLast?

/-- A timer is in a phase, and it has this one entry in the queue, or none. -/
structure Scheduler.Stands (scheduler : Scheduler H D) (id : TimerId) (phase : Phase)
    (due : Option Tick) : Prop where
  phase : scheduler.phase? id = some phase
  expiry : ∀ expiry, due = some expiry → scheduler.expiry? id = some expiry
  entries : scheduler.queue.toList.filter (·.timer = id) = (due.map (⟨·, id⟩)).toList

/-- What has become of a timer after the run of its handler, given the steps of the run and the
scheduler before and after handler and data were put back. -/
structure Decided (firing : Firing) (body : List (Step H D)) (last after : Scheduler H D) :
    Prop where
  renewed : (∃ step ∈ body, step.resets = true) →
    (∀ step ∈ body, step.UnwrappedAt firing.timer.key.index) →
    after.timer? firing.timer = none ∧ after = last.publish (.fired firing.timer firing.tick)
  started : (∀ step ∈ body, step.resets = false) →
    ∀ expiry, lastDecision? firing.timer body = some (.start expiry) →
      after.Stands firing.timer .scheduled (some expiry) ∧ after.queue = last.queue
  stopped : (∀ step ∈ body, step.resets = false) →
    lastDecision? firing.timer body = some .stop →
      after.Stands firing.timer .stopped none ∧ after.queue = last.queue
  undecided : (∀ step ∈ body, step.resets = false) → lastDecision? firing.timer body = none →
    ∃ period, last.period? firing.timer = some period ∧
      (period = 0 → after.Stands firing.timer .fired none ∧ after.queue = last.queue) ∧
      (period ≠ 0 → ∃ expiry : Tick,
        expiry.toNat = min (firing.expiry.toNat + period.toNat) Tick.last.toNat ∧
          after.Stands firing.timer .scheduled (some expiry))

private theorem lastDecision?_cons (id : TimerId) (step : Step H D) (steps : List (Step H D))
    (earlier : Option Decision) :
    (lastDecision? id (step :: steps)).or earlier =
      (lastDecision? id steps).or ((step.decision? id).or earlier) := by
  rw [lastDecision?, List.filterMap_cons]
  cases step.decision? id with
  | none => rfl
  | some decision =>
    rw [List.getLast?_cons, lastDecision?]
    cases (steps.filterMap (Step.decision? id)).getLast? <;> rfl

/-- A record tells what has been decided about a timer that was due at a tick. -/
def Timer.Tells (timer : Timer H D) (expiry : Tick) : Option Decision → Prop
  | none => timer.phase = .firing ∧ timer.expiry = expiry
  | some (.start due) => timer.phase = .scheduled ∧ timer.expiry = due
  | some .stop => timer.phase = .stopped

/-- The data of a timer that was due at a tick are lent out, and its record tells the decision. -/
def Scheduler.Awaits (scheduler : Scheduler H D) (id : TimerId) (expiry : Tick)
    (decision : Option Decision) : Prop :=
  ∃ timer, scheduler.timer? id = some timer ∧ timer.data = none ∧ timer.Tells expiry decision

namespace Command

variable {given : Command H D} {scheduler : Scheduler H D} {id other : TimerId}

private theorem decision?_of_ne (names : given.rewrites? = some other) (apart : id ≠ other) :
    given.decision? scheduler id = none := by
  cases given with
  | start | stop =>
    cases names
    simp [decision?, Ne.symm apart]
  | _ => rfl

private theorem decision?_of_thins (thins : given.thins = true) :
    given.decision? scheduler id = none := by
  cases given with
  | remove | reset => rfl
  | _ => cases thins

private theorem decision?_of_feeds (feeds : given.feeds = true) :
    given.decision? scheduler id = none := by
  cases given with
  | takeReporter | receive | drainEvents => rfl
  | _ => cases feeds

end Command

namespace Scheduler

variable {scheduler : Scheduler H D} {id : TimerId} {timer later : Timer H D} {expiry : Tick}
  {decision : Option Decision} {given : Command H D}

private theorem tells_of_rewrites (tied : scheduler.Tied) (found : scheduler.timer? id = some timer)
    (tells : timer.Tells expiry decision)
    (rewrites : given.Rewrites scheduler.tick timer id later) :
    later.Tells expiry ((given.decision? scheduler id).or decision) := by
  cases rewrites with
  | start _ delay periodic =>
    obtain ⟨after, node, started, _⟩ := start_starts tied found delay periodic
    have decides : (Command.start id delay periodic).decision? scheduler id =
        some (.start (scheduler.tick.after delay)) := by
      simp [Command.decision?, started]
    rw [decides]
    exact ⟨rfl, rfl⟩
  | stop =>
    obtain ⟨after, stopped, _⟩ := stop_stops tied found
    have decides : (Command.stop id).decision? scheduler id = some .stop := by
      simp [Command.decision?, stopped]
    have node := tied.phase found
    rw [decides]
    -- The timer is firing or scheduled, so it is stopped now, or it has been stopped already.
    rcases decision with _ | (due | _)
    · simp [Timer.Tells, tells.1]
    · simp [Timer.Tells, node.mpr tells.1]
    · have halted : timer.phase = .stopped := tells
      simp [Timer.Tells, halted]
  | rebind | setPeriod | modifyData =>
    rcases decision with _ | (due | _) <;> exact tells

private theorem Awaits.perform (awaits : scheduler.Awaits id expiry decision)
    (tied : scheduler.Tied) (given : Command H D) (kept : given ≠ .reset) :
    (scheduler.perform given).2.Awaits id expiry ((given.decision? scheduler id).or decision) := by
  obtain ⟨timer, found, lent, tells⟩ := awaits
  have revised := perform_revises tied given
  generalize (scheduler.perform given).2 = after at revised ⊢
  have untouched : given.decision? scheduler id = none → after.timer? id = scheduler.timer? id →
      after.Awaits id expiry ((given.decision? scheduler id).or decision) := by
    intro nothing same
    rw [nothing]
    exact ⟨timer, same.trans found, lent, tells⟩
  cases revised with
  | entered fresh timers =>
    apply untouched rfl
    rw [timers, if_neg]
    rintro rfl
    cases fresh.symm.trans found
  | @rewritten _ other old later present rewrites timers =>
    by_cases same : id = other
    · subst same
      cases present.symm.trans found
      have data := rewrites.follows.data
      rw [lent] at data
      exact ⟨later, (timers id).trans (if_pos rfl), by simpa using data,
        tells_of_rewrites tied found tells rewrites⟩
    · exact untouched (Command.decision?_of_ne rewrites.names same) ((timers id).trans (if_neg same))
  | missing names absent same =>
    refine untouched (Command.decision?_of_ne names ?_) (by rw [same])
    rintro rfl
    cases absent.symm.trans found
  | thinned thins timers =>
    have stays := drops_of_lent found lent kept
    exact untouched (Command.decision?_of_thins thins) (by rw [timers, stays]; rfl)
  | fed feeds same =>
    exact untouched (Command.decision?_of_feeds feeds) (by rw [timer?, same]; rfl)

private theorem queue_settle (found : scheduler.timer? id = some timer)
    (nothing : timer.again? = none) (tick : Tick) (handler : H) (data : D) :
    (scheduler.settle id tick handler data).queue = scheduler.queue := by
  let returned := (scheduler.publish (.fired id tick)).takeBack id handler data
  have told : (scheduler.publish (.fired id tick)).timer? id = some timer := found
  have found : returned.timer? id = some (timer.returned handler data) :=
    (timer?_of_update told _ id).trans (if_pos rfl)
  have queue : (returned.rearm id).queue = returned.queue := by
    by_cases firing : timer.phase = .firing
    · have once : timer.period = 0 := by
        by_contra periodic
        simp [Timer.again?, firing, periodic] at nothing
      simp [rearm, found, Timer.returned, firing, once, updateTimer]
    · simp [rearm, found, Timer.returned, firing]
  exact queue

private theorem Tied.stands (tied : scheduler.Tied) (found : scheduler.timer? id = some timer) :
    scheduler.Stands id timer.phase (if timer.phase = .scheduled then some timer.expiry else none) where
  phase := by rw [phase?, view?, found]; rfl
  expiry := by
    intro expiry due
    split at due
    · rw [expiry?, view?, found]
      exact due
    · cases due
  entries := by
    have single : (scheduler.queue.toList.filter (·.timer = id)).Nodup :=
      (List.Nodup.of_map _ tied.timers_nodup).filter _
    have listed : ∀ arming, arming ∈ scheduler.queue.toList.filter (·.timer = id) ↔
        timer.phase = .scheduled ∧ arming = ⟨timer.expiry, id⟩ := by
      intro arming
      rw [List.mem_filter, decide_eq_true_eq, tied.mem_toList_iff]
      constructor
      · rintro ⟨⟨turn, key, held⟩, rfl⟩
        obtain ⟨timer', found', node, expiry⟩ := tied.entry held
        cases found.symm.trans found'
        exact ⟨(tied.phase found).mp (by rw [node]; rfl), by rw [expiry]⟩
      · rintro ⟨scheduled, rfl⟩
        exact ⟨tied.queued found ((tied.phase found).mpr scheduled), rfl⟩
    by_cases scheduled : timer.phase = .scheduled
    · rw [if_pos scheduled]
      apply List.perm_singleton.mp
      apply (List.perm_ext_iff_of_nodup single (List.nodup_singleton _)).mpr
      simp only [listed, scheduled, true_and, List.mem_singleton, implies_true]
    · rw [if_neg scheduled]
      apply List.eq_nil_iff_forall_not_mem.mpr
      exact fun arming member => scheduled ((listed arming).mp member).1

private theorem settle_stands (tied : scheduler.Tied) (found : scheduler.timer? id = some timer)
    (tick : Tick) (handler : H) (data : D) :
    (scheduler.settle id tick handler data).Stands id timer.ended.phase
      (if timer.ended.phase = .scheduled then some timer.ended.expiry else none) := by
  obtain ⟨later, present, phase, expiry, _⟩ := settle_record found tick handler data
  rw [← phase, ← expiry]
  exact (settle_effect tied id tick handler data).tied.stands present

end Scheduler

section Decision

variable {first last : Moment H D} {body : List (Step H D)} {firing : Firing} {id : TimerId}

/-- Unless the handler resets the scheduler, the record of its timer tells the last decision. -/
private theorem Run.awaits_decision {expiry : Tick} {earlier : Option Decision}
    (run : Run first body last)
    (valid : first.Valid) (commands : ∀ step ∈ body, ∃ given, step.action = .command given)
    (kept : ∀ step ∈ body, step.resets = false)
    (awaits : first.scheduler.Awaits id expiry earlier) :
    last.scheduler.Awaits id expiry ((lastDecision? id body).or earlier) := by
  induction run generalizing earlier with
  | nil => exact awaits
  | cons step run ih =>
    obtain ⟨⟨given, same⟩, others⟩ := List.forall_mem_cons.mp commands
    obtain ⟨now, later⟩ := List.forall_mem_cons.mp kept
    rw [lastDecision?_cons]
    dsimp only at same
    subst same
    have valid' := step.valid valid
    cases step with
    | command given awake =>
      apply ih valid' others later
      apply awaits.perform valid.tied given
      rintro rfl
      cases now

private theorem Step.drops_of_resets {step : Step H D} (resets : step.resets = true)
    (id : TimerId) : step.drops id = true := by
  simp only [Step.resets] at resets
  split at resets
  next reset => simp [Step.drops, reset, Command.drops]
  next => cases resets

theorem Run.renews (run : Run first body last) (valid : first.Valid)
    (accounts : first.scheduler.Accounts id) (resets : ∃ step ∈ body, step.resets = true)
    (unwrapped : ∀ step ∈ body, step.UnwrappedAt id.key.index) :
    last.scheduler.timer? id = none := by
  obtain ⟨⟨before, action, after⟩, member, reset⟩ := resets
  obtain ⟨earlier, later, rfl⟩ := List.append_of_mem member
  obtain ⟨soon, unwrapped⟩ := List.forall_mem_append.mp unwrapped
  obtain ⟨now, rest⟩ := List.forall_mem_cons.mp unwrapped
  obtain ⟨middle, passed, onward⟩ := run.split
  cases onward with
  | cons step onward =>
    have valid' := passed.preserves Transition.valid valid
    have outdated := step.drops valid' (Step.drops_of_resets reset id) (passed.accounts valid accounts soon) now
    exact (onward.outdated outdated rest).get?

theorem Run.decided {start last : Scheduler H D}
    (run : Run ⟨.inside firing, start⟩ body ⟨.inside firing, last⟩)
    (valid : (⟨.inside firing, start⟩ : Moment H D).Valid)
    (commands : ∀ step ∈ body, ∃ given, step.action = .command given)
    (awaits : start.Awaits firing.timer firing.expiry none) (handler : H) (data : D) :
    Decided firing body last (last.settle firing.timer firing.tick handler data) := by
  have tied := (run.preserves Transition.valid valid).tied
  have tells : (∀ step ∈ body, step.resets = false) →
      last.Awaits firing.timer firing.expiry (lastDecision? firing.timer body) := by
    intro kept
    have told := run.awaits_decision valid commands kept awaits
    rwa [Option.or_none] at told
  refine ⟨?_, ?_, ?_, ?_⟩
  · intro resets unwrapped
    obtain ⟨timer, found, _⟩ := awaits
    have absent := run.renews valid (.inl ⟨timer, found⟩) resets unwrapped
    rw [Scheduler.settle_of_absent absent]
    exact ⟨absent, rfl⟩
  · intro kept expiry decision
    obtain ⟨timer, found, _, told⟩ := tells kept
    rw [decision] at told
    obtain ⟨scheduled, rfl⟩ := told
    have ended : timer.ended = timer := by simp [Timer.ended, scheduled]
    have stands := Scheduler.settle_stands tied found firing.tick handler data
    rw [ended, scheduled, if_pos rfl] at stands
    exact ⟨stands, Scheduler.queue_settle found (by simp [Timer.again?, scheduled]) _ _ _⟩
  · intro kept decision
    obtain ⟨timer, found, _, told⟩ := tells kept
    rw [decision] at told
    have halted : timer.phase = .stopped := told
    have ended : timer.ended = timer := by simp [Timer.ended, halted]
    have stands := Scheduler.settle_stands tied found firing.tick handler data
    rw [ended, halted, if_neg (by simp)] at stands
    exact ⟨stands, Scheduler.queue_settle found (by simp [Timer.again?, halted]) _ _ _⟩
  · intro kept decision
    obtain ⟨timer, found, _, told⟩ := tells kept
    rw [decision] at told
    obtain ⟨marked, due⟩ := told
    have stands := Scheduler.settle_stands tied found firing.tick handler data
    refine ⟨timer.period, by rw [Scheduler.period?, Scheduler.view?, found]; rfl, ?_, ?_⟩
    · intro once
      have ended : timer.ended = { timer with phase := .fired } := by
        simp [Timer.ended, marked, once]
      rw [ended, if_neg (by simp)] at stands
      exact ⟨stands, Scheduler.queue_settle found (by simp [Timer.again?, once]) _ _ _⟩
    · intro periodic
      have ended : timer.ended = timer.started (timer.expiry.after timer.period) timer.period := by
        simp [Timer.ended, marked, periodic]
      rw [ended] at stands
      exact ⟨_, due ▸ Tick.toNat_after timer.expiry timer.period, stands⟩

end Decision

/-- Every entry that is due is dispatched to the end of its handler, and whatever the handler does,
the last of what it has decided about its timer comes about: a reset leaves nothing of the timer, a
start leaves it due as it was started, a stop leaves it off the schedule, and else the period that
it has by then tells whether it is armed again, counted from when it was due. -/
theorem handler_decides {config : Config} {past : List (Step H D)} {system : System H D W}
    {arming : Arming} {turn : UInt64} {popped : Scheduler H D}
    (reached : Run (.ofConfig config) past ⟨.between, system.scheduler⟩)
    (due : system.scheduler.popDue? = some (arming, turn, popped)) (react : Reaction H D W)
    (nested : Nat) :
    ∃ firing begun body ended handler data,
      firing.timer = arming.timer ∧ firing.expiry = arming.expiry ∧
      System.Handles react nested system firing begun body ended handler data ∧
      (∀ step ∈ body, ∃ given, step.action = .command given) ∧
      System.dispatch react (System.tryAdvance react nested) arming turn
          { system with scheduler := popped } =
        some (some firing, ended.settled firing handler data) ∧
      Decided firing body ended.scheduler (ended.settled firing handler data).scheduler := by
  have valid := reached.valid
  have paced : (⟨.between, system.scheduler⟩ : Moment H D).Paced :=
    reached.preserves Transition.paced (.ofConfig config)
  obtain ⟨firing, begun, body, ended, handler, data, timer, expiry, handles, dispatched⟩ :=
    System.dispatch_handles react nested valid paced due
  have commands : ∀ step ∈ body, ∃ given, step.action = .command given := by
    intro step member
    obtain ⟨given, same, _⟩ := handles.uses (fun _ _ _ => Program.uses_any _) step member
    exact ⟨given, same⟩
  have awaits : begun.scheduler.Awaits firing.timer firing.expiry none := by
    generalize lent : begun.scheduler = start
    have begins := handles.begins
    rw [lent] at begins
    cases begins with
    | dispatch due taken =>
      obtain ⟨timer, takes⟩ := valid.dispatch_takes due taken
      exact ⟨_, (takes.timers _).trans (if_pos rfl), rfl, rfl, takes.expiry⟩
  exact ⟨firing, begun, body, ended, handler, data, timer, expiry, handles, commands, dispatched,
    handles.steps.decided (handles.begins.valid valid) commands awaits handler data⟩

/-- A handler stops its timer, starts it again once, gives it a period and is refused to remove it.
The start counts. -/
theorem handler_decides_restarted :
    let restart : Reaction Unit Unit Unit := fun _ id _ => do
      let _ ← Program.stop id
      let _ ← Program.start id 4 false
      let _ ← Program.setPeriod id 7
      let _ ← Program.remove id
      return ((), ())
    ∃ (past : List (Step Unit Unit)) (system final : System Unit Unit Unit) (arming : Arming)
      (turn : UInt64) (popped : Scheduler Unit Unit) (firing : Firing),
      Run (.ofConfig {}) past ⟨.between, system.scheduler⟩ ∧
      system.scheduler.popDue? = some (arming, turn, popped) ∧
      System.dispatch restart (System.tryAdvance restart 0) arming turn
        { system with scheduler := popped } = some (some firing, final) ∧
      final.scheduler.Stands firing.timer .scheduled (some 5) := by
  intro restart
  let within (moment : Moment Unit Unit) : List (Step Unit Unit) :=
    ((restart () ⟨⟨0, 0⟩⟩ ()).steps moment.place (System.tryAdvance restart 0) (fun _ => [])
      ⟨moment.scheduler, ()⟩)
  have told : ((Moment.ofConfig {} : Moment Unit Unit).run?
      [.command (.add () ()), .command (.start ⟨⟨0, 0⟩⟩ 1 true), .beginAdvance]).map
      (fun made => (made.2.place, made.2.scheduler.popDue?.map (·.1.timer),
        (made.2.step? .dispatch).bind fun begun =>
          if (within begun).all (!·.resets) then lastDecision? ⟨⟨0, 0⟩⟩ (within begun) else none)) =
      some (.between, some ⟨⟨0, 0⟩⟩, some (.start 5)) := by decide +kernel
  obtain ⟨⟨past, ⟨place, scheduler⟩⟩, made, same⟩ := Option.map_eq_some_iff.mp told
  simp only [Prod.mk.injEq] at same
  obtain ⟨rfl, popped, begun⟩ := same
  obtain ⟨⟨⟨_, _⟩, turn, popped⟩, due, rfl⟩ := Option.map_eq_some_iff.mp popped
  obtain ⟨moment, begins, decision⟩ := Option.bind_eq_some_iff.mp begun
  split at decision
  next kept =>
    have run := Moment.run_of_run? made
    obtain ⟨⟨_, _, _, _⟩, _, _, _, _, _, rfl, _, handles, _, dispatched, decided⟩ :=
      @handler_decides _ _ _ _ past ⟨scheduler, ()⟩ _ turn popped run due restart 0
    obtain ⟨_, _, _, _, _, _, _, rfl⟩ := handles.runs
    cases begins.symm.trans (Moment.step?_eq_some_iff.mpr handles.begins)
    refine ⟨past, ⟨scheduler, ()⟩, _, _, turn, popped, _, run, due, dispatched, ?_⟩
    exact (decided.started (by simpa using kept) 5 decision).1
  next => cases decision

end Timers
