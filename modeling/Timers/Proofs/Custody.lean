import Timers.Proofs.Published
import Timers.Proofs.Registry
import Timers.Proofs.Schedule

/-! What is lent out comes back. A ledger follows what belongs to a timer: the handler that was
bound last, in the state in which its last run has left it, and the data with all that has been done
to them. The ledger is kept from what is asked for and from what handlers end with, without a look
at any record; and the records agree with it. -/

namespace Timers

variable {H D : Type}

/-- What belongs to a timer. While its handler runs, the ledger keeps in mind whether another one
has been bound since. -/
structure Belongings (H D : Type) where
  handler : H
  data : D
  rebound : Bool := false

/-- What belongs to a timer after a command, given which timer's handler is running. -/
def Command.entrust (given : Command H D) (scheduler : Scheduler H D) (running : Option TimerId)
    (id : TimerId) (held : Option (Belongings H D)) : Option (Belongings H D) :=
  match given with
  | .add handler data =>
    if (scheduler.add handler data).1 = id then some { handler, data } else held
  | .remove _ | .reset => if given.drops scheduler id then none else held
  | .rebind other handler =>
    if other = id then held.map ({ · with handler, rebound := true }) else held
  | .modifyData other change =>
    if other = id ∧ running ≠ some id then
      held.map fun held => { held with data := change held.data }
    else held
  | _ => held

/-- What belongs to a timer after a step. What its handler ends with is put back, but not over a
handler that was bound in the meantime. -/
def Step.entrust (id : TimerId) (held : Option (Belongings H D)) (step : Step H D) :
    Option (Belongings H D) :=
  match step.action, step.before.place with
  | .command given, place => given.entrust step.before.scheduler place.running? id held
  | .dispatch, _ => if step.fires id then held.map ({ · with rebound := false }) else held
  | .settle handler data, .inside firing =>
    if firing.timer = id then
      held.map fun held => { handler := if held.rebound then held.handler else handler, data }
    else held
  | _, _ => held

def belongings (id : TimerId) (steps : List (Step H D)) : Option (Belongings H D) :=
  steps.foldl (Step.entrust id) none

/-- Handler and data as they are in a timer's record. -/
def Scheduler.stored? (scheduler : Scheduler H D) (id : TimerId) : Option (Option H × Option D) :=
  (scheduler.timer? id).map fun timer => (timer.handler, timer.data)

/-- What of a timer's belongings is in its record. While its handler runs this is at most a handler
that has been bound since. -/
def Belongings.stored (held : Belongings H D) (out : Bool) : Option H × Option D :=
  if out then (if held.rebound then some held.handler else none, none)
  else (some held.handler, some held.data)

/-- The record of a timer agrees with the ledger. -/
def Moment.Keeps (moment : Moment H D) (id : TimerId) (held : Option (Belongings H D)) : Prop :=
  moment.scheduler.stored? id = held.map (·.stored (moment.place.running? = some id))

namespace Scheduler

variable {scheduler popped lent : Scheduler H D} {id other : TimerId} {timer : Timer H D}

private theorem data?_eq (scheduler : Scheduler H D) (id : TimerId) :
    scheduler.data? id = (scheduler.stored? id).bind (·.2) := by
  simp only [data?, view?, stored?]
  cases scheduler.timer? id <;> rfl

private theorem stored?_perform (tied : scheduler.Tied) (given : Command H D) (id : TimerId) :
    (scheduler.perform given).2.stored? id =
      match given with
      | .add handler data =>
        if (scheduler.add handler data).1 = id then some (some handler, some data)
        else scheduler.stored? id
      | .remove _ | .reset => if given.drops scheduler id then none else scheduler.stored? id
      | .rebind other handler =>
        if other = id then (scheduler.stored? id).map fun stored => (some handler, stored.2)
        else scheduler.stored? id
      | .modifyData other change =>
        if other = id then (scheduler.stored? id).map fun stored => (stored.1, stored.2.map change)
        else scheduler.stored? id
      | _ => scheduler.stored? id := by
  have revised := perform_revises tied given
  generalize (scheduler.perform given).2 = after at revised ⊢
  cases revised with
  | entered _ timers =>
    simp only [stored?, timers, eq_comm (a := id)]
    split <;> rfl
  | @rewritten _ other timer later found rewrites timers =>
    have stored : after.stored? id =
        if other = id then some (later.handler, later.data) else scheduler.stored? id := by
      simp only [stored?, timers, eq_comm (a := id)]
      split <;> rfl
    have old : other = id → scheduler.stored? id = some (timer.handler, timer.data) := by
      rintro rfl
      simp [stored?, found]
    rw [stored]
    cases rewrites with
    | start | stop | setPeriod =>
      split
      next same => exact (old same).symm
      next => rfl
    | rebind | modifyData =>
      dsimp only
      split
      next same => rw [old same, Option.map_some]
      next => rfl
  | missing names absent same =>
    subst same
    cases given with
    | rebind | modifyData =>
      cases names
      dsimp only
      split
      next same => simp [← same, stored?, absent]
      next => rfl
    | start | stop | setPeriod => rfl
    | _ => cases names
  | thinned thins timers =>
    cases given with
    | remove | reset =>
      rw [stored?, timers]
      split <;> rfl
    | _ => cases thins
  | fed feeds same =>
    have kept : after.stored? id = scheduler.stored? id := by
      rw [stored?, timer?, same]
      rfl
    cases given with
    | takeReporter | receive | drainEvents => exact kept
    | _ => cases feeds

private theorem stored?_settle (scheduler : Scheduler H D) (id other : TimerId) (tick : Tick)
    (handler : H) (data : D) :
    (scheduler.settle id tick handler data).stored? other =
      if other = id then
        (scheduler.stored? id).map fun stored => (some (stored.1.getD handler), some data)
      else scheduler.stored? other := by
  by_cases same : other = id
  · rw [if_pos same, same]
    cases found : scheduler.timer? id with
    | none =>
      have registered := scheduler.timer?_settle_isSome id id tick handler data
      have gone : (scheduler.settle id tick handler data).timer? id = none := by
        simpa [found] using registered
      simp [stored?, found, gone]
    | some timer =>
      obtain ⟨later, ended, timers⟩ := settle_ends found tick handler data
      simp [stored?, timers, found, ended.handler, ended.data]
  · rw [if_neg same, stored?, timer?_settle_of_ne same]
    rfl

end Scheduler

variable {action : Action H D} {before after first last : Moment H D} {steps : List (Step H D)}
  {id : TimerId} {held : Option (Belongings H D)}

namespace Moment

private theorem Keeps.congr {moment other : Moment H D} (keeps : moment.Keeps id held)
    (place : other.place.running? = moment.place.running?)
    (timers : other.scheduler.timers = moment.scheduler.timers) : other.Keeps id held := by
  simp only [Keeps, Scheduler.stored?, Scheduler.timer?, place, timers] at keeps ⊢
  exact keeps

private theorem Keeps.perform {place : Place} {scheduler : Scheduler H D}
    (keeps : (⟨place, scheduler⟩ : Moment H D).Keeps id held)
    (valid : (⟨place, scheduler⟩ : Moment H D).Valid)
    (loans : (⟨place, scheduler⟩ : Moment H D).Lends) (given : Command H D) :
    (⟨place, (scheduler.perform given).2⟩ : Moment H D).Keeps id
      (given.entrust scheduler place.running? id held) := by
  simp only [Keeps] at keeps ⊢
  rw [Scheduler.stored?_perform valid.tied]
  cases given with
  | add handler data =>
    simp only [Command.entrust]
    split
    next issued =>
      have other : place.running? ≠ some id := by
        intro running
        cases place with
        | inside firing =>
          have accounts : scheduler.Accounts firing.timer := loans.accounts rfl
          have same : firing.timer = id := Option.some.inj running
          rw [same, ← issued] at accounts
          exact scheduler.add_fresh handler data accounts
        | outside | between => cases running
      simp [Belongings.stored, other]
    next => exact keeps
  | remove | reset =>
    simp only [Command.entrust]
    split
    · rfl
    · exact keeps
  | rebind other handler =>
    simp only [Command.entrust]
    split
    · rw [keeps]
      cases held with
      | none => rfl
      | some held =>
        simp only [Option.map_some, Belongings.stored]
        split <;> rfl
    · exact keeps
  | modifyData other change =>
    simp only [Command.entrust]
    by_cases same : other = id
    · by_cases running : place.running? = some id
      · rw [if_pos same, if_neg (fun free => free.2 running), keeps]
        cases held <;> simp [Belongings.stored, running]
      · rw [if_pos same, if_pos ⟨same, running⟩, keeps]
        cases held <;> simp [Belongings.stored, running]
    · rw [if_neg same, if_neg (fun free => same free.1)]
      exact keeps
  | start | stop | setPeriod | takeReporter | receive | drainEvents => exact keeps

end Moment

namespace Scheduler

variable {scheduler popped lent : Scheduler H D} {arming : Arming} {turn : UInt64}

private theorem lend_stored {given : H × D}
    (valid : (⟨.between, scheduler⟩ : Moment H D).Valid)
    (due : scheduler.popDue? = some (arming, turn, popped))
    (taken : popped.lend arming.timer = (some given, lent)) :
    scheduler.stored? arming.timer = some (some given.1, some given.2) := by
  obtain ⟨timer, takes⟩ := valid.dispatch_takes due taken
  have found : popped.timer? arming.timer = some timer := by
    obtain ⟨queue, rfl⟩ := popDue?_eq due
    exact takes.found
  obtain ⟨handler, data⟩ := lend_gives found taken
  simp [stored?, takes.found, handler, data]

end Scheduler

theorem Transition.keeps (step : Transition action before after) (valid : before.Valid)
    (loans : before.Lends) (keeps : before.Keeps id held) :
    after.Keeps id (Step.entrust id held ⟨before, action, after⟩) := by
  cases step with
  | command given awake => exact keeps.perform valid loans given
  | beginAdvance begins =>
    obtain ⟨_, tick, _, rfl⟩ := Scheduler.beginAdvance_eq begins
    exact keeps.congr rfl rfl
  | @dispatch scheduler popped lent arming turn given due taken =>
    obtain ⟨timer, takes⟩ := valid.dispatch_takes due taken
    simp only [Moment.Keeps, Scheduler.stored?, takes.timers] at keeps ⊢
    by_cases same : id = arming.timer
    · subst same
      cases held with
      | none => simp [takes.found] at keeps
      | some held =>
        simp [Step.entrust, Step.fires, Step.firing?, Belongings.stored, Timer.lentOut, Place.running?]
    · have quiet : Step.entrust id held ⟨⟨.between, scheduler⟩, .dispatch,
          ⟨.inside ⟨arming.timer, lent.tick, arming.expiry, turn⟩, lent⟩⟩ = held := by
        simp [Step.entrust, Step.fires, Step.firing?, Ne.symm same]
      rw [quiet, if_neg same, keeps]
      simp [Place.running?, Ne.symm same]
  | skip due refused => exact absurd refused (valid.not_skipped due)
  | @settle firing scheduler handler data =>
    simp only [Moment.Keeps, Step.entrust, Scheduler.stored?_settle] at keeps ⊢
    by_cases same : id = firing.timer
    · rw [if_pos same, if_pos same.symm, ← same, keeps]
      cases held with
      | none => rfl
      | some held =>
        obtain ⟨kept, known, rebound⟩ := held
        cases rebound <;> simp [Belongings.stored, Place.running?, same]
    · rw [if_neg same, if_neg (Ne.symm same), keeps]
      simp [Place.running?, Ne.symm same]
  | endAdvance finished => exact keeps.congr rfl rfl

theorem Run.keeps (run : Run first steps last) (valid : first.Valid) (loans : first.Lends)
    (unwrapped : ∀ step ∈ steps, step.Unwrapped) (keeps : first.Keeps id held) :
    last.Keeps id (steps.foldl (Step.entrust id) held) := by
  induction run generalizing held with
  | nil => exact keeps
  | cons step _ ih =>
    obtain ⟨now, later⟩ := List.forall_mem_cons.mp unwrapped
    exact ih (step.valid valid) (step.lends valid loans now) later (step.keeps valid loans keeps)

private theorem Moment.Keeps.ofConfig (config : Config) (id : TimerId) :
    (Moment.ofConfig config : Moment H D).Keeps id none := by
  simp [Keeps, Scheduler.stored?, Moment.ofConfig, Scheduler.timer?_ofConfig]

section Reading

variable {scheduler : Scheduler H D} {place : Place} {owned : Belongings H D}

private theorem Moment.Keeps.home (keeps : (⟨place, scheduler⟩ : Moment H D).Keeps id (some owned))
    (idle : place.running? ≠ some id) :
    scheduler.stored? id = some (some owned.handler, some owned.data) :=
  keeps.trans (by simp [Belongings.stored, idle])

private theorem Moment.Keeps.out (keeps : (⟨place, scheduler⟩ : Moment H D).Keeps id held)
    (running : place.running? = some id) : scheduler.data? id = none := by
  rw [scheduler.data?_eq, keeps]
  cases held <;> simp [Belongings.stored, running]

private theorem Scheduler.modifyData_of_none (missing : scheduler.data? id = none)
    (change : D → D) : scheduler.modifyData id change = (none, scheduler) := by
  have same : scheduler.updateTimer id (fun timer => { timer with data := timer.data.map change }) =
      scheduler := by
    rw [updateTimer, Arena.modify_of_same]
    intro timer found
    have found : scheduler.timer? id = some timer := found
    have lent : timer.data = none := by simpa [data?, view?, found] using missing
    rw [lent, Option.map_none, ← lent]
  simp only [modifyData, same, missing]

private theorem Moment.Keeps.modifies (valid : (⟨place, scheduler⟩ : Moment H D).Valid)
    (keeps : (⟨place, scheduler⟩ : Moment H D).Keeps id (some owned))
    (idle : place.running? ≠ some id) (change : D → D) :
    (scheduler.modifyData id change).1 = some (change owned.data) := by
  have changed : (scheduler.modifyData id change).2.stored? id = _ :=
    Scheduler.stored?_perform valid.tied (.modifyData id change) id
  have reply : (scheduler.modifyData id change).1 =
      (scheduler.modifyData id change).2.data? id := rfl
  rw [reply, Scheduler.data?_eq, changed]
  simp [keeps.home idle]

private theorem Moment.Keeps.removes (valid : (⟨place, scheduler⟩ : Moment H D).Valid)
    (keeps : (⟨place, scheduler⟩ : Moment H D).Keeps id (some owned))
    (idle : place.running? ≠ some id) : (scheduler.remove id).1 = .ok owned.data := by
  obtain ⟨timer, found, stored⟩ := Option.map_eq_some_iff.mp (keeps.home idle)
  obtain ⟨handler, data⟩ := Prod.mk.inj stored
  obtain ⟨after, removed, _⟩ := Scheduler.remove_removes valid.tied found handler data
  rw [removed]

end Reading

/-- A handler that begins is given what belongs to its timer, and what it ends with is put back. -/
private theorem System.dispatch_entrusted {W : Type} {scheduler popped : Scheduler H D}
    {arming : Arming} {turn : UInt64} (valid : (⟨.between, scheduler⟩ : Moment H D).Valid)
    (keeps : (⟨.between, scheduler⟩ : Moment H D).Keeps arming.timer held)
    (due : scheduler.popDue? = some (arming, turn, popped)) :
    ∃ owned lent, held = some owned ∧
      popped.lend arming.timer = (some (owned.handler, owned.data), lent) ∧
      ∀ (react : Reaction H D W) nested shared,
        System.dispatch react nested arming turn ⟨popped, shared⟩ =
          ((react owned.handler arming.timer owned.data).run nested ⟨lent, shared⟩).map
            fun ((handler, data), ran) => (some ⟨arming.timer, lent.tick, arming.expiry, turn⟩,
              { ran with
                scheduler := ran.scheduler.settle arming.timer lent.tick handler data }) := by
  obtain ⟨timer, given, lent, lends, _⟩ := valid.dispatches due
  have stored := Scheduler.lend_stored valid due lends
  rw [keeps] at stored
  obtain ⟨owned, rfl, same⟩ := Option.map_eq_some_iff.mp stored
  obtain ⟨handler, data⟩ : owned.handler = given.1 ∧ owned.data = given.2 := by
    simpa [Belongings.stored, Place.running?] using same
  have whole : given = (owned.handler, owned.data) := by rw [handler, data]
  rw [whole] at lends
  exact ⟨owned, lent, rfl, lends, fun react nested shared => System.dispatch_of_lends lends⟩

/-- The ledger tells who is registered and what belongs to whom. Outside of a timer's handler all
of it is there, and it is what a removal gives back; inside the data can neither be read nor
changed. Whichever handler begins to run, it is the one of the ledger and is given the data of the
ledger, and what it ends with is put back. Nobody else is touched by that, and nobody at all if the
timer has been dropped by a reset meanwhile, for its id is not given to anybody else. -/
theorem belongings_come_back {W : Type} {config : Config} {moment : Moment H D}
    (run : Run (.ofConfig config) steps moment) (unwrapped : ∀ step ∈ steps, step.Unwrapped) :
    (∀ id, (moment.scheduler.timer? id).isSome = (belongings id steps).isSome) ∧
    (∀ id owned, belongings id steps = some owned → moment.place.running? ≠ some id →
      moment.scheduler.data? id = some owned.data ∧
      (∀ change, (moment.scheduler.modifyData id change).1 = some (change owned.data)) ∧
      (moment.scheduler.remove id).1 = .ok owned.data) ∧
    (∀ id, moment.place.running? = some id → moment.scheduler.data? id = none ∧
      ∀ change, moment.scheduler.modifyData id change = (none, moment.scheduler)) ∧
    (∀ arming turn popped, moment.place = .between →
      moment.scheduler.popDue? = some (arming, turn, popped) →
      ∃ owned lent, belongings arming.timer steps = some owned ∧
        popped.lend arming.timer = (some (owned.handler, owned.data), lent) ∧
        ∀ (react : Reaction H D W) nested shared,
          System.dispatch react nested arming turn ⟨popped, shared⟩ =
            ((react owned.handler arming.timer owned.data).run nested ⟨lent, shared⟩).map
              fun ((handler, data), ran) => (some ⟨arming.timer, lent.tick, arming.expiry, turn⟩,
                { ran with
                  scheduler := ran.scheduler.settle arming.timer lent.tick handler data })) ∧
    ∀ firing, moment.place = .inside firing →
      (∀ handler data, (moment.scheduler.add handler data).1 ≠ firing.timer) ∧
      ∀ handler data other,
        other ≠ firing.timer ∨ moment.scheduler.timer? firing.timer = none →
        (moment.scheduler.settle firing.timer firing.tick handler data).timer? other =
          moment.scheduler.timer? other := by
  have valid := run.valid
  have loans := run.lends (.ofConfig config) (.ofConfig config) unwrapped
  have keeps : ∀ id, moment.Keeps id (belongings id steps) := fun id =>
    run.keeps (.ofConfig config) (.ofConfig config) unwrapped (.ofConfig config id)
  obtain ⟨place, scheduler⟩ := moment
  refine ⟨fun id => ?_, fun id owned known idle => ?_, fun id running => ?_, ?_, ?_⟩
  · have same := congrArg Option.isSome (keeps id)
    simpa [Scheduler.stored?] using same
  · have keeps := known ▸ keeps id
    refine ⟨?_, keeps.modifies valid idle, keeps.removes valid idle⟩
    rw [scheduler.data?_eq, keeps.home idle]
    rfl
  · have missing := (keeps id).out running
    exact ⟨missing, Scheduler.modifyData_of_none missing⟩
  · rintro arming turn popped rfl due
    exact System.dispatch_entrusted valid (keeps arming.timer) due
  · intro firing inside
    refine ⟨fun handler data issued => ?_, fun handler data other untouched => ?_⟩
    · exact scheduler.add_fresh handler data (issued ▸ loans.accounts inside)
    · by_cases same : other = firing.timer
      · have absent := untouched.resolve_left (not_not_intro same)
        have registered := scheduler.timer?_settle_isSome firing.timer firing.timer firing.tick
          handler data
        rw [same, absent]
        simpa [absent] using registered
      · exact Scheduler.timer?_settle_of_ne same _ _ _

/-- A handler binds another one, and the data are changed from outside later. At the next expiry
the other handler is given the changed data. -/
theorem belongings_come_back_rebound :
    ∃ (steps : List (Step Nat Nat)) (moment : Moment Nat Nat) (arming : Arming) (turn : UInt64)
      (popped lent : Scheduler Nat Nat),
      Run (.ofConfig {}) steps moment ∧ moment.scheduler.popDue? = some (arming, turn, popped) ∧
      moment.scheduler.data? arming.timer = some 12 ∧
      popped.lend arming.timer = (some (9, 12), lent) := by
  let id : TimerId := ⟨⟨0, 0⟩⟩
  have told : ((Moment.ofConfig {} : Moment Nat Nat).run?
      [.command (.add 7 5), .command (.start id 1 true), .beginAdvance, .dispatch,
        .command (.rebind id 9), .command (.modifyData id (· + 100)), .settle 8 6, .endAdvance,
        .command (.modifyData id (2 * ·)), .beginAdvance]).map (fun made =>
      (made.1.length, made.2.place, (belongings id made.1).map fun owned => (owned.handler, owned.data),
        made.2.scheduler.popDue?.map fun due => due.1.timer)) =
      some (10, .between, some (9, 12), some id) := by decide +kernel
  obtain ⟨⟨steps, place, scheduler⟩, made, same⟩ := Option.map_eq_some_iff.mp told
  obtain ⟨length, rfl, entrusted, due⟩ : steps.length = 10 ∧ place = .between ∧
      (belongings id steps).map (fun owned => (owned.handler, owned.data)) = some (9, 12) ∧
      scheduler.popDue?.map (fun due => due.1.timer) = some id := by simpa using same
  obtain ⟨owned, known, same⟩ := Option.map_eq_some_iff.mp entrusted
  obtain ⟨handler, data⟩ := Prod.mk.inj same
  obtain ⟨⟨arming, turn, popped⟩, due, first⟩ := Option.map_eq_some_iff.mp due
  have known : belongings arming.timer steps = some owned := (congrArg (belongings · steps) first).trans known
  have run := Moment.run_of_run? made
  have unwrapped := run.unwrapped_of_short (by rw [length]; decide)
  obtain ⟨_, home, _, dispatches, _⟩ := belongings_come_back (W := Unit) run unwrapped
  obtain ⟨owned', lent, known', lends, _⟩ := dispatches arming turn popped rfl due
  obtain rfl : owned' = owned := Option.some.inj (known'.symm.trans known)
  refine ⟨steps, _, arming, turn, popped, lent, run, due, ?_, ?_⟩
  · rw [(home _ owned' known (by simp [Place.running?])).1, data]
  · rw [lends, handler, data]

section Wrapped

variable {scheduler : Scheduler H D} {index : Nat} {generation : UInt32} {next : Option Nat}

private theorem Scheduler.remove_add
    (vacant : scheduler.timers.vacancy? = some (index, generation, next)) (handler : H) (data : D) :
    ((scheduler.add handler data).2.remove ⟨⟨index, generation⟩⟩).2.timers.vacancy? =
      some (index, generation + 1, next) := by
  have issued := scheduler.timers.get?_insert_self { handler := some handler, data := some data }
  rw [Arena.insert_of_vacancy? vacant] at issued
  have found : (scheduler.add handler data).2.timer? ⟨⟨index, generation⟩⟩ =
      some { handler := some handler, data := some data } := by
    rw [add, Arena.insert_of_vacancy? vacant]
    exact issued
  simp only [remove, found, disarm]
  exact Arena.vacancy?_remove_insert vacant _

/-- A handler may use up the generations of a slot, one by one. -/
private theorem Run.ages (firing : Firing)
    (vacant : scheduler.timers.vacancy? = some (index, generation, next)) (handler : H) (data : D)
    (rounds : Nat) :
    ∃ steps left, Run ⟨.inside firing, scheduler⟩ steps ⟨.inside firing, left⟩ ∧
      left.timers.vacancy? = some (index, generation + UInt32.ofNat rounds, next) := by
  induction rounds generalizing scheduler generation with
  | zero => exact ⟨[], scheduler, .nil _, by simpa using vacant⟩
  | succ rounds ih =>
    obtain ⟨steps, left, run, later⟩ := ih (Scheduler.remove_add vacant handler data)
    refine ⟨_, left, .cons (.command (.add handler data) (by simp))
      (.cons (.command (.remove ⟨⟨index, generation⟩⟩) (by simp)) run), ?_⟩
    rw [later, UInt32.ofNat_add, UInt32.add_assoc, UInt32.add_comm 1]
    rfl

end Wrapped

/-- Inside its own handler a timer cannot be removed. And if the handler resets the scheduler and uses
up all generations of its slot, the next timer gets the old id, and the old data come back over its
own. -/
theorem belongings_come_back_wrapped :
    ∃ (past rounds : List (Step Nat Nat)) (firing : Firing) (within left : Scheduler Nat Nat),
      Run (.ofConfig {}) past ⟨.inside firing, within⟩ ∧
      (within.timer? firing.timer).isSome ∧
      within.remove firing.timer = (.error (.firing firing.timer), within) ∧
      Run ⟨.inside firing, within.reset⟩ rounds ⟨.inside firing, left⟩ ∧
      left.timer? firing.timer = none ∧
      (left.add 8 9).1 = firing.timer ∧ (left.add 8 9).2.data? firing.timer = some 9 ∧
      ((left.add 8 9).2.settle firing.timer firing.tick 7 6).data? firing.timer = some 6 := by
  let firing : Firing := ⟨⟨⟨0, 0⟩⟩, 1, 1, 0⟩
  have told : ((Moment.ofConfig {} : Moment Nat Nat).run?
      [.command (.add 7 5), .command (.start ⟨⟨0, 0⟩⟩ 1 true), .beginAdvance, .dispatch]).map
      (fun made => (made.2.place,
        decide (made.2.scheduler.reset.timers.vacancy? = some (0, 1, none)),
        (made.2.scheduler.timer? firing.timer).any (·.data.isNone))) =
      some (.inside firing, true, true) := by decide +kernel
  obtain ⟨⟨past, place, within⟩, made, same⟩ := Option.map_eq_some_iff.mp told
  simp only [Prod.mk.injEq] at same
  obtain ⟨rfl, vacant, lent⟩ := same
  obtain ⟨timer, found, lent⟩ := (Option.any_eq_true _ _).mp lent
  -- with as many rounds as bring the generation back to 0
  obtain ⟨rounds, left, run, wrapped⟩ :=
    Run.ages firing (of_decide_eq_true vacant) 8 9 4294967295
  have wrapped : left.timers.vacancy? = some (0, 0, none) := wrapped
  have issued := Arena.insert_of_vacancy? wrapped { handler := some 8, data := some 9 }
  have fresh := left.timers.entryAt?_of_insert { handler := some 8, data := some 9 }
  have added := left.timers.get?_insert_self { handler := some 8, data := some 9 }
  rw [issued] at fresh added
  have stored : (left.add 8 9).2.stored? firing.timer = some (some 8, some 9) := by
    simp only [Scheduler.stored?, Scheduler.add, issued, Scheduler.timer?]
    rw [added]
    rfl
  refine ⟨past, rounds, firing, within, left, Moment.run_of_run? made, by rw [found]; rfl,
    Scheduler.remove_of_lent found (.inr (Option.isNone_iff_eq_none.mp lent)), run, ?_, ?_, ?_, ?_⟩
  · simp [Scheduler.timer?, Arena.get?, fresh, firing]
  · rw [Scheduler.add, issued]
  · rw [Scheduler.data?_eq, stored]
    rfl
  · rw [Scheduler.data?_eq, Scheduler.stored?_settle, if_pos rfl, stored]
    rfl

end Timers
