import Timers.Proofs.Executions
import Timers.Proofs.Lockstep
import Timers.Proofs.Shapes

/-! Two systems that are alike but for one timer. In the one it may be scheduled and its handler may
run; in the other nobody ever sets it. As long as what is done to it is done to nothing else, the
other timers cannot tell: they have the same records and come in the same order, and a timer that is
added gets the same id. -/

namespace Timers

variable {H D W α : Type}

/-- Whether a command sets a timer, but not removes it. -/
def Command.sets (given : Command H D) (id : TimerId) : Bool :=
  match given with
  | .start other _ _ | .stop other | .rebind other _ | .setPeriod other _ | .modifyData other _ =>
    other = id
  | _ => false

def Request.sets (operation : Request H D W) (id : TimerId) : Bool :=
  match operation with
  | .command given => given.sets id
  | _ => false

/-- A request that is about one timer and changes no other, or looks at the summary. -/
def Request.Own (id : TimerId) (operation : Request H D W) : Prop :=
  operation = .query .summary ∨ operation = .query (.timer id) ∨ operation.sets id = true

/-- Replies that are the same. Of a summary only the tick counts. -/
def Request.Same : (operation : Request H D W) → operation.Reply → operation.Reply → Prop
  | .query .summary, (summary : Summary), (summary' : Summary) => summary.tick = summary'.tick
  | _, reply, reply' => reply = reply'

/-- Whatever the replies are, the program is about nothing but one timer and the tick. -/
def Program.Minds (id : TimerId) : Program H D W α → Prop
  | .done _ => True
  | .request operation next => operation.Own id ∧
      (∀ {reply reply'}, operation.Same reply reply' → next reply = next reply') ∧
      ∀ reply, (next reply).Minds id

/-- The timers but one, each known to be itself. -/
def Others (gone id other : TimerId) : Prop := id = other ∧ id ≠ gone

/-- The runs of handlers, but for those of one timer: of which timer, at which tick, and when the
timer was due. -/
def calls (gone : TimerId) (told : List Firing) : List (TimerId × Tick × Tick) :=
  (told.filter (·.timer ≠ gone)).map fun firing => (firing.timer, firing.tick, firing.expiry)

theorem calls_append (gone : TimerId) (told later : List Firing) :
    calls gone (told ++ later) = calls gone told ++ calls gone later := by
  simp only [calls, List.filter_append, List.map_append]

/-- Two systems that differ in nothing but one timer. -/
structure Apart (gone : TimerId) (place place' : Place) (system system' : System H D W) : Prop where
  valid : (⟨place, system.scheduler⟩ : Moment H D).Valid
  valid' : (⟨place', system'.scheduler⟩ : Moment H D).Valid
  shared : system.shared = system'.shared
  shape : system.scheduler.shape = system'.scheduler.shape
  alike : Alike (Others gone) system.scheduler system'.scheduler

private theorem TimerError.refused_injective {error error' : TimerError}
    (same : (.refused (error.refusal fun id => id) : Told TimerId D) =
      .refused (error'.refusal fun id => id)) : error = error' := by
  cases error <;> cases error' <;> cases same <;> rfl

namespace Command

variable {given : Command H D} {id : TimerId}

private theorem plain_of_sets (sets : given.sets id = true) : given.feeds = false := by
  cases given with
  | takeReporter | receive | drainEvents => cases sets
  | _ => rfl

/-- But for what comes through the feed everything is told. -/
theorem told_injective (plain : given.feeds = false) {reply reply' : given.Reply}
    (same : given.told (fun id => id) reply = given.told (fun id => id) reply') :
    reply = reply' := by
  cases given with
  | add handler data => exact Told.added.inj same
  | start other delay periodic | rebind other handler | setPeriod other period =>
    cases reply with
    | ok =>
      cases reply' with
      | ok => rfl
      | error => cases same
    | error error =>
      cases reply' with
      | ok => cases same
      | error error' =>
        exact congrArg Except.error (TimerError.refused_injective same)
  | stop other =>
    cases reply with
    | ok wasScheduled =>
      cases reply' with
      | ok wasScheduled' => exact congrArg Except.ok (Told.halted.inj same)
      | error => cases same
    | error error =>
      cases reply' with
      | ok => cases same
      | error error' =>
        exact congrArg Except.error (TimerError.refused_injective same)
  | remove other =>
    cases reply with
    | ok data =>
      cases reply' with
      | ok data' => exact congrArg Except.ok (Told.removed.inj same)
      | error => cases same
    | error error =>
      cases reply' with
      | ok => cases same
      | error error' =>
        exact congrArg Except.error (TimerError.refused_injective same)
  | modifyData other change => exact Told.changed.inj same
  | reset => rfl
  | takeReporter | receive | drainEvents => cases plain

private theorem sets_single {other : TimerId} (sets : given.sets id = true)
    (sets' : given.sets other = true) : id = other := by
  cases given with
  | start | stop | rebind | setPeriod | modifyData =>
    exact (of_decide_eq_true sets).symm.trans (of_decide_eq_true sets')
  | _ => cases sets

private theorem matches_self {gone : TimerId} (elsewhere : given.sets gone = false)
    (kept : given ≠ .remove gone) :
    (∃ handler data, given = .add handler data) ∨ given.Matches (Others gone) given := by
  cases given with
  | add handler data => exact .inl ⟨handler, data, rfl⟩
  | start other delay periodic => exact .inr (.start ⟨rfl, of_decide_eq_false elsewhere⟩ delay periodic)
  | stop other => exact .inr (.stop ⟨rfl, of_decide_eq_false elsewhere⟩)
  | rebind other handler => exact .inr (.rebind ⟨rfl, of_decide_eq_false elsewhere⟩ handler)
  | setPeriod other period => exact .inr (.setPeriod ⟨rfl, of_decide_eq_false elsewhere⟩ period)
  | modifyData other change => exact .inr (.modifyData ⟨rfl, of_decide_eq_false elsewhere⟩ change)
  | remove other => exact .inr (.remove ⟨rfl, fun same => kept (congrArg Command.remove same)⟩)
  | reset => exact .inr .reset
  | takeReporter | receive | drainEvents => exact .inr (.feed rfl)

end Command

namespace Scheduler

variable {scheduler first second : Scheduler H D} {id : TimerId}

private theorem timer?_perform_sets (tied : scheduler.Tied) {given : Command H D}
    (sets : given.sets id = true) {other : TimerId} (apart : other ≠ id) :
    (scheduler.perform given).2.timer? other = scheduler.timer? other := by
  have update : ∀ change : Timer H D → Timer H D,
      (scheduler.updateTimer id change).timer? other = scheduler.timer? other := fun change =>
    (timer?_updateTimer scheduler id other change).trans (if_neg apart)
  cases given with
  | start any delay periodic =>
    obtain rfl : any = id := of_decide_eq_true sets
    cases found : scheduler.timer? any with
    | none => rw [perform, start_of_absent found]
    | some timer =>
      obtain ⟨after, node, started, _, timers, _⟩ := start_starts tied found delay periodic
      rw [perform, started, timers, if_neg apart]
  | stop any =>
    obtain rfl : any = id := of_decide_eq_true sets
    cases found : scheduler.timer? any with
    | none => rw [perform, stop_of_absent found]
    | some timer =>
      obtain ⟨after, stopped, _, timers, _⟩ := stop_stops tied found
      rw [perform, stopped, timers, if_neg apart]
  | rebind any handler =>
    obtain rfl : any = id := of_decide_eq_true sets
    simp only [perform, rebind]
    split
    · rfl
    · exact update _
  | setPeriod any period =>
    obtain rfl : any = id := of_decide_eq_true sets
    simp only [perform, setPeriod]
    split
    · rfl
    · exact update _
  | modifyData any change =>
    obtain rfl : any = id := of_decide_eq_true sets
    exact update _
  | _ => cases sets

private theorem reshaped_of_sets (scheduler : Scheduler H D) {given : Command H D}
    (sets : given.sets id = true) : scheduler.reshaped given = scheduler.shape := by
  cases given with
  | add | remove | reset => cases sets
  | _ => rfl

theorem reshaped_congr (shape : first.shape = second.shape) {given : Command H D}
    (told : given.told (fun id => id) (first.perform given).1 =
      given.told (fun id => id) (second.perform given).1) :
    first.reshaped given = second.reshaped given := by
  cases given with
  | remove id =>
    have succeeds : (first.remove id).1.isOk = (second.remove id).1.isOk := by
      simp only [perform] at told
      cases reply : (first.remove id).1 with
      | ok =>
        cases reply' : (second.remove id).1 with
        | ok => rfl
        | error =>
          rw [reply, reply'] at told
          cases told
      | error =>
        cases reply' : (second.remove id).1 with
        | ok =>
          rw [reply, reply'] at told
          cases told
        | error => rfl
    simp only [reshaped, shape, succeeds]
  | _ => simp only [reshaped, shape]

theorem add_id (shape : first.shape = second.shape) (handler : H) (data : D) :
    (first.add handler data).1 = (second.add handler data).1 := by
  have issued : ∀ scheduler : Scheduler H D, (scheduler.add handler data).1 =
      ⟨(scheduler.shape.insert .blank).1⟩ := fun scheduler =>
    congrArg (fun inserted => TimerId.mk inserted.1)
      (Arena.mapAll_insert scheduler.timers
        { handler := some handler, data := some data } fun _ => .blank).symm
  rw [issued, issued, shape]

end Scheduler

namespace Apart

variable {gone : TimerId} {place place' : Place} {system system' : System H D W}

theorem command (apart : Apart gone place place' system system') (awake : place ≠ .between)
    (awake' : place' ≠ .between) (given : Command H D) (elsewhere : given.sets gone = false)
    (kept : given ≠ .remove gone)
    (onward : system.scheduler.queue.nextTurn ≤ (system.scheduler.perform given).2.queue.nextTurn) :
    given.told (fun id => id) (system.scheduler.perform given).1 =
        given.told (fun id => id) (system'.scheduler.perform given).1 ∧
      Apart gone place place' { system with scheduler := (system.scheduler.perform given).2 }
        { system' with scheduler := (system'.scheduler.perform given).2 } := by
  obtain ⟨told, alike⟩ : given.told (fun id => id) (system.scheduler.perform given).1 =
      given.told (fun id => id) (system'.scheduler.perform given).1 ∧
      Alike (Others gone) (system.scheduler.perform given).2 (system'.scheduler.perform given).2 := by
    rcases Command.matches_self elsewhere kept with ⟨handler, data, rfl⟩ | same
    · have issued := Scheduler.add_id apart.shape handler data
      refine ⟨congrArg Told.added issued, apart.alike.adds handler data ?_⟩
      intro id other others
      rw [← issued, others.1]
    · exact apart.alike.perform same And.left onward
  refine ⟨told, (Transition.command given awake).valid apart.valid,
    (Transition.command given awake').valid apart.valid', apart.shared, ?_, alike⟩
  rw [Scheduler.shape_perform, Scheduler.shape_perform]
  exact Scheduler.reshaped_congr apart.shape told

private theorem hidden (apart : Apart gone place place' system system') (awake : place ≠ .between)
    (given : Command H D) (sets : given.sets gone = true)
    (onward : system.scheduler.queue.nextTurn ≤ (system.scheduler.perform given).2.queue.nextTurn) :
    Apart gone place place' { system with scheduler := (system.scheduler.perform given).2 }
      system' := by
  have tied := apart.valid.tied
  refine ⟨(Transition.command given awake).valid apart.valid, apart.valid', apart.shared, ?_, ?_⟩
  · rw [Scheduler.shape_perform, Scheduler.reshaped_of_sets _ sets]
    exact apart.shape
  · apply apart.alike.hide (Scheduler.perform_changes tied given).effect _ onward
    · have clock := system.scheduler.clock_perform given
      cases given with
      | reset => cases sets
      | _ => exact clock
    · intro id other others
      have same : id ≠ gone := others.2
      simp only [Scheduler.bare?]
      rw [Scheduler.timer?_perform_sets tied sets same]
    · intro arming any armed others
      obtain ⟨id, starts, told⟩ := Option.bind_eq_some_iff.mp armed
      obtain ⟨_, _, rfl⟩ := Option.map_eq_some_iff.mp told
      apply others.2
      cases given with
      | start any delay periodic =>
        simp only [Command.starts?] at starts
        split at starts
        · cases starts
          exact of_decide_eq_true sets
        · cases starts
      | _ => cases starts

private theorem own (apart : Apart gone place place' system system') (awake : place ≠ .between)
    (awake' : place' ≠ .between) {id : TimerId} {operation : Request H D W}
    (owns : operation.Own id) (other : id ≠ gone) {advance advance' : Advance H D W}
    {advancing : System H D W → List (Step H D)} {reply : operation.Reply} {after : System H D W}
    (performed : system.perform advance operation = some (reply, after))
    (onward : ∀ step ∈ operation.steps place advancing system, step.Onward) :
    ∃ reply' after', system'.perform advance' operation = some (reply', after') ∧
      operation.Same reply reply' ∧ Apart gone place place' after after' := by
  rcases owns with rfl | rfl | sets
  · cases performed
    have tick : system.scheduler.tick = system'.scheduler.tick := congrArg Prod.fst apart.alike.clock
    exact ⟨_, _, rfl, tick, apart⟩
  · cases performed
    exact ⟨_, _, rfl, apart.alike.view? ⟨rfl, other⟩, apart⟩
  · cases operation with
    | command given =>
      cases performed
      have elsewhere : given.sets gone = false := by
        apply Bool.eq_false_iff.mpr
        exact fun set => other (Command.sets_single sets set)
      have kept : given ≠ .remove gone := by
        rintro rfl
        cases sets
      obtain ⟨told, after⟩ := apart.command awake awake' given elsewhere kept
        (onward _ List.mem_cons_self)
      exact ⟨_, _, rfl, Command.told_injective (Command.plain_of_sets sets) told, after⟩
    | query | advance | shared => cases sets

theorem own_hidden (apart : Apart gone place place' system system') (awake : place ≠ .between)
    {operation : Request H D W} (owns : operation.Own gone) {advance : Advance H D W}
    {advancing : System H D W → List (Step H D)} {reply : operation.Reply} {after : System H D W}
    (performed : system.perform advance operation = some (reply, after))
    (onward : ∀ step ∈ operation.steps place advancing system, step.Onward) :
    Apart gone place place' after system' := by
  rcases owns with rfl | rfl | sets
  · cases performed
    exact apart
  · cases performed
    exact apart
  · cases operation with
    | command given =>
      cases performed
      exact apart.hidden awake given sets (onward _ List.mem_cons_self)
    | query | advance | shared => cases sets

private theorem run (apart : Apart gone place place' system system') (awake : place ≠ .between)
    (awake' : place' ≠ .between) {id : TimerId} (other : id ≠ gone) {program : Program H D W α}
    (minds : program.Minds id) {advance advance' : Advance H D W}
    {advancing : System H D W → List (Step H D)} {value : α} {final : System H D W}
    (finished : program.run advance system = some (value, final))
    (onward : ∀ step ∈ program.steps place advance advancing system, step.Onward) :
    ∃ final', program.run advance' system' = some (value, final') ∧
      Apart gone place place' final final' := by
  induction program generalizing system system' with
  | done =>
    cases finished
    exact ⟨system', rfl, apart⟩
  | request operation next ih =>
    obtain ⟨owns, blurred, minds⟩ := minds
    rw [Program.run] at finished ⊢
    rw [Program.steps] at onward
    obtain ⟨now, later⟩ := List.forall_mem_append.mp onward
    split at finished
    · cases finished
    next reply after performed =>
      rw [performed] at later
      obtain ⟨reply', after', performed', same, apart⟩ :=
        apart.own awake awake' owns other performed now
      rw [performed']
      dsimp only at later ⊢
      rw [← blurred same]
      exact ih reply apart (minds reply) finished later

private theorem run_hidden (apart : Apart gone place place' system system')
    (awake : place ≠ .between)
    {program : Program H D W α} (minds : program.Minds gone) {advance : Advance H D W}
    {advancing : System H D W → List (Step H D)} {value : α} {final : System H D W}
    (finished : program.run advance system = some (value, final))
    (onward : ∀ step ∈ program.steps place advance advancing system, step.Onward) :
    Apart gone place place' final system' := by
  induction program generalizing system with
  | done =>
    cases finished
    exact apart
  | request operation next ih =>
    obtain ⟨owns, _, minds⟩ := minds
    rw [Program.run] at finished
    rw [Program.steps] at onward
    obtain ⟨now, later⟩ := List.forall_mem_append.mp onward
    split at finished
    · cases finished
    next reply after performed =>
      rw [performed] at later
      exact ih reply (apart.own_hidden awake owns performed now) (minds reply) finished later

private theorem settle {firing firing' : Firing}
    (apart : Apart gone (.inside firing) (.inside firing') system system')
    (same : firing.timer = firing'.timer) (other : firing.timer ≠ gone) (handler : H) (data : D)
    (onward : system.scheduler.queue.nextTurn ≤
      (system.scheduler.settle firing.timer firing.tick handler data).queue.nextTurn) :
    Apart gone .between .between
      { system with scheduler := system.scheduler.settle firing.timer firing.tick handler data }
      { system' with scheduler := system'.scheduler.settle firing'.timer firing'.tick handler data } := by
  have ends : Transition (.settle handler data) ⟨.inside firing, system.scheduler⟩ _ :=
    .settle handler data
  have ends' : Transition (.settle handler data) ⟨.inside firing', system'.scheduler⟩ _ :=
    .settle handler data
  refine ⟨ends.valid apart.valid, ends'.valid apart.valid', apart.shared,
    ends.shape.trans (apart.shape.trans ends'.shape.symm), ?_⟩
  exact apart.alike.settles ⟨same, other⟩ firing.tick firing'.tick handler data onward

private theorem settle_hidden {firing : Firing}
    (apart : Apart gone (.inside firing) place' system system')
    (hidden : firing.timer = gone) (handler : H) (data : D)
    (onward : system.scheduler.queue.nextTurn ≤
      (system.scheduler.settle firing.timer firing.tick handler data).queue.nextTurn) :
    Apart gone .between place'
      { system with scheduler := system.scheduler.settle firing.timer firing.tick handler data }
      system' := by
  have ends : Transition (.settle handler data) ⟨.inside firing, system.scheduler⟩ _ :=
    .settle handler data
  refine ⟨ends.valid apart.valid, apart.valid', apart.shared, ends.shape.trans apart.shape, ?_⟩
  have unknown : ∀ {any}, ¬ Others gone firing.timer any := fun others => others.2 hidden
  exact apart.alike.settles_hidden unknown firing.tick handler data onward

section Advances

variable {react : Reaction H D W} {nested : Advance H D W} {final : System H D W}

section Dispatch

variable (apart : Apart gone .between .between system system') {arming : Arming}
  (minds : ∀ handler data, (react handler arming.timer data).Minds arming.timer)
  {turn : UInt64} {popped : Scheduler H D}
  (due : system.scheduler.popDue? = some (arming, turn, popped)) {told : Option Firing}
  (dispatched : System.dispatch react nested arming turn { system with scheduler := popped } =
    some (told, final))
  (onward : ∀ step ∈ System.dispatchSteps react nested arming turn popped system, step.Onward)

include apart minds due dispatched onward

private theorem dispatch (other : arming.timer ≠ gone) :
    ∃ turn' popped' told' final', system'.scheduler.popDue? = some (arming, turn', popped') ∧
      System.dispatch react nested arming turn' { system' with scheduler := popped' } =
        some (told', final') ∧
      calls gone told.toList = calls gone told'.toList ∧
      Apart gone .between .between final final' := by
  obtain ⟨timer, ⟨handler, data⟩, lent, lends, taken⟩ := apart.valid.dispatches due
  obtain ⟨turn', popped', lent', due', lends', alike⟩ :=
    apart.alike.dispatches apart.valid due apart.valid' ⟨rfl, other⟩ lends
  have dispatches := Transition.dispatch due lends
  have dispatches' := Transition.dispatch due' lends'
  have begun : Apart gone (.inside ⟨arming.timer, lent.tick, arming.expiry, turn⟩)
      (.inside ⟨arming.timer, lent'.tick, arming.expiry, turn'⟩)
      { system with scheduler := lent } { system' with scheduler := lent' } :=
    ⟨dispatches.valid apart.valid, dispatches'.valid apart.valid', apart.shared,
      dispatches.shape.trans (apart.shape.trans dispatches'.shape.symm), alike⟩
  have tick : lent.tick = lent'.tick := congrArg Prod.fst alike.clock
  obtain ⟨handler', data', ran, finished, rfl, rfl, steps⟩ := System.dispatch_settles lends dispatched
  rw [steps] at onward
  obtain ⟨now, later⟩ := List.forall_mem_append.mp (List.forall_mem_cons.mp onward).2
  obtain ⟨ran', finished', after⟩ :=
    begun.run (by simp) (by simp) other (minds handler data) finished now
  have turns := later _ List.mem_cons_self
  refine ⟨turn', popped', some ⟨arming.timer, lent'.tick, arming.expiry, turn'⟩, _, due', ?_, ?_,
    after.settle rfl other handler' data' turns⟩
  · rw [System.dispatch_of_lends lends', finished']
    rfl
  · simp [calls, other, tick]

private theorem dispatch_hidden (hidden : arming.timer = gone) :
    calls gone told.toList = [] ∧ Apart gone .between .between final system' := by
  have unknown : ∀ {any}, ¬ Others gone arming.timer any := fun others => others.2 hidden
  obtain ⟨timer, ⟨handler, data⟩, lent, lends, taken⟩ := apart.valid.dispatches due
  have dispatches := Transition.dispatch due lends
  have begun : Apart gone (.inside ⟨arming.timer, lent.tick, arming.expiry, turn⟩) .between
      { system with scheduler := lent } system' :=
    ⟨dispatches.valid apart.valid, apart.valid', apart.shared, dispatches.shape.trans apart.shape,
      apart.alike.dispatches_hidden apart.valid due unknown lends⟩
  obtain ⟨handler', data', ran, finished, rfl, rfl, steps⟩ := System.dispatch_settles lends dispatched
  rw [steps] at onward
  obtain ⟨now, later⟩ := List.forall_mem_append.mp (List.forall_mem_cons.mp onward).2
  have after := begun.run_hidden (by simp) (hidden ▸ minds handler data) finished now
  have turns := later _ List.mem_cons_self
  exact ⟨by simp [calls, hidden], after.settle_hidden hidden handler' data' turns⟩

end Dispatch

variable (minds : ∀ handler id data, (react handler id data).Minds id)

include minds

/-- The entries of the other timers are handled alike, and those of the one are handled in the
first only. The second has no more entries to handle. -/
theorem drain (apart : Apart gone .between .between system system') {fuel : Nat}
    {told : List Firing} (drained : System.drain react nested fuel system = some (told, final))
    (onward : ∀ step ∈ System.drainSteps react nested fuel system, step.Onward) :
    ∃ told' final', System.drain react nested fuel system' = some (told', final') ∧
      calls gone told = calls gone told' ∧ Apart gone .between .between final final' := by
  rw [← System.drained_iff] at drained
  induction drained generalizing system' with
  | idle nothing =>
    have nothing' := apart.alike.finished apart.valid' nothing
    exact ⟨[], system', System.drain_of_idle nothing', rfl, apart⟩
  | @entry fuel system after final arming turn popped firing rest due dispatched onwards ih =>
    rw [System.drainSteps_of_due due dispatched] at onward
    obtain ⟨now, later⟩ := List.forall_mem_append.mp onward
    by_cases hidden : arming.timer = gone
    · -- The second has nothing to handle, so it keeps what it may spend.
      obtain ⟨silent, apart⟩ := apart.dispatch_hidden (minds · _ ·) due dispatched now hidden
      obtain ⟨rest', final', drained', same, apart⟩ := ih apart later
      have more := System.drain_extends (fun _ _ same => same) (Nat.le_succ fuel) drained'
      refine ⟨rest', final', more, ?_, apart⟩
      rw [calls_append, silent, same]
      rfl
    · obtain ⟨turn', popped', told', after', due', dispatched', equal, apart⟩ :=
        apart.dispatch (minds · _ ·) due dispatched now hidden
      obtain ⟨rest', final', drained', same, apart⟩ := ih apart later
      refine ⟨told'.toList ++ rest', final', ?_, ?_, apart⟩
      · rw [← System.drained_iff] at drained' ⊢
        exact .entry due' dispatched' drained'
      · rw [calls_append, calls_append, equal, same]

theorem advance (apart : Apart gone .outside .outside system system') {fuel : Nat}
    {reply : Except TimerError (List Firing)}
    (advanced : System.tryAdvance react fuel system = some (reply, final))
    (onward : ∀ step ∈ System.advanceSteps react fuel system, step.Onward) :
    ∃ reply' final', System.tryAdvance react fuel system' = some (reply', final') ∧
      reply.map (calls gone) = reply'.map (calls gone) ∧
      Apart gone .outside .outside final final' := by
  rcases apart.alike.begins with ⟨error, refused, refused'⟩ | ⟨begun, begun', begins, begins', alike⟩
  · cases (System.tryAdvance_of_refused refused).symm.trans advanced
    exact ⟨_, _, System.tryAdvance_of_refused refused', rfl, apart⟩
  · cases System.advanced_iff.mpr advanced with
    | refused refused => cases begins.symm.trans refused
    | made starts done =>
      cases begins.symm.trans starts
      rw [System.advanceSteps, begins] at onward
      have starts := Transition.beginAdvance begins
      have starts' := Transition.beginAdvance begins'
      have started : Apart gone .between .between { system with scheduler := begun }
          { system' with scheduler := begun' } :=
        ⟨starts.valid apart.valid, starts'.valid apart.valid', apart.shared,
          starts.shape.trans (apart.shape.trans starts'.shape.symm), alike⟩
      obtain ⟨now, _⟩ := List.forall_mem_append.mp (List.forall_mem_cons.mp onward).2
      obtain ⟨told', drained', done', same, after⟩ := started.drain minds done now
      have ends := Transition.endAdvance (System.drain_finishes done)
      have ends' := Transition.endAdvance (System.drain_finishes done')
      refine ⟨_, _, System.advanced_iff.mp (.made begins' done'), congrArg Except.ok same,
        ends.valid after.valid, ends'.valid after.valid', after.shared, ?_, after.alike.ends⟩
      exact ends.shape.trans (after.shape.trans ends'.shape.symm)

end Advances

end Apart

end Timers
