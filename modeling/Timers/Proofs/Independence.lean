import Timers.Proofs.Seclusion

/-! Timers do not disturb each other. If every handler minds its own timer, then what is done to
one timer makes no difference to the others, as long as it is not removed: when it is left idle
instead, they are called back at the same ticks and in the same order, and whatever is asked about
them is answered in the same way. -/

namespace Timers

variable {H D W : Type}

/-- What the reply to a request tells about the timers but one. -/
inductive Report (D W : Type) where
  | silent
  | timer (view : Option (TimerView D))
  | told (told : Told TimerId D)
  | advanced (outcome : Except TimerError (List (TimerId × Tick × Tick)))
  | shared (before : W)

def Request.report (gone : TimerId) : (operation : Request H D W) → operation.Reply → Report D W
  | .query (.timer id), view => if id = gone then .silent else .timer view
  | .query _, _ => .silent
  | .command given, reply => .told (given.told (fun id => id) reply)
  | .advance, (reply : Except TimerError (List Firing)) => .advanced (reply.map (calls gone))
  | .shared _, before => .shared before

namespace Stage

def report (gone : TimerId) (stage : Stage H D W) : Report D W :=
  stage.operation.report gone stage.reply

def told : Stage H D W → List Firing
  | ⟨.advance, .ok firings, _⟩ => firings
  | _ => []

def removes (id : TimerId) : Stage H D W → Bool
  | ⟨.command (.remove other), .ok _, _⟩ => other = id
  | _ => false

/-- The same operation has been done, and only the one timer can tell the difference. -/
structure Agrees (gone : TimerId) (stage stage' : Stage H D W) : Prop where
  operation : stage.operation = stage'.operation
  report : stage.report gone = stage'.report gone
  tick : stage.after.scheduler.tick = stage'.after.scheduler.tick
  shared : stage.after.shared = stage'.after.shared
  views : ∀ id, id ≠ gone → stage.after.scheduler.view? id = stage'.after.scheduler.view? id

variable {gone : TimerId} {operation : Request H D W} {reply reply' : operation.Reply}
  {after after' : System H D W}

private theorem told_of_sets (sets : operation.sets gone = true) :
    told ⟨operation, reply, after⟩ = [] := by
  cases operation with
  | advance => cases sets
  | query | command | shared => rfl

private theorem calls_of_report
    (same : operation.report gone reply = operation.report gone reply') :
    calls gone (told ⟨operation, reply, after⟩) = calls gone (told ⟨operation, reply', after'⟩) := by
  cases operation with
  | advance =>
    have outcome := Report.advanced.inj same
    cases reply with
    | error =>
      cases reply' with
      | error => rfl
      | ok => cases outcome
    | ok firings =>
      cases reply' with
      | error => cases outcome
      | ok firings' => exact Except.ok.inj outcome
  | query | command | shared => rfl

end Stage

namespace Apart

variable {gone : TimerId} {system system' : System H D W}

private theorem ofConfig (gone : TimerId) (config : Config) (shared : W) :
    Apart gone .outside .outside (⟨.ofConfig config, shared⟩ : System H D W)
      ⟨.ofConfig config, shared⟩ := by
  have valid : (⟨.outside, .ofConfig config⟩ : Moment H D).Valid := .ofConfig config
  have idle : ∀ arming turn, ¬ (Scheduler.ofConfig config : Scheduler H D).Queued arming turn :=
    Scheduler.not_queued_ofConfig config
  refine ⟨valid, valid, rfl, rfl, ?_⟩
  apply Alike.of_idle valid.tied valid.tied idle idle rfl (UInt64.le_refl _)
  · intro id other id' other' same same'
    rw [same.1, same'.1]
  · intro id other same
    rw [same.1]

/-- Whoever removes the one timer in vain is told the same by both, and nothing happens. -/
private theorem refused (apart : Apart gone .outside .outside system system')
    (kept : (system.scheduler.remove gone).1.isOk = false) :
    system.scheduler.remove gone = (.error (.invalidTimer gone), system.scheduler) ∧
      system'.scheduler.remove gone = (.error (.invalidTimer gone), system'.scheduler) := by
  cases found : system.scheduler.timer? gone with
  | some timer =>
    have whole := apart.valid.whole gone timer found (by simp)
    obtain ⟨handler, taken⟩ := Option.isSome_iff_exists.mp whole.handler
    obtain ⟨data, given⟩ := Option.isSome_iff_exists.mp whole.data
    obtain ⟨after, removed, _⟩ := Scheduler.remove_removes apart.valid.tied found taken given
    rw [removed] at kept
    cases kept
  | none =>
    have absent : ∀ scheduler : Scheduler H D,
        scheduler.timer? gone = none ↔ scheduler.shape.contains gone.key = false := by
      intro scheduler
      rw [Scheduler.shape, Arena.contains_mapAll, Arena.contains, Scheduler.timer?]
      simp
    have found' : system'.scheduler.timer? gone = none := by
      rw [absent, ← apart.shape, ← absent]
      exact found
    exact ⟨Scheduler.remove_of_absent found, Scheduler.remove_of_absent found'⟩

private theorem agrees {place place' : Place} {operation : Request H D W}
    {reply reply' : operation.Reply} (apart : Apart gone place place' system system')
    (report : operation.report gone reply = operation.report gone reply') :
    Stage.Agrees gone ⟨operation, reply, system⟩ ⟨operation, reply', system'⟩ :=
  ⟨rfl, report, congrArg Prod.fst apart.alike.clock, apart.shared,
    fun _ other => apart.alike.view? ⟨rfl, other⟩⟩

variable {react : Reaction H D W} {fuel : Nat}
  (minds : ∀ handler id data, (react handler id data).Minds id)

include minds

private theorem perform (apart : Apart gone .outside .outside system system')
    {operation : Request H D W}
    (elsewhere : operation.sets gone = false) {reply : operation.Reply} {after : System H D W}
    (performed : system.perform (System.tryAdvance react fuel) operation = some (reply, after))
    (kept : Stage.removes gone ⟨operation, reply, after⟩ = false)
    (onward : ∀ step ∈ operation.steps .outside (System.advanceSteps react fuel) system,
      step.Onward) :
    ∃ reply' after', system'.perform (System.tryAdvance react fuel) operation = some (reply', after') ∧
      operation.report gone reply = operation.report gone reply' ∧
      Apart gone .outside .outside after after' := by
  cases operation with
  | query asked =>
    cases performed
    refine ⟨_, _, rfl, ?_, apart⟩
    cases asked with
    | timer id =>
      simp only [Request.report]
      split
      next => rfl
      next other => exact congrArg Report.timer (apart.alike.view? ⟨rfl, other⟩)
    | summary | timers => rfl
  | command given =>
    cases performed
    by_cases removal : given = .remove gone
    · subst removal
      have failed : (system.scheduler.remove gone).1.isOk = false := by
        simp only [Stage.removes] at kept
        cases reply : (system.scheduler.remove gone).1 with
        | error => rfl
        | ok => simp [reply] at kept
      obtain ⟨refused, refused'⟩ := apart.refused failed
      have same : system'.perform (System.tryAdvance react fuel) (.command (.remove gone)) =
          some (.error (.invalidTimer gone), system') := by
        simp only [System.perform, Scheduler.perform, refused']
      refine ⟨_, _, same, ?_, ?_⟩
      · simp only [Request.report, refused]
      · simp only [refused]
        exact apart
    · obtain ⟨told, after⟩ := apart.command (by simp) (by simp) given elsewhere removal
        (onward _ List.mem_cons_self)
      exact ⟨_, _, rfl, congrArg Report.told told, after⟩
  | advance =>
    obtain ⟨reply', after', advanced, same, apart⟩ := apart.advance minds performed onward
    exact ⟨reply', after', advanced, congrArg Report.advanced same, apart⟩
  | shared change =>
    cases performed
    exact ⟨_, _, rfl, congrArg Report.shared apart.shared, apart.valid, apart.valid',
      congrArg change apart.shared, apart.shape, apart.alike⟩

/-- Operation after operation does the same to both, if those that set the one timer are left out
in the second. -/
theorem follow (apart : Apart gone .outside .outside system system')
    {operations : List (Request H D W)} {stages : List (Stage H D W)}
    (followed : system.follow react fuel operations = some stages)
    (kept : ∀ stage ∈ stages, stage.removes gone = false)
    (onward : ∀ step ∈ system.followSteps react fuel operations, step.Onward) :
    ∃ stages', system'.follow react fuel (operations.filter (!·.sets gone)) = some stages' ∧
      List.Forall₂ (Stage.Agrees gone) (stages.filter (!·.operation.sets gone)) stages' ∧
      calls gone (stages.flatMap Stage.told) = calls gone (stages'.flatMap Stage.told) := by
  induction operations generalizing system system' stages with
  | nil =>
    cases followed
    exact ⟨[], rfl, .nil, rfl⟩
  | cons operation rest ih =>
    rw [System.follow] at followed
    rw [System.followSteps] at onward
    obtain ⟨now, later⟩ := List.forall_mem_append.mp onward
    split at followed
    · cases followed
    next reply after performed =>
      obtain ⟨onwards, follows, rfl⟩ := Option.map_eq_some_iff.mp followed
      obtain ⟨keeps, kept⟩ := List.forall_mem_cons.mp kept
      rw [performed] at later
      cases sets : operation.sets gone with
      | true =>
        have hidden := apart.own_hidden (by simp) (.inr (.inr sets)) performed now
        obtain ⟨stages', follows', agree, same⟩ := ih hidden follows kept later
        refine ⟨stages', ?_, ?_, ?_⟩
        · rw [List.filter_cons_of_neg (by simp [sets])]
          exact follows'
        · rw [List.filter_cons_of_neg (by simp [sets])]
          exact agree
        · rw [List.flatMap_cons, Stage.told_of_sets sets]
          exact same
      | false =>
        obtain ⟨reply', after', performed', report, apart⟩ :=
          apart.perform minds sets performed keeps now
        obtain ⟨stages', follows', agree, same⟩ := ih apart follows kept later
        refine ⟨⟨operation, reply', after'⟩ :: stages', ?_, ?_, ?_⟩
        · rw [List.filter_cons_of_pos (by simp [sets]), System.follow, performed']
          dsimp only
          rw [follows']
          rfl
        · rw [List.filter_cons_of_pos (by simp [sets])]
          exact .cons (apart.agrees report) agree
        · rw [List.flatMap_cons, List.flatMap_cons, calls_append, calls_append, same]
          exact congrArg (· ++ _) (Stage.calls_of_report report)

end Apart

/-- Timers do not disturb each other. What is done to one timer that is not removed can be left out
of a run, and the other timers cannot tell: their handlers run at the same ticks and in the same
order, and after every operation they are the same. -/
theorem others_undisturbed {react : Reaction H D W}
    (minds : ∀ handler id data, (react handler id data).Minds id) {fuel : Nat} {config : Config}
    {shared : W} {gone : TimerId} {operations : List (Request H D W)} {stages : List (Stage H D W)}
    (followed : System.follow react fuel ⟨.ofConfig config, shared⟩ operations = some stages)
    (kept : ∀ stage ∈ stages, stage.removes gone = false)
    (onward : ∀ step ∈ System.followSteps react fuel ⟨.ofConfig config, shared⟩ operations,
      step.Onward) :
    ∃ stages', System.follow react fuel ⟨.ofConfig config, shared⟩
        (operations.filter (!·.sets gone)) = some stages' ∧
      List.Forall₂ (Stage.Agrees gone) (stages.filter (!·.operation.sets gone)) stages' ∧
      calls gone (stages.flatMap Stage.told) = calls gone (stages'.flatMap Stage.told) :=
  (Apart.ofConfig gone config shared).follow minds followed kept onward

/-- Three timers are due at once, and the one in the middle comes again at the next tick. The first
starts itself again whenever its handler runs; the handler of the last looks at the tick. -/
theorem others_undisturbed_between :
    ∃ (react : Reaction Nat Nat Unit) (operations : List (Request Nat Nat Unit))
      (stages stages' : List (Stage Nat Nat Unit)),
      System.follow react 9 ⟨.ofConfig {}, ()⟩ operations = some stages ∧
      System.follow react 9 ⟨.ofConfig {}, ()⟩ (operations.filter (!·.sets ⟨⟨1, 0⟩⟩)) =
        some stages' ∧
      (stages.flatMap Stage.told).map (fun firing => (firing.timer.key.index, firing.tick)) =
        [(0, 1), (1, 1), (2, 1), (1, 2), (2, 2), (0, 3), (2, 3)] ∧
      calls ⟨⟨1, 0⟩⟩ (stages'.flatMap Stage.told) =
        [(⟨⟨0, 0⟩⟩, 1, 1), (⟨⟨2, 0⟩⟩, 1, 1), (⟨⟨2, 0⟩⟩, 2, 2), (⟨⟨0, 0⟩⟩, 3, 3), (⟨⟨2, 0⟩⟩, 3, 3)] ∧
      List.Forall₂ (Stage.Agrees ⟨⟨1, 0⟩⟩) (stages.filter (!·.operation.sets ⟨⟨1, 0⟩⟩)) stages' := by
  let react : Reaction Nat Nat Unit := fun handler id data =>
    if handler = 0 then
      .request (.query .summary) fun (summary : Summary) => .done (handler, summary.tick.toNat)
    else .request (.command (.start id 2 false)) fun _ => .done (handler, data + 1)
  let operations : List (Request Nat Nat Unit) :=
    [.command (.add 1 0), .command (.add 0 0), .command (.add 0 0),
      .command (.start ⟨⟨0, 0⟩⟩ 1 false), .command (.start ⟨⟨1, 0⟩⟩ 1 true),
      .command (.start ⟨⟨2, 0⟩⟩ 1 true), .advance, .command (.setPeriod ⟨⟨1, 0⟩⟩ 2), .advance,
      .command (.stop ⟨⟨1, 0⟩⟩), .query (.timer ⟨⟨2, 0⟩⟩), .advance]
  have minds : ∀ handler id data, (react handler id data).Minds id := by
    intro handler id data
    simp only [react]
    split
    · refine ⟨.inl rfl, ?_, fun _ => trivial⟩
      intro summary summary' same
      have ticks : summary.tick = summary'.tick := same
      dsimp only
      rw [ticks]
    · exact ⟨.inr (.inr (decide_eq_true rfl)), fun _ => rfl, fun _ => trivial⟩
  have told : (System.follow react 9 ⟨.ofConfig {}, ()⟩ operations).map (fun stages =>
      (stages.all (!·.removes ⟨⟨1, 0⟩⟩),
        (stages.flatMap Stage.told).map fun firing => (firing.timer.key.index, firing.tick),
        calls ⟨⟨1, 0⟩⟩ (stages.flatMap Stage.told))) =
      some (true, [(0, 1), (1, 1), (2, 1), (1, 2), (2, 2), (0, 3), (2, 3)],
        [(⟨⟨0, 0⟩⟩, 1, 1), (⟨⟨2, 0⟩⟩, 1, 1), (⟨⟨2, 0⟩⟩, 2, 2), (⟨⟨0, 0⟩⟩, 3, 3),
          (⟨⟨2, 0⟩⟩, 3, 3)]) := by
    decide +kernel
  obtain ⟨stages, followed, same⟩ := Option.map_eq_some_iff.mp told
  obtain ⟨keeps, all, others⟩ : _ ∧ _ ∧ _ := by simpa only [Prod.mk.injEq] using same
  have kept : ∀ stage ∈ stages, stage.removes ⟨⟨1, 0⟩⟩ = false := by
    intro stage member
    simpa using List.all_eq_true.mp keeps stage member
  have onward : ∀ step ∈ System.followSteps react 9 ⟨.ofConfig {}, ()⟩ operations, step.Onward := by
    decide +kernel
  obtain ⟨stages', followed', agree, calls⟩ := others_undisturbed minds followed kept onward
  exact ⟨react, operations, stages, stages', followed, followed', all, calls.symm.trans others, agree⟩

end Timers
