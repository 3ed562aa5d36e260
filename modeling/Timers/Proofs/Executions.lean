import Timers.Proofs.Moments

/-! The steps that are made when a program runs on a system, one after another. They are read off
the program, and they are there whether or not the program ends within its bound: a run that has
no result makes the steps that its bound allows. -/

namespace Timers

variable {H D W α : Type}

/-- The steps that a request makes at a place, given those that an advance makes. -/
def Request.steps (place : Place) (advancing : System H D W → List (Step H D))
    (system : System H D W) : Request H D W → List (Step H D)
  | .command given => [⟨⟨place, system.scheduler⟩, .command given,
      ⟨place, (system.scheduler.perform given).2⟩⟩]
  | .advance => advancing system
  | .query _ | .shared _ => []

/-- The steps that a program makes at a place, with a given way to advance. -/
def Program.steps (place : Place) (advance : Advance H D W)
    (advancing : System H D W → List (Step H D)) : Program H D W α → System H D W → List (Step H D)
  | .done _, _ => []
  | .request operation next, system =>
    operation.steps place advancing system ++
      match system.perform advance operation with
      | none => []
      | some (reply, after) => (next reply).steps place advance advancing after

/-- The handlers that a request is told to have run. -/
def Request.tells : (operation : Request H D W) → operation.Reply → List Firing
  | .advance, .ok firings => firings
  | _, _ => []

/-- The handlers that a program is told of by its advances, with a given way to advance. -/
def Program.tells (advance : Advance H D W) : Program H D W α → System H D W → List Firing
  | .done _, _ => []
  | .request operation next, system =>
    match system.perform advance operation with
    | none => []
    | some (reply, after) => operation.tells reply ++ (next reply).tells advance after

namespace System

/-- The steps from the dispatch of an entry to the end of its handler. A handler that asks for an
advance is refused. -/
def dispatchSteps (react : Reaction H D W) (nested : Advance H D W) (arming : Arming)
    (turn : UInt64) (popped : Scheduler H D) (system : System H D W) : List (Step H D) :=
  match popped.lend arming.timer with
  | (none, left) => [⟨⟨.between, system.scheduler⟩, .dispatch, ⟨.between, left⟩⟩]
  | (some (handler, data), lent) =>
    let firing : Firing := ⟨arming.timer, lent.tick, arming.expiry, turn⟩
    let program := react handler arming.timer data
    ⟨⟨.between, system.scheduler⟩, .dispatch, ⟨.inside firing, lent⟩⟩ ::
      (program.steps (.inside firing) nested (fun _ => []) { system with scheduler := lent } ++
        match program.run nested { system with scheduler := lent } with
        | none => []
        | some ((handler, data), ran) =>
          [⟨⟨.inside firing, ran.scheduler⟩, .settle handler data,
            ⟨.between, ran.scheduler.settle arming.timer lent.tick handler data⟩⟩])

def drainSteps (react : Reaction H D W) (nested : Advance H D W) (fuel : Nat)
    (system : System H D W) : List (Step H D) :=
  match system.scheduler.popDue? with
  | none => []
  | some (arming, turn, popped) =>
    match fuel with
    | 0 => []
    | fuel + 1 =>
      dispatchSteps react nested arming turn popped system ++
        match dispatch react nested arming turn { system with scheduler := popped } with
        | none => []
        | some (_, after) => drainSteps react nested fuel after

def advanceSteps (react : Reaction H D W) (fuel : Nat) (system : System H D W) :
    List (Step H D) :=
  match system.scheduler.beginAdvance with
  | .error _ => []
  | .ok begun =>
    match fuel with
    | 0 => []
    | fuel + 1 =>
      let nested := tryAdvance react fuel
      ⟨⟨.outside, system.scheduler⟩, .beginAdvance, ⟨.between, begun⟩⟩ ::
        (drainSteps react nested fuel { system with scheduler := begun } ++
          match drain react nested fuel { system with scheduler := begun } with
          | none => []
          | some (_, drained) => [⟨⟨.between, drained.scheduler⟩, .endAdvance,
              ⟨.outside, drained.scheduler.endAdvance⟩⟩])

/-- The steps that a program makes on a system. -/
def steps (system : System H D W) (react : Reaction H D W) (fuel : Nat)
    (program : Program H D W α) : List (Step H D) :=
  program.steps .outside (tryAdvance react fuel) (advanceSteps react fuel) system

/-- The handlers that a program is told of on a system. -/
def tells (system : System H D W) (react : Reaction H D W) (fuel : Nat)
    (program : Program H D W α) : List Firing :=
  program.tells (tryAdvance react fuel) system

end System

/-- One of several operations, its reply and the system that it left. -/
structure Stage (H D W : Type) where
  operation : Request H D W
  reply : operation.Reply
  after : System H D W

namespace System

/-- Carries out one operation after another, if every advance ends. -/
def follow (react : Reaction H D W) (fuel : Nat) (system : System H D W) :
    List (Request H D W) → Option (List (Stage H D W))
  | [] => some []
  | operation :: rest =>
    match system.perform (tryAdvance react fuel) operation with
    | none => none
    | some (reply, after) => (after.follow react fuel rest).map (⟨operation, reply, after⟩ :: ·)

/-- The steps that the operations make. -/
def followSteps (react : Reaction H D W) (fuel : Nat) (system : System H D W) :
    List (Request H D W) → List (Step H D)
  | [] => []
  | operation :: rest =>
    operation.steps .outside (advanceSteps react fuel) system ++
      match system.perform (tryAdvance react fuel) operation with
      | none => []
      | some (_, after) => after.followSteps react fuel rest

end System

/-- The steps are a run, and it leads to the result if there is one. -/
def Moment.Makes (first : Moment H D) (steps : List (Step H D)) (result : Option (Moment H D)) :
    Prop := ∃ last, Run first steps last ∧ ∀ final, result = some final → last = final

theorem Moment.Makes.run {first last : Moment H D} {steps : List (Step H D)}
    {result : Option (Moment H D)} (makes : first.Makes steps result) (ends : result = some last) :
    Run first steps last := by
  obtain ⟨final, run, same⟩ := makes
  exact same last ends ▸ run

private theorem Moment.Makes.nil (first : Moment H D) : first.Makes [] (some first) :=
  ⟨first, .nil first, fun _ same => Option.some.inj same⟩

private theorem Moment.Makes.append {first middle : Moment H D} {earlier later : List (Step H D)}
    {result : Option (Moment H D)} (makes : first.Makes earlier (some middle))
    (onward : middle.Makes later result) : first.Makes (earlier ++ later) result := by
  obtain ⟨last, run, same⟩ := onward
  exact ⟨last, (makes.run rfl).append run, same⟩

section Programs

variable {react : Reaction H D W} {system : System H D W} {fuel : Nat}

section Places

variable {place : Place} (awake : place ≠ .between) {advance : Advance H D W}
  {advancing : System H D W → List (Step H D)}
  (advances : ∀ {system : System H D W}, (⟨place, system.scheduler⟩ : Moment H D).Paced →
    (⟨place, system.scheduler⟩ : Moment H D).Makes (advancing system)
      ((advance system).map fun made => ⟨place, made.2.scheduler⟩))

include awake advances

private theorem Request.makes (operation : Request H D W)
    (paced : (⟨place, system.scheduler⟩ : Moment H D).Paced) :
    (⟨place, system.scheduler⟩ : Moment H D).Makes (operation.steps place advancing system)
      ((system.perform advance operation).map fun made => ⟨place, made.2.scheduler⟩) := by
  cases operation with
  | query asked => exact .nil _
  | command given => exact ⟨_, .single (.command given awake), fun _ same => Option.some.inj same⟩
  | advance => exact advances paced
  | shared change => exact .nil _

private theorem Program.makes (program : Program H D W α)
    (paced : (⟨place, system.scheduler⟩ : Moment H D).Paced) :
    (⟨place, system.scheduler⟩ : Moment H D).Makes (program.steps place advance advancing system)
      ((program.run advance system).map fun made => ⟨place, made.2.scheduler⟩) := by
  induction program generalizing system with
  | done _ => exact .nil _
  | request operation rest ih =>
    have step := operation.makes awake advances paced
    rw [Program.steps, Program.run]
    cases performed : system.perform advance operation with
    | none =>
      rw [performed] at step
      simpa using step
    | some result =>
      rw [performed] at step
      exact step.append (ih result.1 ((step.run rfl).preserves Transition.paced paced))

end Places

theorem Program.makes_inside (react : Reaction H D W) (nested : Nat) (firing : Firing)
    (program : Program H D W α) (busy : system.scheduler.dispatching = true) :
    (⟨.inside firing, system.scheduler⟩ : Moment H D).Makes
      (program.steps (.inside firing) (System.tryAdvance react nested) (fun _ => []) system)
      ((program.run (System.tryAdvance react nested) system).map
        fun made => ⟨.inside firing, made.2.scheduler⟩) := by
  have paced : (⟨.inside firing, system.scheduler⟩ : Moment H D).Paced := by
    simp [Moment.Paced, busy]
  refine Program.makes (by simp) ?_ program paced
  intro system paced
  have busy : system.scheduler.dispatching = true := paced.mpr (by simp)
  rw [System.tryAdvance_refused react nested busy]
  exact .nil _

namespace System

private theorem dispatch_makes {nested : Nat} {arming : Arming} {turn : UInt64}
    {popped : Scheduler H D} (busy : system.scheduler.dispatching = true)
    (due : system.scheduler.popDue? = some (arming, turn, popped)) :
    (⟨.between, system.scheduler⟩ : Moment H D).Makes
      (dispatchSteps react (tryAdvance react nested) arming turn popped system)
      ((dispatch react (tryAdvance react nested) arming turn { system with scheduler := popped }).map
        fun made => ⟨.between, made.2.scheduler⟩) := by
  have clock := popped.clock_lend arming.timer
  rw [Scheduler.clock_popDue? due] at clock
  unfold dispatch dispatchSteps
  cases lends : popped.lend arming.timer with
  | mk given lent =>
    rw [lends] at clock
    cases given with
    | none => exact ⟨_, .single (.skip due lends), fun _ same => Option.some.inj same⟩
    | some given =>
      obtain ⟨handler, data⟩ := given
      let firing : Firing := ⟨arming.timer, lent.tick, arming.expiry, turn⟩
      have busy : lent.dispatching = true := (congrArg (·.2.2) clock).trans busy
      have begins : (⟨.between, system.scheduler⟩ : Moment H D).Makes
          [⟨⟨.between, system.scheduler⟩, .dispatch, ⟨.inside firing, lent⟩⟩]
          (some ⟨.inside firing, lent⟩) :=
        ⟨_, .single (.dispatch due lends), fun _ same => Option.some.inj same⟩
      let started : System H D W := { system with scheduler := lent }
      have inside : (⟨.inside firing, started.scheduler⟩ : Moment H D).Makes _ _ :=
        Program.makes_inside react nested firing (react handler arming.timer data) busy
      apply begins.append
      dsimp only
      cases ran : (react handler arming.timer data).run (tryAdvance react nested) started with
      | none =>
        rw [ran] at inside
        simpa using inside
      | some result =>
        rw [ran] at inside
        exact inside.append
          ⟨_, .single (.settle result.1.1 result.1.2), fun _ same => Option.some.inj same⟩

private theorem drain_makes {nested : Nat} (busy : system.scheduler.dispatching = true) :
    (⟨.between, system.scheduler⟩ : Moment H D).Makes
      (drainSteps react (tryAdvance react nested) fuel system)
      ((drain react (tryAdvance react nested) fuel system).map
        fun made => ⟨.between, made.2.scheduler⟩) := by
  induction fuel generalizing system with
  | zero =>
    unfold drain drainSteps
    cases due : system.scheduler.popDue? with
    | none => exact .nil _
    | some popped => exact ⟨_, .nil _, by simp⟩
  | succ fuel ih =>
    unfold drain drainSteps
    cases due : system.scheduler.popDue? with
    | none => exact .nil _
    | some taken =>
      obtain ⟨arming, turn, popped⟩ := taken
      have first : (⟨.between, system.scheduler⟩ : Moment H D).Makes
          (dispatchSteps react (tryAdvance react nested) arming turn popped system) _ :=
        dispatch_makes busy due
      dsimp only
      cases dispatched : dispatch react (tryAdvance react nested) arming turn
          { system with scheduler := popped } with
      | none =>
        rw [dispatched] at first
        simpa using first
      | some result =>
        obtain ⟨told, after⟩ := result
        rw [dispatched] at first
        have paced : (⟨.between, system.scheduler⟩ : Moment H D).Paced := by
          simp [Moment.Paced, busy]
        have busy' : after.scheduler.dispatching = true :=
          ((first.run rfl).preserves Transition.paced paced).mpr (by simp)
        have rest := first.append (ih busy')
        dsimp only
        cases drained : drain react (tryAdvance react nested) fuel after with
        | none =>
          rw [drained] at rest
          exact rest
        | some final =>
          rw [drained] at rest
          exact rest

theorem drain_finishes {nested : Advance H D W} {told : List Firing} {final : System H D W}
    (drained : drain react nested fuel system = some (told, final)) :
    final.scheduler.popDue? = none := by
  rw [← drained_iff] at drained
  induction drained with
  | idle nothing => exact nothing
  | entry _ _ _ ih => exact ih

theorem tryAdvance_makes :
    (⟨.outside, system.scheduler⟩ : Moment H D).Makes (advanceSteps react fuel system)
      ((tryAdvance react fuel system).map fun made => ⟨.outside, made.2.scheduler⟩) := by
  unfold tryAdvance advanceSteps
  cases begins : system.scheduler.beginAdvance with
  | error error => exact .nil _
  | ok begun =>
    cases fuel with
    | zero => exact ⟨_, .nil _, by simp⟩
    | succ fuel =>
      obtain ⟨_, tick, _, rfl⟩ := Scheduler.beginAdvance_eq begins
      have first : (⟨.outside, system.scheduler⟩ : Moment H D).Makes
          [⟨⟨.outside, system.scheduler⟩, .beginAdvance,
            ⟨.between, { system.scheduler with tick, dispatching := true }⟩⟩]
          (some ⟨.between, { system.scheduler with tick, dispatching := true }⟩) :=
        ⟨_, .single (.beginAdvance begins), fun _ same => Option.some.inj same⟩
      let started : System H D W :=
        { system with scheduler := { system.scheduler with tick, dispatching := true } }
      have drains : (⟨.between, started.scheduler⟩ : Moment H D).Makes
          (drainSteps react (tryAdvance react fuel) fuel started) _ := drain_makes rfl
      apply first.append
      dsimp only
      cases drained : drain react (tryAdvance react fuel) fuel started with
      | none =>
        rw [drained] at drains
        simpa using drains
      | some result =>
        rw [drained] at drains
        exact drains.append ⟨_, .single (.endAdvance (drain_finishes drained)),
          fun _ same => Option.some.inj same⟩

theorem run_makes (program : Program H D W α) (idle : system.scheduler.dispatching = false) :
    (⟨.outside, system.scheduler⟩ : Moment H D).Makes (system.steps react fuel program)
      ((system.run react fuel program).map fun made => ⟨.outside, made.2.scheduler⟩) := by
  have paced : (⟨.outside, system.scheduler⟩ : Moment H D).Paced := by simp [Moment.Paced, idle]
  exact Program.makes (by simp) (fun _ => tryAdvance_makes) program paced

/-- Running a program on a new system makes the steps of the program. -/
theorem steps_make (config : Config) (shared : W) (react : Reaction H D W) (fuel : Nat)
    (program : Program H D W α) :
    (Moment.ofConfig config : Moment H D).Makes
      (System.steps ⟨.ofConfig config, shared⟩ react fuel program)
      ((System.run ⟨.ofConfig config, shared⟩ react fuel program).map
        fun made => ⟨.outside, made.2.scheduler⟩) :=
  @run_makes H D W α react ⟨.ofConfig config, shared⟩ fuel program rfl

theorem steps_lead {config : Config} {shared : W} {program : Program H D W α} {value : α}
    {final : System H D W}
    (finished : System.run ⟨.ofConfig config, shared⟩ react fuel program = some (value, final)) :
    Run (.ofConfig config) (System.steps ⟨.ofConfig config, shared⟩ react fuel program)
      ⟨.outside, final.scheduler⟩ :=
  (steps_make config shared react fuel program).run (by rw [finished]; rfl)

/-- The steps of a program are a run, even if it does not end within its bound. -/
theorem exists_run_steps (system : System H D W) (react : Reaction H D W) (fuel : Nat)
    (program : Program H D W α) (idle : system.scheduler.dispatching = false) :
    ∃ last, Run ⟨.outside, system.scheduler⟩ (system.steps react fuel program) last := by
  obtain ⟨last, run, _⟩ := run_makes program idle
  exact ⟨last, run⟩

end System

theorem Program.firings_steps {place : Place} (awake : place ≠ .between) {advance : Advance H D W}
    (program : Program H D W α) :
    firings (program.steps place advance (fun _ => []) system) = [] := by
  induction program generalizing system with
  | done _ => rfl
  | request operation rest ih =>
    have first : firings (operation.steps place (fun _ => []) system) = [] := by
      cases operation with
      | command given =>
        cases place with
        | between => exact absurd rfl awake
        | outside | inside firing => rfl
      | query | advance | shared => rfl
    rw [Program.steps, firings_append, first, List.nil_append]
    cases system.perform advance operation with
    | none => rfl
    | some result => exact ih result.1

/-- A step of a program whose advances are left out is that of its first request, which is a
command, or one of the program that is left after it. -/
theorem Program.steps_cases {place : Place} {advance : Advance H D W} {operation : Request H D W}
    {next : operation.Reply → Program H D W α} {step : Step H D}
    (member : step ∈ (Program.request operation next).steps place advance (fun _ => []) system) :
    (∃ given, operation = .command given ∧ step = ⟨⟨place, system.scheduler⟩, .command given,
      ⟨place, (system.scheduler.perform given).2⟩⟩) ∨
    ∃ reply after, step ∈ (next reply).steps place advance (fun _ => []) after := by
  rw [Program.steps] at member
  rcases List.mem_append.mp member with now | later
  · cases operation with
    | command given => exact .inl ⟨given, rfl, List.mem_singleton.mp now⟩
    | query | advance | shared => cases now
  · cases performed : system.perform advance operation with
    | none =>
      rw [performed] at later
      cases later
    | some result =>
      rw [performed] at later
      exact .inr ⟨result.1, result.2, later⟩

private theorem Program.steps_stay {place : Place} {advance : Advance H D W}
    (program : Program H D W α) :
    ∀ step ∈ program.steps place advance (fun _ => []) system, step.before.place = place := by
  induction program generalizing system with
  | done _ => simp [Program.steps]
  | request operation rest ih =>
    intro step member
    rcases Program.steps_cases member with ⟨given, rfl, rfl⟩ | ⟨reply, after, later⟩
    · rfl
    · exact ih reply step later

namespace System

variable {final : System H D W}

private theorem dispatchSteps_within {nested : Advance H D W} {arming : Arming} {turn : UInt64}
    {popped : Scheduler H D} :
    ∀ step ∈ dispatchSteps react nested arming turn popped system, step.before.place ≠ .outside := by
  intro step member
  unfold dispatchSteps at member
  split at member
  · obtain rfl := List.mem_singleton.mp member
    simp
  · dsimp only at member
    rcases List.mem_cons.mp member with rfl | member
    · simp
    rcases List.mem_append.mp member with body | settling
    · simp [Program.steps_stay _ step body]
    · split at settling
      · cases settling
      · obtain rfl := List.mem_singleton.mp settling
        simp

private theorem drainSteps_within {nested : Advance H D W} :
    ∀ step ∈ drainSteps react nested fuel system, step.before.place ≠ .outside := by
  induction fuel generalizing system with
  | zero =>
    unfold drainSteps
    cases system.scheduler.popDue? <;> simp
  | succ fuel ih =>
    intro step member
    unfold drainSteps at member
    split at member
    · cases member
    dsimp only at member
    rcases List.mem_append.mp member with first | rest
    · exact dispatchSteps_within step first
    · split at rest
      · cases rest
      · exact ih step rest

/-- An advance that is not refused begins with its first step, and nothing else is done outside
before it ends. -/
theorem advanceSteps_begin (react : Reaction H D W) {begun : Scheduler H D}
    (begins : system.scheduler.beginAdvance = .ok begun) (spends : fuel ≠ 0) :
    ∃ later, advanceSteps react fuel system =
        ⟨⟨.outside, system.scheduler⟩, .beginAdvance, ⟨.between, begun⟩⟩ :: later ∧
      ∀ step ∈ later, step.before.place ≠ .outside := by
  obtain ⟨fuel, rfl⟩ := Nat.exists_eq_succ_of_ne_zero spends
  unfold advanceSteps
  rw [begins]
  refine ⟨_, rfl, fun step member => ?_⟩
  rcases List.mem_append.mp member with draining | ending
  · exact drainSteps_within step draining
  · split at ending
    · cases ending
    · obtain rfl := List.mem_singleton.mp ending
      simp

theorem begins_of_tryAdvance {told : List Firing}
    (finished : tryAdvance react fuel system = some (.ok told, final)) :
    ∃ begun later, system.scheduler.beginAdvance = .ok begun ∧
      advanceSteps react fuel system =
        ⟨⟨.outside, system.scheduler⟩, .beginAdvance, ⟨.between, begun⟩⟩ :: later ∧
      ∀ step ∈ later, step.before.place ≠ .outside := by
  cases advanced_iff.mpr finished with
  | made begins _ =>
    obtain ⟨later, begin, within⟩ := advanceSteps_begin react begins (Nat.succ_ne_zero _)
    exact ⟨_, later, begins, begin, within⟩

/-- A dispatch that lends out handler and data has a result if the handler ends, and its steps end
with putting them back. -/
theorem dispatch_settles {nested : Advance H D W} {arming : Arming} {turn : UInt64}
    {popped lent : Scheduler H D} {handler : H} {data : D} {told : Option Firing}
    (lends : popped.lend arming.timer = (some (handler, data), lent))
    (dispatched : dispatch react nested arming turn { system with scheduler := popped } =
      some (told, final)) :
    let firing : Firing := ⟨arming.timer, lent.tick, arming.expiry, turn⟩
    let program := react handler arming.timer data
    ∃ handler' data' ran,
      program.run nested { system with scheduler := lent } = some ((handler', data'), ran) ∧
      told = some firing ∧
      final = { ran with
        scheduler := ran.scheduler.settle firing.timer firing.tick handler' data' } ∧
      dispatchSteps react nested arming turn popped system =
        ⟨⟨.between, system.scheduler⟩, .dispatch, ⟨.inside firing, lent⟩⟩ ::
          (program.steps (.inside firing) nested (fun _ => []) { system with scheduler := lent } ++
            [⟨⟨.inside firing, ran.scheduler⟩, .settle handler' data',
              ⟨.between, ran.scheduler.settle firing.timer firing.tick handler' data'⟩⟩]) := by
  rw [dispatch_of_lends lends] at dispatched
  obtain ⟨⟨⟨handler', data'⟩, ran⟩, made, same⟩ := Option.map_eq_some_iff.mp dispatched
  cases same
  refine ⟨handler', data', ran, made, rfl, rfl, ?_⟩
  rw [dispatchSteps, lends]
  dsimp only
  rw [made]

private theorem firings_dispatchSteps {nested : Advance H D W} {arming : Arming} {turn : UInt64}
    {popped : Scheduler H D} {told : Option Firing}
    (dispatched : dispatch react nested arming turn { system with scheduler := popped } =
      some (told, final)) :
    firings (dispatchSteps react nested arming turn popped system) = told.toList := by
  cases lends : popped.lend arming.timer with
  | mk given lent =>
    cases given with
    | none =>
      cases (dispatch_of_missing lends).symm.trans dispatched
      rw [dispatchSteps, lends]
      rfl
    | some given =>
      obtain ⟨_, _, _, _, rfl, _, steps⟩ := dispatch_settles lends dispatched
      rw [steps, firings_cons, firings_append, Program.firings_steps (by simp)]
      rfl

theorem drainSteps_of_due {nested : Advance H D W} {arming : Arming} {turn : UInt64}
    {popped : Scheduler H D} {told : Option Firing} {after : System H D W}
    (due : system.scheduler.popDue? = some (arming, turn, popped))
    (dispatched : dispatch react nested arming turn { system with scheduler := popped } =
      some (told, after)) :
    drainSteps react nested (fuel + 1) system =
      dispatchSteps react nested arming turn popped system ++ drainSteps react nested fuel after := by
  rw [drainSteps, due]
  dsimp only
  rw [dispatched]

private theorem firings_drainSteps {nested : Advance H D W} {told : List Firing}
    (drained : drain react nested fuel system = some (told, final)) :
    firings (drainSteps react nested fuel system) = told := by
  rw [← drained_iff] at drained
  induction drained with
  | idle nothing =>
    rw [drainSteps, nothing]
    rfl
  | entry due dispatched _ ih =>
    rw [drainSteps_of_due due dispatched, firings_append, firings_dispatchSteps dispatched, ih]

theorem firings_advanceSteps {reply : Except TimerError (List Firing)}
    (finished : tryAdvance react fuel system = some (reply, final)) :
    firings (advanceSteps react fuel system) = reply.toOption.getD [] := by
  cases advanced_iff.mpr finished with
  | refused refused =>
    rw [advanceSteps, refused]
    rfl
  | made begins drains =>
    rw [advanceSteps, begins]
    dsimp only
    rw [drains, firings_cons, firings_append, firings_drainSteps drains]
    exact List.append_nil _

theorem tryAdvance_moments {reply : Except TimerError (List Firing)}
    (finished : tryAdvance react fuel system = some (reply, final)) :
    ∃ steps, Run ⟨.outside, system.scheduler⟩ steps ⟨.outside, final.scheduler⟩ ∧
      firings steps = reply.toOption.getD [] :=
  ⟨_, tryAdvance_makes.run (by rw [finished]; rfl), firings_advanceSteps finished⟩

theorem advanceTicks_moments {ticks : Nat} {told : List Firing}
    (finished : system.run react fuel (Program.advanceTicks ticks) = some (told, final)) :
    ∃ steps, Run ⟨.outside, system.scheduler⟩ steps ⟨.outside, final.scheduler⟩ ∧
      firings steps = told := by
  induction ticks generalizing system told with
  | zero =>
    cases finished
    exact ⟨[], .nil _, rfl⟩
  | succ ticks ih =>
    rw [run_advanceTicks_succ, run_advanceTick] at finished
    obtain ⟨⟨first, after⟩, advanced, onward⟩ := Option.bind_eq_some_iff.mp finished
    obtain ⟨⟨reply, _⟩, asked, same⟩ := Option.map_eq_some_iff.mp advanced
    cases same
    obtain ⟨⟨more, _⟩, later, same⟩ := Option.map_eq_some_iff.mp onward
    cases same
    obtain ⟨steps, run, fired⟩ := tryAdvance_moments asked
    obtain ⟨rest, run', fired'⟩ := ih later
    exact ⟨steps ++ rest, run.append run', by rw [firings_append, fired, fired']⟩

/-- A program is told of the handlers that run in its steps, and of no others. -/
theorem firings_steps {program : Program H D W α} {value : α}
    (finished : system.run react fuel program = some (value, final)) :
    firings (system.steps react fuel program) = system.tells react fuel program := by
  unfold run at finished
  unfold steps tells
  induction program generalizing system with
  | done _ => rfl
  | request operation rest ih =>
    rw [Program.run] at finished
    rw [Program.steps, Program.tells, firings_append]
    cases performed : system.perform (tryAdvance react fuel) operation with
    | none =>
      rw [performed] at finished
      cases finished
    | some result =>
      obtain ⟨reply, after⟩ := result
      rw [performed] at finished
      dsimp only at finished ⊢
      rw [ih reply finished]
      congr 1
      cases operation with
      | advance =>
        have told := firings_advanceSteps performed
        cases reply <;> exact told
      | query | command | shared => rfl

end System

end Programs

end Timers
