import Timers.Proofs.Representation

/-! How handlers conduct themselves. What a program may ask for is said of all replies that it may
get. A handler's program makes commands and nothing else, and it always ends, because an advance
that it asks for is refused. So an entry that is due is dispatched to the end, whatever its handler
does. -/

namespace Timers

variable {H D W α : Type}

/-- All that the program may ask for is allowed, whatever the replies are. -/
def Program.Uses (allowed : Request H D W → Prop) : Program H D W α → Prop
  | .done _ => True
  | .request operation next => allowed operation ∧ ∀ reply, (next reply).Uses allowed

def Reaction.Uses (react : Reaction H D W) (allowed : Request H D W → Prop) : Prop :=
  ∀ handler id data, (react handler id data).Uses allowed

section Programs

variable {system : System H D W} {program : Program H D W α} {allowed : Request H D W → Prop}

theorem Program.uses_any (program : Program H D W α) : program.Uses fun _ => True := by
  induction program with
  | done _ => trivial
  | request operation next ih => exact ⟨trivial, ih⟩

theorem Reaction.idle_uses (allowed : Request H D W → Prop) :
    (Reaction.idle : Reaction H D W).Uses allowed := fun _ _ _ => trivial

theorem Reaction.onData_uses (change : H → D → H × D) (allowed : Request H D W → Prop) :
    (Reaction.onData change : Reaction H D W).Uses allowed := fun _ _ _ => trivial

private theorem Program.Uses.steps {place : Place} {advance : Advance H D W}
    (uses : program.Uses allowed) : ∀ step ∈ program.steps place advance (fun _ => []) system,
      ∃ given, step.action = .command given ∧ allowed (.command given) := by
  induction program generalizing system with
  | done _ => simp [Program.steps]
  | request operation next ih =>
    obtain ⟨first, rest⟩ := uses
    intro step member
    rcases Program.steps_cases member with ⟨given, rfl, rfl⟩ | ⟨reply, after, later⟩
    · exact ⟨given, rfl, first⟩
    · exact ih reply (rest reply) step later

private theorem Program.ends (program : Program H D W α) (react : Reaction H D W) (nested : Nat)
    (busy : system.scheduler.dispatching = true) :
    ∃ value final, program.run (System.tryAdvance react nested) system = some (value, final) := by
  induction program generalizing system with
  | done value => exact ⟨value, system, rfl⟩
  | request operation next ih =>
    rw [Program.run]
    cases operation with
    | query asked => exact ih _ busy
    | command given => exact ih _ ((system.scheduler.dispatching_perform given).trans busy)
    | advance =>
      rw [System.perform, System.tryAdvance_refused react nested busy]
      exact ih _ busy
    | shared change => exact ih _ busy

end Programs

/-- The run of the handler of an entry, from where handler and data are lent out to where they are
put back, with the steps that it makes between. -/
structure System.Handles (react : Reaction H D W) (nested : Nat) (system : System H D W)
    (firing : Firing) (begun : System H D W) (body : List (Step H D)) (ended : System H D W)
    (handler : H) (data : D) : Prop where
  begins : Transition .dispatch ⟨.between, system.scheduler⟩ ⟨.inside firing, begun.scheduler⟩
  shared : begun.shared = system.shared
  runs : ∃ timer bound held, system.scheduler.timer? firing.timer = some timer ∧
    timer.handler = some bound ∧ timer.data = some held ∧
    (react bound firing.timer held).run (tryAdvance react nested) begun =
      some ((handler, data), ended) ∧
    body = (react bound firing.timer held).steps (.inside firing) (tryAdvance react nested)
      (fun _ => []) begun
  steps : Run ⟨.inside firing, begun.scheduler⟩ body ⟨.inside firing, ended.scheduler⟩

theorem System.Handles.uses {react : Reaction H D W} {nested : Nat} {system begun ended : System H D W}
    {firing : Firing} {body : List (Step H D)} {handler : H} {data : D}
    (handles : System.Handles react nested system firing begun body ended handler data)
    {allowed : Request H D W → Prop} (uses : react.Uses allowed) :
    ∀ step ∈ body, ∃ given, step.action = .command given ∧ allowed (.command given) := by
  obtain ⟨_, bound, held, _, _, _, _, rfl⟩ := handles.runs
  exact (uses bound firing.timer held).steps

namespace System

variable {system : System H D W} {popped : Scheduler H D} {arming : Arming} {turn : UInt64}

/-- The system with the timer of a firing settled. -/
def settled (system : System H D W) (firing : Firing) (handler : H) (data : D) : System H D W :=
  { system with scheduler := system.scheduler.settle firing.timer firing.tick handler data }

/-- An entry that is due is dispatched: its handler runs to its end. -/
theorem dispatch_handles (react : Reaction H D W) (nested : Nat)
    (valid : (⟨.between, system.scheduler⟩ : Moment H D).Valid)
    (paced : (⟨.between, system.scheduler⟩ : Moment H D).Paced)
    (due : system.scheduler.popDue? = some (arming, turn, popped)) :
    ∃ firing begun body ended handler data,
      firing.timer = arming.timer ∧ firing.expiry = arming.expiry ∧
      Handles react nested system firing begun body ended handler data ∧
      dispatch react (tryAdvance react nested) arming turn { system with scheduler := popped } =
        some (some firing, ended.settled firing handler data) := by
  obtain ⟨timer, ⟨bound, held⟩, lent, lends, takes⟩ := valid.dispatches due
  have clock := popped.clock_lend arming.timer
  rw [lends, Scheduler.clock_popDue? due] at clock
  let firing : Firing := ⟨arming.timer, lent.tick, arming.expiry, turn⟩
  let begun : System H D W := { system with scheduler := lent }
  have busy : begun.scheduler.dispatching = true :=
    (congrArg (·.2.2) clock).trans (paced.mpr (by simp))
  obtain ⟨⟨handler, data⟩, ended, ran⟩ :=
    (react bound arming.timer held).ends react nested busy
  have makes := Program.makes_inside react nested firing (react bound arming.timer held) busy
  rw [ran] at makes
  have present : popped.timer? arming.timer = some timer := by
    obtain ⟨_, rfl⟩ := Scheduler.popDue?_eq due
    exact takes.found
  obtain ⟨taken, given⟩ := Scheduler.lend_gives present lends
  refine ⟨firing, begun, _, ended, handler, data, rfl, rfl, ⟨.dispatch due lends, rfl,
    ⟨timer, bound, held, takes.found, taken, given, ran, rfl⟩, makes.run rfl⟩, ?_⟩
  rw [dispatch_of_lends lends, ran]
  rfl

end System

end Timers
