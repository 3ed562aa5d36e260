import Timers.Program

/-! A system is a scheduler beside the value that programs share. Running a program answers
its requests one after another. An advance moves the tick and then runs, entry by entry,
the handlers that are due, each of them a program on the same system. A handler can keep an
advance busy for ever, by starting timers that are due at once, so an advance is given the
number of entries that it may handle; with too few of them it has no result. -/

namespace Timers

structure System (H D W : Type) where
  scheduler : Scheduler H D
  shared : W

abbrev Advance (H D W : Type) :=
  System H D W → Option (Except TimerError (List Firing) × System H D W)

namespace Scheduler

variable {H D : Type}

def answer (scheduler : Scheduler H D) : (query : Query) → query.Answer D
  | .summary => scheduler.summary
  | .timers => scheduler.ids
  | .timer id => scheduler.view? id

def perform (scheduler : Scheduler H D) :
    (command : Command H D) → command.Reply × Scheduler H D
  | .add handler data => scheduler.add handler data
  | .start id delay periodic => scheduler.start id delay periodic
  | .stop id => scheduler.stop id
  | .remove id => scheduler.remove id
  | .rebind id handler => scheduler.rebind id handler
  | .setPeriod id period => scheduler.setPeriod id period
  | .modifyData id change => scheduler.modifyData id change
  | .reset => ((), scheduler.reset)
  | .takeReporter => scheduler.takeReporter
  | .receive => scheduler.receive
  | .drainEvents => scheduler.drainEvents

end Scheduler

variable {H D W α β : Type}

/-- Answers one request, with a given way to advance. -/
def System.perform (system : System H D W) (advance : Advance H D W) :
    (operation : Request H D W) → Option (operation.Reply × System H D W)
  | .query asked => some (system.scheduler.answer asked, system)
  | .command given =>
    let (reply, scheduler) := system.scheduler.perform given
    some (reply, { system with scheduler })
  | .advance => advance system
  | .shared change => some (system.shared, { system with shared := change system.shared })

namespace Program

def run (program : Program H D W α) (advance : Advance H D W) (system : System H D W) :
    Option (α × System H D W) :=
  match program with
  | .done value => some (value, system)
  | .request operation next =>
    match system.perform advance operation with
    | none => none
    | some (reply, after) => (next reply).run advance after

theorem run_bind (program : Program H D W α) (next : α → Program H D W β)
    (advance : Advance H D W) (system : System H D W) :
    (program.bind next).run advance system =
      (program.run advance system).bind fun (value, after) => (next value).run advance after := by
  induction program generalizing system with
  | done value => rfl
  | request operation rest ih =>
    simp only [bind, run]
    cases system.perform advance operation with
    | none => rfl
    | some result => exact ih result.1 result.2

theorem run_request (operation : Request H D W) (advance : Advance H D W)
    (system : System H D W) :
    (request operation .done).run advance system = system.perform advance operation := by
  rw [run]
  cases system.perform advance operation <;> rfl

end Program

namespace System

/-- Runs the handler of an entry that was popped, and puts it back. -/
def dispatch (react : Reaction H D W) (nested : Advance H D W) (arming : Arming) (turn : UInt64)
    (system : System H D W) : Option (Option Firing × System H D W) :=
  match system.scheduler.lend arming.timer with
  | (none, left) => some (none, { system with scheduler := left })
  | (some (handler, data), lent) =>
    let tick := lent.tick
    match (react handler arming.timer data).run nested { system with scheduler := lent } with
    | none => none
    | some ((handler, data), ran) =>
      some (some ⟨arming.timer, tick, arming.expiry, turn⟩,
        { ran with scheduler := ran.scheduler.settle arming.timer tick handler data })

/-- Handles entry after entry until none is due, and tells which handlers ran. The queue is
looked at anew each time, because a handler may have changed it. -/
def drain (react : Reaction H D W) (nested : Advance H D W) (fuel : Nat)
    (system : System H D W) : Option (List Firing × System H D W) :=
  match system.scheduler.popDue? with
  | none => some ([], system)
  | some (arming, turn, popped) =>
    match fuel with
    | 0 => none
    | fuel + 1 =>
      match dispatch react nested arming turn { system with scheduler := popped } with
      | none => none
      | some (firing, after) =>
        match drain react nested fuel after with
        | none => none
        | some (firings, final) => some (firing.toList ++ firings, final)

/-- Advances by one tick. A handler that asks for an advance is answered in the same way,
with less to spend. -/
def tryAdvance (react : Reaction H D W) (fuel : Nat) : Advance H D W := fun system =>
  match system.scheduler.beginAdvance with
  | .error error => some (.error error, system)
  | .ok begun =>
    match fuel with
    | 0 => none
    | fuel + 1 =>
      match drain react (tryAdvance react fuel) fuel { system with scheduler := begun } with
      | none => none
      | some (firings, drained) =>
        some (.ok firings, { drained with scheduler := drained.scheduler.endAdvance })

def run (system : System H D W) (react : Reaction H D W) (fuel : Nat)
    (program : Program H D W α) : Option (α × System H D W) :=
  program.run (tryAdvance react fuel) system

variable (system : System H D W) (react : Reaction H D W) (fuel : Nat)

theorem run_bind (program : Program H D W α) (next : α → Program H D W β) :
    system.run react fuel (program >>= next) =
      (system.run react fuel program).bind fun (value, after) =>
        after.run react fuel (next value) :=
  program.run_bind next _ system

theorem run_tryAdvance :
    system.run react fuel Program.tryAdvance = tryAdvance react fuel system :=
  Program.run_request .advance _ system

theorem run_advanceTick :
    system.run react fuel Program.advanceTick =
      (tryAdvance react fuel system).map fun (reply, after) => (reply.toOption.getD [], after) := by
  rw [Program.advanceTick, run_bind, run_tryAdvance]
  cases tryAdvance react fuel system with
  | none => rfl
  | some advanced =>
    obtain ⟨reply, after⟩ := advanced
    cases reply <;> rfl

theorem run_advanceTicks_succ (ticks : Nat) :
    system.run react fuel (Program.advanceTicks (ticks + 1)) =
      (system.run react fuel Program.advanceTick).bind fun (told, after) =>
        (after.run react fuel (Program.advanceTicks ticks)).map fun (more, final) =>
          (told ++ more, final) := by
  rw [Program.advanceTicks_succ, run_bind]
  congr
  funext (told, after)
  dsimp only
  rw [run_bind]
  cases after.run react fuel (Program.advanceTicks ticks) <;> rfl

end System

end Timers
