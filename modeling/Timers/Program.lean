import Timers.Scheduler.Dispatch

/-! What is done with a scheduler, from outside or by a handler, is a program: a finite tree
of requests in which every request is followed by what is done with its reply. Besides the
scheduler a program sees a value that all programs share. A program is data, so that what
it may request can be said of it before it runs. -/

namespace Timers

/-- One run of a handler: whose it was, the tick at which it began, when the timer had been
due, and the turn of the entry that made it run. -/
structure Firing where
  timer : TimerId
  tick : Tick
  expiry : Tick
  turn : UInt64
  deriving DecidableEq, Repr

inductive Query where
  | summary
  | timers
  | timer (id : TimerId)

def Query.Answer (D : Type) : Query → Type
  | .summary => Summary
  | .timers => List TimerId
  | .timer _ => Option (TimerView D)

inductive Command (H D : Type) where
  | add (handler : H) (data : D)
  | start (id : TimerId) (delay : UInt64) (periodic : Bool)
  | stop (id : TimerId)
  | remove (id : TimerId)
  | rebind (id : TimerId) (handler : H)
  | setPeriod (id : TimerId) (period : UInt64)
  | modifyData (id : TimerId) (change : D → D)
  | reset
  | takeReporter
  | receive
  | drainEvents

def Command.Reply {H D : Type} : Command H D → Type
  | .add .. => TimerId
  | .start .. => Except TimerError Unit
  | .stop _ => Except TimerError Bool
  | .remove _ => Except TimerError D
  | .rebind .. => Except TimerError Unit
  | .setPeriod .. => Except TimerError Unit
  | .modifyData .. => Option D
  | .reset => Unit
  | .takeReporter => Bool
  | .receive => Except ReceiveError Event
  | .drainEvents => List Event

/-- A change of the shared value replies with the value before the change. -/
inductive Request (H D W : Type) where
  | query (asked : Query)
  | command (given : Command H D)
  | advance
  | shared (change : W → W)

def Request.Reply {H D W : Type} : Request H D W → Type
  | .query asked => asked.Answer D
  | .command given => given.Reply
  | .advance => Except TimerError (List Firing)
  | .shared _ => W

inductive Program (H D W α : Type) where
  | done (value : α)
  | request (operation : Request H D W) (next : operation.Reply → Program H D W α)

namespace Program

variable {H D W α β γ : Type}

def bind (program : Program H D W α) (next : α → Program H D W β) : Program H D W β :=
  match program with
  | .done value => next value
  | .request operation rest => .request operation fun reply => (rest reply).bind next

instance : Monad (Program H D W) where
  pure := .done
  bind := bind

theorem bind_done (program : Program H D W α) : program.bind .done = program := by
  induction program with
  | done value => rfl
  | request operation rest ih => simp only [bind, ih]

theorem bind_assoc (program : Program H D W α) (first : α → Program H D W β)
    (second : β → Program H D W γ) :
    (program.bind first).bind second = program.bind fun value => (first value).bind second := by
  induction program with
  | done value => rfl
  | request operation rest ih => simp only [bind, ih]

instance : LawfulMonad (Program H D W) :=
  LawfulMonad.mk' _ bind_done (fun _ _ => rfl) bind_assoc

def summary : Program H D W Summary := .request (.query .summary) .done

def timers : Program H D W (List TimerId) := .request (.query .timers) .done

def timer (id : TimerId) : Program H D W (Option (TimerView D)) :=
  .request (.query (.timer id)) .done

def add (handler : H) (data : D) : Program H D W TimerId :=
  .request (.command (.add handler data)) .done

def start (id : TimerId) (delay : UInt64) (periodic : Bool) :
    Program H D W (Except TimerError Unit) :=
  .request (.command (.start id delay periodic)) .done

def stop (id : TimerId) : Program H D W (Except TimerError Bool) :=
  .request (.command (.stop id)) .done

def remove (id : TimerId) : Program H D W (Except TimerError D) :=
  .request (.command (.remove id)) .done

def rebind (id : TimerId) (handler : H) : Program H D W (Except TimerError Unit) :=
  .request (.command (.rebind id handler)) .done

def setPeriod (id : TimerId) (period : UInt64) : Program H D W (Except TimerError Unit) :=
  .request (.command (.setPeriod id period)) .done

def modifyData (id : TimerId) (change : D → D) : Program H D W (Option D) :=
  .request (.command (.modifyData id change)) .done

def reset : Program H D W Unit := .request (.command .reset) .done

def takeReporter : Program H D W Bool := .request (.command .takeReporter) .done

def receive : Program H D W (Except ReceiveError Event) := .request (.command .receive) .done

def drainEvents : Program H D W (List Event) := .request (.command .drainEvents) .done

def shared (change : W → W) : Program H D W W := .request (.shared change) .done

def tryAdvance : Program H D W (Except TimerError (List Firing)) := .request .advance .done

/-- An advance that counts as nothing when it is refused. -/
def advanceTick : Program H D W (List Firing) := do
  match ← tryAdvance with
  | .ok firings => return firings
  | .error _ => return []

def advanceTicksAfter : Nat → Array Firing → Program H D W (List Firing)
  | 0, firings => return firings.toList
  | ticks + 1, firings => do advanceTicksAfter ticks (firings ++ (← advanceTick))

/-- Advances that often, and tells which handlers ran in all. -/
def advanceTicks (ticks : Nat) : Program H D W (List Firing) := advanceTicksAfter ticks #[]

theorem advanceTicksAfter_eq (ticks : Nat) (firings : Array Firing) :
    advanceTicksAfter ticks firings =
      (advanceTicks ticks >>= fun rest => return firings.toList ++ rest : Program H D W _) := by
  induction ticks generalizing firings with
  | zero => simp [advanceTicks, advanceTicksAfter]
  | succ ticks ih =>
    simp only [advanceTicks, advanceTicksAfter, LawfulMonad.bind_assoc]
    congr
    funext first
    rw [ih, ih (#[] ++ first)]
    simp

theorem advanceTicks_succ (ticks : Nat) :
    advanceTicks (ticks + 1) =
      (do return (← advanceTick) ++ (← advanceTicks ticks) : Program H D W _) := by
  rw [advanceTicks, advanceTicksAfter]
  congr
  funext first
  rw [advanceTicksAfter_eq]
  simp

end Program

/-- What a handler does when its timer expires. It is given the timer and its data, and ends
with the handler and the data that go back. -/
abbrev Reaction (H D W : Type) := H → TimerId → D → Program H D W (H × D)

namespace Reaction

variable {H D W : Type}

def idle : Reaction H D W := fun handler _ data => .done (handler, data)

/-- Touches nothing but the handler's own state and the timer's data. -/
def onData (change : H → D → H × D) : Reaction H D W := fun handler _ data =>
  .done (change handler data)

end Reaction

end Timers
