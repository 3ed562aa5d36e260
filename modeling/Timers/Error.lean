import Timers.Timer

/-! What a scheduler refuses, and how it says so. -/

namespace Timers

inductive TimerError where
  | invalidTimer (id : TimerId)
  | firing (id : TimerId)
  | reentrantAdvance
  | tickOverflow
  | queue (cause : QueueError)
  deriving DecidableEq, Repr

namespace TimerError

def message : TimerError → String
  | .invalidTimer id => "Timer " ++ id.shown.inlineText ++ " does not exist in this scheduler."
  | .firing id => "Timer " ++ id.shown.inlineText ++ " is inside its callback."
  | .reentrantAdvance => "The tick can't be advanced from inside a timer callback."
  | .tickOverflow => "The tick counter can't move past u64::MAX."
  | .queue _ => "Priority queue operation failed."

/-- The error of the queue that lies behind. -/
def cause? : TimerError → Option QueueError
  | .queue cause => some cause
  | _ => none

/-- The name of the error, without what it is about. -/
def name : TimerError → String
  | .invalidTimer _ => "InvalidTimer"
  | .firing _ => "Firing"
  | .reentrantAdvance => "ReentrantAdvance"
  | .tickOverflow => "TickOverflow"
  | .queue _ => "Queue"

def shown (error : TimerError) : Shown :=
  match error with
  | .invalidTimer id | .firing id => .tuple error.name [id.shown]
  | .queue cause => .tuple error.name [cause.shown]
  | .reentrantAdvance | .tickOverflow => .word error.name

end TimerError

end Timers
