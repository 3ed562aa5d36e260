import Timers.System.Basic

/-! A ticker drives a scheduler, one advance a period, until it is stopped or has driven as
many ticks as it was asked for. How long a period lasts is the runtime's concern; here only
the ticks count. -/

namespace Timers

/-- The two runtimes on whose clock a ticker can sleep. -/
inductive Runtime where
  | light
  | full
  deriving DecidableEq, Repr

namespace Runtime

/-- The runtime of a ticker that was not given one. -/
def preferred : Runtime := .full

def shown : Runtime → Shown
  | .light => .word "Smol"
  | .full => .word "Tokio"

end Runtime

structure Ticker where
  micros : Nat
  runtime : Runtime := Runtime.preferred
  running : Bool := true

namespace Ticker

def stop (ticker : Ticker) : Ticker := { ticker with running := false }

/-- The loop of a ticker whose state is part of the shared value, from a number of ticks
and the handlers that ran in them on. It has no result if the given rounds do not suffice. -/
def driveAfter {H D W : Type} (running : W → Bool) (limit : Option Nat) :
    (rounds driven : Nat) → Array Firing → Program H D W (Option (Nat × List Firing))
  | 0, _, _ => return none
  | rounds + 1, driven, firings => do
    let awake ← Program.shared id
    if running awake && limit.all (driven < ·) then
      -- Here it sleeps until the tick is due. A ticker that is stopped does not drive that tick.
      let woken ← Program.shared id
      if running woken then
        driveAfter running limit rounds (driven + 1) (firings ++ (← Program.advanceTick))
      else
        return some (driven, firings.toList)
    else
      return some (driven, firings.toList)

/-- Drives until the ticker is stopped or the limit is reached. A tick whose advance is
refused counts as driven. -/
def drive {H D W : Type} (running : W → Bool) (limit : Option Nat) (rounds : Nat) :
    Program H D W (Option (Nat × List Firing)) :=
  driveAfter running limit rounds 0 #[]

end Ticker

end Timers
