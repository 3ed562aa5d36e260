import Timers.Tick
import Timers.PriorityQueue.Basic

/-! A timer is a record of when it is due, how often it repeats and what it does. While it
is scheduled it holds the key of its entry in the queue; while its handler runs, handler
and data are lent out of the record. -/

namespace Timers

structure TimerId where
  key : Arena.Key
  deriving DecidableEq, Repr

def TimerId.shown (id : TimerId) : Shown := .tuple "TimerId" [.word id.key.text]

inductive Phase where
  | idle
  | scheduled
  | firing
  | fired
  | stopped
  deriving DecidableEq, Repr

namespace Phase

def initial : Phase := .idle

/-- Every phase, in the order of a timer's life. -/
def all : List Phase := [.idle, .scheduled, .firing, .fired, .stopped]

/-- Whether the timer will fire without another start. -/
def isPending (phase : Phase) : Bool := phase == .scheduled

def shown : Phase → Shown
  | .idle => .word "Idle"
  | .scheduled => .word "Scheduled"
  | .firing => .word "Firing"
  | .fired => .word "Fired"
  | .stopped => .word "Stopped"

end Phase

/-- A period of 0 means that the timer fires once. -/
structure Timer (H D : Type) where
  expiry : Tick := 0
  period : UInt64 := 0
  phase : Phase := Phase.initial
  node : Option NodeKey := none
  handler : Option H
  data : Option D

/-- What the queue holds: a timer and the tick at which it is due. -/
structure Arming where
  expiry : Tick
  timer : TimerId
  deriving DecidableEq, Repr

def Arming.byExpiry (first second : Arming) : Ordering := compare first.expiry second.expiry

end Timers
