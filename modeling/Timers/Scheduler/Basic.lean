import Timers.Error
import Timers.Feed

/-! A scheduler owns a tick, an arena of timers and a queue of the armed ones. The timer's
record and its entry in the queue point at each other: the record holds the entry's key,
the entry holds the timer's id. This module holds the state and what can be read off it. -/

namespace Timers

/-- How a scheduler starts: its first tick, the room made in advance, and whether it is
ready to report events. -/
structure Config where
  initialTick : Tick := 0
  capacity : Nat := 0
  reporting : Bool := false

def Config.shown (config : Config) : Shown :=
  .record "SchedulerBuilder"
    [("initial_tick", .ofNat config.initialTick.toNat),
      ("capacity", .ofNat config.capacity),
      ("enable_status_report", .ofBool config.reporting)]

/-- What a scheduler tells about itself as a whole. -/
structure Summary where
  tick : Tick
  timerCount : Nat
  scheduledCount : Nat
  nextTimer : Option TimerId
  nextExpiry : Option Tick
  ticksUntilNext : Option UInt64

def Summary.shown (summary : Summary) : Shown :=
  .record "Scheduler"
    [("tick", .ofNat summary.tick.toNat),
      ("timers", .ofNat summary.timerCount),
      ("scheduled", .ofNat summary.scheduledCount),
      ("next_expiry", .ofOption (summary.nextExpiry.map (.ofNat ·.toNat)))]

/-- What a scheduler tells about one timer. There are no data while the handler holds them. -/
structure TimerView (D : Type) where
  phase : Phase
  expiry : Tick
  period : UInt64
  scheduled : Bool
  data : Option D

structure Scheduler (H D : Type) where
  queue : PriorityQueue Arming Arming.byExpiry := {}
  timers : Arena (Timer H D) := {}
  tick : Tick := 0
  initialTick : Tick := 0
  dispatching : Bool := false
  reporting : Bool := false
  feed : Option Feed := none

namespace Scheduler

variable {H D : Type}

def ofConfig (config : Config) : Scheduler H D :=
  { tick := config.initialTick
    initialTick := config.initialTick
    reporting := config.reporting }

def timer? (scheduler : Scheduler H D) (id : TimerId) : Option (Timer H D) :=
  scheduler.timers.get? id.key

/-- The ids of all timers, in the order of their slots. -/
def ids (scheduler : Scheduler H D) : List TimerId :=
  scheduler.timers.toList.map (⟨·.1⟩)

def timerCount (scheduler : Scheduler H D) : Nat := scheduler.timers.size

def scheduledCount (scheduler : Scheduler H D) : Nat := scheduler.queue.size

def nextExpiry? (scheduler : Scheduler H D) : Option Tick :=
  scheduler.queue.peek?.map (·.expiry)

def nextTimer? (scheduler : Scheduler H D) : Option TimerId :=
  scheduler.queue.peek?.map (·.timer)

def ticksUntilNext? (scheduler : Scheduler H D) : Option UInt64 :=
  scheduler.nextExpiry?.map (Tick.untilDue scheduler.tick)

def summary (scheduler : Scheduler H D) : Summary where
  tick := scheduler.tick
  timerCount := scheduler.timerCount
  scheduledCount := scheduler.scheduledCount
  nextTimer := scheduler.nextTimer?
  nextExpiry := scheduler.nextExpiry?
  ticksUntilNext := scheduler.ticksUntilNext?

def view? (scheduler : Scheduler H D) (id : TimerId) : Option (TimerView D) :=
  (scheduler.timer? id).map fun timer =>
    { phase := timer.phase
      expiry := timer.expiry
      period := timer.period
      scheduled := timer.node.isSome
      data := timer.data }

def isScheduled (scheduler : Scheduler H D) (id : TimerId) : Bool :=
  (scheduler.view? id).any (·.scheduled)

def phase? (scheduler : Scheduler H D) (id : TimerId) : Option Phase :=
  (scheduler.view? id).map (·.phase)

def expiry? (scheduler : Scheduler H D) (id : TimerId) : Option Tick :=
  (scheduler.view? id).map (·.expiry)

def period? (scheduler : Scheduler H D) (id : TimerId) : Option UInt64 :=
  (scheduler.view? id).map (·.period)

def data? (scheduler : Scheduler H D) (id : TimerId) : Option D :=
  (scheduler.view? id).bind (·.data)

/-- The events of a scheduler that is given up can still be received. -/
def close (scheduler : Scheduler H D) : Option Feed := scheduler.feed.map Feed.close

end Scheduler

end Timers
