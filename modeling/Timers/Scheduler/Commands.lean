import Timers.Scheduler.Basic

/-! What can be done to the timers of a scheduler. A command that can be refused answers
with an error or a value, and with the state it leaves in either case. -/

namespace Timers.Scheduler

variable {H D : Type}

def updateTimer (scheduler : Scheduler H D) (id : TimerId) (change : Timer H D → Timer H D) :
    Scheduler H D :=
  { scheduler with timers := scheduler.timers.modify id.key change }

/-- Nothing is published before somebody has taken the receiving side. -/
def publish (scheduler : Scheduler H D) (event : Event) : Scheduler H D :=
  { scheduler with feed := scheduler.feed.map (·.publish event) }

/-- Registers an idle timer. -/
def add (scheduler : Scheduler H D) (handler : H) (data : D) : TimerId × Scheduler H D :=
  let (key, timers) := scheduler.timers.insert { handler := some handler, data := some data }
  (⟨key⟩, { scheduler with timers })

/-- Takes a timer's entry out of the queue, and tells whether it had one. -/
def disarm (scheduler : Scheduler H D) (id : TimerId) (timer : Timer H D) :
    Except QueueError Bool × Scheduler H D :=
  match timer.node with
  | none => (.ok false, scheduler)
  | some node =>
    let unlinked := scheduler.updateTimer id ({ · with node := none })
    let (removed, queue) := unlinked.queue.remove node
    (removed.map fun _ => true, { unlinked with queue })

/-- Puts an entry for a timer into the queue. -/
def arm (scheduler : Scheduler H D) (id : TimerId) (expiry : Tick) : Scheduler H D :=
  let (node, queue) := scheduler.queue.insert ⟨expiry, id⟩
  { scheduler with queue }.updateTimer id
    ({ · with expiry, phase := .scheduled, node := some node })

/-- Schedules a timer a delay from now, anew if it is already scheduled. -/
def start (scheduler : Scheduler H D) (id : TimerId) (delay : UInt64) (periodic : Bool) :
    Except TimerError Unit × Scheduler H D :=
  match scheduler.timer? id with
  | none => (.error (.invalidTimer id), scheduler)
  | some timer =>
    match scheduler.disarm id timer with
    | (.error cause, left) => (.error (.queue cause), left)
    | (.ok _, free) =>
      let expiry := free.tick.after delay
      let repeating := free.updateTimer id ({ · with period := if periodic then delay else 0 })
      (.ok (), (repeating.arm id expiry).publish (.started id expiry))

/-- Takes a timer off the schedule, and tells whether it was on it. A timer that is stopped
while its handler runs will not be armed again. -/
def stop (scheduler : Scheduler H D) (id : TimerId) : Except TimerError Bool × Scheduler H D :=
  match scheduler.timer? id with
  | none => (.error (.invalidTimer id), scheduler)
  | some timer =>
    match scheduler.disarm id timer with
    | (.error cause, left) => (.error (.queue cause), left)
    | (.ok wasScheduled, free) =>
      let halted :=
        if wasScheduled || timer.phase == .firing then
          free.updateTimer id ({ · with phase := .stopped })
        else free
      (.ok wasScheduled, halted.publish (.stopped id))

/-- Unregisters a timer and gives its data back, unless its handler is running. -/
def remove (scheduler : Scheduler H D) (id : TimerId) : Except TimerError D × Scheduler H D :=
  match scheduler.timer? id with
  | none => (.error (.invalidTimer id), scheduler)
  | some timer =>
    match timer.data, timer.handler with
    | some data, some _ =>
      match scheduler.disarm id timer with
      | (.error cause, left) => (.error (.queue cause), left)
      | (.ok _, free) => (.ok data, { free with timers := (free.timers.remove id.key).2 })
    | _, _ => (.error (.firing id), scheduler)

/-- Binds another handler, which acts from the next expiry on. -/
def rebind (scheduler : Scheduler H D) (id : TimerId) (handler : H) :
    Except TimerError Unit × Scheduler H D :=
  match scheduler.timer? id with
  | none => (.error (.invalidTimer id), scheduler)
  | some _ => (.ok (), scheduler.updateTimer id ({ · with handler := some handler }))

/-- Changes how often a timer repeats. When it is due next stays as it is. -/
def setPeriod (scheduler : Scheduler H D) (id : TimerId) (period : UInt64) :
    Except TimerError Unit × Scheduler H D :=
  match scheduler.timer? id with
  | none => (.error (.invalidTimer id), scheduler)
  | some _ => (.ok (), scheduler.updateTimer id ({ · with period }))

/-- Changes a timer's data where they are, and gives them as changed. -/
def modifyData (scheduler : Scheduler H D) (id : TimerId) (change : D → D) :
    Option D × Scheduler H D :=
  let changed := scheduler.updateTimer id fun timer => { timer with data := timer.data.map change }
  (changed.data? id, changed)

/-- Drops every timer and goes back to the first tick. -/
def reset (scheduler : Scheduler H D) : Scheduler H D :=
  { scheduler with
    queue := scheduler.queue.clear
    timers := scheduler.timers.clear
    tick := scheduler.initialTick }

/-- Opens the feed, once and only where reporting is enabled. -/
def takeReporter (scheduler : Scheduler H D) : Bool × Scheduler H D :=
  if scheduler.reporting && scheduler.feed.isNone then
    (true, { scheduler with feed := some {} })
  else (false, scheduler)

def receive (scheduler : Scheduler H D) : Except ReceiveError Event × Scheduler H D :=
  match scheduler.feed with
  | none => (.error .empty, scheduler)
  | some feed =>
    let (received, feed) := feed.receive
    (received, { scheduler with feed := some feed })

def drainEvents (scheduler : Scheduler H D) : List Event × Scheduler H D :=
  match scheduler.feed with
  | none => ([], scheduler)
  | some feed =>
    let (events, feed) := feed.drain
    (events, { scheduler with feed := some feed })

end Timers.Scheduler
