import Timers.Scheduler.Commands

/-! What a scheduler does around the run of a handler: it moves the tick, takes the entry
that is due, lends handler and data out, and puts them back when the handler is done. -/

namespace Timers.Scheduler

variable {H D : Type}

/-- Moves to the next tick and starts to dispatch. Only one advance goes on at a time. -/
def beginAdvance (scheduler : Scheduler H D) : Except TimerError (Scheduler H D) :=
  if scheduler.dispatching then .error .reentrantAdvance
  else
    match scheduler.tick.next? with
    | none => .error .tickOverflow
    | some tick => .ok { scheduler with tick, dispatching := true }

def endAdvance (scheduler : Scheduler H D) : Scheduler H D :=
  { scheduler with dispatching := false }

/-- The first entry of the queue with its turn, if its tick has come. -/
def popDue? (scheduler : Scheduler H D) : Option (Arming × UInt64 × Scheduler H D) :=
  match scheduler.queue.front? with
  | none => none
  | some node =>
    if node.item.expiry ≤ scheduler.tick then
      match scheduler.queue.pop with
      | (some arming, queue) => some (arming, node.turn, { scheduler with queue })
      | (none, _) => none
    else none

/-- Takes handler and data out of a timer whose entry was popped. -/
def lend (scheduler : Scheduler H D) (id : TimerId) : Option (H × D) × Scheduler H D :=
  match scheduler.timer? id with
  | none => (none, scheduler)
  | some timer =>
    let unlinked := scheduler.updateTimer id ({ · with node := none })
    match timer.handler, timer.data with
    | some handler, some data =>
      (some (handler, data),
        unlinked.updateTimer id ({ · with handler := none, data := none, phase := .firing }))
    | _, _ => (none, unlinked)

/-- Puts data and handler back, if the timer is still there. A handler that was bound in
the meantime stays. -/
def takeBack (scheduler : Scheduler H D) (id : TimerId) (handler : H) (data : D) :
    Scheduler H D :=
  scheduler.updateTimer id fun timer =>
    { timer with handler := some (timer.handler.getD handler), data := some data }

/-- Decides what becomes of a timer that was neither stopped nor started by its handler: it
is armed again a period after it was due, or it is done. -/
def rearm (scheduler : Scheduler H D) (id : TimerId) : Scheduler H D :=
  match scheduler.timer? id with
  | none => scheduler
  | some timer =>
    if timer.phase = .firing then
      if timer.period = 0 then scheduler.updateTimer id ({ · with phase := .fired })
      else
        let expiry := timer.expiry.after timer.period
        (scheduler.arm id expiry).publish (.rearmed id expiry)
    else scheduler

/-- Ends the run of a handler that began at a tick. -/
def settle (scheduler : Scheduler H D) (id : TimerId) (tick : Tick) (handler : H) (data : D) :
    Scheduler H D :=
  ((scheduler.publish (.fired id tick)).takeBack id handler data).rearm id

end Timers.Scheduler
