import Timers.Timer

/-! What happens to timers is published as events. A feed remembers every event that was
published and how many of them have been received; whoever receives, receives the oldest
one that nobody has received yet. -/

namespace Timers

inductive Event where
  | started (timer : TimerId) (expiry : Tick)
  | stopped (timer : TimerId)
  | fired (timer : TimerId) (tick : Tick)
  | rearmed (timer : TimerId) (expiry : Tick)
  deriving DecidableEq, Repr

namespace Event

def timer : Event → TimerId
  | .started timer _ | .stopped timer | .fired timer _ | .rearmed timer _ => timer

/-- The tick that the event tells, for all but a stop. -/
def tick? : Event → Option Tick
  | .started _ tick | .fired _ tick | .rearmed _ tick => some tick
  | .stopped _ => none

def name : Event → String
  | .started .. => "TimerStarted"
  | .stopped .. => "TimerStopped"
  | .fired .. => "TimerFired"
  | .rearmed .. => "TimerRearmed"

def shown (event : Event) : Shown :=
  .tuple event.name (event.timer.shown :: (event.tick?.map (.ofNat ·.toNat)).toList)

end Event

/-- Why nothing was received: nothing is waiting, or nothing will ever come. -/
inductive ReceiveError where
  | empty
  | closed
  deriving DecidableEq, Repr

def ReceiveError.message : ReceiveError → String
  | .empty => "receiving from an empty channel"
  | .closed => "receiving from an empty and closed channel"

structure Feed where
  published : Array Event := #[]
  received : Nat := 0
  closed : Bool := false

namespace Feed

def publish (feed : Feed) (event : Event) : Feed :=
  { feed with published := feed.published.push event }

/-- Nothing more will be published; what is waiting can still be received. -/
def close (feed : Feed) : Feed := { feed with closed := true }

/-- The events that nobody has received yet, the oldest first. -/
def waiting (feed : Feed) : List Event := feed.published.toList.drop feed.received

def receive (feed : Feed) : Except ReceiveError Event × Feed :=
  match feed.published[feed.received]? with
  | some event => (.ok event, { feed with received := feed.received + 1 })
  | none => (.error (if feed.closed then .closed else .empty), feed)

def drain (feed : Feed) : List Event × Feed :=
  (feed.waiting, { feed with received := feed.published.size })

theorem waiting_publish {feed : Feed} (behind : feed.received ≤ feed.published.size)
    (event : Event) : (feed.publish event).waiting = feed.waiting ++ [event] := by
  simp [waiting, publish, List.drop_append_of_le_length, behind]

theorem waiting_of_receive {feed rest : Feed} {event : Event}
    (received : feed.receive = (.ok event, rest)) : feed.waiting = event :: rest.waiting := by
  unfold receive at received
  split at received
  next found =>
    cases received
    obtain ⟨inside, rfl⟩ := Array.getElem?_eq_some_iff.mp found
    simp only [waiting]
    rw [List.drop_eq_getElem_cons (by simpa using inside)]
    simp
  next => cases received

theorem waiting_drain (feed : Feed) : feed.drain.2.waiting = [] := by
  simp [drain, waiting]

end Feed

end Timers
