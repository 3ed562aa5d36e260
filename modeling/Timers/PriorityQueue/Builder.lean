import Timers.PriorityQueue.Basic

/-! A queue can be configured first and built later. Building fails as long as no
comparator is bound. -/

namespace Timers.PriorityQueue

structure Builder (α : Type u) where
  comparator : Option (α → α → Ordering) := none
  capacity : Nat := 0

namespace Builder

variable {α : Type u}

def withComparator (builder : Builder α) (compare : α → α → Ordering) : Builder α :=
  { builder with comparator := some compare }

def withCapacity (builder : Builder α) (capacity : Nat) : Builder α :=
  { builder with capacity }

def build (builder : Builder α) : Except QueueError ((compare : α → α → Ordering) × PriorityQueue α compare) :=
  match builder.comparator with
  | some compare => .ok ⟨compare, {}⟩
  | none => .error .missingComparator

def shown (builder : Builder α) : Shown :=
  .record "PriorityQueueBuilder"
    [("comparator", .ofBool builder.comparator.isSome), ("capacity", .ofNat builder.capacity)]

end Builder

end Timers.PriorityQueue
