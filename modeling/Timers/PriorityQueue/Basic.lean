import Timers.Arena.Basic
import Timers.Text.Shown

/-! A priority queue hands every item a key, by which the item can be looked up, changed
or taken out wherever it stands. The items live in an arena; over it lies a binary heap of
slot numbers, and every node records its position there. The comparator decides which item
comes out first, and items that compare equal come out in the order of their insertion.
Nothing here supposes that the comparator is an order. -/

namespace Timers

inductive QueueError where
  | missingComparator
  | staleNode
  deriving DecidableEq, Repr

namespace QueueError

def message : QueueError → String
  | .missingComparator => "Priority queue needs a comparator."
  | .staleNode => "Node is not present in the priority queue."

def shown : QueueError → Shown
  | .missingComparator => .word "MissingComparator"
  | .staleNode => .word "StaleNode"

end QueueError

structure NodeKey where
  key : Arena.Key
  deriving DecidableEq, Repr

def NodeKey.shown (key : NodeKey) : Shown := .tuple "NodeKey" [.word key.key.text]

namespace PriorityQueue

/-- An item with its position in the heap and its turn, the number of its insertion. -/
structure Node (α : Type u) where
  item : α
  position : Nat
  turn : UInt64

/-- Whether one node comes out before another. -/
def Node.outranks (compare : α → α → Ordering) (first second : Node α) : Bool :=
  match compare first.item second.item with
  | .lt => true
  | .gt => false
  | .eq => first.turn < second.turn

end PriorityQueue

structure PriorityQueue (α : Type u) (compare : α → α → Ordering) where
  nodes : Arena (PriorityQueue.Node α) := {}
  heap : Array Nat := #[]
  nextTurn : UInt64 := 0

namespace PriorityQueue

variable {α : Type u} {compare : α → α → Ordering}

def size (queue : PriorityQueue α compare) : Nat := queue.heap.size

def isEmpty (queue : PriorityQueue α compare) : Bool := queue.heap.isEmpty

def nodeAt? (queue : PriorityQueue α compare) (position : Nat) : Option (Node α) :=
  queue.heap[position]?.bind queue.nodes.getAt?

def outranks (queue : PriorityQueue α compare) (first second : Nat) : Bool :=
  match queue.nodeAt? first, queue.nodeAt? second with
  | some first, some second => first.outranks compare second
  | _, _ => false

/-- Tells the node at a position where it stands. -/
def recordPosition (queue : PriorityQueue α compare) (position : Nat) : PriorityQueue α compare :=
  match queue.heap[position]? with
  | some index =>
    { queue with nodes := queue.nodes.modifyAt index fun node => { node with position } }
  | none => queue

def swap (queue : PriorityQueue α compare) (first second : Nat) : PriorityQueue α compare :=
  ({ queue with heap := queue.heap.swapIfInBounds first second }.recordPosition first).recordPosition second

theorem heap_recordPosition (queue : PriorityQueue α compare) (position : Nat) :
    (queue.recordPosition position).heap = queue.heap := by
  unfold recordPosition
  split <;> rfl

theorem heap_swap (queue : PriorityQueue α compare) (first second : Nat) :
    (queue.swap first second).heap = queue.heap.swapIfInBounds first second := by
  simp [swap, heap_recordPosition]

/-- Lifts a node past every parent that it outranks, and tells where it ends. -/
def siftUp (queue : PriorityQueue α compare) (position : Nat) : Nat × PriorityQueue α compare :=
  if position = 0 then (position, queue)
  else
    let parent := (position - 1) / 2
    if queue.outranks position parent then (queue.swap position parent).siftUp parent
    else (position, queue)
termination_by position

/-- The position that should hold the highest of a node and its children. The left child is
asked first, then the right one against the better of the two. -/
def foremost (queue : PriorityQueue α compare) (position : Nat) : Nat :=
  let left := 2 * position + 1
  let right := left + 1
  let best := if left < queue.heap.size && queue.outranks left position then left else position
  if right < queue.heap.size && queue.outranks right best then right else best

theorem foremost_bounds {queue : PriorityQueue α compare} {position : Nat}
    (moves : queue.foremost position ≠ position) :
    position < queue.foremost position ∧ queue.foremost position < queue.heap.size := by
  unfold foremost at moves ⊢
  simp only [Bool.and_eq_true, decide_eq_true_eq] at moves ⊢
  grind

/-- Sinks a node below every child that outranks it. -/
def siftDown (queue : PriorityQueue α compare) (position : Nat) : PriorityQueue α compare :=
  let best := queue.foremost position
  if best = position then queue else (queue.swap position best).siftDown best
termination_by queue.heap.size - position
decreasing_by
  rename_i moves
  have bounds := foremost_bounds moves
  simp only [heap_swap, Array.size_swapIfInBounds]
  omega

theorem heap_size_siftUp (queue : PriorityQueue α compare) (position : Nat) :
    (queue.siftUp position).2.heap.size = queue.heap.size := by
  fun_induction siftUp queue position <;> simp_all [heap_swap]

theorem heap_size_siftDown (queue : PriorityQueue α compare) (position : Nat) :
    (queue.siftDown position).heap.size = queue.heap.size := by
  fun_induction siftDown queue position <;> simp_all [heap_swap]

def insert (queue : PriorityQueue α compare) (item : α) : NodeKey × PriorityQueue α compare :=
  let position := queue.heap.size
  let (key, nodes) := queue.nodes.insert ⟨item, position, queue.nextTurn⟩
  let grown := { nodes, heap := queue.heap.push key.index, nextTurn := queue.nextTurn + 1 }
  (⟨key⟩, (siftUp grown position).2)

/-- Takes a position out of the heap and moves the tail there. -/
def takeOut (queue : PriorityQueue α compare) (position : Nat) : PriorityQueue α compare :=
  { queue with heap := (queue.heap.swapIfInBounds position (queue.heap.size - 1)).pop }

theorem heap_size_takeOut (queue : PriorityQueue α compare) (position : Nat) :
    (queue.takeOut position).heap.size = queue.heap.size - 1 := by
  simp [takeOut]

/-- The node that comes out next. -/
def front? (queue : PriorityQueue α compare) : Option (Node α) := queue.nodeAt? 0

def peek? (queue : PriorityQueue α compare) : Option α := queue.front?.map (·.item)

def peekKey? (queue : PriorityQueue α compare) : Option NodeKey :=
  (queue.heap[0]?.bind queue.nodes.keyAt?).map NodeKey.mk

def pop (queue : PriorityQueue α compare) : Option α × PriorityQueue α compare :=
  match queue.heap[0]? with
  | none => (none, queue)
  | some index =>
    let shrunk := queue.takeOut 0
    let repaired := if shrunk.heap.isEmpty then shrunk else (shrunk.recordPosition 0).siftDown 0
    let (node, nodes) := repaired.nodes.removeAt index
    (node.map (·.item), { repaired with nodes })

/-- Takes the item of a key out. The tail that fills its place may belong above or below. -/
def remove (queue : PriorityQueue α compare) (key : NodeKey) :
    Except QueueError α × PriorityQueue α compare :=
  match queue.nodes.get? key.key with
  | none => (.error .staleNode, queue)
  | some node =>
    let shrunk := queue.takeOut node.position
    let repaired :=
      if node.position < shrunk.heap.size then
        let (reached, lifted) := (shrunk.recordPosition node.position).siftUp node.position
        if reached = node.position then lifted.siftDown node.position else lifted
      else shrunk
    let (removed, nodes) := repaired.nodes.remove key.key
    match removed with
    | some node => (.ok node.item, { repaired with nodes })
    | none => (.error .staleNode, { repaired with nodes })

def contains (queue : PriorityQueue α compare) (key : NodeKey) : Bool :=
  queue.nodes.contains key.key

def get? (queue : PriorityQueue α compare) (key : NodeKey) : Option α :=
  (queue.nodes.get? key.key).map (·.item)

/-- Changes an item where it stands. Until `reorder` the queue may be out of order. -/
def modify (queue : PriorityQueue α compare) (key : NodeKey) (change : α → α) :
    PriorityQueue α compare :=
  { queue with
    nodes := queue.nodes.modify key.key fun node => { node with item := change node.item } }

def set (queue : PriorityQueue α compare) (key : NodeKey) (item : α) : PriorityQueue α compare :=
  queue.modify key fun _ => item

/-- Restores the order of the whole heap, from the last parent to the root. -/
def reorder (queue : PriorityQueue α compare) : PriorityQueue α compare :=
  (List.range (queue.heap.size / 2)).reverse.foldl siftDown queue

/-- Drops every item. Turns go on from where they were. -/
def clear (queue : PriorityQueue α compare) : PriorityQueue α compare :=
  { queue with nodes := queue.nodes.clear, heap := #[] }

/-- The items as they stand in the heap. -/
def toList (queue : PriorityQueue α compare) : List α :=
  (queue.heap.toList.filterMap queue.nodes.getAt?).map (·.item)

theorem size_pop (queue : PriorityQueue α compare) : queue.pop.2.size = queue.size - 1 := by
  unfold pop size
  split
  next empty => simp_all
  next index found =>
    dsimp only
    split <;> simp [heap_size_siftDown, heap_recordPosition, heap_size_takeOut]

theorem pop_of_isEmpty {queue : PriorityQueue α compare} (empty : queue.isEmpty = true) :
    queue.pop = (none, queue) := by
  simp_all [pop, isEmpty]

theorem size_lt_of_pop {queue rest : PriorityQueue α compare} {item : α}
    (popped : queue.pop = (some item, rest)) : rest.size < queue.size := by
  have smaller := queue.size_pop
  rw [popped] at smaller
  have inhabited : queue.size ≠ 0 := by
    intro none
    have empty : queue.isEmpty = true := by simpa [size, isEmpty] using none
    rw [pop_of_isEmpty empty] at popped
    cases popped
  dsimp only at smaller
  omega

/-- Pops until nothing comes out. -/
def drain (queue : PriorityQueue α compare) : List α × PriorityQueue α compare :=
  match popped : queue.pop with
  | (none, rest) => ([], rest)
  | (some item, rest) =>
    have _smaller := size_lt_of_pop popped
    let (items, last) := rest.drain
    (item :: items, last)
termination_by queue.size

def shown (queue : PriorityQueue α compare) (item : α → Shown) : Shown :=
  .record "PriorityQueue"
    [("len", .ofNat queue.size), ("root", .ofOption (queue.peek?.map item))]

end PriorityQueue

end Timers
