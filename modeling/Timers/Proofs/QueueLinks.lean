import Timers.Proofs.ArenaKeys
import Timers.PriorityQueue.Basic

/-! The heap of a queue and its nodes point at each other, whatever the comparator says.
Sifting only rearranges: it moves slot numbers in the heap and positions in the nodes, and
touches nothing else. So each operation has one law on what the keys of the queue hold. -/

namespace Timers.PriorityQueue

variable {α : Type u} {compare : α → α → Ordering} {queue before after : PriorityQueue α compare}

/-- What the order of a node depends on: its item and its turn. -/
def Node.rank (node : Node α) : α × UInt64 := (node.item, node.turn)

/-- Item and turn behind a key. -/
def held? (queue : PriorityQueue α compare) (key : NodeKey) : Option (α × UInt64) :=
  (queue.nodes.get? key.key).map Node.rank

/-- Item and turn at a position of the heap. -/
def rankAt? (queue : PriorityQueue α compare) (position : Nat) : Option (α × UInt64) :=
  (queue.nodeAt? position).map Node.rank

/-- Heap and nodes agree on where every node stands, but for one slot whose node has left
the heap already. -/
def LinkedBut (queue : PriorityQueue α compare) (gone : Option Nat) : Prop :=
  ∀ position index, queue.heap[position]? = some index ↔
    gone ≠ some index ∧ ∃ node, queue.nodes.getAt? index = some node ∧ node.position = position

def Linked (queue : PriorityQueue α compare) : Prop := queue.LinkedBut none

theorem linked_iff : queue.Linked ↔ ∀ position index, queue.heap[position]? = some index ↔
    ∃ node, queue.nodes.getAt? index = some node ∧ node.position = position := by
  simp [Linked, LinkedBut]

theorem Linked.listed (linked : queue.Linked) {index : Nat} {node : Node α}
    (seen : queue.nodes.getAt? index = some node) : queue.heap[node.position]? = some index :=
  (linked_iff.mp linked node.position index).mpr ⟨node, seen, rfl⟩

theorem Linked.node (linked : queue.Linked) {position index : Nat}
    (listed : queue.heap[position]? = some index) :
    ∃ node, queue.nodes.getAt? index = some node ∧ node.position = position :=
  (linked_iff.mp linked position index).mp listed

def unplaced (nodes : Arena (Node α)) : Arena (Node α) :=
  nodes.mapAll fun node => { node with position := 0 }

/-- The second queue holds what the first one holds, at other positions maybe. -/
structure Rearranged (before after : PriorityQueue α compare) : Prop where
  shelves : unplaced after.nodes = unplaced before.nodes
  turn : after.nextTurn = before.nextTurn
  size : after.heap.size = before.heap.size
  links : ∀ gone, before.LinkedBut gone → after.LinkedBut gone

namespace Rearranged

theorem refl (queue : PriorityQueue α compare) : Rearranged queue queue :=
  ⟨rfl, rfl, rfl, fun _ linked => linked⟩

theorem trans {between : PriorityQueue α compare} (first : Rearranged before between)
    (second : Rearranged between after) : Rearranged before after :=
  ⟨second.shelves.trans first.shelves, second.turn.trans first.turn, second.size.trans first.size,
    fun gone linked => second.links gone (first.links gone linked)⟩

end Rearranged

private theorem rank_unplaced {first second : Option (Node α)}
    (same : first.map (fun node => { node with position := 0 }) =
      second.map (fun node => { node with position := 0 })) :
    first.map Node.rank = second.map Node.rank := by
  cases first <;> cases second <;> simp_all [Node.rank]

theorem rank_of_shelves (shelves : unplaced after.nodes = unplaced before.nodes) (index : Nat) :
    (after.nodes.getAt? index).map Node.rank = (before.nodes.getAt? index).map Node.rank := by
  apply rank_unplaced
  rw [← Arena.getAt?_mapAll, ← Arena.getAt?_mapAll]
  exact congrArg (·.getAt? index) shelves

theorem getAt?_of_shelves (shelves : unplaced after.nodes = unplaced before.nodes) {index : Nat}
    {node : Node α} (seen : before.nodes.getAt? index = some node) :
    ∃ moved, after.nodes.getAt? index = some moved ∧ moved.rank = node.rank := by
  have same := rank_of_shelves shelves index
  rw [seen, Option.map_some] at same
  exact Option.map_eq_some_iff.mp same

theorem held?_of_shelves (shelves : unplaced after.nodes = unplaced before.nodes)
    (key : NodeKey) : after.held? key = before.held? key := by
  apply rank_unplaced
  rw [← Arena.get?_mapAll, ← Arena.get?_mapAll]
  exact congrArg (·.get? key.key) shelves

theorem generationAt_of_shelves (shelves : unplaced after.nodes = unplaced before.nodes)
    (index : Nat) : after.nodes.generationAt index = before.nodes.generationAt index := by
  have same := congrArg (·.generationAt index) shelves
  simpa only [unplaced, Arena.generationAt_mapAll] using same

theorem shelves_recordPosition (queue : PriorityQueue α compare) (position : Nat) :
    unplaced (queue.recordPosition position).nodes = unplaced queue.nodes := by
  simp only [recordPosition]
  split
  · exact Arena.mapAll_modifyAt _ _ fun _ => rfl
  · rfl

theorem nextTurn_recordPosition (queue : PriorityQueue α compare) (position : Nat) :
    (queue.recordPosition position).nextTurn = queue.nextTurn := by
  simp only [recordPosition]
  split <;> rfl

private theorem shelves_swap (queue : PriorityQueue α compare) (first second : Nat) :
    unplaced (queue.swap first second).nodes = unplaced queue.nodes := by
  rw [swap, shelves_recordPosition, shelves_recordPosition]

/-- Where the node of a position stands after two positions were swapped. -/
def exchange (first second position : Nat) : Nat :=
  if position = first then second else if position = second then first else position

private theorem exchange_exchange (first second position : Nat) :
    exchange first second (exchange first second position) = position := by
  simp only [exchange]
  grind

theorem exchange_left (first second : Nat) : exchange first second first = second := by
  simp [exchange]

theorem exchange_right (first second : Nat) : exchange first second second = first := by
  simp only [exchange]
  split
  next same => exact same
  next => simp

theorem exchange_of_ne {first second position : Nat} (left : position ≠ first)
    (right : position ≠ second) : exchange first second position = position := by
  simp [exchange, left, right]

theorem perm_exchanged (heap : Array Nat) (first second : Nat) :
    (heap.swapIfInBounds first second).Perm heap := by
  unfold Array.swapIfInBounds
  split
  · split
    · exact Array.swap_perm _ _
    · exact .rfl
  · exact .rfl

section Swap

variable {first second : Nat} (firstInside : first < queue.heap.size)
  (secondInside : second < queue.heap.size)

include firstInside secondInside

theorem heap?_exchanged (position : Nat) :
    (queue.heap.swapIfInBounds first second)[position]? =
      queue.heap[exchange first second position]? := by
  have swapped : queue.heap.swapIfInBounds first second = queue.heap.swap first second := by
    simp [Array.swapIfInBounds, firstInside, secondInside]
  rw [swapped, Array.getElem?_swap]
  by_cases left : first = position
  · subst left
    by_cases both : second = first
    · subst both
      simp [exchange, firstInside]
    · simp [exchange, both, secondInside]
  · by_cases right : second = position
    · subst right
      simp [exchange, Ne.symm left, firstInside]
    · simp [exchange, left, right, Ne.symm left, Ne.symm right]

private theorem heap?_swap (position : Nat) :
    (queue.swap first second).heap[position]? = queue.heap[exchange first second position]? := by
  rw [heap_swap, heap?_exchanged firstInside secondInside]

theorem rankAt?_swap (position : Nat) :
    (queue.swap first second).rankAt? position =
      queue.rankAt? (exchange first second position) := by
  simp only [rankAt?, nodeAt?]
  rw [heap?_swap firstInside secondInside]
  cases queue.heap[exchange first second position]? with
  | none => rfl
  | some index => exact rank_of_shelves (queue.shelves_swap first second) index

private theorem getAt?_swap {gone : Option Nat} (linked : queue.LinkedBut gone) {index : Nat}
    (present : gone ≠ some index) :
    (queue.swap first second).nodes.getAt? index = (queue.nodes.getAt? index).map fun node =>
      { node with position := exchange first second node.position } := by
  have left : (queue.heap.swapIfInBounds first second)[first]? = queue.heap[second]? := by
    rw [heap?_exchanged firstInside secondInside, exchange_left]
  have right : (queue.heap.swapIfInBounds first second)[second]? = queue.heap[first]? := by
    rw [heap?_exchanged firstInside secondInside, exchange_right]
  have atFirst := Array.getElem?_eq_getElem firstInside
  have atSecond := Array.getElem?_eq_getElem secondInside
  have nodes : (queue.swap first second).nodes =
      (queue.nodes.modifyAt queue.heap[second] ({ · with position := first })).modifyAt
        queue.heap[first] ({ · with position := second }) := by
    simp only [swap, recordPosition, left, right, atFirst, atSecond]
  obtain ⟨_, lower, seenLower, placedLower⟩ := (linked first _).mp atFirst
  obtain ⟨_, upper, seenUpper, placedUpper⟩ := (linked second _).mp atSecond
  rw [nodes, Arena.getAt?_modifyAt, Arena.getAt?_modifyAt]
  cases seen : queue.nodes.getAt? index with
  | none => simp
  | some node =>
    -- The node's own position tells whether it is one of the two.
    have own := (linked node.position index).mpr ⟨present, node, seen, rfl⟩
    by_cases isLower : index = queue.heap[first]
    · subst isLower
      cases Option.some.inj (seen.symm.trans seenLower)
      by_cases both : queue.heap[first] = queue.heap[second] <;> simp [both, exchange, placedLower]
    · by_cases isUpper : index = queue.heap[second]
      · subst isUpper
        cases Option.some.inj (seen.symm.trans seenUpper)
        have apart : second ≠ first := by
          intro same
          subst same
          exact isLower rfl
        simp [isLower, exchange, placedUpper, apart]
      · have apart : node.position ≠ first := by
          intro same
          rw [same, atFirst] at own
          exact isLower (Option.some.inj own).symm
        have apart' : node.position ≠ second := by
          intro same
          rw [same, atSecond] at own
          exact isUpper (Option.some.inj own).symm
        simp [isLower, isUpper, exchange, apart, apart']

theorem swap_rearranges : Rearranged queue (queue.swap first second) := by
  refine ⟨shelves_swap _ _ _, ?_, by simp [heap_swap], ?_⟩
  · simp only [swap, nextTurn_recordPosition]
  · intro gone linked position index
    rw [heap?_swap firstInside secondInside, linked]
    refine and_congr_right fun present => ?_
    rw [getAt?_swap firstInside secondInside linked present]
    constructor
    · rintro ⟨node, seen, placed⟩
      exact ⟨{ node with position := exchange first second node.position }, by simp [seen],
        by simp [placed, exchange_exchange]⟩
    · rintro ⟨moved, seen, placed⟩
      obtain ⟨node, found, rfl⟩ := Option.map_eq_some_iff.mp seen
      exact ⟨node, found, by rw [← placed, exchange_exchange]⟩

end Swap

private theorem inside_of_nodeAt? {position : Nat} {node : Node α}
    (seen : queue.nodeAt? position = some node) : position < queue.heap.size := by
  obtain ⟨index, listed, _⟩ := Option.bind_eq_some_iff.mp seen
  exact (Array.getElem?_eq_some_iff.mp listed).1

theorem inside_of_outranks {first second : Nat} (above : queue.outranks first second = true) :
    first < queue.heap.size ∧ second < queue.heap.size := by
  simp only [outranks] at above
  split at above
  next upper lower => exact ⟨inside_of_nodeAt? upper, inside_of_nodeAt? lower⟩
  next => cases above

theorem siftUp_rearranges (queue : PriorityQueue α compare) (position : Nat) :
    Rearranged queue (queue.siftUp position).2 := by
  fun_induction siftUp queue position with
  | case1 queue => exact .refl queue
  | case2 queue position inner parent above ih =>
    obtain ⟨lower, upper⟩ := inside_of_outranks above
    exact (swap_rearranges lower upper).trans ih
  | case3 queue position => exact .refl queue

theorem siftDown_rearranges (queue : PriorityQueue α compare) (position : Nat) :
    Rearranged queue (queue.siftDown position) := by
  fun_induction siftDown queue position with
  | case1 queue position => exact .refl queue
  | case2 queue position best moves ih =>
    obtain ⟨below, inside⟩ := foremost_bounds moves
    exact (swap_rearranges (Nat.lt_trans below inside) inside).trans ih

theorem siftUp_reached_le (queue : PriorityQueue α compare) (position : Nat) :
    (queue.siftUp position).1 ≤ position := by
  fun_induction siftUp queue position with
  | case1 => simp
  | case2 queue position inner parent above ih => omega
  | case3 => simp

end Timers.PriorityQueue
