import Timers.Proofs.QueueRefinement
import Timers.Proofs.Vacancies

/-! A queue that trusts nothing. Its operations are those of a queue, but they have no result when
an index is out of bounds, when a slot that the heap names is vacant, when the free list begins
with a slot that is not, or when a loop goes on for more rounds than there are items. They always
have a result, and it is the result of the queue, whatever the comparator says. -/

namespace Timers

/-- Puts a value in, if the free list begins with a vacant slot or nowhere. -/
def Arena.insert? {α : Type u} (arena : Arena α) (value : α) : Option (Arena.Key × Arena α) :=
  if arena.vacancy?.map (·.1) = arena.freeHead then some (arena.insert value) else none

namespace PriorityQueue

variable {α : Type u} {compare : α → α → Ordering}

def outranks? (queue : PriorityQueue α compare) (first second : Nat) : Option Bool :=
  match queue.nodeAt? first, queue.nodeAt? second with
  | some first, some second => some (first.outranks compare second)
  | _, _ => none

def recordPosition? (queue : PriorityQueue α compare) (position : Nat) :
    Option (PriorityQueue α compare) :=
  (queue.nodeAt? position).map fun _ => queue.recordPosition position

def swap? (queue : PriorityQueue α compare) (first second : Nat) :
    Option (PriorityQueue α compare) :=
  if first < queue.heap.size ∧ second < queue.heap.size then
    ({ queue with heap := queue.heap.swapIfInBounds first second }.recordPosition? first).bind
      (·.recordPosition? second)
  else none

def siftUp? (rounds : Nat) (queue : PriorityQueue α compare) (position : Nat) :
    Option (Nat × PriorityQueue α compare) :=
  match rounds with
  | 0 => none
  | rounds + 1 =>
    if position = 0 then some (position, queue)
    else
      match queue.outranks? position ((position - 1) / 2) with
      | none => none
      | some false => some (position, queue)
      | some true =>
        (queue.swap? position ((position - 1) / 2)).bind (siftUp? rounds · ((position - 1) / 2))

/-- The better of two positions, if the first one is in the heap. -/
def better? (queue : PriorityQueue α compare) (child best : Nat) : Option Nat :=
  if child < queue.heap.size then
    (queue.outranks? child best).map fun above => if above then child else best
  else some best

def foremost? (queue : PriorityQueue α compare) (position : Nat) : Option Nat :=
  (queue.better? (2 * position + 1) position).bind (queue.better? (2 * position + 1 + 1))

def siftDown? (rounds : Nat) (queue : PriorityQueue α compare) (position : Nat) :
    Option (PriorityQueue α compare) :=
  match rounds with
  | 0 => none
  | rounds + 1 =>
    match queue.foremost? position with
    | none => none
    | some best =>
      if best = position then some queue
      else (queue.swap? position best).bind (siftDown? rounds · best)

def insert? (queue : PriorityQueue α compare) (item : α) :
    Option (NodeKey × PriorityQueue α compare) :=
  match queue.nodes.insert? ⟨item, queue.heap.size, queue.nextTurn⟩ with
  | none => none
  | some (key, nodes) =>
    let grown : PriorityQueue α compare :=
      { nodes, heap := queue.heap.push key.index, nextTurn := queue.nextTurn + 1 }
    (grown.siftUp? (grown.heap.size + 1) queue.heap.size).map fun sifted => (⟨key⟩, sifted.2)

/-- Takes a position out of the heap, and sifts the tail that fills the gap. -/
def refill? (queue : PriorityQueue α compare) (position : Nat)
    (sift? : PriorityQueue α compare → Option (PriorityQueue α compare)) :
    Option (PriorityQueue α compare) :=
  if position < queue.heap.size then
    if position < (queue.takeOut position).heap.size then
      ((queue.takeOut position).recordPosition? position).bind sift?
    else some (queue.takeOut position)
  else none

/-- Vacates a slot that is occupied. -/
def discard? (queue : PriorityQueue α compare) (index : Nat) :
    Option (α × PriorityQueue α compare) :=
  match queue.nodes.removeAt index with
  | (some node, nodes) => some (node.item, { queue with nodes })
  | (none, _) => none

def pop? (queue : PriorityQueue α compare) : Option (Option α × PriorityQueue α compare) :=
  match queue.heap[0]? with
  | none => some (none, queue)
  | some index => do
    let sifted ← queue.refill? 0 fun filled => filled.siftDown? (filled.heap.size + 1) 0
    let (item, left) ← sifted.discard? index
    return (some item, left)

/-- Sifts up, or down what does not move. -/
def mend? (queue : PriorityQueue α compare) (position : Nat) :
    Option (PriorityQueue α compare) :=
  match queue.siftUp? (queue.heap.size + 1) position with
  | none => none
  | some (reached, lifted) =>
    if reached = position then lifted.siftDown? (lifted.heap.size + 1) position else some lifted

def remove? (queue : PriorityQueue α compare) (key : NodeKey) :
    Option (Except QueueError α × PriorityQueue α compare) :=
  match queue.nodes.get? key.key with
  | none => some (.error .staleNode, queue)
  | some node => do
    let sifted ← queue.refill? node.position (mend? · node.position)
    let (item, left) ← if sifted.contains key then sifted.discard? key.key.index else none
    return (.ok item, left)

def reorder? (queue : PriorityQueue α compare) : Option (PriorityQueue α compare) :=
  (List.range (queue.heap.size / 2)).reverse.foldlM
    (fun queue position => queue.siftDown? (queue.heap.size + 1) position) queue

/-- Answers a request. There is a front unless the queue is empty. -/
def perform? (queue : PriorityQueue α compare) :
    Request α → Option (Reply α × PriorityQueue α compare)
  | .insert item => (queue.insert? item).map fun (key, after) => (.issued key, after)
  | .pop => queue.pop?.map fun (found, after) => (.item found, after)
  | .remove key => (queue.remove? key).map fun (result, after) => (.removed result, after)
  | .reorder => queue.reorder?.map fun after => (.done, after)
  | .peek =>
    if queue.peek?.isSome = !queue.isEmpty then some (queue.perform .peek) else none
  | .peekKey =>
    if queue.peekKey?.isSome = !queue.isEmpty then some (queue.perform .peekKey) else none
  | request => some (queue.perform request)

def run? (queue : PriorityQueue α compare) :
    List (Request α) → Option (List (Reply α) × PriorityQueue α compare)
  | [] => some ([], queue)
  | request :: rest => do
    let (reply, next) ← queue.perform? request
    let (replies, last) ← next.run? rest
    return (reply :: replies, last)

variable {queue : PriorityQueue α compare} {position first second rounds index : Nat}

/-- Every slot that the heap names is occupied. -/
def Backed (queue : PriorityQueue α compare) : Prop :=
  ∀ index ∈ queue.heap, ∃ node, queue.nodes.getAt? index = some node

theorem LinkedBut.backed {gone : Option Nat} (linked : queue.LinkedBut gone) : queue.Backed := by
  intro index listed
  obtain ⟨position, inside, rfl⟩ := Array.mem_iff_getElem.mp listed
  obtain ⟨_, node, seen, _⟩ := (linked position _).mp (Array.getElem?_eq_getElem inside)
  exact ⟨node, seen⟩

theorem length_toList (linked : queue.Linked) : queue.toList.length = queue.size := by
  have every : ∀ index ∈ queue.heap.toList, (queue.nodes.getAt? index).isSome := by
    intro index member
    obtain ⟨node, seen⟩ := LinkedBut.backed linked index (Array.mem_toList_iff.mp member)
    simp [seen]
  rw [toList, List.length_map, List.length_filterMap_eq_countP, List.countP_eq_length.mpr every]
  rfl

namespace Backed

private theorem nodeAt? (backed : queue.Backed) (inside : position < queue.heap.size) :
    ∃ node, queue.nodeAt? position = some node := by
  obtain ⟨node, seen⟩ := backed _ (Array.getElem_mem inside)
  exact ⟨node, by simp [PriorityQueue.nodeAt?, inside, seen]⟩

private theorem recordPosition (backed : queue.Backed) (position : Nat) :
    (queue.recordPosition position).Backed := by
  intro index listed
  rw [heap_recordPosition] at listed
  obtain ⟨node, seen⟩ := backed index listed
  unfold PriorityQueue.recordPosition
  split
  · simp only [Arena.getAt?_modifyAt]
    split
    · exact ⟨_, by rw [seen]; rfl⟩
    · exact ⟨node, seen⟩
  · exact ⟨node, seen⟩

private theorem exchanged (backed : queue.Backed) (first second : Nat) :
    ({ queue with heap := queue.heap.swapIfInBounds first second } :
      PriorityQueue α compare).Backed := by
  intro index listed
  exact backed index ((perm_exchanged queue.heap first second).mem_iff.mp listed)

private theorem swap (backed : queue.Backed) (first second : Nat) :
    (queue.swap first second).Backed :=
  ((backed.exchanged first second).recordPosition first).recordPosition second

private theorem takeOut (backed : queue.Backed) (position : Nat) :
    (queue.takeOut position).Backed := by
  intro index listed
  obtain ⟨place, found⟩ := Array.mem_iff_getElem?.mp listed
  rw [PriorityQueue.takeOut, Array.getElem?_pop] at found
  split at found
  · exact backed.exchanged position (queue.heap.size - 1) index (Array.mem_of_getElem? found)
  · cases found

private theorem siftUp (backed : queue.Backed) (position : Nat) :
    (queue.siftUp position).2.Backed := by
  fun_induction PriorityQueue.siftUp queue position with
  | case1 queue => exact backed
  | case2 queue position inner parent above ih => exact ih (backed.swap position parent)
  | case3 queue position => exact backed

private theorem siftDown (backed : queue.Backed) (position : Nat) :
    (queue.siftDown position).Backed := by
  fun_induction PriorityQueue.siftDown queue position with
  | case1 queue position => exact backed
  | case2 queue position best moves ih => exact ih (backed.swap position _)

private theorem outranks? (backed : queue.Backed) (left : first < queue.heap.size)
    (right : second < queue.heap.size) :
    queue.outranks? first second = some (queue.outranks first second) := by
  obtain ⟨upper, seen⟩ := backed.nodeAt? left
  obtain ⟨lower, seen'⟩ := backed.nodeAt? right
  simp [PriorityQueue.outranks?, PriorityQueue.outranks, seen, seen']

private theorem recordPosition? (backed : queue.Backed) (inside : position < queue.heap.size) :
    queue.recordPosition? position = some (queue.recordPosition position) := by
  obtain ⟨node, seen⟩ := backed.nodeAt? inside
  simp [PriorityQueue.recordPosition?, seen]

private theorem swap? (backed : queue.Backed) (left : first < queue.heap.size)
    (right : second < queue.heap.size) :
    queue.swap? first second = some (queue.swap first second) := by
  let exchanged : PriorityQueue α compare :=
    { queue with heap := queue.heap.swapIfInBounds first second }
  have backed' : exchanged.Backed := backed.exchanged first second
  have size : exchanged.heap.size = queue.heap.size := Array.size_swapIfInBounds
  have one : exchanged.recordPosition? first = some (exchanged.recordPosition first) :=
    backed'.recordPosition? (by omega)
  have inside : second < (exchanged.recordPosition first).heap.size := by
    rw [heap_recordPosition]
    omega
  rw [PriorityQueue.swap?, if_pos ⟨left, right⟩, one]
  exact (backed'.recordPosition first).recordPosition? inside

/-- Lifting ends in as many rounds as there are positions above, without a fault. -/
private theorem siftUp? (backed : queue.Backed) (inside : position < queue.heap.size)
    (enough : position < rounds) :
    queue.siftUp? rounds position = some (queue.siftUp position) := by
  induction rounds generalizing queue position with
  | zero => omega
  | succ rounds ih =>
    rw [PriorityQueue.siftUp?, PriorityQueue.siftUp]
    by_cases top : position = 0
    · rw [if_pos top, if_pos top]
    · have above : (position - 1) / 2 < position := parent_lt (Nat.pos_of_ne_zero top)
      have beside : (position - 1) / 2 < queue.heap.size := Nat.lt_trans above inside
      have size : (queue.swap position ((position - 1) / 2)).heap.size = queue.heap.size := by
        simp only [heap_swap, Array.size_swapIfInBounds]
      simp only [top, if_false, backed.outranks? inside beside]
      cases queue.outranks position ((position - 1) / 2) with
      | false => rfl
      | true =>
        simp only [if_true, backed.swap? inside beside, Option.bind_some]
        exact ih (backed.swap _ _) (by omega) (by omega)

private theorem better? (backed : queue.Backed) {child best : Nat}
    (inside : best < queue.heap.size) :
    queue.better? child best = some (if child < queue.heap.size && queue.outranks child best then
      child else best) := by
  unfold PriorityQueue.better?
  by_cases within : child < queue.heap.size
  · simp [within, backed.outranks? within inside]
  · simp [within]

private theorem foremost? (backed : queue.Backed) (inside : position < queue.heap.size) :
    queue.foremost? position = some (queue.foremost position) := by
  rw [PriorityQueue.foremost?, backed.better? inside, Option.bind_some]
  apply backed.better?
  split
  next above => simp_all
  next => exact inside

/-- Sinking ends in as many rounds as there are positions below, without a fault. -/
private theorem siftDown? (backed : queue.Backed) (inside : position < queue.heap.size)
    (enough : queue.heap.size < rounds + position) :
    queue.siftDown? rounds position = some (queue.siftDown position) := by
  induction rounds generalizing queue position with
  | zero => omega
  | succ rounds ih =>
    rw [PriorityQueue.siftDown?, PriorityQueue.siftDown, backed.foremost? inside]
    by_cases stays : queue.foremost position = position
    · simp [stays]
    · have bounds := foremost_bounds stays
      have size : (queue.swap position (queue.foremost position)).heap.size = queue.heap.size := by
        simp only [heap_swap, Array.size_swapIfInBounds]
      simp only [stays, if_false, backed.swap? inside bounds.2, Option.bind_some]
      exact ih (backed.swap _ _) (by omega) (by omega)

private theorem mend? (backed : queue.Backed) (inside : position < queue.heap.size) :
    queue.mend? position = some (queue.mend position) := by
  rw [PriorityQueue.mend?, PriorityQueue.mend, backed.siftUp? inside (by omega)]
  have size := queue.heap_size_siftUp position
  dsimp only
  split
  · exact (backed.siftUp position).siftDown? (by omega) (by omega)
  · rfl

end Backed

theorem insert?_eq (backed : queue.Backed) (sound : queue.nodes.Sound) (item : α) :
    queue.insert? item = some (queue.insert item) := by
  have grown : (queue.appended item).Backed := by
    intro index listed
    simp only [appended] at listed ⊢
    rw [Arena.getAt?_insert]
    split
    · exact ⟨_, rfl⟩
    next apart =>
      rcases Array.mem_push.mp listed with old | new
      · exact backed index old
      · exact absurd new apart
  have size : (queue.appended item).heap.size = queue.heap.size + 1 := Array.size_push _
  obtain ⟨free, vacant⟩ := sound
  rw [insert?, Arena.insert?, if_pos vacant.vacancy?]
  have lifted : (queue.appended item).siftUp? ((queue.appended item).heap.size + 1)
      queue.heap.size = some ((queue.appended item).siftUp queue.heap.size) :=
    grown.siftUp? (by omega) (by omega)
  exact congrArg (Option.map _) lifted

theorem discard?_eq {node : Node α} (seen : queue.nodes.getAt? index = some node) :
    queue.discard? index = some (node.item, queue.discard index) := by
  have value := queue.nodes.removeAt_value index
  rw [seen] at value
  have split : queue.nodes.removeAt index = (some node, (queue.nodes.removeAt index).2) :=
    Prod.ext value rfl
  rw [discard?, split, discard]

private theorem refill?_eq (backed : queue.Backed) (inside : position < queue.heap.size)
    {sift? : PriorityQueue α compare → Option (PriorityQueue α compare)}
    {sift : PriorityQueue α compare → PriorityQueue α compare}
    (ends : ∀ filled : PriorityQueue α compare, filled.Backed → position < filled.heap.size →
      sift? filled = some (sift filled))
    (idle : ∀ filled : PriorityQueue α compare, filled.heap.size ≤ position →
      sift filled = filled) :
    queue.refill? position sift? = some (sift (queue.vacated position)) := by
  have shrunk := backed.takeOut position
  have size := queue.heap_size_vacated position
  have size' := queue.heap_size_takeOut position
  rw [refill?, if_pos inside]
  split
  next within =>
    rw [shrunk.recordPosition? within]
    apply ends _ (shrunk.recordPosition position)
    rw [heap_recordPosition]
    exact within
  next past =>
    rw [idle (queue.vacated position) (by omega), vacated_of_outside (by omega)]

theorem pop?_eq (linked : queue.Linked) : queue.pop? = some queue.pop := by
  have backed := LinkedBut.backed linked
  rcases front?_cases linked with ⟨listed, _⟩ | ⟨key, node, listed, _, _, held⟩
  · rw [pop_of_empty listed, pop?, listed]
  · have inside := (Array.getElem?_eq_some_iff.mp listed).1
    have refilled : queue.refill? 0 (fun filled => filled.siftDown? (filled.heap.size + 1) 0) =
        some ((queue.vacated 0).siftDown 0) :=
      refill?_eq backed inside (fun _ backed within => backed.siftDown? within (by omega))
        fun _ outside => siftDown_of_outside outside
    have sifted := siftDown_rearranges (queue.vacated 0) 0
    obtain ⟨_, found, _⟩ := held?_eq_some_iff.mp held
    obtain ⟨_, seen, _⟩ := getAt?_of_shelves (sifted.shelves.trans (queue.shelves_vacated 0))
      (Arena.getAt?_of_get? found)
    rw [pop_eq listed, pop?, listed]
    simp only [refilled, Option.bind_eq_bind, Option.bind_some, discard?_eq seen, seen]
    rfl

theorem remove?_eq (linked : queue.Linked) (key : NodeKey) :
    queue.remove? key = some (queue.remove key) := by
  have backed := LinkedBut.backed linked
  cases found : queue.nodes.get? key.key with
  | none =>
    have absent : queue.held? key = none := by simp [held?, found]
    rw [remove_of_absent absent, remove?, found]
  | some node =>
    have listed := linked.listed (Arena.getAt?_of_get? found)
    have inside := (Array.getElem?_eq_some_iff.mp listed).1
    have refilled : queue.refill? node.position (mend? · node.position) =
        some ((queue.vacated node.position).mend node.position) := by
      refine refill?_eq backed inside (fun _ backed within => backed.mend? within) ?_
      intro filled outside
      simp only [mend, siftUp_of_outside outside, if_true, siftDown_of_outside outside]
    have same := held?_of_shelves (queue.shelves_mended node.position) key
    simp only [held?, found] at same
    obtain ⟨moved, seen, rank⟩ := Option.map_eq_some_iff.mp same
    have item : moved.item = node.item := congrArg Prod.fst rank
    have present : ((queue.vacated node.position).mend node.position).contains key = true :=
      Arena.contains_iff.mpr ⟨moved, seen⟩
    rw [remove_eq found, remove?, found]
    simp only [refilled, Option.bind_eq_bind, Option.bind_some, present, if_true,
      discard?_eq (Arena.getAt?_of_get? seen), item]
    rfl

theorem reorder?_eq (backed : queue.Backed) : queue.reorder? = some queue.reorder := by
  have sifted : ∀ (positions : List Nat) (queue : PriorityQueue α compare), queue.Backed →
      (∀ position ∈ positions, position < queue.heap.size) →
      positions.foldlM (fun queue position => queue.siftDown? (queue.heap.size + 1) position)
        queue = some (positions.foldl siftDown queue) := by
    intro positions
    induction positions with
    | nil => exact fun queue _ _ => rfl
    | cons first rest ih =>
      intro queue backed within
      obtain ⟨inside, others⟩ := List.forall_mem_cons.mp within
      rw [List.foldlM_cons, backed.siftDown? inside (by omega)]
      apply ih _ (backed.siftDown first)
      intro position listed
      rw [heap_size_siftDown]
      exact others position listed
  apply sifted _ queue backed
  intro position listed
  have half := List.mem_range.mp (List.mem_reverse.mp listed)
  omega

theorem perform?_eq (linked : queue.Linked) (sound : queue.nodes.Sound) (request : Request α) :
    queue.perform? request = some (queue.perform request) := by
  have backed := LinkedBut.backed linked
  have fronts : queue.peek?.isSome = !queue.isEmpty ∧ queue.peekKey?.isSome = !queue.isEmpty := by
    rcases front?_cases linked with ⟨listed, front, peeked, _⟩ | ⟨key, node, listed, front, peeked, _⟩
    · have empty : queue.heap = #[] := by simpa using listed
      simp [peek?, front, peeked, isEmpty, empty]
    · have inside := (Array.getElem?_eq_some_iff.mp listed).1
      simp only [peek?, front, peeked, isEmpty, Option.map_some, Option.isSome_some]
      simp only [Array.isEmpty, Bool.true_eq, Bool.not_eq_eq_eq_not, Bool.not_true,
        decide_eq_false_iff_not, and_self]
      omega
  cases request with
  | insert item => rw [perform?, insert?_eq backed sound]; rfl
  | pop => rw [perform?, pop?_eq linked]; rfl
  | remove key => rw [perform?, remove?_eq linked]; rfl
  | reorder => rw [perform?, reorder?_eq backed]; rfl
  | peek => rw [perform?, if_pos fronts.1]
  | peekKey => rw [perform?, if_pos fronts.2]
  | set | get | contains | size | isEmpty | clear => rfl

theorem sound_of_shelves {before after : PriorityQueue α compare}
    (shelves : unplaced after.nodes = unplaced before.nodes) (sound : before.nodes.Sound) :
    after.nodes.Sound := by
  have shelved : (unplaced before.nodes).Sound := Arena.Sound.mapAll_iff.mpr sound
  rw [← shelves] at shelved
  exact Arena.Sound.mapAll_iff.mp shelved

theorem sound_insert (sound : queue.nodes.Sound) (item : α) :
    (queue.insert item).2.nodes.Sound :=
  sound_of_shelves (siftUp_rearranges (queue.appended item) _).shelves (sound.insert _)

theorem sound_pop (sound : queue.nodes.Sound) : queue.pop.2.nodes.Sound := by
  cases listed : queue.heap[0]? with
  | none =>
    rw [pop_of_empty listed]
    exact sound
  | some index =>
    rw [pop_eq listed]
    have sifted := (siftDown_rearranges (queue.vacated 0) 0).shelves.trans (queue.shelves_vacated 0)
    exact (sound_of_shelves sifted sound).removeAt index

theorem sound_remove (sound : queue.nodes.Sound) (key : NodeKey) :
    (queue.remove key).2.nodes.Sound := by
  cases found : queue.nodes.get? key.key with
  | none =>
    have absent : queue.held? key = none := by simp [held?, found]
    rw [remove_of_absent absent]
    exact sound
  | some node =>
    rw [remove_eq found]
    exact (sound_of_shelves (queue.shelves_mended node.position) sound).removeAt _

private theorem sound_perform (sound : queue.nodes.Sound) (request : Request α) :
    (queue.perform request).2.nodes.Sound := by
  cases request with
  | insert item => exact sound_insert sound item
  | pop => exact sound_pop sound
  | remove key => exact sound_remove sound key
  | set key item => exact sound.modify _ _
  | reorder => exact sound_of_shelves queue.reorder_rearranges.shelves sound
  | clear => exact sound.clear
  | peek | peekKey | get | contains | size | isEmpty => exact sound

/-- No request ends in a fault, whatever was requested before. -/
theorem run?_eq (linked : queue.Linked) (sound : queue.nodes.Sound) (requests : List (Request α)) :
    queue.run? requests = some (queue.run requests) := by
  induction requests generalizing queue with
  | nil => rfl
  | cons request rest ih =>
    have later := ih (perform_moves linked request).linked (sound_perform sound request)
    rw [run?, perform?_eq linked sound request]
    simp only [Option.bind_eq_bind, Option.bind_some, later]
    rfl

end PriorityQueue

end Timers
