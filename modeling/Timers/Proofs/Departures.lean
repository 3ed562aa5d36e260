import Timers.Proofs.QueueRefinement
import Timers.Proofs.Vacancies

/-! How an item leaves a queue. Its slot is out of the heap before anything is sifted, and only
slots of the heap are compared or moved. So whatever happened to the item does not matter any
more, and a pop is the removal of the key at the front. None of this asks anything of the
comparator. -/

namespace Timers

namespace Arena

variable {α : Type u}

private theorem modifyAt_comm (arena : Arena α) {first second : Nat} (apart : first ≠ second)
    (change later : α → α) :
    (arena.modifyAt first change).modifyAt second later =
      (arena.modifyAt second later).modifyAt first change := by
  simp only [modifyAt]
  congr 1
  apply Array.ext_getElem?
  intro position
  simp only [Array.getElem?_modify]
  by_cases left : first = position
  · subst left
    simp [Ne.symm apart]
  · simp [left]

private theorem keyAt?_modifyAt (arena : Arena α) (index : Nat) (change : α → α) (other : Nat) :
    (arena.modifyAt index change).keyAt? other = arena.keyAt? other := by
  by_cases same : other = index <;> simp [keyAt?, entryAt?_modifyAt, same, Function.comp_def]

/-- What a value was changed to does not matter to the slot that it leaves. -/
private theorem removeAt_modifyAt (arena : Arena α) {index : Nat} {value : α} (change : α → α)
    (seen : arena.getAt? index = some value) :
    ((arena.modifyAt index change).removeAt index).2 = (arena.removeAt index).2 := by
  obtain ⟨generation, held⟩ := slot_of_getAt? seen
  have changed : (arena.modifyAt index change).slots[index]? =
      some ⟨generation, .occupied (change value)⟩ := by
    simp [modifyAt, Array.getElem?_modify, held, Slot.map]
  have slots : (arena.slots.modify index (Slot.map change)).setIfInBounds index
        ⟨generation + 1, .vacant arena.freeHead⟩ =
      arena.slots.setIfInBounds index ⟨generation + 1, .vacant arena.freeHead⟩ := by
    apply Array.ext_getElem?
    intro position
    by_cases same : index = position <;> simp [Array.getElem?_setIfInBounds, Array.getElem?_modify, same]
  simp only [removeAt, changed, held]
  simp only [modifyAt, slots]

end Arena

namespace PriorityQueue

variable {α : Type u} {compare : α → α → Ordering} {queue : PriorityQueue α compare}
  {position index : Nat} {key : NodeKey} {item : α}

theorem run_linked (linked : queue.Linked) (requests : List (Request α)) :
    (queue.run requests).2.Linked := by
  induction requests generalizing queue with
  | nil => exact linked
  | cons request rest ih => exact ih (perform_moves linked request).linked

private theorem mend_root (queue : PriorityQueue α compare) : queue.mend 0 = queue.siftDown 0 := by
  have stays : queue.siftUp 0 = (0, queue) := by
    rw [siftUp]
    rfl
  simp only [mend, stays, if_true]

theorem pop_eq_remove (linked : queue.Linked) (peeked : queue.peekKey? = some key) :
    ∃ item, queue.get? key = some item ∧ queue.peek? = some item ∧
      queue.pop = (some item, (queue.remove key).2) ∧ (queue.remove key).1 = .ok item := by
  rcases front?_cases linked with
    ⟨_, _, absent, _⟩ | ⟨front, node, listed, seen, same, held⟩
  · rw [absent] at peeked
    cases peeked
  · cases Option.some.inj (same.symm.trans peeked)
    obtain ⟨popped, _⟩ := pop_removes linked listed held
    obtain ⟨removed, _⟩ := remove_removes linked held
    obtain ⟨stored, found, _⟩ := held?_eq_some_iff.mp held
    have root : stored.position = 0 :=
      position_unique linked (linked.listed (Arena.getAt?_of_get? found)) listed
    have left : queue.pop.2 = (queue.remove key).2 := by
      rw [pop_eq listed, remove_eq found, root, mend_root]
    refine ⟨node.item, ?_, ?_, Prod.ext popped left, removed⟩
    · rw [get?_eq_held?, held]
      rfl
    · rw [peek?, seen]
      rfl

private theorem perm_swap (queue : PriorityQueue α compare) (first second : Nat) :
    (queue.swap first second).heap.Perm queue.heap := by
  rw [heap_swap]
  exact perm_exchanged queue.heap first second

private theorem perm_siftUp (queue : PriorityQueue α compare) (position : Nat) :
    (queue.siftUp position).2.heap.Perm queue.heap := by
  fun_induction siftUp queue position with
  | case1 => exact .rfl
  | case2 queue position inner parent above ih => exact ih.trans (queue.perm_swap position parent)
  | case3 => exact .rfl

/-- The queue with the node of a slot changed. -/
def altered (queue : PriorityQueue α compare) (index : Nat) (change : Node α → Node α) :
    PriorityQueue α compare :=
  { queue with nodes := queue.nodes.modifyAt index change }

section Altered

variable {change : Node α → Node α} (outside : index ∉ queue.heap)

include outside

private theorem nodeAt?_altered (position : Nat) :
    (queue.altered index change).nodeAt? position = queue.nodeAt? position := by
  simp only [nodeAt?, altered]
  cases listed : queue.heap[position]? with
  | none => rfl
  | some other =>
    have apart : other ≠ index := by
      rintro rfl
      exact outside (Array.mem_of_getElem? listed)
    simp [Arena.getAt?_modifyAt, apart]

private theorem outranks_altered (first second : Nat) :
    (queue.altered index change).outranks first second = queue.outranks first second := by
  simp only [outranks, nodeAt?_altered outside]

private theorem recordPosition_altered (position : Nat) :
    (queue.altered index change).recordPosition position =
      (queue.recordPosition position).altered index change := by
  simp only [recordPosition, altered]
  cases listed : queue.heap[position]? with
  | none => rfl
  | some other =>
    have apart : index ≠ other := by
      rintro rfl
      exact outside (Array.mem_of_getElem? listed)
    simp only [Arena.modifyAt_comm _ apart]

private theorem swap_altered (first second : Nat) :
    (queue.altered index change).swap first second =
      (queue.swap first second).altered index change := by
  let exchanged : PriorityQueue α compare :=
    { queue with heap := queue.heap.swapIfInBounds first second }
  have absent : index ∉ exchanged.heap := mt (perm_exchanged _ _ _).mem_iff.mp outside
  have recorded : index ∉ (exchanged.recordPosition first).heap := by
    rw [heap_recordPosition]
    exact absent
  calc (queue.altered index change).swap first second
    _ = ((exchanged.altered index change).recordPosition first).recordPosition second := rfl
    _ = (queue.swap first second).altered index change := by
      rw [recordPosition_altered absent, recordPosition_altered recorded]
      rfl

private theorem siftUp_altered (position : Nat) :
    (queue.altered index change).siftUp position =
      ((queue.siftUp position).1, (queue.siftUp position).2.altered index change) := by
  fun_induction siftUp queue position with
  | case1 queue => simp [siftUp]
  | case2 queue position inner parent above ih =>
    rw [siftUp, if_neg inner]
    dsimp only
    rw [outranks_altered outside, if_pos above, swap_altered outside]
    exact ih (mt (perm_swap _ _ _).mem_iff.mp outside)
  | case3 queue position inner parent below =>
    rw [siftUp, if_neg inner]
    dsimp only
    rw [outranks_altered outside, if_neg below]

private theorem foremost_altered (position : Nat) :
    (queue.altered index change).foremost position = queue.foremost position := by
  simp only [foremost, outranks_altered outside]
  rfl

private theorem siftDown_altered (position : Nat) :
    (queue.altered index change).siftDown position =
      (queue.siftDown position).altered index change := by
  fun_induction siftDown queue position with
  | case1 queue position best stays =>
    rw [siftDown, foremost_altered outside, if_pos stays]
  | case2 queue position best moves ih =>
    rw [siftDown, foremost_altered outside, if_neg moves, swap_altered outside]
    exact ih (mt (perm_swap _ _ _).mem_iff.mp outside)

private theorem mend_altered (position : Nat) :
    (queue.altered index change).mend position = (queue.mend position).altered index change := by
  have lifted : index ∉ (queue.siftUp position).2.heap :=
    mt (perm_siftUp queue position).mem_iff.mp outside
  simp only [mend, siftUp_altered outside]
  split
  · exact siftDown_altered lifted position
  · rfl

end Altered

private theorem vacated_altered {change : Node α → Node α}
    (outside : index ∉ (queue.vacated position).heap) :
    (queue.altered index change).vacated position =
      (queue.vacated position).altered index change := by
  rw [vacated, heap_recordPosition] at outside
  exact recordPosition_altered outside position

private theorem discard_altered (queue : PriorityQueue α compare) (change : Node α → Node α)
    {node : Node α} (seen : queue.nodes.getAt? index = some node) :
    (queue.altered index change).discard index = queue.discard index := by
  simp only [discard, altered, Arena.removeAt_modifyAt _ change seen]

private theorem set_of_contains (contains : queue.contains key = true) (item : α) :
    queue.set key item = queue.altered key.key.index ({ · with item }) := by
  have held : queue.nodes.contains key.key = true := contains
  simp only [set, modify, Arena.modify, held, if_true, altered]

private theorem peekKey?_altered (queue : PriorityQueue α compare) (change : Node α → Node α) :
    (queue.altered index change).peekKey? = queue.peekKey? := by
  have keys : (queue.altered index change).nodes.keyAt? = queue.nodes.keyAt? :=
    funext (Arena.keyAt?_modifyAt queue.nodes index change)
  rw [peekKey?, keys]
  rfl

private theorem not_mem_heap_of_gone (linked : queue.LinkedBut (some index)) :
    index ∉ queue.heap := by
  intro listed
  obtain ⟨position, found⟩ := Array.mem_iff_getElem?.mp listed
  exact ((linked position index).mp found).1 rfl

/-- A removal leaves the same, whatever the item was exchanged for. -/
theorem remove_set (linked : queue.Linked) (contains : queue.contains key = true) (item : α) :
    (queue.set key item).remove key = (.ok item, (queue.remove key).2) := by
  obtain ⟨node, found⟩ := Arena.contains_iff.mp contains
  have listed := linked.listed (Arena.getAt?_of_get? found)
  have changed : (queue.set key item).nodes.get? key.key = some { node with item } := by
    simp [set, modify, Arena.get?_modify, found]
  have outside : key.key.index ∉ (queue.vacated node.position).heap :=
    not_mem_heap_of_gone (vacated_linked linked listed)
  obtain ⟨_, seen, _⟩ :=
    getAt?_of_shelves (queue.shelves_mended node.position) (Arena.getAt?_of_get? found)
  rw [remove_eq found, remove_eq changed, set_of_contains contains, vacated_altered outside,
    mend_altered outside, discard_altered _ _ seen]

/-- Whatever was requested before, a pop is the removal of the key that is peeked at: it takes the
same item out and leaves the same queue. -/
theorem pop_removes_front (compare : α → α → Ordering) (requests : List (Request α)) :
    let queue := (({} : PriorityQueue α compare).run requests).2
    (queue.isEmpty = true ∧ queue.peek? = none ∧ queue.peekKey? = none ∧
      queue.pop = (none, queue)) ∨
    (queue.isEmpty = false ∧ ∃ key item after,
      queue.peekKey? = some key ∧ queue.contains key = true ∧
      queue.peek? = some item ∧ queue.get? key = some item ∧
      queue.pop = (some item, after) ∧ queue.remove key = (.ok item, after)) := by
  intro queue
  have linked : queue.Linked := run_linked empty_linked requests
  rcases front?_cases linked with
    ⟨listed, seen, peeked, _⟩ | ⟨key, node, listed, seen, peeked, held⟩
  · have empty : queue.isEmpty = true := by
      simpa [isEmpty, Array.getElem?_eq_none_iff] using listed
    exact .inl ⟨empty, by simp [peek?, seen], peeked, pop_of_isEmpty empty⟩
  · obtain ⟨item, found, front, popped, removed⟩ := pop_eq_remove linked peeked
    have inside := (Array.getElem?_eq_some_iff.mp listed).1
    have inhabited : queue.isEmpty = false := decide_eq_false (Nat.ne_of_gt inside)
    have present : queue.contains key = true := by simp [contains_eq_held?, held]
    exact .inr ⟨inhabited, key, item, (queue.remove key).2, peeked, present, front, found, popped,
      Prod.ext removed rfl⟩

/-- Whatever was requested before, an item that is exchanged leaves the same queue behind as the
one that it was exchanged for. So an item can be moved to another rank of a queue in order by
taking it out and putting it in again. -/
theorem removal_ignores_item (compare : α → α → Ordering) (requests : List (Request α))
    (key : NodeKey) (item : α) :
    let queue := (({} : PriorityQueue α compare).run requests).2
    queue.contains key = true →
      (queue.set key item).remove key = (.ok item, (queue.remove key).2) ∧
      (queue.peekKey? = some key → (queue.set key item).pop = (some item, queue.pop.2)) ∧
      (Std.TransCmp compare → queue.Ordered → ∃ after,
        (queue.set key item).remove key = (.ok item, after) ∧ (after.insert item).2.Ordered) := by
  intro queue contains
  have linked : queue.Linked := run_linked empty_linked requests
  have removed := remove_set linked contains item
  refine ⟨removed, ?_, ?_⟩
  · intro peeked
    have front : (queue.set key item).peekKey? = some key := by
      rw [set_of_contains contains, peekKey?_altered, peeked]
    have exchanged : (queue.set key item).Linked := modify_linked linked key _
    obtain ⟨_, _, _, direct, _⟩ := pop_eq_remove linked peeked
    obtain ⟨other, _, _, popped, taken⟩ := pop_eq_remove exchanged front
    rw [removed] at popped taken
    rw [popped, direct, Except.ok.inj taken]
  · intro order ordered
    refine ⟨_, removed, ?_⟩
    have left : (queue.remove key).2.Linked := (perform_moves linked (.remove key)).linked
    exact insert_ordered (remove_ordered ordered linked key) left item

/-- The first of three is exchanged for what comes last, and moves there. -/
theorem removal_ignores_item_demoted :
    let requests : List (Request Nat) := [.insert 3, .insert 5, .insert 4]
    let queue := (({} : PriorityQueue Nat Ord.compare).run requests).2
    let first : NodeKey := ⟨⟨0, 0⟩⟩
    queue.contains first = true ∧ queue.peekKey? = some first ∧ queue.Ordered ∧
      (queue.set first 9).pop = (some 9, queue.pop.2) ∧
      ∃ after, (queue.set first 9).remove first = (.ok 9, after) ∧
        (after.insert 9).2.Ordered := by
  intro requests queue first
  have contains : queue.contains first = true := by decide +kernel
  have peeked : queue.peekKey? = some first := by decide +kernel
  have ordered : queue.Ordered := by
    apply insert_ordered _ (run_linked empty_linked (requests.take 2))
    apply insert_ordered _ (run_linked empty_linked (requests.take 1))
    exact insert_ordered empty_ordered empty_linked 3
  obtain ⟨_, popped, moved⟩ := removal_ignores_item Ord.compare requests first 9 contains
  exact ⟨contains, peeked, ordered, popped peeked, moved inferInstance ordered⟩

end PriorityQueue

end Timers
