import Timers.Proofs.QueueLinks

/-! What the keys of a queue hold after each operation. An insertion adds one entry under a
key that nothing was held under, a removal takes one away, and both keep heap and nodes in
step. None of this asks anything of the comparator. -/

namespace Timers.PriorityQueue

variable {α : Type u} {compare : α → α → Ordering} {queue after : PriorityQueue α compare}
  {position index : Nat} {key : NodeKey} {rank : α × UInt64}

theorem held?_eq_some_iff :
    queue.held? key = some rank ↔
      ∃ node, queue.nodes.get? key.key = some node ∧ node.rank = rank := by
  simp [held?]

theorem get?_eq_held? (queue : PriorityQueue α compare) (key : NodeKey) :
    queue.get? key = (queue.held? key).map (·.1) := by
  simp [get?, held?, Function.comp_def, Node.rank]

theorem contains_eq_held? (queue : PriorityQueue α compare) (key : NodeKey) :
    queue.contains key = (queue.held? key).isSome := by
  simp [contains, held?, Arena.contains]

private theorem key_eq_of_held? {other : NodeKey} {second : α × UInt64}
    (held : queue.held? key = some rank)
    (found : queue.held? other = some second) (same : key.key.index = other.key.index) :
    key = other := by
  obtain ⟨_, held, _⟩ := held?_eq_some_iff.mp held
  obtain ⟨_, found, _⟩ := held?_eq_some_iff.mp found
  exact congrArg NodeKey.mk (Arena.key_eq_of_get? held found same)

theorem listed_of_held? (linked : queue.Linked) (held : queue.held? key = some rank) :
    ∃ position, queue.heap[position]? = some key.key.index ∧ queue.rankAt? position = some rank := by
  obtain ⟨node, found, rfl⟩ := held?_eq_some_iff.mp held
  have seen := Arena.getAt?_of_get? found
  have listed := linked.listed seen
  exact ⟨node.position, listed, by simp [rankAt?, nodeAt?, listed, seen]⟩

theorem rankAt?_isSome {gone : Option Nat} (linked : queue.LinkedBut gone) (inside : position < queue.heap.size) :
    ∃ rank, queue.rankAt? position = some rank := by
  have listed := Array.getElem?_eq_getElem inside
  obtain ⟨_, node, seen, _⟩ := (linked position _).mp listed
  exact ⟨node.rank, by simp [rankAt?, nodeAt?, listed, seen]⟩

/-- Either nothing is held, or there is a front, and its key is the one that is peeked at. -/
theorem front?_cases (linked : queue.Linked) :
    (queue.heap[0]? = none ∧ queue.front? = none ∧ queue.peekKey? = none ∧
      ∀ key, queue.held? key = none) ∨
    ∃ key node, queue.heap[0]? = some key.key.index ∧ queue.front? = some node ∧
      queue.peekKey? = some key ∧ queue.held? key = some node.rank := by
  cases listed : queue.heap[0]? with
  | none =>
    refine .inl ⟨rfl, by simp [front?, nodeAt?, listed], by simp [peekKey?, listed], fun key => ?_⟩
    cases held : queue.held? key with
    | none => rfl
    | some rank =>
      obtain ⟨position, inside, _⟩ := listed_of_held? linked held
      have bound := (Array.getElem?_eq_some_iff.mp inside).1
      have empty := Array.getElem?_eq_none_iff.mp listed
      omega
  | some index =>
    obtain ⟨node, seen, _⟩ := linked.node listed
    obtain ⟨key, entry⟩ := Arena.getAt?_eq_some_iff.mp seen
    have same : key.index = index := Arena.index_of_entryAt? entry
    refine .inr ⟨⟨key⟩, node, by rw [same], by simp [front?, nodeAt?, listed, seen],
      by simp [peekKey?, listed, Arena.keyAt?, entry], ?_⟩
    exact held?_eq_some_iff.mpr ⟨node, Arena.get?_eq_some_iff.mpr (same ▸ entry), rfl⟩

/-- What an insertion does. -/
structure Inserted (queue : PriorityQueue α compare) (item : α) (key : NodeKey)
    (after : PriorityQueue α compare) : Prop where
  linked : after.Linked
  fresh : queue.held? key = none
  held : ∀ other, after.held? other =
    if other = key then some (item, queue.nextTurn) else queue.held? other
  size : after.size = queue.size + 1
  turn : after.nextTurn = queue.nextTurn + 1
  generations : ∀ index, after.nodes.generationAt index = queue.nodes.generationAt index
  issued : queue.nodes.generationAt key.key.index = key.key.generation

section Inserted

variable {item : α} {other : NodeKey}

theorem Inserted.apart (inserted : Inserted queue item key after)
    (held : queue.held? other = some rank) : other ≠ key := by
  intro same
  rw [same, inserted.fresh] at held
  cases held

theorem Inserted.holds (inserted : Inserted queue item key after) :
    (∃ other, after.held? other = some rank) ↔
      (∃ other, queue.held? other = some rank) ∨ rank = (item, queue.nextTurn) := by
  constructor
  · rintro ⟨other, held⟩
    rw [inserted.held] at held
    split at held
    · exact .inr (Option.some.inj held).symm
    · exact .inl ⟨other, held⟩
  · rintro (⟨other, held⟩ | rfl)
    · exact ⟨other, by rw [inserted.held, if_neg (inserted.apart held), held]⟩
    · exact ⟨key, by rw [inserted.held, if_pos rfl]⟩

end Inserted

/-- The queue with an item behind the tail, before it is lifted. -/
def appended (queue : PriorityQueue α compare) (item : α) : PriorityQueue α compare :=
  let (key, nodes) := queue.nodes.insert ⟨item, queue.heap.size, queue.nextTurn⟩
  { nodes, heap := queue.heap.push key.index, nextTurn := queue.nextTurn + 1 }

theorem insert_eq (queue : PriorityQueue α compare) (item : α) :
    queue.insert item =
      (⟨(queue.nodes.insert ⟨item, queue.heap.size, queue.nextTurn⟩).1⟩,
        ((queue.appended item).siftUp queue.heap.size).2) := rfl

theorem appended_linked (linked : queue.Linked) (item : α) : (queue.appended item).Linked := by
  refine linked_iff.mpr fun position index => ?_
  have vacant := Arena.entryAt?_of_insert queue.nodes ⟨item, queue.heap.size, queue.nextTurn⟩
  simp only [appended, Array.getElem?_push, Arena.getAt?_insert]
  by_cases last : position = queue.heap.size
  · subst last
    constructor
    · intro same
      simp only [if_true, Option.some.injEq] at same
      simp [same]
    · rintro ⟨node, seen, placed⟩
      split at seen
      next same => simp [same]
      next =>
        have listed := linked.listed seen
        rw [placed] at listed
        simp at listed
  · simp only [last, if_false]
    constructor
    · intro listed
      obtain ⟨node, seen, placed⟩ := linked.node listed
      have apart : index ≠ (queue.nodes.insert ⟨item, queue.heap.size, queue.nextTurn⟩).1.index := by
        intro same
        rw [same, Arena.getAt?, vacant] at seen
        cases seen
      exact ⟨node, by simp [apart, seen], placed⟩
    · rintro ⟨node, seen, placed⟩
      split at seen
      · cases seen
        exact absurd placed.symm last
      · exact placed ▸ linked.listed seen

theorem insert_inserts (linked : queue.Linked) (item : α) :
    Inserted queue item (queue.insert item).1 (queue.insert item).2 := by
  have sifted := siftUp_rearranges (queue.appended item) queue.heap.size
  rw [insert_eq]
  constructor
  · exact sifted.links none (appended_linked linked item)
  · simp [held?, Arena.get?_of_insert queue.nodes _ rfl]
  · intro other
    obtain ⟨other⟩ := other
    rw [held?_of_shelves sifted.shelves]
    simp only [held?, appended, Arena.get?_insert, NodeKey.mk.injEq]
    split <;> simp [Node.rank]
  · rw [size, sifted.size]
    simp [size, appended]
  · rw [sifted.turn]
    rfl
  · intro index
    rw [generationAt_of_shelves sifted.shelves]
    exact Arena.generationAt_insert _ _ index
  · exact Arena.generation_of_insert _ _

/-- What the removal of an entry does. -/
structure Removed (queue : PriorityQueue α compare) (key : NodeKey)
    (after : PriorityQueue α compare) : Prop where
  linked : after.Linked
  held : ∀ other, after.held? other = if other = key then none else queue.held? other
  size : after.size + 1 = queue.size
  turn : after.nextTurn = queue.nextTurn
  generations : ∀ index, after.nodes.generationAt index =
    if index = key.key.index then queue.nodes.generationAt index + 1
    else queue.nodes.generationAt index

/-- The queue with the tail moved to a position, while the node that stood there is still on
its shelf. -/
def vacated (queue : PriorityQueue α compare) (position : Nat) : PriorityQueue α compare :=
  (queue.takeOut position).recordPosition position

/-- The last step of a removal. -/
def discard (queue : PriorityQueue α compare) (index : Nat) : PriorityQueue α compare :=
  { queue with nodes := (queue.nodes.removeAt index).2 }

theorem shelves_vacated (queue : PriorityQueue α compare) (position : Nat) :
    unplaced (queue.vacated position).nodes = unplaced queue.nodes :=
  shelves_recordPosition _ position

theorem heap_size_vacated (queue : PriorityQueue α compare) (position : Nat) :
    (queue.vacated position).heap.size = queue.heap.size - 1 := by
  rw [vacated, heap_recordPosition, heap_size_takeOut]

theorem heap?_vacated (inside : position < queue.heap.size) (other : Nat) :
    (queue.vacated position).heap[other]? =
      if other < queue.heap.size - 1 then
        if other = position then queue.heap[queue.heap.size - 1]? else queue.heap[other]?
      else none := by
  have tail : queue.heap.size - 1 < queue.heap.size := by omega
  rw [vacated, heap_recordPosition, takeOut, Array.getElem?_pop, Array.size_swapIfInBounds,
    heap?_exchanged inside tail]
  split
  next below =>
    rw [exchange, if_neg (Nat.ne_of_lt below)]
    split <;> rfl
  next => rfl

private theorem getAt?_vacated (inside : position < queue.heap.size) (index : Nat) :
    (queue.vacated position).nodes.getAt? index =
      if position < queue.heap.size - 1 ∧ queue.heap[queue.heap.size - 1]? = some index then
        (queue.nodes.getAt? index).map ({ · with position })
      else queue.nodes.getAt? index := by
  have tail := heap?_vacated inside position
  rw [vacated, heap_recordPosition] at tail
  simp only [vacated, recordPosition]
  rw [tail]
  by_cases short : position < queue.heap.size - 1
  · have last : queue.heap.size - 1 < queue.heap.size := by omega
    simp only [short, if_true, true_and, Array.getElem?_eq_getElem last, Arena.getAt?_modifyAt,
      takeOut, Option.some.injEq, eq_comm]
  · simp [short, takeOut]

theorem position_unique {gone : Option Nat} (linked : queue.LinkedBut gone) {other : Nat}
    (first : queue.heap[position]? = some index) (second : queue.heap[other]? = some index) :
    position = other := by
  obtain ⟨_, node, seen, placed⟩ := (linked position index).mp first
  obtain ⟨_, node', seen', placed'⟩ := (linked other index).mp second
  cases Option.some.inj (seen.symm.trans seen')
  exact placed.symm.trans placed'

theorem vacated_linked (linked : queue.Linked) (listed : queue.heap[position]? = some index) :
    (queue.vacated position).LinkedBut (some index) := by
  have inside := (Array.getElem?_eq_some_iff.mp listed).1
  intro place other
  rw [heap?_vacated inside, getAt?_vacated inside]
  constructor
  · intro found
    split at found
    next short =>
      split at found
      next here =>
        subst here
        have apart : index ≠ other := by
          intro same
          subst same
          have := position_unique linked listed found
          omega
        obtain ⟨node, seen, _⟩ := linked.node found
        exact ⟨by simpa using apart, { node with position := place }, by simp [short, found, seen], rfl⟩
      next elsewhere =>
        obtain ⟨node, seen, placed⟩ := linked.node found
        have apart : index ≠ other := by
          intro same
          subst same
          exact elsewhere (position_unique linked found listed)
        have inner : queue.heap[queue.heap.size - 1]? ≠ some other := by
          intro last
          have := position_unique linked found last
          omega
        exact ⟨by simpa using apart, node, by simp [inner, seen], placed⟩
    next => cases found
  · rintro ⟨apart, node, seen, placed⟩
    split at seen
    next last =>
      obtain ⟨old, _, rfl⟩ := Option.map_eq_some_iff.mp seen
      simp only at placed
      subst placed
      simp [last.1, last.2]
    next inner =>
      have found : queue.heap[place]? = some other := placed ▸ linked.listed seen
      have bound := (Array.getElem?_eq_some_iff.mp found).1
      have elsewhere : place ≠ position := by
        intro same
        subst same
        exact apart (listed.symm.trans found)
      have short : place < queue.heap.size - 1 := by
        rcases Nat.lt_or_ge place (queue.heap.size - 1) with short | last
        · exact short
        · have tail : place = queue.heap.size - 1 := by omega
          exact absurd ⟨by omega, tail ▸ found⟩ inner
      simp [short, elsewhere, found]

theorem discard_removes (linked : queue.Linked) (held : queue.held? key = some rank)
    (listed : queue.heap[position]? = some key.key.index) {mended : PriorityQueue α compare}
    (sifted : Rearranged (queue.vacated position) mended) :
    Removed queue key (mended.discard key.key.index) := by
  have shelves := sifted.shelves.trans (queue.shelves_vacated position)
  have present := held
  rw [← held?_of_shelves shelves] at present
  obtain ⟨node, found, _⟩ := held?_eq_some_iff.mp present
  constructor
  · intro place index
    rw [discard, Arena.getAt?_removeAt, sifted.links _ (vacated_linked linked listed) place index]
    by_cases same : index = key.key.index
    · simp [same]
    · simp [same, Ne.symm same]
  · intro other
    have step : (mended.discard key.key.index).held? other =
        if other.key.index = key.key.index then none else mended.held? other := by
      simp only [held?, discard, Arena.get?_removeAt]
      split <;> rfl
    rw [step, held?_of_shelves shelves]
    by_cases same : other = key
    · simp [same]
    · by_cases beside : other.key.index = key.key.index
      · cases taken : queue.held? other with
        | none => simp
        | some second => exact absurd (key_eq_of_held? taken held beside) same
      · simp [same, beside]
  · have bound := (Array.getElem?_eq_some_iff.mp listed).1
    simp only [size, discard, sifted.size, heap_size_vacated]
    omega
  · simp only [discard, sifted.turn, vacated, nextTurn_recordPosition, takeOut]
  · intro index
    rw [discard, Arena.generationAt_removeAt, generationAt_of_shelves shelves,
      Arena.getAt?_of_get? found]
    simp

private theorem foremost_of_outside (outside : queue.heap.size ≤ position) :
    queue.foremost position = position := by
  by_cases moves : queue.foremost position = position
  · exact moves
  · have bounds := foremost_bounds moves
    omega

theorem siftDown_of_outside (outside : queue.heap.size ≤ position) :
    queue.siftDown position = queue := by
  rw [siftDown, if_pos (foremost_of_outside outside)]

theorem siftUp_of_outside (outside : queue.heap.size ≤ position) :
    queue.siftUp position = (position, queue) := by
  have stays : queue.outranks position ((position - 1) / 2) ≠ true := by
    intro above
    have inside := (inside_of_outranks above).1
    omega
  rw [siftUp]
  simp [stays]

theorem vacated_of_outside (outside : queue.heap.size - 1 ≤ position) :
    queue.vacated position = queue.takeOut position := by
  have past : (queue.takeOut position).heap[position]? = none := by
    rw [Array.getElem?_eq_none_iff, heap_size_takeOut]
    exact outside
  simp [vacated, recordPosition, past]

/-- The tail that fills a gap is sifted up, or down if it did not move. -/
def mend (queue : PriorityQueue α compare) (position : Nat) : PriorityQueue α compare :=
  let (reached, lifted) := queue.siftUp position
  if reached = position then lifted.siftDown position else lifted

theorem mend_rearranges (queue : PriorityQueue α compare) (position : Nat) :
    Rearranged queue (queue.mend position) := by
  have lifted := siftUp_rearranges queue position
  unfold mend
  dsimp only
  split
  · exact lifted.trans (siftDown_rearranges _ position)
  · exact lifted

theorem shelves_mended (queue : PriorityQueue α compare) (position : Nat) :
    unplaced ((queue.vacated position).mend position).nodes = unplaced queue.nodes :=
  (mend_rearranges _ position).shelves.trans (queue.shelves_vacated position)

theorem pop_eq (listed : queue.heap[0]? = some index) :
    queue.pop =
      ((((queue.vacated 0).siftDown 0).nodes.getAt? index).map (·.item),
        ((queue.vacated 0).siftDown 0).discard index) := by
  have repaired : (if (queue.takeOut 0).heap.isEmpty then queue.takeOut 0
      else ((queue.takeOut 0).recordPosition 0).siftDown 0) = (queue.vacated 0).siftDown 0 := by
    split
    next empty =>
      have none : (queue.takeOut 0).heap.size = 0 := by simpa using empty
      rw [heap_size_takeOut] at none
      have outside : (queue.vacated 0).heap.size ≤ 0 := by
        rw [heap_size_vacated]
        omega
      rw [siftDown_of_outside outside, vacated_of_outside (by omega)]
    next => rfl
  simp only [pop, listed, repaired, discard, Arena.removeAt_value]

theorem pop_removes (linked : queue.Linked) (listed : queue.heap[0]? = some key.key.index)
    (held : queue.held? key = some rank) :
    queue.pop.1 = some rank.1 ∧ Removed queue key queue.pop.2 := by
  have sifted := siftDown_rearranges (queue.vacated 0) 0
  have shelves := sifted.shelves.trans (queue.shelves_vacated 0)
  obtain ⟨node, found, rfl⟩ := held?_eq_some_iff.mp held
  obtain ⟨moved, seen, equal⟩ := getAt?_of_shelves shelves (Arena.getAt?_of_get? found)
  rw [pop_eq listed]
  refine ⟨?_, discard_removes linked held listed sifted⟩
  rw [seen, Option.map_some, ← equal]
  rfl

theorem pop_of_empty (empty : queue.heap[0]? = none) : queue.pop = (none, queue) := by
  simp [pop, empty]

theorem remove_of_absent (absent : queue.held? key = none) :
    queue.remove key = (.error .staleNode, queue) := by
  have missing : queue.nodes.get? key.key = none := by simpa [held?] using absent
  simp [remove, missing]

theorem remove_eq {node : Node α} (found : queue.nodes.get? key.key = some node) :
    queue.remove key =
      (.ok node.item, ((queue.vacated node.position).mend node.position).discard key.key.index) := by
  have repaired : (if node.position < (queue.takeOut node.position).heap.size then
        let (reached, lifted) :=
          ((queue.takeOut node.position).recordPosition node.position).siftUp node.position
        if reached = node.position then lifted.siftDown node.position else lifted
      else queue.takeOut node.position) = (queue.vacated node.position).mend node.position := by
    rw [heap_size_takeOut]
    split
    next => rfl
    next past =>
      have outside : (queue.vacated node.position).heap.size ≤ node.position := by
        rw [heap_size_vacated]
        omega
      simp only [mend, siftUp_of_outside outside, if_true, siftDown_of_outside outside]
      exact (vacated_of_outside (by omega)).symm
  have same := held?_of_shelves (queue.shelves_mended node.position) key
  simp only [held?, found, Option.map_some] at same
  obtain ⟨moved, seen, equal⟩ := Option.map_eq_some_iff.mp same
  have present : ((queue.vacated node.position).mend node.position).nodes.contains key.key = true :=
    Arena.contains_iff.mpr ⟨moved, seen⟩
  have item : moved.item = node.item := congrArg Prod.fst equal
  have value : ((queue.vacated node.position).mend node.position).nodes.removeAt key.key.index =
      (some moved, (((queue.vacated node.position).mend node.position).nodes.removeAt key.key.index).2) := by
    rw [← Arena.getAt?_of_get? seen, ← Arena.removeAt_value]
  simp only [remove, found, repaired, Arena.remove_of_contains present]
  rw [value]
  simp only [item, discard]

theorem remove_removes (linked : queue.Linked) (held : queue.held? key = some rank) :
    (queue.remove key).1 = .ok rank.1 ∧ Removed queue key (queue.remove key).2 := by
  obtain ⟨node, found, rfl⟩ := held?_eq_some_iff.mp held
  have listed := linked.listed (Arena.getAt?_of_get? found)
  rw [remove_eq found]
  exact ⟨rfl, discard_removes linked held listed (mend_rearranges _ _)⟩

theorem held?_clear (queue : PriorityQueue α compare) (key : NodeKey) :
    queue.clear.held? key = none := by
  simp [held?, clear, Arena.get?_clear]

theorem clear_linked (queue : PriorityQueue α compare) : queue.clear.Linked := by
  intro position index
  simp [clear, Arena.getAt?, Arena.entryAt?_clear]

theorem empty_linked : ({} : PriorityQueue α compare).Linked := by
  intro position index
  simp [Arena.getAt?, Arena.entryAt?]

theorem held?_empty (key : NodeKey) : ({} : PriorityQueue α compare).held? key = none := by
  simp [held?, Arena.get?, Arena.entryAt?]

theorem reorder_rearranges (queue : PriorityQueue α compare) : Rearranged queue queue.reorder := by
  have sifted : ∀ positions : List Nat, ∀ start : PriorityQueue α compare,
      Rearranged start (positions.foldl siftDown start) := by
    intro positions
    induction positions with
    | nil => exact Rearranged.refl
    | cons first rest ih => exact fun start => (siftDown_rearranges start first).trans (ih _)
  exact sifted _ queue

theorem get?_of_getAt? {node : Node α} (seen : queue.nodes.getAt? index = some node) :
    ∃ key, key.key.index = index ∧ queue.get? key = some node.item := by
  obtain ⟨key, entry⟩ := Arena.getAt?_eq_some_iff.mp seen
  have same : key.index = index := Arena.index_of_entryAt? entry
  have found : queue.nodes.get? key = some node := Arena.get?_eq_some_iff.mpr (same ▸ entry)
  exact ⟨⟨key⟩, same, by rw [get?, found]; rfl⟩

theorem mem_toList_iff (linked : queue.Linked) {item : α} :
    item ∈ queue.toList ↔ ∃ key, queue.get? key = some item := by
  simp only [toList, List.mem_map, List.mem_filterMap]
  constructor
  · rintro ⟨node, ⟨index, _, seen⟩, rfl⟩
    obtain ⟨key, _, found⟩ := get?_of_getAt? seen
    exact ⟨key, found⟩
  · rintro ⟨key, found⟩
    obtain ⟨node, present, rfl⟩ := Option.map_eq_some_iff.mp found
    have seen := Arena.getAt?_of_get? present
    have listed := linked.listed seen
    have member : key.key.index ∈ queue.heap := Array.mem_of_getElem? listed
    exact ⟨node, ⟨key.key.index, by simpa using member, seen⟩, rfl⟩

theorem heap_nodup (linked : queue.Linked) : queue.heap.toList.Nodup := by
  apply List.pairwise_iff_getElem.mpr
  intro first second left right less same
  have listed : queue.heap[first]? = some (queue.heap.toList[first]) := by simp
  have listed' : queue.heap[second]? = some (queue.heap.toList[first]) := by
    rw [same]
    simp
  have equal := position_unique linked listed listed'
  omega

theorem toList_map_nodup (linked : queue.Linked) {β : Type v} {label : α → β}
    (unique : ∀ key other first second, queue.get? key = some first →
      queue.get? other = some second → label first = label second → key = other) :
    (queue.toList.map label).Nodup := by
  rw [toList, List.Nodup, List.pairwise_map, List.pairwise_map, List.pairwise_filterMap]
  apply (heap_nodup linked).imp
  intro first second apart node seen node' seen' same
  obtain ⟨key, index, found⟩ := get?_of_getAt? seen
  obtain ⟨other, index', found'⟩ := get?_of_getAt? seen'
  have keys := unique key other _ _ found found' same
  exact apart (by rw [← index, ← index', keys])

end Timers.PriorityQueue
