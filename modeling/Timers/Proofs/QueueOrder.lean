import Timers.Proofs.QueueEntries

/-! With a comparator that orders, the heap has its front where it belongs: nothing outranks
it. Every operation keeps that so. A sift repairs an order that is broken around one hole
only, upwards or downwards; `reorder` repairs one that is broken anywhere. -/

namespace Timers.PriorityQueue

variable {α : Type u} {compare : α → α → Ordering} {queue : PriorityQueue α compare}

/-- By the comparator, and among equals by the turn. -/
def rankOrder (compare : α → α → Ordering) : α × UInt64 → α × UInt64 → Ordering :=
  compareLex (fun first second => compare first.1 second.1) (compareOn Prod.snd)

section Ranks

variable [Std.TransCmp compare]

private theorem itemOrder_transCmp :
    Std.TransCmp fun first second : α × UInt64 => compare first.1 second.1 where
  eq_swap := Std.OrientedCmp.eq_swap
  isLE_trans := Std.TransCmp.isLE_trans

instance : Std.TransCmp (rankOrder compare) := by
  have items : Std.TransCmp fun first second : α × UInt64 => compare first.1 second.1 :=
    itemOrder_transCmp
  exact inferInstanceAs (Std.TransCmp (compareLex _ _))

end Ranks

private theorem Node.outranks_iff {first second : Node α} :
    first.outranks compare second = true ↔
      rankOrder compare first.rank second.rank = .lt := by
  have unfolded : rankOrder compare first.rank second.rank =
      (compare first.item second.item).then (Ord.compare first.turn second.turn) := rfl
  rw [unfolded, Node.outranks]
  cases compare first.item second.item <;> simp [Std.compare_eq_lt]

private theorem outranks_iff {first second : Nat} :
    queue.outranks first second = true ↔
      ∃ upper lower, queue.rankAt? first = some upper ∧ queue.rankAt? second = some lower ∧
        rankOrder compare upper lower = .lt := by
  simp only [outranks, rankAt?]
  cases queue.nodeAt? first <;> cases queue.nodeAt? second <;> simp [Node.outranks_iff]

private theorem outranks_congr {other : PriorityQueue α compare} {first second first' second' : Nat}
    (upper : other.rankAt? first' = queue.rankAt? first)
    (lower : other.rankAt? second' = queue.rankAt? second) :
    other.outranks first' second' = queue.outranks first second := by
  rw [Bool.eq_iff_iff, outranks_iff, outranks_iff, upper, lower]

private theorem outranks_swap {first second : Nat} (firstInside : first < queue.heap.size)
    (secondInside : second < queue.heap.size) (upper lower : Nat) :
    (queue.swap first second).outranks upper lower =
      queue.outranks (exchange first second upper) (exchange first second lower) :=
  outranks_congr (rankAt?_swap firstInside secondInside upper)
    (rankAt?_swap firstInside secondInside lower)

section Order

variable [Std.TransCmp compare] {first second third : Nat}

private theorem outranks_asymm (above : queue.outranks first second = true) :
    queue.outranks second first = false := by
  obtain ⟨upper, lower, atFirst, atSecond, less⟩ := outranks_iff.mp above
  rw [Bool.eq_false_iff]
  intro reverse
  obtain ⟨lower', upper', atSecond', atFirst', less'⟩ := outranks_iff.mp reverse
  cases Option.some.inj (atFirst.symm.trans atFirst')
  cases Option.some.inj (atSecond.symm.trans atSecond')
  exact Std.OrientedCmp.not_lt_of_lt less less'

private theorem outranks_self (position : Nat) : queue.outranks position position = false := by
  rw [Bool.eq_false_iff]
  intro above
  rw [outranks_asymm above] at above
  cases above

/-- What does not outrank a node outranks nothing that the node does not outrank. -/
private theorem outranks_trans_false (listed : ∃ rank, queue.rankAt? second = some rank)
    (left : queue.outranks first second = false) (right : queue.outranks second third = false) :
    queue.outranks first third = false := by
  rw [Bool.eq_false_iff] at left right ⊢
  intro above
  obtain ⟨middle, atSecond⟩ := listed
  obtain ⟨upper, lower, atFirst, atThird, less⟩ := outranks_iff.mp above
  have left' : rankOrder compare upper middle ≠ .lt :=
    fun less => left (outranks_iff.mpr ⟨upper, middle, atFirst, atSecond, less⟩)
  have right' : rankOrder compare middle lower ≠ .lt :=
    fun less => right (outranks_iff.mpr ⟨middle, lower, atSecond, atThird, less⟩)
  have trans := Std.TransCmp.isGE_trans (Ordering.isGE_iff_ne_lt.mpr left')
    (Ordering.isGE_iff_ne_lt.mpr right')
  exact Ordering.isGE_iff_ne_lt.mp trans less

end Order

def parent (position : Nat) : Nat := (position - 1) / 2

/-- No node outranks its parent, as far as the parent stands at or behind a position. -/
def OrderedFrom (queue : PriorityQueue α compare) (start : Nat) : Prop :=
  ∀ position, 0 < position → position < queue.heap.size → start ≤ parent position →
    queue.outranks position (parent position) = false

def Ordered (queue : PriorityQueue α compare) : Prop := queue.OrderedFrom 0

/-- None of the children of a hole outranks the node at another position. -/
def Covers (queue : PriorityQueue α compare) (top hole : Nat) : Prop :=
  ∀ position, 0 < position → position < queue.heap.size → parent position = hole →
    queue.outranks position top = false

/-- The same, but for the node of the hole and its children. These stand to the parent of
the hole as they would if the hole were not there. -/
structure OrderedBut (queue : PriorityQueue α compare) (start hole : Nat) : Prop where
  pairs : ∀ position, 0 < position → position < queue.heap.size → start ≤ parent position →
    position ≠ hole → parent position ≠ hole → queue.outranks position (parent position) = false
  grand : 0 < hole → start ≤ parent hole → queue.Covers (parent hole) hole

theorem parent_lt {position : Nat} (inner : 0 < position) : parent position < position := by
  simp only [parent]
  omega

private theorem child_cases {position hole : Nat} (inner : 0 < position)
    (child : parent position = hole) : position = 2 * hole + 1 ∨ position = 2 * hole + 2 := by
  simp only [parent] at child
  omega

section Sift

variable [Std.TransCmp compare] {gone : Option Nat}

section Lift

variable {hole : Nat} (order : queue.OrderedBut 0 hole) (inner : 0 < hole)
  (above : queue.outranks hole (parent hole) = true)

include order inner above

omit [Std.TransCmp compare] in
private theorem lift_pairs {position : Nat} (positive : 0 < position)
    (inside : position < queue.heap.size) (apart : position ≠ parent hole)
    (beside : parent position ≠ parent hole) :
    (queue.swap hole (parent hole)).outranks position (parent position) = false := by
  obtain ⟨lower, upper⟩ := inside_of_outranks above
  have other : position ≠ hole := by
    intro same
    exact beside (congrArg parent same)
  rw [outranks_swap lower upper, exchange_of_ne other apart]
  by_cases child : parent position = hole
  · rw [child, exchange_left]
    exact order.grand inner (Nat.zero_le _) position positive inside child
  · rw [exchange_of_ne child beside]
    exact order.pairs position positive inside (Nat.zero_le _) other child

private theorem lift_grand (linked : queue.LinkedBut gone) (deep : 0 < parent hole) {position : Nat}
    (positive : 0 < position) (inside : position < queue.heap.size)
    (child : parent position = parent hole) :
    (queue.swap hole (parent hole)).outranks position (parent (parent hole)) = false := by
  obtain ⟨lower, upper⟩ := inside_of_outranks above
  have less := parent_lt inner
  have grandparent := parent_lt deep
  have outside : exchange hole (parent hole) (parent (parent hole)) = parent (parent hole) :=
    exchange_of_ne (by omega) (by omega)
  have fixed := order.pairs (parent hole) deep upper (Nat.zero_le _) (by omega) (by omega)
  rw [outranks_swap lower upper, outside]
  by_cases same : position = hole
  · rw [same, exchange_left]
    exact fixed
  · have apart : position ≠ parent hole := by
      have := parent_lt positive
      omega
    rw [exchange_of_ne same apart]
    have pair := order.pairs position positive inside (Nat.zero_le _) same (by omega)
    rw [child] at pair
    exact outranks_trans_false (rankAt?_isSome linked upper) pair fixed

private theorem lift_covers (linked : queue.LinkedBut gone) {position : Nat}
    (positive : 0 < position) (inside : position < queue.heap.size)
    (child : parent position = parent hole) :
    (queue.swap hole (parent hole)).outranks position (parent hole) = false := by
  obtain ⟨lower, upper⟩ := inside_of_outranks above
  have less := parent_lt inner
  rw [outranks_swap lower upper, exchange_right]
  by_cases same : position = hole
  · rw [same, exchange_left]
    exact outranks_asymm above
  · have apart : position ≠ parent hole := by
      have := parent_lt positive
      omega
    rw [exchange_of_ne same apart, Bool.eq_false_iff]
    intro higher
    -- A sibling above the lifted node would not be below the parent either.
    have pair := order.pairs position positive inside (Nat.zero_le _) same (by omega)
    rw [child] at pair
    have chain := outranks_trans_false (rankAt?_isSome linked inside) (outranks_asymm higher) pair
    rw [above] at chain
    cases chain

/-- Lifting the hole's node past its parent moves the hole to the parent. -/
private theorem OrderedBut.lift (linked : queue.LinkedBut gone) :
    (queue.swap hole (parent hole)).OrderedBut 0 (parent hole) ∧
      (queue.swap hole (parent hole)).Covers (parent hole) (parent hole) := by
  have size : (queue.swap hole (parent hole)).heap.size = queue.heap.size := by simp [heap_swap]
  refine ⟨⟨?_, ?_⟩, ?_⟩
  · intro position positive inside _ apart beside
    exact lift_pairs order inner above positive (size ▸ inside) apart beside
  · intro deep _ position positive inside child
    exact lift_grand order inner above linked deep positive (size ▸ inside) child
  · intro position positive inside child
    exact lift_covers order inner above linked positive (size ▸ inside) child

end Lift

theorem siftUp_orders {hole : Nat} (order : queue.OrderedBut 0 hole)
    (children : queue.Covers hole hole) (linked : queue.LinkedBut gone) :
    (queue.siftUp hole).2.Ordered := by
  fun_induction siftUp queue hole with
  | case1 queue =>
    intro position positive inside _
    by_cases child : parent position = 0
    · rw [child]
      exact children position positive inside child
    · exact order.pairs position positive inside (Nat.zero_le _) (by omega) child
  | case2 queue hole inner root above ih =>
    obtain ⟨lower, upper⟩ := inside_of_outranks above
    obtain ⟨lifted, covered⟩ := order.lift (by omega) above linked
    exact ih lifted covered ((swap_rearranges lower upper).links gone linked)
  | case3 queue hole inner above below =>
    intro position positive inside _
    by_cases same : position = hole
    · subst same
      exact Bool.eq_false_iff.mpr below
    · by_cases child : parent position = hole
      · rw [child]
        exact children position positive inside child
      · exact order.pairs position positive inside (Nat.zero_le _) same child

omit [Std.TransCmp compare] in
/-- Nothing outranks a node from beyond the tail, so the bounds need not be asked for. -/
theorem foremost_eq (queue : PriorityQueue α compare) (hole : Nat) :
    queue.foremost hole =
      if queue.outranks (2 * hole + 1) hole then
        if queue.outranks (2 * hole + 2) (2 * hole + 1) then 2 * hole + 2 else 2 * hole + 1
      else if queue.outranks (2 * hole + 2) hole then 2 * hole + 2 else hole := by
  have left : queue.outranks (2 * hole + 1) hole = true → 2 * hole + 1 < queue.heap.size :=
    fun above => (inside_of_outranks above).1
  have right : ∀ best, queue.outranks (2 * hole + 2) best = true → 2 * hole + 2 < queue.heap.size :=
    fun best above => (inside_of_outranks above).1
  simp only [foremost]
  grind

omit [Std.TransCmp compare] in
private theorem covers_of_foremost {hole : Nat} (stays : queue.foremost hole = hole) :
    queue.Covers hole hole := by
  intro position positive inside child
  rw [Bool.eq_false_iff]
  intro above
  rw [foremost_eq] at stays
  rcases child_cases positive child with rfl | rfl <;> grind

private theorem foremost_child {hole : Nat} (linked : queue.LinkedBut gone)
    (moves : queue.foremost hole ≠ hole) :
    parent (queue.foremost hole) = hole ∧ queue.outranks (queue.foremost hole) hole = true ∧
      queue.Covers (queue.foremost hole) hole := by
  have covers : ∀ top, queue.outranks (2 * hole + 1) top = false →
      queue.outranks (2 * hole + 2) top = false → queue.Covers top hole := by
    intro top first second position positive inside child
    rcases child_cases positive child with rfl | rfl
    · exact first
    · exact second
  have leftChild : parent (2 * hole + 1) = hole := by
    simp only [parent]
    omega
  have rightChild : parent (2 * hole + 2) = hole := by
    simp only [parent]
    omega
  rw [foremost_eq] at moves ⊢
  by_cases left : queue.outranks (2 * hole + 1) hole = true
  · have listed := rankAt?_isSome linked (inside_of_outranks left).2
    by_cases right : queue.outranks (2 * hole + 2) (2 * hole + 1) = true
    · simp only [left, right, if_true]
      refine ⟨rightChild, ?_, covers _ (outranks_asymm right) (outranks_self _)⟩
      cases below : queue.outranks (2 * hole + 2) hole with
      | true => rfl
      | false =>
        have chain := outranks_trans_false listed below (outranks_asymm left)
        rw [right] at chain
        cases chain
    · simp only [left, right, if_true]
      exact ⟨leftChild, left, covers _ (outranks_self _) (Bool.eq_false_iff.mpr right)⟩
  · by_cases right : queue.outranks (2 * hole + 2) hole = true
    · simp only [left, right, if_true]
      have listed := rankAt?_isSome linked (inside_of_outranks right).2
      have chain := outranks_trans_false listed (Bool.eq_false_iff.mpr left) (outranks_asymm right)
      exact ⟨rightChild, right, covers _ chain (outranks_self _)⟩
    · simp [left, right] at moves

/-- Sinking the hole's node below its foremost child moves the hole to that child. -/
private theorem OrderedBut.sink {start hole : Nat} (order : queue.OrderedBut start hole)
    (linked : queue.LinkedBut gone) (within : start ≤ hole)
    (moves : queue.foremost hole ≠ hole) :
    (queue.swap hole (queue.foremost hole)).OrderedBut start (queue.foremost hole) ∧
      (queue.swap hole (queue.foremost hole)).outranks (queue.foremost hole) hole = false := by
  obtain ⟨child, above, covers⟩ := foremost_child linked moves
  obtain ⟨below, lower⟩ := foremost_bounds moves
  have upper : hole < queue.heap.size := by omega
  generalize queue.foremost hole = best at child above covers below lower
  have size : (queue.swap hole best).heap.size = queue.heap.size := by simp [heap_swap]
  have swapped := outranks_swap upper lower
  refine ⟨⟨?_, ?_⟩, ?_⟩
  · intro position positive inside behind apart beside
    rw [size] at inside
    have less := parent_lt positive
    rw [swapped]
    by_cases same : position = hole
    · subst same
      rw [exchange_left, exchange_of_ne (by omega) (by omega)]
      exact order.grand positive behind best (by omega) lower child
    · rw [exchange_of_ne same apart]
      by_cases sibling : parent position = hole
      · rw [sibling, exchange_left]
        exact covers position positive inside sibling
      · rw [exchange_of_ne sibling beside]
        exact order.pairs position positive inside behind same sibling
  · intro positive _ position positive' inside grandchild
    rw [size] at inside
    have less := parent_lt positive'
    rw [swapped, child, exchange_left, exchange_of_ne (by omega) (by omega)]
    have pair := order.pairs position positive' inside (by omega) (by omega) (by omega)
    rwa [grandchild] at pair
  · rw [swapped, exchange_right, exchange_left]
    exact outranks_asymm above

theorem siftDown_orders {start hole : Nat} (order : queue.OrderedBut start hole)
    (below : 0 < hole → start ≤ parent hole → queue.outranks hole (parent hole) = false)
    (within : start ≤ hole) (linked : queue.LinkedBut gone) :
    (queue.siftDown hole).OrderedFrom start := by
  fun_induction siftDown queue hole with
  | case1 queue hole best stays =>
    have covers := covers_of_foremost stays
    intro position positive inside behind
    by_cases same : position = hole
    · subst same
      exact below positive behind
    · by_cases child : parent position = hole
      · rw [child]
        exact covers position positive inside child
      · exact order.pairs position positive inside behind same child
  | case2 queue hole best moves ih =>
    obtain ⟨sunk, covered⟩ := order.sink linked within moves
    obtain ⟨child, _, _⟩ := foremost_child linked moves
    obtain ⟨behind, inside⟩ := foremost_bounds moves
    apply ih sunk
    · intro _ _
      rw [child]
      exact covered
    · omega
    · exact (swap_rearranges (by omega) inside).links gone linked

theorem mend_orders {hole : Nat} (order : queue.OrderedBut 0 hole)
    (linked : queue.LinkedBut gone) : (queue.mend hole).Ordered := by
  by_cases above : 0 < hole ∧ queue.outranks hole (parent hole) = true
  · obtain ⟨inner, above⟩ := above
    have children : queue.Covers hole hole := by
      intro position positive inside child
      rw [Bool.eq_false_iff]
      intro higher
      have chain := outranks_trans_false (rankAt?_isSome linked inside) (outranks_asymm higher)
        (order.grand inner (Nat.zero_le _) position positive inside child)
      rw [above] at chain
      cases chain
    have moved : (queue.siftUp hole).1 ≠ hole := by
      have less := parent_lt inner
      have reached := siftUp_reached_le (queue.swap hole (parent hole)) (parent hole)
      rw [siftUp, if_neg (by omega)]
      simp only [parent] at above reached less
      simp only [above, if_true]
      omega
    simp only [mend, moved, if_false]
    exact siftUp_orders order children linked
  · have stays : queue.siftUp hole = (hole, queue) := by
      rw [siftUp]
      split
      · rfl
      next inner =>
        have below : ¬ queue.outranks hole ((hole - 1) / 2) = true :=
          fun higher => above ⟨by omega, higher⟩
        simp [below]
    simp only [mend, stays, if_true]
    apply siftDown_orders order _ (Nat.zero_le _) linked
    intro inner _
    exact Bool.eq_false_iff.mpr fun higher => above ⟨inner, higher⟩

omit [Std.TransCmp compare] in
private theorem rankAt?_appended (item : α) {position : Nat} (inside : position < queue.heap.size)
    (linked : queue.Linked) : (queue.appended item).rankAt? position = queue.rankAt? position := by
  have listed := Array.getElem?_eq_getElem inside
  have listed' : (queue.appended item).heap[position]? = some queue.heap[position] := by
    simp [appended, Array.getElem?_push, inside, Nat.ne_of_lt inside]
  obtain ⟨_, node, seen, _⟩ := (linked position _).mp listed
  have apart : queue.heap[position] ≠
      (queue.nodes.insert ⟨item, queue.heap.size, queue.nextTurn⟩).1.index := by
    intro same
    rw [same, Arena.getAt?, Arena.entryAt?_of_insert] at seen
    cases seen
  have seen' : (queue.appended item).nodes.getAt? queue.heap[position] = some node := by
    simp [appended, Arena.getAt?_insert, apart, seen]
  simp [rankAt?, nodeAt?, listed, listed', seen, seen']

theorem insert_ordered (ordered : queue.Ordered) (linked : queue.Linked) (item : α) :
    (queue.insert item).2.Ordered := by
  have size : (queue.appended item).heap.size = queue.heap.size + 1 := by simp [appended]
  rw [insert_eq]
  refine siftUp_orders ⟨?_, ?_⟩ ?_ (appended_linked linked item)
  · intro position positive inside _ apart beside
    rw [size] at inside
    have less := parent_lt positive
    rw [outranks_congr (rankAt?_appended item (by omega) linked)
      (rankAt?_appended item (by omega) linked)]
    exact ordered position positive (by omega) (Nat.zero_le _)
  · intro _ _ position positive inside child
    have less := parent_lt positive
    omega
  · intro position positive inside child
    have less := parent_lt positive
    omega

omit [Std.TransCmp compare] in
private theorem rankAt?_vacated {position : Nat} (inside : position < queue.heap.size)
    (other : Nat) : (queue.vacated position).rankAt? other =
      if other < queue.heap.size - 1 then
        if other = position then queue.rankAt? (queue.heap.size - 1) else queue.rankAt? other
      else none := by
  have shelf := rank_of_shelves (queue.shelves_vacated position)
  simp only [rankAt?, nodeAt?]
  rw [heap?_vacated inside]
  split
  · split
    · cases queue.heap[queue.heap.size - 1]? with
      | none => rfl
      | some index => exact shelf index
    · cases queue.heap[other]? with
      | none => rfl
      | some index => exact shelf index
  · rfl

private theorem vacated_orderedBut {position : Nat} (ordered : queue.Ordered)
    (linked : queue.Linked)
    (inside : position < queue.heap.size) : (queue.vacated position).OrderedBut 0 position := by
  have size := heap_size_vacated queue position
  have kept : ∀ other, other < queue.heap.size - 1 → other ≠ position →
      (queue.vacated position).rankAt? other = queue.rankAt? other := by
    intro other short apart
    rw [rankAt?_vacated inside, if_pos short, if_neg apart]
  constructor
  · intro other positive short _ apart beside
    have less := parent_lt positive
    rw [outranks_congr (kept other (by omega) apart) (kept (parent other) (by omega) beside)]
    exact ordered other positive (by omega) (Nat.zero_le _)
  · intro inner _ other positive short child
    have less := parent_lt positive
    have above := parent_lt inner
    rw [outranks_congr (kept other (by omega) (by omega)) (kept (parent position) (by omega) (by omega))]
    have pair := ordered other positive (by omega) (Nat.zero_le _)
    rw [child] at pair
    exact outranks_trans_false (rankAt?_isSome linked inside) pair
      (ordered position inner inside (Nat.zero_le _))

omit [Std.TransCmp compare] in
theorem discard_ordered {index : Nat} (ordered : queue.Ordered)
    (linked : queue.LinkedBut (some index)) : (queue.discard index).Ordered := by
  have kept : ∀ position, (queue.discard index).rankAt? position = queue.rankAt? position := by
    intro position
    have heap : (queue.discard index).heap = queue.heap := rfl
    simp only [rankAt?, nodeAt?]
    rw [heap]
    cases listed : queue.heap[position]? with
    | none => rfl
    | some other =>
      have apart : other ≠ index := by
        intro same
        exact ((linked position other).mp listed).1 (congrArg some same.symm)
      simp [discard, Arena.getAt?_removeAt, apart]
  intro position positive inside _
  rw [outranks_congr (kept position) (kept (parent position))]
  exact ordered position positive inside (Nat.zero_le _)

theorem pop_ordered (ordered : queue.Ordered) (linked : queue.Linked) :
    queue.pop.2.Ordered := by
  cases listed : queue.heap[0]? with
  | none =>
    rw [pop_of_empty listed]
    exact ordered
  | some index =>
    have inside := (Array.getElem?_eq_some_iff.mp listed).1
    have links := vacated_linked linked listed
    rw [pop_eq listed]
    refine discard_ordered ?_ ((siftDown_rearranges _ 0).links _ links)
    exact siftDown_orders (vacated_orderedBut ordered linked inside)
      (fun positive => absurd positive (Nat.lt_irrefl 0)) (Nat.zero_le _) links

theorem remove_ordered (ordered : queue.Ordered) (linked : queue.Linked) (key : NodeKey) :
    (queue.remove key).2.Ordered := by
  cases found : queue.nodes.get? key.key with
  | none =>
    rw [remove_of_absent (by simp [held?, found])]
    exact ordered
  | some node =>
    have listed := linked.listed (Arena.getAt?_of_get? found)
    have inside := (Array.getElem?_eq_some_iff.mp listed).1
    have links := vacated_linked linked listed
    rw [remove_eq found]
    refine discard_ordered ?_ ((mend_rearranges _ node.position).links _ links)
    exact mend_orders (vacated_orderedBut ordered linked inside) links

omit [Std.TransCmp compare] in
theorem clear_ordered (queue : PriorityQueue α compare) : queue.clear.Ordered := by
  intro position _ inside
  simp [clear] at inside

omit [Std.TransCmp compare] in
theorem empty_ordered : ({} : PriorityQueue α compare).Ordered := by
  intro position _ inside
  simp at inside

/-- Reordering makes the subtrees heaps, from the last parent to the root. -/
theorem reorder_ordered (linked : queue.Linked) : queue.reorder.Ordered := by
  have heapify : ∀ count, ∀ start : PriorityQueue α compare, start.Linked →
      start.OrderedFrom count → ((List.range count).reverse.foldl siftDown start).Ordered := by
    intro count
    induction count with
    | zero => exact fun start _ ordered => ordered
    | succ count ih =>
      intro start linked ordered
      rw [List.range_succ, List.reverse_append, List.reverse_singleton, List.singleton_append,
        List.foldl_cons]
      apply ih _ ((siftDown_rearranges start count).links none linked)
      refine siftDown_orders ⟨?_, ?_⟩ ?_ (Nat.le_refl _) linked
      · intro position positive inside behind _ beside
        exact ordered position positive inside (by omega)
      · intro inner behind
        have less := parent_lt inner
        omega
      · intro inner behind
        have less := parent_lt inner
        omega
  apply heapify _ queue linked
  intro position positive inside behind
  simp only [parent] at behind
  omega

theorem root_foremost (ordered : queue.Ordered) (linked : queue.Linked) {position : Nat}
    (inside : position < queue.heap.size) : queue.outranks position 0 = false := by
  induction position using Nat.strongRecOn with
  | ind position ih =>
    by_cases root : position = 0
    · rw [root]
      exact outranks_self 0
    · have positive : 0 < position := by omega
      have less := parent_lt positive
      exact outranks_trans_false (rankAt?_isSome linked (by omega))
        (ordered position positive inside (Nat.zero_le _)) (ih (parent position) less (by omega))

theorem front_foremost (ordered : queue.Ordered) (linked : queue.Linked) {node : Node α}
    (front : queue.front? = some node) {key : NodeKey} {rank : α × UInt64}
    (held : queue.held? key = some rank) : rankOrder compare rank node.rank ≠ .lt := by
  obtain ⟨position, listed, ranked⟩ := listed_of_held? linked held
  have inside := (Array.getElem?_eq_some_iff.mp listed).1
  have root : queue.rankAt? 0 = some node.rank := by
    rw [front?] at front
    simp [rankAt?, front]
  have below := root_foremost ordered linked inside
  intro less
  rw [outranks_iff.mpr ⟨rank, node.rank, ranked, root, less⟩] at below
  cases below

end Sift

end Timers.PriorityQueue
