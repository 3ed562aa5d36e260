import Timers.Proofs.QueueOrder

/-! What a queue is, without its heap: a finite map from the keys that were issued to items
and the numbers of their insertion. Whatever is asked of a queue, it answers as this map
does. With a comparator that orders, that includes which item comes out first. -/

namespace Timers

namespace PriorityQueue

inductive Request (α : Type u) where
  | insert (item : α)
  | pop
  | remove (key : NodeKey)
  | set (key : NodeKey) (item : α)
  | peek
  | peekKey
  | get (key : NodeKey)
  | contains (key : NodeKey)
  | size
  | isEmpty
  | reorder
  | clear

inductive Reply (α : Type u) where
  | issued (key : NodeKey)
  | item (found : Option α)
  | removed (result : Except QueueError α)
  | key (found : Option NodeKey)
  | truth (holds : Bool)
  | count (number : Nat)
  | done

/-- Whether an item is put in. -/
def Request.inserts {α : Type u} : Request α → Bool
  | .insert _ => true
  | _ => false

/-- Whether an item is exchanged where it stands, which may leave the queue out of order. -/
def Request.exchanges {α : Type u} : Request α → Bool
  | .set .. => true
  | _ => false

variable {α : Type u} {compare : α → α → Ordering}

def perform (queue : PriorityQueue α compare) : Request α → Reply α × PriorityQueue α compare
  | .insert item =>
    let (key, after) := queue.insert item
    (.issued key, after)
  | .pop =>
    let (found, after) := queue.pop
    (.item found, after)
  | .remove key =>
    let (result, after) := queue.remove key
    (.removed result, after)
  | .set key item => (.truth (queue.contains key), queue.set key item)
  | .peek => (.item queue.peek?, queue)
  | .peekKey => (.key queue.peekKey?, queue)
  | .get key => (.item (queue.get? key), queue)
  | .contains key => (.truth (queue.contains key), queue)
  | .size => (.count queue.size, queue)
  | .isEmpty => (.truth queue.isEmpty, queue)
  | .reorder => (.done, queue.reorder)
  | .clear => (.done, queue.clear)

def run (queue : PriorityQueue α compare) :
    List (Request α) → List (Reply α) × PriorityQueue α compare
  | [] => ([], queue)
  | request :: rest =>
    let (reply, next) := queue.perform request
    let (replies, last) := next.run rest
    (reply :: replies, last)

/-- No generation of a slot wraps in a run. -/
def Unwrapped (queue : PriorityQueue α compare) : List (Request α) → Prop
  | [] => True
  | request :: rest =>
    queue.nodes.Unwrapped (queue.perform request).2.nodes ∧
      (queue.perform request).2.Unwrapped rest

end PriorityQueue

open PriorityQueue

namespace Collection

structure Entry (α : Type u) where
  key : NodeKey
  item : α
  number : Nat

/-- By the comparator, and among equals by the number of the insertion. -/
def Entry.precedes {α : Type u} (compare : α → α → Ordering) (first second : Entry α) : Bool :=
  ((compare first.item second.item).then (Ord.compare first.number second.number)).isLE

end Collection

/-- The entries that live, in the order of their insertion, and how many there ever were. -/
structure Collection (α : Type u) where
  entries : List (Collection.Entry α) := []
  inserted : Nat := 0

namespace Collection

variable {α : Type u}

def find? (collection : Collection α) (key : NodeKey) : Option (Entry α) :=
  collection.entries.find? (·.key = key)

def without (collection : Collection α) (key : NodeKey) : Collection α :=
  { collection with entries := collection.entries.filter (·.key ≠ key) }

/-- The entries in the order in which they come out. -/
def inOrder (compare : α → α → Ordering) (collection : Collection α) : List (Entry α) :=
  collection.entries.mergeSort (Entry.precedes compare)

def first? (compare : α → α → Ordering) (collection : Collection α) : Option (Entry α) :=
  (collection.inOrder compare).head?

/-- Answers a request. The keys are names for the numbers of the insertions. -/
def perform (compare : α → α → Ordering) (names : Nat → NodeKey) (collection : Collection α) :
    Request α → Reply α × Collection α
  | .insert item =>
    let entry : Entry α := ⟨names collection.inserted, item, collection.inserted⟩
    (.issued entry.key, ⟨collection.entries ++ [entry], collection.inserted + 1⟩)
  | .pop =>
    match collection.first? compare with
    | some entry => (.item (some entry.item), collection.without entry.key)
    | none => (.item none, collection)
  | .remove key =>
    match collection.find? key with
    | some entry => (.removed (.ok entry.item), collection.without key)
    | none => (.removed (.error .staleNode), collection)
  | .set key item =>
    (.truth (collection.find? key).isSome,
      { collection with
        entries := collection.entries.map fun entry =>
          if entry.key = key then { entry with item } else entry })
  | .peek => (.item ((collection.first? compare).map (·.item)), collection)
  | .peekKey => (.key ((collection.first? compare).map (·.key)), collection)
  | .get key => (.item ((collection.find? key).map (·.item)), collection)
  | .contains key => (.truth (collection.find? key).isSome, collection)
  | .size => (.count collection.entries.length, collection)
  | .isEmpty => (.truth collection.entries.isEmpty, collection)
  | .reorder => (.done, collection)
  | .clear => (.done, { collection with entries := [] })

def run (compare : α → α → Ordering) (names : Nat → NodeKey) (collection : Collection α) :
    List (Request α) → List (Reply α) × Collection α
  | [] => ([], collection)
  | request :: rest =>
    let (reply, next) := collection.perform compare names request
    let (replies, last) := next.run compare names rest
    (reply :: replies, last)

variable {compare : α → α → Ordering} {collection : Collection α} {entry : Entry α}

section Precedence

variable [Std.TransCmp compare]

private def entryOrder (compare : α → α → Ordering) : Entry α → Entry α → Ordering :=
  compareLex (fun first second => compare first.item second.item) (compareOn Entry.number)

private theorem entryOrder_transCmp : Std.TransCmp (entryOrder compare) := by
  have items : Std.TransCmp fun first second : Entry α => compare first.item second.item :=
    { eq_swap := Std.OrientedCmp.eq_swap, isLE_trans := Std.TransCmp.isLE_trans }
  exact inferInstanceAs (Std.TransCmp (compareLex _ _))

omit [Std.TransCmp compare] in
private theorem precedes_eq (first second : Entry α) :
    Entry.precedes compare first second = (entryOrder compare first second).isLE := rfl

private theorem precedes_trans (first second third : Entry α)
    (left : Entry.precedes compare first second = true)
    (right : Entry.precedes compare second third = true) :
    Entry.precedes compare first third = true := by
  have order : Std.TransCmp (entryOrder compare) := entryOrder_transCmp
  rw [precedes_eq] at left right ⊢
  exact order.isLE_trans left right

private theorem precedes_total (first second : Entry α) :
    (Entry.precedes compare first second || Entry.precedes compare second first) = true := by
  have order : Std.TransCmp (entryOrder compare) := entryOrder_transCmp
  rw [precedes_eq, precedes_eq, order.eq_swap (a := second)]
  cases entryOrder compare first second <;> rfl

private theorem number_eq_of_precedes {first second : Entry α}
    (left : Entry.precedes compare first second = true)
    (right : Entry.precedes compare second first = true) : first.number = second.number := by
  have items : compare first.item second.item = (compare second.item first.item).swap :=
    Std.OrientedCmp.eq_swap
  simp only [Entry.precedes] at left right
  rw [items] at left
  cases seen : compare second.item first.item with
  | lt => simp [seen] at left
  | gt => simp [seen] at right
  | eq =>
    simp only [seen, Ordering.swap_eq, Ordering.eq_then, Nat.isLE_compare] at left right
    omega

/-- The comparator alone, without the numbers. -/
private def noLater (compare : α → α → Ordering) (first second : Entry α) : Bool :=
  (compare first.item second.item).isLE

private theorem noLater_total (first second : Entry α) :
    (noLater compare first second || noLater compare second first) = true := by
  have flipped : compare first.item second.item = (compare second.item first.item).swap :=
    Std.OrientedCmp.eq_swap
  simp only [noLater, flipped]
  cases compare second.item first.item <;> rfl

private theorem noLater_trans (first second third : Entry α)
    (left : noLater compare first second = true) (right : noLater compare second third = true) :
    noLater compare first third = true := Std.TransCmp.isLE_trans left right

omit [Std.TransCmp compare] in
private theorem precedes_of_noLater {first second : Entry α}
    (early : noLater compare first second = true) (less : first.number < second.number) :
    Entry.precedes compare first second = true := by
  simp only [noLater] at early
  simp only [Entry.precedes]
  cases seen : compare first.item second.item with
  | lt => rfl
  | gt => simp [seen] at early
  | eq =>
    rw [Ordering.eq_then, Nat.isLE_compare]
    exact Nat.le_of_lt less

private theorem precedes_of_later {first second : Entry α}
    (late : noLater compare second first = false) : Entry.precedes compare first second = true := by
  have flipped : compare second.item first.item = (compare first.item second.item).swap :=
    Std.OrientedCmp.eq_swap
  rw [noLater, flipped] at late
  simp only [Entry.precedes]
  cases seen : compare first.item second.item with
  | lt => rfl
  | gt => simp [seen] at late
  | eq => simp [seen] at late

/-- A stable sort by the comparator leaves equal entries in the order of their numbers. -/
private theorem sorted_pairwise {entries : List (Entry α)}
    (numbered : entries.Pairwise (·.number < ·.number)) :
    (entries.mergeSort (noLater compare)).Pairwise fun first second =>
      Entry.precedes compare first second = true := by
  have chain : ∀ first second third : Entry α, noLater compare first second = true →
      noLater compare second third = true → noLater compare first third = true := noLater_trans
  induction entries with
  | nil => simp
  | cons head rest ih =>
    obtain ⟨ahead, numbered⟩ := List.pairwise_cons.mp numbered
    obtain ⟨front, back, split, whole, less⟩ := List.mergeSort_cons chain noLater_total head rest
    have sorted := List.pairwise_mergeSort chain noLater_total (head :: rest)
    have kept := ih numbered
    have inside : ∀ other ∈ front ++ back, other ∈ rest := by
      rw [← whole]
      exact fun other => List.mem_mergeSort.mp
    rw [split, List.pairwise_append, List.pairwise_cons] at sorted ⊢
    rw [whole, List.pairwise_append] at kept
    obtain ⟨left, right, across⟩ := kept
    refine ⟨left, ⟨?_, right⟩, ?_⟩
    · intro other listed
      have later := ahead other (inside other (List.mem_append_right front listed))
      exact precedes_of_noLater (sorted.2.1.1 other listed) later
    · intro first before second after
      rcases List.mem_cons.mp after with same | behind
      · subst same
        exact precedes_of_later (by simpa using less first before)
      · exact across first before second behind

theorem inOrder_pairwise (collection : Collection α) :
    (collection.inOrder compare).Pairwise fun first second =>
      Entry.precedes compare first second = true :=
  List.pairwise_mergeSort precedes_trans precedes_total collection.entries

end Precedence

theorem mem_inOrder : entry ∈ collection.inOrder compare ↔ entry ∈ collection.entries :=
  List.mem_mergeSort

/-- Entries are numbered in the order in which they stand, and no key has two of them. -/
structure Sound (collection : Collection α) : Prop where
  numbered : collection.entries.Pairwise (·.number < ·.number)
  keyed : collection.entries.Pairwise (·.key ≠ ·.key)

namespace Sound

private theorem eq_of_number (sound : collection.Sound) {first second : Entry α}
    (left : first ∈ collection.entries) (right : second ∈ collection.entries)
    (same : first.number = second.number) : first = second := by
  have ahead : collection.entries.Pairwise fun first second =>
      first.number = second.number → first = second :=
    sound.numbered.imp fun less same => absurd same (Nat.ne_of_lt less)
  have behind : collection.entries.Pairwise (flip fun first second =>
      first.number = second.number → first = second) :=
    sound.numbered.imp fun less same => absurd same (Nat.ne_of_gt less)
  exact ahead.forall_of_forall_of_flip (fun _ _ _ => rfl) behind left right same

theorem eq_of_key (sound : collection.Sound) {first second : Entry α}
    (left : first ∈ collection.entries) (right : second ∈ collection.entries)
    (same : first.key = second.key) : first = second := by
  have ahead : collection.entries.Pairwise fun first second =>
      first.key = second.key → first = second :=
    sound.keyed.imp fun apart same => absurd same apart
  have behind : collection.entries.Pairwise (flip fun first second =>
      first.key = second.key → first = second) :=
    sound.keyed.imp fun apart same => absurd same.symm apart
  exact ahead.forall_of_forall_of_flip (fun _ _ _ => rfl) behind left right same

theorem find?_eq_some_iff (sound : collection.Sound) {key : NodeKey} :
    collection.find? key = some entry ↔ entry ∈ collection.entries ∧ entry.key = key := by
  constructor
  · intro found
    exact ⟨List.mem_of_find?_eq_some found, by simpa using List.find?_some found⟩
  · rintro ⟨member, same⟩
    cases found : collection.find? key with
    | none =>
      have absent := List.find?_eq_none.mp found entry member
      simp [same] at absent
    | some other =>
      have listed := List.mem_of_find?_eq_some found
      have named : other.key = key := by simpa using List.find?_some found
      rw [sound.eq_of_key listed member (named.trans same.symm)]

theorem without (sound : collection.Sound) (key : NodeKey) : (collection.without key).Sound :=
  ⟨sound.numbered.filter _, sound.keyed.filter _⟩

theorem perm_without (sound : collection.Sound) (member : entry ∈ collection.entries) :
    (entry :: (collection.without entry.key).entries).Perm collection.entries := by
  obtain ⟨front, back, split⟩ := List.append_of_mem member
  have keyed := sound.keyed
  rw [split, List.pairwise_append, List.pairwise_cons] at keyed
  obtain ⟨_, ⟨behind, _⟩, ahead⟩ := keyed
  have left : front.filter (fun other => decide (other.key ≠ entry.key)) = front :=
    List.filter_eq_self.mpr fun other inside => by
      simpa using ahead other inside entry List.mem_cons_self
  have right : back.filter (fun other => decide (other.key ≠ entry.key)) = back :=
    List.filter_eq_self.mpr fun other inside => by
      simpa using (behind other inside).symm
  rw [Collection.without, split, List.filter_append, List.filter_cons, left, right]
  simpa using List.perm_middle.symm

section Precedence

variable [Std.TransCmp compare]

theorem first?_eq (sound : collection.Sound) (member : entry ∈ collection.entries)
    (least : ∀ other ∈ collection.entries, Entry.precedes compare entry other = true) :
    collection.first? compare = some entry := by
  have listed : entry ∈ collection.inOrder compare := mem_inOrder.mpr member
  have sorted : (collection.inOrder compare).Pairwise fun first second =>
      Entry.precedes compare first second = true := collection.inOrder_pairwise
  simp only [first?]
  cases ordered : collection.inOrder compare with
  | nil => simp [ordered] at listed
  | cons head tail =>
    rw [ordered] at listed sorted
    have front : head ∈ collection.inOrder compare := by
      rw [ordered]
      exact List.mem_cons_self
    have inside : head ∈ collection.entries := mem_inOrder.mp front
    rcases List.mem_cons.mp listed with rfl | later
    · rfl
    · have precedes := (List.pairwise_cons.mp sorted).1 entry later
      have same := number_eq_of_precedes (least head inside) precedes
      rw [sound.eq_of_number member inside same]
      rfl

/-- Once the first entry is out, the others come out as they would have after it. -/
theorem inOrder_eq (sound : collection.Sound) (member : entry ∈ collection.entries)
    (least : ∀ other ∈ collection.entries, Entry.precedes compare entry other = true) :
    collection.inOrder compare = entry :: (collection.without entry.key).inOrder compare := by
  have perm : (collection.inOrder compare).Perm
      (entry :: (collection.without entry.key).inOrder compare) :=
    (List.mergeSort_perm _ _).trans ((sound.perm_without member).symm.trans
      ((List.mergeSort_perm _ _).symm.cons entry))
  refine perm.eq_of_pairwise ?_ (collection.inOrder_pairwise) ?_
  · intro first second left right ahead behind
    have inside : second ∈ collection.entries := mem_inOrder.mp (perm.mem_iff.mpr right)
    exact sound.eq_of_number (mem_inOrder.mp left) inside (number_eq_of_precedes ahead behind)
  · refine List.pairwise_cons.mpr ⟨?_, inOrder_pairwise _⟩
    intro other listed
    have kept : other ∈ (collection.without entry.key).entries := mem_inOrder.mp listed
    exact least other (List.mem_filter.mp kept).1

theorem items_inOrder (sound : collection.Sound) :
    (collection.inOrder compare).map (·.item) =
      (collection.entries.map (·.item)).mergeSort fun first second => (compare first second).isLE := by
  have same : collection.inOrder compare = collection.entries.mergeSort (noLater compare) := by
    have perm : (collection.inOrder compare).Perm (collection.entries.mergeSort (noLater compare)) :=
      (List.mergeSort_perm _ _).trans (List.mergeSort_perm _ _).symm
    refine perm.eq_of_pairwise ?_ collection.inOrder_pairwise (sorted_pairwise sound.numbered)
    intro first second left right ahead behind
    have inside : second ∈ collection.entries := List.mem_mergeSort.mp right
    exact sound.eq_of_number (mem_inOrder.mp left) inside (number_eq_of_precedes ahead behind)
  rw [same]
  exact List.map_mergeSort fun _ _ _ _ => rfl

end Precedence

end Sound

end Collection

end Timers
