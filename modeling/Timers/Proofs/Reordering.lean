import Timers.Proofs.QueueLedger

/-! Reordering. Whatever disorder the exchanged items left in a heap, and whatever was requested
since, it is mended: no node outranks its parent, the keys hold what they held, and what drains
is sorted by the items as they are now, with equal items in the order in which they were put in.
A heap that is in order stays as it is. For the order among equals the books are read by number:
an item has the turn that its line has in the ledger, and no request changes that. -/

namespace Timers.PriorityQueue

open Collection (Entry)

variable {α : Type u} {compare : α → α → Ordering} {queue after : PriorityQueue α compare}
  {ledger later : List (Line α)} {key : NodeKey} {item : α} {request : Request α}

private theorem foremost_of_ordered (ordered : queue.Ordered) (position : Nat) :
    queue.foremost position = position := by
  have below : ∀ child, 0 < child → parent child = position →
      queue.outranks child position = false := by
    intro child inner same
    rw [Bool.eq_false_iff]
    intro above
    have stands := ordered child inner (inside_of_outranks above).1 (Nat.zero_le _)
    rw [same, above] at stands
    cases stands
  have left := below (2 * position + 1) (by omega) (by simp only [parent]; omega)
  have right := below (2 * position + 2) (by omega) (by simp only [parent]; omega)
  simp [foremost_eq, left, right]

private theorem siftDown_of_ordered (ordered : queue.Ordered) (position : Nat) :
    queue.siftDown position = queue := by
  rw [siftDown, if_pos (foremost_of_ordered ordered position)]

theorem reorder_of_ordered (ordered : queue.Ordered) : queue.reorder = queue := by
  have stays : ∀ positions : List Nat, positions.foldl siftDown queue = queue := by
    intro positions
    induction positions with
    | nil => rfl
    | cons first rest ih => rw [List.foldl_cons, siftDown_of_ordered ordered, ih]
  exact stays _

/-- A request that puts nothing in gives no turn, and every key keeps the turn that it has. -/
private theorem turns_perform (linked : queue.Linked) (stays : request.inserts = false) :
    (queue.perform request).2.nextTurn = queue.nextTurn ∧
      ∀ key item turn, (queue.perform request).2.held? key = some (item, turn) →
        ∃ old, queue.held? key = some (old, turn) := by
  have removal : ∀ {key : NodeKey} {after : PriorityQueue α compare}, Removed queue key after →
      after.nextTurn = queue.nextTurn ∧ ∀ other item turn,
        after.held? other = some (item, turn) → ∃ old, queue.held? other = some (old, turn) := by
    intro key after removed
    refine ⟨removed.turn, fun other item turn held => ⟨item, ?_⟩⟩
    rw [removed.held] at held
    split at held
    · cases held
    · exact held
  have nothing : queue.nextTurn = queue.nextTurn ∧ ∀ key item turn,
      queue.held? key = some (item, turn) → ∃ old, queue.held? key = some (old, turn) :=
    ⟨rfl, fun _ item _ held => ⟨item, held⟩⟩
  cases request with
  | insert item => cases stays
  | pop =>
    rcases front?_cases linked with ⟨listed, _⟩ | ⟨key, node, listed, _, _, held⟩
    · simpa only [perform, pop_of_empty listed] using nothing
    · exact removal (pop_removes linked listed held).2
  | remove key =>
    cases held : queue.held? key with
    | none => simpa only [perform, remove_of_absent held] using nothing
    | some rank => exact removal (remove_removes linked held).2
  | set key item =>
    refine ⟨rfl, fun other value turn held => ?_⟩
    simp only [perform, set, held?_modify] at held
    split at held
    · obtain ⟨⟨old, same⟩, present, equal⟩ := Option.map_eq_some_iff.mp held
      cases equal
      exact ⟨old, present⟩
    · exact ⟨value, held⟩
  | reorder =>
    have sifted := queue.reorder_rearranges
    refine ⟨sifted.turn, fun key item turn held => ⟨item, ?_⟩⟩
    rwa [perform, held?_of_shelves sifted.shelves] at held
  | clear => exact ⟨rfl, fun key item turn held => by simp [perform, held?_clear] at held⟩
  | peek | peekKey | get key | contains key | size | isEmpty => exact nothing

private theorem Books.rewrites {reply : Reply α} (books : Books ledger request reply later)
    (stays : request.inserts = false) :
    ∃ change : Line α → Line α, later = ledger.map change ∧
      ∀ line, (change line).fate = .kept → line.fate = .kept ∧ (change line).key = line.key := by
  have closes : ∀ key line, (Line.amend key Line.take line : Line α).fate = .kept →
      line.fate = .kept ∧ (Line.amend key Line.take line).key = line.key := by
    intro key line
    unfold Line.amend
    split
    · simp [Line.take]
    · exact fun kept => ⟨kept, rfl⟩
  have nothing : ∃ change : Line α → Line α, ledger = ledger.map change ∧
      ∀ line, (change line).fate = .kept → line.fate = .kept ∧ (change line).key = line.key :=
    ⟨id, ledger.map_id.symm, fun _ kept => ⟨kept, rfl⟩⟩
  cases books with
  | insert => cases stays
  | @pop found =>
    cases found with
    | none => exact nothing
    | some front => exact ⟨_, rfl, closes front.1⟩
  | @remove key => exact ⟨_, rfl, closes key⟩
  | @set key item =>
    refine ⟨_, rfl, fun line => ?_⟩
    unfold Line.amend
    split
    · exact fun kept => ⟨kept, rfl⟩
    · exact fun kept => ⟨kept, rfl⟩
  | clear =>
    refine ⟨_, rfl, fun line => ?_⟩
    unfold Line.drop
    split
    next open' => exact fun _ => ⟨open', rfl⟩
    next => exact fun kept => ⟨kept, rfl⟩
  | peek | peekKey | get | contains | size | isEmpty | reorder => exact nothing

/-- The turns are the numbers of the lines. -/
structure Dated (queue : PriorityQueue α compare) (ledger : List (Line α)) : Prop where
  turns : ∀ key item turn, queue.held? key = some (item, turn) →
    ledger[turn.toNat]? = some ⟨key, item, .kept⟩
  count : queue.nextTurn.toNat = ledger.length

namespace Dated

private theorem empty : Dated ({} : PriorityQueue α compare) [] where
  turns := by simp [held?_empty]
  count := rfl

private theorem inserted (dated : queue.Dated ledger) (inserted : Inserted queue item key after)
    (room : ledger.length + 1 < UInt64.size) : after.Dated (ledger ++ [⟨key, item, .kept⟩]) where
  turns := by
    intro other value turn held
    rw [inserted.held] at held
    split at held
    next same =>
      cases held
      simp [same, dated.count]
    next =>
      have listed := dated.turns other value turn held
      have inside := (List.getElem?_eq_some_iff.mp listed).1
      rw [List.getElem?_append_left inside, listed]
  count := by
    rw [inserted.turn, UInt64.toNat_add, dated.count, List.length_append]
    exact Nat.mod_eq_of_lt room

private theorem rearranged (dated : queue.Dated ledger) (sifted : Rearranged queue after) :
    after.Dated ledger where
  turns := by
    intro key item turn held
    rw [held?_of_shelves sifted.shelves] at held
    exact dated.turns key item turn held
  count := by rw [sifted.turn, dated.count]

private theorem perform (dated : queue.Dated ledger) (accounted : queue.Accounted ledger)
    (books : Books ledger request (queue.perform request).1 later)
    (accounted' : (queue.perform request).2.Accounted later)
    (room : later.length < UInt64.size) : (queue.perform request).2.Dated later := by
  cases inserts : request.inserts with
  | true =>
    cases request with
    | insert item =>
      cases books with
      | insert =>
        rw [List.length_append] at room
        exact dated.inserted (insert_inserts accounted.linked item) room
    | pop | remove key | set key item | peek | peekKey | get key | contains key | size | isEmpty
    | reorder | clear => cases inserts
  | false =>
    obtain ⟨next, turns⟩ := turns_perform accounted.linked inserts
    obtain ⟨change, rfl, closes⟩ := books.rewrites inserts
    refine ⟨fun key item turn held => ?_, by rw [next, dated.count, List.length_map]⟩
    obtain ⟨old, present⟩ := turns key item turn held
    have listed := dated.turns key old turn present
    -- The line that is open for the key now was the key's open line before.
    have open' : ⟨key, item, .kept⟩ ∈ ledger.map change := by
      rw [← accounted'.kept, get?_eq_held?, held]
      rfl
    obtain ⟨⟨other, value, fate⟩, member, same⟩ := List.mem_map.mp open'
    obtain ⟨kept, keys⟩ := closes ⟨other, value, fate⟩ (by rw [same])
    rw [same] at keys
    dsimp only at kept keys
    subst kept keys
    have found := (accounted.kept key value).mpr member
    rw [get?_eq_held?, present] at found
    cases found
    rw [List.getElem?_map, listed, Option.map_some, same]

theorem run (dated : queue.Dated ledger) (accounted : queue.Accounted ledger)
    (requests : List (Request α))
    (few : ledger.length + requests.countP Request.inserts < UInt64.size) :
    ∃ last, Booked ledger requests (queue.run requests).1 last ∧
      (queue.run requests).2.Accounted last ∧ (queue.run requests).2.Dated last := by
  induction requests generalizing queue ledger with
  | nil => exact ⟨ledger, .nil, accounted, dated⟩
  | cons request rest ih =>
    obtain ⟨next, now, accounted'⟩ := accounted.perform request
    have written := now.length
    rw [List.countP_cons] at few
    obtain ⟨last, later, kept⟩ := ih (dated.perform accounted now accounted' (by omega))
      accounted' (by omega)
    exact ⟨last, .cons now later, kept⟩

end Dated

namespace Line

/-- The items that are kept, numbered by their lines. -/
def collection (ledger : List (Line α)) : Collection α where
  entries := (ledger.zipIdx.filter (·.1.fate = .kept)).map fun (line, number) =>
    ⟨line.key, line.item, number⟩
  inserted := ledger.length

private theorem mem_collection_iff {entry : Entry α} :
    entry ∈ (collection ledger).entries ↔
      ledger[entry.number]? = some ⟨entry.key, entry.item, .kept⟩ := by
  simp only [collection, List.mem_map, List.mem_filter, decide_eq_true_eq, Prod.exists,
    List.mk_mem_zipIdx_iff_getElem?]
  constructor
  · rintro ⟨⟨key, item, fate⟩, number, ⟨listed, rfl⟩, rfl⟩
    exact listed
  · exact fun listed => ⟨_, _, ⟨listed, rfl⟩, rfl⟩

private theorem items_collection (ledger : List (Line α)) :
    (collection ledger).entries.map (·.item) = items ledger .kept := by
  rw [collection, items, List.map_map]
  conv => rhs; rw [← List.zipIdx_map_fst 0 ledger, List.filter_map, List.map_map]
  rfl

private theorem collection_sound (distinct : Distinct ledger) : (collection ledger).Sound where
  numbered := by
    simp only [collection, List.pairwise_map]
    apply List.Pairwise.filter
    have numbers : (ledger.zipIdx.map Prod.snd).Pairwise (· < ·) := by
      rw [List.zipIdx_map_snd]
      exact List.pairwise_lt_range'
    exact List.pairwise_map.mp numbers
  keyed := by
    simp only [collection, List.pairwise_map, List.pairwise_filter, decide_eq_true_eq]
    have keys : (ledger.zipIdx.map Prod.fst).Pairwise fun first second =>
        first.fate = .kept → second.fate = .kept → first.key ≠ second.key := by
      rw [List.zipIdx_map_fst]
      exact distinct
    exact List.pairwise_map.mp keys

end Line

/-- A queue in order with its books is the collection of the items that are kept. -/
private theorem Accounted.represents (accounted : queue.Accounted ledger)
    (dated : queue.Dated ledger)
    (ordered : queue.Ordered) : queue.Represents (Line.collection ledger) where
  linked := accounted.linked
  ordered := ordered
  sound := Line.collection_sound accounted.distinct
  held := by
    intro key item turn
    rw [Line.mem_collection_iff]
    constructor
    · exact dated.turns key item turn
    · intro listed
      have found := (accounted.kept key item).mpr (List.mem_of_getElem? listed)
      rw [get?_eq_held?] at found
      obtain ⟨⟨value, turn'⟩, held, same⟩ := Option.map_eq_some_iff.mp found
      cases same
      -- Two open lines of one key are one line, so they have one number.
      have listed' := dated.turns key value turn' held
      have entered : ⟨key, value, turn.toNat⟩ ∈ (Line.collection ledger).entries :=
        Line.mem_collection_iff.mpr listed
      have entered' : ⟨key, value, turn'.toNat⟩ ∈ (Line.collection ledger).entries :=
        Line.mem_collection_iff.mpr listed'
      have one := (Line.collection_sound accounted.distinct).eq_of_key entered entered' rfl
      rw [UInt64.toNat_inj.mp (congrArg Entry.number one), held]
  below := fun entry member =>
    (List.getElem?_eq_some_iff.mp (Line.mem_collection_iff.mp member)).1
  count := dated.count
  size := by
    rw [accounted.size, ← Line.items_collection, List.length_map]

/-- Whatever was requested, in whatever order the exchanged items left the heap, `reorder` leaves
no node above its parent, every key as it was, and a queue that drains the items that are kept,
sorted stably in the order of their insertions. It changes nothing in a heap that is in order. -/
theorem reorder_restores [Std.TransCmp compare] (requests : List (Request α))
    (few : requests.countP Request.inserts < UInt64.size) :
    ∃ replies queue ledger,
      ({} : PriorityQueue α compare).run requests = (replies, queue) ∧
      Booked [] requests replies ledger ∧
      (∀ key item, queue.get? key = some item ↔ ⟨key, item, .kept⟩ ∈ ledger) ∧
      queue.reorder.Intact ∧
      queue.reorder.Ordered ∧
      (∀ key, queue.reorder.get? key = queue.get? key ∧
        queue.reorder.contains key = queue.contains key) ∧
      queue.reorder.drain.1 =
        (Line.items ledger .kept).mergeSort (fun first second => (compare first second).isLE) ∧
      (queue.Ordered → queue.reorder = queue) ∧
      queue.reorder.reorder = queue.reorder := by
  obtain ⟨ledger, booked, accounted, dated⟩ :=
    (Dated.empty : Dated ({} : PriorityQueue α compare) []).run .empty requests (by simpa using few)
  have sifted := (({} : PriorityQueue α compare).run requests).2.reorder_rearranges
  have ordered := reorder_ordered accounted.linked
  have rearranged := accounted.rearranged sifted
  have represents := rearranged.represents (dated.rearranged sifted) ordered
  refine ⟨_, _, ledger, rfl, booked, accounted.kept,
    intact_of_linked rearranged.linked rearranged.sound, ordered, ?_, ?_, reorder_of_ordered,
    reorder_of_ordered ordered⟩
  · intro key
    have same := held?_of_shelves sifted.shelves key
    rw [get?_eq_held?, get?_eq_held?, contains_eq_held?, contains_eq_held?, same]
    exact ⟨rfl, rfl⟩
  · rw [represents.drain, represents.sound.items_inOrder, Line.items_collection]

/-- Two items are exchanged, one is removed and one put in before the order is restored: a node
that outranked the root then has its place, and equal items come out as they were put in. -/
theorem reorder_restores_exchanged :
    let key (index : Nat) : NodeKey := ⟨⟨index, 0⟩⟩
    let requests : List (Request (Nat × Nat)) :=
      [.insert (1, 0), .insert (2, 1), .insert (3, 2), .insert (4, 3), .set (key 0) (9, 0),
        .remove (key 1), .set (key 2) (4, 2), .insert (4, 4)]
    let queue := (({} : PriorityQueue (Nat × Nat) (compareOn Prod.fst)).run requests).2
    queue.outranks 2 0 = true ∧ queue.reorder.Ordered ∧
      queue.reorder.drain.1 = [(4, 2), (4, 3), (4, 4), (9, 0)] ∧
      queue.reorder.reorder = queue.reorder := by
  intro key requests queue
  have few : requests.countP Request.inserts < UInt64.size := by decide
  obtain ⟨_, reached, _, ran, _, _, _, ordered, _, _, _, again⟩ :=
    @reorder_restores _ (compareOn Prod.fst) inferInstance requests few
  have same : reached = queue := (congrArg Prod.snd ran).symm
  rw [same] at ordered again
  exact ⟨by decide +kernel, ordered, by decide +kernel, again⟩

end Timers.PriorityQueue
