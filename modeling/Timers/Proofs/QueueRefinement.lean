import Timers.Proofs.Collection

/-! The queue refines the collection: along every sequence of requests it gives the replies
that the collection gives, once the keys that it issues are taken as the names of the
insertions. -/

namespace Timers.PriorityQueue

open Collection (Entry)

variable {α : Type u} {compare : α → α → Ordering} {queue before after : PriorityQueue α compare}
  {collection : Collection α} {entry : Entry α} {key : NodeKey} {item : α}

/-- The entries of the collection are what the keys of the queue hold. -/
structure Represents (queue : PriorityQueue α compare) (collection : Collection α) : Prop where
  linked : queue.Linked
  ordered : queue.Ordered
  sound : collection.Sound
  held : ∀ key item (turn : UInt64), queue.held? key = some (item, turn) ↔
    (⟨key, item, turn.toNat⟩ : Entry α) ∈ collection.entries
  below : ∀ entry ∈ collection.entries, entry.number < collection.inserted
  count : queue.nextTurn.toNat = collection.inserted
  size : queue.size = collection.entries.length

namespace Represents

private theorem empty : Represents ({} : PriorityQueue α compare) ({} : Collection α) where
  linked := empty_linked
  ordered := empty_ordered
  sound := ⟨.nil, .nil⟩
  held := by simp [held?_empty]
  below := by simp
  count := rfl
  size := rfl

private theorem held_of_mem (represents : queue.Represents collection)
    (member : entry ∈ collection.entries) :
    ∃ turn : UInt64, queue.held? entry.key = some (entry.item, turn) ∧
      turn.toNat = entry.number := by
  have bound : entry.number < 2 ^ 64 := by
    have inserted := represents.below entry member
    have fits := queue.nextTurn.toNat_lt
    rw [represents.count] at fits
    omega
  have number : (UInt64.ofNat entry.number).toNat = entry.number := UInt64.toNat_ofNat_of_lt bound
  refine ⟨.ofNat entry.number, ?_, number⟩
  rw [represents.held, number]
  exact member

private theorem find?_eq (represents : queue.Represents collection) (key : NodeKey) :
    collection.find? key =
      (queue.held? key).map fun (item, turn) => ⟨key, item, turn.toNat⟩ := by
  cases held : queue.held? key with
  | some rank =>
    exact represents.sound.find?_eq_some_iff.mpr ⟨(represents.held key _ _).mp held, rfl⟩
  | none =>
    cases found : collection.find? key with
    | none => rfl
    | some entry =>
      obtain ⟨member, rfl⟩ := represents.sound.find?_eq_some_iff.mp found
      obtain ⟨turn, present, _⟩ := represents.held_of_mem member
      rw [held] at present
      cases present

private theorem removed (represents : queue.Represents collection)
    (member : entry ∈ collection.entries) (removed : Removed queue entry.key after)
    (ordered : after.Ordered) : after.Represents (collection.without entry.key) where
  linked := removed.linked
  ordered := ordered
  sound := represents.sound.without entry.key
  held := by
    intro key item turn
    rw [removed.held, Collection.without, List.mem_filter, ← represents.held]
    by_cases same : key = entry.key <;> simp [same]
  below := fun other kept => represents.below other (List.mem_filter.mp kept).1
  count := by
    rw [removed.turn]
    exact represents.count
  size := by
    have perm := (represents.sound.perm_without member).length_eq
    have size := represents.size
    rw [← removed.size, ← perm, List.length_cons] at size
    omega

private theorem inserted [Std.TransCmp compare] (represents : queue.Represents collection)
    (room : collection.inserted + 1 < UInt64.size) (item : α) :
    (queue.insert item).2.Represents
      ⟨collection.entries ++ [⟨(queue.insert item).1, item, collection.inserted⟩],
        collection.inserted + 1⟩ := by
  have inserted := insert_inserts represents.linked item
  have absent : ∀ entry ∈ collection.entries, entry.key ≠ (queue.insert item).1 := by
    intro entry member
    obtain ⟨turn, present, _⟩ := represents.held_of_mem member
    exact inserted.apart present
  refine ⟨inserted.linked, insert_ordered represents.ordered represents.linked item, ⟨?_, ?_⟩,
    ?_, ?_, ?_, ?_⟩
  · refine List.pairwise_append.mpr ⟨represents.sound.numbered, List.pairwise_singleton _ _, ?_⟩
    intro entry member last same
    rw [List.mem_singleton.mp same]
    exact represents.below entry member
  · refine List.pairwise_append.mpr ⟨represents.sound.keyed, List.pairwise_singleton _ _, ?_⟩
    intro entry member last same
    rw [List.mem_singleton.mp same]
    exact absent entry member
  · intro key other turn
    rw [inserted.held, List.mem_append, List.mem_singleton, ← represents.held,
      ← represents.count]
    by_cases same : key = (queue.insert item).1
    · subst same
      simp [inserted.fresh, UInt64.toNat_inj, eq_comm]
    · simp [same]
  · intro entry member
    rcases List.mem_append.mp member with old | last
    · exact Nat.lt_succ_of_lt (represents.below entry old)
    · rw [List.mem_singleton.mp last]
      exact Nat.lt_succ_self _
  · rw [inserted.turn, UInt64.toNat_add, represents.count]
    exact Nat.mod_eq_of_lt room
  · rw [inserted.size, represents.size, List.length_append]
    rfl

private theorem cleared (represents : queue.Represents collection) :
    queue.clear.Represents { collection with entries := [] } where
  linked := clear_linked queue
  ordered := clear_ordered queue
  sound := ⟨.nil, .nil⟩
  held := by simp [held?_clear]
  below := by simp
  count := represents.count
  size := rfl

private theorem reordered [Std.TransCmp compare] (represents : queue.Represents collection) :
    queue.reorder.Represents collection := by
  have sifted := reorder_rearranges queue
  refine ⟨sifted.links none represents.linked, reorder_ordered represents.linked,
    represents.sound, ?_, represents.below, ?_, ?_⟩
  · intro key item turn
    rw [held?_of_shelves sifted.shelves]
    exact represents.held key item turn
  · rw [sifted.turn]
    exact represents.count
  · exact sifted.size.trans represents.size

private theorem precedes_of_rankOrder [Std.TransCmp compare] {first second : Entry α}
    {turn later : UInt64} (number : turn.toNat = first.number) (number' : later.toNat = second.number)
    (least : rankOrder compare (second.item, later) (first.item, turn) ≠ .lt) :
    Entry.precedes compare first second = true := by
  have unfolded : rankOrder compare (second.item, later) (first.item, turn) =
      (compare second.item first.item).then (Ord.compare later turn) := rfl
  have flipped : compare first.item second.item = (compare second.item first.item).swap :=
    Std.OrientedCmp.eq_swap
  rw [unfolded] at least
  rw [Entry.precedes, flipped, ← number, ← number']
  cases seen : compare second.item first.item with
  | lt => simp [seen] at least
  | gt => rfl
  | eq =>
    rw [seen, Ordering.eq_then, ne_eq, Std.compare_eq_lt, UInt64.lt_iff_toNat_lt] at least
    rw [Ordering.swap_eq, Ordering.eq_then, Nat.isLE_compare]
    omega

private theorem front_cases [Std.TransCmp compare] (represents : queue.Represents collection) :
    (queue.heap[0]? = none ∧ queue.front? = none ∧ queue.peekKey? = none ∧
      collection.entries = []) ∨
    ∃ node, ∃ entry ∈ collection.entries, queue.heap[0]? = some entry.key.key.index ∧
      queue.front? = some node ∧ queue.peekKey? = some entry.key ∧
      queue.held? entry.key = some node.rank ∧ node.item = entry.item ∧
      ∀ other ∈ collection.entries, Entry.precedes compare entry other = true := by
  rcases front?_cases represents.linked with ⟨listed, front, peeked, vacant⟩ | ⟨key, node, listed, front, peeked, held⟩
  · refine .inl ⟨listed, front, peeked, List.eq_nil_iff_forall_not_mem.mpr fun entry member => ?_⟩
    obtain ⟨turn, present, _⟩ := represents.held_of_mem member
    rw [vacant] at present
    cases present
  · refine .inr ⟨node, ⟨key, node.item, node.turn.toNat⟩, ?_, listed, front, peeked, held, rfl, ?_⟩
    · exact (represents.held key node.item node.turn).mp held
    · intro other member
      obtain ⟨turn, present, number⟩ := represents.held_of_mem member
      have least := front_foremost represents.ordered represents.linked front present
      exact precedes_of_rankOrder rfl number least

section Requests

variable [Std.TransCmp compare]

omit [Std.TransCmp compare] in
private theorem first?_of_nothing (nothing : collection.entries = []) :
    collection.first? compare = none := by
  simp [Collection.first?, Collection.inOrder, nothing]

private theorem pop (represents : queue.Represents collection) (names : Nat → NodeKey) :
    (queue.perform .pop).1 = (collection.perform compare names .pop).1 ∧
      (queue.perform .pop).2.Represents (collection.perform compare names .pop).2 := by
  rcases represents.front_cases with ⟨listed, _, _, nothing⟩ | ⟨node, entry, member, listed, _, _, held, same, least⟩
  · simp only [PriorityQueue.perform, Collection.perform, pop_of_empty listed,
      first?_of_nothing nothing]
    exact ⟨trivial, represents⟩
  · obtain ⟨popped, removed⟩ := pop_removes represents.linked listed held
    have ordered := pop_ordered represents.ordered represents.linked
    simp only [PriorityQueue.perform, Collection.perform, represents.sound.first?_eq member least]
    refine ⟨?_, represents.removed member removed ordered⟩
    rw [popped, ← same]
    rfl

private theorem remove (represents : queue.Represents collection) (names : Nat → NodeKey)
    (key : NodeKey) :
    (queue.perform (.remove key)).1 = (collection.perform compare names (.remove key)).1 ∧
      (queue.perform (.remove key)).2.Represents
        (collection.perform compare names (.remove key)).2 := by
  simp only [PriorityQueue.perform, Collection.perform, represents.find?_eq]
  cases held : queue.held? key with
  | none =>
    simp only [Option.map_none, remove_of_absent held]
    exact ⟨trivial, represents⟩
  | some rank =>
    obtain ⟨taken, removed⟩ := remove_removes represents.linked held
    have ordered := remove_ordered represents.ordered represents.linked key
    have member := (represents.held key rank.1 rank.2).mp held
    refine ⟨?_, represents.removed member removed ordered⟩
    rw [taken]
    rfl

private theorem peek?_eq (represents : queue.Represents collection) :
    queue.peek? = (collection.first? compare).map (·.item) ∧
      queue.peekKey? = (collection.first? compare).map (·.key) := by
  rcases represents.front_cases with ⟨_, front, peeked, nothing⟩ | ⟨node, entry, member, _, front, peeked, _, same, least⟩
  · rw [first?_of_nothing nothing, peek?, front, peeked]
    exact ⟨rfl, rfl⟩
  · rw [represents.sound.first?_eq member least, peek?, front, peeked]
    exact ⟨congrArg some same, rfl⟩

theorem perform (represents : queue.Represents collection) {names : Nat → NodeKey}
    {request : Request α} (stays : request.exchanges = false)
    (room : request.inserts = true → collection.inserted + 1 < UInt64.size)
    (named : ∀ item, request = .insert item → names collection.inserted = (queue.insert item).1) :
    (queue.perform request).1 = (collection.perform compare names request).1 ∧
      (queue.perform request).2.Represents (collection.perform compare names request).2 := by
  cases request with
  | insert item =>
    simp only [PriorityQueue.perform, Collection.perform, named item rfl]
    exact ⟨trivial, represents.inserted (room rfl) item⟩
  | pop => exact represents.pop names
  | remove key => exact represents.remove names key
  | set key item => cases stays
  | peek =>
    simp only [PriorityQueue.perform, Collection.perform, represents.peek?_eq.1]
    exact ⟨trivial, represents⟩
  | peekKey =>
    simp only [PriorityQueue.perform, Collection.perform, represents.peek?_eq.2]
    exact ⟨trivial, represents⟩
  | get key =>
    simp only [PriorityQueue.perform, Collection.perform, represents.find?_eq, get?_eq_held?,
      Option.map_map]
    exact ⟨rfl, represents⟩
  | contains key =>
    simp only [PriorityQueue.perform, Collection.perform, represents.find?_eq, contains_eq_held?,
      Option.isSome_map]
    exact ⟨trivial, represents⟩
  | size =>
    simp only [PriorityQueue.perform, Collection.perform, represents.size]
    exact ⟨trivial, represents⟩
  | isEmpty =>
    have empty : queue.isEmpty = collection.entries.isEmpty := by
      have size := represents.size
      rw [Bool.eq_iff_iff, List.isEmpty_iff, ← List.length_eq_zero_iff, ← size]
      simp [isEmpty, PriorityQueue.size]
    simp only [PriorityQueue.perform, Collection.perform, empty]
    exact ⟨trivial, represents⟩
  | reorder => exact ⟨rfl, represents.reordered⟩
  | clear => exact ⟨rfl, represents.cleared⟩

/-- What is drained comes out in the order of the collection. -/
theorem drain (represents : queue.Represents collection) :
    queue.drain.1 = (collection.inOrder compare).map (·.item) := by
  fun_induction PriorityQueue.drain queue generalizing collection with
  | case1 queue rest popped =>
    rcases represents.front_cases with ⟨_, _, _, nothing⟩ | ⟨node, entry, member, listed, _, _, held, same, least⟩
    · simp [Collection.inOrder, nothing]
    · have taken := (pop_removes represents.linked listed held).1
      rw [popped] at taken
      cases taken
  | case2 queue item rest popped smaller items last drained ih =>
    rcases represents.front_cases with ⟨listed, _, _, _⟩ | ⟨node, entry, member, listed, _, _, held, same, least⟩
    · rw [pop_of_empty listed] at popped
      cases popped
    · obtain ⟨taken, removed⟩ := pop_removes represents.linked listed held
      have ordered := pop_ordered represents.ordered represents.linked
      rw [popped] at taken removed ordered
      have later := ih (represents.removed member removed ordered)
      rw [represents.sound.inOrder_eq member least, List.map_cons, ← later, drained, ← same]
      exact congrArg (· :: items) (Option.some.inj taken)

end Requests

end Represents

def Reply.issued? : Reply α → Option NodeKey
  | .issued key => some key
  | _ => none

/-- The keys that are issued in a run, in the order of the insertions. -/
def issued (queue : PriorityQueue α compare) (requests : List (Request α)) : List NodeKey :=
  (queue.run requests).1.filterMap Reply.issued?

/-- Every one of the keys holds something still, or its slot has gone on. -/
def Accounts (queue : PriorityQueue α compare) (keys : List NodeKey) : Prop :=
  ∀ key ∈ keys, (∃ rank, queue.held? key = some rank) ∨ queue.nodes.Outdated key.key

theorem modify_linked (linked : queue.Linked) (key : NodeKey) (change : α → α) :
    (queue.modify key change).Linked := by
  simp only [modify, Arena.modify]
  split
  next =>
    intro position index
    rw [linked position index, Arena.getAt?_modifyAt]
    refine and_congr_right fun _ => ?_
    split
    · cases queue.nodes.getAt? index <;> simp
    · rfl
  next => exact linked

theorem held?_modify (queue : PriorityQueue α compare) (key other : NodeKey) (change : α → α) :
    (queue.modify key change).held? other =
      if other = key then (queue.held? other).map fun (item, turn) => (change item, turn)
      else queue.held? other := by
  obtain ⟨key⟩ := key
  obtain ⟨other⟩ := other
  simp only [held?, modify, Arena.get?_modify, NodeKey.mk.injEq]
  split
  · cases queue.nodes.get? other <;> rfl
  · rfl

/-- What a request does to the keys: it keeps the queue linked, and a key that held
something holds something still unless its slot goes on. -/
structure Moves (before after : PriorityQueue α compare) : Prop where
  linked : after.Linked
  keys : ∀ key rank, before.held? key = some rank → (∃ rank, after.held? key = some rank) ∨
    after.nodes.generationAt key.key.index = before.nodes.generationAt key.key.index + 1

private theorem Removed.moves (removed : Removed before key after) : Moves before after where
  linked := removed.linked
  keys := by
    intro other rank held
    by_cases same : other = key
    · exact .inr (by rw [removed.generations, same, if_pos rfl])
    · exact .inl ⟨rank, by rw [removed.held, if_neg same, held]⟩

private theorem Inserted.moves (inserted : Inserted before item key after) :
    Moves before after where
  linked := inserted.linked
  keys := by
    intro other rank held
    by_cases same : other = key
    · exact .inl ⟨_, by rw [inserted.held, if_pos same]⟩
    · exact .inl ⟨rank, by rw [inserted.held, if_neg same, held]⟩

private theorem Rearranged.moves (sifted : Rearranged before after) (linked : before.Linked) :
    Moves before after where
  linked := sifted.links none linked
  keys := fun key rank held => .inl ⟨rank, by rw [held?_of_shelves sifted.shelves, held]⟩

theorem perform_moves (linked : queue.Linked) (request : Request α) :
    Moves queue (queue.perform request).2 := by
  have stays : Moves queue queue := (Rearranged.refl queue).moves linked
  cases request with
  | insert item => exact (insert_inserts linked item).moves
  | pop =>
    rcases front?_cases linked with ⟨listed, _⟩ | ⟨key, node, listed, _, _, held⟩
    · simpa only [perform, pop_of_empty listed] using stays
    · exact (pop_removes linked listed held).2.moves
  | remove key =>
    cases held : queue.held? key with
    | none => simpa only [perform, remove_of_absent held] using stays
    | some rank => exact (remove_removes linked held).2.moves
  | set key item =>
    refine ⟨modify_linked linked key _, fun other rank held => .inl ?_⟩
    simp only [perform, set, held?_modify]
    split
    · exact ⟨_, by rw [held]; rfl⟩
    · exact ⟨rank, held⟩
  | reorder => exact (reorder_rearranges queue).moves linked
  | clear =>
    refine ⟨clear_linked queue, fun key rank held => .inr ?_⟩
    obtain ⟨node, found, _⟩ := held?_eq_some_iff.mp held
    simp [perform, clear, Arena.generationAt_clear, Arena.getAt?_of_get? found]
  | peek | peekKey | get key | contains key | size | isEmpty => exact stays

private theorem Accounts.keep {keys : List NodeKey} (accounts : before.Accounts keys)
    (moves : Moves before after) (unwrapped : before.nodes.Unwrapped after.nodes) :
    after.Accounts keys := by
  intro key listed
  rcases accounts key listed with ⟨rank, held⟩ | outdated
  · rcases moves.keys key rank held with kept | moved
    · exact .inl kept
    · obtain ⟨node, found, _⟩ := held?_eq_some_iff.mp held
      exact .inr (Arena.outdated_of_vacated found moved (unwrapped _))
  · exact .inr (outdated.keep (unwrapped _))

private theorem Accounts.fresh {keys : List NodeKey} (accounts : before.Accounts keys)
    (inserted : Inserted before item key after) : key ∉ keys := by
  intro listed
  rcases accounts key listed with ⟨rank, held⟩ | outdated
  · rw [inserted.fresh] at held
    cases held
  · unfold Arena.Outdated at outdated
    rw [inserted.issued] at outdated
    exact absurd outdated (UInt32.lt_irrefl _)

private theorem issued_cons (queue : PriorityQueue α compare) (request : Request α)
    (rest : List (Request α)) :
    queue.issued (request :: rest) =
      (queue.perform request).1.issued?.toList ++ (queue.perform request).2.issued rest := by
  have split : (queue.run (request :: rest)).1 =
      (queue.perform request).1 :: ((queue.perform request).2.run rest).1 := rfl
  rw [issued, split, List.filterMap_cons]
  cases (queue.perform request).1.issued? <;> rfl

private theorem issued?_cases (queue : PriorityQueue α compare) (request : Request α) :
    (request.inserts = false ∧ (queue.perform request).1.issued? = none) ∨
      ∃ item, request = .insert item ∧
        (queue.perform request).1.issued? = some (queue.insert item).1 := by
  cases request with
  | insert item => exact .inr ⟨item, rfl, rfl⟩
  | pop | remove key | set key item | peek | peekKey | get key | contains key | size | isEmpty
  | reorder | clear => exact .inl ⟨rfl, rfl⟩

theorem issued_nodup {keys : List NodeKey} {requests : List (Request α)} (linked : queue.Linked)
    (accounts : queue.Accounts keys) (distinct : keys.Nodup)
    (unwrapped : queue.Unwrapped requests) : (keys ++ queue.issued requests).Nodup := by
  induction requests generalizing queue keys with
  | nil => simpa [issued, run] using distinct
  | cons request rest ih =>
    obtain ⟨unwrapped, later⟩ := unwrapped
    have moves := perform_moves linked request
    have kept := accounts.keep moves unwrapped
    rw [issued_cons, ← List.append_assoc]
    rcases queue.issued?_cases request with ⟨_, nothing⟩ | ⟨item, rfl, issued⟩
    · rw [nothing, Option.toList_none, List.append_nil]
      exact ih moves.linked kept distinct later
    · have inserted := insert_inserts linked item
      rw [issued, Option.toList_some]
      refine ih moves.linked ?_ ?_ later
      · intro key listed
        rcases List.mem_append.mp listed with old | new
        · exact kept key old
        · rw [List.mem_singleton.mp new]
          exact .inl ⟨_, by rw [perform, inserted.held, if_pos rfl]⟩
      · refine List.nodup_append.mpr ⟨distinct, by simp, ?_⟩
        intro key old new last same
        rw [same, List.mem_singleton.mp last] at old
        exact accounts.fresh inserted old

private theorem length_issued (queue : PriorityQueue α compare) (requests : List (Request α)) :
    (queue.issued requests).length = requests.countP Request.inserts := by
  induction requests generalizing queue with
  | nil => rfl
  | cons request rest ih =>
    rw [issued_cons, List.length_append, ih, List.countP_cons]
    rcases queue.issued?_cases request with ⟨other, nothing⟩ | ⟨item, rfl, issued⟩
    · simp [other, nothing]
    · simp [Request.inserts, issued, Nat.add_comm]

private theorem generationAt_perform (linked : queue.Linked) (request : Request α) (index : Nat) :
    (queue.perform request).2.nodes.generationAt index = queue.nodes.generationAt index ∨
      (queue.perform request).2.nodes.generationAt index =
        queue.nodes.generationAt index + 1 := by
  have removal : ∀ {key : NodeKey} {after : PriorityQueue α compare}, Removed queue key after →
      after.nodes.generationAt index = queue.nodes.generationAt index ∨
        after.nodes.generationAt index = queue.nodes.generationAt index + 1 := by
    intro key after removed
    rw [removed.generations]
    split
    · exact .inr rfl
    · exact .inl rfl
  cases request with
  | insert item => exact .inl ((insert_inserts linked item).generations index)
  | pop =>
    rcases front?_cases linked with ⟨listed, _⟩ | ⟨key, node, listed, _, _, held⟩
    · exact .inl (by rw [perform, pop_of_empty listed])
    · exact removal (pop_removes linked listed held).2
  | remove key =>
    cases held : queue.held? key with
    | none => exact .inl (by rw [perform, remove_of_absent held])
    | some rank => exact removal (remove_removes linked held).2
  | set key item => exact .inl (Arena.generationAt_modify _ _ _ index)
  | reorder => exact .inl (generationAt_of_shelves (reorder_rearranges queue).shelves index)
  | clear =>
    simp only [perform, clear, Arena.generationAt_clear]
    split
    · exact .inr rfl
    · exact .inl rfl
  | peek | peekKey | get key | contains key | size | isEmpty => exact .inl rfl

private theorem unwrapped_of_room {requests : List (Request α)} (linked : queue.Linked)
    (room : ∀ index, (queue.nodes.generationAt index).toNat + requests.length < UInt32.size) :
    queue.Unwrapped requests := by
  induction requests generalizing queue with
  | nil => trivial
  | cons request rest ih =>
    have moves := perform_moves linked request
    obtain ⟨unwrapped, grown⟩ := Arena.unwrapped_of_step (generationAt_perform linked request)
      fun index => by
        have bound := room index
        rw [List.length_cons] at bound
        omega
    refine ⟨unwrapped, ih moves.linked fun index => ?_⟩
    have bound := room index
    have reached := grown index
    rw [List.length_cons] at bound
    omega

private theorem unwrapped_of_short {requests : List (Request α)}
    (short : requests.length < UInt32.size) : ({} : PriorityQueue α compare).Unwrapped requests :=
  unwrapped_of_room empty_linked fun index => by
    simpa [Arena.generationAt] using short

section Runs

variable [Std.TransCmp compare] {names : Nat → NodeKey} {requests : List (Request α)}

omit [Std.TransCmp compare] in
private theorem inserted_perform (collection : Collection α) (request : Request α) :
    (collection.perform compare names request).2.inserted =
      collection.inserted + if request.inserts then 1 else 0 := by
  cases request with
  | pop =>
    simp only [Collection.perform]
    split <;> rfl
  | remove key =>
    simp only [Collection.perform]
    split <;> rfl
  | insert item | set key item | peek | peekKey | get key | contains key | size | isEmpty
  | reorder | clear => rfl

theorem Represents.run (represents : queue.Represents collection)
    (stays : ∀ request ∈ requests, request.exchanges = false)
    (few : collection.inserted + requests.countP Request.inserts < UInt64.size)
    (named : ∀ number key, (queue.issued requests)[number]? = some key →
      names (collection.inserted + number) = key) :
    (queue.run requests).1 = (collection.run compare names requests).1 ∧
      (queue.run requests).2.Represents (collection.run compare names requests).2 := by
  induction requests generalizing queue collection with
  | nil => exact ⟨rfl, represents⟩
  | cons request rest ih =>
    obtain ⟨first, stays⟩ := List.forall_mem_cons.mp stays
    have counted : (collection.perform compare names request).2.inserted =
        collection.inserted + if request.inserts then 1 else 0 := inserted_perform collection request
    rw [issued_cons] at named
    rw [List.countP_cons] at few
    have room : request.inserts = true → collection.inserted + 1 < UInt64.size := by
      intro inserts
      simp only [inserts, if_true] at few
      omega
    have step : ∀ item, request = .insert item →
        names collection.inserted = (queue.insert item).1 := by
      intro item same
      subst same
      exact named 0 _ rfl
    obtain ⟨reply, next⟩ := represents.perform first room step
    have onward : ∀ number key, ((queue.perform request).2.issued rest)[number]? = some key →
        names ((collection.perform compare names request).2.inserted + number) = key := by
      intro number key listed
      rcases queue.issued?_cases request with ⟨other, nothing⟩ | ⟨item, rfl, issued⟩
      · rw [nothing] at named
        simpa [counted, other] using named number key listed
      · rw [issued] at named
        have later := named (number + 1) key (by simpa using listed)
        rw [← later, counted]
        congr 1
        simp only [Request.inserts, if_true]
        omega
    obtain ⟨replies, last⟩ := ih next stays (by rw [counted]; omega) onward
    exact ⟨congr (congrArg List.cons reply) replies, last⟩

private theorem names_of_nodup {keys : List NodeKey} (distinct : keys.Nodup) :
    ∃ names : Nat → NodeKey,
      (∀ first second, first < keys.length → second < keys.length →
        names first = names second → first = second) ∧
      ∀ number key, keys[number]? = some key → names (0 + number) = key := by
  refine ⟨fun number => keys.getD number ⟨⟨0, 0⟩⟩, ?_, ?_⟩
  · exact fun first second left right same => (List.getD_inj left right distinct).mp same
  · intro number key listed
    simp only [Nat.zero_add, List.getD_eq_getElem?_getD, listed, Option.getD_some]

/-- From the empty queue on, and whatever is requested, the replies are those of the collection
and what is left drains in its order, which sorts the items stably. The names of the insertions
are the keys that were issued, one for each. -/
theorem run_refines_collection (stays : ∀ request ∈ requests, request.exchanges = false)
    (few : requests.countP Request.inserts < UInt64.size)
    (unwrapped : ({} : PriorityQueue α compare).Unwrapped requests) :
    ∃ names : Nat → NodeKey,
      (∀ first second, first < requests.countP Request.inserts →
        second < requests.countP Request.inserts → names first = names second → first = second) ∧
      (({} : PriorityQueue α compare).run requests).1 =
        (({} : Collection α).run compare names requests).1 ∧
      (({} : PriorityQueue α compare).run requests).2.drain.1 =
        ((({} : Collection α).run compare names requests).2.entries.map (·.item)).mergeSort
          fun first second => (compare first second).isLE := by
  have accounts : ({} : PriorityQueue α compare).Accounts [] := by simp [Accounts]
  have distinct := issued_nodup empty_linked accounts .nil unwrapped
  obtain ⟨names, apart, named⟩ := names_of_nodup distinct
  obtain ⟨replies, last⟩ := Represents.empty.run stays (by simpa using few) named
  rw [List.nil_append, length_issued] at apart
  exact ⟨names, apart, replies, by rw [last.drain, last.sound.items_inOrder]⟩

/-- Of two equal items the one that was inserted first comes out first. -/
theorem run_refines_collection_ties :
    (({} : PriorityQueue (Nat × Nat) (compareOn Prod.fst)).run
      [.insert (5, 0), .insert (3, 1), .insert (5, 2)]).2.drain.1 = [(3, 1), (5, 0), (5, 2)] := by
  let requests : List (Request (Nat × Nat)) := [.insert (5, 0), .insert (3, 1), .insert (5, 2)]
  have stays : ∀ request ∈ requests, request.exchanges = false := by
    simp [requests, Request.exchanges]
  have unwrapped : ({} : PriorityQueue (Nat × Nat) (compareOn Prod.fst)).Unwrapped requests :=
    unwrapped_of_short (by decide)
  obtain ⟨names, _, _, drained⟩ := run_refines_collection stays (by decide) unwrapped
  rw [drained]
  simp [requests, Collection.run, Collection.perform, List.mergeSort, compareOn,
    Nat.isLE_compare]

end Runs

end Timers.PriorityQueue
