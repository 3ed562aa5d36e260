import Timers.Proofs.CheckedQueue

/-! The books of a queue. An insertion writes a line, an item that is changed where it stands is
written over, and a line is closed when its item is taken out or dropped. Every reply agrees with
the lines that are open, so no item is lost and none is there twice. Nothing is asked of the
comparator or of the keys: with books that are right, the heap, its nodes and the arena are as
they should be, too. -/

namespace Timers.PriorityQueue

/-- What became of an item. -/
inductive Fate where
  | kept
  | taken
  | dropped
  deriving DecidableEq

/-- An item that was put in, as it was changed last. -/
structure Line (α : Type u) where
  key : NodeKey
  item : α
  fate : Fate

namespace Line

variable {α : Type u}

def take (line : Line α) : Line α := { line with fate := .taken }

def drop (line : Line α) : Line α :=
  if line.fate = .kept then { line with fate := .dropped } else line

/-- Changes the line of a key, if its item is kept. -/
def amend (key : NodeKey) (change : Line α → Line α) (line : Line α) : Line α :=
  if line.fate = .kept ∧ line.key = key then change line else line

/-- The items of one fate. -/
def items (ledger : List (Line α)) (fate : Fate) : List α :=
  (ledger.filter (·.fate = fate)).map (·.item)

end Line

/-- A line that may be at the front: there is none only if nothing is kept. -/
def Fronts {α : Type u} (ledger : List (Line α)) : Option (NodeKey × α) → Prop
  | some (key, item) => ⟨key, item, .kept⟩ ∈ ledger
  | none => ∀ line ∈ ledger, line.fate ≠ .kept

/-- The item that is kept under a key. -/
def Finds {α : Type u} (ledger : List (Line α)) (key : NodeKey) (found : Option α) : Prop :=
  ∀ item, found = some item ↔ ⟨key, item, .kept⟩ ∈ ledger

/-- A request is answered from the lines that are open, and this is what becomes of them. -/
inductive Books {α : Type u} (ledger : List (Line α)) : Request α → Reply α → List (Line α) → Prop
  | insert {key item} (fresh : ∀ line ∈ ledger, line.fate = .kept → line.key ≠ key) :
    Books ledger (.insert item) (.issued key) (ledger ++ [⟨key, item, .kept⟩])
  | pop {found} (fronts : Fronts ledger found) :
    Books ledger .pop (.item (found.map (·.2)))
      (found.elim ledger fun (key, _) => ledger.map (Line.amend key Line.take))
  | remove {key found} (finds : Finds ledger key found) :
    Books ledger (.remove key) (.removed (found.elim (.error .staleNode) .ok))
      (ledger.map (Line.amend key Line.take))
  | set {key item found} (finds : Finds ledger key found) :
    Books ledger (.set key item) (.truth found.isSome)
      (ledger.map (Line.amend key ({ · with item })))
  | peek {found} (fronts : Fronts ledger found) :
    Books ledger .peek (.item (found.map (·.2))) ledger
  | peekKey {found} (fronts : Fronts ledger found) :
    Books ledger .peekKey (.key (found.map (·.1))) ledger
  | get {key found} (finds : Finds ledger key found) : Books ledger (.get key) (.item found) ledger
  | contains {key found} (finds : Finds ledger key found) :
    Books ledger (.contains key) (.truth found.isSome) ledger
  | size : Books ledger .size (.count (Line.items ledger .kept).length) ledger
  | isEmpty : Books ledger .isEmpty (.truth (Line.items ledger .kept).isEmpty) ledger
  | reorder : Books ledger .reorder .done ledger
  | clear : Books ledger .clear .done (ledger.map Line.drop)

inductive Booked {α : Type u} :
    List (Line α) → List (Request α) → List (Reply α) → List (Line α) → Prop
  | nil {ledger} : Booked ledger [] [] ledger
  | cons {ledger request reply next rest replies last} (now : Books ledger request reply next)
    (later : Booked next rest replies last) :
    Booked ledger (request :: rest) (reply :: replies) last

/-- The item that a request takes out. -/
def obtained? {α : Type u} : Request α → Reply α → Option α
  | .pop, .item found => found
  | .remove _, .removed (.ok item) => some item
  | _, _ => none

def obtained {α : Type u} (requests : List (Request α)) (replies : List (Reply α)) : List α :=
  (requests.zip replies).filterMap fun (request, reply) => obtained? request reply

variable {α : Type u} {compare : α → α → Ordering} {queue after : PriorityQueue α compare}
  {ledger later : List (Line α)} {key other : NodeKey} {item value : α} {request : Request α}
  {reply : Reply α}

/-- No two items are kept under one key. -/
def Distinct (ledger : List (Line α)) : Prop :=
  ledger.Pairwise fun first second =>
    first.fate = .kept → second.fate = .kept → first.key ≠ second.key

/-- Lines may be closed, but neither opened again nor given another key. -/
private theorem Distinct.map (distinct : Distinct ledger) {change : Line α → Line α}
    (closes : ∀ line, (change line).fate = .kept → line.fate = .kept ∧ (change line).key = line.key) :
    Distinct (ledger.map change) := by
  apply List.pairwise_map.mpr
  apply distinct.imp
  intro first second apart open' open''
  obtain ⟨kept, same⟩ := closes first open'
  obtain ⟨kept', same'⟩ := closes second open''
  rw [same, same']
  exact apart kept kept'

private theorem mem_take_iff :
    (⟨other, item, .kept⟩ : Line α) ∈ ledger.map (Line.amend key Line.take) ↔
      other ≠ key ∧ ⟨other, item, .kept⟩ ∈ ledger := by
  simp only [List.mem_map, Line.amend, Line.take]
  constructor
  · rintro ⟨line, listed, same⟩
    split at same
    · cases same
    next apart =>
      subst same
      exact ⟨fun same => apart ⟨rfl, same⟩, listed⟩
  · rintro ⟨apart, listed⟩
    exact ⟨_, listed, by simp [apart]⟩

private theorem mem_write_iff :
    (⟨other, item, .kept⟩ : Line α) ∈ ledger.map (Line.amend key ({ · with item := value })) ↔
      if other = key then item = value ∧ ∃ old, ⟨key, old, .kept⟩ ∈ ledger
      else ⟨other, item, .kept⟩ ∈ ledger := by
  simp only [List.mem_map, Line.amend]
  constructor
  · rintro ⟨⟨first, old, fate⟩, listed, same⟩
    split at same
    next found =>
      obtain ⟨rfl, rfl⟩ := found
      cases same
      simpa using ⟨old, listed⟩
    next apart =>
      cases same
      have different : other ≠ key := fun same => apart ⟨rfl, same⟩
      simpa [different] using listed
  · intro found
    split at found
    next same =>
      obtain ⟨rfl, old, listed⟩ := found
      exact ⟨_, listed, by simp [same]⟩
    next apart => exact ⟨_, found, by simp [apart]⟩

private theorem mem_drop_iff : (⟨other, item, .kept⟩ : Line α) ∉ ledger.map Line.drop := by
  simp only [List.mem_map, Line.drop, not_exists, not_and]
  intro line _ same
  split at same
  · cases same
  next closed =>
    rw [same] at closed
    exact closed rfl

private theorem map_unchanged {change : Line α → Line α}
    (same : ∀ line ∈ ledger, change line = line) : ledger.map change = ledger :=
  (List.map_congr_left same).trans (List.map_id' ledger)

private theorem items_take (distinct : Distinct ledger) (listed : ⟨key, item, .kept⟩ ∈ ledger) :
    (Line.items (ledger.map (Line.amend key Line.take)) .taken).Perm
      (item :: Line.items ledger .taken) := by
  obtain ⟨front, back, rfl⟩ := List.append_of_mem listed
  obtain ⟨_, right, across⟩ := List.pairwise_append.mp distinct
  obtain ⟨behind, _⟩ := List.pairwise_cons.mp right
  have left : front.map (Line.amend key Line.take) = front := by
    apply map_unchanged
    intro line inside
    apply if_neg
    rintro ⟨kept, same⟩
    exact across line inside _ List.mem_cons_self kept rfl same
  have rest : back.map (Line.amend key Line.take) = back := by
    apply map_unchanged
    intro line inside
    apply if_neg
    rintro ⟨kept, same⟩
    exact behind line inside rfl kept same.symm
  have closed : Line.amend key Line.take ⟨key, item, .kept⟩ = ⟨key, item, .taken⟩ := by
    simp [Line.amend, Line.take]
  simp [Line.items, left, rest, closed, List.perm_middle]

private theorem amend_absent (absent : ∀ item, ⟨key, item, .kept⟩ ∉ ledger)
    (change : Line α → Line α) : ledger.map (Line.amend key change) = ledger := by
  apply map_unchanged
  rintro ⟨first, item, fate⟩ listed
  apply if_neg
  rintro ⟨rfl, rfl⟩
  exact absent item listed

private theorem items_map {change : Line α → Line α} {fate : Fate}
    (same : ∀ line, ((change line).fate = fate ↔ line.fate = fate) ∧
      (line.fate = fate → (change line).item = line.item)) :
    Line.items (ledger.map change) fate = Line.items ledger fate := by
  induction ledger with
  | nil => rfl
  | cons line rest ih =>
    obtain ⟨fates, equal⟩ := same line
    simp only [Line.items, List.map_cons, List.filter_cons, decide_eq_true_eq] at ih ⊢
    by_cases found : line.fate = fate
    · simp [fates.mpr found, found, equal found, ih]
    · simp [mt fates.mp found, found, ih]

namespace Books

theorem length (books : Books ledger request reply later) :
    later.length = ledger.length + if request.inserts then 1 else 0 := by
  cases books with
  | insert => simp [Request.inserts]
  | @pop found => cases found <;> simp [Request.inserts]
  | remove | set | clear => simp [Request.inserts]
  | peek | peekKey | get | contains | size | isEmpty | reorder => simp [Request.inserts]

private theorem taken (books : Books ledger request reply later) (distinct : Distinct ledger) :
    (Line.items later .taken).Perm ((obtained? request reply).toList ++ Line.items ledger .taken) := by
  cases books with
  | insert => simp [Line.items, obtained?]
  | @pop found fronts =>
    cases found with
    | none => exact .rfl
    | some front => exact items_take distinct fronts
  | @remove key found finds =>
    cases found with
    | none =>
      have absent : ∀ item, ⟨key, item, .kept⟩ ∉ ledger := by
        intro item listed
        cases (finds item).mpr listed
      rw [amend_absent absent]
      exact .rfl
    | some item => exact items_take distinct ((finds item).mp rfl)
  | set =>
    apply List.Perm.of_eq
    apply items_map
    intro line
    simp only [Line.amend]
    split
    next found => simp [found.1]
    next => simp
  | clear =>
    apply List.Perm.of_eq
    apply items_map
    intro line
    simp only [Line.drop]
    split
    next found => simp [found]
    next => simp
  | peek | peekKey | get | contains | size | isEmpty | reorder => exact .rfl

end Books

/-- The lines that are open are what the queue holds. -/
structure Accounted (queue : PriorityQueue α compare) (ledger : List (Line α)) : Prop where
  linked : queue.Linked
  sound : queue.nodes.Sound
  kept : ∀ key item, queue.get? key = some item ↔ ⟨key, item, .kept⟩ ∈ ledger
  distinct : Distinct ledger

namespace Accounted

theorem empty : Accounted ({} : PriorityQueue α compare) [] where
  linked := empty_linked
  sound := .empty
  kept := by simp [get?_eq_held?, held?_empty]
  distinct := .nil

private theorem finds (accounted : queue.Accounted ledger) (key : NodeKey) :
    Finds ledger key (queue.get? key) := accounted.kept key

private theorem contains (accounted : queue.Accounted ledger) (key : NodeKey) :
    Books ledger (.contains key) (.truth (queue.contains key)) ledger := by
  have same : queue.contains key = (queue.get? key).isSome := by
    rw [contains_eq_held?, get?_eq_held?, Option.isSome_map]
  rw [same]
  exact .contains (accounted.finds key)

private theorem keys (accounted : queue.Accounted ledger) (key : NodeKey)
    (held : queue.held? key = none) : ∀ line ∈ ledger, line.fate = .kept → line.key ≠ key := by
  rintro ⟨other, item, fate⟩ listed rfl rfl
  have found := (accounted.kept other item).mpr listed
  rw [get?_eq_held?, held] at found
  cases found

private theorem withdrawn (accounted : queue.Accounted ledger) (removed : Removed queue key after)
    (sound : after.nodes.Sound) : after.Accounted (ledger.map (Line.amend key Line.take)) where
  linked := removed.linked
  sound := sound
  kept := by
    intro other item
    apply Iff.trans _ mem_take_iff.symm
    rw [get?_eq_held?, removed.held, ← accounted.kept, get?_eq_held?]
    split
    next same => simp [same]
    next apart => simp [apart]
  distinct := by
    apply accounted.distinct.map
    intro line open'
    unfold Line.amend at open' ⊢
    split
    next found => simp [found, Line.take] at open'
    next apart =>
      rw [if_neg apart] at open'
      exact ⟨open', rfl⟩

private theorem inserted (accounted : queue.Accounted ledger)
    (inserted : Inserted queue item key after)
    (sound : after.nodes.Sound) : after.Accounted (ledger ++ [⟨key, item, .kept⟩]) where
  linked := inserted.linked
  sound := sound
  kept := by
    intro other value
    have apart := accounted.keys key inserted.fresh
    rw [get?_eq_held?, inserted.held, List.mem_append, ← accounted.kept, get?_eq_held?]
    by_cases same : other = key
    · subst same
      simp [inserted.fresh, eq_comm]
    · simp [same]
  distinct := by
    refine List.pairwise_append.mpr ⟨accounted.distinct, List.pairwise_singleton _ _, ?_⟩
    intro line listed last new kept _
    rw [List.mem_singleton.mp new]
    exact accounted.keys key inserted.fresh line listed kept

private theorem replaced (accounted : queue.Accounted ledger) (key : NodeKey) (item : α) :
    (queue.set key item).Accounted (ledger.map (Line.amend key ({ · with item }))) where
  linked := modify_linked accounted.linked key _
  sound := accounted.sound.modify _ _
  kept := by
    intro other value
    apply Iff.trans _ mem_write_iff.symm
    simp only [← accounted.kept]
    rw [get?_eq_held?, set, held?_modify]
    split
    next same =>
      subst same
      rw [get?_eq_held?]
      cases queue.held? other <;> simp [eq_comm]
    next => rw [get?_eq_held?]
  distinct := by
    apply accounted.distinct.map
    intro line open'
    unfold Line.amend at open' ⊢
    split
    next found => exact ⟨found.1, rfl⟩
    next apart =>
      rw [if_neg apart] at open'
      exact ⟨open', rfl⟩

private theorem cleared (accounted : queue.Accounted ledger) :
    queue.clear.Accounted (ledger.map Line.drop) where
  linked := clear_linked queue
  sound := accounted.sound.clear
  kept := by
    intro other item
    rw [get?_eq_held?, held?_clear]
    simp [-List.mem_map, mem_drop_iff]
  distinct := by
    apply accounted.distinct.map
    intro line open'
    unfold Line.drop at open' ⊢
    split
    next found => simp [found] at open'
    next closed =>
      rw [if_neg closed] at open'
      exact absurd open' closed

theorem rearranged (accounted : queue.Accounted ledger) (sifted : Rearranged queue after) :
    after.Accounted ledger where
  linked := sifted.links none accounted.linked
  sound := sound_of_shelves sifted.shelves accounted.sound
  kept := by
    intro key item
    rw [← accounted.kept, get?_eq_held?, get?_eq_held?, held?_of_shelves sifted.shelves]
  distinct := accounted.distinct

/-- What stands at the front is kept, and it is what a pop takes. -/
private theorem fronts (accounted : queue.Accounted ledger) :
    ∃ found, Fronts ledger found ∧ queue.peek? = found.map (·.2) ∧
      queue.peekKey? = found.map (·.1) ∧ queue.pop.1 = found.map (·.2) ∧
      queue.pop.2.Accounted
        (found.elim ledger fun (key, _) => ledger.map (Line.amend key Line.take)) := by
  rcases front?_cases accounted.linked with
    ⟨listed, front, peeked, nothing⟩ | ⟨key, node, listed, front, peeked, held⟩
  · rw [pop_of_empty listed]
    refine ⟨none, ?_, by simp [peek?, front], peeked, rfl, accounted⟩
    intro line listed kept
    exact accounted.keys line.key (nothing line.key) line listed kept rfl
  · obtain ⟨popped, removed⟩ := pop_removes accounted.linked listed held
    have found : queue.get? key = some node.item := by
      rw [get?_eq_held?, held]
      rfl
    exact ⟨some (key, node.item), (accounted.kept key node.item).mp found, by simp [peek?, front],
      peeked, popped, accounted.withdrawn removed (sound_pop accounted.sound)⟩

private theorem remove (accounted : queue.Accounted ledger) (key : NodeKey) :
    Books ledger (.remove key) (.removed (queue.remove key).1)
        (ledger.map (Line.amend key Line.take)) ∧
      (queue.remove key).2.Accounted (ledger.map (Line.amend key Line.take)) := by
  have finds := accounted.finds key
  rw [get?_eq_held?] at finds
  cases held : queue.held? key with
  | none =>
    rw [held] at finds
    have absent : ∀ item, ⟨key, item, .kept⟩ ∉ ledger := by
      intro item listed
      cases (finds item).mpr listed
    rw [remove_of_absent held]
    refine ⟨.remove finds, ?_⟩
    rw [amend_absent absent]
    exact accounted
  | some rank =>
    rw [held] at finds
    obtain ⟨result, removed⟩ := remove_removes accounted.linked held
    rw [result]
    exact ⟨.remove finds, accounted.withdrawn removed (sound_remove accounted.sound key)⟩

end Accounted

/-- The lines of the items in the order of the heap. -/
def lines (queue : PriorityQueue α compare) : List (Line α) :=
  queue.heap.toList.filterMap fun index =>
    (queue.nodes.entryAt? index).map fun (key, node) => ⟨⟨key⟩, node.item, .kept⟩

private theorem items_lines (queue : PriorityQueue α compare) :
    queue.lines.map (·.item) = queue.toList := by
  rw [lines, toList, List.map_filterMap, List.map_filterMap]
  apply List.filterMap_congr
  intro index _
  rw [Arena.getAt?]
  cases queue.nodes.entryAt? index <;> rfl

private theorem mem_lines_iff (linked : queue.Linked) {line : Line α} :
    line ∈ queue.lines ↔ line.fate = .kept ∧ queue.get? line.key = some line.item := by
  simp only [lines, List.mem_filterMap, Option.map_eq_some_iff, Prod.exists]
  constructor
  · rintro ⟨index, _, key, node, entry, rfl⟩
    have same : key.index = index := Arena.index_of_entryAt? entry
    have found : queue.nodes.get? key = some node := Arena.get?_eq_some_iff.mpr (same ▸ entry)
    exact ⟨rfl, by rw [PriorityQueue.get?, found]; rfl⟩
  · obtain ⟨⟨key⟩, item, fate⟩ := line
    rintro ⟨kept, found⟩
    obtain ⟨node, present, rfl⟩ := Option.map_eq_some_iff.mp found
    have listed := linked.listed (Arena.getAt?_of_get? present)
    have member : key.index ∈ queue.heap := Array.mem_of_getElem? listed
    refine ⟨key.index, by simpa using member, key, node, Arena.get?_eq_some_iff.mp present, ?_⟩
    rw [← kept]

private theorem lines_nodup (linked : queue.Linked) : queue.lines.Nodup := by
  rw [lines, List.Nodup, List.pairwise_filterMap]
  apply (heap_nodup linked).imp
  rintro first second apart line seen line' seen' rfl
  obtain ⟨⟨key, node⟩, entry, rfl⟩ := Option.map_eq_some_iff.mp seen
  obtain ⟨⟨other, node'⟩, entry', same⟩ := Option.map_eq_some_iff.mp seen'
  have keys : other = key := congrArg (·.key.key) same
  have index := Arena.index_of_entryAt? entry
  have index' := Arena.index_of_entryAt? entry'
  apply apart
  rw [← index, ← index', keys]

/-- The heap lists the occupied slots once each, and every node knows its place there. -/
structure Intact (queue : PriorityQueue α compare) : Prop where
  distinct : queue.heap.toList.Nodup
  listed : ∀ index, index ∈ queue.heap ↔ ∃ node, queue.nodes.getAt? index = some node
  placed : ∀ index node, queue.nodes.getAt? index = some node →
    queue.heap[node.position]? = some index
  count : queue.heap.size = queue.nodes.size
  whole : queue.toList.length = queue.size

theorem intact_of_linked (linked : queue.Linked) (sound : queue.nodes.Sound) : queue.Intact := by
  have listed : ∀ index, index ∈ queue.heap ↔ ∃ node, queue.nodes.getAt? index = some node := by
    intro index
    constructor
    · exact LinkedBut.backed linked index
    · rintro ⟨node, seen⟩
      exact Array.mem_of_getElem? (linked.listed seen)
  have slots : queue.heap.toList.Perm (queue.nodes.toList.map (·.1.index)) := by
    rw [Arena.toList_eq]
    apply (List.perm_ext_iff_of_nodup (heap_nodup linked) (List.nodup_range.filter _)).mpr
    intro index
    rw [Array.mem_toList_iff, listed, List.mem_filter, List.mem_range, Option.isSome_iff_exists]
    constructor
    · rintro ⟨node, seen⟩
      exact ⟨Arena.lt_size_of_getAt? seen, node, seen⟩
    · exact fun ⟨_, seen⟩ => seen
  refine ⟨heap_nodup linked, listed, fun index node seen => linked.listed seen, ?_, ?_⟩
  · have counted := slots.length_eq
    rw [List.length_map, sound.length_toList] at counted
    exact counted
  · exact length_toList linked

namespace Accounted

private theorem perm_lines (accounted : queue.Accounted ledger) :
    (ledger.filter (·.fate = .kept)).Perm queue.lines := by
  have distinct : (ledger.filter (·.fate = .kept)).Nodup := by
    apply List.pairwise_filter.mpr
    apply accounted.distinct.imp
    rintro first second apart kept kept' rfl
    exact apart (by simpa using kept) (by simpa using kept') rfl
  apply (List.perm_ext_iff_of_nodup distinct (lines_nodup accounted.linked)).mpr
  rintro ⟨key, item, fate⟩
  rw [mem_lines_iff accounted.linked, accounted.kept, List.mem_filter, decide_eq_true_eq]
  constructor
  · rintro ⟨listed, rfl⟩
    exact ⟨rfl, listed⟩
  · rintro ⟨rfl, listed⟩
    exact ⟨listed, rfl⟩

theorem perm_toList (accounted : queue.Accounted ledger) :
    (Line.items ledger .kept).Perm queue.toList := by
  rw [← items_lines]
  exact accounted.perm_lines.map _

theorem size (accounted : queue.Accounted ledger) :
    queue.size = (Line.items ledger .kept).length := by
  have intact := intact_of_linked accounted.linked accounted.sound
  rw [accounted.perm_toList.length_eq, intact.whole]

theorem perform (accounted : queue.Accounted ledger) (request : Request α) :
    ∃ later, Books ledger request (queue.perform request).1 later ∧
      (queue.perform request).2.Accounted later := by
  obtain ⟨found, fronts, peeked, keyed, popped, rest⟩ := accounted.fronts
  have kept := accounted.finds
  cases request with
  | insert item =>
    have inserted := insert_inserts accounted.linked item
    exact ⟨_, .insert (accounted.keys _ inserted.fresh),
      accounted.inserted inserted (sound_insert accounted.sound item)⟩
  | pop => exact ⟨_, by simpa only [PriorityQueue.perform, popped] using .pop fronts, rest⟩
  | remove key => exact ⟨_, accounted.remove key⟩
  | set key item =>
    refine ⟨_, ?_, accounted.replaced key item⟩
    rw [PriorityQueue.perform, contains_eq_held?, ← Option.isSome_map, ← get?_eq_held?]
    exact .set (kept key)
  | peek => exact ⟨ledger, by simpa only [PriorityQueue.perform, peeked] using .peek fronts, accounted⟩
  | peekKey =>
    exact ⟨ledger, by simpa only [PriorityQueue.perform, keyed] using .peekKey fronts, accounted⟩
  | get key => exact ⟨ledger, .get (kept key), accounted⟩
  | contains key => exact ⟨ledger, accounted.contains key, accounted⟩
  | size =>
    refine ⟨ledger, ?_, accounted⟩
    rw [PriorityQueue.perform, accounted.size]
    exact .size
  | isEmpty =>
    refine ⟨ledger, ?_, accounted⟩
    have size : queue.heap.size = (Line.items ledger .kept).length := accounted.size
    have same : queue.isEmpty = (Line.items ledger .kept).isEmpty := by
      rw [isEmpty, Array.isEmpty, size]
      cases Line.items ledger .kept <;> rfl
    rw [PriorityQueue.perform, same]
    exact .isEmpty
  | reorder => exact ⟨ledger, .reorder, accounted.rearranged queue.reorder_rearranges⟩
  | clear => exact ⟨_, .clear, accounted.cleared⟩

theorem run (accounted : queue.Accounted ledger) (requests : List (Request α)) :
    ∃ last, Booked ledger requests (queue.run requests).1 last ∧
      (queue.run requests).2.Accounted last ∧
      last.length = ledger.length + requests.countP Request.inserts ∧
      (Line.items last .taken).Perm
        (obtained requests (queue.run requests).1 ++ Line.items ledger .taken) := by
  induction requests generalizing queue ledger with
  | nil => exact ⟨ledger, .nil, accounted, rfl, .rfl⟩
  | cons request rest ih =>
    obtain ⟨next, now, accounted'⟩ := accounted.perform request
    obtain ⟨last, later, accounted'', written, taken⟩ := ih accounted'
    refine ⟨last, .cons now later, accounted'', ?_, ?_⟩
    · rw [written, now.length, List.countP_cons, Nat.add_assoc, Nat.add_comm (ite _ _ _)]
    · have first := now.taken accounted.distinct
      have split : obtained (request :: rest) (queue.run (request :: rest)).1 =
          (obtained? request (queue.perform request).1).toList ++
            obtained rest ((queue.perform request).2.run rest).1 := by
        simp only [obtained, PriorityQueue.run, List.zip_cons_cons, List.filterMap_cons]
        cases obtained? request (queue.perform request).1 <;> rfl
      rw [split, List.append_assoc]
      apply taken.trans
      apply (first.append_left _).trans
      exact List.perm_append_comm_assoc _ _ _

end Accounted

/-- With any comparator and any keys, no index is out of bounds, no loop goes on for ever, heap,
nodes and arena agree, and every item that was put in is in the queue, was obtained from it or
was dropped, as it was changed last. -/
theorem run_accounts_for_items (compare : α → α → Ordering) (requests : List (Request α)) :
    ∃ replies queue ledger,
      ({} : PriorityQueue α compare).run requests = (replies, queue) ∧
      ({} : PriorityQueue α compare).run? requests = some (replies, queue) ∧
      queue.Intact ∧
      Booked [] requests replies ledger ∧
      ledger.length = requests.countP Request.inserts ∧
      (∀ key item, queue.get? key = some item ↔ ⟨key, item, .kept⟩ ∈ ledger) ∧
      (Line.items ledger .kept).Perm queue.toList ∧
      (Line.items ledger .taken).Perm (obtained requests replies) := by
  obtain ⟨ledger, booked, accounted, written, taken⟩ :=
    (.empty : ({} : PriorityQueue α compare).Accounted []).run requests
  refine ⟨_, _, ledger, rfl, run?_eq empty_linked .empty requests,
    intact_of_linked accounted.linked accounted.sound, booked, ?_, accounted.kept,
    accounted.perm_toList, ?_⟩
  · simpa using written
  · simpa [Line.items] using taken

end Timers.PriorityQueue
