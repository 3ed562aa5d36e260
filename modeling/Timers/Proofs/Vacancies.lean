import Mathlib.Data.List.Nodup
import Mathlib.Data.List.Perm.Subperm
import Timers.Proofs.ArenaKeys

/-! The vacant slots of an arena. The links through them make a list: it begins at the head,
names every vacant slot once and no occupied one, and ends. A value that is put in takes the
first of them and a slot that is vacated becomes the first, so the list is a stack; the arena
grows only when it is empty. What is not on the list is occupied, and that is what the arena
counts. -/

namespace Timers.Arena

variable {α : Type u} {arena : Arena α} {free : List Nat} {index : Nat} {key : Key}

/-- From a slot on, the links lead through these vacant slots and then end. -/
def Chain (slots : Array (Slot α)) : Option Nat → List Nat → Prop
  | head, [] => head = none
  | head, index :: rest => head = some index ∧
    ∃ generation next, slots[index]? = some ⟨generation, .vacant next⟩ ∧ Chain slots next rest

private theorem Chain.congr {slots later : Array (Slot α)} {head : Option Nat}
    (chain : Chain slots head free)
    (same : ∀ index ∈ free, later[index]? = slots[index]?) : Chain later head free := by
  induction free generalizing head with
  | nil => exact chain
  | cons index rest ih =>
    obtain ⟨begins, generation, next, held, chain⟩ := chain
    obtain ⟨now, others⟩ := List.forall_mem_cons.mp same
    exact ⟨begins, generation, next, now.trans held, ih chain others⟩

theorem Chain.slot_of_mem {slots : Array (Slot α)} {head : Option Nat} (chain : Chain slots head free)
    (listed : index ∈ free) :
    ∃ generation next, slots[index]? = some ⟨generation, .vacant next⟩ := by
  induction free generalizing head with
  | nil => cases listed
  | cons first rest ih =>
    obtain ⟨_, generation, next, held, chain⟩ := chain
    rcases List.mem_cons.mp listed with rfl | later
    · exact ⟨generation, next, held⟩
    · exact ih chain later

/-- These are the vacant slots, in the order in which they are used again. All others are
occupied, and their number is known. -/
structure Vacant (arena : Arena α) (free : List Nat) : Prop where
  chain : Chain arena.slots arena.freeHead free
  distinct : free.Nodup
  listed : ∀ index, index ∈ free ↔ index < arena.slots.size ∧ arena.getAt? index = none
  size : arena.size + free.length = arena.slots.size

/-- The vacant slots are on the list. -/
def Sound (arena : Arena α) : Prop := ∃ free, arena.Vacant free

theorem slot_of_getAt? {value : α} (seen : arena.getAt? index = some value) :
    ∃ generation, arena.slots[index]? = some ⟨generation, .occupied value⟩ := by
  obtain ⟨key, entry⟩ := getAt?_eq_some_iff.mp seen
  unfold entryAt? at entry
  split at entry
  next generation held found =>
    cases entry
    exact ⟨generation, found⟩
  next => cases entry

theorem lt_size_of_getAt? {value : α} (seen : arena.getAt? index = some value) :
    index < arena.slots.size := by
  obtain ⟨key, entry⟩ := getAt?_eq_some_iff.mp seen
  exact lt_size_of_entryAt? entry

theorem removeAt_of_absent (absent : arena.getAt? index = none) :
    arena.removeAt index = (none, arena) := by
  unfold removeAt
  split
  next held => simp [getAt?, entryAt?, held] at absent
  next => rfl

namespace Vacant

theorem empty : ({} : Arena α).Vacant [] where
  chain := rfl
  distinct := .nil
  listed := by simp
  size := rfl

theorem vacancy? (vacant : arena.Vacant free) : arena.vacancy?.map (·.1) = arena.freeHead := by
  cases free with
  | nil =>
    have ends : arena.freeHead = none := vacant.chain
    simp [Arena.vacancy?, ends]
  | cons index rest =>
    obtain ⟨begins, generation, next, held, _⟩ := vacant.chain
    simp [Arena.vacancy?, begins, held]

theorem insert (vacant : arena.Vacant free) (value : α) :
    (arena.insert value).2.Vacant free.tail := by
  have taken := arena.getAt?_insert value
  cases free with
  | nil =>
    have ends : arena.freeHead = none := vacant.chain
    have full : arena.insert value = (⟨arena.slots.size, 0⟩,
        { arena with slots := arena.slots.push ⟨0, .occupied value⟩, size := arena.size + 1 }) := by
      simp [Arena.insert, Arena.vacancy?, ends]
    have size := vacant.size
    rw [full] at taken ⊢
    refine ⟨ends, .nil, ?_, ?_⟩
    · intro index
      have listed := vacant.listed index
      rw [taken]
      simp only [List.tail_nil, List.not_mem_nil, false_iff, not_and, Array.size_push] at listed ⊢
      intro inside absent
      split at absent
      · cases absent
      next apart => exact listed (by omega) absent
    · simp only [List.tail_nil, List.length_nil, Array.size_push] at size ⊢
      omega
  | cons index rest =>
    obtain ⟨begins, generation, next, held, chain⟩ := vacant.chain
    obtain ⟨absent, distinct⟩ := List.nodup_cons.mp vacant.distinct
    have reused : arena.insert value = (⟨index, generation⟩,
        { slots := arena.slots.setIfInBounds index ⟨generation, .occupied value⟩
          freeHead := next
          size := arena.size + 1 }) := by
      simp [Arena.insert, Arena.vacancy?, begins, held]
    have size := vacant.size
    rw [reused] at taken ⊢
    refine ⟨?_, distinct, ?_, ?_⟩
    · apply chain.congr
      intro other listed
      apply Array.getElem?_setIfInBounds_ne
      rintro rfl
      exact absent listed
    · intro other
      have listed := vacant.listed other
      rw [taken, Array.size_setIfInBounds]
      by_cases same : other = index
      · subst same
        simp [absent]
      · simpa [same] using listed
    · simp only [List.tail_cons, List.length_cons, Array.size_setIfInBounds] at size ⊢
      omega

theorem removeAt (vacant : arena.Vacant free) {value : α} (seen : arena.getAt? index = some value) :
    (arena.removeAt index).2.Vacant (index :: free) := by
  obtain ⟨generation, held⟩ := slot_of_getAt? seen
  have inside := lt_size_of_getAt? seen
  have left := arena.getAt?_removeAt index
  have removed : arena.removeAt index = (some value,
      { slots := arena.slots.setIfInBounds index ⟨generation + 1, .vacant arena.freeHead⟩
        freeHead := some index
        size := arena.size - 1 }) := by
    simp [Arena.removeAt, held]
  have occupied : index ∉ free := by
    intro listed
    have absent := ((vacant.listed index).mp listed).2
    rw [seen] at absent
    cases absent
  -- There is a slot that is not on the list, so the count is not at zero.
  have counted : free.length < arena.slots.size := by
    have within : free ⊆ (List.range arena.slots.size).erase index := by
      intro other listed
      have apart : other ≠ index := by
        rintro rfl
        exact occupied listed
      apply (List.mem_erase_of_ne apart).mpr
      exact List.mem_range.mpr ((vacant.listed other).mp listed).1
    have fits := (List.subperm_of_subset vacant.distinct within).length_le
    rw [List.length_erase_of_mem (List.mem_range.mpr inside), List.length_range] at fits
    omega
  have size := vacant.size
  rw [removed] at left ⊢
  refine ⟨⟨rfl, generation + 1, arena.freeHead, by simp [inside], ?_⟩,
    List.nodup_cons.mpr ⟨occupied, vacant.distinct⟩, ?_, ?_⟩
  · apply vacant.chain.congr
    intro other listed
    apply Array.getElem?_setIfInBounds_ne
    rintro rfl
    exact occupied listed
  · intro other
    rw [left, Array.size_setIfInBounds, List.mem_cons, vacant.listed]
    by_cases same : other = index
    · simp [same, inside]
    · simp [same]
  · simp only [List.length_cons, Array.size_setIfInBounds]
    omega

private theorem modifyAt (vacant : arena.Vacant free) (index : Nat) (change : α → α) :
    (arena.modifyAt index change).Vacant free where
  chain := by
    apply vacant.chain.congr
    intro other listed
    have absent := ((vacant.listed other).mp listed).2
    simp only [Arena.modifyAt, Array.getElem?_modify]
    split
    next =>
      cases seen : arena.slots[other]? with
      | none => rfl
      | some slot =>
        obtain ⟨generation, content⟩ := slot
        cases content with
        | occupied value => simp [getAt?, entryAt?, seen] at absent
        | vacant next => rfl
    next => rfl
  distinct := vacant.distinct
  listed := by
    intro other
    rw [vacant.listed, slots_size_modifyAt, getAt?_modifyAt]
    split <;> simp
  size := by
    rw [slots_size_modifyAt]
    exact vacant.size

theorem modify (vacant : arena.Vacant free) (key : Key) (change : α → α) :
    (arena.modify key change).Vacant free := by
  unfold Arena.modify
  split
  · exact vacant.modifyAt key.index change
  · exact vacant

theorem mapAll_iff {change : α → α} :
    (arena.mapAll change).Vacant free ↔ arena.Vacant free := by
  have slots : ∀ (index : Nat) (generation : UInt32) (next : Option Nat),
      (arena.mapAll change).slots[index]? = some (⟨generation, .vacant next⟩ : Slot α) ↔
        arena.slots[index]? = some (⟨generation, .vacant next⟩ : Slot α) := by
    intro index generation next
    simp only [mapAll, Array.getElem?_map]
    cases arena.slots[index]? with
    | none => simp
    | some slot =>
      obtain ⟨generation, content⟩ := slot
      cases content <;> simp [Slot.map]
  have chain : ∀ head, Chain (arena.mapAll change).slots head free ↔
      Chain arena.slots head free := by
    induction free with
    | nil => exact fun head => Iff.rfl
    | cons index rest ih => simp only [Chain, slots, ih, implies_true]
  have size : (arena.mapAll change).slots.size = arena.slots.size := Array.size_map
  have listed : ∀ index, (arena.mapAll change).getAt? index = none ↔ arena.getAt? index = none := by
    simp [getAt?_mapAll]
  constructor
  · rintro ⟨linked, distinct, members, count⟩
    rw [size] at count
    simp only [size, listed] at members
    exact ⟨(chain _).mp linked, distinct, members, count⟩
  · rintro ⟨linked, distinct, members, count⟩
    refine ⟨(chain _).mpr linked, distinct, ?_, ?_⟩
    · simpa only [size, listed] using members
    · rw [size]
      exact count

/-- Occupied slots that are vacated one after another come first, the last one at the head. -/
private theorem vacateAll (vacant : arena.Vacant free) (indices : List Nat)
    (distinct : indices.Nodup) :
    (indices.foldl (fun arena index => (arena.removeAt index).2) arena).Vacant
      ((indices.filter fun index => (arena.getAt? index).isSome).reverse ++ free) := by
  induction indices generalizing arena free with
  | nil => exact vacant
  | cons first rest ih =>
    obtain ⟨absent, distinct⟩ := List.nodup_cons.mp distinct
    rw [List.foldl_cons, List.filter_cons]
    cases seen : arena.getAt? first with
    | none =>
      rw [removeAt_of_absent seen]
      exact ih vacant distinct
    | some value =>
      have others : (rest.filter fun index => ((arena.removeAt first).2.getAt? index).isSome) =
          rest.filter fun index => (arena.getAt? index).isSome := by
        apply List.filter_congr
        intro index listed
        have apart : index ≠ first := by
          rintro rfl
          exact absent listed
        rw [getAt?_removeAt, if_neg apart]
      have later := ih (vacant.removeAt seen) distinct
      rw [others] at later
      simpa using later

/-- Clearing vacates the occupied slots, the highest at the head, before those that were vacant. -/
theorem clear (vacant : arena.Vacant free) :
    arena.clear.Vacant (((List.range arena.slots.size).filter fun index =>
      (arena.getAt? index).isSome).reverse ++ free) :=
  vacant.vacateAll _ List.nodup_range

end Vacant

namespace Sound

theorem empty : ({} : Arena α).Sound := ⟨[], .empty⟩

theorem insert (sound : arena.Sound) (value : α) : (arena.insert value).2.Sound := by
  obtain ⟨free, vacant⟩ := sound
  exact ⟨free.tail, vacant.insert value⟩

theorem removeAt (sound : arena.Sound) (index : Nat) : (arena.removeAt index).2.Sound := by
  cases seen : arena.getAt? index with
  | none =>
    rw [removeAt_of_absent seen]
    exact sound
  | some value =>
    obtain ⟨free, vacant⟩ := sound
    exact ⟨index :: free, vacant.removeAt seen⟩

theorem remove (sound : arena.Sound) (key : Key) : (arena.remove key).2.Sound := by
  unfold Arena.remove
  split
  · exact sound.removeAt key.index
  · exact sound

theorem modify (sound : arena.Sound) (key : Key) (change : α → α) :
    (arena.modify key change).Sound := by
  obtain ⟨free, vacant⟩ := sound
  exact ⟨free, vacant.modify key change⟩

theorem clear (sound : arena.Sound) : arena.clear.Sound := by
  obtain ⟨free, vacant⟩ := sound
  exact ⟨_, vacant.clear⟩

theorem mapAll_iff {change : α → α} : (arena.mapAll change).Sound ↔ arena.Sound :=
  exists_congr fun _ => Vacant.mapAll_iff

end Sound

theorem toList_eq (arena : Arena α) :
    arena.toList.map (·.1.index) =
      (List.range arena.slots.size).filter fun index => (arena.getAt? index).isSome := by
  rw [toList, List.map_filterMap]
  induction List.range arena.slots.size with
  | nil => rfl
  | cons index rest ih =>
    rw [List.filterMap_cons, List.filter_cons, ih]
    cases found : arena.entryAt? index with
    | none => simp [getAt?, found]
    | some entry => simp [getAt?, found, index_of_entryAt? found]

theorem keys_nodup (arena : Arena α) : (arena.toList.map (·.1)).Nodup := by
  have slots : (arena.toList.map (·.1.index)).Nodup := by
    rw [toList_eq]
    exact List.nodup_range.filter _
  have split : arena.toList.map (·.1.index) = (arena.toList.map (·.1)).map Key.index := by
    rw [List.map_map]
    rfl
  rw [split] at slots
  exact slots.of_map

theorem Sound.length_toList (sound : arena.Sound) : arena.toList.length = arena.size := by
  obtain ⟨free, vacant⟩ := sound
  have rest : ((List.range arena.slots.size).filter fun index =>
      !(arena.getAt? index).isSome).Perm free := by
    apply (List.perm_ext_iff_of_nodup (List.nodup_range.filter _) vacant.distinct).mpr
    intro index
    simp [vacant.listed]
  have whole := List.length_eq_length_filter_add (l := List.range arena.slots.size)
    fun index => (arena.getAt? index).isSome
  have listed := congrArg List.length arena.toList_eq
  rw [List.length_map] at listed
  rw [← listed, rest.length_eq, List.length_range] at whole
  have size := vacant.size
  omega

end Timers.Arena
