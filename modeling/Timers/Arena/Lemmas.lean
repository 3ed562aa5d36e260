import Timers.Arena.Basic

/-! What every operation of an arena does to the entries of its slots. None of these laws
supposes that the free list is sound. -/

namespace Timers.Arena

variable {α : Type u}

theorem contains_iff_entryAt? {arena : Arena α} {key : Key} :
    arena.contains key = true ↔ ∃ value, arena.entryAt? key.index = some (key, value) := by
  simp only [contains_iff, get?_eq_some_iff]

theorem index_of_entryAt? {arena : Arena α} {index : Nat} {entry : Key × α}
    (found : arena.entryAt? index = some entry) : entry.1.index = index := by
  unfold entryAt? at found
  split at found
  · cases found
    rfl
  · cases found

theorem lt_size_of_entryAt? {arena : Arena α} {index : Nat} {entry : Key × α}
    (found : arena.entryAt? index = some entry) : index < arena.slots.size := by
  unfold entryAt? at found
  split at found
  next held => exact (Array.getElem?_eq_some_iff.mp held).1
  next => cases found

theorem getAt?_eq_some_iff {arena : Arena α} {index : Nat} {value : α} :
    arena.getAt? index = some value ↔ ∃ key, arena.entryAt? index = some (key, value) := by
  simp [getAt?]

theorem slot_of_vacancy? {arena : Arena α} {index : Nat} {generation : UInt32}
    {next : Option Nat} (vacant : arena.vacancy? = some (index, generation, next)) :
    arena.slots[index]? = some ⟨generation, .vacant next⟩ := by
  unfold vacancy? at vacant
  split at vacant
  · cases vacant
  · split at vacant
    next held =>
      cases vacant
      exact held
    next => cases vacant

theorem entryAt?_of_insert (arena : Arena α) (value : α) :
    arena.entryAt? (arena.insert value).1.index = none := by
  unfold insert
  split
  next vacant => simp [entryAt?, slot_of_vacancy? vacant]
  next => simp [entryAt?]

theorem entryAt?_insert (arena : Arena α) (value : α) (index : Nat) :
    (arena.insert value).2.entryAt? index =
      if index = (arena.insert value).1.index then some ((arena.insert value).1, value)
      else arena.entryAt? index := by
  unfold insert
  split
  next at' generation next' vacant =>
    have inside := (Array.getElem?_eq_some_iff.mp (slot_of_vacancy? vacant)).1
    by_cases same : index = at'
    · subst same
      simp [entryAt?, inside]
    · simp [entryAt?, same, Array.getElem?_setIfInBounds_ne (Ne.symm same)]
  next =>
    by_cases same : index = arena.slots.size
    · subst same
      simp [entryAt?]
    · simp [entryAt?, same, Array.getElem?_push]

theorem size_insert (arena : Arena α) (value : α) :
    (arena.insert value).2.size = arena.size + 1 := by
  unfold insert
  split <;> rfl

theorem removeAt_value (arena : Arena α) (index : Nat) :
    (arena.removeAt index).1 = arena.getAt? index := by
  unfold removeAt getAt? entryAt?
  split <;> simp_all

theorem entryAt?_removeAt (arena : Arena α) (index other : Nat) :
    (arena.removeAt index).2.entryAt? other =
      if other = index then none else arena.entryAt? other := by
  unfold removeAt
  split
  next generation value held =>
    have inside := (Array.getElem?_eq_some_iff.mp held).1
    by_cases same : other = index
    · subst same
      simp [entryAt?, inside]
    · simp [entryAt?, same, Array.getElem?_setIfInBounds_ne (Ne.symm same)]
  next absent =>
    by_cases same : other = index
    · subst same
      simp only [if_true]
      unfold entryAt?
      split
      next generation value held => exact absurd held (absent generation value)
      next => rfl
    · simp [same]

theorem slots_size_removeAt (arena : Arena α) (index : Nat) :
    (arena.removeAt index).2.slots.size = arena.slots.size := by
  unfold removeAt
  split <;> simp

theorem remove_of_contains {arena : Arena α} {key : Key} (held : arena.contains key = true) :
    arena.remove key = arena.removeAt key.index := by
  simp [remove, held]

theorem remove_of_not_contains {arena : Arena α} {key : Key}
    (stale : arena.contains key = false) : arena.remove key = (none, arena) := by
  simp [remove, stale]

theorem remove_value (arena : Arena α) (key : Key) : (arena.remove key).1 = arena.get? key := by
  by_cases held : arena.contains key = true
  · obtain ⟨value, found⟩ := contains_iff_entryAt?.mp held
    rw [remove_of_contains held, removeAt_value, get?_eq_some_iff.mpr found]
    simp [getAt?, found]
  · have stale : arena.contains key = false := by simpa using held
    rw [remove_of_not_contains stale]
    have absent : arena.get? key = none := by simpa [contains] using stale
    exact absent.symm

theorem slots_size_remove (arena : Arena α) (key : Key) :
    (arena.remove key).2.slots.size = arena.slots.size := by
  unfold remove
  split
  · exact slots_size_removeAt arena key.index
  · rfl

theorem entryAt?_modifyAt (arena : Arena α) (index : Nat) (change : α → α) (other : Nat) :
    (arena.modifyAt index change).entryAt? other =
      if other = index then (arena.entryAt? other).map fun (key, value) => (key, change value)
      else arena.entryAt? other := by
  by_cases same : other = index
  · subst same
    simp only [entryAt?, modifyAt, Array.getElem?_modify, if_true]
    cases arena.slots[other]? with
    | none => rfl
    | some slot =>
      obtain ⟨generation, content⟩ := slot
      cases content <;> rfl
  · simp [entryAt?, modifyAt, Array.getElem?_modify, same, Ne.symm same]

theorem slots_size_modifyAt (arena : Arena α) (index : Nat) (change : α → α) :
    (arena.modifyAt index change).slots.size = arena.slots.size := by
  simp [modifyAt]

theorem slots_size_modify (arena : Arena α) (key : Key) (change : α → α) :
    (arena.modify key change).slots.size = arena.slots.size := by
  unfold modify
  split
  · exact slots_size_modifyAt arena key.index change
  · rfl

theorem modify_of_not_contains {arena : Arena α} {key : Key} {change : α → α}
    (stale : arena.contains key = false) : arena.modify key change = arena := by
  simp [modify, stale]

theorem modify_of_same {arena : Arena α} {key : Key} {change : α → α}
    (same : ∀ value, arena.get? key = some value → change value = value) :
    arena.modify key change = arena := by
  by_cases held : arena.contains key = true
  · obtain ⟨value, found⟩ := contains_iff_entryAt?.mp held
    have kept := same value (get?_eq_some_iff.mpr found)
    have slots : arena.slots.modify key.index (Slot.map change) = arena.slots := by
      refine Array.ext (by simp) fun index inside _ => ?_
      rw [Array.getElem_modify]
      split
      next here =>
        subst here
        simp only [entryAt?] at found
        split at found
        next occupied =>
          obtain ⟨_, occupied⟩ := Array.getElem?_eq_some_iff.mp occupied
          obtain ⟨_, rfl⟩ := Prod.mk.inj (Option.some.inj found)
          simp only [occupied, Slot.map, kept]
        next => cases found
      next => rfl
    simp only [modify, held, if_true, modifyAt, slots]
  · exact modify_of_not_contains (by simpa using held)

theorem get?_modify (arena : Arena α) (key other : Key) (change : α → α) :
    (arena.modify key change).get? other =
      if other = key then (arena.get? other).map change else arena.get? other := by
  by_cases held : arena.contains key = true
  · obtain ⟨value, found⟩ := contains_iff_entryAt?.mp held
    simp only [modify, held, if_true, get?, entryAt?_modifyAt]
    by_cases same : other = key
    · subst same
      simp [found]
    · by_cases beside : other.index = key.index
      · simp [beside, found, same, Ne.symm same]
      · simp [beside, same]
  · have stale : arena.contains key = false := by simpa using held
    rw [modify_of_not_contains stale]
    split
    next same =>
      subst same
      have absent : arena.get? other = none := by simpa [contains] using stale
      simp [absent]
    next => rfl

theorem insert_of_vacancy? {arena : Arena α} {index : Nat} {generation : UInt32}
    {next : Option Nat} (vacant : arena.vacancy? = some (index, generation, next))
    (value : α) :
    arena.insert value = (⟨index, generation⟩,
      { slots := arena.slots.setIfInBounds index ⟨generation, .occupied value⟩
        freeHead := next
        size := arena.size + 1 }) := by
  unfold insert
  rw [vacant]

/-- A slot that is filled and vacated again comes first once more, in its next generation. -/
theorem vacancy?_remove_insert {arena : Arena α} {index : Nat} {generation : UInt32}
    {next : Option Nat} (vacant : arena.vacancy? = some (index, generation, next)) (value : α) :
    ((arena.insert value).2.remove ⟨index, generation⟩).2.vacancy? =
      some (index, generation + 1, next) := by
  have inside := (Array.getElem?_eq_some_iff.mp (slot_of_vacancy? vacant)).1
  rw [insert_of_vacancy? vacant]
  simp [remove, contains, get?, entryAt?, removeAt, vacancy?, inside]

private theorem entryAt?_vacateAll (indices : List Nat) (arena : Arena α) (index : Nat) :
    (indices.foldl (fun arena index => (arena.removeAt index).2) arena).entryAt? index =
      if index ∈ indices then none else arena.entryAt? index := by
  induction indices generalizing arena with
  | nil => simp
  | cons first rest ih =>
    rw [List.foldl_cons, ih, entryAt?_removeAt]
    by_cases same : index = first <;> by_cases later : index ∈ rest <;> simp [same, later]

theorem entryAt?_clear (arena : Arena α) (index : Nat) : arena.clear.entryAt? index = none := by
  rw [clear, entryAt?_vacateAll]
  split
  · rfl
  next outside =>
    have past : arena.slots.size ≤ index := by simpa using outside
    simp [entryAt?, Array.getElem?_eq_none past]

private theorem slots_size_vacateAll (indices : List Nat) (arena : Arena α) :
    (indices.foldl (fun arena index => (arena.removeAt index).2) arena).slots.size =
      arena.slots.size := by
  induction indices generalizing arena with
  | nil => rfl
  | cons first rest ih => exact (ih _).trans (slots_size_removeAt arena first)

theorem slots_size_clear (arena : Arena α) : arena.clear.slots.size = arena.slots.size :=
  slots_size_vacateAll _ arena

theorem mem_toList_iff {arena : Arena α} {key : Key} {value : α} :
    (key, value) ∈ arena.toList ↔ arena.get? key = some value := by
  rw [get?_eq_some_iff, toList, List.mem_filterMap]
  constructor
  · intro ⟨index, _, found⟩
    rw [← index_of_entryAt? found] at found
    exact found
  · intro found
    exact ⟨key.index, List.mem_range.mpr (lt_size_of_entryAt? found), found⟩

end Timers.Arena
