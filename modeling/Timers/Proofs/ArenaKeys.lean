import Timers.Arena.Lemmas

/-! Which keys an arena resolves after each of its operations, and how the generations of
its slots move. As long as no generation wraps, a key that has lapsed never resolves again. -/

namespace Timers.Arena

variable {α : Type u} {arena before after : Arena α} {key other : Key} {value : α}

theorem getAt?_of_get? (held : arena.get? key = some value) :
    arena.getAt? key.index = some value :=
  getAt?_eq_some_iff.mpr ⟨key, get?_eq_some_iff.mp held⟩

theorem key_eq_of_get? {second : α} (held : arena.get? key = some value)
    (found : arena.get? other = some second) (same : key.index = other.index) : key = other := by
  have first := get?_eq_some_iff.mp held
  rw [same, get?_eq_some_iff.mp found] at first
  cases first
  rfl

theorem get?_of_insert (arena : Arena α) (value : α) (same : key.index = (arena.insert value).1.index) :
    arena.get? key = none := by
  cases held : arena.get? key with
  | none => rfl
  | some found =>
    rw [get?_eq_some_iff, same, entryAt?_of_insert] at held
    cases held

theorem get?_insert (arena : Arena α) (value : α) (key : Key) :
    (arena.insert value).2.get? key =
      if key = (arena.insert value).1 then some value else arena.get? key := by
  by_cases same : key = (arena.insert value).1
  · simp [get?, entryAt?_insert, same]
  · by_cases beside : key.index = (arena.insert value).1.index
    · rw [if_neg same, get?_of_insert arena value beside]
      simp [get?, entryAt?_insert, beside, Ne.symm same]
    · simp [get?, entryAt?_insert, beside, same]

theorem get?_insert_self (arena : Arena α) (value : α) :
    (arena.insert value).2.get? (arena.insert value).1 = some value := by
  rw [get?_insert, if_pos rfl]

theorem get?_removeAt (arena : Arena α) (index : Nat) (key : Key) :
    (arena.removeAt index).2.get? key = if key.index = index then none else arena.get? key := by
  by_cases same : key.index = index <;> simp [get?, entryAt?_removeAt, same]

theorem get?_remove (arena : Arena α) (key other : Key) :
    (arena.remove key).2.get? other = if other = key then none else arena.get? other := by
  by_cases held : arena.contains key = true
  · obtain ⟨value, found⟩ := contains_iff.mp held
    rw [remove_of_contains held, get?_removeAt]
    by_cases same : other.index = key.index
    · by_cases equal : other = key
      · simp [equal]
      · cases seen : arena.get? other with
        | none => simp
        | some second => exact absurd (key_eq_of_get? seen found same) equal
    · have apart : other ≠ key := fun equal => same (congrArg Key.index equal)
      simp [same, apart]
  · have stale : arena.contains key = false := by simpa using held
    rw [remove_of_not_contains stale]
    split
    next same =>
      subst same
      simpa [contains] using stale
    next => rfl

theorem get?_clear (arena : Arena α) (key : Key) : arena.clear.get? key = none := by
  simp [get?, entryAt?_clear]

theorem getAt?_removeAt (arena : Arena α) (index other : Nat) :
    (arena.removeAt index).2.getAt? other = if other = index then none else arena.getAt? other := by
  by_cases same : other = index <;> simp [getAt?, entryAt?_removeAt, same]

theorem getAt?_insert (arena : Arena α) (value : α) (index : Nat) :
    (arena.insert value).2.getAt? index =
      if index = (arena.insert value).1.index then some value else arena.getAt? index := by
  by_cases same : index = (arena.insert value).1.index <;> simp [getAt?, entryAt?_insert, same]

theorem getAt?_modifyAt (arena : Arena α) (index : Nat) (change : α → α) (other : Nat) :
    (arena.modifyAt index change).getAt? other =
      if other = index then (arena.getAt? other).map change else arena.getAt? other := by
  by_cases same : other = index
  · simp [getAt?, entryAt?_modifyAt, same, Function.comp_def]
  · simp [getAt?, entryAt?_modifyAt, same]

/-- The generation of a slot, of an occupied one as of a vacant one. A slot that the arena
has not grown to yet is in its first. -/
def generationAt (arena : Arena α) (index : Nat) : UInt32 :=
  ((arena.slots[index]?).map Slot.generation).getD 0

theorem generationAt_of_get? (held : arena.get? key = some value) :
    arena.generationAt key.index = key.generation := by
  have found := get?_eq_some_iff.mp held
  simp only [entryAt?] at found
  split at found
  next generation held seen =>
    have issued : generation = key.generation :=
      congrArg Key.generation (Prod.mk.inj (Option.some.inj found)).1
    simp [generationAt, seen, issued]
  next => cases found

theorem generationAt_insert (arena : Arena α) (value : α) (index : Nat) :
    (arena.insert value).2.generationAt index = arena.generationAt index := by
  simp only [insert, generationAt]
  split
  next at' generation next vacant =>
    have held := slot_of_vacancy? vacant
    obtain ⟨inside, content⟩ := Array.getElem?_eq_some_iff.mp held
    by_cases same : at' = index
    · subst same
      simp [inside, content]
    · simp [Array.getElem?_setIfInBounds_ne same]
  next =>
    by_cases same : index = arena.slots.size
    · simp [same]
    · simp [Array.getElem?_push, same]

theorem generation_of_insert (arena : Arena α) (value : α) :
    arena.generationAt (arena.insert value).1.index = (arena.insert value).1.generation := by
  rw [← generationAt_insert arena value]
  exact generationAt_of_get? (arena.get?_insert_self value)

theorem generationAt_removeAt (arena : Arena α) (index other : Nat) :
    (arena.removeAt index).2.generationAt other =
      if other = index ∧ (arena.getAt? index).isSome then arena.generationAt other + 1
      else arena.generationAt other := by
  simp only [removeAt]
  split
  next generation value held =>
    obtain ⟨inside, content⟩ := Array.getElem?_eq_some_iff.mp held
    by_cases same : other = index
    · subst same
      simp [generationAt, getAt?, entryAt?, content, inside]
    · simp [generationAt, same, Array.getElem?_setIfInBounds_ne (Ne.symm same)]
  next absent =>
    have vacant : arena.getAt? index = none := by
      unfold getAt? entryAt?
      split
      next generation value held => exact absurd held (absent generation value)
      next => rfl
    simp [vacant]

theorem generationAt_remove (held : arena.get? key = some value) (index : Nat) :
    (arena.remove key).2.generationAt index =
      if index = key.index then arena.generationAt index + 1 else arena.generationAt index := by
  rw [remove_of_contains (contains_iff.mpr ⟨value, held⟩), generationAt_removeAt,
    getAt?_of_get? held]
  simp

theorem generationAt_modifyAt (arena : Arena α) (index : Nat) (change : α → α) (other : Nat) :
    (arena.modifyAt index change).generationAt other = arena.generationAt other := by
  by_cases same : index = other
  · subst same
    cases seen : arena.slots[index]? with
    | none => simp [generationAt, modifyAt, Array.getElem?_modify, seen]
    | some slot =>
      obtain ⟨generation, content⟩ := slot
      cases content <;> simp [generationAt, modifyAt, Array.getElem?_modify, seen, Slot.map]
  · simp [generationAt, modifyAt, Array.getElem?_modify, same]

theorem generationAt_modify (arena : Arena α) (key : Key) (change : α → α) (index : Nat) :
    (arena.modify key change).generationAt index = arena.generationAt index := by
  simp only [modify]
  split
  · exact generationAt_modifyAt arena key.index change index
  · rfl

private theorem generationAt_vacateAll (indices : List Nat) (distinct : indices.Nodup)
    (arena : Arena α) (index : Nat) :
    (indices.foldl (fun arena index => (arena.removeAt index).2) arena).generationAt index =
      if index ∈ indices ∧ (arena.getAt? index).isSome then arena.generationAt index + 1
      else arena.generationAt index := by
  induction indices generalizing arena with
  | nil => simp
  | cons first rest ih =>
    obtain ⟨absent, distinct⟩ := List.nodup_cons.mp distinct
    rw [List.foldl_cons, ih distinct, getAt?_removeAt, generationAt_removeAt]
    by_cases same : index = first
    · subst same
      simp [absent]
    · simp [same]

theorem generationAt_clear (arena : Arena α) (index : Nat) :
    arena.clear.generationAt index =
      if (arena.getAt? index).isSome then arena.generationAt index + 1
      else arena.generationAt index := by
  rw [clear, generationAt_vacateAll _ List.nodup_range]
  congr 1
  refine propext ⟨And.right, fun held => ⟨?_, held⟩⟩
  obtain ⟨value, found⟩ := Option.isSome_iff_exists.mp held
  obtain ⟨key, entry⟩ := getAt?_eq_some_iff.mp found
  exact List.mem_range.mpr (lt_size_of_entryAt? entry)

/-- The arena with every value changed where it is. -/
def mapAll (arena : Arena α) (change : α → α) : Arena α :=
  { arena with slots := arena.slots.map (Slot.map change) }

theorem entryAt?_mapAll (arena : Arena α) (change : α → α) (index : Nat) :
    (arena.mapAll change).entryAt? index =
      (arena.entryAt? index).map fun (key, value) => (key, change value) := by
  simp only [entryAt?, mapAll, Array.getElem?_map]
  cases arena.slots[index]? with
  | none => rfl
  | some slot =>
    obtain ⟨generation, content⟩ := slot
    cases content <;> rfl

theorem getAt?_mapAll (arena : Arena α) (change : α → α) (index : Nat) :
    (arena.mapAll change).getAt? index = (arena.getAt? index).map change := by
  simp [getAt?, entryAt?_mapAll, Function.comp_def]

theorem get?_mapAll (arena : Arena α) (change : α → α) (key : Key) :
    (arena.mapAll change).get? key = (arena.get? key).map change := by
  simp only [get?, entryAt?_mapAll]
  cases arena.entryAt? key.index with
  | none => rfl
  | some entry =>
    obtain ⟨current, value⟩ := entry
    by_cases same : current = key <;> simp [same]

theorem generationAt_mapAll (arena : Arena α) (change : α → α) (index : Nat) :
    (arena.mapAll change).generationAt index = arena.generationAt index := by
  simp only [generationAt, mapAll, Array.getElem?_map]
  cases arena.slots[index]? with
  | none => rfl
  | some slot =>
    obtain ⟨generation, content⟩ := slot
    cases content <;> rfl

/-- What a later change of all values forgets need not have been done. -/
theorem mapAll_modifyAt (arena : Arena α) (index : Nat) {first second : α → α}
    (forgets : ∀ value, second (first value) = second value) :
    (arena.modifyAt index first).mapAll second = arena.mapAll second := by
  simp only [mapAll, modifyAt]
  congr 1
  apply Array.ext_getElem?
  intro position
  simp only [Array.getElem?_map, Array.getElem?_modify]
  by_cases same : index = position
  · cases arena.slots[position]? with
    | none => simp
    | some slot =>
      obtain ⟨generation, content⟩ := slot
      cases content <;> simp [same, Slot.map, forgets]
  · simp [same]

/-- No slot falls back to an earlier generation, so none of them wraps on the way. -/
def Unwrapped (before after : Arena α) : Prop :=
  ∀ index, before.generationAt index ≤ after.generationAt index

theorem unwrapped_of_step
    (step : ∀ index, after.generationAt index = before.generationAt index ∨
      after.generationAt index = before.generationAt index + 1)
    (room : ∀ index, (before.generationAt index).toNat + 1 < UInt32.size) :
    before.Unwrapped after ∧
      ∀ index, (after.generationAt index).toNat ≤ (before.generationAt index).toNat + 1 := by
  have grown : ∀ index, (before.generationAt index).toNat ≤ (after.generationAt index).toNat ∧
      (after.generationAt index).toNat ≤ (before.generationAt index).toNat + 1 := by
    intro index
    rcases step index with same | next
    · rw [same]
      omega
    · rw [next, UInt32.toNat_add, UInt32.toNat_one, Nat.mod_eq_of_lt (room index)]
      omega
  exact ⟨fun index => UInt32.le_iff_toNat_le.mpr (grown index).1, fun index => (grown index).2⟩

/-- The slot of the key has gone on to a later generation. -/
def Outdated (arena : Arena α) (key : Key) : Prop :=
  key.generation < arena.generationAt key.index

theorem Outdated.get? (outdated : arena.Outdated key) : arena.get? key = none := by
  cases held : arena.get? key with
  | none => rfl
  | some value =>
    simp only [Outdated] at outdated
    rw [generationAt_of_get? held] at outdated
    exact absurd outdated (UInt32.lt_irrefl _)

theorem Outdated.keep (outdated : before.Outdated key)
    (grown : before.generationAt key.index ≤ after.generationAt key.index) :
    after.Outdated key :=
  UInt32.lt_of_lt_of_le outdated grown

/-- The key of a value that leaves its slot is outdated, unless the generation wraps. -/
theorem outdated_of_vacated (held : before.get? key = some value)
    (moved : after.generationAt key.index = before.generationAt key.index + 1)
    (grown : before.generationAt key.index ≤ after.generationAt key.index) :
    after.Outdated key := by
  simp only [Outdated]
  rw [generationAt_of_get? held] at moved grown
  rw [moved] at grown ⊢
  grind

end Timers.Arena
