import Mathlib.Data.List.Dedup
import Mathlib.Order.Bounds.Defs
import Timers.Proofs.KeyHistory
import Timers.Proofs.Vacancies

/-! How the slots of an arena are used again in the course of a run. The links through the vacant
slots lead from the one that was vacated last back to the one whose departure is the longest ago. A
value that is put in takes the first of them, so the arena never has more slots than it had values
at some point of the run. What is cleared comes on top of what was vacant before. -/

namespace Timers.Arena

/-- How many slots a request takes. -/
def Request.demand {α : Type u} : Request α → Nat
  | .insert _ => 1
  | .remove _ | .removeAt _ | .modify .. | .clear => 0

variable {α : Type u} {arena : Arena α} {free history gone : List Nat} {index : Nat} {key : Key}

/-- The slots that hold values, in their order. -/
def occupied (arena : Arena α) : List Nat :=
  (List.range arena.slots.size).filter fun index => (arena.getAt? index).isSome

/-- The slots that a request vacates, in their order. -/
def vacated (arena : Arena α) (request : Request α) : List Nat :=
  (List.range arena.slots.size).filter (arena.vacates request)

/-- The slots that are vacated in a run, one after another. -/
def departures (arena : Arena α) : List (Request α) → List Nat
  | [] => []
  | request :: rest => arena.vacated request ++ (arena.perform request).2.departures rest

/-- The slots of a history that are vacant now, the one that was vacated last at the head. Of
several departures from one slot `dedup` keeps the last one. -/
def latest (arena : Arena α) (history : List Nat) : List Nat :=
  (history.dedup.filter fun index => (arena.getAt? index).isNone).reverse

/-- How many values there are at once, at all points of a run. -/
def populations (arena : Arena α) (requests : List (Request α)) : Set Nat :=
  {count | ∃ earlier, earlier <+: requests ∧ (arena.run earlier).2.occupied.length = count}

/-- A value that is put in takes the first of the vacant slots. Only if there is none, the arena
grows. No slot that holds a value is taken, and what the others hold stays there. -/
structure Takes (arena : Arena α) (free : List Nat) (value : α) : Prop where
  slot : (arena.insert value).1.index = free.headD arena.slots.size
  growth : (arena.insert value).2.slots.size = arena.slots.size + if free = [] then 1 else 0
  rest : (arena.insert value).2.Vacant free.tail
  unheld : arena.entryAt? (arena.insert value).1.index = none
  kept : ∀ index entry, arena.entryAt? index = some entry →
    (arena.insert value).2.entryAt? index = some entry

/-- Clearing puts the occupied slots on the list, the highest at the head, before those that were
vacant. It moves the former on by one generation and leaves the latter as they are. -/
structure Clears (arena : Arena α) (free : List Nat) : Prop where
  vacant : arena.clear.Vacant (arena.occupied.reverse ++ free)
  moved : ∀ (index : Nat) (generation : UInt32) (value : α),
    arena.slots[index]? = some ⟨generation, .occupied value⟩ →
      ∃ next, arena.clear.slots[index]? = some ⟨generation + 1, .vacant next⟩
  untouched : ∀ index : Nat, arena.getAt? index = none →
    arena.clear.slots[index]? = arena.slots[index]?

private theorem vacated_nodup (arena : Arena α) (request : Request α) :
    (arena.vacated request).Nodup :=
  List.nodup_range.filter _

private theorem isSome_of_vacates {request : Request α}
    (vacates : arena.vacates request index = true) : (arena.getAt? index).isSome = true := by
  cases request with
  | insert | modify => cases vacates
  | remove key =>
    simp only [Arena.vacates, remove_value, Bool.and_eq_true, decide_eq_true_eq] at vacates
    obtain ⟨rfl, held⟩ := vacates
    obtain ⟨value, found⟩ := Option.isSome_iff_exists.mp held
    simp [getAt?_of_get? found]
  | removeAt other =>
    simp only [Arena.vacates, removeAt_value, Bool.and_eq_true, decide_eq_true_eq] at vacates
    obtain ⟨rfl, held⟩ := vacates
    exact held
  | clear => exact vacates

private theorem vacated_eq_nil {request : Request α}
    (none : ∀ index, arena.vacates request index = false) : arena.vacated request = [] :=
  List.filter_eq_nil_iff.mpr fun index _ => by simp [none]

private theorem vacated_eq_singleton {request : Request α} {value : α}
    (seen : arena.getAt? index = some value)
    (only : ∀ other, arena.vacates request other = decide (other = index)) :
    arena.vacated request = [index] := by
  have inside := List.mem_range.mpr (lt_size_of_getAt? seen)
  rw [vacated, funext only, List.filter_eq, List.nodup_range.count, if_pos inside]
  rfl

private theorem vacated_insert (arena : Arena α) (value : α) : arena.vacated (.insert value) = [] :=
  vacated_eq_nil fun _ => rfl

private theorem vacated_modify (arena : Arena α) (key : Key) (change : α → α) :
    arena.vacated (.modify key change) = [] :=
  vacated_eq_nil fun _ => rfl

private theorem vacated_remove {value : α} (held : arena.get? key = some value) :
    arena.vacated (.remove key) = [key.index] :=
  vacated_eq_singleton (getAt?_of_get? held) fun other => by
    simp [vacates, remove_value, held, eq_comm]

private theorem vacated_remove_of_stale (stale : arena.get? key = none) :
    arena.vacated (.remove key) = [] :=
  vacated_eq_nil fun index => by simp [vacates, remove_value, stale]

private theorem vacated_removeAt {value : α} (seen : arena.getAt? index = some value) :
    arena.vacated (.removeAt index) = [index] :=
  vacated_eq_singleton seen fun other => by simp [vacates, removeAt_value, seen, eq_comm]

private theorem vacated_removeAt_of_absent (absent : arena.getAt? index = none) :
    arena.vacated (.removeAt index) = [] :=
  vacated_eq_nil fun other => by simp [vacates, removeAt_value, absent]

/-- What a request takes comes off the head, and what it vacates is put there. -/
theorem Vacant.perform (vacant : arena.Vacant free) (request : Request α) :
    (arena.perform request).2.Vacant
      ((arena.vacated request).reverse ++ free.drop request.demand) := by
  cases request with
  | insert value =>
    rw [vacated_insert, Request.demand, List.drop_one]
    exact vacant.insert value
  | remove key =>
    cases held : arena.get? key with
    | none =>
      have stale : arena.contains key = false := by simp [contains, held]
      rw [vacated_remove_of_stale held, Arena.perform, remove_of_not_contains stale]
      exact vacant
    | some value =>
      have found := contains_iff.mpr ⟨value, held⟩
      rw [vacated_remove held, Arena.perform, remove_of_contains found]
      exact vacant.removeAt (getAt?_of_get? held)
  | removeAt index =>
    cases seen : arena.getAt? index with
    | none =>
      rw [vacated_removeAt_of_absent seen, Arena.perform, removeAt_of_absent seen]
      exact vacant
    | some value =>
      rw [vacated_removeAt seen]
      exact vacant.removeAt seen
  | modify key change =>
    rw [vacated_modify]
    exact vacant.modify key change
  | clear => exact vacant.clear

theorem Sound.perform (sound : arena.Sound) (request : Request α) :
    (arena.perform request).2.Sound := by
  obtain ⟨free, vacant⟩ := sound
  exact ⟨_, vacant.perform request⟩

private theorem Vacant.slots_size_perform (vacant : arena.Vacant free) (request : Request α) :
    (arena.perform request).2.slots.size = arena.slots.size + (request.demand - free.length) := by
  cases request with
  | insert value =>
    have before := vacant.size
    have after := (vacant.insert value).size
    rw [size_insert, List.length_tail] at after
    simp only [Arena.perform, Request.demand]
    omega
  | remove key => simpa [Arena.perform, Request.demand] using arena.slots_size_remove key
  | removeAt index => simpa [Arena.perform, Request.demand] using arena.slots_size_removeAt index
  | modify key change => simpa [Arena.perform, Request.demand] using arena.slots_size_modify key change
  | clear => simpa [Arena.perform, Request.demand] using arena.slots_size_clear

/-- Departures from a slot push out the earlier ones from the same slot. -/
private theorem dedup_append_of_nodup (history : List Nat) (distinct : gone.Nodup) :
    (history ++ gone).dedup = (history.dedup.filter fun index => index ∉ gone) ++ gone := by
  induction history with
  | nil => simp [distinct.dedup]
  | cons index rest ih =>
    by_cases later : index ∈ rest
    · simp [later, ih]
    · by_cases now : index ∈ gone <;> simp [later, now, ih]

/-- The vacant slots, in the reverse order of the last departures from them. -/
structure Stacked (arena : Arena α) (history free : List Nat) : Prop where
  vacant : arena.Vacant free
  recent : free.reverse.Sublist history.dedup
  inside : ∀ index ∈ history, index < arena.slots.size

namespace Stacked

private theorem empty : ({} : Arena α).Stacked [] [] := ⟨.empty, .slnil, by simp⟩

private theorem perform (stacked : arena.Stacked history free) (request : Request α) :
    (arena.perform request).2.Stacked (history ++ arena.vacated request)
      ((arena.vacated request).reverse ++ free.drop request.demand) where
  vacant := stacked.vacant.perform request
  recent := by
    -- What was vacant before is not vacated now, so none of it is pushed out.
    have apart : ∀ index ∈ (free.drop request.demand).reverse, index ∉ arena.vacated request := by
      intro index listed gone
      have vacant := List.mem_of_mem_drop (List.mem_reverse.mp listed)
      have held := isSome_of_vacates (List.mem_filter.mp gone).2
      simp [((stacked.vacant.listed index).mp vacant).2] at held
    have left : (free.drop request.demand).reverse.Sublist history.dedup :=
      (List.drop_sublist _ _).reverse.trans stacked.recent
    have kept := left.filter fun index => decide (index ∉ arena.vacated request)
    rw [List.filter_eq_self.mpr (by simpa using apart)] at kept
    rw [dedup_append_of_nodup history (arena.vacated_nodup request), List.reverse_append,
      List.reverse_reverse]
    exact kept.append_right _
  inside := by
    intro index listed
    rw [stacked.vacant.slots_size_perform]
    rcases List.mem_append.mp listed with earlier | now
    · exact Nat.lt_add_right _ (stacked.inside index earlier)
    · exact Nat.lt_add_right _ (List.mem_range.mp (List.mem_filter.mp now).1)

theorem run (stacked : arena.Stacked history free) (requests : List (Request α)) :
    ∃ now, (arena.run requests).2.Stacked (history ++ arena.departures requests) now := by
  induction requests generalizing arena history free with
  | nil => exact ⟨free, by simpa [Arena.run, departures] using stacked⟩
  | cons request rest ih =>
    obtain ⟨now, later⟩ := ih (stacked.perform request)
    rw [List.append_assoc] at later
    exact ⟨now, later⟩

private theorem latest_eq (stacked : arena.Stacked history free) : arena.latest history = free := by
  have empty : ∀ index ∈ free.reverse, (arena.getAt? index).isNone = true := by
    intro index listed
    simp [((stacked.vacant.listed index).mp (List.mem_reverse.mp listed)).2]
  have within := stacked.recent.filter fun index => (arena.getAt? index).isNone
  rw [List.filter_eq_self.mpr empty] at within
  have all : (history.dedup.filter fun index => (arena.getAt? index).isNone) ⊆ free.reverse := by
    intro index listed
    obtain ⟨seen, absent⟩ := List.mem_filter.mp listed
    have inside := stacked.inside index (List.mem_dedup.mp seen)
    exact List.mem_reverse.mpr ((stacked.vacant.listed index).mpr ⟨inside, by simpa using absent⟩)
  have fits := (List.subperm_of_subset (history.nodup_dedup.filter _) all).length_le
  rw [latest, ← within.eq_of_length_le fits, List.reverse_reverse]

end Stacked

theorem Vacant.takes (vacant : arena.Vacant free) (value : α) : arena.Takes free value where
  slot := by
    cases free with
    | nil =>
      have ends : arena.freeHead = none := vacant.chain
      simp [Arena.insert, Arena.vacancy?, ends]
    | cons index rest =>
      obtain ⟨begins, generation, next, held, _⟩ := vacant.chain
      simp [Arena.insert, Arena.vacancy?, begins, held]
  growth := by
    have grown := vacant.slots_size_perform (.insert value)
    cases free <;> simpa [Arena.perform, Request.demand] using grown
  rest := vacant.insert value
  unheld := arena.entryAt?_of_insert value
  kept := by
    intro index entry held
    have apart : index ≠ (arena.insert value).1.index := by
      rintro rfl
      rw [entryAt?_of_insert] at held
      cases held
    rw [entryAt?_insert, if_neg apart, held]

private theorem slots_removeAt_of_ne (arena : Arena α) {other : Nat} (apart : other ≠ index) :
    (arena.removeAt index).2.slots[other]? = arena.slots[other]? := by
  unfold removeAt
  split
  · exact Array.getElem?_setIfInBounds_ne apart.symm
  · rfl

private theorem slots_vacateAll (indices : List Nat) (absent : arena.getAt? index = none) :
    (indices.foldl (fun arena index => (arena.removeAt index).2) arena).slots[index]? =
      arena.slots[index]? := by
  induction indices generalizing arena with
  | nil => rfl
  | cons first rest ih =>
    rw [List.foldl_cons]
    by_cases same : index = first
    · subst same
      rw [removeAt_of_absent absent]
      exact ih absent
    · have still : (arena.removeAt first).2.getAt? index = none := by
        rw [getAt?_removeAt, if_neg same, absent]
      rw [ih still, arena.slots_removeAt_of_ne same]

theorem Vacant.clears (vacant : arena.Vacant free) : arena.Clears free where
  vacant := vacant.clear
  moved := by
    intro index generation value held
    have seen : arena.getAt? index = some value := by simp [getAt?, entryAt?, held]
    have listed : index ∈ arena.occupied.reverse ++ free := by
      have inside := List.mem_range.mpr (lt_size_of_getAt? seen)
      simp [occupied, seen, inside]
    obtain ⟨current, next, now⟩ := vacant.clear.chain.slot_of_mem listed
    have moved := arena.generationAt_clear index
    simp only [generationAt, now, held, seen, Option.map_some, Option.getD_some,
      Option.isSome_some, if_true] at moved
    exact ⟨next, moved ▸ now⟩
  untouched := fun index absent => slots_vacateAll _ absent

private theorem Vacant.length_occupied (vacant : arena.Vacant free) :
    arena.occupied.length = arena.size := by
  have listed : arena.toList.map (·.1.index) = arena.occupied := arena.toList_eq
  rw [← listed, List.length_map, Sound.length_toList ⟨free, vacant⟩]

private theorem run_append (arena : Arena α) (earlier later : List (Request α)) :
    (arena.run (earlier ++ later)).2 = ((arena.run earlier).2.run later).2 := by
  induction earlier generalizing arena with
  | nil => rfl
  | cons request rest ih => exact ih _

theorem Sound.run (sound : arena.Sound) (requests : List (Request α)) :
    (arena.run requests).2.Sound := by
  induction requests generalizing arena with
  | nil => exact sound
  | cons request rest ih => exact ih (sound.perform request)

private theorem Sound.slots_size_le_run (sound : arena.Sound) (requests : List (Request α)) :
    arena.slots.size ≤ (arena.run requests).2.slots.size := by
  induction requests generalizing arena with
  | nil => exact Nat.le_refl _
  | cons request rest ih =>
    obtain ⟨free, vacant⟩ := sound
    have step := vacant.slots_size_perform request
    have later := ih (Sound.perform ⟨free, vacant⟩ request)
    exact Nat.le_trans (by omega) later

private theorem Vacant.full_of_grown (vacant : arena.Vacant free) {request : Request α}
    (grown : (arena.perform request).2.slots.size ≠ arena.slots.size) :
    (arena.perform request).2.size = (arena.perform request).2.slots.size := by
  have step := vacant.slots_size_perform request
  cases request with
  | insert value =>
    cases free with
    | nil => exact (vacant.insert value).size
    | cons index rest => exact absurd (by simpa [Request.demand] using step) grown
  | remove | removeAt | modify | clear =>
    exact absurd (by simpa [Request.demand] using step) grown

private theorem Sound.exists_full_run (sound : arena.Sound) (requests : List (Request α)) :
    (arena.run requests).2.slots.size = arena.slots.size ∨
      ∃ earlier, earlier <+: requests ∧
        (arena.run earlier).2.size = (arena.run requests).2.slots.size := by
  induction requests generalizing arena with
  | nil => exact .inl rfl
  | cons request rest ih =>
    rcases ih (sound.perform request) with same | ⟨earlier, within, full⟩
    · by_cases grown : (arena.perform request).2.slots.size = arena.slots.size
      · exact .inl (same.trans grown)
      · obtain ⟨free, vacant⟩ := sound
        have full := vacant.full_of_grown grown
        exact .inr ⟨[request], ⟨rest, rfl⟩, full.trans same.symm⟩
    · exact .inr ⟨request :: earlier, List.cons_prefix_cons.mpr ⟨rfl, within⟩, full⟩

theorem isGreatest_populations (requests : List (Request α)) :
    IsGreatest (({} : Arena α).populations requests)
      (({} : Arena α).run requests).2.slots.size := by
  have counted : ∀ requests, (({} : Arena α).run requests).2.occupied.length =
      (({} : Arena α).run requests).2.size := by
    intro requests
    obtain ⟨free, vacant⟩ := Sound.empty.run requests
    exact vacant.length_occupied
  constructor
  · rcases Sound.empty.exists_full_run requests with same | ⟨earlier, within, full⟩
    · exact ⟨[], List.nil_prefix, same.symm⟩
    · exact ⟨earlier, within, (counted earlier).trans full⟩
  · rintro count ⟨earlier, ⟨later, rfl⟩, rfl⟩
    obtain ⟨free, vacant⟩ := Sound.empty.run earlier
    have size := vacant.size
    have grown := (Sound.empty.run earlier).slots_size_le_run later
    rw [counted, run_append]
    omega

/-- At each point of a run that begins with an empty arena, the links lead through the vacant
slots, each once, back from the one that was vacated last. The arena counts the occupied slots and
lists as many values. An insertion takes the first of the vacant slots and grows the arena only if
there is none, so there are as many slots as there ever were values at once. Clearing puts the
occupied slots on top, the highest first, and moves them on by one generation. -/
theorem free_list_is_stack (requests : List (Request α)) :
    let last := (({} : Arena α).run requests).2
    let free := last.latest (({} : Arena α).departures requests)
    last.Vacant free ∧
    (last.occupied.length = last.size ∧ last.toList.length = last.size) ∧
    (∀ value, last.Takes free value) ∧
    IsGreatest (({} : Arena α).populations requests) last.slots.size ∧
    last.Clears free := by
  intro last free
  obtain ⟨now, stacked⟩ := Stacked.empty.run requests
  have vacant : last.Vacant free := by
    have told : free = now := stacked.latest_eq
    exact told ▸ stacked.vacant
  exact ⟨vacant, ⟨vacant.length_occupied, Sound.length_toList ⟨free, vacant⟩⟩, vacant.takes,
    isGreatest_populations requests, vacant.clears⟩

/-- The slots 3 and 1 are left vacant, in this order, after 0 has been taken again. -/
theorem free_list_is_stack_reused :
    let requests : List (Request Nat) := [.insert 5, .insert 6, .insert 7, .insert 8, .removeAt 1,
      .removeAt 0, .insert 9, .remove ⟨3, 0⟩, .removeAt 0, .insert 10]
    let last := (({} : Arena Nat).run requests).2
    ({} : Arena Nat).departures requests = [1, 0, 3, 0] ∧ last.Vacant [3, 1] ∧
    (last.insert 11).1 = ⟨3, 1⟩ ∧ (last.insert 11).2.Vacant [1] ∧ last.clear.Vacant [2, 0, 3, 1] ∧
    IsGreatest (({} : Arena Nat).populations requests) 4 := by
  intro requests last
  have departures : ({} : Arena Nat).departures requests = [1, 0, 3, 0] := by decide
  have free : last.latest [1, 0, 3, 0] = [3, 1] := by decide
  obtain ⟨vacant, _, takes, greatest, clears⟩ := free_list_is_stack requests
  rw [departures, free] at vacant takes clears
  exact ⟨departures, vacant, by decide, (takes 11).rest, clears.vacant, greatest⟩

end Timers.Arena
