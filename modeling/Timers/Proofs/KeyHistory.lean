import Timers.Proofs.ArenaKeys

/-! The history of a key. A slot goes on by one generation whenever its value leaves and by nothing
else, so its generation counts the removals from it, as far as generations can count. A key tells
the generation in which it was issued. So it finds its value until that value leaves, and after
that it could find another one of the same slot only when the count has come round. -/

namespace Timers.Arena

inductive Request (α : Type u) where
  | insert (value : α)
  | remove (key : Key)
  | removeAt (index : Nat)
  | modify (key : Key) (change : α → α)
  | clear

inductive Reply (α : Type u) where
  | issued (key : Key)
  | found (value : Option α)
  | done

def Reply.issued? {α : Type u} : Reply α → Option Key
  | .issued key => some key
  | _ => none

def Reply.found? {α : Type u} : Reply α → Option α
  | .found value => value
  | _ => none

/-- What becomes of the value of a key. -/
def Request.amend {α : Type u} (key : Key) (value : α) : Request α → α
  | .modify other change => if other = key then change value else value
  | _ => value

variable {α : Type u} {arena : Arena α} {key : Key} {value : α} {request : Request α}
  {requests earlier later : List (Request α)}

/-- A change is shown the value that it changes, if there is one. -/
def perform (arena : Arena α) : Request α → Reply α × Arena α
  | .insert value =>
    let (key, after) := arena.insert value
    (.issued key, after)
  | .remove key =>
    let (found, after) := arena.remove key
    (.found found, after)
  | .removeAt index =>
    let (found, after) := arena.removeAt index
    (.found found, after)
  | .modify key change => (.found (arena.get? key), arena.modify key change)
  | .clear => (.done, arena.clear)

def run (arena : Arena α) : List (Request α) → List (Reply α) × Arena α
  | [] => ([], arena)
  | request :: rest =>
    let (reply, next) := arena.perform request
    let (replies, last) := next.run rest
    (reply :: replies, last)

def issued (arena : Arena α) (requests : List (Request α)) : List Key :=
  (arena.run requests).1.filterMap Reply.issued?

/-- Whether a request takes the value of a slot out. -/
def vacates (arena : Arena α) (request : Request α) (index : Nat) : Bool :=
  match request with
  | .remove key => key.index = index && (arena.remove key).1.isSome
  | .removeAt other => other = index && (arena.removeAt other).1.isSome
  | .clear => (arena.getAt? index).isSome
  | .insert _ | .modify .. => false

def removals (arena : Arena α) (requests : List (Request α)) (index : Nat) : Nat :=
  match requests with
  | [] => 0
  | request :: rest =>
    (arena.vacates request index).toNat + (arena.perform request).2.removals rest index

/-- A key finds a value, whatever it is used for, exactly if something holds. -/
structure ResolvesIff (arena : Arena α) (key : Key) (holds : Prop) : Prop where
  contains : arena.contains key = true ↔ holds
  get : (arena.get? key).isSome = true ↔ holds
  modify : ∀ change, (arena.perform (.modify key change)).1.found?.isSome = true ↔ holds
  remove : (arena.remove key).1.isSome = true ↔ holds

private theorem removals_append (arena : Arena α) (earlier later : List (Request α)) (index : Nat) :
    arena.removals (earlier ++ later) index =
      arena.removals earlier index + (arena.run earlier).2.removals later index := by
  induction earlier generalizing arena with
  | nil => exact (Nat.zero_add _).symm
  | cons request rest ih =>
    simp only [List.cons_append, removals, ih, run]
    exact (Nat.add_assoc _ _ _).symm

private theorem removals_le_length (arena : Arena α) (requests : List (Request α)) (index : Nat) :
    arena.removals requests index ≤ requests.length := by
  induction requests generalizing arena with
  | nil => exact Nat.le_refl _
  | cons request rest ih =>
    have later := ih (arena.perform request).2
    have now := Bool.toNat_le (arena.vacates request index)
    simp only [removals, List.length_cons]
    omega

private theorem issued_cons (arena : Arena α) (request : Request α) (rest : List (Request α)) :
    arena.issued (request :: rest) =
      (arena.perform request).1.issued?.toList ++ (arena.perform request).2.issued rest := by
  have split : (arena.run (request :: rest)).1 =
      (arena.perform request).1 :: ((arena.perform request).2.run rest).1 := rfl
  rw [issued, split, List.filterMap_cons]
  cases (arena.perform request).1.issued? <;> rfl

private theorem exists_insert_of_mem_issued (listed : key ∈ arena.issued requests) :
    ∃ earlier value later, requests = earlier ++ .insert value :: later ∧
      key = ((arena.run earlier).2.insert value).1 := by
  induction requests generalizing arena with
  | nil => cases listed
  | cons request rest ih =>
    rw [issued_cons] at listed
    rcases List.mem_append.mp listed with now | next
    · cases request with
      | insert value => exact ⟨[], value, rest, rfl, List.mem_singleton.mp now⟩
      | remove | removeAt | modify | clear => cases now
    · obtain ⟨earlier, value, later, rfl, same⟩ := ih next
      exact ⟨request :: earlier, value, later, rfl, same⟩

private theorem generationAt_perform (arena : Arena α) (request : Request α) (index : Nat) :
    (arena.perform request).2.generationAt index =
      arena.generationAt index + UInt32.ofNat (arena.vacates request index).toNat := by
  cases request with
  | insert value => simp [perform, vacates, generationAt_insert]
  | remove key =>
    simp only [perform, vacates, remove_value]
    cases held : arena.get? key with
    | none =>
      have stale : arena.contains key = false := by simp [contains, held]
      simp [remove_of_not_contains stale]
    | some value =>
      by_cases same : key.index = index <;> simp [generationAt_remove held, same, Ne.symm]
  | removeAt other =>
    by_cases same : other = index
    · subst same
      cases seen : arena.getAt? other <;>
        simp [perform, vacates, generationAt_removeAt, removeAt_value, seen]
    · simp [perform, vacates, generationAt_removeAt, same, Ne.symm same]
  | modify key change => simp [perform, vacates, generationAt_modify]
  | clear =>
    cases seen : arena.getAt? index <;> simp [perform, vacates, generationAt_clear, seen]

private theorem generationAt_run (arena : Arena α) (requests : List (Request α)) (index : Nat) :
    (arena.run requests).2.generationAt index =
      arena.generationAt index + UInt32.ofNat (arena.removals requests index) := by
  induction requests generalizing arena with
  | nil => simp [run, removals]
  | cons request rest ih =>
    have step := generationAt_perform arena request index
    calc ((arena.perform request).2.run rest).2.generationAt index
      _ = (arena.perform request).2.generationAt index +
          UInt32.ofNat ((arena.perform request).2.removals rest index) := ih _
      _ = arena.generationAt index + UInt32.ofNat (arena.removals (request :: rest) index) := by
        rw [step, removals, UInt32.ofNat_add, UInt32.add_assoc]

/-- After a number of steps a generation is the same again if and only if they are whole rounds. -/
private theorem generation_add_eq_iff {generation : UInt32} {count : Nat} :
    generation + UInt32.ofNat count = generation ↔ UInt32.size ∣ count := by
  rw [UInt32.add_eq_left, ← UInt32.toNat_inj, UInt32.toNat_ofNat', Nat.dvd_iff_mod_eq_zero]
  rfl

private theorem contains_iff_generationAt :
    arena.contains key = true ↔
      (arena.getAt? key.index).isSome = true ∧ arena.generationAt key.index = key.generation := by
  constructor
  · intro held
    obtain ⟨value, found⟩ := contains_iff.mp held
    exact ⟨by simp [getAt?_of_get? found], generationAt_of_get? found⟩
  · rintro ⟨occupied, generation⟩
    obtain ⟨value, seen⟩ := Option.isSome_iff_exists.mp occupied
    obtain ⟨current, entry⟩ := getAt?_eq_some_iff.mp seen
    have index := index_of_entryAt? entry
    have found : arena.get? current = some value := get?_eq_some_iff.mpr (index ▸ entry)
    have same : current = key := by
      have told := generationAt_of_get? found
      dsimp only at index
      rw [index, generation] at told
      cases current
      cases key
      simp_all
    exact contains_iff.mpr ⟨value, same ▸ found⟩

/-- All that a key is used for agrees on whether it finds a value. -/
theorem resolvesIff {holds : Prop} (found : arena.contains key = true ↔ holds) :
    arena.ResolvesIff key holds :=
  ⟨found, found, fun _ => found, by rw [remove_value]; exact found⟩

private theorem get?_perform (held : arena.get? key = some value)
    (stays : arena.vacates request key.index = false) :
    (arena.perform request).2.get? key = some (request.amend key value) := by
  cases request with
  | insert other =>
    have apart : key ≠ (arena.insert other).1 := by
      intro same
      rw [get?_of_insert arena other (congrArg Key.index same)] at held
      cases held
    simp [perform, Request.amend, get?_insert, apart, held]
  | remove other =>
    have apart : key ≠ other := by
      rintro rfl
      simp [vacates, remove_value, held] at stays
    simp [perform, Request.amend, get?_remove, apart, held]
  | removeAt index =>
    have apart : key.index ≠ index := by
      rintro rfl
      simp [vacates, removeAt_value, getAt?_of_get? held] at stays
    simp [perform, Request.amend, get?_removeAt, apart, held]
  | modify other change =>
    by_cases same : other = key
    · subst same
      simp [perform, Request.amend, get?_modify, held]
    · simp [perform, Request.amend, get?_modify, same, Ne.symm same, held]
  | clear => simp [vacates, getAt?_of_get? held] at stays

theorem get?_run (held : arena.get? key = some value)
    (stays : arena.removals requests key.index = 0) :
    (arena.run requests).2.get? key =
      some (requests.foldl (fun value request => request.amend key value) value) := by
  induction requests generalizing arena value with
  | nil => exact held
  | cons request rest ih =>
    simp only [removals, Nat.add_eq_zero_iff, Bool.toNat_eq_zero] at stays
    exact ih (get?_perform held stays.1) stays.2

/-- The key of a value is issued again only after all generations of its slot have passed. -/
private theorem not_mem_issued (held : arena.get? key = some value)
    (few : arena.removals requests key.index < UInt32.size) : key ∉ arena.issued requests := by
  intro listed
  obtain ⟨earlier, other, later, rfl, again⟩ := exists_insert_of_mem_issued listed
  rw [removals_append] at few
  have vacant := get?_of_insert (arena.run earlier).2 other (congrArg Key.index again)
  have generation := generation_of_insert (arena.run earlier).2 other
  rw [← again, generationAt_run, generationAt_of_get? held, generation_add_eq_iff] at generation
  have none : arena.removals earlier key.index = 0 :=
    Nat.eq_zero_of_dvd_of_lt generation (by omega)
  rw [get?_run held none] at vacant
  cases vacant

theorem issued_nodup (few : ∀ index, arena.removals requests index < UInt32.size) :
    (arena.issued requests).Nodup := by
  induction requests generalizing arena with
  | nil => exact .nil
  | cons request rest ih =>
    have fewer : ∀ index, (arena.perform request).2.removals rest index < UInt32.size := fun index =>
      Nat.lt_of_le_of_lt (Nat.le_add_left _ _) (few index)
    rw [issued_cons]
    cases request with
    | insert value =>
      have absent := not_mem_issued (arena.get?_insert_self value) (fewer _)
      exact List.nodup_cons.mpr ⟨absent, ih fewer⟩
    | remove | removeAt | modify | clear => exact ih fewer

/-- A key that was issued finds a value later exactly if its slot is occupied and the removals from
the slot since then are whole rounds of its generations, of which there are `UInt32.size`. As long as there was none, it finds the
value that it was issued for, changed through the key and by nothing else. And if no slot comes
round in the run, no key is issued twice, and a key whose value has left never finds one again. -/
theorem keys_are_exact (earlier later : List (Request α)) (value : α) :
    let before := (({} : Arena α).run earlier).2
    let key := (before.insert value).1
    let last := ((before.insert value).2.run later).2
    let removed := (before.insert value).2.removals later key.index
    last.ResolvesIff key ((last.getAt? key.index).isSome = true ∧ UInt32.size ∣ removed) ∧
    (removed = 0 → last.get? key =
      some (later.foldl (fun value request => request.amend key value) value)) ∧
    ((∀ index, ({} : Arena α).removals (earlier ++ .insert value :: later) index < UInt32.size) →
      (({} : Arena α).issued (earlier ++ .insert value :: later)).Nodup ∧
      (last.contains key = true ↔ removed = 0)) := by
  intro before key last removed
  have held : (before.insert value).2.get? key = some value := before.get?_insert_self value
  have resolves : last.contains key = true ↔
      (last.getAt? key.index).isSome = true ∧ UInt32.size ∣ removed := by
    rw [contains_iff_generationAt, generationAt_run, generationAt_of_get? held,
      generation_add_eq_iff]
  refine ⟨resolvesIff resolves, get?_run held, fun few => ⟨issued_nodup few, ?_⟩⟩
  have bound := few key.index
  rw [removals_append] at bound
  constructor
  · intro found
    have rounds := (resolves.mp found).2
    have less : removed < UInt32.size :=
      Nat.lt_of_le_of_lt (Nat.le_trans (Nat.le_add_left _ _) (Nat.le_add_left _ _)) bound
    exact Nat.eq_zero_of_dvd_of_lt rounds less
  · intro none
    exact contains_iff.mpr ⟨_, get?_run held none⟩

/-- The second key of a slot finds its value, changed, when the first does so no longer. -/
theorem keys_are_exact_reused :
    let requests : List (Request Nat) := [.insert 5, .remove ⟨0, 0⟩, .insert 7,
      .modify ⟨0, 1⟩ (· + 1), .insert 9, .removeAt 1]
    let last := (({} : Arena Nat).run requests).2
    (∀ index, ({} : Arena Nat).removals requests index < UInt32.size) ∧
    (({} : Arena Nat).issued requests).Nodup ∧
    last.get? ⟨0, 1⟩ = some 8 ∧ last.contains ⟨0, 0⟩ = false := by
  intro requests last
  have few : ∀ index, ({} : Arena Nat).removals requests index < UInt32.size := fun index =>
    Nat.lt_of_le_of_lt (removals_le_length _ requests index) (by decide)
  have first := keys_are_exact [] requests.tail 5
  have second := keys_are_exact [.insert 5, .remove ⟨0, 0⟩]
    [.modify ⟨0, 1⟩ (· + 1), .insert 9, .removeAt 1] 7
  have lapsed : last.contains ⟨0, 0⟩ ≠ true := fun found =>
    absurd ((first.2.2 few).2.mp found) (by decide)
  exact ⟨few, (second.2.2 few).1, second.2.1 (by decide), by simpa using lapsed⟩

end Timers.Arena
