import Mathlib.Data.List.Nodup
import Mathlib.Data.Multiset.Defs
import Timers.Proofs.Resemblance

/-! Programs that name timers by numbers. The number of a timer is how many have been added
before it, so such a program cannot tell ids that have been issued from others. It is carried
out on a system that keeps the list of the ids beside the shared value. -/

namespace Timers

variable {H D W α : Type}

/-- A request that names timers by their numbers. -/
inductive Order (H D W : Type) where
  | summary
  | timers
  | timer (number : Nat)
  | add (handler : H) (data : D)
  | start (number : Nat) (delay : UInt64) (periodic : Bool)
  | stop (number : Nat)
  | remove (number : Nat)
  | rebind (number : Nat) (handler : H)
  | setPeriod (number : Nat) (period : UInt64)
  | modifyData (number : Nat) (change : D → D)
  | reset
  | advance
  | shared (change : W → W)

/-- What an order is answered with. The order in which timers are listed is not told. -/
inductive Answer (D W : Type) where
  | unnamed
  | summary (overall : Summary) (next : Option Nat)
  | timers (numbers : Multiset Nat)
  | timer (view : Option (TimerView D))
  | told (told : Told Nat D)
  | advanced (outcome : Except (Refusal Nat) (List (Nat × Tick × Tick)))
  | shared (before : W)

/-- The request that an order stands for, unless nobody has the number that it names. -/
def Order.request? (issued : List TimerId) :
    Order H D W → Option (Request H D (W × List TimerId))
  | .summary => some (.query .summary)
  | .timers => some (.query .timers)
  | .timer number => (issued[number]?).map fun id => .query (.timer id)
  | .add handler data => some (.command (.add handler data))
  | .start number delay periodic =>
    (issued[number]?).map fun id => .command (.start id delay periodic)
  | .stop number => (issued[number]?).map fun id => .command (.stop id)
  | .remove number => (issued[number]?).map fun id => .command (.remove id)
  | .rebind number handler => (issued[number]?).map fun id => .command (.rebind id handler)
  | .setPeriod number period => (issued[number]?).map fun id => .command (.setPeriod id period)
  | .modifyData number change => (issued[number]?).map fun id => .command (.modifyData id change)
  | .reset => some (.command .reset)
  | .advance => some .advance
  | .shared change => some (.shared fun (value, issued) => (change value, issued))

/-- The id that is issued with the reply to a request. -/
def Request.issues : (operation : Request H D W) → operation.Reply → List TimerId
  | .command (.add ..), id => [id]
  | _, _ => []

def Firing.numbered (issued : List TimerId) (firing : Firing) : Nat × Tick × Tick :=
  (issued.idxOf firing.timer, firing.tick, firing.expiry)

/-- The reply to a request with numbers for ids. -/
def Request.answer (issued : List TimerId) :
    (operation : Request H D (W × List TimerId)) → operation.Reply → Answer D W
  | .query .summary, (summary : Summary) =>
    .summary { summary with nextTimer := none } (summary.nextTimer.map issued.idxOf)
  | .query .timers, (ids : List TimerId) => .timers (ids.map issued.idxOf)
  | .query (.timer _), view => .timer view
  | .command given, reply => .told (given.told issued.idxOf reply)
  | .advance, .ok firings => .advanced (.ok (firings.map (Firing.numbered issued)))
  | .advance, .error error => .advanced (.error (error.refusal issued.idxOf))
  | .shared _, (before, _) => .shared before

inductive Errand (H D W α : Type) where
  | done (value : α)
  | order (wanted : Order H D W) (next : Answer D W → Errand H D W α)

/-- An errand is carried out request by request. An id that is issued is put on the list. -/
def Errand.program : Errand H D W α → Program H D (W × List TimerId) α
  | .done value => .done value
  | .order wanted next =>
    .request (.shared fun value => value) fun (_, issued) =>
      match wanted.request? issued with
      | none => (next .unnamed).program
      | some operation =>
        .request operation fun reply =>
          let issues := operation.issues reply
          .request (.shared fun (value, issued) => (value, issued ++ issues)) fun (_, issued) =>
            (next (operation.answer (issued ++ issues) reply)).program

/-- Handlers that run errands and know their timers by numbers. -/
def Errand.reaction (react : H → Nat → D → Errand H D W (H × D)) :
    Reaction H D (W × List TimerId) := fun handler id data =>
  .request (.shared fun value => value) fun (_, issued) => (react handler (issued.idxOf id) data).program

/-- Timers that have the same number, each on its own list. -/
def Numbered (issued issued' : List TimerId) (id other : TimerId) : Prop :=
  ∃ number : Nat, issued[number]? = some id ∧ issued'[number]? = some other

section Numbers

variable {issued issued' more more' : List TimerId} {id other : TimerId}

private theorem idxOf_of_getElem? (single : issued.Nodup) {number : Nat}
    (found : issued[number]? = some id) : issued.idxOf id = number := by
  obtain ⟨inside, rfl⟩ := List.getElem?_eq_some_iff.mp found
  exact single.idxOf_getElem number inside

theorem Numbered.idxOf (numbered : Numbered issued issued' id other) (single : issued.Nodup)
    (single' : issued'.Nodup) : issued.idxOf id = issued'.idxOf other := by
  obtain ⟨number, found, found'⟩ := numbered
  rw [idxOf_of_getElem? single found, idxOf_of_getElem? single' found']

theorem Numbered.grow (numbered : Numbered issued issued' id other) :
    Numbered (issued ++ more) (issued' ++ more') id other := by
  obtain ⟨number, found, found'⟩ := numbered
  have inside := (List.getElem?_eq_some_iff.mp found).1
  have inside' := (List.getElem?_eq_some_iff.mp found').1
  exact ⟨number, by rw [List.getElem?_append_left inside, found],
    by rw [List.getElem?_append_left inside', found']⟩

theorem numbered_of_mem (length : issued.length = issued'.length) (member : id ∈ issued) :
    ∃ other, Numbered issued issued' id other := by
  obtain ⟨number, found⟩ := List.mem_iff_getElem?.mp member
  have inside := (List.getElem?_eq_some_iff.mp found).1
  exact ⟨issued'[number], number, found, List.getElem?_eq_getElem (length ▸ inside)⟩

theorem Numbered.mem (numbered : Numbered issued issued' id other) :
    id ∈ issued ∧ other ∈ issued' := by
  obtain ⟨number, found, found'⟩ := numbered
  exact ⟨List.mem_of_getElem? found, List.mem_of_getElem? found'⟩

theorem numbered_snoc_iff (length : issued.length = issued'.length) {new new' : TimerId} :
    Numbered (issued ++ [new]) (issued' ++ [new']) id other ↔
      Numbered issued issued' id other ∨ id = new ∧ other = new' := by
  constructor
  · rintro ⟨number, found, found'⟩
    rcases Nat.lt_or_ge number issued.length with inside | outside
    · rw [List.getElem?_append_left inside] at found
      rw [List.getElem?_append_left (length ▸ inside)] at found'
      exact .inl ⟨number, found, found'⟩
    · rw [List.getElem?_append_right outside] at found
      rw [List.getElem?_append_right (length ▸ outside)] at found'
      exact .inr ⟨List.mem_singleton.mp (List.mem_of_getElem? found),
        List.mem_singleton.mp (List.mem_of_getElem? found')⟩
  · rintro (numbered | ⟨rfl, rfl⟩)
    · exact numbered.grow
    · exact ⟨issued.length, by simp, by simp [length]⟩

private theorem numbers_perm (single : issued.Nodup) {chosen : List TimerId}
    (distinct : chosen.Nodup) (among : ∀ id ∈ chosen, id ∈ issued) :
    (chosen.map issued.idxOf).Perm
      ((List.range issued.length).filter fun number => (issued[number]?).any (· ∈ chosen)) := by
  have numbers : (chosen.map issued.idxOf).Nodup := by
    apply distinct.map_on
    intro id member other _ same
    exact (List.idxOf_inj (among id member)).mp same
  apply (List.perm_ext_iff_of_nodup numbers (List.nodup_range.filter _)).mpr
  intro number
  simp only [List.mem_map, List.mem_filter, List.mem_range, Option.any_eq_true, decide_eq_true_iff]
  constructor
  · rintro ⟨id, member, rfl⟩
    have inside := List.idxOf_lt_length_of_mem (among id member)
    exact ⟨inside, id, List.getElem?_idxOf (among id member), member⟩
  · rintro ⟨_, id, found, member⟩
    exact ⟨id, member, idxOf_of_getElem? single found⟩

theorem numbers_perm_of_alike (single : issued.Nodup) (single' : issued'.Nodup)
    (length : issued.length = issued'.length) {chosen chosen' : List TimerId}
    (distinct : chosen.Nodup) (distinct' : chosen'.Nodup) (among : ∀ id ∈ chosen, id ∈ issued)
    (among' : ∀ id ∈ chosen', id ∈ issued')
    (alike : ∀ {id other}, Numbered issued issued' id other → (id ∈ chosen ↔ other ∈ chosen')) :
    (chosen.map issued.idxOf).Perm (chosen'.map issued'.idxOf) := by
  apply (numbers_perm single distinct among).trans
  apply List.Perm.trans _ (numbers_perm single' distinct' among').symm
  rw [← length]
  apply List.Perm.of_eq
  apply List.filter_congr
  intro number member
  have inside := List.mem_range.mp member
  have found : issued[number]? = some issued[number] := List.getElem?_eq_getElem inside
  have found' : issued'[number]? = some issued'[number] := List.getElem?_eq_getElem (length ▸ inside)
  have same := alike ⟨number, found, found'⟩
  rw [found, found']
  simpa using same

end Numbers

end Timers
