/-! An arena keeps values in numbered slots and hands out keys to them. A slot's
generation moves on when its value leaves, so a key never finds a later value of the same
slot. Vacant slots form a list through the slots themselves and are used again, the last
vacated first, before the arena grows. -/

namespace Timers

namespace Arena

/-- A slot and the generation in which a value was put there. -/
structure Key where
  index : Nat
  generation : UInt32
  deriving DecidableEq, Repr

def Key.text (key : Key) : String := s!"{key.index}v{key.generation.toNat}"

inductive Content (α : Type u) where
  | occupied (value : α)
  | vacant (next : Option Nat)

structure Slot (α : Type u) where
  generation : UInt32
  content : Content α

def Slot.map (change : α → α) (slot : Slot α) : Slot α :=
  match slot.content with
  | .occupied value => { slot with content := .occupied (change value) }
  | .vacant _ => slot

end Arena

structure Arena (α : Type u) where
  slots : Array (Arena.Slot α) := #[]
  freeHead : Option Nat := none
  size : Nat := 0

namespace Arena

variable {α : Type u}

/-- The value in a slot, under the key that finds it now. -/
def entryAt? (arena : Arena α) (index : Nat) : Option (Key × α) :=
  match arena.slots[index]? with
  | some ⟨generation, .occupied value⟩ => some (⟨index, generation⟩, value)
  | _ => none

def getAt? (arena : Arena α) (index : Nat) : Option α :=
  (arena.entryAt? index).map (·.2)

def keyAt? (arena : Arena α) (index : Nat) : Option Key :=
  (arena.entryAt? index).map (·.1)

def get? (arena : Arena α) (key : Key) : Option α :=
  match arena.entryAt? key.index with
  | some (current, value) => if current = key then some value else none
  | none => none

def contains (arena : Arena α) (key : Key) : Bool :=
  (arena.get? key).isSome

/-- The slot at the head of the free list: its index, its generation and the slot after it. -/
def vacancy? (arena : Arena α) : Option (Nat × UInt32 × Option Nat) :=
  match arena.freeHead with
  | none => none
  | some index =>
    match arena.slots[index]? with
    | some ⟨generation, .vacant next⟩ => some (index, generation, next)
    | _ => none

def insert (arena : Arena α) (value : α) : Key × Arena α :=
  match arena.vacancy? with
  | some (index, generation, next) =>
    (⟨index, generation⟩,
      { slots := arena.slots.setIfInBounds index ⟨generation, .occupied value⟩
        freeHead := next
        size := arena.size + 1 })
  | none =>
    (⟨arena.slots.size, 0⟩,
      { arena with
        slots := arena.slots.push ⟨0, .occupied value⟩
        size := arena.size + 1 })

/-- Vacates a slot, whatever the generation of its value. -/
def removeAt (arena : Arena α) (index : Nat) : Option α × Arena α :=
  match arena.slots[index]? with
  | some ⟨generation, .occupied value⟩ =>
    (some value,
      { slots := arena.slots.setIfInBounds index ⟨generation + 1, .vacant arena.freeHead⟩
        freeHead := some index
        size := arena.size - 1 })
  | _ => (none, arena)

def remove (arena : Arena α) (key : Key) : Option α × Arena α :=
  if arena.contains key then arena.removeAt key.index else (none, arena)

def modifyAt (arena : Arena α) (index : Nat) (change : α → α) : Arena α :=
  { arena with slots := arena.slots.modify index (Slot.map change) }

def modify (arena : Arena α) (key : Key) (change : α → α) : Arena α :=
  if arena.contains key then arena.modifyAt key.index change else arena

/-- Vacates every slot in ascending order, so the highest is used again first. -/
def clear (arena : Arena α) : Arena α :=
  (List.range arena.slots.size).foldl (fun arena index => (arena.removeAt index).2) arena

/-- The values with their keys, in the order of the slots. -/
def toList (arena : Arena α) : List (Key × α) :=
  (List.range arena.slots.size).filterMap arena.entryAt?

theorem get?_eq_some_iff {arena : Arena α} {key : Key} {value : α} :
    arena.get? key = some value ↔ arena.entryAt? key.index = some (key, value) := by
  unfold get?
  split
  next current found =>
    constructor
    · intro resolved
      split at resolved
      next same => simp_all
      next => contradiction
    · intro resolved
      simp_all
  next => simp_all

theorem contains_iff {arena : Arena α} {key : Key} :
    arena.contains key = true ↔ ∃ value, arena.get? key = some value := by
  simp [contains, Option.isSome_iff_exists]

end Arena

end Timers
