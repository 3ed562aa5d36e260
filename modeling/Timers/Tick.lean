/-! Ticks are counted in 64 bits and never wrap. A delay that would lead past the last
tick leads to the last tick, and the counter itself refuses to leave it. -/

namespace Timers

abbrev Tick := UInt64

namespace Tick

def last : Tick := 18446744073709551615

/-- The tick a delay from now, the last tick at most. -/
def after (tick : Tick) (delay : UInt64) : Tick :=
  if tick.toNat + delay.toNat < UInt64.size then tick + delay else last

/-- The following tick; the last one has none. -/
def next? (tick : Tick) : Option Tick :=
  if tick = last then none else some (tick + 1)

/-- Ticks left before one that is due, none when it has come. -/
def untilDue (tick due : Tick) : UInt64 :=
  if due ≤ tick then 0 else due - tick

theorem toNat_last : last.toNat = 18446744073709551615 := rfl

theorem toNat_le_last (tick : Tick) : tick.toNat ≤ last.toNat := by
  have bound := tick.toNat_lt
  rw [toNat_last]
  omega

theorem toNat_after (tick : Tick) (delay : UInt64) :
    (after tick delay).toNat = min (tick.toNat + delay.toNat) last.toNat := by
  unfold after
  split
  next fits =>
    have bound : tick.toNat + delay.toNat < 2 ^ 64 := fits
    rw [UInt64.toNat_add, Nat.mod_eq_of_lt bound, toNat_last]
    omega
  next passes =>
    have bound : ¬ tick.toNat + delay.toNat < 2 ^ 64 := passes
    rw [toNat_last]
    omega

theorem le_after (tick : Tick) (delay : UInt64) : tick ≤ after tick delay := by
  have bound := toNat_le_last tick
  rw [UInt64.le_iff_toNat_le, toNat_after]
  omega

theorem next?_eq_none_iff {tick : Tick} : next? tick = none ↔ tick = last := by
  unfold next?
  split <;> simp_all

theorem next?_of_ne {tick : Tick} (inside : tick ≠ last) : next? tick = some (tick + 1) :=
  if_neg inside

theorem eq_of_next? {tick following : Tick} (found : next? tick = some following) :
    following = tick + 1 := by
  unfold next? at found
  split at found
  · contradiction
  · exact (Option.some.inj found).symm

theorem toNat_of_next? {tick following : Tick} (found : next? tick = some following) :
    following.toNat = tick.toNat + 1 := by
  unfold next? at found
  split at found
  · contradiction
  next inside =>
    have apart : tick.toNat ≠ last.toNat := fun same => inside (UInt64.toNat_inj.mp same)
    have bound := toNat_le_last tick
    rw [toNat_last] at apart bound
    rw [← Option.some.inj found, UInt64.toNat_add]
    simp
    omega

end Tick

end Timers
