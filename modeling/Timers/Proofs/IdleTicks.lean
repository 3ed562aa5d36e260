import Timers.Proofs.Termination
import Timers.Proofs.Summaries

/-! Idle ticks can be skipped. Between advances nothing on the schedule is overdue, so the views
tell how many ticks go by before anything is due. Advances through them run no handler and change
nothing but the tick, and the one after them begins with the timer that was named before. -/

namespace Timers

variable {H D W : Type}

namespace System

def atTick (system : System H D W) (tick : Tick) : System H D W :=
  { system with scheduler := { system.scheduler with tick } }

/-- So many advances run no handler and change nothing but the tick. -/
def PassesTo (react : Reaction H D W) (system : System H D W) (ticks : Nat) (tick : Tick) : Prop :=
  ∀ fuel, system.run react (fuel + 1) (Program.advanceTicks ticks) = some ([], system.atTick tick)

section Idle

variable {react : Reaction H D W} {fuel : Nat} {system final : System H D W}
  {arming : Arming} {turn : UInt64}

private theorem advanceTick_idle (tied : system.scheduler.Tied)
    (idle : system.scheduler.dispatching = false) (inside : system.scheduler.tick ≠ .last)
    (ahead : ∀ arming turn, system.scheduler.Queued arming turn →
      system.scheduler.tick + 1 < arming.expiry) :
    system.run react (fuel + 1) Program.advanceTick =
      some ([], system.atTick (system.scheduler.tick + 1)) := by
  let begun : Scheduler H D :=
    { system.scheduler with tick := system.scheduler.tick + 1, dispatching := true }
  have begins : system.scheduler.beginAdvance = .ok begun :=
    Scheduler.beginAdvance_of_idle idle inside
  have tied' : begun.Tied := tied.congr rfl rfl
  have nothing : begun.popDue? = none := tied'.popDue?_of_ahead ahead
  have ends : begun.endAdvance = (system.atTick (system.scheduler.tick + 1)).scheduler := by
    simp only [begun, Scheduler.endAdvance, atTick, ← idle]
  rw [run_advanceTick, tryAdvance_of_begins begins, drain_of_idle nothing, Option.map_some]
  dsimp only
  rw [ends]
  rfl

private theorem PassesTo.after {next tick : Tick} {ticks : Nat}
    (first : ∀ fuel, system.run react (fuel + 1) Program.advanceTick = some ([], system.atTick next))
    (rest : (system.atTick next).PassesTo react ticks tick) :
    system.PassesTo react (ticks + 1) tick := by
  intro fuel
  rw [run_advanceTicks_succ, first fuel, Option.bind_some]
  dsimp only
  rw [rest fuel]
  rfl

/-- Ticks that come before everything on the schedule pass without any handler. At the last tick
the advances are refused. -/
theorem passes (tied : system.scheduler.Tied) (idle : system.scheduler.dispatching = false)
    {ticks : Nat} (ahead : ∀ arming turn, system.scheduler.Queued arming turn →
      system.scheduler.tick.toNat + ticks < arming.expiry.toNat) :
    ∃ tick : Tick, tick.toNat = min (system.scheduler.tick.toNat + ticks) Tick.last.toNat ∧
      system.PassesTo react ticks tick := by
  induction ticks generalizing system with
  | zero =>
    have bound := system.scheduler.tick.toNat_le_last
    exact ⟨system.scheduler.tick, by omega, fun _ => rfl⟩
  | succ ticks ih =>
    by_cases ended : system.scheduler.tick = .last
    · have refused : ∀ fuel, system.run react (fuel + 1) Program.advanceTick =
          some ([], system.atTick system.scheduler.tick) := by
        intro fuel
        rw [run_advanceTick, tryAdvance_at_last idle ended]
        rfl
      obtain ⟨tick, reached, rest⟩ := ih tied idle fun arming turn queued => by
        have later := ahead arming turn queued
        omega
      exact ⟨tick, by rw [ended] at reached ⊢; omega, rest.after refused⟩
    · let next := system.atTick (system.scheduler.tick + 1)
      have moved : next.scheduler.tick.toNat = system.scheduler.tick.toNat + 1 :=
        Tick.toNat_of_next? (Tick.next?_of_ne ended)
      obtain ⟨tick, reached, rest⟩ := @ih next (tied.congr rfl rfl) idle fun arming turn queued => by
        have later := ahead arming turn queued
        omega
      have now : ∀ arming turn, system.scheduler.Queued arming turn →
          next.scheduler.tick < arming.expiry := by
        intro arming turn queued
        have later := ahead arming turn queued
        rw [UInt64.lt_iff_toNat_lt]
        omega
      exact ⟨tick, by omega, rest.after fun _ => advanceTick_idle tied idle ended now⟩

end Idle

section Busy

variable {react : Reaction H D W} {nested : Nat} {system begun ended : System H D W}
  {popped : Scheduler H D} {arming : Arming} {turn : UInt64} {firing : Firing}
  {body : List (Step H D)} {handler : H} {data : D}

section First

variable {fuel : Nat} {first : Scheduler H D} {after : System H D W}
  (begins : system.scheduler.beginAdvance = .ok first)
  (due : first.popDue? = some (arming, turn, popped))

include begins due

end First

end Busy

end System

end Timers
