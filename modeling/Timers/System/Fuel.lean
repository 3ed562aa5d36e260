import Timers.System.Loop

/-! An advance that has a result keeps it when more entries may be handled. So a result
depends on the system and the handlers only, and the bound decides no more than whether
there is one. -/

namespace Timers

variable {H D W α : Type}

namespace Advance

/-- The second way to advance has every result that the first one has. -/
def Extends (first second : Advance H D W) : Prop :=
  ∀ system result, first system = some result → second system = some result

end Advance

theorem System.perform_extends {first second : Advance H D W} (wider : first.Extends second)
    {system after : System H D W} {operation : Request H D W} {reply : operation.Reply}
    (performed : system.perform first operation = some (reply, after)) :
    system.perform second operation = some (reply, after) := by
  cases operation with
  | query asked => exact performed
  | command given => exact performed
  | advance => exact wider system (reply, after) performed
  | shared change => exact performed

theorem Program.run_extends {first second : Advance H D W} (wider : first.Extends second)
    {program : Program H D W α} {system final : System H D W} {value : α}
    (finished : program.run first system = some (value, final)) :
    program.run second system = some (value, final) := by
  induction program generalizing system with
  | done _ => exact finished
  | request operation rest ih =>
    rw [run] at finished ⊢
    split at finished
    · cases finished
    next reply after performed =>
      rw [System.perform_extends wider performed]
      exact ih reply finished

namespace System

theorem dispatch_extends {react : Reaction H D W} {first second : Advance H D W}
    (wider : first.Extends second) {arming : Arming} {turn : UInt64}
    {system final : System H D W} {firing : Option Firing}
    (finished : dispatch react first arming turn system = some (firing, final)) :
    dispatch react second arming turn system = some (firing, final) := by
  cases lends : system.scheduler.lend arming.timer with
  | mk given lent =>
    cases given with
    | none =>
      rw [dispatch_of_missing lends] at finished ⊢
      exact finished
    | some given =>
      rw [dispatch_of_lends lends] at finished ⊢
      obtain ⟨⟨ended, ran⟩, made, same⟩ := Option.map_eq_some_iff.mp finished
      rw [Program.run_extends wider made]
      exact congrArg some same

theorem drain_extends {react : Reaction H D W} {first second : Advance H D W}
    (wider : first.Extends second) {fuel more : Nat} (enough : fuel ≤ more)
    {system final : System H D W} {firings : List Firing}
    (finished : drain react first fuel system = some (firings, final)) :
    drain react second more system = some (firings, final) := by
  rw [← drained_iff] at finished ⊢
  induction finished generalizing more with
  | idle nothing => exact .idle nothing
  | entry due dispatched _ ih =>
    obtain ⟨more, rfl⟩ := Nat.exists_eq_succ_of_ne_zero (Nat.ne_of_gt (Nat.zero_lt_of_lt enough))
    exact .entry due (dispatch_extends wider dispatched) (ih (Nat.le_of_succ_le_succ enough))

theorem tryAdvance_extends (react : Reaction H D W) {fuel more : Nat} (enough : fuel ≤ more) :
    (tryAdvance react fuel).Extends (tryAdvance react more) := by
  induction fuel using Nat.strongRecOn generalizing more with
  | ind fuel ih =>
    rintro system ⟨reply, final⟩ finished
    cases advanced_iff.mpr finished with
    | refused refused => exact tryAdvance_of_refused refused
    | made begins drains =>
      obtain ⟨more, rfl⟩ := Nat.exists_eq_succ_of_ne_zero (Nat.ne_of_gt (Nat.zero_lt_of_lt enough))
      have less := Nat.le_of_succ_le_succ enough
      have drains := drain_extends (ih _ (Nat.lt_succ_self _) less) less drains
      exact advanced_iff.mp (.made begins drains)

theorem run_extends {react : Reaction H D W} {fuel more : Nat} (enough : fuel ≤ more)
    {program : Program H D W α} {system final : System H D W} {value : α}
    (finished : system.run react fuel program = some (value, final)) :
    system.run react more program = some (value, final) :=
  Program.run_extends (tryAdvance_extends react enough) finished

end System

end Timers
