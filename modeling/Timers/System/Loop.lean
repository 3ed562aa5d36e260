import Timers.System.Basic

/-! What an advance that ends has done: entry after entry was handled, each by the handler of its
timer, until none was due. Whatever is proved of advances that end follows this relation, and not
the bound on the entries. -/

namespace Timers

variable {H D W : Type}

namespace System

variable {react : Reaction H D W} {nested : Advance H D W} {fuel : Nat} {system final : System H D W}
  {arming : Arming} {turn : UInt64} {left lent popped begun : Scheduler H D}

theorem dispatch_of_missing (missing : system.scheduler.lend arming.timer = (none, left)) :
    dispatch react nested arming turn system = some (none, { system with scheduler := left }) := by
  rw [dispatch, missing]

theorem dispatch_of_lends {handler : H} {data : D}
    (lends : system.scheduler.lend arming.timer = (some (handler, data), lent)) :
    dispatch react nested arming turn system =
      ((react handler arming.timer data).run nested { system with scheduler := lent }).map
        fun ((handler, data), ran) => (some ⟨arming.timer, lent.tick, arming.expiry, turn⟩,
          { ran with scheduler := ran.scheduler.settle arming.timer lent.tick handler data }) := by
  rw [dispatch, lends]
  dsimp only
  cases (react handler arming.timer data).run nested { system with scheduler := lent } <;> rfl

theorem drain_of_idle (nothing : system.scheduler.popDue? = none) :
    drain react nested fuel system = some ([], system) := by
  rw [drain, nothing]

theorem drain_of_spent (due : system.scheduler.popDue? = some (arming, turn, popped)) :
    drain react nested 0 system = none := by
  rw [drain, due]

theorem drain_of_due (due : system.scheduler.popDue? = some (arming, turn, popped)) :
    drain react nested (fuel + 1) system =
      (dispatch react nested arming turn { system with scheduler := popped }).bind
        fun (firing, after) => (drain react nested fuel after).map
          fun (rest, final) => (firing.toList ++ rest, final) := by
  rw [drain, due]
  dsimp only
  cases dispatch react nested arming turn { system with scheduler := popped } with
  | none => rfl
  | some made =>
    dsimp only [Option.bind_some]
    cases drain react nested fuel made.2 <;> rfl

/-- Entry after entry was handled until none was due. -/
inductive Drained (react : Reaction H D W) (nested : Advance H D W) :
    Nat → System H D W → List Firing → System H D W → Prop where
  | idle {fuel : Nat} {system : System H D W} (nothing : system.scheduler.popDue? = none) :
      Drained react nested fuel system [] system
  | entry {fuel : Nat} {system after final : System H D W} {arming : Arming} {turn : UInt64}
      {popped : Scheduler H D} {firing : Option Firing} {rest : List Firing}
      (due : system.scheduler.popDue? = some (arming, turn, popped))
      (dispatched : dispatch react nested arming turn { system with scheduler := popped } =
        some (firing, after))
      (onward : Drained react nested fuel after rest final) :
      Drained react nested (fuel + 1) system (firing.toList ++ rest) final

theorem drained_iff {told : List Firing} :
    Drained react nested fuel system told final ↔
      drain react nested fuel system = some (told, final) := by
  constructor
  · intro drained
    induction drained with
    | idle nothing => exact drain_of_idle nothing
    | entry due dispatched _ ih =>
      rw [drain_of_due due, dispatched, Option.bind_some]
      dsimp only
      rw [ih]
      rfl
  · intro drained
    fun_induction drain react nested fuel system generalizing told with
    | case1 _ _ nothing =>
      cases drained
      exact .idle nothing
    | case2 | case3 | case4 => cases drained
    | case5 _ _ _ _ due _ _ _ dispatched _ _ onward ih =>
      cases drained
      exact .entry due dispatched (ih onward)

theorem tryAdvance_of_refused {error : TimerError}
    (refused : system.scheduler.beginAdvance = .error error) :
    tryAdvance react fuel system = some (.error error, system) := by
  rw [tryAdvance, refused]

theorem tryAdvance_of_spent (begins : system.scheduler.beginAdvance = .ok begun) :
    tryAdvance react 0 system = none := by
  rw [tryAdvance, begins]

theorem tryAdvance_of_begins (begins : system.scheduler.beginAdvance = .ok begun) :
    tryAdvance react (fuel + 1) system =
      (drain react (tryAdvance react fuel) fuel { system with scheduler := begun }).map
        fun (told, drained) =>
          (.ok told, { drained with scheduler := drained.scheduler.endAdvance }) := by
  rw [tryAdvance, begins]
  dsimp only
  cases drain react (tryAdvance react fuel) fuel { system with scheduler := begun } <;> rfl

/-- An advance was refused, or it was begun, its entries were handled, and it was ended. -/
inductive Advanced (react : Reaction H D W) :
    Nat → System H D W → Except TimerError (List Firing) → System H D W → Prop where
  | refused {fuel : Nat} {system : System H D W} {error : TimerError}
      (refused : system.scheduler.beginAdvance = .error error) :
      Advanced react fuel system (.error error) system
  | made {fuel : Nat} {system drained : System H D W} {begun : Scheduler H D} {told : List Firing}
      (begins : system.scheduler.beginAdvance = .ok begun)
      (drains : drain react (tryAdvance react fuel) fuel { system with scheduler := begun } =
        some (told, drained)) :
      Advanced react (fuel + 1) system (.ok told)
        { drained with scheduler := drained.scheduler.endAdvance }

theorem advanced_iff {reply : Except TimerError (List Firing)} :
    Advanced react fuel system reply final ↔
      tryAdvance react fuel system = some (reply, final) := by
  constructor
  · rintro (refused | ⟨begins, drains⟩)
    · exact tryAdvance_of_refused refused
    · rw [tryAdvance_of_begins begins, drains]
      rfl
  · intro advanced
    cases begins : system.scheduler.beginAdvance with
    | error error =>
      cases (tryAdvance_of_refused begins).symm.trans advanced
      exact .refused begins
    | ok begun =>
      cases fuel with
      | zero => cases (tryAdvance_of_spent begins).symm.trans advanced
      | succ fuel =>
        rw [tryAdvance_of_begins begins] at advanced
        obtain ⟨⟨told, drained⟩, drains, same⟩ := Option.map_eq_some_iff.mp advanced
        cases same
        exact .made begins drains

end System

end Timers
