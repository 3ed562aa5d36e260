import Timers.Proofs.Representation

/-! Advances do not nest. While one goes on every other is refused, whatever the handlers have done
that it runs, and refusing leaves everything as it is. Outside of advances nothing stands in the way
of one but the end of the counter. So the tick moves by whole advances only, or is set back. -/

namespace Timers

variable {H D W : Type} {action : Action H D} {before after : Moment H D}

/-- The tick after a step. An advance that begins moves it on, and a reset sets it back. -/
def Step.tick (step : Step H D) : Tick :=
  match step.action with
  | .beginAdvance => step.before.scheduler.tick + 1
  | .command .reset => step.before.scheduler.initialTick
  | _ => step.before.scheduler.tick

theorem Transition.tick (step : Transition action before after) :
    after.scheduler.tick = Step.tick ⟨before, action, after⟩ := by
  cases step with
  | @command place scheduler given awake =>
    have clock := congrArg Prod.fst (scheduler.clock_perform given)
    cases given <;> exact clock
  | @beginAdvance scheduler begun begins =>
    obtain ⟨_, tick, next, rfl⟩ := Scheduler.beginAdvance_eq begins
    exact Tick.eq_of_next? next
  | @dispatch scheduler popped lent arming turn given due taken =>
    have clock := popped.clock_lend arming.timer
    rw [taken, Scheduler.clock_popDue? due] at clock
    exact congrArg Prod.fst clock
  | @skip scheduler popped left arming turn due refused =>
    have clock := popped.clock_lend arming.timer
    rw [refused, Scheduler.clock_popDue? due] at clock
    exact congrArg Prod.fst clock
  | @settle firing scheduler handler data =>
    exact congrArg Prod.fst (scheduler.clock_settle firing.timer firing.tick handler data)
  | endAdvance finished => rfl

theorem Scheduler.beginAdvance_of_idle {scheduler : Scheduler H D}
    (idle : scheduler.dispatching = false) (inside : scheduler.tick ≠ .last) :
    scheduler.beginAdvance =
      .ok { scheduler with tick := scheduler.tick + 1, dispatching := true } := by
  simp [beginAdvance, idle, Tick.next?_of_ne inside]

namespace System

variable {react : Reaction H D W} {fuel : Nat} {system final : System H D W}

private theorem advanceTicks_refused (busy : system.scheduler.dispatching = true) (ticks : Nat) :
    system.run react fuel (Program.advanceTicks ticks) = some ([], system) := by
  induction ticks with
  | zero => rfl
  | succ ticks ih =>
    rw [run_advanceTicks_succ, run_advanceTick, tryAdvance_refused react fuel busy, Option.map_some,
      Option.bind_some]
    dsimp only
    rw [ih]
    rfl

theorem tryAdvance_at_last (idle : system.scheduler.dispatching = false)
    (ended : system.scheduler.tick = .last) :
    tryAdvance react fuel system = some (.error .tickOverflow, system) := by
  have refused : system.scheduler.beginAdvance = .error .tickOverflow := by
    simp [Scheduler.beginAdvance, idle, Tick.next?_eq_none_iff.mpr ended]
  exact tryAdvance_of_refused refused

private theorem tryAdvance_before_last (idle : system.scheduler.dispatching = false)
    (inside : system.scheduler.tick ≠ .last) {reply : Except TimerError (List Firing)}
    (finished : tryAdvance react fuel system = some (reply, final)) :
    ∃ told later, reply = .ok told ∧
      advanceSteps react fuel system =
        ⟨⟨.outside, system.scheduler⟩, .beginAdvance, ⟨.between, { system.scheduler with
          tick := system.scheduler.tick + 1, dispatching := true }⟩⟩ :: later ∧
      firings later = told ∧
      Run ⟨.between, { system.scheduler with
        tick := system.scheduler.tick + 1, dispatching := true }⟩ later
        ⟨.outside, final.scheduler⟩ := by
  have begins := Scheduler.beginAdvance_of_idle idle inside
  have fired := firings_advanceSteps finished
  have made := tryAdvance_makes.run (by rw [finished]; rfl)
  cases reply with
  | error error =>
    cases advanced_iff.mpr finished with
    | refused refused => cases begins.symm.trans refused
  | ok told =>
    obtain ⟨_, later, begins', begin, _⟩ := begins_of_tryAdvance finished
    cases begins.symm.trans begins'
    rw [begin] at fired made
    cases made with
    | cons _ run =>
      -- the step that begins the advance runs no handler
      exact ⟨told, later, rfl, begin, fired, run⟩

end System

/-- At every point inside a handler an advance is refused, whatever has been done before, and
nothing is changed by it. Outside of advances it is refused at the last tick only; else its first
step moves the tick on by one, whether or not it ends, before any handler runs in the others, and
when it has ended, nothing stands in the way of the next. In no other way does the tick change but
by a reset. -/
theorem advances_do_not_nest {config : Config} {steps : List (Step H D)} {moment : Moment H D}
    (run : Run (.ofConfig config) steps moment) (react : Reaction H D W) (fuel : Nat) (shared : W) :
    let system : System H D W := ⟨moment.scheduler, shared⟩
    (∀ firing, moment.place = .inside firing →
      System.tryAdvance react fuel system = some (.error .reentrantAdvance, system) ∧
      system.run react fuel Program.advanceTick = some ([], system) ∧
      ∀ ticks, system.run react fuel (Program.advanceTicks ticks) = some ([], system)) ∧
    (moment.place = .outside →
      moment.scheduler.dispatching = false ∧
      (moment.scheduler.tick = .last →
        System.tryAdvance react fuel system = some (.error .tickOverflow, system)) ∧
      (moment.scheduler.tick ≠ .last →
        moment.scheduler.beginAdvance = .ok { moment.scheduler with
          tick := moment.scheduler.tick + 1, dispatching := true } ∧
        (fuel ≠ 0 → ∃ later, System.advanceSteps react fuel system =
            ⟨moment, .beginAdvance, ⟨.between, { moment.scheduler with
              tick := moment.scheduler.tick + 1, dispatching := true }⟩⟩ :: later ∧
          ∀ step ∈ later, step.before.place ≠ .outside) ∧
        ∀ reply final, System.tryAdvance react fuel system = some (reply, final) →
          final.scheduler.dispatching = false ∧ ∃ told later, reply = .ok told ∧
            System.advanceSteps react fuel system =
              ⟨moment, .beginAdvance, ⟨.between, { moment.scheduler with
                tick := moment.scheduler.tick + 1, dispatching := true }⟩⟩ :: later ∧
            firings later = told ∧
            Run ⟨.between, { moment.scheduler with
              tick := moment.scheduler.tick + 1, dispatching := true }⟩ later
              ⟨.outside, final.scheduler⟩)) ∧
    ∀ step ∈ steps, step.after.scheduler.tick =
      match step.action with
      | .beginAdvance => step.before.scheduler.tick + 1
      | .command .reset => config.initialTick
      | _ => step.before.scheduler.tick := by
  intro system
  have paced : moment.Paced := run.preserves Transition.paced (.ofConfig config)
  refine ⟨fun firing inside => ?_, fun outside => ?_, fun step member => ?_⟩
  · have busy : moment.scheduler.dispatching = true := paced.mpr (by simp [inside])
    have refused : System.tryAdvance react fuel system = some (.error .reentrantAdvance, system) :=
      System.tryAdvance_refused react fuel busy
    refine ⟨refused, ?_, System.advanceTicks_refused busy⟩
    rw [System.run_advanceTick, refused]
    rfl
  · obtain ⟨place, scheduler⟩ := moment
    obtain rfl : place = .outside := outside
    have idle : system.scheduler.dispatching = false := paced.idle rfl
    refine ⟨idle, System.tryAdvance_at_last idle, fun inside => ?_⟩
    have begins := Scheduler.beginAdvance_of_idle idle inside
    refine ⟨begins, System.advanceSteps_begin react begins, fun reply final finished => ?_⟩
    obtain ⟨told, later, same, begin, fired, onward⟩ :=
      System.tryAdvance_before_last idle inside finished
    have paced' : (⟨.outside, final.scheduler⟩ : Moment H D).Paced :=
      onward.preserves Transition.paced (by simp [Moment.Paced])
    exact ⟨paced'.idle rfl, told, later, same, begin, fired, onward⟩
  · obtain ⟨earlier, reached, made⟩ := run.reaches member
    have home : step.before.scheduler.initialTick = config.initialTick := reached.initialTick
    rw [made.tick, Step.tick, home]

/-- A handler resets the scheduler and starts a timer at once, in the slot of its own. It cannot
advance all the same, and when that timer has fired too, an advance is possible again. -/
theorem advances_do_not_nest_reset :
    ∃ (steps rest : List (Step Nat Nat)) (within outside : Moment Nat Nat) (firing : Firing),
      Run (.ofConfig { initialTick := 5 }) steps within ∧ within.place = .inside firing ∧
      within.scheduler.tick = 5 ∧
      System.tryAdvance Reaction.idle 1 ⟨within.scheduler, ()⟩ =
        some (.error .reentrantAdvance, ⟨within.scheduler, ()⟩) ∧
      Run within rest outside ∧ outside.place = .outside ∧ (firings rest).length = 1 ∧
      ∃ final : System Nat Nat Unit,
        System.tryAdvance Reaction.idle 1 ⟨outside.scheduler, ()⟩ = some (.ok [], final) ∧
        final.scheduler.dispatching = false := by
  let early : List (Action Nat Nat) := [.command (.add 7 5), .command (.start ⟨⟨0, 0⟩⟩ 1 true),
    .beginAdvance, .dispatch, .command .reset, .command (.add 8 6),
    .command (.start ⟨⟨0, 1⟩⟩ 0 false)]
  let late : List (Action Nat Nat) := [.settle 7 9, .dispatch, .settle 8 6, .endAdvance]
  have told : ((Moment.ofConfig { initialTick := 5 } : Moment Nat Nat).run? early).map
      (fun made => (made.2.place, made.2.scheduler.tick)) =
      some (.inside ⟨⟨⟨0, 0⟩⟩, 6, 6, 0⟩, 5) := by decide +kernel
  obtain ⟨⟨steps, within⟩, made, same⟩ := Option.map_eq_some_iff.mp told
  obtain ⟨inside, tick⟩ := Prod.mk.inj same
  have onward : ((Moment.ofConfig { initialTick := 5 } : Moment Nat Nat).run? early).bind (fun made =>
      (made.2.run? late).map fun rest => (rest.2.place, (firings rest.1).length, rest.2.scheduler.tick,
        (System.tryAdvance Reaction.idle 1 ⟨rest.2.scheduler, ()⟩).bind (·.1.toOption))) =
      some (.outside, 1, 5, some []) := by decide +kernel
  rw [made, Option.bind_some] at onward
  obtain ⟨⟨rest, final⟩, made', same'⟩ := Option.map_eq_some_iff.mp onward
  obtain ⟨outside, count, tick', advance⟩ : final.place = .outside ∧ (firings rest).length = 1 ∧
      final.scheduler.tick = 5 ∧
      (System.tryAdvance Reaction.idle 1 ⟨final.scheduler, ()⟩).bind (·.1.toOption) = some [] := by
    simpa using same'
  obtain ⟨⟨reply, advanced⟩, finished, told'⟩ := Option.bind_eq_some_iff.mp advance
  have run := Moment.run_of_run? made
  have more := Moment.run_of_run? made'
  obtain ⟨refused, _, _⟩ := (advances_do_not_nest run Reaction.idle 1 ()).1 _ inside
  obtain ⟨_, _, advances⟩ := (advances_do_not_nest (run.append more) Reaction.idle 1 ()).2.1 outside
  obtain ⟨_, _, ends⟩ := advances (by rw [tick']; decide)
  obtain ⟨idle, told, _, rfl, _⟩ := ends reply advanced finished
  cases told'
  exact ⟨steps, rest, within, final, _, run, inside, tick, refused, more, outside, count, advanced,
    finished, idle⟩

end Timers
