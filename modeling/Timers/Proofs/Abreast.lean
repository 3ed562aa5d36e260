import Timers.Proofs.Twins

/-! Programs on two systems that cannot be told apart, but by the order of two events. A program that
does not go by this order comes to the same end on both. Handlers are such programs, so an advance
makes the same handlers run at the same ticks in the same order; and operations that are carried
out on both systems, one after another, get the same replies. -/

namespace Timers

variable {H D W α : Type}

/-- Replies to a request that are the same, but for the order of two neighbouring events. -/
def Request.Crosses (event event' : Event) :
    (operation : Request H D W) → operation.Reply → operation.Reply → Prop
  | .command given, reply, reply' => given.Crosses event event' reply reply'
  | _, reply, reply' => reply = reply'

/-- Whatever the replies are, the program does not go by the order of two neighbouring events. -/
def Program.Impartial (event event' : Event) : Program H D W α → Prop
  | .done _ => True
  | .request operation next =>
    (∀ {reply reply'}, operation.Crosses event event' reply reply' → next reply = next reply') ∧
      ∀ reply, (next reply).Impartial event event'

private theorem Request.Crosses.refl {event event' : Event} {operation : Request H D W}
    (reply : operation.Reply) : operation.Crosses event event' reply reply := by
  cases operation with
  | command given => exact .same reply
  | query | advance | shared => rfl

private theorem Request.Crosses.eq {event : Event} {operation : Request H D W}
    {reply reply' : operation.Reply}
    (crosses : operation.Crosses event event reply reply') : reply = reply' := by
  cases operation with
  | command given => exact Command.Crosses.eq crosses
  | query | advance | shared => exact crosses

theorem Program.impartial_self (program : Program H D W α) (event : Event) :
    program.Impartial event event := by
  induction program with
  | done value => trivial
  | request operation next ih => exact ⟨fun crosses => congrArg next crosses.eq, ih⟩

/-- Of which timer the handler has run, at which tick, and when the timer had been due. -/
def Firing.facts (firing : Firing) : TimerId × Tick × Tick :=
  (firing.timer, firing.tick, firing.expiry)

/-- Two systems that cannot be told apart, but by the order of two events. -/
structure Abreast (event event' : Event) (place place' : Place) (system system' : System H D W) :
    Prop where
  shared : system.shared = system'.shared
  twins : Twins event event' ⟨place, system.scheduler⟩ ⟨place', system'.scheduler⟩

/-- Nothing that is asked of two systems makes a difference, nor anything that they keep of a timer,
but for the order of two events in what is published. -/
structure Indistinct (event event' : Event) (system system' : System H D W) : Prop where
  shared : system.shared = system'.shared
  answers : ∀ asked : Query, system.scheduler.answer asked = system'.scheduler.answer asked
  records : ∀ id, system.scheduler.bare? id = system'.scheduler.bare? id
  feeds : Option.Rel (Feed.Exchanged event event') system.scheduler.feed system'.scheduler.feed

/-- The same operation has been answered alike, and nothing tells the two systems apart. Of an
advance it counts which handlers have run. -/
inductive Stage.Like (event event' : Event) : Stage H D W → Stage H D W → Prop where
  | answered {operation : Request H D W} {reply reply' : operation.Reply} {after after' : System H D W}
    (crosses : operation.Crosses event event' reply reply')
    (same : Indistinct event event' after after') :
    Like event event' ⟨operation, reply, after⟩ ⟨operation, reply', after'⟩
  | advanced {reply reply' : Except TimerError (List Firing)} {after after' : System H D W}
    (firings : reply.map (List.map Firing.facts) = reply'.map (List.map Firing.facts))
    (same : Indistinct event event' after after') :
    Like event event' ⟨.advance, reply, after⟩ ⟨.advance, reply', after'⟩

section Self

variable {event one two : Event}

theorem Indistinct.of_self {system system' : System H D W}
    (same : Indistinct event event system system') : Indistinct one two system system' where
  shared := same.shared
  answers := same.answers
  records := same.records
  feeds := rel_imp (fun {feed _} exchanged => exchanged.eq ▸ .refl feed) same.feeds

theorem Stage.Like.of_self {stage stage' : Stage H D W} (like : Like event event stage stage') :
    Like one two stage stage' := by
  cases like with
  | answered crosses same =>
    rw [crosses.eq]
    exact .answered (.refl _) same.of_self
  | advanced firings same => exact .advanced firings same.of_self

end Self

namespace Abreast

variable {event event' : Event} {place place' : Place} {system system' : System H D W}

theorem indistinct (abreast : Abreast event event' place place' system system') :
    Indistinct event event' system system' where
  shared := abreast.shared
  answers := abreast.twins.answer
  records := fun _ => abreast.twins.alike.records rfl
  feeds := abreast.twins.feeds

private theorem request (abreast : Abreast event event' place place' system system')
    (awake : place ≠ .between) (awake' : place' ≠ .between) {operation : Request H D W}
    (other : operation ≠ .advance) (advance advance' : Advance H D W)
    {advancing : System H D W → List (Step H D)}
    (onward : ∀ step ∈ operation.steps place advancing system, step.Onward) :
    ∃ reply reply' after after', system.perform advance operation = some (reply, after) ∧
      system'.perform advance' operation = some (reply', after') ∧
      operation.Crosses event event' reply reply' ∧
      Abreast event event' place place' after after' := by
  cases operation with
  | query asked => exact ⟨_, _, _, _, rfl, rfl, abreast.twins.answer asked, abreast⟩
  | command given =>
    obtain ⟨replies, twins⟩ :=
      abreast.twins.perform awake awake' given (onward _ List.mem_cons_self)
    exact ⟨_, _, _, _, rfl, rfl, replies, abreast.shared, twins⟩
  | advance => exact absurd rfl other
  | shared change =>
    exact ⟨_, _, _, _, rfl, rfl, abreast.shared, congrArg change abreast.shared, abreast.twins⟩

section Handlers

variable {react : Reaction H D W} {nested : Nat} {firing firing' : Firing}

private theorem request_inside
    (abreast : Abreast event event' (.inside firing) (.inside firing') system system')
    (react : Reaction H D W) (nested : Nat) (operation : Request H D W)
    (onward : ∀ step ∈ operation.steps (.inside firing) (fun _ => []) system, step.Onward) :
    ∃ reply reply' after after',
      system.perform (System.tryAdvance react nested) operation = some (reply, after) ∧
      system'.perform (System.tryAdvance react nested) operation = some (reply', after') ∧
      operation.Crosses event event' reply reply' ∧
      Abreast event event' (.inside firing) (.inside firing') after after' := by
  cases operation with
  | advance =>
    have busy : system.scheduler.dispatching = true := abreast.twins.paced.mpr (by simp)
    have busy' : system'.scheduler.dispatching = true := abreast.twins.paced'.mpr (by simp)
    exact ⟨_, _, _, _, System.tryAdvance_refused react nested busy,
      System.tryAdvance_refused react nested busy', rfl, abreast⟩
  | query | command | shared => exact abreast.request (by simp) (by simp) (by simp) _ _ onward

private theorem run_inside
    (abreast : Abreast event event' (.inside firing) (.inside firing') system system')
    {program : Program H D W α} (impartial : program.Impartial event event')
    (onward : ∀ step ∈ program.steps (.inside firing) (System.tryAdvance react nested) (fun _ => [])
      system, step.Onward) :
    ∃ value final final', program.run (System.tryAdvance react nested) system = some (value, final) ∧
      program.run (System.tryAdvance react nested) system' = some (value, final') ∧
      Abreast event event' (.inside firing) (.inside firing') final final' := by
  induction program generalizing system system' with
  | done value => exact ⟨value, system, system', rfl, rfl, abreast⟩
  | request operation next ih =>
    obtain ⟨blurred, impartial⟩ := impartial
    rw [Program.steps] at onward
    obtain ⟨now, later⟩ := List.forall_mem_append.mp onward
    obtain ⟨reply, reply', after, after', made, made', crosses, abreast⟩ :=
      abreast.request_inside react nested operation now
    rw [made] at later
    rw [Program.run, Program.run, made, made']
    dsimp only
    rw [← blurred crosses]
    exact ih reply abreast (impartial reply) later

variable (impartial : ∀ handler id data, (react handler id data).Impartial event event')

include impartial

private theorem dispatch {arming : Arming} {turn turn' : UInt64}
    {popped popped' lent lent' : Scheduler H D}
    {given : H × D} (shared : system.shared = system'.shared)
    (lends : popped.lend arming.timer = (some given, lent))
    (lends' : popped'.lend arming.timer = (some given, lent'))
    (twins : Twins event event' ⟨.inside ⟨arming.timer, lent.tick, arming.expiry, turn⟩, lent⟩
      ⟨.inside ⟨arming.timer, lent'.tick, arming.expiry, turn'⟩, lent'⟩)
    (onward : ∀ step ∈ System.dispatchSteps react (System.tryAdvance react nested) arming turn popped
      system, step.Onward) :
    ∃ told told' final final',
      System.dispatch react (System.tryAdvance react nested) arming turn
        { system with scheduler := popped } = some (told, final) ∧
      System.dispatch react (System.tryAdvance react nested) arming turn'
        { system' with scheduler := popped' } = some (told', final') ∧
      told.map Firing.facts = told'.map Firing.facts ∧
      Abreast event event' .between .between final final' := by
  obtain ⟨handler, data⟩ := given
  let started : System H D W := { system with scheduler := lent }
  let started' : System H D W := { system' with scheduler := lent' }
  have begun : Abreast event event' (.inside ⟨arming.timer, lent.tick, arming.expiry, turn⟩)
      (.inside ⟨arming.timer, lent'.tick, arming.expiry, turn'⟩) started started' := ⟨shared, twins⟩
  rw [System.dispatchSteps, lends] at onward
  rw [System.dispatch_of_lends lends, System.dispatch_of_lends lends']
  obtain ⟨now, later⟩ := List.forall_mem_append.mp (List.forall_mem_cons.mp onward).2
  obtain ⟨⟨handler', data'⟩, ran, ran', made, made', after⟩ :=
    begun.run_inside (impartial handler arming.timer data) now
  rw [made] at later
  rw [made, made']
  have tick : lent.tick = lent'.tick := twins.tick
  have settled := after.twins.settles rfl tick handler' data' (later _ List.mem_cons_self)
  refine ⟨_, _, _, _, rfl, rfl, ?_, after.shared, settled⟩
  simp only [Option.map_some, Firing.facts, tick]

private theorem drain {fuel : Nat} (abreast : Abreast event event' .between .between system system')
    (onward : ∀ step ∈ System.drainSteps react (System.tryAdvance react nested) fuel system,
      step.Onward) :
    Option.Rel (fun made made' => made.1.map Firing.facts = made'.1.map Firing.facts ∧
        Abreast event event' .between .between made.2 made'.2)
      (System.drain react (System.tryAdvance react nested) fuel system)
      (System.drain react (System.tryAdvance react nested) fuel system') := by
  induction fuel generalizing system system' with
  | zero =>
    rcases abreast.twins.dispatches with ⟨due, due'⟩ | ⟨_, _, _, _, _, _, _, _, due, due', _⟩
    · rw [System.drain_of_idle due, System.drain_of_idle due']
      exact .some ⟨rfl, abreast⟩
    · rw [System.drain_of_spent due, System.drain_of_spent due']
      exact .none
  | succ fuel ih =>
    rcases abreast.twins.dispatches with
      ⟨due, due'⟩ | ⟨arming, turn, turn', popped, popped', given, lent, lent', due, due', lends,
        lends', twins⟩
    · rw [System.drain_of_idle due, System.drain_of_idle due']
      exact .some ⟨rfl, abreast⟩
    · rw [System.drainSteps, due] at onward
      obtain ⟨now, later⟩ := List.forall_mem_append.mp onward
      obtain ⟨told, told', after, after', made, made', same, abreast⟩ :=
        dispatch impartial abreast.shared lends lends' twins now
      rw [made] at later
      rw [System.drain_of_due due, System.drain_of_due due', made, made', Option.bind_some,
        Option.bind_some]
      dsimp only at later ⊢
      rcases rel_cases (ih abreast later) with
        ⟨final, final'⟩ | ⟨⟨rest, final⟩, ⟨rest', final'⟩, drained, drained', firings, abreast⟩
      · rw [final, final']
        exact .none
      · rw [drained, drained']
        refine .some ⟨?_, abreast⟩
        rw [List.map_append, List.map_append, ← Option.toList_map, ← Option.toList_map, same, firings]

end Handlers

section Outside

variable {react : Reaction H D W}
  (impartial : ∀ handler id data, (react handler id data).Impartial event event')

include impartial

private theorem advance {fuel : Nat}
    (abreast : Abreast event event' .outside .outside system system')
    (onward : ∀ step ∈ System.advanceSteps react fuel system, step.Onward) :
    Option.Rel (fun made made' =>
        made.1.map (List.map Firing.facts) = made'.1.map (List.map Firing.facts) ∧
        Abreast event event' .outside .outside made.2 made'.2)
      (System.tryAdvance react fuel system) (System.tryAdvance react fuel system') := by
  rcases abreast.twins.begins with
    ⟨error, refused, refused'⟩ | ⟨begun, begun', begins, begins', twins⟩
  · rw [System.tryAdvance_of_refused refused, System.tryAdvance_of_refused refused']
    exact .some ⟨rfl, abreast⟩
  · cases fuel with
    | zero =>
      rw [System.tryAdvance_of_spent begins, System.tryAdvance_of_spent begins']
      exact .none
    | succ fuel =>
      rw [System.advanceSteps, begins] at onward
      rw [System.tryAdvance_of_begins begins, System.tryAdvance_of_begins begins']
      have started : Abreast event event' .between .between { system with scheduler := begun }
        { system' with scheduler := begun' } := ⟨abreast.shared, twins⟩
      obtain ⟨now, _⟩ := List.forall_mem_append.mp (List.forall_mem_cons.mp onward).2
      rcases rel_cases (started.drain impartial now) with
        ⟨drained, drained'⟩ | ⟨⟨told, made⟩, ⟨told', made'⟩, drained, drained', same, after⟩
      · rw [drained, drained']
        exact .none
      · rw [drained, drained']
        refine .some ⟨congrArg Except.ok same, after.shared, ?_⟩
        exact after.twins.ends (System.drain_finishes drained) (System.drain_finishes drained')

theorem follow {fuel : Nat} {operations : List (Request H D W)}
    (abreast : Abreast event event' .outside .outside system system')
    (onward : ∀ step ∈ system.followSteps react fuel operations, step.Onward) :
    Option.Rel (List.Forall₂ (Stage.Like event event')) (system.follow react fuel operations)
      (system'.follow react fuel operations) := by
  induction operations generalizing system system' with
  | nil => exact .some .nil
  | cons operation rest ih =>
    rw [System.followSteps] at onward
    obtain ⟨now, later⟩ := List.forall_mem_append.mp onward
    rw [System.follow, System.follow]
    have answered : Option.Rel (fun made made' =>
        Stage.Like event event' ⟨operation, made.1, made.2⟩ ⟨operation, made'.1, made'.2⟩ ∧
          Abreast event event' .outside .outside made.2 made'.2)
        (system.perform (System.tryAdvance react fuel) operation)
        (system'.perform (System.tryAdvance react fuel) operation) := by
      cases operation with
      | advance =>
        exact rel_imp (fun made => ⟨.advanced made.1 made.2.indistinct, made.2⟩)
          (abreast.advance impartial now)
      | query | command | shared =>
        obtain ⟨_, _, _, _, made, made', crosses, abreast⟩ := abreast.request (by simp) (by simp)
          (by simp) (System.tryAdvance react fuel) (System.tryAdvance react fuel) now
        rw [made, made']
        exact .some ⟨.answered crosses abreast.indistinct, abreast⟩
    rcases rel_cases answered with
      ⟨made, made'⟩ | ⟨⟨reply, after⟩, ⟨reply', after'⟩, made, made', like, abreast⟩
    · rw [made, made']
      exact .none
    · rw [made] at later
      rw [made, made']
      dsimp only at later ⊢
      rcases rel_cases (ih abreast later) with ⟨ends, ends'⟩ | ⟨stages, stages', made, made', alike⟩
      · rw [ends, ends']
        exact .none
      · rw [made, made']
        exact .some (.cons like alike)

end Outside

end Abreast

end Timers
