import Timers.Proofs.Schedule

/-! When an arming fires. As long as nobody takes it off, an arming stays on the schedule, and
no advance ends with it overdue; so it fires in the advance to the tick at which it is due,
and not again before the timer is armed again. -/

namespace Timers

variable {H D W α : Type} {action : Action H D} {before after first last : Moment H D}
  {steps : List (Step H D)} {arming : Arming} {turn : UInt64} {start : Nat}

/-- The tick at which an arming is due. What is armed outside of an advance waits for the next
one at least; what is armed during an advance can fire in it. -/
def Step.dueTick (step : Step H D) (arming : Arming) : Nat :=
  max arming.expiry.toNat
    (step.before.scheduler.tick.toNat + if step.before.place = .outside then 1 else 0)

/-- An arming is on the schedule, and it is not overdue. It cannot fire before a tick from
which on it was armed. -/
structure Moment.Awaits (moment : Moment H D) (arming : Arming) (turn : UInt64) (start : Nat) :
    Prop where
  queued : moment.scheduler.Queued arming turn
  outside : moment.place = .outside →
    moment.scheduler.tick.toNat < max arming.expiry.toNat start ∧
      start ≤ moment.scheduler.tick.toNat + 1
  during : moment.place ≠ .outside →
    moment.scheduler.tick.toNat ≤ max arming.expiry.toNat start ∧
      start ≤ moment.scheduler.tick.toNat

namespace Transition

private theorem awaits (step : Transition action before after) (valid : before.Valid)
    (awaits : before.Awaits arming turn start)
    (calm : Step.disturbs ⟨before, action, after⟩ arming.timer = false)
    (quiet : Step.fires ⟨before, action, after⟩ arming.timer = false) :
    after.Awaits arming turn start := by
  have kept : Step.resets ⟨before, action, after⟩ = false := by
    rw [Bool.eq_false_iff]
    intro resets
    rw [Step.disturbs_of_resets resets] at calm
    cases calm
  have queued : after.scheduler.Queued arming turn := by
    refine ((step.effect valid).queued arming turn).mpr (.inl ⟨awaits.queued, ?_⟩)
    simp [calm, quiet]
  refine ⟨queued, ?_, ?_⟩
  · intro outside
    rcases step.clock kept with ⟨_, between, _⟩ | ⟨between, _, tick, finished⟩ | ⟨place, tick⟩
    · rw [outside] at between
      cases between
    · have ahead := valid.tied.popDue?_none finished awaits.queued
      have within := awaits.during (by rw [between]; simp)
      rw [UInt64.lt_iff_toNat_lt] at ahead
      rw [tick]
      omega
    · rw [tick]
      exact awaits.outside (place.mp outside)
  · intro advancing
    rcases step.clock kept with ⟨outside, _, tick⟩ | ⟨_, outside, _⟩ | ⟨place, tick⟩
    · have ahead := awaits.outside outside
      rw [tick]
      omega
    · exact absurd outside advancing
    · rw [tick]
      exact awaits.during fun outside => advancing (place.mpr outside)

private theorem fires_due (step : Transition action before after) (valid : before.Valid)
    (awaits : before.Awaits arming turn start) {firing : Firing}
    (fires : Step.firing? ⟨before, action, after⟩ = some firing)
    (same : firing.timer = arming.timer) :
    firing.tick.toNat = max arming.expiry.toNat start ∧ firing.expiry = arming.expiry ∧
      firing.turn = turn := by
  obtain ⟨between, _, tick, due, queued, _⟩ := step.firing valid fires
  obtain ⟨equal, turns⟩ := valid.tied.queued_unique queued awaits.queued same
  have expiry : firing.expiry = arming.expiry := congrArg Arming.expiry equal
  have within := awaits.during (by rw [between]; simp)
  rw [UInt64.le_iff_toNat_le, expiry] at due
  refine ⟨?_, expiry, turns⟩
  rw [tick]
  omega

private theorem arms_awaits (step : Transition action before after) (valid : before.Valid)
    (arms : Step.arming? ⟨before, action, after⟩ = some arming) :
    after.Awaits arming before.scheduler.queue.nextTurn
      (before.scheduler.tick.toNat + if before.place = .outside then 1 else 0) := by
  obtain ⟨place, tick, _⟩ := step.arming_ahead valid arms
  refine ⟨((step.effect valid).queued arming _).mpr (.inr ⟨arms, rfl⟩), ?_, ?_⟩
  · intro outside
    rw [tick, if_pos (place.mp outside)]
    omega
  · intro advancing
    rw [tick, if_neg fun outside => advancing (place.mpr outside)]
    omega

private theorem fires_leaves (step : Transition action before after) (valid : before.Valid)
    {id : TimerId} (fires : Step.fires ⟨before, action, after⟩ id = true) (turn : UInt64)
    (same : arming.timer = id) : ¬ after.scheduler.Queued arming turn := by
  intro queued
  rcases ((step.effect valid).queued arming turn).mp queued with ⟨_, kept⟩ | ⟨arms, _⟩
  · exact kept (.inr (same ▸ fires))
  · obtain ⟨firing, fired, _⟩ := Step.fires_iff.mp fires
    rw [step.arming?_of_firing fired] at arms
    cases arms

theorem unqueued (step : Transition action before after) (valid : before.Valid) {id : TimerId}
    (absent : ∀ arming turn, arming.timer = id → ¬ before.scheduler.Queued arming turn)
    (idle : ∀ arming, Step.arming? ⟨before, action, after⟩ = some arming → arming.timer ≠ id)
    (arming : Arming) (turn : UInt64) (same : arming.timer = id) :
    ¬ after.scheduler.Queued arming turn := by
  intro queued
  rcases ((step.effect valid).queued arming turn).mp queued with ⟨old, _⟩ | ⟨arms, _⟩
  · exact absent arming turn same old
  · exact idle arming arms same

end Transition

namespace Run

private theorem awaits (run : Run first steps last) (valid : first.Valid)
    (awaits : first.Awaits arming turn start)
    (calm : ∀ step ∈ steps, step.disturbs arming.timer = false)
    (quiet : ∀ step ∈ steps, step.fires arming.timer = false) : last.Awaits arming turn start :=
  run.keeps_valid
    (fun step valid now awaits => step.awaits valid awaits now.1 now.2) valid
    (fun step member => And.intro (calm step member) (quiet step member)) awaits

private theorem unqueued (run : Run first steps last) (valid : first.Valid) {id : TimerId}
    (absent : ∀ arming turn, arming.timer = id → ¬ first.scheduler.Queued arming turn)
    (idle : ∀ step ∈ steps, ∀ arming, step.arming? = some arming → arming.timer ≠ id)
    (arming : Arming) (turn : UInt64) (same : arming.timer = id) :
    ¬ last.scheduler.Queued arming turn :=
  run.keeps_valid (fun step valid now absent => step.unqueued valid absent now) valid idle absent
    arming turn same

private theorem calm_of_silent {id : TimerId} {quiet rest : List (Step H D)}
    (undisturbed : ∀ step ∈ (quiet ++ rest).takeWhile fun step => !step.fires id,
      step.disturbs id = false)
    (silent : ∀ step ∈ quiet, step.fires id = false) :
    ∀ step ∈ quiet, step.disturbs id = false := by
  intro step member
  apply undisturbed
  rw [List.takeWhile_append_of_pos fun step member => by rw [silent step member]; rfl]
  exact List.mem_append_left _ member

section Awaited

variable (run : Run first steps last) (valid : first.Valid)
  (awaits : first.Awaits arming turn start)
  (undisturbed : ∀ step ∈ steps.takeWhile fun step => !step.fires arming.timer,
    step.disturbs arming.timer = false)

include run valid awaits undisturbed

theorem fires_by (outside : last.place = .outside)
    (passed : max arming.expiry.toNat start ≤ last.scheduler.tick.toNat) :
    ∃ step ∈ steps, step.fires arming.timer = true := by
  by_cases fired : ∃ step ∈ steps, step.fires arming.timer = true
  · exact fired
  · have silent : ∀ step ∈ steps, step.fires arming.timer = false := by
      intro step member
      rw [Bool.eq_false_iff]
      exact fun fires => fired ⟨step, member, fires⟩
    rw [← List.append_nil steps] at undisturbed
    have waiting := run.awaits valid awaits (calm_of_silent undisturbed silent) silent
    exact absurd passed (Nat.not_le.mpr (waiting.outside outside).1)

/-- The first time that the timer fires is the firing that was awaited. -/
theorem fires_first {quiet rest : List (Step H D)} {step : Step H D} {firing : Firing}
    (split : steps = quiet ++ step :: rest)
    (silent : ∀ other ∈ quiet, other.fires arming.timer = false)
    (fires : step.firing? = some firing) (same : firing.timer = arming.timer) :
    firing.tick.toNat = max arming.expiry.toNat start ∧ firing.expiry = arming.expiry ∧
      firing.turn = turn := by
  subst split
  obtain ⟨middle, waited, onward⟩ := run.split
  have waiting := waited.awaits valid awaits (calm_of_silent undisturbed silent) silent
  cases onward with
  | cons step _ => exact step.fires_due (waited.preserves Transition.valid valid) waiting fires same

end Awaited

private theorem arms_between (run : Run first steps last) (valid : first.Valid) {id : TimerId}
    {front between rest : List (Step H D)} {one two : Step H D}
    (split : steps = front ++ one :: between ++ two :: rest)
    (fires : one.fires id = true) (fires' : two.fires id = true) :
    ∃ step ∈ between, ∃ again, step.arming? = some again ∧ again.timer = id := by
  rw [split, List.append_assoc] at run
  obtain ⟨middle, passed, onward⟩ := run.split
  have valid := passed.preserves Transition.valid valid
  cases onward with
  | cons step onward =>
    obtain ⟨reached, passed, onward⟩ := onward.split
    have valid' := step.valid valid
    by_cases rearmed : ∃ step ∈ between, ∃ again, step.arming? = some again ∧ again.timer = id
    · exact rearmed
    · have gone := passed.unqueued valid' (fun _ turn => step.fires_leaves valid fires turn)
        fun step member again arms same => rearmed ⟨step, member, again, arms, same⟩
      cases onward with
      | cons step _ =>
        obtain ⟨firing, fired, same⟩ := Step.fires_iff.mp fires'
        obtain ⟨_, _, _, _, queued, _⟩ :=
          step.firing (passed.preserves Transition.valid valid') fired
        exact absurd queued (gone _ _ same)

end Run

private theorem Run.tick_within (run : Run first steps last)
    (within : ∀ step ∈ steps, step.before.place ≠ .outside)
    (kept : ∀ step ∈ steps, step.resets = false) : last.scheduler.tick = first.scheduler.tick := by
  induction run with
  | nil => rfl
  | cons step _ ih =>
    obtain ⟨now, later⟩ := List.forall_mem_cons.mp within
    obtain ⟨same, rest⟩ := List.forall_mem_cons.mp kept
    rw [ih later rest]
    rcases step.clock same with ⟨outside, _⟩ | ⟨_, _, tick, _⟩ | ⟨_, tick⟩
    · exact absurd outside now
    · exact tick
    · exact tick

section Told

variable {id : TimerId}

theorem silent_iff :
    (∀ step ∈ steps, step.fires id = false) ↔ ∀ firing ∈ firings steps, firing.timer ≠ id := by
  constructor
  · intro silent firing member same
    obtain ⟨step, inside, fired⟩ := List.mem_filterMap.mp member
    have fires := Step.fires_iff.mpr ⟨firing, fired, same⟩
    rw [silent step inside] at fires
    cases fires
  · intro apart step member
    rw [Bool.eq_false_iff]
    intro fires
    obtain ⟨firing, fired, same⟩ := Step.fires_iff.mp fires
    exact apart firing (List.mem_filterMap.mpr ⟨step, member, fired⟩) same

private theorem exists_fires_iff :
    (∃ step ∈ steps, step.fires id = true) ↔ ∃ firing ∈ firings steps, firing.timer = id := by
  have same : ¬ (∀ step ∈ steps, step.fires id = false) ↔
      ¬ ∀ firing ∈ firings steps, firing.timer ≠ id := not_congr silent_iff
  simpa using same

private theorem split_of_first {firing : Firing}
    (found : (firings steps).find? (·.timer = id) = some firing) :
    ∃ quiet step rest, steps = quiet ++ step :: rest ∧
      (∀ other ∈ quiet, other.fires id = false) ∧ step.firing? = some firing ∧
      firing.timer = id := by
  induction steps with
  | nil => cases found
  | cons step rest ih =>
    rw [firings_cons, List.find?_append] at found
    by_cases fires : step.fires id = true
    · obtain ⟨begun, fired, same⟩ := Step.fires_iff.mp fires
      have first : some begun = some firing := by simpa [fired, same] using found
      cases first
      exact ⟨[], step, rest, rfl, by simp, fired, same⟩
    · have silent : step.fires id = false := by simpa using fires
      have nothing : step.firing?.toList.find? (·.timer = id) = none := by
        cases fired : step.firing? with
        | none => rfl
        | some begun =>
          have apart : begun.timer ≠ id := by simpa [Step.fires, fired] using silent
          simp [apart]
      rw [nothing, Option.none_or] at found
      obtain ⟨quiet, other, later, rfl, idle, fired, same⟩ := ih found
      exact ⟨step :: quiet, other, later, rfl, List.forall_mem_cons.mpr ⟨silent, idle⟩, fired, same⟩

end Told

/-- The first step of an advance moves the tick, and until a timer that nobody disturbs fires, all
others leave it there. -/
private theorem tick_of_quiet {begin : Step H D} {quiet rest : List (Step H D)}
    {middle : Moment H D} {id : TimerId} (onward : Run first quiet middle)
    (within : ∀ step ∈ quiet ++ rest, step.before.place ≠ .outside)
    (undisturbed : ∀ step ∈ (begin :: quiet ++ rest).takeWhile fun step => !step.fires id,
      step.disturbs id = false)
    (silent : ∀ step ∈ begin :: quiet, step.fires id = false) :
    middle.scheduler.tick = first.scheduler.tick := by
  apply onward.tick_within fun step member => within step (List.mem_append_left _ member)
  intro step member
  rw [Bool.eq_false_iff]
  intro resets
  have calm := Run.calm_of_silent undisturbed silent step
    (List.mem_cons_of_mem _ member)
  rw [Step.disturbs_of_resets resets] at calm
  cases calm

/-- An advance makes what is awaited fire, first among the firings of its timer, if it comes to the
tick at which it is due, and does not make it fire otherwise. -/
theorem System.tryAdvance_awaited {react : Reaction H D W} {fuel : Nat} {system final : System H D W}
    {told : List Firing} (valid : (⟨.outside, system.scheduler⟩ : Moment H D).Valid)
    (awaits : (⟨.outside, system.scheduler⟩ : Moment H D).Awaits arming turn start)
    (finished : System.tryAdvance react fuel system = some (.ok told, final))
    (undisturbed : ∀ step ∈ (System.advanceSteps react fuel system).takeWhile
      fun step => !step.fires arming.timer, step.disturbs arming.timer = false) :
    told.find? (·.timer = arming.timer) =
      if max arming.expiry.toNat start = system.scheduler.tick.toNat + 1 then
        some ⟨arming.timer, system.scheduler.tick + 1, arming.expiry, turn⟩
      else none := by
  have run : Run ⟨.outside, system.scheduler⟩ (System.advanceSteps react fuel system)
      ⟨.outside, final.scheduler⟩ := System.tryAdvance_makes.run (by rw [finished]; rfl)
  have fired : firings (System.advanceSteps react fuel system) = told :=
    System.firings_advanceSteps finished
  obtain ⟨_, later, begins, begin, within⟩ := System.begins_of_tryAdvance finished
  obtain ⟨_, tick, next, rfl⟩ := Scheduler.beginAdvance_eq begins
  rw [begin] at run fired undisturbed
  subst fired
  cases run with
  | cons step onward =>
    have whole := (Run.single step).append onward
    cases found : (firings (_ :: later)).find? (·.timer = arming.timer) with
    | none =>
      have silent := silent_iff.mpr (by simpa using List.find?_eq_none.mp found)
      rw [← List.append_nil later] at within undisturbed
      have still := tick_of_quiet onward within undisturbed silent
      rw [List.append_nil] at undisturbed
      rw [if_neg]
      intro now
      obtain ⟨other, member, fires⟩ := whole.fires_by valid awaits undisturbed rfl
        (by rw [now, still]; exact Nat.le_of_eq (Tick.toNat_of_next? next).symm)
      rw [silent other member] at fires
      cases fires
    | some firing =>
      obtain ⟨quiet, other, rest, split, silent, begun, same⟩ := split_of_first found
      obtain ⟨due, expiry, turns⟩ :=
        whole.fires_first valid awaits undisturbed split silent begun same
      cases quiet with
      | nil =>
        -- the first step is the beginning of the advance, and no handler runs in it
        cases split
        cases begun
      | cons begin quiet =>
        cases split
        obtain ⟨middle, passed, onward⟩ := onward.split
        have still := tick_of_quiet passed within undisturbed silent
        cases onward with
        | cons made _ =>
          have reached := passed.preserves Transition.valid (step.valid valid)
          obtain ⟨_, _, moved, _⟩ := made.firing reached begun
          rw [moved, still] at due
          have tick := (moved.trans still).trans (Tick.eq_of_next? next)
          rw [if_pos (due.symm.trans (Tick.toNat_of_next? next)), ← same, ← tick, ← expiry, ← turns]

/-- An arming fires exactly once and exactly when it is due, unless its timer is disturbed before
it fires. The advances of the program tell of it by then, and as long as they have not, the next one
tells of it if it comes to that tick, and of no firing of the timer if it does not. The first firing
of the timer that is told is the one of the arming, and before the timer fires a second time, it is
armed again. -/
theorem armed_fires_once {config : Config} {shared : W} {react : Reaction H D W} {fuel : Nat}
    {program : Program H D W α} {earlier later : List (Step H D)} {armed : Step H D}
    (made : System.steps ⟨.ofConfig config, shared⟩ react fuel program = earlier ++ armed :: later)
    (arms : armed.arming? = some arming)
    (undisturbed : ∀ step ∈ later.takeWhile fun step => !step.fires arming.timer,
      step.disturbs arming.timer = false) :
    (∀ value reached,
      System.run ⟨.ofConfig config, shared⟩ react fuel program = some (value, reached) →
      System.tells ⟨.ofConfig config, shared⟩ react fuel program = firings earlier ++ firings later ∧
      (armed.dueTick arming ≤ reached.scheduler.tick.toNat →
        ∃ firing ∈ firings later, firing.timer = arming.timer) ∧
      ((∀ firing ∈ firings later, firing.timer ≠ arming.timer) →
        ∀ fuel told final, System.tryAdvance react fuel reached = some (.ok told, final) →
          (∀ step ∈ (System.advanceSteps react fuel reached).takeWhile
            fun step => !step.fires arming.timer, step.disturbs arming.timer = false) →
          told.find? (·.timer = arming.timer) =
            if armed.dueTick arming = reached.scheduler.tick.toNat + 1 then
              some ⟨arming.timer, reached.scheduler.tick + 1, arming.expiry,
                armed.before.scheduler.queue.nextTurn⟩
            else none)) ∧
    (∀ firing, (firings later).find? (·.timer = arming.timer) = some firing →
      firing.tick.toNat = armed.dueTick arming ∧ firing.expiry = arming.expiry ∧
        firing.turn = armed.before.scheduler.queue.nextTurn) ∧
    ∀ front first between second rest, later = front ++ first :: between ++ second :: rest →
      first.fires arming.timer = true → second.fires arming.timer = true →
      ∃ step ∈ between, ∃ again, step.arming? = some again ∧ again.timer = arming.timer := by
  have makes := System.steps_make config shared react fuel program
  rw [made] at makes
  obtain ⟨last, run, ends⟩ := makes
  obtain ⟨before, prior, run⟩ := run.split
  have valid := prior.valid
  cases run with
  | cons step run =>
    have awaits := step.arms_awaits valid arms
    have valid := step.valid valid
    refine ⟨fun value reached finished => ?_, fun firing found => ?_, ?_⟩
    · obtain rfl := ends _ (by rw [finished]; rfl)
      refine ⟨?_, fun passed => ?_, fun apart fuel told final advanced onward => ?_⟩
      · rw [← System.firings_steps finished, made, firings_append, firings_cons]
        cases fired : Step.firing? ⟨_, _, _⟩ with
        | none => rfl
        | some firing =>
          rw [step.arming?_of_firing fired] at arms
          cases arms
      · exact exists_fires_iff.mp (run.fires_by valid awaits undisturbed rfl passed)
      · have silent := silent_iff.mpr apart
        rw [← List.append_nil later] at undisturbed
        have waiting := run.awaits valid awaits (Run.calm_of_silent undisturbed silent) silent
        exact System.tryAdvance_awaited (run.preserves Transition.valid valid) waiting advanced onward
    · obtain ⟨quiet, step, rest, split, silent, fired, same⟩ := split_of_first found
      exact run.fires_first valid awaits undisturbed split silent fired same
    · intro front first between second rest split
      exact run.arms_between valid split

/-- A timer that is started two ticks ahead waits through one advance and fires in the next. -/
theorem armed_fires_once_at_next_tick :
    ∃ (program : Program Nat Nat Unit (Except TimerError (List Firing)))
      (earlier later : List (Step Nat Nat)) (armed : Step Nat Nat) (reached final : System Nat Nat Unit)
      (told : List Firing),
      System.steps ⟨.ofConfig {}, ()⟩ .idle 3 program = earlier ++ armed :: later ∧
      armed.arming? = some ⟨2, ⟨⟨0, 0⟩⟩⟩ ∧
      System.run ⟨.ofConfig {}, ()⟩ .idle 3 program = some (.ok [], reached) ∧
      reached.scheduler.tick = 1 ∧
      System.tryAdvance .idle 3 reached = some (.ok told, final) ∧
      told.find? (·.timer = ⟨⟨0, 0⟩⟩) = some ⟨⟨⟨0, 0⟩⟩, 2, 2, 0⟩ := by
  let id : TimerId := ⟨⟨0, 0⟩⟩
  let program : Program Nat Nat Unit (Except TimerError (List Firing)) := do
    let id ← Program.add 7 5
    let _ ← Program.start id 2 false
    Program.tryAdvance
  let steps : List (Step Nat Nat) := System.steps ⟨.ofConfig {}, ()⟩ .idle 3 program
  have shape : (steps[1]?.map fun step =>
        (step.arming?, step.before.place, step.before.scheduler.tick.toNat,
          step.before.scheduler.queue.nextTurn),
      (steps.drop 2).all fun step => !step.disturbs id && !step.fires id) =
      (some (some ⟨2, id⟩, .outside, 0, 0), true) := by decide +kernel
  have told : ((System.run ⟨.ofConfig {}, ()⟩ .idle 3 program).bind fun ran =>
      (System.tryAdvance .idle 3 ran.2).map fun advanced =>
        (ran.1.toOption, ran.2.scheduler.tick, advanced.1.toOption.isSome,
          (System.advanceSteps .idle 3 ran.2).all fun step => !step.disturbs id)) =
      some (some [], 1, true, true) := by decide +kernel
  obtain ⟨arms, calm⟩ := Prod.mk.inj shape
  obtain ⟨armed, second, same⟩ := Option.map_eq_some_iff.mp arms
  simp only [Prod.mk.injEq] at same
  obtain ⟨arms, place, before, turn⟩ := same
  have split : steps = steps.take 1 ++ armed :: steps.drop 2 := by
    obtain ⟨inside, rfl⟩ := List.getElem?_eq_some_iff.mp second
    exact (List.take_append_drop 1 steps).symm.trans (by rw [List.drop_eq_getElem_cons inside])
  have calm : ∀ step ∈ steps.drop 2, step.disturbs id = false ∧ step.fires id = false := by
    intro step member
    simpa using List.all_eq_true.mp calm step member
  obtain ⟨⟨reply, reached⟩, finished, same⟩ := Option.bind_eq_some_iff.mp told
  obtain ⟨⟨reply', final⟩, advanced, same⟩ := Option.map_eq_some_iff.mp same
  simp only [Prod.mk.injEq] at same
  obtain ⟨first, tick, succeeds, onward⟩ := same
  cases reply with
  | error error => cases first
  | ok none =>
    cases first
    cases reply' with
    | error error => cases succeeds
    | ok told =>
      have undisturbed : ∀ step ∈ (steps.drop 2).takeWhile fun step => !step.fires id,
          step.disturbs id = false := fun step member =>
        (calm step (List.takeWhile_sublist _ |>.mem member)).1
      have undisturbed' : ∀ step ∈ (System.advanceSteps .idle 3 reached).takeWhile
          fun step => !step.fires id, step.disturbs id = false := by
        intro step member
        simpa using List.all_eq_true.mp onward step (List.takeWhile_sublist _ |>.mem member)
      obtain ⟨_, _, next⟩ := (armed_fires_once split arms undisturbed).1 _ reached finished
      have fires := next (silent_iff.mp fun step member => (calm step member).2) 3 told final advanced
        undisturbed'
      have due : armed.dueTick ⟨2, id⟩ = reached.scheduler.tick.toNat + 1 := by
        rw [Step.dueTick, place, before, tick]
        decide
      rw [if_pos due, turn, tick] at fires
      exact ⟨program, _, _, armed, reached, final, told, split, arms, finished, tick, advanced, fires⟩

end Timers
