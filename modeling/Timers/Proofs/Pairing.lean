import Timers.Proofs.Executions
import Timers.Proofs.Matching

/-! Two systems that differ only in the ids of the timers. An errand comes to the same end on
both, with the same answers on the way, or to none on either. The handlers of timers with the same
number run errands themselves, so what holds of an errand outside of an advance is built on what
holds of one inside. -/

namespace Timers

variable {H D W α : Type}

/-- The same request to two systems, each under its own ids. -/
inductive Request.Matches (known : TimerId → TimerId → Prop) :
    Request H D (W × List TimerId) → Request H D (W × List TimerId) → Prop where
  | summary : Matches known (.query .summary) (.query .summary)
  | timers : Matches known (.query .timers) (.query .timers)
  | timer {id other} (same : known id other) :
    Matches known (.query (.timer id)) (.query (.timer other))
  | add (handler : H) (data : D) :
    Matches known (.command (.add handler data)) (.command (.add handler data))
  | command {given given' : Command H D} (matches' : given.Matches known given') :
    Matches known (.command given) (.command given')
  | advance : Matches known .advance .advance
  | shared (change : W → W) :
    Matches known (.shared fun (value, issued) => (change value, issued))
      (.shared fun (value, issued) => (change value, issued))

namespace Command.Matches

variable {known : TimerId → TimerId → Prop} {given given' : Command H D}

private theorem request_issues (matches' : given.Matches known given') (reply : given.Reply)
    (reply' : given'.Reply) : (Request.command given : Request H D W).issues reply = [] ∧
      (Request.command given' : Request H D W).issues reply' = [] := by
  cases matches' with
  | feed feeds =>
    cases given with
    | add handler data => cases feeds
    | _ => exact ⟨rfl, rfl⟩
  | _ => exact ⟨rfl, rfl⟩

end Command.Matches

section Orders

variable {issued issued' : List TimerId}

private theorem rel_of_number (length : issued.length = issued'.length) (number : Nat)
    {β : Type} {related : β → β → Prop} {first second : TimerId → β}
    (same : ∀ {id other}, Numbered issued issued' id other → related (first id) (second other)) :
    Option.Rel related ((issued[number]?).map first) ((issued'[number]?).map second) := by
  rcases Nat.lt_or_ge number issued.length with inside | outside
  · have found : issued[number]? = some issued[number] := List.getElem?_eq_getElem inside
    have found' : issued'[number]? = some issued'[number] :=
      List.getElem?_eq_getElem (length ▸ inside)
    rw [found, found']
    exact .some (same ⟨number, found, found'⟩)
  · rw [List.getElem?_eq_none outside, List.getElem?_eq_none (length ▸ outside)]
    exact .none

private theorem Order.requests (wanted : Order H D W) (length : issued.length = issued'.length) :
    Option.Rel (Request.Matches (Numbered issued issued')) (wanted.request? issued)
      (wanted.request? issued') := by
  cases wanted with
  | summary => exact .some .summary
  | timers => exact .some .timers
  | timer number => exact rel_of_number length number fun same => .timer same
  | add handler data => exact .some (.add handler data)
  | start number delay periodic =>
    exact rel_of_number length number fun same => .command (.start same delay periodic)
  | stop number => exact rel_of_number length number fun same => .command (.stop same)
  | remove number => exact rel_of_number length number fun same => .command (.remove same)
  | rebind number handler =>
    exact rel_of_number length number fun same => .command (.rebind same handler)
  | setPeriod number period =>
    exact rel_of_number length number fun same => .command (.setPeriod same period)
  | modifyData number change =>
    exact rel_of_number length number fun same => .command (.modifyData same change)
  | reset => exact .some (.command .reset)
  | advance => exact .some .advance
  | shared change => exact .some (.shared change)

end Orders

/-- Two systems that differ only in the ids of the timers. -/
structure Paired (place place' : Place) (system system' : System H D (W × List TimerId)) :
    Prop where
  value : system.shared.1 = system'.shared.1
  matched : Matched system.shared.2 system'.shared.2 ⟨place, system.scheduler⟩
    ⟨place', system'.scheduler⟩

/-- Two systems that have come from two others, and are paired as these were. -/
structure Follows (place place' : Place) (system system' final final' : System H D (W × List TimerId)) :
    Prop where
  paired : Paired place place' final final'
  grown : ∀ id other, Numbered system.shared.2 system'.shared.2 id other →
    Numbered final.shared.2 final'.shared.2 id other

def System.enlist (system : System H D (W × List TimerId)) (issues : List TimerId) :
    System H D (W × List TimerId) :=
  { system with shared := (system.shared.1, system.shared.2 ++ issues) }

@[simp] theorem System.enlist_nil (system : System H D (W × List TimerId)) :
    system.enlist [] = system := by
  simp [enlist]

private theorem System.perform_shared (system : System H D W) (advance : Advance H D W)
    (change : W → W) : system.perform advance (.shared change) =
      some (system.shared, { system with shared := change system.shared }) := rfl

section Carrying

variable (wanted : Order H D W) (next : Answer D W → Errand H D W α)
  (advance : Advance H D (W × List TimerId)) (system : System H D (W × List TimerId))

private theorem Errand.run_order :
    (Errand.order wanted next).program.run advance system =
      match wanted.request? system.shared.2 with
      | none => (next .unnamed).program.run advance system
      | some operation =>
        match system.perform advance operation with
        | none => none
        | some (reply, made) =>
          let after := made.enlist (operation.issues reply)
          (next (operation.answer after.shared.2 reply)).program.run advance after := by
  rw [Errand.program, Program.run, System.perform_shared]
  dsimp only
  cases wanted.request? system.shared.2 with
  | none => rfl
  | some operation =>
    dsimp only
    rw [Program.run]
    cases system.perform advance operation with
    | none => rfl
    | some made =>
      dsimp only
      rw [Program.run, System.perform_shared]
      rfl

private theorem Errand.steps_order (place : Place)
    (advancing : System H D (W × List TimerId) → List (Step H D)) :
    (Errand.order wanted next).program.steps place advance advancing system =
      match wanted.request? system.shared.2 with
      | none => (next .unnamed).program.steps place advance advancing system
      | some operation =>
        operation.steps place advancing system ++
          match system.perform advance operation with
          | none => []
          | some (reply, made) =>
            let after := made.enlist (operation.issues reply)
            (next (operation.answer after.shared.2 reply)).program.steps place advance advancing
              after := by
  rw [Errand.program, Program.steps, System.perform_shared, Request.steps, List.nil_append]
  dsimp only
  cases wanted.request? system.shared.2 with
  | none => rfl
  | some operation =>
    dsimp only
    rw [Program.steps]
    cases system.perform advance operation with
    | none => rfl
    | some made =>
      dsimp only
      rw [Program.steps, System.perform_shared, Request.steps, List.nil_append]
      rfl

end Carrying

/-- Two ways to advance that tell the same of paired systems, if nothing wraps in their steps. -/
def Advance.Agrees (place place' : Place) (advance advance' : Advance H D (W × List TimerId))
    (advancing advancing' : System H D (W × List TimerId) → List (Step H D)) : Prop :=
  ∀ {system system'}, Paired place place' system system' →
    (∀ step ∈ advancing system, step.Unwrapped ∧ step.Onward) →
    (∀ step ∈ advancing' system', step.Unwrapped) →
    Option.Rel (fun made made' =>
      (Request.advance : Request H D (W × List TimerId)).answer made.2.shared.2 made.1 =
        (Request.advance : Request H D (W × List TimerId)).answer made'.2.shared.2 made'.1 ∧
      Follows place place' system system' made.2 made'.2) (advance system) (advance' system')

section Programs

variable {place place' : Place} {system system' : System H D (W × List TimerId)}

namespace Follows

private theorem refl (paired : Paired place place' system system') :
    Follows place place' system system' system system' := ⟨paired, fun _ _ same => same⟩

private theorem trans {middle middle' final final' : System H D (W × List TimerId)}
    {start start' : Place}
    (first : Follows start start' system system' middle middle')
    (second : Follows place place' middle middle' final final') :
    Follows place place' system system' final final' :=
  ⟨second.paired, fun id other same => second.grown id other (first.grown id other same)⟩

end Follows

theorem Paired.summary (paired : Paired place place' system system') :
    (Request.query .summary : Request H D (W × List TimerId)).answer system.shared.2
        system.scheduler.summary =
      (Request.query .summary : Request H D (W × List TimerId)).answer system'.shared.2
        system'.scheduler.summary := by
  have matched := paired.matched
  have tick : system.scheduler.tick = system'.scheduler.tick := congrArg Prod.fst matched.alike.clock
  obtain ⟨expiry, timer⟩ : system.scheduler.nextExpiry? = system'.scheduler.nextExpiry? ∧
      system.scheduler.nextTimer?.map system.shared.2.idxOf =
        system'.scheduler.nextTimer?.map system'.shared.2.idxOf := matched.next
  have count : system.scheduler.timerCount = system'.scheduler.timerCount := matched.timerCount
  have scheduled : system.scheduler.scheduledCount = system'.scheduler.scheduledCount :=
    matched.scheduledCount
  simp only [Request.answer, Scheduler.summary, Scheduler.ticksUntilNext?, tick, expiry, timer, count,
    scheduled]

/-- The same request has been answered in the same way, and what it issued is on the lists. -/
def Answered (place place' : Place) (system system' : System H D (W × List TimerId))
    (operation operation' : Request H D (W × List TimerId))
    (made : operation.Reply × System H D (W × List TimerId))
    (made' : operation'.Reply × System H D (W × List TimerId)) : Prop :=
  let after := made.2.enlist (operation.issues made.1)
  let after' := made'.2.enlist (operation'.issues made'.1)
  operation.answer after.shared.2 made.1 = operation'.answer after'.shared.2 made'.1 ∧
    Follows place place' system system' after after'

private theorem Answered.of_quiet {operation operation' : Request H D (W × List TimerId)}
    {made : operation.Reply × System H D (W × List TimerId)}
    {made' : operation'.Reply × System H D (W × List TimerId)}
    (nobody : operation.issues made.1 = []) (nobody' : operation'.issues made'.1 = [])
    (told : operation.answer made.2.shared.2 made.1 = operation'.answer made'.2.shared.2 made'.1)
    (follows : Follows place place' system system' made.2 made'.2) :
    Answered place place' system system' operation operation' made made' := by
  unfold Answered
  rw [nobody, nobody', System.enlist_nil, System.enlist_nil]
  exact ⟨told, follows⟩

section Requests

variable (awake : place ≠ .between) (awake' : place' ≠ .between)
  {advance advance' : Advance H D (W × List TimerId)}
  {advancing advancing' : System H D (W × List TimerId) → List (Step H D)}
  (agrees : Advance.Agrees place place' advance advance' advancing advancing')

include awake awake' agrees

private theorem Paired.request (paired : Paired place place' system system')
    {operation operation' : Request H D (W × List TimerId)}
    (matches' : operation.Matches (Numbered system.shared.2 system'.shared.2) operation')
    (steady : ∀ step ∈ operation.steps place advancing system, step.Unwrapped ∧ step.Onward)
    (unwrapped' : ∀ step ∈ operation'.steps place' advancing' system', step.Unwrapped) :
    Option.Rel (Answered place place' system system' operation operation')
      (system.perform advance operation) (system'.perform advance' operation') := by
  have matched := paired.matched
  cases matches' with
  | summary => exact .some (.of_quiet rfl rfl paired.summary (.refl paired))
  | timers =>
    refine .some (.of_quiet rfl rfl ?_ (.refl paired))
    exact congrArg Answer.timers (Multiset.coe_eq_coe.mpr matched.timers)
  | timer same =>
    refine .some (.of_quiet rfl rfl ?_ (.refl paired))
    exact congrArg Answer.timer (matched.alike.view? same)
  | add handler data =>
    have now := steady _ List.mem_cons_self
    have now' := unwrapped' _ List.mem_cons_self
    have added := matched.add awake awake' handler data now.1 now'
    have new : Numbered _ _ (system.scheduler.add handler data).1
        (system'.scheduler.add handler data).1 :=
      (numbered_snoc_iff matched.length).mpr (.inr ⟨rfl, rfl⟩)
    refine Option.rel_some_some.mpr ⟨?_, ⟨paired.value, added⟩, ?_⟩
    · exact congrArg (fun number => Answer.told (.added number)) (added.named new)
    · exact fun _ _ same => same.grow
  | @command given given' matches' =>
    have now := steady _ List.mem_cons_self
    have now' := unwrapped' _ List.mem_cons_self
    obtain ⟨told, after⟩ := matched.perform awake awake' matches' now.1 now' now.2
    obtain ⟨nobody, nobody'⟩ : (Request.command given).issues (system.scheduler.perform given).1 = [] ∧
      (Request.command given').issues (system'.scheduler.perform given').1 = [] :=
        matches'.request_issues _ _
    exact .some (.of_quiet nobody nobody' (congrArg Answer.told told)
      ⟨⟨paired.value, after⟩, fun _ _ same => same⟩)
  | advance =>
    exact rel_imp (fun told => .of_quiet rfl rfl told.1 told.2) (agrees paired steady unwrapped')
  | shared change =>
    refine .some (.of_quiet rfl rfl ?_
      ⟨⟨congrArg change paired.value, matched⟩, fun _ _ same => same⟩)
    exact congrArg Answer.shared paired.value

/-- An errand comes to the same end on both of two paired systems, or to none on either. -/
theorem Errand.paired (errand : Errand H D W α) (paired : Paired place place' system system')
    (steady : ∀ step ∈ errand.program.steps place advance advancing system,
      step.Unwrapped ∧ step.Onward)
    (unwrapped' : ∀ step ∈ errand.program.steps place' advance' advancing' system',
      step.Unwrapped) :
    Option.Rel (fun made made' => made.1 = made'.1 ∧
        Follows place place' system system' made.2 made'.2)
      (errand.program.run advance system) (errand.program.run advance' system') := by
  induction errand generalizing system system' with
  | done value => exact .some ⟨rfl, .refl paired⟩
  | order wanted next ih =>
    rw [Errand.run_order, Errand.run_order]
    rw [Errand.steps_order] at steady unwrapped'
    rcases rel_cases (wanted.requests paired.matched.length) with
      ⟨asked, asked'⟩ | ⟨operation, operation', asked, asked', matches'⟩
    · rw [asked] at steady
      rw [asked'] at unwrapped'
      rw [asked, asked']
      exact ih .unnamed paired steady unwrapped'
    · rw [asked] at steady
      rw [asked'] at unwrapped'
      rw [asked, asked']
      obtain ⟨now, later⟩ := List.forall_mem_append.mp steady
      obtain ⟨now', later'⟩ := List.forall_mem_append.mp unwrapped'
      dsimp only at later later' ⊢
      rcases rel_cases (paired.request awake awake' agrees matches' now now') with
        ⟨made, made'⟩ | ⟨result, result', made, made', told, follows⟩
      · rw [made, made']
        exact .none
      · rw [made] at later
        rw [made'] at later'
        rw [made, made']
        dsimp only at later later' ⊢
        rw [← told] at later' ⊢
        exact rel_imp (fun done => ⟨done.1, follows.trans done.2⟩)
          (ih _ follows.paired later later')

end Requests

private theorem Errand.run_reaction (react : H → Nat → D → Errand H D W (H × D)) (handler : H)
    (id : TimerId) (data : D) (advance : Advance H D (W × List TimerId)) :
    (Errand.reaction react handler id data).run advance system =
      (react handler (system.shared.2.idxOf id) data).program.run advance system := by
  rw [Errand.reaction, Program.run, System.perform_shared]

private theorem Errand.steps_reaction (react : H → Nat → D → Errand H D W (H × D)) (handler : H)
    (id : TimerId) (data : D) (advance : Advance H D (W × List TimerId))
    (advancing : System H D (W × List TimerId) → List (Step H D)) :
    (Errand.reaction react handler id data).steps place advance advancing system =
      (react handler (system.shared.2.idxOf id) data).program.steps place advance advancing
        system := by
  rw [Errand.reaction, Program.steps, System.perform_shared, Request.steps, List.nil_append]

/-- Two runs of handlers, of timers with the same number. -/
structure Firing.Matches (known : TimerId → TimerId → Prop) (firing firing' : Firing) : Prop where
  timer : known firing.timer firing'.timer
  tick : firing.tick = firing'.tick
  expiry : firing.expiry = firing'.expiry

variable {react : H → Nat → D → Errand H D W (H × D)} {nested : Nat}

private theorem Advance.agrees_inside (react : H → Nat → D → Errand H D W (H × D)) (nested : Nat)
    (firing firing' : Firing) :
    Advance.Agrees (.inside firing) (.inside firing')
      (System.tryAdvance (Errand.reaction react) nested)
      (System.tryAdvance (Errand.reaction react) nested) (fun _ => []) (fun _ => []) := by
  intro system system' paired _ _
  have busy : system.scheduler.dispatching = true := paired.matched.paced.mpr (by simp)
  have busy' : system'.scheduler.dispatching = true := paired.matched.paced'.mpr (by simp)
  rw [System.tryAdvance_refused _ nested busy, System.tryAdvance_refused _ nested busy']
  exact .some ⟨rfl, .refl paired⟩

theorem Paired.dispatch {expiry : Tick} {id other : TimerId} {turn turn' : UInt64}
    {popped popped' lent lent' : Scheduler H D} {given : H × D}
    (paired : Paired .between .between system system')
    (lends : popped.lend id = (some given, lent)) (lends' : popped'.lend other = (some given, lent'))
    (same : Numbered system.shared.2 system'.shared.2 id other)
    (matched : Matched system.shared.2 system'.shared.2
      ⟨.inside ⟨id, lent.tick, expiry, turn⟩, lent⟩ ⟨.inside ⟨other, lent'.tick, expiry, turn'⟩, lent'⟩)
    (steady : ∀ step ∈ System.dispatchSteps (Errand.reaction react)
      (System.tryAdvance (Errand.reaction react) nested) ⟨expiry, id⟩ turn popped system,
      step.Unwrapped ∧ step.Onward)
    (unwrapped' : ∀ step ∈ System.dispatchSteps (Errand.reaction react)
      (System.tryAdvance (Errand.reaction react) nested) ⟨expiry, other⟩ turn' popped' system',
      step.Unwrapped) :
    Option.Rel (fun made made' => 
        Option.Rel (Firing.Matches (Numbered made.2.shared.2 made'.2.shared.2)) made.1 made'.1 ∧
        Follows .between .between system system' made.2 made'.2)
      (System.dispatch (Errand.reaction react) (System.tryAdvance (Errand.reaction react) nested)
        ⟨expiry, id⟩ turn { system with scheduler := popped })
      (System.dispatch (Errand.reaction react) (System.tryAdvance (Errand.reaction react) nested)
        ⟨expiry, other⟩ turn' { system' with scheduler := popped' }) := by
  obtain ⟨handler, data⟩ := given
  let started : System H D (W × List TimerId) := { system with scheduler := lent }
  let started' : System H D (W × List TimerId) := { system' with scheduler := lent' }
  have begun : Paired (.inside ⟨id, lent.tick, expiry, turn⟩)
      (.inside ⟨other, lent'.tick, expiry, turn'⟩) started started' := ⟨paired.value, matched⟩
  have tick : lent.tick = lent'.tick := congrArg Prod.fst matched.alike.clock
  rw [System.dispatch_of_lends lends, System.dispatch_of_lends lends']
  unfold System.dispatchSteps at steady unwrapped'
  simp only [lends, lends', Errand.run_reaction, Errand.steps_reaction] at steady unwrapped' ⊢
  rw [matched.named same] at steady ⊢
  obtain ⟨now, later⟩ := List.forall_mem_append.mp (List.forall_mem_cons.mp steady).2
  obtain ⟨now', _⟩ := List.forall_mem_append.mp (List.forall_mem_cons.mp unwrapped').2
  rcases rel_cases (Errand.paired (by simp) (by simp) (Advance.agrees_inside react nested _ _)
      (react handler (system'.shared.2.idxOf other) data) begun now now') with
    ⟨ran, ran'⟩ | ⟨result, result', ran, ran', value, follows⟩
  · rw [ran, ran']
    exact .none
  · obtain ⟨⟨handler, data⟩, made⟩ := result
    obtain ⟨⟨handler', data'⟩, made'⟩ := result'
    cases value
    rw [ran] at later
    rw [ran, ran']
    have known := follows.grown id other same
    have settled := follows.paired.matched.settles known handler data
      (later _ List.mem_cons_self).2
    refine .some ⟨.some ⟨known, tick, rfl⟩, ⟨follows.paired.value, settled⟩, follows.grown⟩

private theorem Firing.Matches.mono {known wider : TimerId → TimerId → Prop}
    {firing firing' : Firing}
    (same : firing.Matches known firing') (implies : ∀ id other, known id other → wider id other) :
    firing.Matches wider firing' :=
  ⟨implies _ _ same.timer, same.tick, same.expiry⟩

theorem Paired.drain {fuel : Nat} (paired : Paired .between .between system system')
    (steady : ∀ step ∈ System.drainSteps (Errand.reaction react)
      (System.tryAdvance (Errand.reaction react) nested) fuel system,
      step.Unwrapped ∧ step.Onward)
    (unwrapped' : ∀ step ∈ System.drainSteps (Errand.reaction react)
      (System.tryAdvance (Errand.reaction react) nested) fuel system', step.Unwrapped) :
    Option.Rel (fun made made' =>
        List.Forall₂ (Firing.Matches (Numbered made.2.shared.2 made'.2.shared.2)) made.1 made'.1 ∧
        Follows .between .between system system' made.2 made'.2)
      (System.drain (Errand.reaction react) (System.tryAdvance (Errand.reaction react) nested) fuel
        system)
      (System.drain (Errand.reaction react) (System.tryAdvance (Errand.reaction react) nested) fuel
        system') := by
  induction fuel generalizing system system' with
  | zero =>
    rcases paired.matched.dispatches with
      ⟨due, due'⟩ | ⟨expiry, id, other, turn, turn', popped, popped', given, lent, lent', due, due', _⟩
    · rw [System.drain_of_idle due, System.drain_of_idle due']
      exact .some ⟨.nil, .refl paired⟩
    · rw [System.drain_of_spent due, System.drain_of_spent due']
      exact .none
  | succ fuel ih =>
    rcases paired.matched.dispatches with
      ⟨due, due'⟩ | ⟨expiry, id, other, turn, turn', popped, popped', given, lent, lent', due, due',
        lends, lends', same, matched⟩
    · rw [System.drain_of_idle due, System.drain_of_idle due']
      exact .some ⟨.nil, .refl paired⟩
    · rw [System.drainSteps, due] at steady
      rw [System.drainSteps, due'] at unwrapped'
      rw [System.drain_of_due due, System.drain_of_due due']
      obtain ⟨now, later⟩ := List.forall_mem_append.mp steady
      obtain ⟨now', later'⟩ := List.forall_mem_append.mp unwrapped'
      rcases rel_cases (paired.dispatch lends lends' same matched now now') with
        ⟨made, made'⟩ | ⟨⟨told, made⟩, ⟨told', made'⟩, done, done', fired, follows⟩
      · rw [made, made']
        exact .none
      · rw [done] at later
        rw [done'] at later'
        rw [done, done', Option.bind_some, Option.bind_some]
        dsimp only at later later' ⊢
        rcases rel_cases (ih follows.paired later later') with
          ⟨final, final'⟩ | ⟨⟨rest, final⟩, ⟨rest', final'⟩, drained, drained', firings, onward⟩
        · rw [final, final']
          exact .none
        · rw [drained, drained']
          refine .some ⟨?_, follows.trans onward⟩
          cases fired with
          | none => exact firings
          | some first => exact .cons (first.mono onward.grown) firings

private theorem numbered_eq {issued issued' : List TimerId} (single : issued.Nodup)
    (single' : issued'.Nodup) {firings firings' : List Firing}
    (same : List.Forall₂ (Firing.Matches (Numbered issued issued')) firings firings') :
    firings.map (Firing.numbered issued) = firings'.map (Firing.numbered issued') := by
  induction same with
  | nil => rfl
  | cons first _ ih =>
    rw [List.map_cons, List.map_cons, ih, Firing.numbered, Firing.numbered,
      first.timer.idxOf single single', first.tick, first.expiry]

theorem Advance.agrees_outside (react : H → Nat → D → Errand H D W (H × D)) (fuel : Nat) :
    Advance.Agrees .outside .outside (System.tryAdvance (Errand.reaction react) fuel)
      (System.tryAdvance (Errand.reaction react) fuel)
      (System.advanceSteps (Errand.reaction react) fuel)
      (System.advanceSteps (Errand.reaction react) fuel) := by
  intro system system' paired steady unwrapped'
  rcases paired.matched.begins with
    ⟨error, refused, refused'⟩ | ⟨begun, begun', begins, begins', matched⟩
  · rw [System.tryAdvance_of_refused refused, System.tryAdvance_of_refused refused']
    refine .some ⟨?_, .refl paired⟩
    rcases Scheduler.error_of_beginAdvance refused with rfl | rfl <;> rfl
  · cases fuel with
    | zero =>
      rw [System.tryAdvance_of_spent begins, System.tryAdvance_of_spent begins']
      exact .none
    | succ fuel =>
      rw [System.advanceSteps, begins] at steady
      rw [System.advanceSteps, begins'] at unwrapped'
      rw [System.tryAdvance_of_begins begins, System.tryAdvance_of_begins begins']
      have started : Paired .between .between { system with scheduler := begun }
        { system' with scheduler := begun' } := ⟨paired.value, matched⟩
      obtain ⟨now, _⟩ := List.forall_mem_append.mp (List.forall_mem_cons.mp steady).2
      obtain ⟨now', _⟩ := List.forall_mem_append.mp (List.forall_mem_cons.mp unwrapped').2
      rcases rel_cases (started.drain now now') with
        ⟨drained, drained'⟩ | ⟨⟨told, made⟩, ⟨told', made'⟩, drained, drained', firings, follows⟩
      · rw [drained, drained']
        exact .none
      · rw [drained, drained']
        have done := follows.paired.matched
        have ended := done.ends (System.drain_finishes drained) (System.drain_finishes drained')
        refine .some ⟨?_, ⟨follows.paired.value, ended⟩, follows.grown⟩
        exact congrArg (fun told => Answer.advanced (.ok told))
          (numbered_eq done.enrolled.single done.enrolled'.single firings)

end Programs

end Timers
