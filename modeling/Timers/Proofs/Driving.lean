import Timers.Proofs.Conduct
import Timers.Ticker

/-! How ticks are driven does not matter. A ticker that drives a number of ticks does what so many
advances do, and advances add up. It drives until its limit or through the first tick in which a
handler stops it, whichever comes first. The loop looks at the flag only between two advances, and
a flag that is only ever cleared tells there whether it was cleared in one of them. -/

namespace Timers

variable {H D W α : Type}

/-- Whether a request stops a ticker that is running. -/
def Request.stops (running : W → Bool) (system : System H D W) : Request H D W → Bool
  | .shared change => running system.shared && !running (change system.shared)
  | _ => false

/-- Whether a request leaves a stopped ticker stopped. -/
def Request.Heeds (running : W → Bool) : Request H D W → Prop
  | .shared change => ∀ shared, running shared = false → running (change shared) = false
  | _ => True

def Program.stops (running : W → Bool) (advance : Advance H D W) :
    Program H D W α → System H D W → Bool
  | .done _, _ => false
  | .request operation next, system =>
    operation.stops running system ||
      match system.perform advance operation with
      | none => false
      | some (reply, after) => (next reply).stops running advance after

namespace System

def dispatchStops (running : W → Bool) (react : Reaction H D W) (nested : Advance H D W)
    (arming : Arming) (system : System H D W) : Bool :=
  match system.scheduler.lend arming.timer with
  | (none, _) => false
  | (some (handler, data), lent) =>
    (react handler arming.timer data).stops running nested { system with scheduler := lent }

def drainStops (running : W → Bool) (react : Reaction H D W) (nested : Advance H D W) (fuel : Nat)
    (system : System H D W) : Bool :=
  match system.scheduler.popDue? with
  | none => false
  | some (arming, turn, popped) =>
    match fuel with
    | 0 => false
    | fuel + 1 =>
      dispatchStops running react nested arming { system with scheduler := popped } ||
        match dispatch react nested arming turn { system with scheduler := popped } with
        | none => false
        | some (_, after) => drainStops running react nested fuel after

def advanceStops (running : W → Bool) (react : Reaction H D W) (fuel : Nat)
    (system : System H D W) : Bool :=
  match system.scheduler.beginAdvance with
  | .error _ => false
  | .ok begun =>
    match fuel with
    | 0 => false
    | fuel + 1 =>
      drainStops running react (tryAdvance react fuel) fuel { system with scheduler := begun }

/-- The ticker is stopped by a handler in the tick of this number, counted from 1. -/
def StopsIn (running : W → Bool) (react : Reaction H D W) (fuel : Nat) (system : System H D W) :
    Nat → Prop
  | 0 => False
  | ticks + 1 => ∃ told reached,
      system.run react fuel (Program.advanceTicks ticks) = some (told, reached) ∧
      reached.advanceStops running react fuel = true

/-- How many ticks are to be driven: none if the ticker is not running, and else up to the limit or
to the tick in which a handler stops the ticker, whichever comes first. -/
def Drives (running : W → Bool) (react : Reaction H D W) (fuel : Nat) (limit : Option Nat)
    (system : System H D W) (driven : Nat) : Prop :=
  let ends (ticks : Nat) : Prop := limit = some ticks ∨ system.StopsIn running react fuel ticks
  if running system.shared then ends driven ∧ ∀ ticks, ends ticks → driven ≤ ticks
  else driven = 0

end System

section Flag

variable {running : W → Bool} {react : Reaction H D W} {fuel nested : Nat}
  {system final : System H D W}

/-- A flag that is only ever cleared is set at the end if it was set and nobody has cleared it. -/
private theorem Program.running_run {program : Program H D W α} {value : α}
    (heeds : program.Uses (Request.Heeds running)) (busy : system.scheduler.dispatching = true)
    (ran : program.run (System.tryAdvance react nested) system = some (value, final)) :
    final.scheduler.dispatching = true ∧ running final.shared =
      (running system.shared && !program.stops running (System.tryAdvance react nested) system) := by
  induction program generalizing system with
  | done _ =>
    cases ran
    exact ⟨busy, by simp [Program.stops]⟩
  | request operation next ih =>
    obtain ⟨first, rest⟩ := heeds
    rw [Program.run] at ran
    rw [Program.stops]
    cases operation with
    | query asked => exact ih _ (rest _) busy ran
    | command given =>
      exact ih _ (rest _) ((system.scheduler.dispatching_perform given).trans busy) ran
    | advance =>
      rw [System.perform, System.tryAdvance_refused react nested busy] at ran ⊢
      exact ih _ (rest _) busy ran
    | shared change =>
      let changed : System H D W := { system with shared := change system.shared }
      obtain ⟨busy', told⟩ := @ih system.shared changed (rest _) busy ran
      refine ⟨busy', told.trans ?_⟩
      cases flag : running system.shared with
      | true => simp [Request.stops, System.perform, changed, flag]
      | false =>
        have cleared : running (change system.shared) = false := first system.shared flag
        simp [changed, cleared]

namespace System

private theorem running_dispatch {arming : Arming} {turn : UInt64} {told : Option Firing}
    (heeds : react.Uses (Request.Heeds running)) (busy : system.scheduler.dispatching = true)
    (dispatched : dispatch react (tryAdvance react nested) arming turn system = some (told, final)) :
    final.scheduler.dispatching = true ∧ running final.shared =
      (running system.shared && !dispatchStops running react (tryAdvance react nested) arming system) := by
  have clock := system.scheduler.clock_lend arming.timer
  unfold dispatchStops
  cases lends : system.scheduler.lend arming.timer with
  | mk given lent =>
    rw [lends] at clock
    have busy' : lent.dispatching = true := (congrArg (·.2.2) clock).trans busy
    cases given with
    | none =>
      cases (dispatch_of_missing lends).symm.trans dispatched
      exact ⟨busy', by simp⟩
    | some given =>
      rw [dispatch_of_lends lends] at dispatched
      obtain ⟨⟨⟨handler, data⟩, ran⟩, done, same⟩ := Option.map_eq_some_iff.mp dispatched
      cases same
      obtain ⟨busy, flag⟩ := Program.running_run (heeds given.1 arming.timer given.2) busy' done
      have settled := ran.scheduler.clock_settle arming.timer lent.tick handler data
      exact ⟨(congrArg (·.2.2) settled).trans busy, flag⟩

private theorem drainStops_of_due {nested : Advance H D W} {arming : Arming} {turn : UInt64}
    {popped : Scheduler H D} {told : Option Firing} {after : System H D W}
    (due : system.scheduler.popDue? = some (arming, turn, popped))
    (dispatched : dispatch react nested arming turn { system with scheduler := popped } =
      some (told, after)) :
    drainStops running react nested (fuel + 1) system =
      (dispatchStops running react nested arming { system with scheduler := popped } ||
        drainStops running react nested fuel after) := by
  rw [drainStops, due]
  dsimp only
  rw [dispatched]

private theorem running_drain {told : List Firing} (heeds : react.Uses (Request.Heeds running))
    (busy : system.scheduler.dispatching = true)
    (drained : drain react (tryAdvance react nested) fuel system = some (told, final)) :
    running final.shared =
      (running system.shared && !drainStops running react (tryAdvance react nested) fuel system) := by
  rw [← drained_iff] at drained
  induction drained with
  | idle nothing => simp [drainStops, nothing]
  | entry due dispatched _ ih =>
    have begun := (congrArg (·.2.2) (Scheduler.clock_popDue? due)).trans busy
    obtain ⟨busy', flag⟩ := running_dispatch heeds begun dispatched
    rw [ih busy', flag, drainStops_of_due due dispatched, Bool.not_or, Bool.and_assoc]

private theorem running_tryAdvance {reply : Except TimerError (List Firing)}
    (heeds : react.Uses (Request.Heeds running))
    (advanced : tryAdvance react fuel system = some (reply, final)) :
    running final.shared =
      (running system.shared && !advanceStops running react fuel system) := by
  cases advanced_iff.mpr advanced with
  | refused refused => simp [advanceStops, refused]
  | made begins drains =>
    obtain ⟨_, _, _, rfl⟩ := Scheduler.beginAdvance_eq begins
    rw [advanceStops, begins]
    exact running_drain heeds rfl drains

end System

end Flag

namespace System

variable {running : W → Bool} {react : Reaction H D W} {fuel : Nat} {system final : System H D W}
  {limit : Option Nat}

private theorem run_advanceTicks_zero (system : System H D W) (react : Reaction H D W)
    (fuel : Nat) : system.run react fuel (Program.advanceTicks 0) = some ([], system) := rfl

private theorem run_advanceTicks_add (system : System H D W) (react : Reaction H D W) (fuel : Nat)
    (ticks more : Nat) :
    system.run react fuel (Program.advanceTicks (ticks + more)) =
      (system.run react fuel (Program.advanceTicks ticks)).bind fun (told, reached) =>
        (reached.run react fuel (Program.advanceTicks more)).map fun (later, final) =>
          (told ++ later, final) := by
  induction ticks generalizing system with
  | zero =>
    rw [Nat.zero_add, run_advanceTicks_zero, Option.bind_some]
    dsimp only
    cases system.run react fuel (Program.advanceTicks more) <;> rfl
  | succ ticks ih =>
    rw [Nat.succ_add, run_advanceTicks_succ, run_advanceTicks_succ]
    cases system.run react fuel Program.advanceTick with
    | none => rfl
    | some first =>
      obtain ⟨told, after⟩ := first
      dsimp only [Option.bind_some]
      rw [ih]
      cases after.run react fuel (Program.advanceTicks ticks) with
      | none => rfl
      | some next =>
        dsimp only [Option.bind_some, Option.map_some]
        cases next.2.run react fuel (Program.advanceTicks more) <;> simp

private theorem run_advanceTicks_of_first {ticks : Nat} {told all : List Firing}
    {after : System H D W} (first : system.run react fuel Program.advanceTick = some (told, after)) :
    system.run react fuel (Program.advanceTicks (ticks + 1)) = some (all, final) ↔
      ∃ more, after.run react fuel (Program.advanceTicks ticks) = some (more, final) ∧
        told ++ more = all := by
  rw [run_advanceTicks_succ, first, Option.bind_some]
  simp

def goesOn (running : W → Bool) (limit : Option Nat) (driven : Nat) (system : System H D W) : Bool :=
  running system.shared && limit.all (driven < ·)

/-- One round of the loop. The flag is what it was before the sleep. -/
private theorem run_driveAfter_succ (rounds driven : Nat) (firings : Array Firing) :
    system.run react fuel (Ticker.driveAfter running limit (rounds + 1) driven firings) =
      if system.goesOn running limit driven then
        (system.run react fuel Program.advanceTick).bind fun (told, after) =>
          after.run react fuel
            (Ticker.driveAfter running limit rounds (driven + 1) (firings ++ told))
      else some (some (driven, firings.toList), system) := by
  have read : system.run react fuel (Program.shared id) = some (system.shared, system) := rfl
  rw [Ticker.driveAfter, run_bind, read, Option.bind_some]
  dsimp only
  unfold goesOn
  split
  next goes =>
    have awake : running system.shared = true := (Bool.and_eq_true_iff.mp goes).1
    rw [run_bind, read, Option.bind_some]
    dsimp only
    rw [if_pos awake, run_bind]
  next => rfl

/-- What the loop comes to from a number of ticks on. It drives some more, as long as it goes on
before each of them, and it ends as soon as it does not go on. -/
private theorem run_driveAfter_iff {rounds driven total : Nat} {firings : Array Firing}
    {told : List Firing} :
    system.run react fuel (Ticker.driveAfter running limit rounds driven firings) =
        some (some (total, told), final) ↔
      ∃ ticks more, ticks < rounds ∧ total = driven + ticks ∧ told = firings.toList ++ more ∧
        system.run react fuel (Program.advanceTicks ticks) = some (more, final) ∧
        final.goesOn running limit (driven + ticks) = false ∧
        ∀ earlier < ticks, ∃ before reached,
          system.run react fuel (Program.advanceTicks earlier) = some (before, reached) ∧
          reached.goesOn running limit (driven + earlier) = true := by
  induction rounds generalizing system driven firings with
  | zero =>
    constructor
    · intro nothing
      cases nothing
    · rintro ⟨_, _, none, _⟩
      cases none
  | succ rounds ih =>
    rw [run_driveAfter_succ]
    cases goes : system.goesOn running limit driven with
    | false =>
      simp only [Bool.false_eq_true, if_false]
      constructor
      · intro ended
        cases ended
        exact ⟨0, [], Nat.succ_pos _, rfl, (List.append_nil _).symm, rfl, goes, by simp⟩
      · rintro ⟨ticks, more, _, rfl, rfl, advanced, _, went⟩
        cases ticks with
        | zero =>
          cases advanced
          rw [List.append_nil]
          rfl
        | succ ticks =>
          obtain ⟨_, _, start, goes'⟩ := went 0 (Nat.succ_pos _)
          cases start
          cases goes.symm.trans goes'
    | true =>
      simp only [if_true, Option.bind_eq_some_iff, Prod.exists, ih]
      constructor
      · rintro ⟨told, after, first, ticks, more, enough, rfl, rfl, advanced, ends, went⟩
        refine ⟨ticks + 1, told ++ more, Nat.succ_lt_succ enough, by omega, by simp,
          (run_advanceTicks_of_first first).mpr ⟨more, advanced, rfl⟩, ?_, ?_⟩
        · rw [← ends]
          congr 1
          omega
        · intro earlier before
          cases earlier with
          | zero => exact ⟨[], system, rfl, goes⟩
          | succ earlier =>
            obtain ⟨later, reached, advanced, goes⟩ := went earlier (Nat.lt_of_succ_lt_succ before)
            refine ⟨told ++ later, reached,
              (run_advanceTicks_of_first first).mpr ⟨later, advanced, rfl⟩, ?_⟩
            rw [← goes]
            congr 1
            omega
      · rintro ⟨ticks, more, enough, rfl, rfl, advanced, ends, went⟩
        cases ticks with
        | zero =>
          cases advanced
          cases goes.symm.trans ends
        | succ ticks =>
          obtain ⟨⟨told, after⟩, first, _⟩ :=
            Option.bind_eq_some_iff.mp ((run_advanceTicks_succ ..).symm.trans advanced)
          obtain ⟨later, rest, rfl⟩ := (run_advanceTicks_of_first first).mp advanced
          refine ⟨told, after, first, ticks, later, Nat.lt_of_succ_lt_succ enough, by omega,
            by simp, rest, ?_, ?_⟩
          · rw [← ends]
            congr 1
            omega
          · intro earlier before
            obtain ⟨_, reached, advanced, goes⟩ := went (earlier + 1) (Nat.succ_lt_succ before)
            obtain ⟨later, rest, _⟩ := (run_advanceTicks_of_first first).mp advanced
            refine ⟨later, reached, rest, ?_⟩
            rw [← goes]
            congr 1
            omega

private theorem goesOn_iff {driven : Nat} : system.goesOn running limit driven = true ↔
    running system.shared = true ∧ ∀ most, limit = some most → driven < most := by
  rw [goesOn, Bool.and_eq_true_iff]
  cases limit <;> simp

private theorem goesOn_eq_false_iff {driven : Nat} : system.goesOn running limit driven = false ↔
    running system.shared = false ∨ ∃ most, limit = some most ∧ most ≤ driven := by
  rw [goesOn, Bool.and_eq_false_iff]
  cases limit <;> simp

variable {told : List Firing} {ticks : Nat}

private theorem reached_of_le {earlier : Nat} (before : earlier ≤ ticks)
    (advanced : system.run react fuel (Program.advanceTicks ticks) = some (told, final)) :
    ∃ passed reached,
      system.run react fuel (Program.advanceTicks earlier) = some (passed, reached) := by
  obtain ⟨rest, rfl⟩ := Nat.exists_eq_add_of_le before
  rw [run_advanceTicks_add] at advanced
  obtain ⟨⟨passed, reached⟩, first, _⟩ := Option.bind_eq_some_iff.mp advanced
  exact ⟨passed, reached, first⟩

private theorem running_of_succ (heeds : react.Uses (Request.Heeds running))
    (advanced : system.run react fuel (Program.advanceTicks (ticks + 1)) = some (told, final)) :
    ∃ before reached, system.run react fuel (Program.advanceTicks ticks) = some (before, reached) ∧
      running final.shared =
        (running reached.shared && !reached.advanceStops running react fuel) := by
  rw [run_advanceTicks_add] at advanced
  obtain ⟨⟨before, reached⟩, first, onward⟩ := Option.bind_eq_some_iff.mp advanced
  obtain ⟨⟨_, _⟩, last, same⟩ := Option.map_eq_some_iff.mp onward
  cases same
  rw [run_advanceTicks_succ, run_advanceTick] at last
  obtain ⟨⟨_, _⟩, tick, nothing⟩ := Option.bind_eq_some_iff.mp last
  obtain ⟨⟨reply, after⟩, advanced, same⟩ := Option.map_eq_some_iff.mp tick
  cases same
  cases nothing
  exact ⟨before, reached, first, running_tryAdvance heeds advanced⟩

private theorem stopped_of_stopsIn (heeds : react.Uses (Request.Heeds running))
    (advanced : system.run react fuel (Program.advanceTicks ticks) = some (told, final))
    (stops : system.StopsIn running react fuel ticks) : running final.shared = false := by
  cases ticks with
  | zero => exact stops.elim
  | succ ticks =>
    obtain ⟨_, _, passed, stops⟩ := stops
    obtain ⟨_, _, passed', told⟩ := running_of_succ heeds advanced
    cases passed.symm.trans passed'
    rw [told, stops, Bool.not_true, Bool.and_false]

private theorem Drives.still (heeds : react.Uses (Request.Heeds running))
    (drives : system.Drives running react fuel limit ticks) {earlier : Nat} (before : earlier < ticks)
    {reached : System H D W}
    (advanced : system.run react fuel (Program.advanceTicks earlier) = some (told, reached)) :
    running reached.shared = true ∧ ∀ most, limit = some most → ticks ≤ most := by
  unfold Drives at drives
  split at drives
  next flag =>
    obtain ⟨_, least⟩ := drives
    refine ⟨?_, fun most limited => least most (.inl limited)⟩
    induction earlier generalizing told reached with
    | zero =>
      cases advanced
      exact flag
    | succ earlier ih =>
      obtain ⟨_, middle, passed, told⟩ := running_of_succ heeds advanced
      have quiet : middle.advanceStops running react fuel = false := by
        apply Bool.eq_false_iff.mpr
        intro stops
        have first := least (earlier + 1) (.inr ⟨_, middle, passed, stops⟩)
        omega
      rw [told, quiet, ih (by omega) passed]
      rfl
  next => omega

theorem drives_iff (heeds : react.Uses (Request.Heeds running))
    (advanced : system.run react fuel (Program.advanceTicks ticks) = some (told, final)) :
    system.Drives running react fuel limit ticks ↔
      final.goesOn running limit ticks = false ∧
      ∀ earlier < ticks, ∃ before reached,
        system.run react fuel (Program.advanceTicks earlier) = some (before, reached) ∧
        reached.goesOn running limit earlier = true := by
  constructor
  · intro drives
    refine ⟨Bool.eq_false_iff.mpr fun goes => ?_, fun earlier before => ?_⟩
    · obtain ⟨flag', fewer⟩ := goesOn_iff.mp goes
      unfold Drives at drives
      split at drives
      next =>
        rcases drives.1 with limited | stops
        · exact Nat.lt_irrefl _ (fewer ticks limited)
        · cases flag'.symm.trans (stopped_of_stopsIn heeds advanced stops)
      next flag =>
        subst drives
        cases advanced
        exact flag flag'
    · obtain ⟨_, reached, passed⟩ := reached_of_le (Nat.le_of_lt before) advanced
      obtain ⟨flag, most⟩ := drives.still heeds before passed
      exact ⟨_, reached, passed, goesOn_iff.mpr ⟨flag, fun limit same =>
        Nat.lt_of_lt_of_le before (most limit same)⟩⟩
  · rintro ⟨ends, went⟩
    have goes : ∀ {earlier before reached}, earlier < ticks →
        system.run react fuel (Program.advanceTicks earlier) = some (before, reached) →
        running reached.shared = true ∧ ∀ most, limit = some most → earlier < most := by
      intro earlier before reached early passed
      obtain ⟨_, _, passed', goes⟩ := went earlier early
      cases passed.symm.trans passed'
      exact goesOn_iff.mp goes
    unfold Drives
    split
    next flag =>
      refine ⟨?_, fun other halts => Nat.le_of_not_lt fun early => ?_⟩
      · cases ticks with
        | zero =>
          cases advanced
          rcases goesOn_eq_false_iff.mp ends with stopped | ⟨most, limited, none⟩
          · cases stopped.symm.trans flag
          · exact .inl (limited.trans (congrArg some (Nat.le_zero.mp none)))
        | succ ticks =>
          obtain ⟨_, reached, passed, told⟩ := running_of_succ heeds advanced
          obtain ⟨flag', fewer⟩ := goes (Nat.lt_succ_self ticks) passed
          cases stops : reached.advanceStops running react fuel with
          | true => exact .inr ⟨_, reached, passed, stops⟩
          | false =>
            rw [stops, flag'] at told
            rcases goesOn_eq_false_iff.mp ends with stopped | ⟨most, limited, reached⟩
            · cases stopped.symm.trans told
            · have early := fewer most limited
              exact .inl (limited.trans (congrArg some (by omega)))
      · obtain ⟨_, reached, passed⟩ := reached_of_le (Nat.le_of_lt early) advanced
        obtain ⟨flag', fewer⟩ := goes early passed
        rcases halts with limited | stops
        · exact Nat.lt_irrefl _ (fewer other limited)
        · cases flag'.symm.trans (stopped_of_stopsIn heeds passed stops)
    next flag =>
      cases ticks with
      | zero => rfl
      | succ ticks => exact absurd (goes (Nat.succ_pos ticks) rfl).1 flag

end System

/-- A ticker does what so many advances do: none if it has been stopped before, and else up to its
limit or to the tick in which a handler stops it first. If these advances end, so does the ticker,
and it drives no tick more. And advances add up, with all that they tell. -/
theorem ticker_drives (running : W → Bool) (react : Reaction H D W)
    (heeds : react.Uses (Request.Heeds running)) (fuel : Nat) (system : System H D W)
    (limit : Option Nat) :
    (∀ rounds driven told final,
      system.run react fuel (Ticker.drive running limit rounds) = some (some (driven, told), final) →
      system.Drives running react fuel limit driven ∧
        system.run react fuel (Program.advanceTicks driven) = some (told, final)) ∧
    (∀ rounds driven told final, system.Drives running react fuel limit driven → driven < rounds →
      system.run react fuel (Program.advanceTicks driven) = some (told, final) →
      system.run react fuel (Ticker.drive running limit rounds) =
        some (some (driven, told), final)) ∧
    ∀ ticks more, system.run react fuel (Program.advanceTicks (ticks + more)) =
      (system.run react fuel (Program.advanceTicks ticks)).bind fun (told, reached) =>
        (reached.run react fuel (Program.advanceTicks more)).map fun (later, final) =>
          (told ++ later, final) := by
  refine ⟨?_, ?_, system.run_advanceTicks_add react fuel⟩
  · intro rounds driven told final drove
    obtain ⟨ticks, more, _, rfl, rfl, advanced, ends, went⟩ := System.run_driveAfter_iff.mp drove
    simp only [Nat.zero_add] at ends went ⊢
    exact ⟨(System.drives_iff heeds advanced).mpr ⟨ends, went⟩, advanced⟩
  · intro rounds driven told final drives enough advanced
    obtain ⟨ends, went⟩ := (System.drives_iff heeds advanced).mp drives
    refine System.run_driveAfter_iff.mpr ⟨driven, told, enough, (Nat.zero_add _).symm, rfl,
      advanced, ?_⟩
    simp only [Nat.zero_add]
    exact ⟨ends, went⟩

/-- A handler stops the ticker when its timer has fired three times. Without a limit this takes six
ticks. -/
theorem ticker_drives_stopped :
    let react : Reaction Unit Nat Ticker := fun handler _ data => do
      if data = 2 then
        let _ ← Program.shared Ticker.stop
      return (handler, data + 1)
    let timers := ((Scheduler.ofConfig {}).add () 0).2
    let system : System Unit Nat Ticker := ⟨(timers.start ⟨⟨0, 0⟩⟩ 2 true).2, { micros := 1000 }⟩
    system.Drives (·.running) react 5 none 6 ∧
      ∃ told final, system.run react 5 (Program.advanceTicks 6) = some (told, final) ∧
        told.length = 3 ∧ final.shared.running = false := by
  intro react timers system
  have heeds : react.Uses (Request.Heeds (·.running)) := by
    intro handler id data
    by_cases third : data = 2
    · subst third
      exact ⟨fun _ _ => rfl, fun _ => trivial⟩
    · simp only [react, third, if_false]
      trivial
  have drove : (system.run react 5 (Ticker.drive (·.running) none 9)).map (fun made =>
      (made.1.map fun driven => (driven.1, driven.2.length), made.2.shared.running)) =
      some (some (6, 3), false) := by decide +kernel
  obtain ⟨⟨reply, final⟩, ran, same⟩ := Option.map_eq_some_iff.mp drove
  simp only [Prod.mk.injEq] at same
  obtain ⟨counted, stopped⟩ := same
  obtain ⟨⟨driven, told⟩, replied, tally⟩ := Option.map_eq_some_iff.mp counted
  subst replied
  simp only [Prod.mk.injEq] at tally
  obtain ⟨rfl, fired⟩ := tally
  obtain ⟨drives, advanced⟩ := (ticker_drives _ react heeds 5 system none).1 9 _ told final ran
  exact ⟨drives, told, final, advanced, fired, stopped⟩

end Timers
