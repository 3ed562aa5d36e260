import Timers.Proofs.Resemblance
import Timers.Proofs.Summaries

/-! Alike schedulers stay alike when both take in a timer, when both advance, and when a handler
runs whose timers are known to be the same. The entry that is first on the schedule of the one is
first on that of the other, unless nobody knows its timer. What happens to timers that nobody
knows leaves the two alike, though the other scheduler takes no part in it. -/

namespace Timers

variable {H D : Type}

theorem rel_imp {β γ : Type} {related wider : β → γ → Prop}
    (implies : ∀ {first second}, related first second → wider first second) {first : Option β}
    {second : Option γ} (rel : Option.Rel related first second) :
    Option.Rel wider first second := by
  cases rel with
  | some same => exact .some (implies same)
  | none => exact .none

theorem rel_cases {β γ : Type} {related : β → γ → Prop} {first : Option β}
    {second : Option γ} (rel : Option.Rel related first second) :
    (first = none ∧ second = none) ∨
      ∃ one two, first = some one ∧ second = some two ∧ related one two := by
  cases rel with
  | some same => exact .inr ⟨_, _, rfl, rfl, same⟩
  | none => exact .inl ⟨rfl, rfl⟩

/-- What becomes of a record, but for its node, at the end of the run of its handler. -/
def Timer.ended (timer : Timer H D) : Timer H D :=
  if timer.phase = .firing then
    if timer.period = 0 then { timer with phase := .fired }
    else timer.started (timer.expiry.after timer.period) timer.period
  else timer

/-- The record with handler and data put back. -/
def Timer.returned (timer : Timer H D) (handler : H) (data : D) : Timer H D :=
  { timer with handler := some (timer.handler.getD handler), data := some data }

namespace Scheduler

variable {scheduler after : Scheduler H D} {id : TimerId} {timer : Timer H D}

private theorem Taken.effect {arming : Arming} {turn : UInt64}
    (taken : Taken scheduler arming turn timer after) :
    Effect scheduler none (· = arming.timer) after where
  tied := taken.tied
  queued := by simp [taken.left]
  turn := by simp [taken.issued]

private theorem popDue?_of_first (tied : scheduler.Tied) (spread : scheduler.Spread)
    {arming : Arming} {turn : UInt64} (queued : scheduler.Queued arming turn)
    (first : ∀ other later, scheduler.Queued other later →
      arming.expiry < other.expiry ∨ arming.expiry = other.expiry ∧ turn ≤ later)
    (due : arming.expiry ≤ scheduler.tick) :
    ∃ popped, scheduler.popDue? = some (arming, turn, popped) := by
  rcases tied.front_cases with ⟨_, vacant⟩ | ⟨node, front, held, least⟩
  · exact absurd queued (vacant arming turn)
  · have earlier := least arming turn queued
    have later := first node.item node.turn held
    obtain ⟨come, turns⟩ : node.item.expiry ≤ scheduler.tick ∧ node.turn = turn := by
      simp only [UInt64.lt_iff_toNat_lt, UInt64.le_iff_toNat_le, ← UInt64.toNat_inj] at *
      omega
    obtain rfl : node.item = arming := spread.single (turns ▸ held) queued
    refine ⟨{ scheduler with queue := scheduler.queue.pop.2 }, ?_⟩
    rw [tied.popDue?_of_front front, if_pos come, turns]

private theorem timer?_popDue? {arming : Arming} {turn : UInt64} {popped : Scheduler H D}
    (due : scheduler.popDue? = some (arming, turn, popped)) (found : scheduler.timer? id = some timer) :
    popped.timer? id = some timer := by
  obtain ⟨_, rfl⟩ := popDue?_eq due
  exact found

private theorem bare?_rearm (scheduler : Scheduler H D) (id other : TimerId) :
    (scheduler.rearm id).bare? other =
      if other = id then (scheduler.bare? id).map Timer.ended else scheduler.bare? other := by
  cases found : scheduler.timer? id with
  | none =>
    simp only [rearm, found]
    split
    next same => simp only [same, bare?, found, Option.map_none]
    next => rfl
  | some timer =>
    have bare : scheduler.bare? id = some timer.bare := by rw [bare?, found, Option.map_some]
    rw [bare, Option.map_some]
    by_cases firing : timer.phase = .firing
    · by_cases once : timer.period = 0
      · have ended : timer.bare.ended = { timer.bare with phase := .fired } := by
          simp [Timer.ended, Timer.bare, firing, once]
        simp only [rearm, found, if_pos firing, if_pos once]
        rw [ended]
        exact bare?_of_timers (timer?_of_update found _) other
      · have ended : timer.bare.ended =
            timer.bare.started (timer.expiry.after timer.period) timer.period := by
          simp [Timer.ended, Timer.bare, firing, once]
        simp only [rearm, found, if_pos firing, if_neg once]
        rw [ended]
        exact bare?_of_timers (timer?_of_update found _) other
    · have ended : timer.bare.ended = timer.bare := by simp [Timer.ended, Timer.bare, firing]
      simp only [rearm, found, if_neg firing]
      rw [ended, ← bare]
      split
      next same => rw [same]
      next => rfl

private theorem bare?_settle (scheduler : Scheduler H D) (id : TimerId) (tick : Tick) (handler : H)
    (data : D) (other : TimerId) :
    (scheduler.settle id tick handler data).bare? other =
      if other = id then (scheduler.bare? id).map fun timer => (timer.returned handler data).ended
      else scheduler.bare? other := by
  let told := scheduler.publish (.fired id tick)
  have returned : ∀ other, (told.takeBack id handler data).bare? other =
      if other = id then (scheduler.bare? id).map (·.returned handler data)
      else scheduler.bare? other := bare?_updateTimer told id fun _ => rfl
  apply (bare?_rearm (told.takeBack id handler data) id other).trans
  rw [returned, if_pos rfl, returned, Option.map_map]
  split <;> rfl

theorem settle_of_absent (absent : scheduler.timer? id = none) (tick : Tick) (handler : H)
    (data : D) : scheduler.settle id tick handler data = scheduler.publish (.fired id tick) := by
  have told : (scheduler.publish (.fired id tick)).timer? id = none := absent
  rw [settle, takeBack, updateTimer_of_absent told]
  simp only [rearm, told]

theorem settle_record (found : scheduler.timer? id = some timer) (tick : Tick) (handler : H)
    (data : D) : ∃ later, (scheduler.settle id tick handler data).timer? id = some later ∧
      later.phase = timer.ended.phase ∧ later.expiry = timer.ended.expiry ∧
      later.period = timer.period := by
  have bare := scheduler.bare?_settle id tick handler data id
  rw [if_pos rfl, bare?, bare?, found, Option.map_some, Option.map_some] at bare
  obtain ⟨later, present, same⟩ := Option.map_eq_some_iff.mp bare
  obtain ⟨phase, expiry, period⟩ :
      (timer.bare.returned handler data).ended.phase = timer.ended.phase ∧
        (timer.bare.returned handler data).ended.expiry = timer.ended.expiry ∧
        (timer.bare.returned handler data).ended.period = timer.period := by
    by_cases firing : timer.phase = .firing <;> by_cases once : timer.period = 0 <;>
      simp [Timer.ended, Timer.returned, Timer.bare, Timer.started, firing, once]
  exact ⟨later, present, (congrArg (·.phase) same).trans phase,
    (congrArg (·.expiry) same).trans expiry, (congrArg (·.period) same).trans period⟩

/-- When a timer is due again whose handler ends now. -/
def again? (scheduler : Scheduler H D) (id : TimerId) : Option Tick :=
  (scheduler.bare? id).bind Timer.again?

/-- Only a timer that is still marked as firing and has a period is due again. -/
theorem again?_eq_some {expiry : Tick} (again : scheduler.again? id = some expiry) :
    ∃ timer, scheduler.timer? id = some timer ∧ timer.phase = .firing ∧ timer.period ≠ 0 ∧
      expiry = timer.expiry.after timer.period := by
  obtain ⟨bare, present, again⟩ := Option.bind_eq_some_iff.mp again
  obtain ⟨timer, found, rfl⟩ := Option.map_eq_some_iff.mp present
  unfold Timer.again? at again
  split at again
  next repeats =>
    cases again
    exact ⟨timer, found, repeats.1, repeats.2, rfl⟩
  next => cases again

theorem settle_effect (tied : scheduler.Tied) (id : TimerId) (tick : Tick) (handler : H)
    (data : D) :
    Effect scheduler ((scheduler.again? id).map fun expiry => ⟨expiry, id⟩) (fun _ => False)
      (scheduler.settle id tick handler data) := by
  cases found : scheduler.timer? id with
  | some timer =>
    have again : scheduler.again? id = timer.again? := by
      rw [again?, bare?, found]
      rfl
    rw [again]
    exact settle_rearms tied found tick handler data
  | none =>
    have again : scheduler.again? id = none := by
      rw [again?, bare?, found]
      rfl
    rw [again]
    obtain ⟨armed, settled⟩ := settle_settles tied id tick handler data
    cases armed with
    | none => exact settled.effect
    | some arming =>
      obtain ⟨_, _, _, timer, present, _⟩ := settled.rearmed arming rfl
      cases found.symm.trans present

end Scheduler

namespace Alike

variable {known : TimerId → TimerId → Prop} {first second first' second' : Scheduler H D}
  {id other : TimerId}

theorem adds (alike : Alike known first second) (handler : H) (data : D)
    (paired : ∀ {id other}, known id other →
      (id = (first.add handler data).1 ↔ other = (second.add handler data).1)) :
    Alike known (first.add handler data).2 (second.add handler data).2 := by
  obtain ⟨effect, _, timers⟩ := Scheduler.add_adds alike.tied handler data
  obtain ⟨effect', _, timers'⟩ := Scheduler.add_adds alike.tied' handler data
  apply alike.rest effect effect' alike.clock
  intro id other same
  rw [Scheduler.bare?_of_timers timers, Scheduler.bare?_of_timers timers']
  by_cases new : id = (first.add handler data).1
  · rw [if_pos new, if_pos ((paired same).mp new)]
  · rw [if_neg new, if_neg (mt (paired same).mpr new)]
    exact alike.records same

theorem meet (alike : Alike known first second)
    (new : ∀ {any}, ¬ known id any ∧ ¬ known any other)
    (records : first.bare? id = second.bare? other)
    (idle : ∀ {arming turn}, first.Queued arming turn → arming.timer ≠ id) :
    Alike (fun any any' => known any any' ∨ any = id ∧ any' = other) first second := by
  have old : ∀ {arming turn} {any : TimerId}, first.Queued arming turn →
      known arming.timer any ∨ arming.timer = id ∧ any = other → known arming.timer any := by
    intro arming turn any queued same
    rcases same with same | ⟨same, _⟩
    · exact same
    · exact absurd same (idle queued)
  refine ⟨alike.tied, alike.tied', alike.spread, alike.spread', alike.clock, alike.lag, ?_, ?_, ?_,
    fun same same' level one one' two two' =>
      alike.order (old one same) (old two same') level one one' two two'⟩
  · intro any any' one one' same same'
    rcases same with same | ⟨rfl, rfl⟩ <;> rcases same' with same' | ⟨rfl, rfl⟩
    · exact alike.unique same same'
    · exact ⟨fun equal => absurd (equal ▸ same) new.1, fun equal => absurd (equal ▸ same) new.2⟩
    · exact ⟨fun equal => absurd (equal ▸ same') new.1, fun equal => absurd (equal ▸ same') new.2⟩
    · simp
  · intro any any' same
    rcases same with same | ⟨rfl, rfl⟩
    · exact alike.records same
    · exact records
  · intro arming turn queued
    obtain ⟨any, same⟩ := alike.covered queued
    exact ⟨any, .inl same⟩

theorem hide (alike : Alike known first second) {armed : Option Arming} {freed : TimerId → Prop}
    (effect : Effect first armed freed first')
    (hidden : ∀ {arming any}, armed = some arming → ¬ known arming.timer any)
    (onward : first.queue.nextTurn ≤ first'.queue.nextTurn) (clock : first'.clock = first.clock)
    (records : ∀ {id other}, known id other → first'.bare? id = first.bare? id) :
    Alike known first' second := by
  apply alike.move effect (.none alike.tied') _ onward (by simp) (clock.trans alike.clock)
    fun same => (records same).trans (alike.records same)
  intro id other same
  refine iff_of_false (fun arms => ?_) (by simp)
  obtain ⟨arming, fresh, rfl⟩ := Option.map_eq_some_iff.mp arms
  exact hidden fresh same

theorem begins (alike : Alike known first second) :
    (∃ error, first.beginAdvance = .error error ∧ second.beginAdvance = .error error) ∨
      ∃ begun begun', first.beginAdvance = .ok begun ∧ second.beginAdvance = .ok begun' ∧
        Alike known begun begun' := by
  have tick : second.tick = first.tick := congrArg Prod.fst alike.clock.symm
  have start : second.initialTick = first.initialTick := congrArg (·.2.1) alike.clock.symm
  have busy : second.dispatching = first.dispatching := congrArg (·.2.2) alike.clock.symm
  simp only [Scheduler.beginAdvance, tick, busy]
  cases first.dispatching with
  | true => exact .inl ⟨_, rfl, rfl⟩
  | false =>
    cases first.tick.next? with
    | none => exact .inl ⟨_, rfl, rfl⟩
    | some next =>
      refine .inr ⟨_, _, rfl, rfl, alike.congr rfl rfl rfl rfl ?_⟩
      simp only [Scheduler.clock, start]

theorem ends (alike : Alike known first second) : Alike known first.endAdvance second.endAdvance := by
  have clock : first.endAdvance.clock = second.endAdvance.clock :=
    congrArg (fun clock : Tick × Tick × Bool => (clock.1, clock.2.1, false)) alike.clock
  exact alike.congr rfl rfl rfl rfl clock

section Dispatch

variable {arming : Arming} {turn : UInt64} {popped lent : Scheduler H D} {given : H × D}

/-- The first of the entries that are known is the first of all in the other scheduler. -/
private theorem front (alike : Alike known first second) (same : known arming.timer other)
    (queued : first.Queued arming turn)
    (earliest : ∀ any later, first.Queued any later →
      arming.expiry < any.expiry ∨ arming.expiry = any.expiry ∧ turn ≤ later) :
    ∃ turn', second.Queued ⟨arming.expiry, other⟩ turn' ∧
      ∀ any later, second.Queued any later →
        arming.expiry < any.expiry ∨ arming.expiry = any.expiry ∧ turn' ≤ later := by
  obtain ⟨turn', queued'⟩ := alike.twin same queued
  refine ⟨turn', queued', ?_⟩
  intro any later two'
  obtain ⟨id, same'⟩ := alike.covered two'
  obtain ⟨sooner, two⟩ := alike.twin' same' two'
  rcases earliest _ _ two with less | ⟨equal, turns⟩
  · exact .inl less
  · have order := alike.order same same' equal queued queued' two two'
    refine .inr ⟨equal, ?_⟩
    rcases Nat.lt_or_eq_of_le (UInt64.le_iff_toNat_le.mp turns) with less | one
    · exact UInt64.le_of_lt (order.mp (UInt64.lt_iff_toNat_lt.mpr less))
    · obtain rfl : turn = sooner := UInt64.toNat_inj.mp one
      have single := alike.spread.single queued two
      have timers : other = any.timer := (alike.unique same same').mp (congrArg (·.timer) single)
      exact UInt64.le_of_eq (alike.tied'.queued_unique queued' two' timers).2

variable (valid : (⟨.between, first⟩ : Moment H D).Valid)
  (due : first.popDue? = some (arming, turn, popped))

include valid due

theorem dispatches (alike : Alike known first second)
    (valid' : (⟨.between, second⟩ : Moment H D).Valid) (same : known arming.timer other)
    (lends : popped.lend arming.timer = (some given, lent)) :
    ∃ turn' popped' lent', second.popDue? = some (⟨arming.expiry, other⟩, turn', popped') ∧
      popped'.lend other = (some given, lent') ∧ Alike known lent lent' := by
  obtain ⟨timer, taken⟩ := valid.dispatch_takes due lends
  have tick : first.tick = second.tick := congrArg Prod.fst alike.clock
  obtain ⟨turn', queued', earliest'⟩ := alike.front same taken.queued taken.first
  obtain ⟨popped', due'⟩ :=
    Scheduler.popDue?_of_first alike.tied' alike.spread' queued' earliest' (tick ▸ taken.due)
  obtain ⟨timer', given', lent', lends', taken'⟩ := valid'.dispatches due'
  obtain ⟨present, found, equal⟩ := alike.found same taken.found
  obtain rfl : present = timer' := Option.some.inj (found.symm.trans taken'.found)
  have clock := popped.clock_lend arming.timer
  rw [lends, Scheduler.clock_popDue? due] at clock
  have clock' := popped'.clock_lend other
  rw [lends', Scheduler.clock_popDue? due'] at clock'
  have gives := Scheduler.lend_gives (Scheduler.timer?_popDue? due taken.found) lends
  have gives' := Scheduler.lend_gives (Scheduler.timer?_popDue? due' taken'.found) lends'
  have handlers : present.handler = timer.handler := congrArg (·.handler) equal
  have datas : present.data = timer.data := congrArg (·.data) equal
  have all : given' = given := by
    apply Prod.ext
    · exact Option.some.inj (gives'.1.symm.trans (handlers.trans gives.1))
    · exact Option.some.inj (gives'.2.symm.trans (datas.trans gives.2))
  subst all
  refine ⟨turn', popped', lent', due', lends', ?_⟩
  apply alike.rest taken.effect taken'.effect (clock.trans (alike.clock.trans clock'.symm))
  have now := Scheduler.bare?_of_timers taken.timers
  have now' := Scheduler.bare?_of_timers taken'.timers
  have lentOut : present.bare.lentOut = timer.bare.lentOut := congrArg Timer.lentOut equal
  have bare : present.lentOut.bare = timer.lentOut.bare := lentOut
  rw [Option.map_some, bare] at now'
  intro any any' pair
  exact alike.records_at same now now' pair

theorem dispatches_hidden (alike : Alike known first second)
    (hidden : ∀ {any}, ¬ known arming.timer any)
    (lends : popped.lend arming.timer = (some given, lent)) : Alike known lent second := by
  obtain ⟨timer, taken⟩ := valid.dispatch_takes due lends
  have clock := popped.clock_lend arming.timer
  rw [lends, Scheduler.clock_popDue? due] at clock
  apply alike.hide taken.effect (by simp) (UInt64.le_of_eq taken.issued.symm) clock
  intro id other same
  have apart : id ≠ arming.timer := fun equal => hidden (equal ▸ same)
  rw [Scheduler.bare?_of_timers taken.timers, if_neg apart]

end Dispatch

theorem finished (alike : Alike known first second)
    (valid : (⟨.between, second⟩ : Moment H D).Valid) (nothing : first.popDue? = none) :
    second.popDue? = none := by
  cases due : second.popDue? with
  | none => rfl
  | some taken =>
    obtain ⟨arming, turn, popped⟩ := taken
    obtain ⟨_, _, _, _, takes⟩ := valid.dispatches due
    obtain ⟨id, same⟩ := alike.covered takes.queued
    obtain ⟨_, queued⟩ := alike.twin' same takes.queued
    have tick : first.tick = second.tick := congrArg Prod.fst alike.clock
    have ahead := alike.tied.popDue?_none nothing queued
    rw [tick] at ahead
    exact absurd takes.due (UInt64.not_le.mpr ahead)

/-- If all timers that are scheduled are known, then the one that comes first is the same in both,
and so is the time at which it comes. -/
theorem next (alike : Alike known first second)
    (all : ∀ {arming turn}, first.Queued arming turn → ∃ other, known arming.timer other) :
    first.nextExpiry? = second.nextExpiry? ∧
      Option.Rel known first.nextTimer? second.nextTimer? := by
  rcases Scheduler.views_cases alike.tied with
    ⟨expiry, timer, nothing⟩ | ⟨arming, turn, expiry, timer, queued, earliest⟩
  · rcases Scheduler.views_cases alike.tied' with
      ⟨expiry', timer', _⟩ | ⟨arming', turn', _, _, queued', _⟩
    · rw [expiry, timer, expiry', timer']
      exact ⟨rfl, .none⟩
    · obtain ⟨id, same⟩ := alike.covered queued'
      obtain ⟨_, queued⟩ := alike.twin' same queued'
      exact absurd queued (nothing _ _)
  · obtain ⟨other, same⟩ := all queued
    obtain ⟨turn', queued', earliest'⟩ := alike.front same queued earliest
    rcases Scheduler.views_cases alike.tied' with
      ⟨_, _, nothing⟩ | ⟨found, sooner, expiry', timer', first, least⟩
    · exact absurd queued' (nothing _ _)
    · have one := earliest' found sooner first
      have two := least ⟨arming.expiry, other⟩ turn' queued'
      obtain rfl : sooner = turn' := by
        simp only [UInt64.lt_iff_toNat_lt, UInt64.le_iff_toNat_le, ← UInt64.toNat_inj] at *
        omega
      obtain rfl := alike.spread'.single first queued'
      rw [expiry, timer, expiry', timer']
      exact ⟨rfl, .some same⟩

theorem settles (alike : Alike known first second) (same : known id other) (tick tick' : Tick)
    (handler : H) (data : D)
    (onward : first.queue.nextTurn ≤ (first.settle id tick handler data).queue.nextTurn) :
    Alike known (first.settle id tick handler data) (second.settle other tick' handler data) := by
  have again : first.again? id = second.again? other := by
    rw [Scheduler.again?, alike.records same]
    rfl
  have effect := Scheduler.settle_effect alike.tied id tick handler data
  have effect' := Scheduler.settle_effect alike.tied' other tick' handler data
  apply alike.move effect effect' _ onward
  · intro arming arms
    obtain ⟨_, _, rfl⟩ := Option.map_eq_some_iff.mp arms
    exact ⟨id, same⟩
  · exact (first.clock_settle id tick handler data).trans
      (alike.clock.trans (second.clock_settle other tick' handler data).symm)
  · apply alike.records_at same (first.bare?_settle id tick handler data)
    rw [alike.records same]
    exact second.bare?_settle other tick' handler data
  · intro any any' pair
    rw [again, Option.map_map, Option.map_map]
    cases second.again? other with
    | none => simp
    | some expiry =>
      simp only [Option.map_some, Function.comp_apply, Option.some.injEq]
      rw [eq_comm, alike.unique pair same, eq_comm]

theorem settles_hidden (alike : Alike known first second) (hidden : ∀ {any}, ¬ known id any)
    (tick : Tick) (handler : H) (data : D)
    (onward : first.queue.nextTurn ≤ (first.settle id tick handler data).queue.nextTurn) :
    Alike known (first.settle id tick handler data) second := by
  apply alike.hide (Scheduler.settle_effect alike.tied id tick handler data) _ onward
    (first.clock_settle id tick handler data)
  · intro any other same
    have apart : any ≠ id := fun equal => hidden (equal ▸ same)
    rw [Scheduler.bare?_settle, if_neg apart]
  · intro arming any arms
    obtain ⟨_, _, rfl⟩ := Option.map_eq_some_iff.mp arms
    exact hidden

end Alike

end Timers
