import Timers.Proofs.Abreast

/-! Starts and stops of different timers commute. The two orders give other queues and other turns,
but the turns of the two timers are compared only if these are due at the same tick, which is
excluded. So the two systems cannot be told apart by anything that is done with them later, but by
the order of the two events. -/

namespace Timers

variable {H D W : Type}

inductive Switch where
  | start (timer : TimerId) (delay : UInt64) (periodic : Bool)
  | stop (timer : TimerId)

namespace Switch

def timer : Switch → TimerId
  | .start timer _ _ | .stop timer => timer

def command : Switch → Command H D
  | .start timer delay periodic => .start timer delay periodic
  | .stop timer => .stop timer

/-- When the timer is due that is started at a tick. -/
def expiry? (tick : Tick) : Switch → Option Tick
  | .start _ delay _ => some (tick.after delay)
  | .stop _ => none

def event (tick : Tick) : Switch → Event
  | .start timer delay _ => .started timer (tick.after delay)
  | .stop timer => .stopped timer

def change (tick : Tick) (timer : Timer H D) : Switch → Timer H D
  | .start _ delay periodic => timer.started (tick.after delay) (if periodic then delay else 0)
  | .stop _ =>
    if timer.phase = .scheduled ∨ timer.phase = .firing then { timer with phase := .stopped }
    else timer

def reply (timer : Timer H D) : (switch : Switch) → (switch.command : Command H D).Reply
  | .start .. => (.ok () : Except TimerError Unit)
  | .stop _ => (.ok (timer.phase = .scheduled) : Except TimerError Bool)

end Switch

/-- What a start or a stop does to a scheduler in which the timer has a record. -/
structure Switched (switch : Switch) (timer : Timer H D) (before after : Scheduler H D) : Prop where
  effect : Effect before ((switch.expiry? before.tick).map (⟨·, switch.timer⟩))
    (· = switch.timer) after
  records : ∀ other, after.bare? other =
    if other = switch.timer then some (switch.change before.tick timer) else before.bare? other
  feed : after.feed = before.feed.map (·.publishAll [switch.event before.tick])
  clock : after.clock = before.clock
  shape : after.shape = before.shape

section Orders

variable {one two : Switch} {timer timer' : Timer H D}
  {before after after' last last' : Scheduler H D} {arming other arming' other' : Arming}
  {turn turn' later later' : UInt64}

namespace Switched

private theorem tick (first : Switched one timer before after) : after.tick = before.tick :=
  congrArg Prod.fst first.clock

private theorem origin (first : Switched one timer before after)
    (second : Switched two timer' after last) (queued : last.Queued arming turn) :
    before.Queued arming turn ∧ arming.timer ≠ one.timer ∧ arming.timer ≠ two.timer ∨
      arming.timer = one.timer ∧ one.expiry? before.tick = some arming.expiry ∧
        turn = before.queue.nextTurn ∨
      arming.timer = two.timer ∧ two.expiry? before.tick = some arming.expiry ∧
        turn = after.queue.nextTurn := by
  rcases (second.effect.queued arming turn).mp queued with ⟨queued, kept⟩ | ⟨armed, rfl⟩
  · rcases (first.effect.queued arming turn).mp queued with ⟨queued, kept'⟩ | ⟨armed, rfl⟩
    · exact .inl ⟨queued, kept', kept⟩
    · obtain ⟨expiry, due, rfl⟩ := Option.map_eq_some_iff.mp armed
      exact .inr (.inl ⟨rfl, due, rfl⟩)
  · rw [first.tick] at armed
    obtain ⟨expiry, due, rfl⟩ := Option.map_eq_some_iff.mp armed
    exact .inr (.inr ⟨rfl, due, rfl⟩)

end Switched

/-- Two different timers are started or stopped, in the one order and in the other. -/
structure Interchange (one two : Switch) (timer timer' : Timer H D)
    (before after after' last last' : Scheduler H D) : Prop where
  distinct : one.timer ≠ two.timer
  first : Switched one timer before after
  second : Switched two timer' after last
  first' : Switched two timer' before after'
  second' : Switched one timer after' last'

namespace Interchange

variable (orders : Interchange one two timer timer' before after after' last last')

include orders

private theorem shapes : last.shape = last'.shape := by
  rw [orders.second.shape, orders.first.shape, orders.second'.shape, orders.first'.shape]

private theorem clocks : last.clock = last'.clock := by
  rw [orders.second.clock, orders.first.clock, orders.second'.clock, orders.first'.clock]

private theorem feeds : Option.Rel (Feed.Exchanged (one.event before.tick) (two.event before.tick))
    last.feed last'.feed := by
  rw [orders.second.feed, orders.first.feed, orders.second'.feed, orders.first'.feed,
    orders.first.tick, orders.first'.tick]
  cases before.feed with
  | none => exact .none
  | some feed => exact .some (.swapped feed)

private theorem records (id : TimerId) : last.bare? id = last'.bare? id := by
  rw [orders.second.records, orders.first.records, orders.second'.records, orders.first'.records,
    orders.first.tick, orders.first'.tick]
  by_cases same : id = one.timer
  · rw [if_neg (fun equal => orders.distinct (same.symm.trans equal)), if_pos same, if_pos same]
  · rw [if_neg same, if_neg same]

private theorem onward (forth : before.queue.nextTurn ≤ after.queue.nextTurn)
    (further : after.queue.nextTurn ≤ last.queue.nextTurn) :
    before.queue.nextTurn ≤ after'.queue.nextTurn ∧
      after'.queue.nextTurn ≤ last'.queue.nextTurn ∧
      last'.queue.nextTurn = last.queue.nextTurn := by
  have turns := orders.first.effect.turn
  have turns' := orders.second.effect.turn
  have swapped := orders.first'.effect.turn
  have swapped' := orders.second'.effect.turn
  simp only [Option.isSome_map, orders.first.tick, orders.first'.tick] at turns turns' swapped swapped'
  rw [turns', turns] at further
  rw [turns] at forth
  rw [swapped', swapped, turns', turns]
  generalize (one.expiry? before.tick).isSome = arms, (two.expiry? before.tick).isSome = arms'
    at forth further
  cases arms <;> cases arms' <;> simp_all

variable (tied : before.Tied) (spread : before.Spread)

include tied spread

/-- An entry that is in both is old and has the same turn, or it is of the one timer or of the
other, and has another turn when the order is another. -/
private theorem turns (same : arming.timer = arming'.timer) (queued : last.Queued arming turn)
    (queued' : last'.Queued arming' turn') :
    turn = turn' ∧ turn < before.queue.nextTurn ∨
      one.expiry? before.tick = some arming.expiry ∧ turn = before.queue.nextTurn ∧
        turn' = after'.queue.nextTurn ∨
      two.expiry? before.tick = some arming.expiry ∧ turn = after.queue.nextTurn ∧
        turn' = before.queue.nextTurn := by
  have distinct := orders.distinct
  rcases orders.first.origin orders.second queued with
      ⟨old, other, other'⟩ | ⟨owner, due, turns⟩ | ⟨owner, due, turns⟩ <;>
    rcases orders.first'.origin orders.second' queued' with
      ⟨old', another, another'⟩ | ⟨owner', _, turns'⟩ | ⟨owner', _, turns'⟩
  · exact .inl ⟨(tied.queued_unique old old' same).2, spread.early old⟩
  · exact absurd (same.trans owner') other'
  · exact absurd (same.trans owner') other
  · exact absurd (same.symm.trans owner) another'
  · exact absurd (owner.symm.trans (same.trans owner')) distinct
  · exact .inr (.inl ⟨due, turns, turns'⟩)
  · exact absurd (same.symm.trans owner) another
  · exact .inr (.inr ⟨due, turns, turns'⟩)
  · exact absurd (owner'.symm.trans (same.symm.trans owner)) distinct

variable
  (apart : ∀ expiry, one.expiry? before.tick = some expiry → two.expiry? before.tick ≠ some expiry)
  (forth : before.queue.nextTurn ≤ after.queue.nextTurn)
  (further : after.queue.nextTurn ≤ last.queue.nextTurn)

include apart forth further

/-- Of timers that are due at the same tick the same one comes first. The two whose turns have
changed are not both among them. -/
private theorem order (same : arming.timer = arming'.timer) (same' : other.timer = other'.timer)
    (level : arming.expiry = other.expiry) (queued : last.Queued arming turn)
    (queued' : last'.Queued arming' turn') (queuedToo : last.Queued other later)
    (queuedToo' : last'.Queued other' later') : turn < later ↔ turn' < later' := by
  obtain ⟨forth', _⟩ := orders.onward forth further
  have places := orders.turns tied spread same queued queued'
  have places' := orders.turns tied spread same' queuedToo queuedToo'
  have clash : one.expiry? before.tick = some arming.expiry →
      two.expiry? before.tick ≠ some other.expiry := fun due due' =>
    apart _ due (due'.trans (congrArg some level.symm))
  have clash' : one.expiry? before.tick = some other.expiry →
      two.expiry? before.tick ≠ some arming.expiry := fun due due' =>
    apart _ due (due'.trans (congrArg some level))
  simp only [UInt64.lt_iff_toNat_lt, UInt64.le_iff_toNat_le, ← UInt64.toNat_inj] at *
  rcases places with ⟨_, _⟩ | ⟨due, _, _⟩ | ⟨due, _, _⟩
  · rcases places' with ⟨_, _⟩ | ⟨_, _, _⟩ | ⟨_, _, _⟩ <;> omega
  · rcases places' with ⟨_, _⟩ | ⟨_, _, _⟩ | ⟨due', _, _⟩
    · omega
    · omega
    · exact absurd due' (clash due)
  · rcases places' with ⟨_, _⟩ | ⟨due', _, _⟩ | ⟨_, _, _⟩
    · omega
    · exact absurd due (clash' due')
    · omega

private theorem alike : Alike (· = ·) last last' := by
  obtain ⟨forth', further', total⟩ := orders.onward forth further
  refine ⟨orders.second.effect.tied, orders.second'.effect.tied,
    orders.second.effect.spread (orders.first.effect.spread spread forth) further,
    orders.second'.effect.spread (orders.first'.effect.spread spread forth') further',
    orders.clocks, UInt64.le_of_eq total, ?_, ?_, fun {arming turn} _ => ⟨arming.timer, rfl⟩,
    fun same same' level => orders.order tied spread apart forth further same same' level⟩
  · rintro id _ id' _ rfl rfl
    rfl
  · rintro id _ rfl
    exact orders.records id

end Interchange

end Orders

private theorem Interchange.follow {config : Config} {steps steps' : List (Step H D)}
    {one two : Switch} {timer timer' : Timer H D} {before after after' last last' : Scheduler H D}
    (orders : Interchange one two timer timer' before after after' last last')
    (run : Run (.ofConfig config) steps ⟨.outside, last⟩)
    (run' : Run (.ofConfig config) steps' ⟨.outside, last'⟩) (alike : Alike (· = ·) last last')
    {react : Reaction H D W}
    (impartial : before.feed.isSome → ∀ handler id data,
      (react handler id data).Impartial (one.event before.tick) (two.event before.tick))
    {fuel : Nat} {shared : W} {operations : List (Request H D W)}
    (onward : ∀ step ∈ System.followSteps react fuel ⟨last, shared⟩ operations, step.Onward) :
    Indistinct (one.event before.tick) (two.event before.tick) (⟨last, shared⟩ : System H D W)
        ⟨last', shared⟩ ∧
      Option.Rel (List.Forall₂ (Stage.Like (one.event before.tick) (two.event before.tick)))
        (System.follow react fuel ⟨last, shared⟩ operations)
        (System.follow react fuel ⟨last', shared⟩ operations) := by
  cases opened : before.feed with
  | some feed =>
    have impartial := impartial (by rw [opened]; rfl)
    have abreast : Abreast (one.event before.tick) (two.event before.tick) .outside .outside
        (⟨last, shared⟩ : System H D W) ⟨last', shared⟩ :=
      ⟨rfl, .of_runs run run' orders.shapes orders.feeds alike⟩
    exact ⟨abreast.indistinct, abreast.follow impartial onward⟩
  | none =>
    -- Nobody listens, so there is no event that could change places with another.
    have closed : last.feed = none := by
      rw [orders.second.feed, orders.first.feed, opened]
      rfl
    have closed' : last'.feed = none := by
      rw [orders.second'.feed, orders.first'.feed, opened]
      rfl
    let event := one.event before.tick
    have feeds : Option.Rel (Feed.Exchanged event event) last.feed last'.feed := by
      rw [closed, closed']
      exact .none
    have abreast : Abreast event event .outside .outside (⟨last, shared⟩ : System H D W)
        ⟨last', shared⟩ := ⟨rfl, .of_runs run run' orders.shapes feeds alike⟩
    have impartial : ∀ handler id data, (react handler id data).Impartial event event :=
      fun handler id data => (react handler id data).impartial_self event
    exact ⟨abreast.indistinct.of_self, rel_imp (fun stages => stages.imp fun _ _ => Stage.Like.of_self)
      (abreast.follow impartial onward)⟩

end Timers
