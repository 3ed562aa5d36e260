import Timers.Proofs.Conduct
import Timers.Proofs.Lockstep
import Timers.Proofs.Punctuality
import Timers.Proofs.Reentrance

/-! When an advance ends. Every entry that is popped is dispatched to the end of its handler, so an
advance ends as soon as no more handlers can be made to run than something pays for. -/

namespace Timers

variable {H D W : Type}

/-- A step of an advance that goes on, with handlers that make only some commands. -/
def Step.Within (allowed : Command H D → Prop) (step : Step H D) : Prop :=
  match step.action with
  | .command given => allowed given
  | .dispatch | .settle .. => True
  | .beginAdvance | .endAdvance => False

def Reaction.Makes (react : Reaction H D W) (allowed : Command H D → Prop) : Prop :=
  react.Uses fun
    | .command given => allowed given
    | _ => True

/-- An advance ends, and it runs so many handlers at most. -/
def System.EndsWithin (react : Reaction H D W) (system : System H D W) (most : Nat) : Prop :=
  ∀ fuel, most < fuel → ∃ reply final, tryAdvance react fuel system = some (reply, final) ∧
    ∀ told, reply = .ok told → told.length ≤ most

theorem Step.firing?_command (place : Place) (before after : Scheduler H D) (given : Command H D) :
    Step.firing? ⟨⟨place, before⟩, .command given, ⟨place, after⟩⟩ = none := by
  cases place <;> rfl

section Ends

variable {allowed : Command H D → Prop} {first last : Moment H D} {steps : List (Step H D)}

/-- If every handler that begins to run pays for it, no more of them run than can be paid for. -/
theorem Run.firings_le {holds : Moment H D → Prop} {owed : Moment H D → Nat}
    (kept : ∀ {action before after}, Transition action before after →
      Step.Within allowed ⟨before, action, after⟩ → holds before → holds after)
    (pays : ∀ {action before after}, Transition action before after →
      Step.Within allowed ⟨before, action, after⟩ → holds before →
      owed after + (Step.firing? ⟨before, action, after⟩).toList.length ≤ owed before)
    (run : Run first steps last) (within : ∀ step ∈ steps, step.Within allowed)
    (start : holds first) : owed last + (firings steps).length ≤ owed first := by
  induction run with
  | nil => exact Nat.le_refl _
  | cons step _ ih =>
    obtain ⟨now, later⟩ := List.forall_mem_cons.mp within
    have rest := ih later (kept step now start)
    have paid := pays step now start
    rw [firings_cons, List.length_append]
    omega

namespace System

variable {react : Reaction H D W} {nested fuel most : Nat} {system begun ended : System H D W}
  {firing : Firing} {body : List (Step H D)} {handler : H} {data : D}

theorem Handles.run (handles : Handles react nested system firing begun body ended handler data)
    (makes : react.Makes allowed) :
    ∃ steps, Run ⟨.between, system.scheduler⟩ steps
        ⟨.between, (ended.settled firing handler data).scheduler⟩ ∧
      firings steps = [firing] ∧ ∀ step ∈ steps, step.Within allowed := by
  refine ⟨_, .cons handles.begins (handles.steps.append (.single (.settle handler data))), ?_, ?_⟩
  · obtain ⟨_, _, _, _, _, _, _, rfl⟩ := handles.runs
    rw [firings_cons, firings_append, Program.firings_steps (by simp)]
    rfl
  · refine List.forall_mem_cons.mpr ⟨trivial, List.forall_mem_append.mpr ⟨?_, by simp [Step.Within]⟩⟩
    intro step member
    obtain ⟨given, same, allows⟩ := handles.uses makes step member
    rw [Step.Within, same]
    exact allows

/-- If no run from where an advance has come to makes more handlers run, the advance ends. -/
theorem drain_ends (valid : (⟨.between, system.scheduler⟩ : Moment H D).Valid)
    (paced : (⟨.between, system.scheduler⟩ : Moment H D).Paced) (makes : react.Makes allowed)
    (bounded : ∀ {steps last}, Run ⟨.between, system.scheduler⟩ steps last →
      (∀ step ∈ steps, step.Within allowed) → (firings steps).length ≤ most)
    (enough : most ≤ fuel) :
    ∃ told final, drain react (tryAdvance react nested) fuel system = some (told, final) ∧
      told.length ≤ most := by
  induction fuel using Nat.strongRecOn generalizing system most with
  | ind fuel ih =>
    cases due : system.scheduler.popDue? with
    | none => exact ⟨[], system, drain_of_idle due, Nat.zero_le _⟩
    | some taken =>
      obtain ⟨arming, turn, popped⟩ := taken
      obtain ⟨firing, _, _, ended, handler, data, _, _, handles, dispatched⟩ :=
        dispatch_handles react nested valid paced due
      obtain ⟨_, run, fired, within⟩ := handles.run makes
      have one := bounded run within
      rw [fired, List.length_singleton] at one
      obtain ⟨fuel, rfl⟩ := Nat.exists_eq_succ_of_ne_zero (show fuel ≠ 0 by omega)
      obtain ⟨told, final, drained, few⟩ :=
        @ih fuel (Nat.lt_succ_self fuel) (most - 1) (ended.settled firing handler data)
          (run.preserves Transition.valid valid) (run.preserves Transition.paced paced)
          (by
            intro steps last onward within'
            have all := bounded (run.append onward) (List.forall_mem_append.mpr ⟨within, within'⟩)
            rw [firings_append, fired, List.length_append, List.length_singleton] at all
            omega)
          (by omega)
      refine ⟨firing :: told, final, ?_, ?_⟩
      · rw [← drained_iff] at drained ⊢
        exact .entry due dispatched drained
      · rw [List.length_cons]
        omega

theorem ends_of_bounded (valid : (⟨.outside, system.scheduler⟩ : Moment H D).Valid)
    (paced : (⟨.outside, system.scheduler⟩ : Moment H D).Paced) (makes : react.Makes allowed)
    (bounded : ∀ {begun steps last}, system.scheduler.beginAdvance = .ok begun →
      Run ⟨.between, begun⟩ steps last → (∀ step ∈ steps, step.Within allowed) →
      (firings steps).length ≤ most) :
    system.EndsWithin react most := by
  intro fuel enough
  cases begins : system.scheduler.beginAdvance with
  | error error => exact ⟨_, system, tryAdvance_of_refused begins, by simp⟩
  | ok begun =>
    have step : Transition .beginAdvance ⟨.outside, system.scheduler⟩ ⟨.between, begun⟩ :=
      .beginAdvance begins
    cases fuel with
    | zero => cases enough
    | succ fuel =>
      obtain ⟨told, final, drained, few⟩ :=
        @drain_ends _ _ _ allowed react fuel fuel most { system with scheduler := begun }
          (step.valid valid) (step.paced paced) makes (bounded begins) (Nat.le_of_lt_succ enough)
      refine ⟨.ok told, _, advanced_iff.mp (.made begins drained), ?_⟩
      intro _ same
      cases same
      exact few

end System

end Ends

end Timers
