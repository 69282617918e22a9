import Mathlib

/-!
Owns machines: a state that moves by one event at a time, runs over a list of
events, conditions that every event of a run meets, and the invariant rule.

A machine fits where each critical section of many threads is a function of the
shared state; the list of events is the interleaving.
-/

namespace SideraCore.Concurrency

/-- What each event does to a state; an event that cannot happen has no result. -/
structure Machine (State Event : Type) where
  step : State → Event → Option State

namespace Machine

variable {State Event : Type} (machine : Machine State Event)

def run : State → List Event → Option State
  | state, [] => some state
  | state, event :: rest => (machine.step state event).bind fun next => run next rest

def Meets (condition : State → Event → Prop) : State → List Event → Prop
  | _, [] => True
  | state, event :: rest =>
      condition state event ∧
        match machine.step state event with
        | none => True
        | some next => Meets condition next rest

instance Meets.decidable {condition : State → Event → Prop}
    [decidableCondition : ∀ state event, Decidable (condition state event)] :
    ∀ state events, Decidable (machine.Meets condition state events)
  | _, [] => isTrue trivial
  | state, event :: rest =>
      match stepped : machine.step state event with
      | none => decidable_of_iff (condition state event) (by simp [Meets, stepped])
      | some next =>
          letI := @Meets.decidable condition decidableCondition next rest
          decidable_of_iff (condition state event ∧ machine.Meets condition next rest)
            (by simp [Meets, stepped])

variable {machine}

theorem run_cons {state after : State} {event : Event} {rest : List Event}
    (ran : machine.run state (event :: rest) = some after) :
    ∃ next, machine.step state event = some next ∧ machine.run next rest = some after := by
  exact Option.bind_eq_some_iff.1 ran

variable {start : State} {events : List Event}

theorem meets_of_forall {allowed : Event → Prop} (all : ∀ event ∈ events, allowed event) :
    machine.Meets (fun _ event => allowed event) start events := by
  induction events generalizing start with
  | nil => trivial
  | cons event rest ih =>
      refine ⟨all event (by simp), ?_⟩
      cases machine.step start event with
      | none => trivial
      | some next => exact ih fun later member => all later (by simp [member])

variable {invariant : State → Prop}

/-- Conditions that agree wherever an invariant holds are met by the same runs. -/
theorem meets_iff {first second : State → Event → Prop}
    (agree : ∀ state event, invariant state → (first state event ↔ second state event))
    (kept : ∀ before event after, machine.step before event = some after → second before event →
      invariant before → invariant after) (initially : invariant start) :
    machine.Meets first start events ↔ machine.Meets second start events := by
  induction events generalizing start with
  | nil => exact Iff.rfl
  | cons event rest ih =>
      unfold Meets
      rw [agree start event initially]
      refine and_congr_right fun met => ?_
      cases stepped : machine.step start event with
      | none => exact Iff.rfl
      | some next => exact ih (kept _ _ _ stepped met initially)

/-- The invariant rule: what every event that meets the condition keeps holds after a
run. -/
theorem run_invariant {condition : State → Event → Prop}
    (kept : ∀ before event after, machine.step before event = some after → condition before event →
      invariant before → invariant after) {state : State} (ran : machine.run start events = some state)
    (meets : machine.Meets condition start events) (initially : invariant start) : invariant state := by
  induction events generalizing start with
  | nil =>
      simp only [run, Option.some.injEq] at ran
      exact ran ▸ initially
  | cons event rest ih =>
      obtain ⟨next, stepped, remaining⟩ := run_cons ran
      simp only [Meets, stepped] at meets
      exact ih remaining meets.2 (kept _ _ _ stepped meets.1 initially)

end Machine

end SideraCore.Concurrency
