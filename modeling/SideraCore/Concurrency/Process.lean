import Mathlib

/-!
Owns processes: finite trees of atomic actions, the systems that perform the
actions, and the runs of one looping process against an environment that
interferes between any two of its actions.

A process fixes no meaning for its actions. A `System` gives each action the
outcomes it may have in a world; an action without outcomes blocks. `Step`
interleaves the process with the environment one action at a time, and
`replay` executes a chosen interleaving.
-/

namespace SideraCore.Concurrency

structure Signature where
  Action : Type
  Answer : Action → Type

/-- It has finished with a value, or performs an action and continues with the answer. -/
inductive Process (S : Signature) (α : Type) where
  | done (value : α)
  | act (action : S.Action) (next : S.Answer action → Process S α)

namespace Process

variable {S : Signature} {α β γ : Type}

def bind : Process S α → (α → Process S β) → Process S β
  | .done value, next => next value
  | .act action following, next => .act action fun answer => (following answer).bind next

instance : Monad (Process S) where
  pure := .done
  bind := bind

def perform (action : S.Action) : Process S (S.Answer action) := .act action .done

@[simp] theorem act_bind (action : S.Action) (following : S.Answer action → Process S α)
    (next : α → Process S β) :
    (Process.act action following >>= next) = .act action fun answer => following answer >>= next :=
  rfl

theorem bind_assoc (process : Process S α) (first : α → Process S β) (second : β → Process S γ) :
    ((process >>= first) >>= second) = process >>= fun value => first value >>= second := by
  induction process with
  | done value => rfl
  | act action following ih =>
      simp only [act_bind]
      exact congrArg (Process.act action) (funext ih)

def Every (allowed : S.Action → Prop) : Process S α → Prop
  | .done _ => True
  | .act action next => allowed action ∧ ∀ answer, (next answer).Every allowed

variable {allowed : S.Action → Prop} {process : Process S α}

theorem Every.bind {next : α → Process S β} (first : process.Every allowed)
    (second : ∀ value, (next value).Every allowed) : (process >>= next).Every allowed := by
  induction process with
  | done value => exact second value
  | act action following ih =>
      exact ⟨first.1, fun answer => ih answer (first.2 answer)⟩

theorem Every.mono {more : S.Action → Prop} (every : process.Every allowed)
    (implies : ∀ action, allowed action → more action) : process.Every more := by
  induction process with
  | done value => trivial
  | act action next ih =>
      exact ⟨implies action every.1, fun answer => ih answer (every.2 answer)⟩

/-- The process performs `last` as its last action and nothing but allowed actions
before. -/
def EndsIn (allowed last : S.Action → Prop) : Process S α → Prop
  | .done _ => False
  | .act action next =>
      last action ∧ (∀ answer, ∃ value, next answer = .done value) ∨
        allowed action ∧ ∀ answer, (next answer).EndsIn allowed last

theorem Every.endsIn {last : S.Action → Prop} {next : α → Process S β} (every : process.Every allowed)
    (ends : ∀ value, (next value).EndsIn allowed last) : (process >>= next).EndsIn allowed last := by
  induction process with
  | done value => exact ends value
  | act action following ih =>
      exact .inr ⟨every.1, fun answer => ih answer (every.2 answer)⟩

end Process

/-- What the actions do to a world, and the environment at any moment. An action without
outcomes blocks. -/
structure System (S : Signature) (World Event : Type) where
  outcomes : World → (action : S.Action) → List (S.Answer action × World)
  interfere : Event → World → Option World

theorem sole_outcome {Answer World : Type} {answer only : Answer} {after next : World}
    (outcome : (answer, after) ∈ [(only, next)]) : answer = only ∧ after = next :=
  Prod.mk.inj (List.mem_singleton.1 outcome)

namespace System

variable {S : Signature} {World Event : Type} (system : System S World Event)

def EnvStep (before after : World) : Prop := ∃ event, system.interfere event before = some after

def Interferes : World → World → Prop := Relation.ReflTransGen system.EnvStep

def Stable (property : World → Prop) : Prop :=
  ∀ before after, system.EnvStep before after → property before → property after

variable {system}

theorem Stable.interferes {property : World → Prop} (stable : system.Stable property)
    {before after : World} (moves : system.Interferes before after) (holds : property before) :
    property after := by
  induction moves with
  | refl => exact holds
  | tail _ move ih => exact stable _ _ move ih

end System

structure Config (S : Signature) (Loop Exit World : Type) where
  process : Process S (Loop ⊕ Exit)
  world : World

/-- Which answers an action may get, and with which values the loop may be entered
again. -/
structure Condition (S : Signature) (Loop World : Type) where
  Answers : World → (action : S.Action) → S.Answer action → Prop
  Reenters : World → Loop → Prop

def Condition.always (S : Signature) (Loop World : Type) : Condition S Loop World where
  Answers := fun _ _ _ => True
  Reenters := fun _ _ => True

section Runs

variable {S : Signature} {Loop Exit World Event : Type}

/-- The process performs an action or enters the loop again, or the environment moves. -/
inductive Step (system : System S World Event) (body : Loop → Process S (Loop ⊕ Exit))
    (condition : Condition S Loop World) :
    Config S Loop Exit World → Config S Loop Exit World → Prop
  | act {world after : World} {action : S.Action} {answer : S.Answer action}
      {next : S.Answer action → Process S (Loop ⊕ Exit)}
      (outcome : (answer, after) ∈ system.outcomes world action)
      (allowed : condition.Answers world action answer) :
      Step system body condition ⟨.act action next, world⟩ ⟨next answer, after⟩
  | again {world : World} {loop : Loop} (allowed : condition.Reenters world loop) :
      Step system body condition ⟨.done (.inl loop), world⟩ ⟨body loop, world⟩
  | env {process : Process S (Loop ⊕ Exit)} {world after : World}
      (move : system.EnvStep world after) :
      Step system body condition ⟨process, world⟩ ⟨process, after⟩

def Reaches (system : System S World Event) (body : Loop → Process S (Loop ⊕ Exit))
    (condition : Condition S Loop World) :
    Config S Loop Exit World → Config S Loop Exit World → Prop :=
  Relation.ReflTransGen (Step system body condition)

variable {start before after : Config S Loop Exit World}

theorem Reaches.always {system : System S World Event} {body : Loop → Process S (Loop ⊕ Exit)}
    {condition : Condition S Loop World} {config : Config S Loop Exit World}
    (run : Reaches system body condition start config) :
    Reaches system body (Condition.always S Loop World) start config := by
  refine Relation.ReflTransGen.mono (fun before after step => ?_) _ _ run
  cases step with
  | act outcome _ => exact .act outcome trivial
  | again _ => exact .again trivial
  | env move => exact .env move

/-! ### Executing a chosen interleaving -/

inductive Choice (Event : Type) where
  | act (outcome : Nat)
  | again
  | env (event : Event)

/-- The configuration after one chosen step, if it is enabled and its action passes the
test. -/
def Config.advance (system : System S World Event) (body : Loop → Process S (Loop ⊕ Exit))
    (test : S.Action → Bool) :
    Choice Event → Config S Loop Exit World → Option (Config S Loop Exit World)
  | .act outcome, ⟨.act action next, world⟩ =>
      if test action then
        ((system.outcomes world action)[outcome]?).map fun chosen => ⟨next chosen.1, chosen.2⟩
      else none
  | .again, ⟨.done (.inl loop), world⟩ => some ⟨body loop, world⟩
  | .env event, ⟨process, world⟩ => (system.interfere event world).map fun after => ⟨process, after⟩
  | _, _ => none

def Config.replay (system : System S World Event) (body : Loop → Process S (Loop ⊕ Exit))
    (test : S.Action → Bool) :
    List (Choice Event) → Config S Loop Exit World → Option (Config S Loop Exit World)
  | [], config => some config
  | choice :: rest, config =>
      (config.advance system body test choice).bind (Config.replay system body test rest)

structure Condition.Tested (condition : Condition S Loop World) (test : S.Action → Bool) : Prop where
  answers : ∀ world action answer, test action = true → condition.Answers world action answer
  reenters : ∀ world loop, condition.Reenters world loop

theorem Condition.tested_always : (Condition.always S Loop World).Tested fun _ => true :=
  ⟨fun _ _ _ _ => trivial, fun _ _ => trivial⟩

variable {system : System S World Event} {body : Loop → Process S (Loop ⊕ Exit)}
  {condition : Condition S Loop World} {test : S.Action → Bool}

theorem Config.advance_step (tested : condition.Tested test) {choice : Choice Event}
    (advanced : before.advance system body test choice = some after) :
    Step system body condition before after := by
  obtain ⟨process, world⟩ := before
  cases choice with
  | act outcome =>
      cases process with
      | done value => cases value <;> simp [Config.advance] at advanced
      | act action next =>
          simp only [Config.advance, Option.ite_none_right_eq_some, Option.map_eq_some_iff] at advanced
          obtain ⟨passes, ⟨answer, afterWorld⟩, chosen, rfl⟩ := advanced
          exact .act (List.mem_of_getElem? chosen) (tested.answers world action answer passes)
  | again =>
      cases process with
      | done value =>
          cases value with
          | inl loop =>
              simp only [Config.advance, Option.some.injEq] at advanced
              exact advanced ▸ .again (tested.reenters world loop)
          | inr exit => simp [Config.advance] at advanced
      | act action next => simp [Config.advance] at advanced
  | env event =>
      simp only [Config.advance, Option.map_eq_some_iff] at advanced
      obtain ⟨afterWorld, moved, rfl⟩ := advanced
      exact .env ⟨event, moved⟩

theorem Config.replay_reaches (tested : condition.Tested test) {choices : List (Choice Event)}
    (replayed : before.replay system body test choices = some after) :
    Reaches system body condition before after := by
  induction choices generalizing before with
  | nil =>
      simp only [Config.replay, Option.some.injEq] at replayed
      exact replayed ▸ .refl
  | cons choice rest ih =>
      simp only [Config.replay, Option.bind_eq_some_iff] at replayed
      obtain ⟨middle, advanced, remaining⟩ := replayed
      exact .head (advance_step tested advanced) (ih remaining)

theorem Config.exists_reaches (tested : condition.Tested test) (choices : List (Choice Event))
    (sought : Config S Loop Exit World → Bool)
    (comes : (start.replay system body test choices).any sought = true) :
    ∃ config, Reaches system body condition start config ∧ sought config = true := by
  cases replayed : start.replay system body test choices with
  | none => simp [replayed] at comes
  | some config =>
      rw [replayed] at comes
      exact ⟨config, replay_reaches tested replayed, comes⟩

end Runs

end SideraCore.Concurrency
