import SideraCore.Concurrency.Process

/-!
Owns the program logic of processes that run under interference.

`wp` is a weakest precondition over everything the environment may do before each
action. Besides the postcondition it carries a requirement that holds whenever an
action is about to be performed. `Reaches.wp` turns it into a statement about all
reachable configurations, and `terminates` into the absence of infinite runs.
-/

namespace SideraCore.Concurrency

variable {S : Signature} {World Event : Type}

/-- What is asked of an action at every moment at which it is pending. -/
abbrev Requirement (S : Signature) (World : Type) := (action : S.Action) → World → Prop

abbrev Allowed (S : Signature) (World : Type) :=
  World → (action : S.Action) → S.Answer action → Prop

/-- From the world and under any interference, every run meets the requirement at each
pending action and ends in the postcondition. -/
def wp (system : System S World Event) (allowed : Allowed S World) (requires : Requirement S World)
    {α : Type} : Process S α → (α → World → Prop) → World → Prop
  | .done value, post, world => ∀ after, system.Interferes world after → post value after
  | .act action next, post, world =>
      ∀ during, system.Interferes world during →
        requires action during ∧
          ∀ answer after, (answer, after) ∈ system.outcomes during action →
            allowed during action answer → wp system allowed requires (next answer) post after

section Rules

variable {system : System S World Event} {allowed : Allowed S World} {requires : Requirement S World}
  {α β : Type} {process : Process S α} {world : World} {post : α → World → Prop}

/-- A weakest precondition is itself an environment invariant. -/
theorem wp_interferes {before after : World} (secured : wp system allowed requires process post before)
    (moves : system.Interferes before after) : wp system allowed requires process post after := by
  cases process with
  | done value => exact fun later further => secured later (moves.trans further)
  | act action next => exact fun during further => secured during (moves.trans further)

theorem wp_mono {weaker : α → World → Prop} (secured : wp system allowed requires process post world)
    (implies : ∀ value after, post value after → weaker value after) :
    wp system allowed requires process weaker world := by
  induction process generalizing world with
  | done value => exact fun after moves => implies value after (secured after moves)
  | act action next ih =>
      intro during moves
      obtain ⟨required, continues⟩ := secured during moves
      exact ⟨required, fun answer after outcome allows =>
        ih answer (continues answer after outcome allows)⟩

/-- Sequential composition: the first process secures what the second needs. -/
theorem wp_bind {next : α → Process S β} {post : β → World → Prop}
    (secured : wp system allowed requires process
      (fun value after => wp system allowed requires (next value) post after) world) :
    wp system allowed requires (process >>= next) post world := by
  induction process generalizing world with
  | done value => exact secured world .refl
  | act action following ih =>
      intro during moves
      obtain ⟨required, continues⟩ := secured during moves
      exact ⟨required, fun answer after outcome allows =>
        ih answer (continues answer after outcome allows)⟩

theorem wp_done {value : α} (stable : system.Stable (post value)) (holds : post value world) :
    wp system allowed requires (.done value) post world :=
  fun _ moves => stable.interferes moves holds

theorem wp_act {action : S.Action} {next : S.Answer action → Process S α} (invariant : World → Prop)
    (stable : system.Stable invariant) (holds : invariant world)
    (required : ∀ during, invariant during → requires action during)
    (continues : ∀ during answer after, invariant during →
      (answer, after) ∈ system.outcomes during action → allowed during action answer →
        wp system allowed requires (next answer) post after) :
    wp system allowed requires (.act action next) post world := by
  intro during moves
  have current : invariant during := stable.interferes moves holds
  exact ⟨required during current, fun answer after outcome allows =>
    continues during answer after current outcome allows⟩

theorem wp_every (kind : S.Action → Prop) (invariant : World → Prop)
    (stable : system.Stable invariant) (every : process.Every kind)
    (required : ∀ action during, kind action → invariant during → requires action during)
    (kept : ∀ action during answer after, kind action → invariant during →
      (answer, after) ∈ system.outcomes during action → invariant after) (holds : invariant world) :
    wp system allowed requires process (fun _ => invariant) world := by
  induction process generalizing world with
  | done value => exact wp_done stable holds
  | act action next ih =>
      refine wp_act invariant stable holds (fun during => required action during every.1) ?_
      intro during answer after current outcome _
      exact ih answer (every.2 answer)
        (kept action during answer after every.1 current outcome)

end Rules

section Loops

variable {Loop Exit : Type} {system : System S World Event}
  {body : Loop → Process S (Loop ⊕ Exit)} {condition : Condition S Loop World}
  {requires : Requirement S World} {invariant : Loop → World → Prop} {post : Exit → World → Prop}

/-- If the body keeps the loop invariant, every reachable configuration is secured. -/
theorem Reaches.wp {start config : Config S Loop Exit World}
    (kept : ∀ loop world, invariant loop world → condition.Reenters world loop →
      Concurrency.wp system condition.Answers requires (body loop) (Sum.elim invariant post) world)
    (initially : Concurrency.wp system condition.Answers requires start.process
      (Sum.elim invariant post) start.world)
    (run : Reaches system body condition start config) :
    Concurrency.wp system condition.Answers requires config.process
      (Sum.elim invariant post) config.world := by
  induction run with
  | refl => exact initially
  | tail _ step ih =>
      cases step with
      | act outcome allowed => exact (ih _ .refl).2 _ _ outcome allowed
      | again allowed => exact kept _ _ (ih _ .refl) allowed
      | env move => exact wp_interferes ih (.single move)

/-- The body of a loop that keeps an invariant and lowers a variant. -/
def Lowers (system : System S World Event) (body : Loop → Process S (Loop ⊕ Exit))
    (requires : Requirement S World) (invariant : Loop → World → Prop) (variant : Loop → World → Nat) :
    Prop :=
  ∀ loop world, invariant loop world →
    Concurrency.wp system (Condition.always S Loop World).Answers requires (body loop)
      (Sum.elim (fun again after => invariant again after ∧ variant again after < variant loop world)
        fun _ _ => True) world

/-- No infinite run, if moves of the environment lower a rank and rounds of the loop a
variant. -/
theorem terminates {variant : Loop → World → Nat} (rank : World → Nat)
    (falls : ∀ before after, system.EnvStep before after → rank after < rank before)
    (lowers : Lowers system body requires invariant variant) (bound : Nat)
    (process : Process S (Loop ⊕ Exit)) (world : World)
    (secured : Concurrency.wp system (Condition.always S Loop World).Answers requires process
      (Sum.elim (fun again after => invariant again after ∧ variant again after < bound)
        fun _ _ => True) world) :
    Acc (fun after before => Step system body (Condition.always S Loop World) before after)
      (⟨process, world⟩ : Config S Loop Exit World) := by
  induction bound using Nat.strongRecOn generalizing process world with
  | ind bound outer =>
      induction process generalizing world with
      | done value =>
          induction level : rank world using Nat.strongRecOn generalizing world with
          | ind level inner =>
              constructor
              intro after step
              cases step with
              | again _ =>
                  obtain ⟨holds, below⟩ := secured world .refl
                  exact outer _ below _ _ (lowers _ _ holds)
              | env move =>
                  exact inner _ (level ▸ falls _ _ move) _ (wp_interferes secured (.single move)) rfl
      | act action next deeper =>
          induction level : rank world using Nat.strongRecOn generalizing world with
          | ind level inner =>
              constructor
              intro after step
              cases step with
              | act outcome _ =>
                  exact deeper _ _ ((secured world .refl).2 _ _ outcome trivial)
              | env move =>
                  exact inner _ (level ▸ falls _ _ move) _ (wp_interferes secured (.single move)) rfl

end Loops

end SideraCore.Concurrency
