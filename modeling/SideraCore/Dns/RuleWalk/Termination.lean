import SideraCore.Dns.RuleWalk.Barrier

/-!
Owns that every evaluation ends. No run of the walker is infinite, and once every
exchange has completed none is blocked, so that each of them comes to an exit.

A round of the resume loop is paid for by what lies ahead: rules to walk, signals
and completions to come, and the suspension itself, which weighs more when it can
end at once.
-/

namespace SideraCore.Dns.RuleWalk

open Rule Concurrency

/-! ### What lies ahead -/

def Phase.weight : Phase → Nat
  | .running => 8
  | .closed => 4
  | .signalled => 0

def World.load (world : World) : Nat := (world.exchanges.map fun exchange => exchange.phase.weight).sum

theorem World.load_launch (world : World) (launch : Launch) :
    (world.launch launch).load = world.load + 8 := by
  simp [World.load, World.launch, Phase.weight]

variable {future : FutureId} {event : WalkEvent} {before : World}

theorem load_modify {exchanges : List Exchange} {exchange : Exchange}
    (found : exchanges[future]? = some exchange) (phase : Phase) :
    ((exchanges.modify future fun exchange => { exchange with phase := phase }).map
        fun exchange => exchange.phase.weight).sum + exchange.phase.weight =
      (exchanges.map fun exchange => exchange.phase.weight).sum + phase.weight := by
  induction exchanges generalizing future with
  | nil => cases found
  | cons first rest ih =>
      cases future with
      | zero =>
          cases found
          simp
          omega
      | succ earlier =>
          have later := ih found
          simp only [List.modify_succ_cons, List.map_cons, List.sum_cons]
          omega

variable {world after : World} {query : Query} {state : WalkState} {rule : DNSRule} {bound : Nat}

theorem World.load_setPhase {before : Phase} (reached : world.phase future = some before) (phase : Phase) :
    (world.setPhase future phase).load + before.weight = world.load + phase.weight := by
  obtain ⟨exchange, found, rfl⟩ := Option.map_eq_some_iff.1 reached
  exact load_modify found phase

def World.rank (world : World) : Nat := world.load + (!world.ctxDone).toNat

theorem World.rank_lt (moved : before.interfere event = some after) : after.rank < before.rank := by
  cases event with
  | close target =>
      obtain ⟨running, ⟨⟩⟩ := Option.ite_none_right_eq_some.1 moved
      have load := World.load_setPhase running .closed
      simp only [Phase.weight] at load
      simp only [World.rank]
      change _ + (!before.ctxDone).toNat < _
      omega
  | signal target =>
      obtain ⟨closed, ⟨⟩⟩ := Option.ite_none_right_eq_some.1 moved
      have load := World.load_setPhase closed .signalled
      simp only [Phase.weight] at load
      simp only [World.rank]
      change (before.setPhase target .signalled).load + (!before.ctxDone).toNat < _
      omega
  | cancel =>
      obtain ⟨going, ⟨⟩⟩ := Option.ite_none_left_eq_some.1 moved
      simp [World.rank, World.load, going]

/-- The weight of a suspension: one that the walk can leave at the same rule weighs
more. -/
def Suspension.urgency (world : World) : Suspension → Nat
  | .await future => if (world.poll future).isSome then 2 else 0
  | .drain => 1
  | .pending _ => 0

/-- The rules ahead, a speculative route ahead, and what the walker may still be told. -/
def ahead (query : Query) (state : WalkState) (world : World) : Nat :=
  10 * (query.rules.length - state.ruleIndex) + 10 * state.terminalFuture.isNone.toNat + world.load +
    world.wake.toNat

theorem Suspension.urgency_le (world : World) (suspension : Suspension) : suspension.urgency world ≤ 2 := by
  cases suspension with
  | await future =>
      simp only [urgency]
      split <;> omega
  | drain | pending exchange => simp [urgency]

/-- A move of the environment is paid for by what it leaves less to do. -/
theorem ahead_le (moved : before.interfere event = some after) (suspension : Suspension) :
    ahead query state after ≤ ahead query state before ∧
      ahead query state after + suspension.urgency after ≤
        ahead query state before + suspension.urgency before := by
  have light := suspension.urgency_le after
  cases event with
  | close target =>
      obtain ⟨running, ⟨⟩⟩ := Option.ite_none_right_eq_some.1 moved
      have load := World.load_setPhase running .closed
      have wake : (before.setPhase target .closed).wake = before.wake := rfl
      simp only [Phase.weight] at load
      simp only [ahead, wake]
      omega
  | signal target =>
      obtain ⟨closed, ⟨⟩⟩ := Option.ite_none_right_eq_some.1 moved
      have load := World.load_setPhase closed .signalled
      have same : ({ before.setPhase target .signalled with wake := true } : World).load =
        (before.setPhase target .signalled).load := rfl
      have signalled : ({ before.setPhase target .signalled with wake := true } : World).wake.toNat = 1 := rfl
      simp only [Phase.weight] at load
      simp only [ahead] at light ⊢
      rw [same, signalled]
      omega
  | cancel =>
      obtain ⟨_, ⟨⟩⟩ := Option.ite_none_left_eq_some.1 moved
      exact ⟨Nat.le_refl _, by cases suspension <;> exact Nat.le_refl _⟩

def variant (query : Query) (loop : ResumeLoop) (world : World) : Nat :=
  ahead query loop.1 world + loop.2.urgency world

/-- A round that begins with the bound ends below it. -/
def variantSpec (query : Query) (bound : Nat) : RoundSpec where
  before := fun state suspension world => variant query (state, suspension) world ≤ bound
  sweeping := fun _ _ => True
  swept := fun state suspension world => variant query (state, suspension) world ≤ bound
  walking := fun state world => ahead query state world + (!state.armedRules.isEmpty).toNat < bound
  after := fun state suspension world => variant query (state, suspension) world < bound
  finishing := fun _ _ _ => True
  exits := fun _ _ => True

theorem variantSpec_stable (query : Query) (bound : Nat) : (variantSpec query bound).Stable query := by
  refine ⟨?_, fun _ _ _ _ holds => holds, ?_, ?_, ?_, fun _ _ _ _ _ holds => holds,
    fun _ _ _ _ holds => holds⟩
  · rintro state suspension before after ⟨event, moved⟩ holds
    exact Nat.le_trans (ahead_le moved suspension).2 holds
  · rintro state suspension before after ⟨event, moved⟩ holds
    exact Nat.le_trans (ahead_le moved suspension).2 holds
  · rintro state before after ⟨event, moved⟩ holds
    exact Nat.lt_of_le_of_lt (Nat.add_le_add_right (ahead_le moved .drain).1 _) holds
  · rintro state suspension before after ⟨event, moved⟩ holds
    exact Nat.lt_of_le_of_lt (ahead_le moved suspension).2 holds

theorem ahead_of_sameWalk (query : Query) {after : WalkState} (same : SameWalk state after)
    (world : World) : ahead query after world = ahead query state world := by
  simp only [ahead, same.ruleIndex, same.terminalFuture]

theorem Entered.frame {entered : WalkState} (enters : Entered world rule state entered) :
    entered.ruleIndex = state.ruleIndex ∧ entered.terminalFuture = state.terminalFuture ∧
      entered.armedRules = state.armedRules := by
  cases enters with
  | unbound => exact ⟨rfl, rfl, rfl⟩
  | ordered _ _ settles | race _ _ settles =>
      exact ⟨settles.sameWalk.ruleIndex, settles.sameWalk.terminalFuture, settles.sameWalk.armedRules⟩

section Found

variable (found : query.rules[state.ruleIndex]? = some rule)
  (below : ahead query state world + (!state.armedRules.isEmpty).toNat < bound)
include found below

theorem walking_advance {next : WalkState} (index : next.ruleIndex = state.ruleIndex)
    (terminal : next.terminalFuture = state.terminalFuture)
    (launched : after.load + after.wake.toNat ≤ world.load + world.wake.toNat + 8) :
    (variantSpec query bound).walking { next with ruleIndex := next.ruleIndex + 1 } after := by
  have within := (List.getElem?_eq_some_iff.1 found).1
  have single := Bool.toNat_le (!next.armedRules.isEmpty)
  simp only [variantSpec, ahead, index, terminal] at below ⊢
  omega

theorem variantSpec_action {outcome : RuleOutcome}
    (effect : ActionEffect query rule state world outcome after) :
    (variantSpec query bound).afterRule outcome after := by
  have lighter : world.load + world.wake.toNat ≤ world.load + world.wake.toNat + 8 := Nat.le_add_right _ _
  cases effect with
  | noAction | options | routeUnresolved | rejectReply =>
      exact walking_advance found below rfl rfl lighter
  | evaluateMissing => exact walking_advance found below (by split <;> rfl) (by split <;> rfl) lighter
  | evaluate =>
      refine walking_advance found below ?_ ?_ ?_
      · exact WalkState.bindFuture_ruleIndex _ _ _
      · unfold WalkState.bindFuture
        split <;> rfl
      · rw [World.load_launch]
        change _ + world.wake.toNat ≤ _
        omega
  | held armed =>
      have one : (!state.armedRules.isEmpty).toNat = 1 := by simpa using armed
      rw [one] at below
      exact below
  | respondTagged | respond | reject | predefined => trivial
  | respondAwait _ _ _ _ unresolved =>
      simp only [RoundSpec.afterRule, variantSpec, variant, Suspension.urgency, unresolved]
      exact Nat.lt_of_le_of_lt (Nat.le_add_right _ _) below
  | speculate _ armed first =>
      simp only [RoundSpec.afterRule, variantSpec, variant, Suspension.urgency, ahead, World.load_launch,
        WalkState.bindTerminal, WalkState.append] at below ⊢
      rw [first] at below
      change _ + world.wake.toNat + 1 < bound
      simp at below ⊢
      omega
  | routeSpeculated | route => exact Nat.lt_of_le_of_lt (Nat.le_add_right _ _) below

theorem variantSpec_rule {clean : MatchCondition} {outcome : RuleOutcome}
    (effect : RuleEffect query clean rule state world outcome after) :
    (variantSpec query bound).afterRule outcome after := by
  have lighter : world.load + world.wake.toNat ≤ world.load + world.wake.toNat + 8 := Nat.le_add_right _ _
  cases effect with
  | arm _ _ settles =>
      exact walking_advance found below settles.sameWalk.ruleIndex settles.sameWalk.terminalFuture lighter
  | await _ _ settles _ unresolved =>
      simp only [RoundSpec.afterRule, variantSpec, variant, Suspension.urgency, unresolved,
        ahead_of_sameWalk query settles.sameWalk]
      exact Nat.lt_of_le_of_lt (Nat.le_add_right _ _) below
  | pass enters =>
      obtain ⟨index, terminal, _⟩ := enters.frame
      exact walking_advance found below index terminal lighter
  | act enters _ _ effect =>
      obtain ⟨index, terminal, armed⟩ := enters.frame
      refine variantSpec_action (by rw [index, found]) ?_ effect
      simp only [ahead, index, terminal, armed] at below ⊢
      exact below

end Found

theorem variantSpec_sound (query : Query) (bound : Nat) :
    (variantSpec query bound).Sound query (fun _ _ _ _ => True) (fun _ _ => True) where
  toStable := variantSpec_stable query bound
  settle := by
    intro state settled suspension world before settles
    simp only [variantSpec, variant, ahead_of_sameWalk query settles.sameWalk] at before ⊢
    exact before
  sweeps := fun _ => trivial
  disarms := fun _ _ _ => trivial
  judgesArmed := fun _ => trivial
  passes := by
    intro state swept suspension start world _ _ before effect
    obtain ⟨_, _, rfl⟩ := effect.disarms rfl
    exact before
  wins := fun _ _ _ _ => trivial
  winsPending := fun _ _ _ _ => trivial
  pending := fun _ => trivial
  awaits := fun _ _ => trivial
  drains := fun _ _ => trivial
  woken := by
    intro state suspension world swept wake
    have same : suspension.urgency { world with wake := false } = suspension.urgency world := by
      cases suspension <;> rfl
    simp only [variantSpec, variant, ahead, wake, same, Bool.toNat_true, Bool.toNat_false] at swept ⊢
    exact Nat.lt_of_lt_of_le (Nat.add_lt_add_right (Nat.add_lt_add_left Nat.zero_lt_one _) _) swept
  cancelled := fun _ _ => trivial
  resumesAwait := by
    rintro state future world swept ⟨outcome, published⟩
    have single := Bool.toNat_le (!state.armedRules.isEmpty)
    simp only [variantSpec, variant, Suspension.urgency, published, Option.isSome_some, if_true] at swept ⊢
    omega
  resumesDrain := by
    intro state world swept idle
    simp only [variantSpec, variant, Suspension.urgency, idle] at swept ⊢
    exact swept
  awaitsDone := fun _ _ => trivial
  abandoned := fun _ _ => trivial
  finished := fun _ _ _ => trivial
  exchanges := fun _ _ => trivial
  exchanged := fun _ _ => trivial
  judges := fun _ _ _ => trivial
  rule := fun found below effect => variantSpec_rule found below effect
  finish := by
    intro state world below _
    unfold walkEnd
    by_cases armed : (!state.armedRules.isEmpty) = true
    · rw [if_pos armed]
      simp only [variantSpec, armed] at below
      exact below
    · rw [if_neg armed]
      exact Nat.lt_of_le_of_lt (Nat.le_add_right _ _) below

theorem wp_lowers {process : Walk (ResumeLoop ⊕ WalkExit)}
    (secured : query.wp (fun _ _ _ _ => True) (fun _ _ => True) process (variantSpec query bound).afterRound
      world) :
    wp query.system (Condition.always walkSignature ResumeLoop World).Answers (whereShown fun _ _ => True)
      process (Sum.elim (fun again after => True ∧ variant query again after < bound) fun _ _ => True)
      world := by
  rw [← judging_true]
  refine wp_mono secured fun value after below => ?_
  cases value with
  | inl loop => exact ⟨trivial, below⟩
  | inr exit => trivial

/-- No run of the walker is infinite. -/
theorem walk_terminates (query : Query) :
    Acc (fun after before => Step query.system (resumeBody query)
      (Condition.always walkSignature ResumeLoop World) before after) query.start := by
  have falls (before after : World) (move : query.system.EnvStep before after) :
      after.rank < before.rank := by
    obtain ⟨event, moved⟩ := move
    exact World.rank_lt moved
  have lowers : Lowers query.system (resumeBody query) (whereShown fun _ _ => True) (fun _ _ => True)
      (variant query) :=
    fun loop world _ => wp_lowers ((variantSpec_sound query _).wp_resumeBody (Nat.le_refl _))
  exact terminates World.rank falls lowers _ _ _
    (wp_lowers ((variantSpec_sound query _).wp_walkOn (Nat.lt_succ_self _)))

/-- Once every exchange has completed, the walker is never blocked. -/
theorem walk_progresses (query : Query) {config : Config walkSignature ResumeLoop WalkExit World}
    (run : query.Reachable (Condition.always walkSignature ResumeLoop World) config)
    (all : AllSignalled config.world) {action : WalkAction}
    {next : walkSignature.Answer action → Walk (ResumeLoop ⊕ WalkExit)}
    (waiting : config.process = .act action next) : query.outcomes config.world action ≠ [] := by
  rw [← judging_true] at run
  cases action with
  | poll future | judge | launch | exchange => exact List.cons_ne_nil _ _
  | recvWake state suspension =>
      have secured := (wakeSpec_sound query).reachable id Aligned.start run
      rw [waiting] at secured
      have signalled := ((secured config.world .refl).1 trivial).2 all
      refine List.append_ne_nil_of_left_ne_nil ?_ _
      rw [if_pos signalled]
      exact List.cons_ne_nil _ _
  | awaitDone state site future =>
      have secured := (barrierSpec_sound query).reachable id ⟨.start, .start⟩ run
      rw [waiting] at secured
      obtain ⟨launch, _, launched, _⟩ := ((secured config.world .refl).1 trivial).2
      obtain ⟨exchange, found, _⟩ := Option.map_eq_some_iff.1 (List.getElem?_map .. ▸ launched)
      have published : config.world.poll future = some exchange.outcome := by
        refine World.poll_eq_some_iff.2 ⟨exchange, found, ?_, rfl⟩
        rw [all exchange (List.mem_of_getElem? found)]
        decide
      refine List.append_ne_nil_of_left_ne_nil ?_ _
      rw [published]
      exact List.cons_ne_nil _ _

/-- **Every evaluation ends**, with and without `race`: no run is infinite, and once every
exchange has completed no action of the walker is blocked. -/
theorem walk_ends (query : Query) :
    Acc (fun after before => Step query.system (resumeBody query)
      (Condition.always walkSignature ResumeLoop World) before after) query.start ∧
    ∀ config, query.Reachable (Condition.always walkSignature ResumeLoop World) config →
      AllSignalled config.world → (∃ last, config.process = .done last) ∨
        ∃ action next, config.process = .act action next ∧ query.outcomes config.world action ≠ [] := by
  refine ⟨walk_terminates query, fun config run all => ?_⟩
  cases shape : config.process with
  | done last => exact .inl ⟨last, rfl⟩
  | act action next => exact .inr ⟨action, next, rfl, walk_progresses query run all shape⟩

end SideraCore.Dns.RuleWalk
