import SideraCore.Dns.RuleWalk.Rounds

/-!
Owns the correspondence between the walker's futures and the launched exchanges:
which rule launched the exchange of a future, and which futures the walker's
variables and the armed rules refer to. Every statement about runs rests on it.
-/

namespace SideraCore.Dns.RuleWalk

open Rule Concurrency

/-- The action that launches an exchange for a future with the given label. -/
inductive LaunchedFor (launch : Launch) : FutureLabel → Option RuleAction → Prop
  | evaluate {server tag : String} {speculative : Bool} {options : RuleActionDNSRouteOptions}
      {transport : DNSTransport} (free : speculative = true ∨ launch.armedRules = []) :
      LaunchedFor launch ⟨tag, false, transport⟩ (some (.evaluate server tag speculative options))
  | speculate {server : String} {options : RuleActionDNSRouteOptions} {transport : DNSTransport} :
      LaunchedFor launch ⟨"", true, transport⟩ (some (.dnsRoute server true options))

structure Origin (query : Query) (label : FutureLabel) (launch : Launch) : Prop where
  transport : launch.transport = label.transport
  outcome : launch.outcome = query.outcome launch.ruleIndex
  rule : ∃ rule, query.rules[launch.ruleIndex]? = some rule ∧ LaunchedFor launch label rule.action

/-- The future belongs to an evaluate action with the tag. -/
def WalkState.Evaluated (state : WalkState) (tag : String) (future : FutureId) : Prop :=
  ∃ transport, state.labels[future]? = some ⟨tag, false, transport⟩

structure Aligned (query : Query) (state : WalkState) (world : World) : Prop where
  origins : List.Forall₂ (Origin query) state.labels world.launches
  named : ∀ {tag future}, state.namedFutures tag = some future →
    tag ≠ "" ∧ state.Evaluated tag future
  anonymous : ∀ {future}, state.anonymousFuture = some future → state.Evaluated "" future
  terminal : ∀ {future}, state.terminalFuture = some future →
    (∃ transport, state.labels[future]? = some ⟨"", true, transport⟩) ∧
      ∃ launch, world.launches[future]? = some launch ∧ launch.ruleIndex = state.terminalIndex
  armed : ∀ {armed}, armed ∈ state.armedRules →
    (∀ future ∈ armed.futures, future < state.labels.length) ∧
      ∀ future, armed.anonymousFuture = some future → state.Evaluated "" future

namespace Aligned

variable {query : Query} {clean : MatchCondition} {state : WalkState}
  {world : World}

theorem start : Aligned query (.start query.options) .start where
  origins := .nil
  named := nofun
  anonymous := nofun
  terminal := nofun
  armed := nofun

section Aligned

variable (aligned : Aligned query state world)
include aligned

theorem follows {after : World} (follows : Follows world after) : Aligned query state after where
  origins := follows.launches ▸ aligned.origins
  named := aligned.named
  anonymous := aligned.anonymous
  terminal := fun source => follows.launches ▸ aligned.terminal source
  armed := aligned.armed

theorem of_sameWalk {after : WalkState} (same : SameWalk state after) : Aligned query after world := by
  have evaluated {tag future} (before : state.Evaluated tag future) : after.Evaluated tag future := by
    rw [WalkState.Evaluated, same.labels]
    exact before
  constructor
  · exact same.labels ▸ aligned.origins
  · intro tag future source
    obtain ⟨nonempty, before⟩ := aligned.named (same.namedFutures ▸ source)
    exact ⟨nonempty, evaluated before⟩
  · exact fun source => evaluated (aligned.anonymous (same.anonymousFuture ▸ source))
  · intro future source
    rw [same.labels, same.terminalIndex]
    exact aligned.terminal (same.terminalFuture ▸ source)
  · intro armed member
    obtain ⟨below, anonymous⟩ := aligned.armed (same.armedRules ▸ member)
    exact ⟨same.labels ▸ below, fun future source => evaluated (anonymous future source)⟩

theorem settles {settled : WalkState} (settles : Settles world state settled) :
    Aligned query settled world :=
  aligned.of_sameWalk settles.sameWalk

theorem length_eq : world.exchanges.length = state.labels.length := by
  rw [aligned.origins.length_eq, World.launches, List.length_map]

end Aligned

variable {tag : String} {future : FutureId}

theorem lt_length (evaluated : state.Evaluated tag future) : future < state.labels.length := by
  obtain ⟨transport, found⟩ := evaluated
  exact (List.getElem?_eq_some_iff.1 found).1

section Aligned

variable (aligned : Aligned query state world)
include aligned

theorem boundFutures_lt {rule : DNSRule} (member : future ∈ boundFutures state rule) :
    future < state.labels.length := by
  rcases List.mem_append.1 member with tagged | anonymous
  · obtain ⟨tag, _, source⟩ := List.mem_filterMap.1 tagged
    exact lt_length (aligned.named source).2
  · obtain ⟨_, source⟩ := List.mem_ite_nil_right.1 anonymous
    exact lt_length (aligned.anonymous (Option.mem_toList.1 source))

theorem launch_at {label : FutureLabel} (found : state.labels[future]? = some label) :
    ∃ launch, world.launches[future]? = some launch ∧ Origin query label launch := by
  obtain ⟨below, rfl⟩ := List.getElem?_eq_some_iff.1 found
  have bound := aligned.origins.length_eq ▸ below
  exact ⟨world.launches.get ⟨future, bound⟩, List.getElem?_eq_getElem bound,
    aligned.origins.get below bound⟩

variable {transport : DNSTransport} {launch : Launch}

theorem append {terminal : Bool} (origin : Origin query ⟨tag, terminal, transport⟩ launch) :
    Aligned query (state.append tag terminal transport) (world.launch launch) := by
  have labels : (state.append tag terminal transport).labels =
      state.labels ++ [⟨tag, terminal, transport⟩] := by
    simp [WalkState.labels, WalkState.append]
  have launches := world.launch_launches launch
  have stays {future : FutureId} {label : FutureLabel} (found : state.labels[future]? = some label) :
      (state.append tag terminal transport).labels[future]? = some label := by
    rw [labels, List.getElem?_append_left (List.getElem?_eq_some_iff.1 found).1, found]
  have evaluated {bound : String} {future : FutureId} (before : state.Evaluated bound future) :
      (state.append tag terminal transport).Evaluated bound future := by
    obtain ⟨server, found⟩ := before
    exact ⟨server, stays found⟩
  constructor
  · rw [labels, launches]
    exact List.rel_append aligned.origins (.cons origin .nil)
  · exact fun source => ⟨(aligned.named source).1, evaluated (aligned.named source).2⟩
  · exact fun source => evaluated (aligned.anonymous source)
  · intro future source
    obtain ⟨⟨server, found⟩, earlier, launched, index⟩ := aligned.terminal source
    refine ⟨⟨server, stays found⟩, earlier, ?_, index⟩
    rw [launches, List.getElem?_append_left (List.getElem?_eq_some_iff.1 launched).1, launched]
  · intro armed member
    obtain ⟨below, anonymous⟩ := aligned.armed member
    refine ⟨fun future captured => ?_, fun future source => evaluated (anonymous future source)⟩
    rw [labels, List.length_append]
    exact Nat.lt_add_right _ (below future captured)

theorem append_evaluated (tag : String) (transport : DNSTransport) :
    (state.append tag false transport).Evaluated tag world.exchanges.length := by
  refine ⟨transport, ?_⟩
  simp [WalkState.labels, WalkState.append, aligned.length_eq]

theorem append_terminal (origin : Origin query ⟨"", true, transport⟩ launch)
    (index : launch.ruleIndex = state.ruleIndex) :
    Aligned query ((state.append "" true transport).bindTerminal world.exchanges.length)
      (world.launch launch) := by
  have appended := aligned.append origin
  refine ⟨appended.origins, appended.named, appended.anonymous, ?_, appended.armed⟩
  intro future source
  cases source
  refine ⟨⟨transport, ?_⟩, launch, ?_, index⟩
  · simp [WalkState.labels, WalkState.append, WalkState.bindTerminal, aligned.length_eq]
  · simp [World.launches, World.launch]

theorem bindFuture (evaluated : state.Evaluated tag future) :
    Aligned query (state.bindFuture tag future) world := by
  unfold WalkState.bindFuture
  by_cases anonymous : tag = ""
  · rw [if_pos anonymous]
    refine ⟨aligned.origins, aligned.named, ?_, aligned.terminal, aligned.armed⟩
    intro bound source
    cases source
    exact anonymous ▸ evaluated
  · rw [if_neg anonymous]
    refine ⟨aligned.origins, ?_, aligned.anonymous, aligned.terminal, aligned.armed⟩
    intro other bound source
    by_cases same : other = tag
    · subst same
      simp only [Function.update_self] at source
      cases source
      exact ⟨anonymous, evaluated⟩
    · simp only [ne_eq, same, not_false_eq_true, Function.update_of_ne] at source
      exact aligned.named source

end Aligned

end Aligned

/-! ### The walk and the sweep keep the correspondence -/

def RuleOutcome.state : RuleOutcome → WalkState
  | .next state => state
  | .suspend state _ => state
  | .exit result => result.state

def RuleOutcome.resumed : RuleOutcome → WalkState
  | .next state => { state with ruleIndex := state.ruleIndex + 1 }
  | .suspend state _ => state
  | .exit result => result.state

variable {query : Query} {state swept : WalkState} {world after : World} {clean : MatchCondition}

theorem ActionEffect.frame {rule : DNSRule} {outcome : RuleOutcome}
    (effect : ActionEffect query rule state world outcome after) :
    outcome.state.armedRules = state.armedRules ∧ outcome.state.reachedRaces = state.reachedRaces ∧
      outcome.state.namedResponses = state.namedResponses ∧ Extends world after := by
  have unchanged := (Follows.refl world).extends
  cases effect with
  | evaluateMissing =>
      split <;> exact ⟨rfl, rfl, rfl, unchanged⟩
  | evaluate =>
      simp only [RuleOutcome.state, WalkState.bindFuture]
      split <;> exact ⟨rfl, rfl, rfl, world.extends_launch _⟩
  | speculate => exact ⟨rfl, rfl, rfl, world.extends_launch _⟩
  | _ => exact ⟨rfl, rfl, rfl, unchanged⟩

theorem ActionEffect.resumed {rule : DNSRule} {outcome : RuleOutcome}
    (effect : ActionEffect query rule state world outcome after) :
    outcome.resumed.armedRules = state.armedRules ∧ outcome.resumed.reachedRaces = state.reachedRaces ∧
      outcome.resumed.ruleIndex ≤ state.ruleIndex + 1 := by
  obtain ⟨armed, reached, _⟩ := effect.frame
  cases outcome with
  | next next => exact ⟨armed, reached, Nat.le_of_eq (congrArg (· + 1) effect.ruleIndex)⟩
  | suspend next suspension | exit exit => cases effect <;> exact ⟨armed, reached, Nat.le_succ _⟩

namespace Aligned

variable {query : Query} {clean : MatchCondition} {rule : DNSRule}
  {state : WalkState} {world after : World}

section Aligned

variable (aligned : Aligned query state world)
include aligned

theorem arm {pending : List FutureId} (among : PendingAmong world (boundFutures state rule) pending) :
    Aligned query (state.arm (armRule state rule pending)) world := by
  refine ⟨aligned.origins, aligned.named, aligned.anonymous, aligned.terminal, ?_⟩
  intro armed member
  rcases List.mem_append.1 member with before | new
  · exact aligned.armed before
  · obtain rfl := List.mem_singleton.1 new
    refine ⟨fun future captured => aligned.boundFutures_lt (among.unseen future captured).1, ?_⟩
    intro future source
    obtain ⟨_, anonymous⟩ := Option.ite_none_right_eq_some.1 source
    exact aligned.anonymous anonymous

theorem enters {entered : WalkState} (enters : Entered world rule state entered) :
    Aligned query entered world := by
  cases enters with
  | unbound _ => exact aligned
  | ordered _ _ settles _ => exact aligned.settles settles
  | race _ _ settles _ =>
      have settled := aligned.settles settles
      exact ⟨settled.origins, settled.named, settled.anonymous, settled.terminal, settled.armed⟩

theorem action {outcome : RuleOutcome} (found : query.rules[state.ruleIndex]? = some rule)
    (effect : ActionEffect query rule state world outcome after) :
    Aligned query outcome.state after := by
  cases effect with
  | options => exact ⟨aligned.origins, aligned.named, aligned.anonymous, aligned.terminal, aligned.armed⟩
  | evaluateMissing =>
      split
      · exact ⟨aligned.origins, aligned.named, nofun, aligned.terminal, aligned.armed⟩
      · exact aligned
  | evaluate action _ free =>
      refine Aligned.bindFuture (aligned.append ?_) (aligned.append_evaluated _ _)
      refine ⟨rfl, rfl, rule, found, ?_⟩
      rw [action]
      exact .evaluate free
  | speculate action =>
      apply aligned.append_terminal
      · refine ⟨rfl, rfl, rule, found, ?_⟩
        rw [action]
        exact .speculate
      · rfl
  | _ => exact aligned

theorem walkRule {outcome : RuleOutcome} (found : query.rules[state.ruleIndex]? = some rule)
    (effect : RuleEffect query clean rule state world outcome after) :
    Aligned query outcome.state after := by
  cases effect with
  | arm _ _ settles among _ => exact (aligned.settles settles).arm among
  | await _ _ settles _ _ => exact aligned.settles settles
  | pass enters _ _ => exact aligned.enters enters
  | act enters _ _ effect =>
      exact (aligned.enters enters).action (by rw [enters.ruleIndex, found]) effect

theorem advance : Aligned query { state with ruleIndex := state.ruleIndex + 1 } world :=
  ⟨aligned.origins, aligned.named, aligned.anonymous, aligned.terminal, aligned.armed⟩

end Aligned

end Aligned

variable {start : World} {kept rest : List ArmedRule} {outcome : SweepOutcome}

theorem SweepEffect.disarms (effect : SweepEffect query clean start world kept rest state swept outcome)
    (all : state.armedRules = kept ++ rest) :
    ∃ remaining ⊆ state.armedRules, swept = state.disarm remaining := by
  induction effect with
  | done => exact ⟨_, List.Subset.refl _, rfl⟩
  | keep _ _ _ ih => exact ih (by simp [all])
  | drop _ _ _ ih =>
      obtain ⟨remaining, subset, same⟩ := ih rfl
      exact ⟨remaining, List.Subset.trans subset
        (all ▸ ((List.sublist_cons_self _ _).append_left _).subset), same⟩
  | wins => exact ⟨_, all ▸ ((List.sublist_cons_self _ _).append_left _).subset, rfl⟩

/-- After a sweep that decided nothing, every armed rule waits for a future whose signal
is ahead. -/
theorem SweepEffect.waits (effect : SweepEffect query clean start world kept rest state swept .next)
    (all : state.armedRules = kept ++ rest)
    (waiting : ∀ armed ∈ kept, ∃ future ∈ armed.futures, Unseen world future) :
    ∀ armed ∈ swept.armedRules, ∃ future ∈ armed.futures, Unseen world future := by
  generalize decided : SweepOutcome.next = outcome at effect
  induction effect with
  | done => simpa [all] using waiting
  | keep captured ahead _ ih =>
      refine ih (by simp [all]) ?_ decided
      exact List.forall_mem_append.2 ⟨waiting, List.forall_mem_singleton.2 ⟨_, captured, ahead⟩⟩
  | drop _ _ _ ih => exact ih rfl waiting decided
  | wins _ _ effect => exact absurd decided.symm effect.ne_next

theorem SweepEffect.winner (effect : SweepEffect query clean start world kept rest state swept outcome)
    (decided : outcome ≠ .next) :
    ∃ armed ∈ rest, ∃ anonymous, ArmedJudged query clean start world armed swept anonymous ∧
      armed.rule.isMatch (judgedMetadata query anonymous swept.namedResponses) = true ∧
      ArmedEffect query armed swept world outcome := by
  induction effect with
  | done => exact absurd rfl decided
  | keep _ _ _ ih | drop _ _ _ ih =>
      obtain ⟨armed, member, won⟩ := ih decided
      exact ⟨armed, List.mem_cons_of_mem _ member, won⟩
  | wins judged matched effect => exact ⟨_, List.mem_cons_self, _, judged, matched, effect⟩

section

variable (aligned : Aligned query state world)
include aligned

theorem Aligned.disarm {remaining : List ArmedRule}
    (subset : remaining ⊆ state.armedRules) :
    Aligned query (state.disarm remaining) world :=
  ⟨aligned.origins, aligned.named, aligned.anonymous, aligned.terminal,
    fun member => aligned.armed (subset member)⟩

theorem Aligned.sweep
    (effect : SweepEffect query clean start world [] state.armedRules state swept outcome) :
    Aligned query swept world := by
  obtain ⟨_, subset, rfl⟩ := effect.disarms rfl
  exact aligned.disarm subset

theorem Aligned.woken :
    Aligned query state { world with wake := false } :=
  ⟨aligned.origins, aligned.named, aligned.anonymous, aligned.terminal, aligned.armed⟩

end

end SideraCore.Dns.RuleWalk
