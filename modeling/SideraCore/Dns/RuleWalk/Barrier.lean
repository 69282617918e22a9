import SideraCore.Dns.RuleWalk.WakeUp

/-!
Owns the barrier that armed race rules are for the rest of the evaluation: what may
be launched and committed while some are armed, when a rule stops being armed, where
a returned response comes from, and that no rule launches twice although the walk
comes back to the same index.
-/

namespace SideraCore.Dns.RuleWalk

open Rule Concurrency Condition

/-! ### What a commit may be -/

/-- The rule a commit belongs to, none for the default route. While others are armed,
only a race rule that was armed itself commits. -/
inductive Committed (query : Query) (state : WalkState) : CommitSite → Option DNSRule → Prop
  | rule {rule : DNSRule} (found : query.rules[state.ruleIndex]? = some rule)
      (idle : state.armedRules = []) : Committed query state (.rule state.ruleIndex) (some rule)
  | defaultRoute (idle : state.armedRules = []) : Committed query state .defaultRoute none
  | race {index : Nat} {rule : DNSRule} (found : query.rules[index]? = some rule)
      (race : rule.race = true) : Committed query state (.armed index) (some rule)

def isRoute : Option RuleAction → Bool
  | some (.dnsRoute ..) => true
  | _ => false

/-- The future belongs to an exchange that an evaluate rule launched. -/
def AnswersEvaluate (query : Query) (world : World) (future : FutureId) : Prop :=
  ∃ launch rule, world.launches[future]? = some launch ∧
    query.rules[launch.ruleIndex]? = some rule ∧ isEvaluate rule.action = true

inductive Returns (query : Query) (world : World) : WalkExit → Prop
  | cancelled (state : WalkState) : Returns query world (cancelledExit state)
  | respond {site : CommitSite} {rule : DNSRule} {state : WalkState} {response : Option Msg}
      {transport : Option DNSTransport} (committed : Committed query state site (some rule))
      (action : rule.action = some .respond)
      (source : ∀ message, response = some message →
        ∃ future, AnswersEvaluate query world future ∧ world.poll future = some (.ok message)) :
      Returns query world ⟨site, respondResult response transport, none, state⟩
  | exchanged {site : CommitSite} {rule : Option DNSRule} {state : WalkState}
      {transport : DNSTransport} {options : DNSQueryOptions} (committed : Committed query state site rule)
      (action : ∀ route, rule = some route → isRoute route.action = true) :
      Returns query world ⟨site, exchangeResult transport (query.finalOutcome transport options),
        some (transport, options), state⟩
  | speculated {rule : DNSRule} {state : WalkState} {future : FutureId} {launch : Launch}
      {outcome : ExchangeOutcome}
      (committed : Committed query state (.rule launch.ruleIndex) (some rule))
      (action : isRoute rule.action = true) (launched : world.launches[future]? = some launch)
      (published : world.poll future = some outcome) :
      Returns query world ⟨.rule launch.ruleIndex, exchangeResult launch.transport outcome, none, state⟩
  | reject {site : CommitSite} {rule : DNSRule} {state : WalkState} {reject : RuleActionReject}
      {result : ExchangeWithRulesResult} (committed : Committed query state site (some rule))
      (action : rule.action = some (.reject reject)) (rejects : rejectResult query reject = some result) :
      Returns query world ⟨site, result, none, state⟩
  | predefined {site : CommitSite} {rule : DNSRule} {state : WalkState}
      {predefined : RuleActionPredefined} (committed : Committed query state site (some rule))
      (action : rule.action = some (.predefined predefined)) :
      Returns query world ⟨site, predefinedResult query predefined, none, state⟩

/-- The exchange that is left to be awaited belongs to a commit. -/
inductive Finishes (query : Query) (state : WalkState) (world : World) : PendingExchange → Prop
  | exchange {site : CommitSite} {rule : Option DNSRule} {transport : DNSTransport}
      {options : DNSQueryOptions} (committed : Committed query state site rule)
      (action : ∀ route, rule = some route → isRoute route.action = true) :
      Finishes query state world ⟨site, transport, options, none⟩
  | speculated {rule : DNSRule} {future : FutureId} {launch : Launch} {options : DNSQueryOptions}
      (committed : Committed query state (.rule launch.ruleIndex) (some rule))
      (action : isRoute rule.action = true) (launched : world.launches[future]? = some launch) :
      Finishes query state world ⟨.rule launch.ruleIndex, launch.transport, options, some future⟩

/-! ### What may be launched -/

/-- The action launches exchanges, and this one while it may. -/
def Launch.Guarded (launch : Launch) : Option RuleAction → Prop
  | some (.evaluate _ _ speculative _) => speculative = true ∨ launch.armedRules = []
  | some (.dnsRoute _ speculative _) => speculative = true
  | _ => False

structure LaunchLog (query : Query) (launches : List Launch) : Prop where
  guarded : ∀ launch ∈ launches, ∃ rule, query.rules[launch.ruleIndex]? = some rule ∧
    launch.Guarded rule.action
  once : (launches.map Launch.ruleIndex).Nodup

variable {query : Query} {clean : MatchCondition} {rule : DNSRule} {state : WalkState}
  {world after : World} {kept rest : List ArmedRule}
  (found : query.rules[state.ruleIndex]? = some rule)

theorem LaunchLog.shrinks {launches : List Launch} {launch : Launch}
    (log : LaunchLog query (launches ++ [launch])) : LaunchLog query launches where
  guarded := fun earlier member => log.guarded earlier (List.mem_append_left _ member)
  once := by
    have once := log.once
    rw [List.map_append] at once
    exact (List.nodup_append.1 once).1

/-- Launches come from rules that the walk has passed, except that of a speculative
route, where it stops. -/
structure LaunchedOnce (query : Query) (state : WalkState) (world : World) : Prop where
  once : (world.launches.map Launch.ruleIndex).Nodup
  passed : ∀ launch ∈ world.launches, launch.ruleIndex < state.ruleIndex ∨
    launch.ruleIndex = state.ruleIndex ∧ state.terminalFuture ≠ none ∧
      ∃ rule, query.rules[state.ruleIndex]? = some rule ∧ isRoute rule.action = true

/-- A race rule is armed or everything it was armed for has completed. -/
def Released (state : WalkState) (world : World) : Prop :=
  ∀ reached ∈ state.reachedRaces, reached.armed ∈ state.armedRules ∨
    ∀ future ∈ reached.armed.futures, Completed world future

structure Barrier (query : Query) (state : WalkState) (world : World) : Prop where
  aligned : Aligned query state world
  races : ∀ armed ∈ state.armedRules, query.rules[armed.ruleIndex]? = some armed.rule ∧
    armed.rule.race = true
  released : Released state world
  responses : ∀ tag message, state.namedResponses tag = some message →
    ∃ future, AnswersEvaluate query world future ∧ world.poll future = some (.ok message)

/-! ### Where responses come from -/

section Responses

variable {future : FutureId}

theorem answered_extends {message : Msg} (further : Extends world after) :
    (∃ future, AnswersEvaluate query world future ∧ world.poll future = some (.ok message)) →
      ∃ future, AnswersEvaluate query after future ∧ after.poll future = some (.ok message) := by
  rintro ⟨future, ⟨launch, rule, launched, found, evaluates⟩, published⟩
  obtain ⟨more, same⟩ := further.launches
  refine ⟨future, ⟨launch, rule, ?_, found, evaluates⟩, further.poll published⟩
  rw [← same, List.getElem?_append_left (List.getElem?_eq_some_iff.1 launched).1, launched]

section

variable (aligned : Aligned query state world)
include aligned

theorem Aligned.answersEvaluate {label : FutureLabel}
    (found : state.labels[future]? = some label) (evaluated : label.terminal = false) :
    AnswersEvaluate query world future := by
  obtain ⟨launch, launched, _, _, rule, foundRule, launchedFor⟩ := aligned.launch_at found
  refine ⟨launch, rule, launched, foundRule, ?_⟩
  generalize rule.action = action at launchedFor
  cases launchedFor with
  | evaluate => rfl
  | speculate => cases evaluated

theorem Aligned.terminal_eq_false {label : FutureLabel}
    (found : state.labels[future]? = some label) (tagged : label.tag ≠ "") :
    label.terminal = false := by
  obtain ⟨launch, _, _, _, rule, _, launchedFor⟩ := aligned.launch_at found
  generalize rule.action = action at launchedFor
  cases launchedFor with
  | evaluate => rfl
  | speculate => exact absurd rfl tagged

theorem Aligned.view_source {source : Option FutureId}
    (evaluated : ∀ future, source = some future → state.Evaluated "" future) {message : Msg}
    (viewed : world.view source = some message) :
    ∃ future, AnswersEvaluate query world future ∧ world.poll future = some (.ok message) := by
  simp only [World.view, Option.bind_eq_some_iff] at viewed
  obtain ⟨outcome, ⟨future, bound, published⟩, success⟩ := viewed
  obtain ⟨transport, found⟩ := evaluated future bound
  refine ⟨future, aligned.answersEvaluate found rfl, ?_⟩
  cases outcome with
  | ok response =>
      cases success
      exact published
  | error error => cases success

end

end Responses

theorem Released.extends (released : Released state world) (further : Extends world after) :
    Released state after :=
  fun reached member => (released reached member).imp_right fun completed future captured =>
    further.completed (completed future captured)

theorem Released.disarm {armed : ArmedRule} (released : Released state world)
    (all : state.armedRules = kept ++ armed :: rest)
    (ready : ∀ future ∈ armed.futures, Completed world future) :
    Released (state.disarm (kept ++ rest)) world := by
  intro reached member
  rcases released reached member with still | completed
  · rw [all, List.mem_append, List.mem_cons] at still
    rcases still with before | rfl | behind
    · exact .inl (List.mem_append_left _ before)
    · exact .inr ready
    · exact .inl (List.mem_append_right _ behind)
  · exact .inr completed

theorem SweepEffect.released {start : World} {swept : WalkState} {outcome : SweepOutcome}
    (effect : SweepEffect query clean start world kept rest state swept outcome)
    (all : state.armedRules = kept ++ rest) (released : Released state world) :
    Released swept world := by
  induction effect with
  | done => exact released
  | keep _ _ _ ih => exact ih (by simp [all]) released
  | drop judged _ _ ih =>
      exact ih rfl (released.disarm all judged.ready)
  | wins judged _ _ => exact released.disarm all judged.ready

/-! ### The walk and the sweep keep the barrier -/

namespace Barrier

theorem start : Barrier query (.start query.options) .start where
  aligned := .start
  races := fun _ member => absurd member List.not_mem_nil
  released := fun _ member => absurd member List.not_mem_nil
  responses := fun _ _ kept => absurd kept (Option.some_ne_none _).symm

section Barrier

variable (barrier : Barrier query state world)
include barrier

theorem follows (follows : Follows world after) : Barrier query state after where
  aligned := barrier.aligned.follows follows
  races := barrier.races
  released := barrier.released.extends follows.extends
  responses := fun tag message kept =>
    answered_extends follows.extends (barrier.responses tag message kept)

theorem settle {id : FutureId} {future : Future} {outcome : ExchangeOutcome}
    (found : state.futures[id]? = some future) (published : world.poll id = some outcome) :
    Barrier query (state.settle id future outcome) world := by
  have same := WalkState.sameWalk_settle state id future outcome found
  refine ⟨barrier.aligned.of_sameWalk same, same.armedRules ▸ barrier.races, ?_, ?_⟩
  · intro reached member
    rw [same.armedRules]
    exact barrier.released reached (same.reachedRaces ▸ member)
  · intro tag message kept
    by_cases anonymous : future.tag = ""
    · simp only [WalkState.settle, anonymous, if_true] at kept
      exact barrier.responses tag message kept
    · simp only [WalkState.settle, anonymous, if_false] at kept
      by_cases own : tag = future.tag
      · subst own
        rw [Function.update_self] at kept
        have label : state.labels[id]? = some future.toFutureLabel := by
          simp [WalkState.labels, found]
        have evaluated := barrier.aligned.terminal_eq_false label anonymous
        refine ⟨id, barrier.aligned.answersEvaluate label evaluated, ?_⟩
        cases outcome with
        | ok response =>
            cases kept
            exact published
        | error error => cases kept
      · rw [Function.update_of_ne own] at kept
        exact barrier.responses tag message kept

theorem settles {settled : WalkState} (settles : Settles world state settled) :
    Barrier query settled world := by
  induction settles with
  | refl state => exact barrier
  | step found _ published _ ih =>
      exact ih (barrier.settle found published)

theorem enters {entered : WalkState} (enters : Entered world rule state entered) :
    Barrier query entered world := by
  cases enters with
  | unbound _ => exact barrier
  | ordered _ _ settles _ => exact barrier.settles settles
  | race bound race settles available =>
      have settled := barrier.settles settles
      refine ⟨barrier.aligned.enters (.race bound race settles available), settled.races, ?_,
        settled.responses⟩
      intro reached member
      rcases List.mem_append.1 member with before | new
      · exact settled.released reached before
      · obtain rfl := List.mem_singleton.1 new
        exact .inr nofun

theorem advance : Barrier query { state with ruleIndex := state.ruleIndex + 1 } world :=
  ⟨barrier.aligned.advance, barrier.races, barrier.released, barrier.responses⟩

theorem sweep {start : World} {swept : WalkState} {outcome : SweepOutcome}
    (effect : SweepEffect query clean start world [] state.armedRules state swept outcome) :
    Barrier query swept world := by
  obtain ⟨_, subset, rfl⟩ := effect.disarms rfl
  exact ⟨barrier.aligned.sweep effect, fun armed member => barrier.races armed (subset member),
    effect.released rfl barrier.released, barrier.responses⟩

theorem woken : Barrier query state { world with wake := false } :=
  ⟨barrier.aligned.woken, barrier.races, barrier.released, barrier.responses⟩

include found

theorem arm {pending : List FutureId} (race : rule.race = true)
    (among : PendingAmong world (boundFutures state rule) pending) :
    Barrier query (state.arm (armRule state rule pending)) world := by
  refine ⟨barrier.aligned.arm among, ?_, ?_, barrier.responses⟩
  · intro armed member
    rcases List.mem_append.1 member with before | new
    · exact barrier.races armed before
    · obtain rfl := List.mem_singleton.1 new
      exact ⟨found, race⟩
  · intro reached member
    rcases List.mem_append.1 member with before | new
    · exact (barrier.released reached before).imp_left (List.mem_append_left _)
    · obtain rfl := List.mem_singleton.1 new
      exact .inl (List.mem_append_right _ List.mem_cons_self)

theorem action {outcome : RuleOutcome}
    (effect : ActionEffect query rule state world outcome after) :
    Barrier query outcome.state after := by
  obtain ⟨armedRules, reachedRaces, namedResponses, further⟩ := effect.frame
  refine ⟨barrier.aligned.action found effect, armedRules ▸ barrier.races, ?_, ?_⟩
  · intro reached member
    rw [armedRules]
    exact barrier.released.extends further reached (reachedRaces ▸ member)
  · exact fun tag message kept =>
      answered_extends further (barrier.responses tag message (namedResponses ▸ kept))

theorem walkRule {outcome : RuleOutcome}
    (effect : RuleEffect query clean rule state world outcome after) :
    Barrier query outcome.state after := by
  cases effect with
  | arm _ race settles among _ =>
      exact (barrier.settles settles).arm (by rw [settles.sameWalk.ruleIndex, found]) race among
  | await _ _ settles _ _ => exact barrier.settles settles
  | pass enters _ _ => exact barrier.enters enters
  | act enters _ _ effect =>
      exact (barrier.enters enters).action (by rw [enters.ruleIndex, found]) effect

end Barrier

end Barrier

/-! ### No rule launches twice -/

namespace LaunchedOnce

theorem start : LaunchedOnce query (.start query.options) .start :=
  ⟨List.nodup_nil, fun _ member => absurd member List.not_mem_nil⟩

section Launched

variable (launched : LaunchedOnce query state world)
include launched

theorem of_same {other : WalkState} (launches : after.launches = world.launches)
    (ruleIndex : other.ruleIndex = state.ruleIndex)
    (terminalFuture : other.terminalFuture = state.terminalFuture) :
    LaunchedOnce query other after := by
  refine ⟨launches ▸ launched.once, ?_⟩
  rw [launches, ruleIndex, terminalFuture]
  exact launched.passed

theorem advance : LaunchedOnce query { state with ruleIndex := state.ruleIndex + 1 } world := by
  refine ⟨launched.once, fun launch member => .inl ?_⟩
  rcases launched.passed launch member with earlier | ⟨here, _⟩
  · exact Nat.lt_succ_of_lt earlier
  · exact Nat.lt_succ_of_le (Nat.le_of_eq here)

theorem enters {entered : WalkState} (enters : Entered world rule state entered) :
    LaunchedOnce query entered world := by
  cases enters with
  | unbound _ => exact launched
  | ordered _ _ settles _ | race _ _ settles _ =>
      exact launched.of_same rfl settles.sameWalk.ruleIndex settles.sameWalk.terminalFuture

theorem launch {launch : Launch} {next : WalkState}
    (earlier : ∀ other ∈ world.launches, other.ruleIndex < state.ruleIndex)
    (here : launch.ruleIndex = state.ruleIndex) (onward : state.ruleIndex ≤ next.ruleIndex)
    (own : launch.ruleIndex < next.ruleIndex ∨
      launch.ruleIndex = next.ruleIndex ∧ next.terminalFuture ≠ none ∧
        ∃ rule, query.rules[next.ruleIndex]? = some rule ∧ isRoute rule.action = true) :
    LaunchedOnce query next (world.launch launch) := by
  constructor
  · rw [World.launch_launches, List.map_append, List.nodup_append]
    refine ⟨launched.once, by simp, ?_⟩
    intro index member other single
    obtain ⟨before, launchedBefore, rfl⟩ := List.mem_map.1 member
    obtain rfl := List.mem_singleton.1 single
    exact here ▸ Nat.ne_of_lt (earlier before launchedBefore)
  · rw [World.launch_launches]
    intro other member
    rcases List.mem_append.1 member with before | new
    · exact .inl (Nat.lt_of_lt_of_le (earlier other before) onward)
    · rw [List.mem_singleton.1 new]
      exact own

include found

theorem action {outcome : RuleOutcome}
    (effect : ActionEffect query rule state world outcome after) :
    LaunchedOnce query outcome.resumed after := by
  cases effect with
  | noAction | routeUnresolved | rejectReply | options => exact launched.advance.of_same rfl rfl rfl
  | evaluateMissing =>
      split <;> exact launched.advance.of_same rfl rfl rfl
  | evaluate action =>
      refine launched.launch (fun other member => ?_) rfl ?_ (.inl ?_)
      · rcases launched.passed other member with below | ⟨_, _, route, foundRoute, isRoute⟩
        · exact below
        · cases found.symm.trans foundRoute
          simp [action, RuleWalk.isRoute] at isRoute
      all_goals simp [RuleOutcome.resumed, WalkState.bindFuture_ruleIndex, Query.launch, WalkState.append]
  | speculate action _ first =>
      refine launched.launch (fun other member => ?_) rfl (Nat.le_refl _)
        (.inr ⟨rfl, Option.some_ne_none _, rule, found, by rw [action]; rfl⟩)
      rcases launched.passed other member with below | ⟨_, second, _⟩
      · exact below
      · exact absurd first second
  | _ => exact launched

theorem walkRule {outcome : RuleOutcome}
    (effect : RuleEffect query clean rule state world outcome after) :
    LaunchedOnce query outcome.resumed after := by
  cases effect with
  | arm _ _ settles _ _ =>
      exact (launched.of_same rfl settles.sameWalk.ruleIndex
        settles.sameWalk.terminalFuture).advance.of_same rfl rfl rfl
  | await _ _ settles _ _ =>
      exact launched.of_same rfl settles.sameWalk.ruleIndex settles.sameWalk.terminalFuture
  | pass enters _ _ => exact (launched.enters enters).advance
  | act enters _ _ effect =>
      exact (launched.enters enters).action (by rw [enters.ruleIndex, found]) effect

end Launched

end LaunchedOnce

theorem Barrier.shown {other : WalkState} (barrier : Barrier query state world)
    (launched : LaunchedOnce query other world) :
    Released state world ∧ LaunchLog query world.launches := by
  refine ⟨barrier.released, ?_, launched.once⟩
  intro launch member
  obtain ⟨future, found⟩ := List.getElem?_of_mem member
  have below : future < state.labels.length :=
    barrier.aligned.origins.length_eq ▸ (List.getElem?_eq_some_iff.1 found).1
  obtain ⟨other, same, _, _, rule, foundRule, launchedFor⟩ :=
    barrier.aligned.launch_at (List.getElem?_eq_getElem below)
  cases found.symm.trans same
  refine ⟨rule, foundRule, ?_⟩
  generalize rule.action = action at launchedFor ⊢
  generalize state.labels[future] = label at launchedFor
  cases launchedFor with
  | evaluate free => exact free
  | speculate => rfl

theorem Committed.carry {other : WalkState} {site : CommitSite} {route : Option DNSRule}
    (committed : Committed query state site route) (ruleIndex : other.ruleIndex = state.ruleIndex)
    (subset : other.armedRules ⊆ state.armedRules) : Committed query other site route := by
  have still (idle : state.armedRules = []) : other.armedRules = [] := List.subset_nil.1 (idle ▸ subset)
  cases committed with
  | rule found idle =>
      rw [← ruleIndex] at found ⊢
      exact .rule found (still idle)
  | defaultRoute idle => exact .defaultRoute (still idle)
  | race found race => exact .race found race

theorem Finishes.carry {other : WalkState} {pending : PendingExchange}
    (finishes : Finishes query state world pending) (launches : after.launches = world.launches)
    (ruleIndex : other.ruleIndex = state.ruleIndex) (subset : other.armedRules ⊆ state.armedRules) :
    Finishes query other after pending := by
  cases finishes with
  | exchange committed action => exact .exchange (committed.carry ruleIndex subset) action
  | speculated committed action launched =>
      exact .speculated (committed.carry ruleIndex subset) action (launches ▸ launched)

theorem Returns.follows {exit : WalkExit} (returns : Returns query world exit)
    (follows : Follows world after) : Returns query after exit := by
  cases returns with
  | cancelled state => exact .cancelled state
  | respond committed action source =>
      exact .respond committed action fun message kept =>
        answered_extends follows.extends (source message kept)
  | exchanged committed action => exact .exchanged committed action
  | speculated committed action launched published =>
      exact .speculated committed action (follows.launches ▸ launched) (follows.poll published)
  | reject committed action rejects => exact .reject committed action rejects
  | predefined committed action => exact .predefined committed action

theorem futureTransport_eq (state : WalkState) (future : FutureId) :
    futureTransport state future = (state.labels[future]?).map FutureLabel.transport := by
  simp [futureTransport, WalkState.labels, Function.comp_def]

def CommitsTo (query : Query) (world : World) : RuleOutcome → Prop
  | .next _ => True
  | .suspend state suspension =>
      ∀ pending, suspension = .pending pending → Finishes query state world pending
  | .exit exit => Returns query world exit

include found in
theorem Barrier.commits {outcome : RuleOutcome} (barrier : Barrier query state world)
    (effect : ActionEffect query rule state world outcome after) :
    CommitsTo query after outcome := by
  cases effect with
  | respondTagged action idle tagged =>
      exact .respond (.rule found idle) action (barrier.responses _)
  | respond action idle untagged ready =>
      exact .respond (.rule found idle) action fun message viewed =>
        barrier.aligned.view_source (fun _ source => barrier.aligned.anonymous source) viewed
  | reject action idle rejects => exact .reject (.rule found idle) action rejects
  | predefined action idle => exact .predefined (.rule found idle) action
  | routeSpeculated action idle launched same =>
      rintro _ ⟨⟩
      obtain ⟨⟨transport, label⟩, launch, foundLaunch, index⟩ := barrier.aligned.terminal launched
      obtain ⟨other, foundOther, origin⟩ := barrier.aligned.launch_at label
      cases foundLaunch.symm.trans foundOther
      have here : launch.ruleIndex = state.ruleIndex := index.trans same
      rw [futureTransport_eq, label, Option.map_some, Option.getD_some, ← origin.transport, ← here]
      have committed : Committed query state (.rule launch.ruleIndex) (some rule) := by
        rw [here]
        exact .rule found idle
      exact .speculated committed (by rw [action]; rfl) foundLaunch
  | route action resolved idle =>
      rintro _ ⟨⟩
      refine .exchange (.rule found idle) ?_
      rintro _ ⟨⟩
      rw [action]
      rfl
  | evaluateMissing | evaluate | noAction | options | routeUnresolved | rejectReply => trivial
  | respondAwait | held | speculate => rintro _ ⟨⟩

theorem Barrier.wins {start : World} {swept : WalkState} {outcome : SweepOutcome}
    (barrier : Barrier query state world)
    (effect : SweepEffect query clean start world [] state.armedRules state swept outcome) :
    match outcome with
    | .next => True
    | .pending pending => Finishes query swept world pending
    | .exit exit => Returns query world exit ∧ exit.state = swept := by
  by_cases passes : outcome = .next
  · subst passes
    trivial
  obtain ⟨armed, member, _, _, _, won⟩ := effect.winner passes
  obtain ⟨found, race⟩ := barrier.races armed member
  have sweptBarrier := barrier.sweep effect
  cases won with
  | route action resolved =>
      refine .exchange (.race found race) ?_
      rintro _ ⟨⟩
      rw [action]
      rfl
  | respondTagged action tagged =>
      exact ⟨.respond (.race found race) action (sweptBarrier.responses _), rfl⟩
  | respond action untagged =>
      refine ⟨.respond (.race found race) action fun message viewed => ?_, rfl⟩
      refine sweptBarrier.aligned.view_source (fun future source => ?_) viewed
      obtain ⟨_, _, rfl⟩ := effect.disarms rfl
      rcases Option.or_eq_some_iff.1 source with captured | ⟨_, current⟩
      · exact (barrier.aligned.armed member).2 future captured
      · exact sweptBarrier.aligned.anonymous current
  | reject action rejects => exact ⟨.reject (.race found race) action rejects, rfl⟩
  | predefined action => exact ⟨.predefined (.race found race) action, rfl⟩

/-- What is asked of the actions that show the walker's variables. -/
def barrierRequirement (query : Query) : Requirement walkSignature World
  | .judge state .., world => Released state world ∧ LaunchLog query world.launches
  | .recvWake state _, world => Released state world ∧ LaunchLog query world.launches
  | .awaitDone state site future, world =>
      (Released state world ∧ LaunchLog query world.launches) ∧
        ∃ launch rule, world.launches[future]? = some launch ∧ site = .rule launch.ruleIndex ∧
          Committed query state site (some rule)
  | .exchange state site _ _, world =>
      (Released state world ∧ LaunchLog query world.launches) ∧ ∃ rule, Committed query state site rule
  | _, _ => True

def barrierSpec (query : Query) : RoundSpec where
  before := fun state suspension world => Barrier query state world ∧ LaunchedOnce query state world ∧
    ∀ pending, suspension = .pending pending → Finishes query state world pending
  sweeping := fun state world => Released state world ∧ LaunchLog query world.launches
  swept := fun state suspension world => Barrier query state world ∧ LaunchedOnce query state world ∧
    ∀ pending, suspension = .pending pending → Finishes query state world pending
  walking := fun state world => Barrier query state world ∧ LaunchedOnce query state world
  after := fun state suspension world => Barrier query state world ∧ LaunchedOnce query state world ∧
    ∀ pending, suspension = .pending pending → Finishes query state world pending
  finishing := fun state pending world => (Released state world ∧ LaunchLog query world.launches) ∧
    Finishes query state world pending
  exits := fun exit world => (Released exit.state world ∧ LaunchLog query world.launches) ∧
    Returns query world exit

theorem barrierSpec_stable (query : Query) : (barrierSpec query).Stable query := by
  have log {before after : World} (follows : Follows before after)
      (holds : LaunchLog query before.launches) : LaunchLog query after.launches :=
    follows.launches ▸ holds
  have station {state : WalkState} {suspension : Suspension} {before after : World}
      (follows : Follows before after) (holds : (barrierSpec query).before state suspension before) :
      (barrierSpec query).before state suspension after :=
    ⟨holds.1.follows follows, holds.2.1.of_same follows.launches rfl rfl,
      fun pending same => (holds.2.2 pending same).carry follows.launches rfl (List.Subset.refl _)⟩
  constructor
  · exact fun _ _ => stable_of_follows fun _ _ => station
  · exact fun _ => stable_of_follows fun _ _ follows holds =>
      ⟨holds.1.extends follows.extends, log follows holds.2⟩
  · exact fun _ _ => stable_of_follows fun _ _ => station
  · exact fun _ => stable_of_follows fun _ _ follows holds =>
      ⟨holds.1.follows follows, holds.2.of_same follows.launches rfl rfl⟩
  · exact fun _ _ => stable_of_follows fun _ _ => station
  · exact fun _ _ => stable_of_follows fun _ _ follows holds =>
      ⟨⟨holds.1.1.extends follows.extends, log follows holds.1.2⟩,
        holds.2.carry follows.launches rfl (List.Subset.refl _)⟩
  · exact fun _ => stable_of_follows fun _ _ follows holds =>
      ⟨⟨holds.1.1.extends follows.extends, log follows holds.1.2⟩, holds.2.follows follows⟩

theorem Finishes.required {pending : PendingExchange} (finishes : Finishes query state world pending) :
    ∃ rule, Committed query state pending.site rule ∧
      ∀ future, pending.future = some future →
        ∃ launch route, world.launches[future]? = some launch ∧ pending.site = .rule launch.ruleIndex ∧
          rule = some route := by
  cases finishes with
  | exchange committed action => exact ⟨_, committed, nofun⟩
  | speculated committed action launched =>
      refine ⟨_, committed, ?_⟩
      rintro _ ⟨⟩
      exact ⟨_, _, launched, rfl, rfl⟩

include found in
theorem barrierSpec_rule {outcome : RuleOutcome} (barrier : Barrier query state world)
    (launched : LaunchedOnce query state world)
    (effect : RuleEffect query clean rule state world outcome after) :
    (barrierSpec query).afterRule outcome after := by
  have reached := barrier.walkRule found effect
  have resumed := launched.walkRule found effect
  have committed : CommitsTo query after outcome := by
    cases effect with
    | arm | pass => trivial
    | await => rintro _ ⟨⟩
    | act enters _ _ effect =>
        exact Barrier.commits (by rw [enters.ruleIndex, found]) (barrier.enters enters) effect
  cases outcome with
  | next next => exact ⟨reached.advance, resumed⟩
  | suspend next suspension => exact ⟨reached, resumed, committed⟩
  | exit exit => exact ⟨reached.shown resumed, committed⟩

theorem barrierSpec_finish (barrier : Barrier query state world)
    (launched : LaunchedOnce query state world) :
    (barrierSpec query).afterWalk (walkEnd query state) world := by
  unfold walkEnd
  by_cases armed : (!state.armedRules.isEmpty) = true
  · rw [if_pos armed]
    refine ⟨barrier, launched, ?_⟩
    rintro _ ⟨⟩
  · rw [if_neg armed]
    refine ⟨barrier, launched, ?_⟩
    rintro _ ⟨⟩
    exact .exchange (.defaultRoute (armedRules_eq_nil armed)) nofun

theorem barrierSpec_sound (query : Query) :
    (barrierSpec query).Sound query (fun _ _ _ _ => True) (barrierRequirement query) where
  toStable := barrierSpec_stable query
  settle := by
    rintro state settled suspension world ⟨barrier, launched, finishes⟩ settles
    have same := settles.sameWalk
    refine ⟨barrier.settles settles, launched.of_same rfl same.ruleIndex same.terminalFuture, ?_⟩
    intro pending suspended
    exact (finishes pending suspended).carry rfl same.ruleIndex (same.armedRules ▸ List.Subset.refl _)
  sweeps := fun holds => holds.1.shown holds.2.1
  disarms := fun holds all ready => ⟨holds.1.disarm all ready, holds.2⟩
  judgesArmed := fun holds => holds
  passes := by
    rintro state swept suspension start world _ _ ⟨barrier, launched, finishes⟩ effect
    obtain ⟨_, subset, rfl⟩ := effect.disarms rfl
    exact ⟨barrier.sweep effect, launched.of_same rfl rfl rfl, fun pending suspended =>
      (finishes pending suspended).carry rfl rfl subset⟩
  wins := by
    rintro state swept suspension start world exit _ _ ⟨barrier, launched, _⟩ effect
    obtain ⟨returns, same⟩ := barrier.wins effect
    exact ⟨same ▸ (barrier.sweep effect).shown launched, returns⟩
  winsPending := by
    rintro state swept suspension start world pending _ _ ⟨barrier, launched, _⟩ effect
    exact ⟨(barrier.sweep effect).shown launched, barrier.wins effect⟩
  pending := by
    rintro state pending world ⟨barrier, launched, finishes⟩
    exact ⟨barrier.shown launched, finishes pending rfl⟩
  awaits := fun holds _ => holds.1.shown holds.2.1
  drains := fun holds _ => holds.1.shown holds.2.1
  woken := by
    rintro state suspension world ⟨barrier, launched, finishes⟩ _
    refine ⟨barrier.woken, launched.of_same rfl rfl rfl, fun pending suspended => ?_⟩
    exact (finishes pending suspended).carry rfl rfl (List.Subset.refl _)
  cancelled := by
    rintro state suspension world ⟨barrier, launched, _⟩ _
    exact ⟨barrier.shown launched, .cancelled state⟩
  resumesAwait := fun holds _ => ⟨holds.1, holds.2.1⟩
  resumesDrain := fun holds _ => ⟨holds.1, holds.2.1⟩
  awaitsDone := by
    rintro state pending future world ⟨shown, finishes⟩ source
    obtain ⟨rule, committed, speculates⟩ := finishes.required
    obtain ⟨launch, route, launched, site, rfl⟩ := speculates future source
    exact ⟨shown, launch, route, launched, site, committed⟩
  abandoned := fun holds _ => ⟨holds.1, .cancelled _⟩
  finished := by
    rintro state pending future world outcome ⟨shown, finishes⟩ source published
    cases finishes with
    | exchange committed action => cases source
    | speculated committed action launched =>
        cases source
        exact ⟨shown, .speculated committed action launched published⟩
  exchanges := by
    rintro state pending world ⟨shown, finishes⟩ _
    obtain ⟨rule, committed, _⟩ := finishes.required
    exact ⟨shown, rule, committed⟩
  exchanged := by
    rintro state pending world ⟨shown, finishes⟩ source
    cases finishes with
    | exchange committed action => exact ⟨shown, .exchanged committed action⟩
    | speculated committed action launched => cases source
  judges := by
    rintro rule state entered world metadata found ⟨barrier, launched⟩ enters
    exact (barrier.enters enters).shown launched
  rule := fun found holds effect => barrierSpec_rule found holds.1 holds.2 effect
  finish := fun holds _ => barrierSpec_finish holds.1 holds.2

/-- The walker's variables, where the next action or the result shows them. -/
def shownState : Walk (ResumeLoop ⊕ WalkExit) → Option WalkState
  | .done (.inl (state, _)) => some state
  | .done (.inr exit) => some exit.state
  | .act (.judge state ..) _ => some state
  | .act (.recvWake state _) _ => some state
  | .act (.awaitDone state ..) _ => some state
  | .act (.exchange state ..) _ => some state
  | .act (.poll _) _ => none
  | .act (.launch _) _ => none

/-- **Race barrier.** Each exchange was launched by a rule of its own, a non-speculative
one with no rule armed; a race rule that is armed no more had everything it was armed
for; the final exchange, the wait for a speculative one and every return belong to a
commit that respects the barrier. -/
theorem race_barrier (query : Query) (config : Config walkSignature ResumeLoop WalkExit World)
    (run : query.Reachable (always walkSignature ResumeLoop World) config) :
    LaunchLog query config.world.launches ∧
    (∀ state, shownState config.process = some state → Released state config.world) ∧
    (∀ state site future next, config.process = .act (.awaitDone state site future) next →
      ∃ launch rule, config.world.launches[future]? = some launch ∧ site = .rule launch.ruleIndex ∧
        Committed query state site (some rule)) ∧
    (∀ state site transport options next,
      config.process = .act (.exchange state site transport options) next →
        ∃ rule, Committed query state site rule) ∧
    ∀ exit, config.process = .done (.inr exit) → Returns query config.world exit := by
  rw [← judging_true] at run
  have secured := (barrierSpec_sound query).reachable id ⟨.start, .start⟩ run
  refine ⟨?_, ?_, ?_, ?_, ?_⟩
  · refine wp_launches _ (fun _ _ => LaunchLog.shrinks) ?_ ?_ secured
    · intro action during shows required
      cases action with
      | poll | launch => exact shows.elim
      | judge | recvWake => exact required.2
      | awaitDone | exchange => exact required.1.2
    · intro value world ends
      cases value with
      | inl loop => exact (ends.1.shown ends.2.1).2
      | inr exit => exact ends.1.2
  · intro state shown
    generalize config.process = process at secured shown
    cases process with
    | done value =>
        cases value with
        | inl loop =>
            cases shown
            exact (secured config.world .refl).1.released
        | inr exit =>
            cases shown
            exact (secured config.world .refl).1.1
    | act action next =>
        have required := (secured config.world .refl).1
        cases action with
        | poll | launch => cases shown
        | judge | recvWake =>
            cases shown
            exact (required trivial).1
        | awaitDone | exchange =>
            cases shown
            exact (required trivial).1.1
  · intro state site future next waiting
    rw [waiting] at secured
    exact ((secured config.world .refl).1 trivial).2
  · intro state site transport options next waiting
    rw [waiting] at secured
    exact ((secured config.world .refl).1 trivial).2
  · intro exit ended
    rw [ended] at secured
    exact (secured config.world .refl).2

/-- Two race rules: the response of `y` comes first and is the answer, with the rule
for `x` still armed. -/
theorem race_barrier_respond :
    let query := sampleQuery
      [evaluateRule "x", evaluateRule "y", respondRule "x" true, respondRule "y" true]
    ∃ config, query.Reachable (always walkSignature ResumeLoop World) config ∧
      ∃ exit, config.process = .done (.inr exit) ∧ exit.result.response = some Msg.zero ∧
        exit.state.armedRules ≠ [] ∧ LaunchLog query config.world.launches ∧
        Released exit.state config.world ∧ Returns query config.world exit := by
  intro query
  obtain ⟨config, run, answered⟩ := Config.exists_reaches tested_always
    [.act 0, .act 0, .act 0, .act 0, .act 0, .act 0, .act 0, .act 0, .act 0, .act 0,
      .env (.close 1), .again, .act 0, .act 0, .act 0, .act 0, .act 0]
    (fun config : Config walkSignature ResumeLoop WalkExit World => match config.process with
      | .done (.inr exit) => exit.result.response == some Msg.zero && !exit.state.armedRules.isEmpty
      | .done (.inl _) | .act .. => false)
    (show (query.start.replay query.system (resumeBody query) _ _).any _ = true by decide +kernel)
  split at answered
  case h_1 exit ended =>
    obtain ⟨response, armed⟩ := Bool.and_eq_true_iff.1 answered
    obtain ⟨log, released, _, _, returns⟩ := race_barrier query config run
    refine ⟨config, run, exit, ended, eq_of_beq response, armedRules_ne_nil armed, log, released _ ?_,
      returns exit ended⟩
    rw [ended]
    rfl
  all_goals cases answered

def raceRouteRule (tag server : String) : DNSRule :=
  .default ⟨⟨RuleItems.empty, none⟩, some (.dnsRoute server false .zero), true, tag, true⟩

/-- The response of `x` comes first, and the race rule that routes by it sends its
query while the race rule for `y` is still armed. -/
theorem raceRoute_exchanges_while_armed :
    let query := sampleQuery
      [evaluateRule "x", evaluateRule "y", raceRouteRule "x" "z", respondRule "y" true]
    ∃ config, query.Reachable (always walkSignature ResumeLoop World) config ∧
      ∃ state transport options next,
        config.process = .act (.exchange state (.armed 2) transport options) next ∧
          state.armedRules ≠ [] := by
  intro query
  obtain ⟨config, run, exchanging⟩ := Config.exists_reaches tested_always
    [.act 0, .act 0, .act 0, .act 0, .act 0, .act 0, .act 0, .act 0, .act 0, .act 0,
      .env (.close 0), .again, .act 0, .act 0, .act 0, .act 0]
    (fun config : Config walkSignature ResumeLoop WalkExit World => match config.process with
      | .act (.exchange state site _ _) _ => site == .armed 2 && !state.armedRules.isEmpty
      | .act (.poll _) _ | .act (.judge ..) _ | .act (.launch _) _ | .act (.recvWake ..) _
      | .act (.awaitDone ..) _ | .done _ => false)
    (show (query.start.replay query.system (resumeBody query) _ _).any _ = true by decide +kernel)
  split at exchanging
  case h_1 state site transport options next waiting =>
    obtain ⟨isArmed, armed⟩ := Bool.and_eq_true_iff.1 exchanging
    obtain rfl := eq_of_beq isArmed
    exact ⟨config, run, state, transport, options, next, waiting, armedRules_ne_nil armed⟩
  all_goals cases exchanging

end SideraCore.Dns.RuleWalk
