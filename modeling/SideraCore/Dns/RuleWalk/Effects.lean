import SideraCore.Dns.RuleWalk.Reads

/-!
Owns what one rule of the walk and one sweep can do, said once for all statements
about runs: an inductive relation for each of them, and the rule that every run of
the program text is an instance of it.

A relation speaks about the world at the moment of its last action and, where that
action is a launch, about the world it leads to.
-/

namespace SideraCore.Dns.RuleWalk

open Rule Concurrency

/-! ### What settling leaves alone -/

def WalkState.labels (state : WalkState) : List FutureLabel := state.futures.map Future.toFutureLabel

/-- The walker's variables that settling does not touch. -/
structure SameWalk (before after : WalkState) : Prop where
  ruleIndex : after.ruleIndex = before.ruleIndex
  effectiveOptions : after.effectiveOptions = before.effectiveOptions
  anonymousFuture : after.anonymousFuture = before.anonymousFuture
  namedFutures : after.namedFutures = before.namedFutures
  armedRules : after.armedRules = before.armedRules
  terminalFuture : after.terminalFuture = before.terminalFuture
  terminalIndex : after.terminalIndex = before.terminalIndex
  reachedRaces : after.reachedRaces = before.reachedRaces
  labels : after.labels = before.labels

theorem SameWalk.trans {first second third : WalkState} (early : SameWalk first second)
    (late : SameWalk second third) : SameWalk first third where
  ruleIndex := late.ruleIndex.trans early.ruleIndex
  effectiveOptions := late.effectiveOptions.trans early.effectiveOptions
  anonymousFuture := late.anonymousFuture.trans early.anonymousFuture
  namedFutures := late.namedFutures.trans early.namedFutures
  armedRules := late.armedRules.trans early.armedRules
  terminalFuture := late.terminalFuture.trans early.terminalFuture
  terminalIndex := late.terminalIndex.trans early.terminalIndex
  reachedRaces := late.reachedRaces.trans early.reachedRaces
  labels := late.labels.trans early.labels

theorem WalkState.sameWalk_settle (state : WalkState) (id : FutureId) (future : Future)
    (outcome : ExchangeOutcome) (found : state.futures[id]? = some future) :
    SameWalk state (state.settle id future outcome) := by
  have labels : (state.settle id future outcome).labels = state.labels := by
    obtain ⟨below, rfl⟩ := List.getElem?_eq_some_iff.1 found
    simp only [WalkState.labels, WalkState.settle_futures, List.map_set]
    rw [← List.getElem_map Future.toFutureLabel, List.set_getElem_self]
    simpa using below
  by_cases anonymous : future.tag = "" <;>
    simp only [WalkState.settle, anonymous, if_true, if_false] at labels ⊢ <;>
    exact ⟨rfl, rfl, rfl, rfl, rfl, rfl, rfl, rfl, labels⟩

variable {world before after : World} {state entered : WalkState}

theorem Settles.sameWalk {settled : WalkState} (settles : Settles world state settled) :
    SameWalk state settled := by
  induction settles with
  | refl state => constructor <;> rfl
  | step found _ _ _ ih =>
      exact (WalkState.sameWalk_settle _ _ _ _ found).trans ih

/-! ### The action of a matched rule -/

inductive ActionEffect (query : Query) (rule : DNSRule) (state : WalkState) (world : World) :
    RuleOutcome → World → Prop
  | noAction (action : rule.action = none) : ActionEffect query rule state world (.next state) world
  | options {options : RuleActionDNSRouteOptions}
      (action : rule.action = some (.dnsRouteOptions options)) :
      ActionEffect query rule state world
        (.next { state with
          effectiveOptions := applyDNSRouteOptions state.effectiveOptions options }) world
  | evaluateMissing {server tag : String} {speculative : Bool} {options : RuleActionDNSRouteOptions}
      (action : rule.action = some (.evaluate server tag speculative options))
      (missing : query.transports.transport server = none) :
      ActionEffect query rule state world
        (.next (if tag = "" then { state with anonymousFuture := none } else state)) world
  | evaluate {server tag : String} {speculative : Bool} {options : RuleActionDNSRouteOptions}
      {transport : DNSTransport}
      (action : rule.action = some (.evaluate server tag speculative options))
      (found : query.transports.transport server = some transport)
      (free : speculative = true ∨ state.armedRules = []) :
      ActionEffect query rule state world
        (.next ((state.append tag false transport).bindFuture tag world.exchanges.length))
        (world.launch
          (query.launch state transport (applyDNSRouteOptions state.effectiveOptions options)))
  | held (armed : state.armedRules ≠ []) :
      ActionEffect query rule state world (.suspend state .drain) world
  | respondTagged (action : rule.action = some .respond) (idle : state.armedRules = [])
      (tagged : rule.matchResponseTag ≠ "") :
      ActionEffect query rule state world
        (.exit ⟨.rule state.ruleIndex, respondResult (state.namedResponses rule.matchResponseTag)
          (state.namedTransports rule.matchResponseTag), none, state⟩) world
  | respondAwait {future : FutureId} (action : rule.action = some .respond)
      (idle : state.armedRules = []) (unbound : hasBindings rule = false)
      (source : state.anonymousFuture = some future)
      (unresolved : world.poll future = none) :
      ActionEffect query rule state world (.suspend state (.await future)) world
  | respond (action : rule.action = some .respond) (idle : state.armedRules = [])
      (untagged : rule.matchResponseTag = "")
      (ready : hasBindings rule = false →
        ∀ future, state.anonymousFuture = some future → Completed world future) :
      ActionEffect query rule state world
        (.exit ⟨.rule state.ruleIndex, respondResult (world.view state.anonymousFuture)
          (state.anonymousFuture.bind (futureTransport state)), none, state⟩) world
  | routeUnresolved {server : String} {speculative : Bool} {options : RuleActionDNSRouteOptions}
      (action : rule.action = some (.dnsRoute server speculative options))
      (unresolved : ∀ transport queryOptions,
        resolveDNSRoute query.transports server options query.allowFakeIP state.effectiveOptions ≠
          .resolved transport queryOptions) :
      ActionEffect query rule state world (.next state) world
  | speculate {server : String} {options : RuleActionDNSRouteOptions} {transport : DNSTransport}
      {queryOptions : DNSQueryOptions}
      (action : rule.action = some (.dnsRoute server true options))
      (armed : state.armedRules ≠ []) (first : state.terminalFuture = none) :
      ActionEffect query rule state world
        (.suspend ((state.append "" true transport).bindTerminal world.exchanges.length) .drain)
        (world.launch (query.launch state transport queryOptions))
  | routeSpeculated {server : String} {speculative : Bool} {options : RuleActionDNSRouteOptions}
      {transport : DNSTransport} {future : FutureId}
      (action : rule.action = some (.dnsRoute server speculative options))
      (idle : state.armedRules = []) (launched : state.terminalFuture = some future)
      (same : state.terminalIndex = state.ruleIndex) :
      ActionEffect query rule state world
        (.suspend state (.pending ⟨.rule state.ruleIndex,
          (futureTransport state future).getD transport, .zero, some future⟩)) world
  | route {server : String} {speculative : Bool} {options : RuleActionDNSRouteOptions}
      {transport : DNSTransport} {queryOptions : DNSQueryOptions}
      (action : rule.action = some (.dnsRoute server speculative options))
      (resolved : resolveDNSRoute query.transports server options query.allowFakeIP
        state.effectiveOptions = .resolved transport queryOptions)
      (idle : state.armedRules = []) :
      ActionEffect query rule state world
        (.suspend state (.pending ⟨.rule state.ruleIndex, transport, queryOptions, none⟩)) world
  | reject {reject : RuleActionReject} {result : ExchangeWithRulesResult}
      (action : rule.action = some (.reject reject)) (idle : state.armedRules = [])
      (rejects : rejectResult query reject = some result) :
      ActionEffect query rule state world (.exit ⟨.rule state.ruleIndex, result, none, state⟩) world
  | rejectReply {reject : RuleActionReject} (action : rule.action = some (.reject reject))
      (idle : state.armedRules = []) (unsupported : rejectResult query reject = none) :
      ActionEffect query rule state world (.next state) world
  | predefined {predefined : RuleActionPredefined}
      (action : rule.action = some (.predefined predefined)) (idle : state.armedRules = []) :
      ActionEffect query rule state world
        (.exit ⟨.rule state.ruleIndex, predefinedResult query predefined, none, state⟩) world

section Rules

variable {query : Query} {clean : MatchCondition} {required : Requirement walkSignature World} {α : Type}
  {post : α → World → Prop} {world : World} {state : WalkState} {rule : DNSRule}
  {next : RuleOutcome → Walk α}

theorem armedRules_ne_nil (armed : (!state.armedRules.isEmpty) = true) : state.armedRules ≠ [] := by
  rintro empty
  simp [empty] at armed

theorem armedRules_eq_nil (idle : ¬ (!state.armedRules.isEmpty) = true) : state.armedRules = [] := by
  simpa using idle

theorem wp_performRespond (action : rule.action = some .respond) (idle : state.armedRules = [])
    (continues : ∀ during outcome, query.system.Interferes world during →
      ActionEffect query rule state during outcome during →
        query.wp clean required (next outcome) post during) :
    query.wp clean required (performRespond rule state >>= next) post world := by
  unfold performRespond
  by_cases tagged : rule.matchResponseTag = ""
  · rw [if_neg (not_not.2 tagged), Process.bind_assoc]
    apply wp_firstUnresolved
    intro during found moves unresolved
    cases found with
    | some future =>
        obtain ⟨member, missing⟩ := unresolved
        cases bound : hasBindings rule with
        | true => simp [bound] at member
        | false =>
            have source : state.anonymousFuture = some future := by simpa [bound] using member
            exact continues during _ moves (.respondAwait action idle bound source missing)
    | none =>
        simp only [Process.bind_assoc]
        apply wp_viewOptional
        intro later further
        refine continues later _ (moves.trans further) (.respond action idle tagged ?_)
        intro unbound future source
        have completed : Completed during future := unresolved future (by simp [unbound, source])
        exact (follows_of_interferes further).completed completed
  · rw [if_pos tagged]
    exact continues world _ .refl (.respondTagged action idle tagged)

theorem wp_performRoute {server : String} {speculative : Bool} {options : RuleActionDNSRouteOptions}
    {transport : DNSTransport} {queryOptions : DNSQueryOptions}
    (action : rule.action = some (.dnsRoute server speculative options))
    (resolved : resolveDNSRoute query.transports server options query.allowFakeIP
      state.effectiveOptions = .resolved transport queryOptions)
    (continues : ∀ during outcome after, query.system.Interferes world during →
      ActionEffect query rule state during outcome after →
        query.wp clean required (next outcome) post after) :
    query.wp clean required (performRoute query speculative transport queryOptions state >>= next)
      post world := by
  unfold performRoute
  by_cases armed : (!state.armedRules.isEmpty) = true
  · rw [if_pos armed]
    by_cases launches : (speculative && state.terminalFuture.isNone) = true
    · rw [if_pos launches]
      simp only [launchDNSEvaluate, Process.bind_assoc]
      apply wp_launch
      intro during moves
      obtain ⟨rfl, first⟩ := Bool.and_eq_true_iff.1 launches
      exact continues during _ _ moves
        (.speculate action (armedRules_ne_nil armed) (Option.isNone_iff_eq_none.1 first))
    · rw [if_neg launches]
      exact continues world _ _ .refl (.held (armedRules_ne_nil armed))
  · rw [if_neg armed]
    have idle := armedRules_eq_nil armed
    cases launched : state.terminalFuture with
    | none => exact continues world _ _ .refl (.route action resolved idle)
    | some future =>
        by_cases same : state.terminalIndex = state.ruleIndex
        · simp only [same, if_true]
          exact continues world _ _ .refl (.routeSpeculated action idle launched same)
        · simp only [same, if_false]
          exact continues world _ _ .refl (.route action resolved idle)

theorem wp_performAction (continues : ∀ during outcome after, query.system.Interferes world during →
      ActionEffect query rule state during outcome after →
        query.wp clean required (next outcome) post after) :
    query.wp clean required (performAction query rule state >>= next) post world := by
  -- an action that reads and launches nothing takes effect at once
  have atOnce {outcome : RuleOutcome} (effect : ActionEffect query rule state world outcome world) :
      query.wp clean required (next outcome) post world := continues world outcome world .refl effect
  unfold performAction
  cases action : rule.action with
  | none => exact atOnce (.noAction action)
  | some ruleAction =>
      cases ruleAction with
      | dnsRouteOptions options => exact atOnce (.options action)
      | evaluate server tag speculative options =>
          simp only
          cases found : query.transports.transport server with
          | none => exact atOnce (.evaluateMissing action found)
          | some transport =>
              by_cases held : (!speculative && !state.armedRules.isEmpty) = true
              · simp only [held, if_true]
                exact atOnce (.held (armedRules_ne_nil (Bool.and_eq_true_iff.1 held).2))
              · simp only [held, Bool.false_eq_true, if_false, launchDNSEvaluate, Process.bind_assoc]
                apply wp_launch
                intro during moves
                refine continues during _ _ moves (.evaluate action found ?_)
                cases speculative with
                | true => exact .inl rfl
                | false => exact .inr (armedRules_eq_nil (by simpa using held))
      | respond =>
          by_cases armed : (!state.armedRules.isEmpty) = true
          · simp only [armed, if_true]
            exact atOnce (.held (armedRules_ne_nil armed))
          · simp only [armed, Bool.false_eq_true, if_false]
            exact wp_performRespond action (armedRules_eq_nil armed)
              fun during outcome moves effect => continues during outcome during moves effect
      | dnsRoute server speculative options =>
          simp only
          cases resolved : resolveDNSRoute query.transports server options query.allowFakeIP
              state.effectiveOptions with
          | missing | skipped => exact atOnce (.routeUnresolved action (by simp [resolved]))
          | resolved transport queryOptions => exact wp_performRoute action resolved continues
      | reject reject =>
          by_cases armed : (!state.armedRules.isEmpty) = true
          · simp only [armed, if_true]
            exact atOnce (.held (armedRules_ne_nil armed))
          · simp only [armed, Bool.false_eq_true, if_false]
            cases rejects : rejectResult query reject with
            | none => exact atOnce (.rejectReply action (armedRules_eq_nil armed) rejects)
            | some result => exact atOnce (.reject action (armedRules_eq_nil armed) rejects)
      | predefined predefined =>
          by_cases armed : (!state.armedRules.isEmpty) = true
          · simp only [armed, if_true]
            exact atOnce (.held (armedRules_ne_nil armed))
          · simp only [armed, Bool.false_eq_true, if_false]
            exact atOnce (.predefined action (armedRules_eq_nil armed))

end Rules

/-! ### One rule of the walk -/

/-- The state in which a rule is judged in the walk, when what it binds is there. -/
inductive Entered (world : World) (rule : DNSRule) (state : WalkState) : WalkState → Prop
  | unbound (unbound : hasBindings rule = false) : Entered world rule state state
  | ordered {settled : WalkState} (bound : hasBindings rule = true) (ordered : rule.race = false)
      (settles : Settles world state settled)
      (available : ∀ future ∈ boundFutures settled rule, Completed world future) :
      Entered world rule state settled
  | race {settled : WalkState} (bound : hasBindings rule = true) (race : rule.race = true)
      (settles : Settles world state settled)
      (available : ∀ future ∈ boundFutures settled rule, Completed world future) :
      Entered world rule state (settled.reach (armRule settled rule []))

/-- How a rule is judged in the walk. The anonymous response counts where it is bound. -/
structure Judged (query : Query) (clean : MatchCondition) (rule : DNSRule) (state : WalkState)
    (world : World) (anonymous : Option Msg) : Prop where
  clean : clean state (.rule state.ruleIndex) rule
    (judgedMetadata query anonymous state.namedResponses)
  read : rule.matchResponseAnonymous = true → anonymous = world.view state.anonymousFuture

inductive RuleEffect (query : Query) (clean : MatchCondition) (rule : DNSRule)
    (state : WalkState) (world : World) : RuleOutcome → World → Prop
  | arm {settled : WalkState} {pending : List FutureId} (bound : hasBindings rule = true)
      (race : rule.race = true) (settles : Settles world state settled)
      (among : PendingAmong world (boundFutures settled rule) pending) (waits : pending ≠ []) :
      RuleEffect query clean rule state world (.next (settled.arm (armRule settled rule pending))) world
  | await {settled : WalkState} {future : FutureId} (bound : hasBindings rule = true)
      (ordered : rule.race = false) (settles : Settles world state settled)
      (member : future ∈ boundFutures settled rule) (unresolved : world.poll future = none) :
      RuleEffect query clean rule state world (.suspend settled (.await future)) world
  | pass {entered : WalkState} {anonymous : Option Msg} (enters : Entered world rule state entered)
      (judged : Judged query clean rule entered world anonymous)
      (unmatched : rule.isMatch (judgedMetadata query anonymous entered.namedResponses) = false) :
      RuleEffect query clean rule state world (.next entered) world
  | act {entered : WalkState} {anonymous : Option Msg} {outcome : RuleOutcome} {after : World}
      (enters : Entered world rule state entered)
      (judged : Judged query clean rule entered world anonymous)
      (matched : rule.isMatch (judgedMetadata query anonymous entered.namedResponses) = true)
      (effect : ActionEffect query rule entered world outcome after) :
      RuleEffect query clean rule state world outcome after

theorem Entered.follows (follows : Follows before after) {rule : DNSRule}
    (enters : Entered before rule state entered) :
    Entered after rule state entered := by
  cases enters with
  | unbound unbound => exact .unbound unbound
  | ordered bound ordered settles available =>
      exact .ordered bound ordered (settles.follows follows) fun future member =>
        follows.completed (available future member)
  | race bound race settles available =>
      exact .race bound race (settles.follows follows) fun future member =>
        follows.completed (available future member)

theorem Entered.anonymous_completed {rule : DNSRule} (enters : Entered world rule state entered)
    (binds : rule.matchResponseAnonymous = true) {future : FutureId}
    (source : entered.anonymousFuture = some future) : Completed world future := by
  cases enters with
  | unbound unbound => simp [hasBindings, binds] at unbound
  | ordered _ _ _ available => exact available future (by simp [boundFutures, binds, source])
  | race _ _ _ available =>
      simp only [WalkState.reach] at source
      exact available future (by simp [boundFutures, binds, source])

section Rules

variable {query : Query} {clean : MatchCondition} {required : Requirement walkSignature World} {α : Type}
  {post : α → World → Prop} {world : World} {rule : DNSRule} {state : WalkState}
  {next : RuleOutcome → Walk α}
  (continues : ∀ during outcome after, query.system.Interferes world during → RuleEffect query clean rule state during outcome after → query.wp clean required (next outcome) post after)

include continues

theorem wp_judgeRule {entered : WalkState} (enters : Entered world rule state entered)
    (judges : ∀ during metadata, query.system.Interferes world during →
      required (.judge entered (.rule entered.ruleIndex) rule metadata) during) :
    query.wp clean required (judgeRule query rule entered >>= next) post world := by
  unfold judgeRule
  rw [Process.bind_assoc]
  apply wp_viewOptional
  intro viewed toViewed
  rw [Process.bind_assoc]
  apply wp_judge fun during metadata further => judges during metadata (toViewed.trans further)
  intro during toJudged cleanly
  -- the anonymous response a rule binds is the same at every later moment
  have judgedAt {later : World} (further : query.system.Interferes during later) :
      Judged query clean rule entered later (viewed.view entered.anonymousFuture) := by
    refine ⟨cleanly, fun binds => ?_⟩
    refine ((follows_of_interferes (toJudged.trans further)).view fun future source => ?_).symm
    exact (follows_of_interferes toViewed).completed (enters.anonymous_completed binds source)
  have entersAt {later : World} (further : query.system.Interferes during later) :
      Entered later rule state entered :=
    enters.follows (follows_of_interferes ((toViewed.trans toJudged).trans further))
  cases verdict : rule.isMatch (judgedMetadata query (viewed.view entered.anonymousFuture)
      entered.namedResponses) with
  | true =>
      apply wp_performAction
      intro later outcome after further effect
      exact continues later outcome after ((toViewed.trans toJudged).trans further)
        (.act (entersAt further) (judgedAt further) verdict effect)
  | false =>
      exact continues during _ _ (toViewed.trans toJudged)
        (.pass (entersAt .refl) (judgedAt .refl) verdict)

theorem wp_walkRule (judges : ∀ during entered metadata, query.system.Interferes world during →
      Entered during rule state entered →
        required (.judge entered (.rule entered.ruleIndex) rule metadata) during) :
    query.wp clean required (walkRule query rule state >>= next) post world := by
  -- once it is judgeable, a rule is judged and its action taken
  have entering {current : World} (moves : query.system.Interferes world current) {entered : WalkState}
      (enters : Entered current rule state entered) :
      query.wp clean required (judgeRule query rule entered >>= next) post current := by
    refine wp_judgeRule ?_ enters ?_
    · exact fun during outcome after further => continues during outcome after (moves.trans further)
    · exact fun during metadata further => judges during entered metadata (moves.trans further)
        (enters.follows (follows_of_interferes further))
  unfold walkRule
  cases bound : hasBindings rule with
  | false => exact entering .refl (.unbound bound)
  | true =>
      rw [if_pos rfl, Process.bind_assoc]
      apply wp_settleDNSFutures
      intro settledAt settled toSettled settles
      cases race : rule.race with
      | false =>
          rw [if_neg Bool.false_ne_true, Process.bind_assoc]
          apply wp_firstUnresolved
          intro during found moves unresolved
          have settlesNow := settles.follows (follows_of_interferes moves)
          cases found with
          | some future =>
              exact continues during _ _ (toSettled.trans moves)
                (.await bound race settlesNow unresolved.1 unresolved.2)
          | none => exact entering (toSettled.trans moves) (.ordered bound race settlesNow unresolved)
      | true =>
          rw [if_pos rfl, Process.bind_assoc]
          apply wp_unresolvedAmong
          intro during pending moves among
          have settlesNow := settles.follows (follows_of_interferes moves)
          cases pending with
          | nil =>
              have available : ∀ future ∈ boundFutures settled rule, Completed during future :=
                fun future member => (among.completed future member).resolve_left List.not_mem_nil
              exact entering (toSettled.trans moves) (.race bound race settlesNow available)
          | cons future rest =>
              exact continues during _ _ (toSettled.trans moves)
                (.arm bound race settlesNow among (List.cons_ne_nil _ _))

end Rules

def executable (query : Query) (options : DNSQueryOptions) : Option RuleAction → Bool
  | some .respond => true
  | some (.predefined _) => true
  | some (.reject action) => (rejectResult query action).isSome
  | some (.dnsRoute server _ routeOptions) =>
      match resolveDNSRoute query.transports server routeOptions query.allowFakeIP options with
      | .resolved .. => true
      | _ => false
  | _ => false

inductive ArmedEffect (query : Query) (armed : ArmedRule) (state : WalkState) (world : World) :
    SweepOutcome → Prop
  | respondTagged (action : armed.rule.action = some .respond)
      (tagged : armed.rule.matchResponseTag ≠ "") :
      ArmedEffect query armed state world
        (.exit ⟨.armed armed.ruleIndex, respondResult (state.namedResponses armed.rule.matchResponseTag)
          (state.namedTransports armed.rule.matchResponseTag), none, state⟩)
  | respond (action : armed.rule.action = some .respond) (untagged : armed.rule.matchResponseTag = "") :
      ArmedEffect query armed state world
        (.exit ⟨.armed armed.ruleIndex,
          respondResult (world.view (armed.anonymousFuture.or state.anonymousFuture))
            ((armed.anonymousFuture.or state.anonymousFuture).bind (futureTransport state)), none, state⟩)
  | route {server : String} {speculative : Bool} {options : RuleActionDNSRouteOptions}
      {transport : DNSTransport} {queryOptions : DNSQueryOptions}
      (action : armed.rule.action = some (.dnsRoute server speculative options))
      (resolved : resolveDNSRoute query.transports server options query.allowFakeIP armed.options =
        .resolved transport queryOptions) :
      ArmedEffect query armed state world
        (.pending ⟨.armed armed.ruleIndex, transport, queryOptions, none⟩)
  | reject {reject : RuleActionReject} {result : ExchangeWithRulesResult}
      (action : armed.rule.action = some (.reject reject))
      (rejects : rejectResult query reject = some result) :
      ArmedEffect query armed state world (.exit ⟨.armed armed.ruleIndex, result, none, state⟩)
  | predefined {predefined : RuleActionPredefined}
      (action : armed.rule.action = some (.predefined predefined)) :
      ArmedEffect query armed state world
        (.exit ⟨.armed armed.ruleIndex, predefinedResult query predefined, none, state⟩)

/-- How an armed rule is judged. A bound anonymous response counts if it was captured or
there when the sweep began. -/
structure ArmedJudged (query : Query) (clean : MatchCondition) (start world : World)
    (armed : ArmedRule) (state : WalkState) (anonymous : Option Msg) : Prop where
  ready : ∀ future ∈ armed.futures, Completed world future
  clean : clean state (.armed armed.ruleIndex) armed.rule
    (judgedMetadata query anonymous state.namedResponses)
  read : armed.bindsAnonymous = true →
    (∀ future, armed.anonymousFuture = some future →
      future ∈ armed.futures ∨ Completed start future) →
      anonymous = world.view armed.anonymousFuture

/-- What a sweep does to the armed rules it has still to look at. -/
inductive SweepEffect (query : Query) (clean : MatchCondition)
    (start world : World) :
    List ArmedRule → List ArmedRule → WalkState → WalkState → SweepOutcome → Prop
  | done {kept : List ArmedRule} {state : WalkState} :
      SweepEffect query clean start world kept [] state state .next
  | keep {kept rest : List ArmedRule} {armed : ArmedRule} {state swept : WalkState}
      {outcome : SweepOutcome} {future : FutureId} (member : future ∈ armed.futures)
      (ahead : Unseen world future)
      (others : SweepEffect query clean start world (kept ++ [armed]) rest state swept outcome) :
      SweepEffect query clean start world kept (armed :: rest) state swept outcome
  | drop {kept rest : List ArmedRule} {armed : ArmedRule} {state swept : WalkState}
      {outcome : SweepOutcome} {anonymous : Option Msg}
      (judged : ArmedJudged query clean start world armed (state.disarm (kept ++ rest)) anonymous)
      (passes : armed.rule.isMatch (judgedMetadata query anonymous state.namedResponses) = true →
        executable query armed.options armed.rule.action = false)
      (others : SweepEffect query clean start world kept rest (state.disarm (kept ++ rest)) swept outcome) :
      SweepEffect query clean start world kept (armed :: rest) state swept outcome
  | wins {kept rest : List ArmedRule} {armed : ArmedRule} {state : WalkState}
      {outcome : SweepOutcome} {anonymous : Option Msg}
      (judged : ArmedJudged query clean start world armed (state.disarm (kept ++ rest)) anonymous)
      (matched : armed.rule.isMatch (judgedMetadata query anonymous state.namedResponses) = true)
      (effect : ArmedEffect query armed (state.disarm (kept ++ rest)) world outcome) :
      SweepEffect query clean start world kept (armed :: rest) state (state.disarm (kept ++ rest)) outcome

theorem ArmedJudged.follows {query : Query} {clean : MatchCondition} {start : World}
    (started : Follows start before) (follows : Follows before after) {armed : ArmedRule}
    {anonymous : Option Msg} (judged : ArmedJudged query clean start before armed state anonymous) :
    ArmedJudged query clean start after armed state anonymous where
  ready := fun future member => follows.completed (judged.ready future member)
  clean := judged.clean
  read := by
    intro binds bound
    rw [judged.read binds bound]
    refine (follows.view fun future source => ?_).symm
    exact (bound future source).elim (judged.ready future) started.completed

section Rules

variable {query : Query} {clean : MatchCondition} {required : Requirement walkSignature World} {α : Type}
  {post : α → World → Prop} {start world : World} {armed : ArmedRule} {state : WalkState}
  {next : SweepOutcome → Walk α}

theorem wp_performArmedAction (passes : executable query armed.options armed.rule.action = false →
      query.wp clean required (next .next) post world)
    (wins : ∀ during outcome, query.system.Interferes world during →
      ArmedEffect query armed state during outcome →
        query.wp clean required (next outcome) post during) :
    query.wp clean required (performArmedAction query armed state >>= next) post world := by
  unfold performArmedAction
  cases action : armed.rule.action with
  | none => exact passes (by rw [action]; rfl)
  | some ruleAction =>
      cases ruleAction with
      | dnsRouteOptions options | evaluate server tag speculative options =>
          exact passes (by rw [action]; rfl)
      | respond =>
          by_cases tagged : armed.rule.matchResponseTag = ""
          · simp only [tagged, ne_eq, not_true_eq_false, if_false, Process.bind_assoc]
            apply wp_viewOptional
            intro during moves
            exact wins during _ moves (.respond action tagged)
          · simp only [tagged, ne_eq, not_false_eq_true, if_true]
            exact wins world _ .refl (.respondTagged action tagged)
      | dnsRoute server speculative options =>
          simp only
          cases resolved : resolveDNSRoute query.transports server options query.allowFakeIP
              armed.options with
          | missing | skipped => exact passes (by simp [action, executable, resolved])
          | resolved transport queryOptions => exact wins world _ .refl (.route action resolved)
      | reject reject =>
          simp only
          cases rejects : rejectResult query reject with
          | none => exact passes (by simp [action, executable, rejects])
          | some result => exact wins world _ .refl (.reject action rejects)
      | predefined predefined => exact wins world _ .refl (.predefined action)

theorem ArmedEffect.ne_next {outcome : SweepOutcome}
    (effect : ArmedEffect query armed state world outcome) : outcome ≠ .next := by
  cases effect <;> exact SweepOutcome.noConfusion

theorem wp_judgeArmed (started : query.system.Interferes start world)
    (ready : ∀ future ∈ armed.futures, Completed world future)
    (judges : ∀ during metadata, query.system.Interferes world during →
      required (.judge state (.armed armed.ruleIndex) armed.rule metadata) during)
    (passes : ∀ during anonymous, query.system.Interferes world during →
      ArmedJudged query clean start during armed state anonymous →
      (armed.rule.isMatch (judgedMetadata query anonymous state.namedResponses) = true →
        executable query armed.options armed.rule.action = false) →
        query.wp clean required (next .next) post during)
    (wins : ∀ during anonymous outcome, query.system.Interferes world during →
      ArmedJudged query clean start during armed state anonymous →
      armed.rule.isMatch (judgedMetadata query anonymous state.namedResponses) = true →
      ArmedEffect query armed state during outcome →
        query.wp clean required (next outcome) post during) :
    query.wp clean required (judgeArmed query armed state >>= next) post world := by
  unfold judgeArmed
  rw [Process.bind_assoc]
  apply wp_viewOptional
  intro viewed toViewed
  rw [Process.bind_assoc]
  apply wp_judge fun during metadata further => judges during metadata (toViewed.trans further)
  intro during toJudged cleanly
  have toDuring := toViewed.trans toJudged
  have judged : ArmedJudged query clean start during armed state
      (viewed.view (if armed.bindsAnonymous then armed.anonymousFuture else state.anonymousFuture)) := by
    refine ArmedJudged.follows (follows_of_interferes (started.trans toViewed))
      (follows_of_interferes toJudged) ⟨?_, cleanly, ?_⟩
    · exact fun future member => (follows_of_interferes toViewed).completed (ready future member)
    · intro binds _
      rw [if_pos binds]
  cases verdict : armed.rule.isMatch (judgedMetadata query (viewed.view
      (if armed.bindsAnonymous then armed.anonymousFuture else state.anonymousFuture))
      state.namedResponses) with
  | false => exact passes during _ toDuring judged (by simp [verdict])
  | true =>
      apply wp_performArmedAction
      · exact fun idle => passes during _ toDuring judged fun _ => idle
      · intro later outcome further effect
        exact wins later _ outcome (toDuring.trans further)
          (judged.follows (follows_of_interferes (started.trans toDuring))
            (follows_of_interferes further)) verdict effect

theorem wp_sweepFrom {kept rest : List ArmedRule} {next : WalkState × SweepOutcome → Walk α}
    (started : query.system.Interferes start world) (sweeping : WalkState → World → Prop)
    (stable : ∀ state, query.system.Stable (sweeping state))
    (disarms : ∀ {state world armed kept rest}, sweeping state world →
      state.armedRules = kept ++ armed :: rest → (∀ future ∈ armed.futures, Completed world future) →
        sweeping (state.disarm (kept ++ rest)) world)
    (judges : ∀ {state world site rule metadata}, sweeping state world →
      required (.judge state site rule metadata) world) (all : state.armedRules = kept ++ rest)
    (holds : sweeping state world)
    (continues : ∀ during swept outcome, query.system.Interferes world during →
      SweepEffect query clean start during kept rest state swept outcome →
        query.wp clean required (next (swept, outcome)) post during) :
    query.wp clean required (sweepFrom query kept rest state >>= next) post world := by
  induction rest generalizing kept state world with
  | nil => exact continues world state .next .refl .done
  | cons armed rest ih =>
      unfold sweepFrom
      rw [Process.bind_assoc]
      apply wp_firstUnresolved
      intro during found moves unresolved
      cases found with
      | some future =>
          apply ih (started.trans moves) (by simp [all])
            ((stable state).interferes moves holds)
          intro later swept outcome further effect
          have ahead : Unseen later future :=
            (follows_of_interferes further).unseen (unseen_of_poll_eq_none unresolved.2)
          exact continues later swept outcome (moves.trans further) (.keep unresolved.1 ahead effect)
      | none =>
          have disarmed : sweeping (state.disarm (kept ++ rest)) during :=
            disarms ((stable state).interferes moves holds) all unresolved
          have disarmedLater {later : World} (further : query.system.Interferes during later) :=
            (stable _).interferes further disarmed
          simp only [Process.bind_assoc]
          apply wp_judgeArmed (started.trans moves) unresolved
          · exact fun later metadata further => judges (disarmedLater further)
          · intro judgedAt anonymous toJudged judged passes
            apply ih ((started.trans moves).trans toJudged) rfl (disarmedLater toJudged)
            intro later swept outcome further effect
            have judgedLater := judged.follows
              (follows_of_interferes ((started.trans moves).trans toJudged))
              (follows_of_interferes further)
            exact continues later swept outcome ((moves.trans toJudged).trans further)
              (.drop judgedLater passes effect)
          · intro judgedAt anonymous outcome toJudged judged matched effect
            have won := continues judgedAt _ outcome (moves.trans toJudged) (.wins judged matched effect)
            cases outcome with
            | next => exact absurd rfl effect.ne_next
            | pending exchange | exit exit => exact won

end Rules

end SideraCore.Dns.RuleWalk
