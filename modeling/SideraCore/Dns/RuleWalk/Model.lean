import SideraCore.Concurrency.Process
import SideraCore.Rule.DnsRule

/-!
Owns the rule walk of the DNS router outside legacy mode: `walkDNSRules`,
`settleDNSFutures`, `sweepArmedDNSRules` and the resume loop of
`exchangeWithRules`, as a process that runs against the completions of the
exchanges it launched.

The walker's own variables are passed along as a value. Shared is only what a
completion writes: the closed `done` channels with their results, and the `wake`
channel. Actions carry the walker's variables where statements about runs need them.
Logging and the cancellation of exchanges that are no longer read are left out.
-/

namespace SideraCore.Dns.RuleWalk

open Rule Concurrency

abbrev ExchangeOutcome := Except String Msg

abbrev FutureId := Nat

/-- A completion has not run its callback, has stored the result and closed `done`, or
has also tried to send on `wake`. -/
inductive Phase where
  | running
  | closed
  | signalled
deriving DecidableEq, Repr

structure FutureLabel where
  tag : String
  terminal : Bool
  transport : DNSTransport
deriving DecidableEq, Repr

/-- `dnsEvaluatedFuture` without what a completion writes. -/
structure Future extends FutureLabel where
  settled : Bool
deriving DecidableEq, Repr

structure ArmedRule where
  ruleIndex : Nat
  rule : DNSRule
  futures : List FutureId
  anonymousFuture : Option FutureId
  bindsAnonymous : Bool
  options : DNSQueryOptions

/-- A race rule and the futures of its tags when the walk got there. The program keeps
no such record. -/
structure ReachedRace where
  armed : ArmedRule
  named : String → Option FutureId

/-- `dnsRuleWalkState` without the channel, and with a record of the race rules reached. -/
structure WalkState where
  ruleIndex : Nat
  effectiveOptions : DNSQueryOptions
  anonymousFuture : Option FutureId
  namedFutures : String → Option FutureId
  namedResponses : String → Option Msg
  namedTransports : String → Option DNSTransport
  futures : List Future
  armedRules : List ArmedRule
  terminalFuture : Option FutureId
  terminalIndex : Nat
  reachedRaces : List ReachedRace

def WalkState.start (options : DNSQueryOptions) : WalkState where
  ruleIndex := 0
  effectiveOptions := options
  anonymousFuture := none
  namedFutures := fun _ => none
  namedResponses := fun _ => none
  namedTransports := fun _ => none
  futures := []
  armedRules := []
  terminalFuture := none
  terminalIndex := 0
  reachedRaces := []

/-- A rule judged in the walk, the default route, a race rule judged while armed, or the
end of the context. -/
inductive CommitSite where
  | rule (index : Nat)
  | defaultRoute
  | armed (index : Nat)
  | cancelled
deriving DecidableEq, Repr

structure PendingExchange where
  site : CommitSite
  transport : DNSTransport
  options : DNSQueryOptions
  future : Option FutureId
deriving DecidableEq, Repr

inductive Suspension where
  | await (future : FutureId)
  | drain
  | pending (exchange : PendingExchange)
deriving DecidableEq, Repr

structure ExchangeWithRulesResult where
  response : Option Msg
  transport : Option DNSTransport
  rejectAction : Option RuleActionReject
  err : Option String
deriving DecidableEq, Repr

def ExchangeWithRulesResult.zero : ExchangeWithRulesResult := ⟨none, none, none, none⟩

/-- What `exchangeWithRules` returns, the final exchange it made, and where. -/
structure WalkExit where
  site : CommitSite
  result : ExchangeWithRulesResult
  finalExchange : Option (DNSTransport × DNSQueryOptions)
  state : WalkState

/-- A launched exchange: by which rule, with which rules armed, and what it asks. -/
structure Launch where
  ruleIndex : Nat
  armedRules : List ArmedRule
  transport : DNSTransport
  options : DNSQueryOptions
  outcome : ExchangeOutcome

structure Exchange extends Launch where
  phase : Phase

/-- What the walker and the completions share. -/
structure World where
  exchanges : List Exchange
  wake : Bool
  ctxDone : Bool

def World.start : World := ⟨[], false, false⟩

/-- The shared actions of the walker. `judge` marks the moment at which a rule is
matched, with its metadata. -/
inductive WalkAction where
  | poll (future : FutureId)
  | judge (state : WalkState) (site : CommitSite) (rule : DNSRule) (metadata : InboundContext)
  | launch (launch : Launch)
  | recvWake (state : WalkState) (suspension : Suspension)
  | awaitDone (state : WalkState) (site : CommitSite) (future : FutureId)
  | exchange (state : WalkState) (site : CommitSite) (transport : DNSTransport)
      (options : DNSQueryOptions)

/-- A poll finds the result behind a closed `done`, a wait says whether the context
ended it. -/
def walkSignature : Signature where
  Action := WalkAction
  Answer
    | .poll _ => Option ExchangeOutcome
    | .judge .. => Unit
    | .launch .. => FutureId
    | .recvWake .. => Bool
    | .awaitDone .. => Option ExchangeOutcome
    | .exchange .. => ExchangeOutcome

abbrev Walk := Process walkSignature

def perform (action : WalkAction) : Walk (walkSignature.Answer action) :=
  Process.perform (S := walkSignature) action

/-- The rules and what they are evaluated with. The outcome of an exchange is fixed by
the rule that launches it, that of the final one by what it asks. -/
structure Query where
  rules : List DNSRule
  transports : DNSTransportManager
  defaultDomainStrategy : DomainStrategy
  message : Msg
  metadata : InboundContext
  options : DNSQueryOptions
  allowFakeIP : Bool
  outcome : Nat → ExchangeOutcome
  finalOutcome : DNSTransport → DNSQueryOptions → ExchangeOutcome

/-- A completion closes `done`, then sends on `wake`, which has room for one signal and
drops others. -/
inductive WalkEvent where
  | close (future : FutureId)
  | signal (future : FutureId)
  | cancel
deriving DecidableEq, Repr

variable (query : Query) (world : World) (rule : DNSRule) (state : WalkState) (future : FutureId)
  (armed : ArmedRule) (tag : String)

def World.setPhase (phase : Phase) : World :=
  { world with
    exchanges := world.exchanges.modify future fun exchange => { exchange with phase := phase } }

def World.phase (world : World) (future : FutureId) : Option Phase :=
  (world.exchanges[future]?).map Exchange.phase

def World.poll : Option ExchangeOutcome :=
  match world.exchanges[future]? with
  | some exchange => if exchange.phase = .running then none else some exchange.outcome
  | none => none

def World.interfere : WalkEvent → World → Option World
  | .close future, world =>
      if world.phase future = some .running then some (world.setPhase future .closed) else none
  | .signal future, world =>
      if world.phase future = some .closed then
        some { world.setPhase future .signalled with wake := true }
      else none
  | .cancel, world => if world.ctxDone then none else some { world with ctxDone := true }

def World.launch (world : World) (launch : Launch) : World :=
  { world with exchanges := world.exchanges ++ [⟨launch, .running⟩] }

def Query.outcomes :
    (action : WalkAction) → List (walkSignature.Answer action × World)
  | .poll future => [(world.poll future, world)]
  | .judge .. => [((), world)]
  | .launch launch => [(world.exchanges.length, world.launch launch)]
  | .recvWake .. =>
      (if world.wake then [(true, { world with wake := false })] else []) ++
        if world.ctxDone then [(false, world)] else []
  | .awaitDone _ _ future =>
      ((world.poll future).toList.map fun outcome => (some outcome, world)) ++
        if world.ctxDone then [(none, world)] else []
  | .exchange _ _ transport options => [(query.finalOutcome transport options, world)]

def Query.system : System walkSignature World WalkEvent where
  outcomes := query.outcomes
  interfere := World.interfere

def responseOf : ExchangeOutcome → Option Msg
  | .ok response => some response
  | .error _ => none

def poll (future : FutureId) : Walk (Option ExchangeOutcome) := perform (.poll future)

def view : Walk (Option Msg) := do
  let result ← poll future
  return result.bind responseOf

def viewOptional : Option FutureId → Walk (Option Msg)
  | none => pure none
  | some future => view future

def firstUnresolved : List FutureId → Walk (Option FutureId)
  | [] => pure none
  | future :: rest => do
      match ← poll future with
      | none => pure (some future)
      | some _ => firstUnresolved rest

def unresolvedAmong : List FutureId → Walk (List FutureId)
  | [] => pure []
  | future :: rest => do
      match ← poll future with
      | none => do
          let others ← unresolvedAmong rest
          pure (future :: others)
      | some _ => unresolvedAmong rest

def WalkState.settle (id : FutureId) (future : Future) (outcome : ExchangeOutcome) :
    WalkState :=
  let settled := { state with futures := state.futures.set id { future with settled := true } }
  if future.tag = "" then
    settled
  else
    { settled with
      namedResponses := Function.update state.namedResponses future.tag (responseOf outcome)
      namedTransports := Function.update state.namedTransports future.tag (some future.transport) }

def settleFrom (id : FutureId) : List Future → WalkState → Walk WalkState
  | [], state => pure state
  | future :: rest, state =>
      if future.settled then
        settleFrom (id + 1) rest state
      else do
        match ← poll id with
        | none => settleFrom (id + 1) rest state
        | some outcome => settleFrom (id + 1) rest (state.settle id future outcome)

def settleDNSFutures : Walk WalkState := settleFrom 0 state.futures state

/-! ### One rule of the walk -/

/-- The futures of the tags a rule binds, in order, then the anonymous one. -/
def boundFutures (rule : DNSRule) : List FutureId :=
  rule.matchResponseTags.filterMap state.namedFutures ++
    if rule.matchResponseAnonymous then state.anonymousFuture.toList else []

def hasBindings : Bool :=
  !rule.matchResponseTags.isEmpty || rule.matchResponseAnonymous

/-- The walk continues with the next rule, or stops with a suspension or an exit. -/
inductive RuleOutcome where
  | next (state : WalkState)
  | suspend (state : WalkState) (suspension : Suspension)
  | exit (exit : WalkExit)

def armRule (rule : DNSRule) (pending : List FutureId) : ArmedRule where
  ruleIndex := state.ruleIndex
  rule := rule
  futures := pending
  anonymousFuture := if rule.matchResponseAnonymous then state.anonymousFuture else none
  bindsAnonymous := rule.matchResponseAnonymous
  options := state.effectiveOptions

def WalkState.reach : WalkState :=
  { state with reachedRaces := state.reachedRaces ++ [⟨armed, state.namedFutures⟩] }

def WalkState.arm : WalkState :=
  { state.reach armed with armedRules := state.armedRules ++ [armed] }

def judgedMetadata (anonymous : Option Msg) (named : String → Option Msg) :
    InboundContext :=
  { query.metadata.resetRuleCache with
    dnsResponse := anonymous
    namedDNSResponses := named
    destinationAddressMatchFromResponse := false }

def judge (query : Query) (state : WalkState) (site : CommitSite) (rule : DNSRule)
    (anonymous : Option Msg) : Walk Bool := do
  let metadata := judgedMetadata query anonymous state.namedResponses
  perform (.judge state site rule metadata)
  return rule.isMatch metadata

def dnsRespondMissingResponseMessage : String :=
  "respond action requires an evaluated response from a preceding evaluate action"

def errDrop : String := "packet dropped"

def contextError : String := "context canceled"

def respondResult (response : Option Msg) (transport : Option DNSTransport) : ExchangeWithRulesResult :=
  match response with
  | none => { ExchangeWithRulesResult.zero with err := some dnsRespondMissingResponseMessage }
  | some message => { ExchangeWithRulesResult.zero with response := some message, transport := transport }

/-- The result of `reject`, for the methods that have one. -/
def rejectResult (action : RuleActionReject) : Option ExchangeWithRulesResult :=
  match action.method with
  | .default =>
      some { ExchangeWithRulesResult.zero with
        response := some (dnsRefusedResponse query.message), rejectAction := some action }
  | .drop =>
      some { ExchangeWithRulesResult.zero with rejectAction := some action, err := some errDrop }
  | .reply => none

def predefinedResult (action : RuleActionPredefined) : ExchangeWithRulesResult :=
  { ExchangeWithRulesResult.zero with response := some (action.response query.message) }

def futureTransport : Option DNSTransport :=
  (state.futures[future]?).map fun found => found.transport

def WalkState.append (terminal : Bool) (transport : DNSTransport) :
    WalkState :=
  { state with futures := state.futures ++ [⟨⟨tag, terminal, transport⟩, false⟩] }

def Query.launch (transport : DNSTransport) (options : DNSQueryOptions) : Launch :=
  ⟨state.ruleIndex, state.armedRules, transport,
    finalizeExchangeOptions query.defaultDomainStrategy options, query.outcome state.ruleIndex⟩

def launchDNSEvaluate (terminal : Bool) (transport : DNSTransport) (options : DNSQueryOptions) :
    Walk (WalkState × FutureId) := do
  let future ← perform (.launch (query.launch state transport options))
  return (state.append tag terminal transport, future)

def WalkState.bindFuture (future : FutureId) : WalkState :=
  if tag = "" then
    { state with anonymousFuture := some future }
  else
    { state with namedFutures := Function.update state.namedFutures tag (some future) }

def WalkState.bindTerminal : WalkState :=
  { state with terminalFuture := some future, terminalIndex := state.ruleIndex }

def performRespond : Walk RuleOutcome :=
  if rule.matchResponseTag ≠ "" then
    pure (.exit ⟨.rule state.ruleIndex, respondResult (state.namedResponses rule.matchResponseTag)
      (state.namedTransports rule.matchResponseTag), none, state⟩)
  else do
    match ← firstUnresolved (if hasBindings rule then [] else state.anonymousFuture.toList) with
    | some future => pure (.suspend state (.await future))
    | none => do
        let response ← viewOptional state.anonymousFuture
        pure (.exit ⟨.rule state.ruleIndex,
          respondResult response (state.anonymousFuture.bind (futureTransport state)), none, state⟩)

def performRoute (speculative : Bool) (transport : DNSTransport) (queryOptions : DNSQueryOptions)
    (state : WalkState) : Walk RuleOutcome :=
  if !state.armedRules.isEmpty then
    if speculative && state.terminalFuture.isNone then do
      let (launched, future) ← launchDNSEvaluate query state "" true transport queryOptions
      pure (.suspend (launched.bindTerminal future) .drain)
    else
      pure (.suspend state .drain)
  else
    match state.terminalFuture with
    | some future =>
        if state.terminalIndex = state.ruleIndex then
          pure (.suspend state (.pending ⟨.rule state.ruleIndex,
            (futureTransport state future).getD transport, .zero, some future⟩))
        else
          pure (.suspend state (.pending ⟨.rule state.ruleIndex, transport, queryOptions, none⟩))
    | none => pure (.suspend state (.pending ⟨.rule state.ruleIndex, transport, queryOptions, none⟩))

def performAction : Walk RuleOutcome :=
  let exit (result : ExchangeWithRulesResult) : Walk RuleOutcome :=
    pure (.exit ⟨.rule state.ruleIndex, result, none, state⟩)
  match rule.action with
  | none => pure (.next state)
  | some (.dnsRouteOptions options) =>
      pure (.next { state with
        effectiveOptions := applyDNSRouteOptions state.effectiveOptions options })
  | some (.evaluate server tag speculative options) =>
      match query.transports.transport server with
      | none =>
          pure (.next (if tag = "" then { state with anonymousFuture := none } else state))
      | some transport =>
          if !speculative && !state.armedRules.isEmpty then
            pure (.suspend state .drain)
          else do
            let (launched, future) ← launchDNSEvaluate query state tag false transport
              (applyDNSRouteOptions state.effectiveOptions options)
            pure (.next (launched.bindFuture tag future))
  | some .respond =>
      if !state.armedRules.isEmpty then
        pure (.suspend state .drain)
      else
        performRespond rule state
  | some (.dnsRoute server speculative options) =>
      match resolveDNSRoute query.transports server options query.allowFakeIP state.effectiveOptions with
      | .missing => pure (.next state)
      | .skipped => pure (.next state)
      | .resolved transport queryOptions =>
          performRoute query speculative transport queryOptions state
  | some (.reject action) =>
      if !state.armedRules.isEmpty then
        pure (.suspend state .drain)
      else
        match rejectResult query action with
        | some result => exit result
        | none => pure (.next state)
  | some (.predefined action) =>
      if !state.armedRules.isEmpty then
        pure (.suspend state .drain)
      else
        exit (predefinedResult query action)

/-- Match the rule, once what it binds is available, and perform its action. -/
def judgeRule : Walk RuleOutcome := do
  let anonymous ← viewOptional state.anonymousFuture
  if ← judge query state (.rule state.ruleIndex) rule anonymous then
    performAction query rule state
  else
    pure (.next state)

def walkRule : Walk RuleOutcome :=
  if hasBindings rule then do
    let settled ← settleDNSFutures state
    if rule.race then
      let pending ← unresolvedAmong (boundFutures settled rule)
      if pending.isEmpty then
        judgeRule query rule (settled.reach (armRule settled rule []))
      else
        pure (.next (settled.arm (armRule settled rule pending)))
    else
      match ← firstUnresolved (boundFutures settled rule) with
      | some future => pure (.suspend settled (.await future))
      | none => judgeRule query rule settled
  else
    judgeRule query rule state

inductive WalkOutcome where
  | suspend (state : WalkState) (suspension : Suspension)
  | exit (exit : WalkExit)

def walkEnd : WalkOutcome :=
  if !state.armedRules.isEmpty then
    .suspend state .drain
  else
    .suspend state (.pending ⟨.defaultRoute, query.transports.default, state.effectiveOptions, none⟩)

def walkFrom (query : Query) : List DNSRule → WalkState → Walk WalkOutcome
  | [], state => pure (walkEnd query state)
  | rule :: rest, state => do
      match ← walkRule query rule state with
      | .next after => walkFrom query rest { after with ruleIndex := after.ruleIndex + 1 }
      | .suspend after suspension => pure (.suspend after suspension)
      | .exit exit => pure (.exit exit)

def walkDNSRules : Walk WalkOutcome :=
  walkFrom query (query.rules.drop state.ruleIndex) state

/-- How one armed rule leaves the sweep: it goes on, or a race rule wins. -/
inductive SweepOutcome where
  | next
  | pending (exchange : PendingExchange)
  | exit (exit : WalkExit)

def performArmedAction (state : WalkState) : Walk SweepOutcome :=
  let exit (result : ExchangeWithRulesResult) : Walk SweepOutcome :=
    pure (.exit ⟨.armed armed.ruleIndex, result, none, state⟩)
  match armed.rule.action with
  | some .respond =>
      if armed.rule.matchResponseTag ≠ "" then
        exit (respondResult (state.namedResponses armed.rule.matchResponseTag)
          (state.namedTransports armed.rule.matchResponseTag))
      else do
        -- a rule that binds no anonymous future falls back to the current one
        let source := armed.anonymousFuture.or state.anonymousFuture
        let response ← viewOptional source
        exit (respondResult response (source.bind (futureTransport state)))
  | some (.dnsRoute server _ options) =>
      match resolveDNSRoute query.transports server options query.allowFakeIP armed.options with
      | .missing => pure .next
      | .skipped => pure .next
      | .resolved transport queryOptions =>
          pure (.pending ⟨.armed armed.ruleIndex, transport, queryOptions, none⟩)
  | some (.reject action) =>
      match rejectResult query action with
      | some result => exit result
      | none => pure .next
  | some (.predefined action) => exit (predefinedResult query action)
  | _ => pure .next

def judgeArmed (state : WalkState) : Walk SweepOutcome := do
  let anonymous ← viewOptional (if armed.bindsAnonymous then armed.anonymousFuture
    else state.anonymousFuture)
  if ← judge query state (.armed armed.ruleIndex) armed.rule anonymous then
    performArmedAction query armed state
  else
    pure .next

def WalkState.disarm (remaining : List ArmedRule) : WalkState :=
  { state with armedRules := remaining }

/-- The loop of `sweepArmedDNSRules`: the rules that stay armed, and those still to be
looked at. -/
def sweepFrom (query : Query) (kept : List ArmedRule) :
    List ArmedRule → WalkState → Walk (WalkState × SweepOutcome)
  | [], state => pure (state, .next)
  | armed :: rest, state => do
      match ← firstUnresolved armed.futures with
      | some _ => sweepFrom query (kept ++ [armed]) rest state
      | none => do
          let removed := state.disarm (kept ++ rest)
          match ← judgeArmed query armed removed with
          | .next => sweepFrom query kept rest removed
          | .pending exchange => pure (removed, .pending exchange)
          | .exit exit => pure (removed, .exit exit)

def sweepArmedDNSRules : Walk (WalkState × SweepOutcome) :=
  sweepFrom query [] state.armedRules state

/-! ### The resume loop -/

def exchangeResult (transport : DNSTransport) (outcome : ExchangeOutcome) : ExchangeWithRulesResult :=
  match outcome with
  | .ok response => ⟨some response, some transport, none, none⟩
  | .error error => ⟨none, some transport, none, some error⟩

def cancelledExit : WalkExit :=
  ⟨.cancelled, { ExchangeWithRulesResult.zero with err := some contextError }, none, state⟩

def finishPendingExchange (pending : PendingExchange) :
    Walk WalkExit :=
  match pending.future with
  | some future => do
      match ← perform (.awaitDone state pending.site future) with
      | none => pure (cancelledExit state)
      | some outcome =>
          pure ⟨pending.site, exchangeResult pending.transport outcome, none, state⟩
  | none => do
      let options := finalizeExchangeOptions query.defaultDomainStrategy pending.options
      let outcome ← perform (.exchange state pending.site pending.transport options)
      pure ⟨pending.site, exchangeResult pending.transport outcome, some (pending.transport, options),
        state⟩

abbrev ResumeLoop := WalkState × Suspension

def walkOn : Walk (ResumeLoop ⊕ WalkExit) := do
  match ← walkDNSRules query state with
  | .suspend after suspension => pure (.inl (after, suspension))
  | .exit exit => pure (.inr exit)

def awaitWake (suspension : Suspension) : Walk (ResumeLoop ⊕ WalkExit) := do
  let received : Bool ← perform (.recvWake state suspension)
  if received then
    pure (.inl (state, suspension))
  else
    pure (.inr (cancelledExit state))

def testSuspension (suspension : Suspension) :
    Walk (ResumeLoop ⊕ WalkExit) :=
  match suspension with
  | .pending exchange => do
      let exit ← finishPendingExchange query state exchange
      pure (.inr exit)
  | .await future => do
      match ← poll future with
      | none => awaitWake state suspension
      | some _ => walkOn query state
  | .drain =>
      if !state.armedRules.isEmpty then awaitWake state suspension else walkOn query state

def resumeBody : ResumeLoop → Walk (ResumeLoop ⊕ WalkExit)
  | (state, suspension) => do
      let settled ← settleDNSFutures state
      match ← sweepArmedDNSRules query settled with
      | (_, .exit exit) => pure (.inr exit)
      | (swept, .pending exchange) => do
          let exit ← finishPendingExchange query swept exchange
          pure (.inr exit)
      | (swept, .next) => testSuspension query swept suspension

def Query.start (query : Query) : Config walkSignature ResumeLoop WalkExit World :=
  ⟨walkOn query (.start query.options), .start⟩

/-- A configuration that some run of the query meeting the condition comes to. -/
def Query.Reachable (condition : Condition walkSignature ResumeLoop World)
    (config : Config walkSignature ResumeLoop WalkExit World) : Prop :=
  Reaches query.system (resumeBody query) condition query.start config

end SideraCore.Dns.RuleWalk
