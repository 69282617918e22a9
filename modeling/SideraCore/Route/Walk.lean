import SideraCore.Concurrency.Machine
import SideraCore.Rule.Action
import SideraCore.Rule.Item

/-!
Owns the walk of a route over the rules of the router (`matchRule`): the
metadata that the walk carries along, the rule actions, and what one rule does
to the walk. Sniffing reads from the connection, so the walk is generic in the
connection's state and takes the sniff action of that kind of connection. A
rule is its verdict on the metadata, which may look at whether this is pre-matching.
-/

namespace SideraCore.Route

open Dns Rule Concurrency

/-- `qCryptoFragment`: a piece of a handshake message that a packet carried. -/
structure CryptoFragment where
  offset : Nat
  length : Nat
  payload : List UInt8
deriving DecidableEq, Repr

/-- What is asked of a sniffer's error: whether it is `ErrNeedMoreData`. -/
inductive SniffError where
  | needMoreData
  | other
deriving DecidableEq, Repr

/-- `adapter.InboundContext` as the route walk uses it. An empty `sniffContext`
stands for nil. -/
structure RouteContext extends InboundContext where
  sniffContext : List CryptoFragment
  snifferNames : List String
  sniffError : Option SniffError
  originDestination : Socksaddr
  udpTimeout : Nat
  fakeIP : Bool

namespace RouteContext

def zero : RouteContext :=
  { InboundContext.zero with
    sniffContext := []
    snifferNames := []
    sniffError := none
    originDestination := ⟨.invalid, 0, ""⟩
    udpTimeout := 0
    fakeIP := false }

def resetRuleCache (metadata : RouteContext) : RouteContext :=
  { metadata with toInboundContext := metadata.toInboundContext.resetRuleCache }

variable (metadata : RouteContext)

def toDomain (domain : String) : RouteContext :=
  { metadata with destination := ⟨.invalid, metadata.destination.port, domain⟩ }

structure Sniffed where
  protocol : String
  domain : String
  client : String
  sniffContext : List CryptoFragment
deriving DecidableEq, Repr

def unsniffed : Sniffed :=
  ⟨metadata.protocol, metadata.domain, metadata.client, metadata.sniffContext⟩

def write (fields : Sniffed) : RouteContext :=
  { metadata with
    protocol := fields.protocol
    domain := fields.domain
    client := fields.client
    sniffContext := fields.sniffContext }

def sniffed (names : List String) (error : Option SniffError) : RouteContext :=
  { metadata with snifferNames := names, sniffError := error }

end RouteContext

/-- A sniffer reads bytes, writes its fields of the metadata and reports an error. -/
abbrev Sniffer := RouteContext → List UInt8 → RouteContext.Sniffed × Option SniffError

/-- `E.Errors`: nil without errors; the joined error is `ErrNeedMoreData` if one of
them is. -/
def joinErrors (errors : List SniffError) : Option SniffError :=
  if errors.isEmpty then none
  else if errors.contains .needMoreData then some .needMoreData
  else some .other

def peekLoop (errors : List SniffError) :
    List Sniffer → RouteContext → List UInt8 → RouteContext × Option SniffError
  | [], metadata, _ => (metadata, joinErrors errors)
  | sniffer :: rest, metadata, bytes =>
      match sniffer metadata bytes with
      | (fields, none) => (metadata.write fields, none)
      | (fields, some error) => peekLoop (errors ++ [error]) rest (metadata.write fields) bytes

def peek (sniffers : List Sniffer) (metadata : RouteContext) (bytes : List UInt8) :
    RouteContext × Option SniffError :=
  peekLoop [] sniffers metadata bytes

/-- `sniff.Skip`: the ports of protocols in which the server speaks first. -/
def sniffSkip (metadata : RouteContext) : Bool :=
  [25, 465, 587, 143, 993, 110, 995].contains metadata.destination.port

structure RuleActionSniff where
  snifferNames : List String
  streamSniffers : List Sniffer
  packetSniffers : List Sniffer
  overrideDestination : Bool

structure RuleActionResolve where
  server : String
  options : RuleActionDNSRouteOptions
deriving DecidableEq, Repr

/-- The route options that change where a connection goes or how long it lives. -/
structure RuleActionRouteOptions where
  overrideAddress : Socksaddr
  overridePort : UInt16
  udpTimeout : Nat
deriving DecidableEq, Repr

/-- The actions of a route rule. The outbound of a `route` action was checked at
construction. -/
inductive RouteAction where
  | route (outbound : { tag : String // tag ≠ "" }) (options : RuleActionRouteOptions)
  | routeOptions (options : RuleActionRouteOptions)
  | bypass (outbound : String) (options : RuleActionRouteOptions)
  | reject (action : RuleActionReject)
  | hijackDNS
  | sniff (action : RuleActionSniff)
  | resolve (action : RuleActionResolve)
  | direct

/-- A rule: its verdict, given whether this is pre-matching, and its action. -/
structure RouteRule where
  isMatch : Bool → RouteContext → Bool
  action : RouteAction

end SideraCore.Route

namespace SideraCore.Rule.Socksaddr

def isValid (address : Socksaddr) : Bool := address.addr.isValid || address.fqdn ≠ ""

end SideraCore.Rule.Socksaddr

namespace SideraCore.Route

open Dns Rule Concurrency

/-- The answers of a flow outbound to `PreMatchFlow`. -/
inductive FlowVerdict where
  | «continue»
  | flow
  | reject
deriving DecidableEq, Repr

/-- An outbound as routing sees it: networks, the selection of a group, and the verdict
of a flow outbound. -/
structure Outbound where
  tag : String
  networks : List String
  now : Option String
  preMatchFlow : Option (String → Addr → FlowVerdict)

/-- The rules, the DNS router with its fake addresses and reverse mapping, the sniffers
and the outbounds. -/
structure Router where
  rules : List RouteRule
  isDomainName : String → Bool
  isDomain : Socksaddr → Bool
  fakeIPContains : Addr → Bool
  fakeIPLookup : Addr → Option String
  reverseMapping : Addr → Option String
  hasTransport : String → Bool
  lookup : RouteContext → RuleActionResolve → Except String (List Addr)
  defaultStreamSniffers : List Sniffer
  defaultPacketSniffers : List Sniffer
  quicClientHello : Sniffer
  outbound : String → Option Outbound
  defaultOutbound : Outbound

variable (router : Router) (metadata : RouteContext)

/-- A fake address stands for its domain, and another address may have one from the
reverse mapping. -/
def Router.mapDestination : Except String RouteContext :=
  if metadata.destination.addr.isValid && router.fakeIPContains metadata.destination.addr then
    match router.fakeIPLookup metadata.destination.addr with
    | none => .error "missing fakeip record, try enable `experimental.cache_file`"
    | some domain =>
        if domain ≠ "" then
          .ok { metadata.toDomain domain with
            originDestination := metadata.destination
            fakeIP := true }
        else .ok metadata
  else if metadata.domain = "" then
    .ok { metadata with
      domain := (router.reverseMapping metadata.destination.addr).getD metadata.domain }
  else .ok metadata

def RouteContext.setIPVersion : RouteContext :=
  match metadata.destination.addr with
  | .v4 _ => { metadata with ipVersion := 4 }
  | .v6 _ => { metadata with ipVersion := 6 }
  | .invalid => metadata

/-- `prepareMatchMetadata`, without the process and neighbour information. -/
def Router.prepareMatchMetadata :
    Except String RouteContext :=
  (router.mapDestination metadata).map RouteContext.setIPVersion

def applyRouteOptionsOverride (options : RuleActionRouteOptions) :
    RouteContext :=
  let address := if options.overrideAddress.isValid then
      ⟨options.overrideAddress.addr, metadata.destination.port, options.overrideAddress.fqdn⟩
    else metadata.destination
  { metadata with
    destination := if options.overridePort > 0 then { address with port := options.overridePort }
      else address
    udpTimeout := if options.udpTimeout > 0 then options.udpTimeout else metadata.udpTimeout }

/-- What `matchRule` does for route options: addresses resolved for the old destination
are dropped. -/
def applyRouteOptions (options : RuleActionRouteOptions) : RouteContext :=
  applyRouteOptionsOverride
    { metadata with
      destinationAddresses := if options.overrideAddress.isValid then []
        else metadata.destinationAddresses }
    options

def Router.actionResolve (action : RuleActionResolve) :
    Except String RouteContext :=
  if router.isDomain metadata.destination then
    if action.server ≠ "" ∧ ¬router.hasTransport action.server then
      throw ("DNS server not found: " ++ action.server)
    else
      match router.lookup metadata action with
      | .error problem => throw problem
      | .ok addresses => pure { metadata with destinationAddresses := addresses }
  else pure metadata

/-- A sniffed domain takes the place of the destination where the action asks for it. -/
def Router.overrideDestination (router : Router) (action : RuleActionSniff) (metadata : RouteContext) :
    RouteContext :=
  if action.overrideDestination && router.isDomainName metadata.domain then
    metadata.toDomain metadata.domain
  else metadata

def Router.settleSniff (action : RuleActionSniff) (metadata : RouteContext) (error : Option SniffError) :
    RouteContext :=
  match error with
  | none => router.overrideDestination action metadata
  | some _ => metadata

def sniffSettled (action : RuleActionSniff) (metadata : RouteContext) : Bool :=
  metadata.snifferNames = action.snifferNames && metadata.sniffError = some .other

/-- The action of a selected rule. A bypass to an outbound is handled as a route to
it. -/
inductive FinalAction where
  | route (outbound : String)
  | reject (action : RuleActionReject)
  | hijackDNS
deriving DecidableEq, Repr

inductive WalkStatus where
  | walking
  | selected (action : FinalAction)
  | failed (error : String)
deriving DecidableEq, Repr

structure Walk (ι : Type) where
  metadata : RouteContext
  io : ι
  status : WalkStatus

/-- The sniff action of a kind of connection: a fatal error, the metadata and the state. -/
abbrev SniffOn (ι : Type) :=
  RuleActionSniff → RouteContext → ι → Option String × RouteContext × ι

namespace Walk

variable {ι : Type} (router : Router) (sniff : SniffOn ι)

def perform (walk : Walk ι) : RouteAction → Walk ι
  | .sniff action =>
      let (fatal, metadata, io) := sniff action walk.metadata walk.io
      ⟨metadata, io, match fatal with | none => .walking | some error => .failed error⟩
  | .resolve action =>
      match router.actionResolve walk.metadata action with
      | .error problem => { walk with status := .failed problem }
      | .ok metadata => { walk with metadata := metadata }
  | .route outbound options =>
      { walk with
        metadata := applyRouteOptions walk.metadata options
        status := .selected (.route outbound) }
  | .routeOptions options => { walk with metadata := applyRouteOptions walk.metadata options }
  | .bypass outbound options =>
      if outbound = "" then walk
      else
        { walk with
          metadata := applyRouteOptions walk.metadata options
          status := .selected (.route outbound) }
  | .reject action => { walk with status := .selected (.reject action) }
  | .hijackDNS => { walk with status := .selected .hijackDNS }
  | .direct => walk

def step (walk : Walk ι) (rule : RouteRule) : Walk ι :=
  match walk.status with
  | .walking =>
      let reset := { walk with metadata := walk.metadata.resetRuleCache }
      if rule.isMatch false reset.metadata then reset.perform router sniff rule.action else reset
  | _ => walk

def machine : Machine (Walk ι) RouteRule where
  step walk rule := some (walk.step router sniff rule)

end Walk

def Router.matchRule {ι : Type} (router : Router) (sniff : SniffOn ι) (metadata : RouteContext) (io : ι) :
    Walk ι :=
  match router.prepareMatchMetadata metadata with
  | .error problem => ⟨metadata, io, .failed problem⟩
  | .ok prepared => router.rules.foldl (Walk.step router sniff) ⟨prepared, io, .walking⟩

namespace Walk

variable {ι : Type}

theorem run_machine (router : Router) (sniff : SniffOn ι) (walk : Walk ι) (rules : List RouteRule) :
    (machine router sniff).run walk rules = some (rules.foldl (step router sniff) walk) := by
  induction rules generalizing walk with
  | nil => rfl
  | cons rule rest ih => exact ih (walk.step router sniff rule)

/-- The invariant rule for the walk: what every action keeps under a condition on the
state before it. -/
theorem foldl_invariant {router : Router} {sniff : SniffOn ι} {condition : Walk ι → RouteAction → Prop}
    {invariant : Walk ι → Prop}
    (reset : ∀ walk, invariant walk →
      invariant { walk with metadata := walk.metadata.resetRuleCache })
    (performed : ∀ (walk : Walk ι) action, walk.status = .walking → condition walk action →
      invariant walk → invariant (walk.perform router sniff action))
    {walk : Walk ι} {rules : List RouteRule}
    (meets : (machine router sniff).Meets
      (fun before rule => before.status = .walking →
        rule.isMatch false before.metadata.resetRuleCache = true →
          condition { before with metadata := before.metadata.resetRuleCache } rule.action) walk rules)
    (initially : invariant walk) : invariant (rules.foldl (step router sniff) walk) := by
  have kept : ∀ before rule after, (machine router sniff).step before rule = some after →
      (before.status = .walking → rule.isMatch false before.metadata.resetRuleCache = true →
        condition { before with metadata := before.metadata.resetRuleCache } rule.action) →
      invariant before → invariant after := by
    intro before rule after stepped allowed holds
    cases stepped
    obtain ⟨metadata, io, status⟩ := before
    cases status with
    | walking =>
        by_cases matched : rule.isMatch false metadata.resetRuleCache = true
        · rw [step, if_pos matched]
          exact performed _ _ rfl (allowed rfl matched) (reset _ holds)
        · rw [step, if_neg matched]
          exact reset _ holds
    | selected action | failed error => exact holds
  exact Machine.run_invariant kept (run_machine router sniff walk rules) meets initially

end Walk

end SideraCore.Route
