import SideraCore.Options.DnsRule

/-!
Owns DNS rules as the running program holds them: what a rule binds, how it is
matched against the responses bound to it, the two evaluations of legacy mode
around a lookup, and the construction of rules from their options.

It does not own the checks across rules, which the router makes.
-/

namespace SideraCore.Rule

open Dns HeadlessRule

/-- `adapter.RuleSetMetadata`, as far as DNS rules read it. -/
structure RuleSetMetadata where
  containsIPCIDRRule : Bool
  containsDNSQueryTypeRule : Bool
  containsNonIPCIDRRule : Bool
deriving DecidableEq, Repr

mutual

def HeadlessRule.has (condition : DefaultHeadlessRule → Bool) : HeadlessRule → Bool
  | .default rule => condition rule
  | .logical _ _ rules => hasAny condition rules

def HeadlessRule.hasAny (condition : DefaultHeadlessRule → Bool) : List HeadlessRule → Bool
  | [] => false
  | rule :: rest => rule.has condition || hasAny condition rest

end

variable (rule : DefaultHeadlessRule)

def isIPCIDRHeadlessRule : Bool := !rule.ipCIDR.isEmpty

def isDNSQueryTypeHeadlessRule : Bool := !rule.queryType.isEmpty

def isNonIPCIDRHeadlessRule : Bool :=
  !rule.queryType.isEmpty || !rule.items.isEmpty || !rule.sourceIPCIDR.isEmpty ||
    !rule.sourcePortItems.isEmpty || !rule.destinationAddressItems.isEmpty ||
    !rule.destinationPortItems.isEmpty

def buildRuleSetMetadata (rules : List HeadlessRule) : RuleSetMetadata where
  containsIPCIDRRule := hasAny isIPCIDRHeadlessRule rules
  containsDNSQueryTypeRule := hasAny isDNSQueryTypeHeadlessRule rules
  containsNonIPCIDRRule := hasAny isNonIPCIDRHeadlessRule rules

/-- Rules and metadata are published together. -/
def RuleSet.metadata (ruleSet : RuleSet) : RuleSetMetadata := buildRuleSetMetadata ruleSet.rules

structure DefaultDNSRule extends AbstractDefaultRule where
  action : Option RuleAction
  matchResponse : Bool
  matchResponseTag : String
  race : Bool

inductive DNSRule where
  | default (rule : DefaultDNSRule)
  | logical (mode : LogicalMode) (rules : List DNSRule) (invert : Bool) (action : Option RuleAction)
      (race : Bool)

namespace DefaultDNSRule

def matchForMatch (rule : DefaultDNSRule) (metadata : InboundContext) : Bool :=
  if rule.matchResponse then
    let response := if rule.matchResponseTag ≠ "" then
        metadata.namedDNSResponses rule.matchResponseTag
      else
        metadata.dnsResponse
    match response with
    | none => rule.invert
    | some message => rule.isMatch (metadata.withResponse message)
  else
    rule.isMatch metadata

end DefaultDNSRule

namespace DNSRule

def action : DNSRule → Option RuleAction
  | .default rule => rule.action
  | .logical _ _ _ action _ => action

def race : DNSRule → Bool
  | .default rule => rule.race
  | .logical _ _ _ _ race => race

def matchResponseTag : DNSRule → String
  | .default rule => rule.matchResponseTag
  | .logical .. => ""

mutual

/-- `MatchResponseTags`. A logical rule keeps the distinct tags of its sub rules. -/
def matchResponseTags : DNSRule → List String
  | .default rule => if rule.matchResponseTag = "" then [] else [rule.matchResponseTag]
  | .logical _ rules _ _ _ => (allMatchResponseTags rules).eraseDups

def allMatchResponseTags : List DNSRule → List String
  | [] => []
  | rule :: rest => rule.matchResponseTags ++ allMatchResponseTags rest

end

theorem matchResponseTag_mem (rule : DNSRule) (tagged : rule.matchResponseTag ≠ "") :
    rule.matchResponseTag ∈ rule.matchResponseTags := by
  cases rule with
  | default rule =>
      rw [matchResponseTag] at tagged ⊢
      rw [matchResponseTags, if_neg tagged]
      exact List.mem_singleton.2 rfl
  | logical => exact absurd rfl tagged

mutual

def matchResponseAnonymous : DNSRule → Bool
  | .default rule => rule.matchResponse && rule.matchResponseTag == ""
  | .logical _ rules _ _ _ => anyMatchResponseAnonymous rules

def anyMatchResponseAnonymous : List DNSRule → Bool
  | [] => false
  | rule :: rest => rule.matchResponseAnonymous || anyMatchResponseAnonymous rest

end

mutual

/-- `LogicalDNSRule.Match` resets the rule cache for each sub rule. -/
def isMatch : DNSRule → InboundContext → Bool
  | .default rule, metadata => rule.matchForMatch metadata
  | .logical mode rules invert _ _, metadata =>
      let matched := match mode with
        | .and => allMatch rules metadata.resetRuleCache
        | .or => anyMatch rules metadata.resetRuleCache
      if invert then !matched else matched

def allMatch : List DNSRule → InboundContext → Bool
  | [], _ => true
  | rule :: rest, metadata => rule.isMatch metadata && allMatch rest metadata

def anyMatch : List DNSRule → InboundContext → Bool
  | [], _ => false
  | rule :: rest, metadata => rule.isMatch metadata || anyMatch rest metadata

end

/-- The match before the lookup, with the conditions on the destination address left
out. -/
def legacyPreMatch (rule : DNSRule) (metadata : InboundContext) : Bool :=
  match rule with
  | .default defaultRule =>
      !defaultRule.matchResponse && defaultRule.isMatch metadata.deferDestination
  | .logical .. => rule.isMatch metadata.deferDestination

def matchAddressLimit (rule : DNSRule) (metadata : InboundContext) (response : Msg) : Bool :=
  match rule with
  | .default defaultRule => defaultRule.isMatch (metadata.withResponse response)
  | .logical .. => rule.isMatch (metadata.withResponse response)

end DNSRule

def cause (error context : String) : String := context ++ ": " ++ error

def ruleCause (context : String) (index : Nat) (error : String) : String :=
  cause error s!"{context}[{index}]"

/-- The classification of public addresses and the loaded rule-sets. -/
structure RuleContext where
  isPublicAddr : Addr → Bool
  ruleSet : String → Option RuleSet

def validateDNSRuleAction (action : Options.DNSRuleAction) : Except String Unit :=
  match action.race, action.action with
  | _, some (.reject ⟨.reply, _⟩) => throw "reject method `reply` is not supported for DNS rules"
  | true, some (.dnsRoute _ true _) =>
      throw "`race` and `speculative` cannot be combined on the same rule"
  | true, some (.evaluate ..) => throw "`race` requires a final action"
  | true, some (.dnsRouteOptions _) => throw "`race` requires a final action"
  | _, _ => pure ()

/-- The server check of `NewDNSRule`. The zero action counts as `route`. -/
def checkActionServer (action : Options.DNSRuleAction) : Except String Unit :=
  match action.action with
  | none | some (.dnsRoute "" _ _) | some (.evaluate "" _ _ _) => throw "missing server field"
  | _ => pure ()

def isEvaluate : Option RuleAction → Bool
  | some (.evaluate ..) => true
  | _ => false

def startRuleSetItem (context : RuleContext) : List String → Except String (List RuleSet)
  | [] => pure []
  | tag :: rest =>
      match context.ruleSet tag with
      | none => throw ("rule-set not found: " ++ tag)
      | some ruleSet => do
          let started ← startRuleSetItem context rest
          pure (ruleSet :: started)

def optionRuleSetIPCIDRAcceptEmpty : String :=
  "Legacy `rule_set_ip_cidr_accept_empty` DNS rule item is deprecated in sing-box 1.14.0 and will be removed in sing-box 1.16.0, checkout documentation for migration: https://sing-box.sagernet.org/migration/#migrate-address-filter-fields-to-response-matching"

def responseItems (options : Options.DefaultDNSRule) : List RuleItem :=
  (options.responseRcode.toList.map .responseRCode) ++
    (if options.responseAnswer.isEmpty then [] else [.responseRecord .answer options.responseAnswer]) ++
    (if options.responseNs.isEmpty then [] else [.responseRecord .ns options.responseNs]) ++
    (if options.responseExtra.isEmpty then [] else [.responseRecord .extra options.responseExtra])

def newRuleItems (context : RuleContext) (options : Options.DefaultDNSRule) : RuleItems where
  items := (if options.ipVersion > 0 then [.ipVersion (options.ipVersion == 6)] else []) ++
    (if options.queryType.isEmpty then [] else [.queryType options.queryType]) ++
    options.conditions.map .connection ++ responseItems options
  sourceAddressItems := (options.sourceIPCIDR.toList.map fun ipSet => .ipCIDR ipSet true) ++
    if options.sourceIPIsPrivate then [.ipIsPrivate context.isPublicAddr true] else []
  sourcePortItems := options.sourcePort.map .connection
  destinationAddressItems := options.domain.map .connection
  destinationIPCIDRItems := (options.ipCIDR.toList.map fun ipSet => .ipCIDR ipSet false) ++
    (if options.ipIsPrivate then [.ipIsPrivate context.isPublicAddr false] else []) ++
    if options.ipAcceptAny then [.ipAcceptAny] else []
  destinationPortItems := options.port.map .connection
  invert := options.invert

def newDefaultDNSRule (context : RuleContext) (options : Options.DefaultDNSRule)
    (legacyDNSMode : Bool) : Except String DefaultDNSRule := do
  if options.ipVersion > 0 && options.ipVersion ≠ 4 && options.ipVersion ≠ 6 then
    throw s!"invalid ip version: {options.ipVersion}"
  if options.ruleSetIPCIDRAcceptEmpty && !legacyDNSMode then
    throw optionRuleSetIPCIDRAcceptEmpty
  let setList ← startRuleSetItem context options.ruleSet
  return {
    toRuleItems := newRuleItems context options
    ruleSetItem := if options.ruleSet.isEmpty then none else
      some ⟨setList, options.ruleSetIPCIDRMatchSource, options.ruleSetIPCIDRAcceptEmpty⟩
    action := options.dnsRuleAction.action
    matchResponse := options.matchResponse.isEnabled
    matchResponseTag := options.matchResponse.responseTag
    race := options.dnsRuleAction.race }

/-- The checks both cases of `NewDNSRule` make on the action. -/
def checkDNSRuleAction (action : Options.DNSRuleAction) (checkServer : Bool) : Except String Unit := do
  if !checkServer && isEvaluate action.action then
    throw "evaluate is only allowed on top-level DNS rules"
  validateDNSRuleAction action

mutual

def validateNoNestedDNSRuleActions (nested : Bool) : Options.DNSRule → Except String Unit
  | .default options =>
      if nested && options.dnsRuleAction ≠ .zero then
        throw "DNS rule action is not supported in nested rules"
      else pure ()
  | .logical _ rules _ action =>
      if nested && action ≠ .zero then
        throw "DNS rule action is not supported in nested rules"
      else validateNoNestedInSubRules 0 rules

def validateNoNestedInSubRules (index : Nat) : List Options.DNSRule → Except String Unit
  | [] => pure ()
  | rule :: rest => do
      (validateNoNestedDNSRuleActions true rule).mapError (ruleCause "sub rule" index)
      validateNoNestedInSubRules (index + 1) rest

end

mutual

def newDNSRule (context : RuleContext) (checkServer legacyDNSMode : Bool) :
    Options.DNSRule → Except String DNSRule
  | .default options => do
      if !options.isValid then throw "missing conditions"
      checkDNSRuleAction options.dnsRuleAction checkServer
      if options.dnsRuleAction.race && !options.matchResponse.isEnabled then
        throw "`race` requires `match_response`"
      if checkServer then checkActionServer options.dnsRuleAction
      let rule ← newDefaultDNSRule context options legacyDNSMode
      return .default rule
  | .logical mode rules invert action => do
      if !(Options.DNSRule.logical mode rules invert action).isValid then throw "missing conditions"
      checkDNSRuleAction action checkServer
      if checkServer then checkActionServer action
      let subRules ← newSubRules context legacyDNSMode 0 rules
      let rule := DNSRule.logical mode subRules invert action.action action.race
      if action.race && rule.matchResponseTags.isEmpty && !rule.matchResponseAnonymous then
        throw "`race` requires `match_response` in sub-rules"
      return rule

def newSubRules (context : RuleContext) (legacyDNSMode : Bool) (index : Nat) :
    List Options.DNSRule → Except String (List DNSRule)
  | [] => pure []
  | options :: rest => do
      (validateNoNestedDNSRuleActions true options).mapError (ruleCause "sub rule" index)
      let rule ← (newDNSRule context false legacyDNSMode options).mapError (ruleCause "sub rule" index)
      let built ← newSubRules context legacyDNSMode (index + 1) rest
      return rule :: built

end

end SideraCore.Rule
