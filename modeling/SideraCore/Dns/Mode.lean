import SideraCore.Rule.DnsRule

/-!
Owns the router's checks across DNS rules: which mode the rules require
(`resolveLegacyDNSMode`), whether they are accepted outside legacy mode
(`validateLegacyDNSModeDisabledRules`), and `buildRules`.

The metadata of rule-sets is read through a lookup, because a reload validates its
own metadata against the published metadata of the others.
-/

namespace SideraCore.Dns

open Rule

abbrev RuleSetLookup := String → Except String RuleSetMetadata

/-- The override of a pending update, else what the loaded set publishes. -/
def lookupDNSRuleSetMetadata (published overrides : String → Option RuleSetMetadata) :
    RuleSetLookup := fun tag =>
  match overrides tag with
  | some metadata => pure metadata
  | none =>
      match published tag with
      | some metadata => pure metadata
      | none => throw ("rule-set not found: " ++ tag)

def lookupAll (lookup : RuleSetLookup) : List String → Except String (List RuleSetMetadata)
  | [] => pure []
  | tag :: rest => do
      let metadata ← lookup tag
      let others ← lookupAll lookup rest
      pure (metadata :: others)

variable (lookup : RuleSetLookup) (index : Nat) (rule : Options.DefaultDNSRule)
  (rules : List Options.DNSRule)

def defaultRuleNeedsLegacyDNSModeFromAddressFilter : Bool :=
  rule.ruleSetIPCIDRAcceptEmpty ||
    (!rule.matchResponse.isEnabled && (rule.ipAcceptAny || rule.ipCIDR.isSome || rule.ipIsPrivate))

def hasResponseMatchFields : Bool :=
  rule.responseRcode.isSome || !rule.responseAnswer.isEmpty || !rule.responseNs.isEmpty ||
    !rule.responseExtra.isEmpty

def isRespond : Option RuleAction → Bool
  | some .respond => true
  | _ => false

def defaultRuleDisablesLegacyDNSMode : Bool :=
  rule.matchResponse.isEnabled || hasResponseMatchFields rule ||
    isEvaluate rule.dnsRuleAction.action || isRespond rule.dnsRuleAction.action ||
    decide (rule.ipVersion > 0) || !rule.queryType.isEmpty

def dnsRuleActionDisablesLegacyDNSMode (action : Options.DNSRuleAction) : Bool :=
  action.race ||
    match action.action with
    | some (.dnsRoute _ speculative options) => options.disableOptimisticCache || speculative
    | some (.evaluate _ _ speculative options) => options.disableOptimisticCache || speculative
    | some (.dnsRouteOptions options) => options.disableOptimisticCache
    | _ => false

def dnsRuleActionHasStrategy (action : Options.DNSRuleAction) : Bool :=
  match action.action with
  | some (.dnsRoute _ _ options) => options.strategy ≠ .asIs
  | some (.evaluate _ _ _ options) => options.strategy ≠ .asIs
  | some (.dnsRouteOptions options) => options.strategy ≠ .asIs
  | _ => false

structure DnsRuleModeFlags where
  disabled : Bool
  needed : Bool
  neededFromStrategy : Bool
deriving DecidableEq, Repr

def DnsRuleModeFlags.zero : DnsRuleModeFlags := ⟨false, false, false⟩

def DnsRuleModeFlags.merge (flags other : DnsRuleModeFlags) : DnsRuleModeFlags :=
  ⟨flags.disabled || other.disabled, flags.needed || other.needed,
    flags.neededFromStrategy || other.neededFromStrategy⟩

def ruleSetFlags (matchSource : Bool) (metadata : RuleSetMetadata) : DnsRuleModeFlags :=
  ⟨metadata.containsDNSQueryTypeRule, !matchSource && metadata.containsIPCIDRRule, false⟩

def dnsRuleModeRequirementsInDefaultRule :
    Except String DnsRuleModeFlags := do
  let strategy := dnsRuleActionHasStrategy rule.dnsRuleAction
  let own : DnsRuleModeFlags :=
    ⟨defaultRuleDisablesLegacyDNSMode rule || dnsRuleActionDisablesLegacyDNSMode rule.dnsRuleAction,
      defaultRuleNeedsLegacyDNSModeFromAddressFilter rule || strategy, strategy⟩
  let sets ← lookupAll lookup rule.ruleSet
  return (sets.map (ruleSetFlags rule.ruleSetIPCIDRMatchSource)).foldl DnsRuleModeFlags.merge own

mutual

def dnsRuleModeRequirementsInRule (lookup : RuleSetLookup) :
    Options.DNSRule → Except String DnsRuleModeFlags
  | .default rule => dnsRuleModeRequirementsInDefaultRule lookup rule
  | .logical _ rules _ action =>
      let strategy := dnsRuleActionHasStrategy action
      dnsRuleModeRequirementsInRules lookup "sub rule" 0 rules
        ⟨isEvaluate action.action || isRespond action.action || dnsRuleActionDisablesLegacyDNSMode action,
          strategy, strategy⟩

/-- The loops over sub rules and over all rules, which differ in the name of the index
and in the first flags. -/
def dnsRuleModeRequirementsInRules (lookup : RuleSetLookup) (context : String) (index : Nat) :
    List Options.DNSRule → DnsRuleModeFlags → Except String DnsRuleModeFlags
  | [], flags => pure flags
  | rule :: rest, flags => do
      let ruleFlags ← (dnsRuleModeRequirementsInRule lookup rule).mapError (ruleCause context index)
      dnsRuleModeRequirementsInRules lookup context (index + 1) rest (flags.merge ruleFlags)

end

def dnsRuleModeRequirements :
    Except String DnsRuleModeFlags :=
  dnsRuleModeRequirementsInRules lookup "dns rule" 0 rules .zero

def optionLegacyDNSRuleStrategy : String :=
  "Legacy `strategy` DNS rule action option is deprecated in sing-box 1.14.0 and will be removed in sing-box 1.16.0, checkout documentation for migration: https://sing-box.sagernet.org/migration/#migrate-dns-rule-action-strategy-to-rule-items"

def optionLegacyDNSAddressFilter : String :=
  "Legacy Address Filter Fields in DNS rules is deprecated in sing-box 1.14.0 and will be removed in sing-box 1.16.0, checkout documentation for migration: https://sing-box.sagernet.org/migration/#migrate-address-filter-fields-to-response-matching"

def modeOfFlags (flags : DnsRuleModeFlags) : Except String Bool :=
  if flags.disabled && flags.neededFromStrategy then
    throw optionLegacyDNSRuleStrategy
  else if flags.disabled then
    pure false
  else
    pure flags.needed

def resolveLegacyDNSMode :
    Except String (Bool × DnsRuleModeFlags) := do
  let flags ← dnsRuleModeRequirements lookup rules
  let mode ← modeOfFlags flags
  return (mode, flags)

/-! ### Rules outside legacy mode -/

structure DnsRuleResponseUse where
  needsAnonymous : Bool
  referencedTags : List String
deriving DecidableEq, Repr

def isPureIPCIDR (metadata : RuleSetMetadata) : Bool :=
  metadata.containsIPCIDRRule && !metadata.containsNonIPCIDRRule

/-- The loop over the sets of a rule without a response: none may hold address
conditions only. -/
def validateRuleSets (lookup : RuleSetLookup) : List String → Except String Unit
  | [] => pure ()
  | tag :: rest => do
      let metadata ← lookup tag
      if isPureIPCIDR metadata then throw optionLegacyDNSAddressFilter
      validateRuleSets lookup rest

def validateLegacyDNSModeDisabledDefaultRule :
    Except String DnsRuleResponseUse := do
  if (hasResponseMatchFields rule || rule.ipCIDR.isSome || rule.ipIsPrivate || rule.ipAcceptAny) &&
      !rule.matchResponse.isEnabled then
    throw "Response Match Fields (ip_cidr, ip_is_private, ip_accept_any, response_rcode, response_answer, response_ns, response_extra) require match_response to be enabled"
  if !rule.matchResponse.isEnabled then
    validateRuleSets lookup rule.ruleSet
  if rule.ruleSetIPCIDRAcceptEmpty then
    throw optionRuleSetIPCIDRAcceptEmpty
  return {
    needsAnonymous :=
      (rule.matchResponse.isEnabled && rule.matchResponse.responseTag == "") ||
        (isRespond rule.dnsRuleAction.action && rule.matchResponse.responseTag == "")
    referencedTags :=
      if rule.matchResponse.responseTag = "" then [] else [rule.matchResponse.responseTag] }

mutual

def validateLegacyDNSModeDisabledRuleTree (lookup : RuleSetLookup) :
    Options.DNSRule → Except String DnsRuleResponseUse
  | .default rule => validateLegacyDNSModeDisabledDefaultRule lookup rule
  | .logical _ rules _ action => do
      let use ← validateSubRules lookup 0 rules
      if isRespond action.action then
        if !use.referencedTags.isEmpty then
          throw "respond on a logical rule cannot bind a `match_response` tag from its sub rules; use a non-logical rule"
        return { use with needsAnonymous := true }
      return use

def validateSubRules (lookup : RuleSetLookup) (index : Nat) :
    List Options.DNSRule → Except String DnsRuleResponseUse
  | [] => pure ⟨false, []⟩
  | rule :: rest => do
      let use ← (validateLegacyDNSModeDisabledRuleTree lookup rule).mapError (ruleCause "sub rule" index)
      let others ← validateSubRules lookup (index + 1) rest
      return ⟨use.needsAnonymous || others.needsAnonymous, use.referencedTags ++ others.referencedTags⟩

end

def dnsRuleActionEvaluateTag (rule : Options.DNSRule) : String :=
  match rule.action.action with
  | some (.evaluate _ tag _ _) => tag
  | _ => ""

def dnsRuleActionSpeculative (rule : Options.DNSRule) : Bool :=
  match rule.action.action with
  | some (.evaluate _ _ speculative _) => speculative
  | some (.dnsRoute _ speculative _) => speculative
  | _ => false

/-- The variables of the loop in `validateLegacyDNSModeDisabledRules`; tags in order of
definition. -/
structure RuleValidation where
  warnings : List String
  seenAnonymousEvaluate : Bool
  seenRace : Bool
  definedTags : List String
  referencedTags : List String
  lastAnonymousEvaluate : Option Nat
  anonymousReadSinceLast : Bool

def RuleValidation.start : RuleValidation := ⟨[], false, false, [], [], none, false⟩

def validateUse (use : DnsRuleResponseUse) (state : RuleValidation) :
    Except String RuleValidation := do
  if use.needsAnonymous && !state.seenAnonymousEvaluate then
    if !state.definedTags.isEmpty then
      throw s!"dns rule[{index}]: response-based matching requires a preceding evaluate action without `tag`; use `match_response` with an evaluate tag to reference a tagged result"
    throw s!"dns rule[{index}]: response-based matching requires a preceding evaluate action"
  match use.referencedTags.find? fun tag => !state.definedTags.contains tag with
  | some tag => throw s!"dns rule[{index}]: undefined evaluate tag: {tag}"
  | none =>
      return { state with
        anonymousReadSinceLast := state.anonymousReadSinceLast || use.needsAnonymous
        referencedTags := state.referencedTags ++ use.referencedTags }

def validateEvaluate (tag : String) (state : RuleValidation) :
    Except String RuleValidation :=
  if tag = "" then
    let overwritten := match state.lastAnonymousEvaluate with
      | some last =>
          if state.anonymousReadSinceLast then []
          else [s!"dns rule[{last}]: evaluated response is overwritten by dns rule[{index}] before any use"]
      | none => []
    pure { state with
      warnings := state.warnings ++ overwritten
      seenAnonymousEvaluate := true
      lastAnonymousEvaluate := some index
      anonymousReadSinceLast := false }
  else if state.definedTags.contains tag then
    throw s!"dns rule[{index}]: duplicate evaluate tag: {tag}"
  else
    pure { state with definedTags := state.definedTags ++ [tag] }

def validateRule (rule : Options.DNSRule) (state : RuleValidation) : Except String RuleValidation := do
  let use ← (validateLegacyDNSModeDisabledRuleTree lookup rule).mapError
    (ruleCause "validate dns rule" index)
  let ineffective := if dnsRuleActionSpeculative rule && !state.seenRace then
      [s!"dns rule[{index}]: `speculative` has no effect without a preceding `race` rule"]
    else []
  let read ← validateUse index use
    { state with
      warnings := state.warnings ++ ineffective
      seenRace := state.seenRace || rule.action.race }
  if isEvaluate rule.action.action then
    validateEvaluate index (dnsRuleActionEvaluateTag rule) read
  else
    pure read

def validateRules (lookup : RuleSetLookup) (index : Nat) :
    List Options.DNSRule → RuleValidation → Except String RuleValidation
  | [], state => pure state
  | rule :: rest, state => do
      let next ← validateRule lookup index rule state
      validateRules lookup (index + 1) rest next

def validateLegacyDNSModeDisabledRules :
    Except String (List String) := do
  let state ← validateRules lookup 0 rules .start
  let unused := state.definedTags.filter fun tag => !state.referencedTags.contains tag
  return state.warnings ++ unused.map fun tag => s!"evaluate tag is never referenced: {tag}"

def validateEvaluateFakeIPRules (transports : DNSTransportManager) (index : Nat) :
    List Options.DNSRule → Except String Unit
  | [] => pure ()
  | rule :: rest =>
      match rule.action.action with
      | some (.evaluate server _ _ _) =>
          if server ≠ "" && (transports.transport server).any DNSTransport.isFakeIP then
            throw s!"dns rule[{index}]: evaluate action cannot use fakeip server: {server}"
          else
            validateEvaluateFakeIPRules transports (index + 1) rest
      | _ => validateEvaluateFakeIPRules transports (index + 1) rest

def validateNestedActions (index : Nat) : List Options.DNSRule → Except String Unit
  | [] => pure ()
  | rule :: rest => do
      (validateNoNestedDNSRuleActions false rule).mapError (ruleCause "parse dns rule" index)
      validateNestedActions (index + 1) rest

def newDNSRules (context : RuleContext) (legacyDNSMode : Bool) (index : Nat) :
    List Options.DNSRule → Except String (List DNSRule)
  | [] => pure []
  | options :: rest => do
      let rule ← (newDNSRule context true legacyDNSMode options).mapError
        (ruleCause "parse dns rule" index)
      let rules ← newDNSRules context legacyDNSMode (index + 1) rest
      return rule :: rules

/-- The metadata the loaded rule-sets publish, with nothing overridden. -/
def loadedMetadata (context : RuleContext) : RuleSetLookup :=
  lookupDNSRuleSetMetadata (fun tag => (context.ruleSet tag).map RuleSet.metadata) fun _ => none

def buildRules (context : RuleContext) (transports : DNSTransportManager)
    (rawRules : List Options.DNSRule) : Except String (List DNSRule × Bool) := do
  validateNestedActions 0 rawRules
  let (legacyDNSMode, _) ← resolveLegacyDNSMode (loadedMetadata context) rawRules
  if !legacyDNSMode then
    let _ ← validateLegacyDNSModeDisabledRules (loadedMetadata context) rawRules
  validateEvaluateFakeIPRules transports 0 rawRules
  let rules ← newDNSRules context legacyDNSMode 0 rawRules
  return (rules, legacyDNSMode)

end SideraCore.Dns
