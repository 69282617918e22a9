import SideraCore.Rule.Abstract
import SideraCore.Rule.Action

/-!
Owns the options of DNS rules as the configuration decodes them. Conditions that
need compiling are held compiled: a domain list, an address list or a record
template is the predicate it stands for. The options of an action have the
fields of the action itself, which `NewDNSRuleAction` copies.
Options that decoding or construction always refuses are left out.
-/

namespace SideraCore.Options

open Dns Rule

/-- `DNSRuleMatchResponse`. An empty tag does not decode. -/
inductive DNSRuleMatchResponse where
  | off
  | anonymous
  | tagged (tag : String) (nonempty : tag ≠ "")

namespace DNSRuleMatchResponse

def isEnabled : DNSRuleMatchResponse → Bool
  | .off => false
  | _ => true

def responseTag : DNSRuleMatchResponse → String
  | .tagged tag _ => tag
  | _ => ""

end DNSRuleMatchResponse

/-- `DNSRuleAction`. No action is the zero value, which sub rules have. -/
structure DNSRuleAction where
  race : Bool
  action : Option RuleAction
deriving DecidableEq

def DNSRuleAction.zero : DNSRuleAction := ⟨false, none⟩

/-- `DefaultDNSRule`; `conditions` are those on the connection other than `ip_version`,
`query_type`, domains and ports. -/
structure DefaultDNSRule where
  ipVersion : Nat
  queryType : List UInt16
  conditions : List (Connection → Bool)
  domain : List (Connection → Bool)
  sourceIPCIDR : Option (Addr → Bool)
  sourceIPIsPrivate : Bool
  sourcePort : List (Connection → Bool)
  port : List (Connection → Bool)
  ruleSet : List String
  ruleSetIPCIDRMatchSource : Bool
  ruleSetIPCIDRAcceptEmpty : Bool
  matchResponse : DNSRuleMatchResponse
  ipCIDR : Option (Addr → Bool)
  ipIsPrivate : Bool
  ipAcceptAny : Bool
  responseRcode : Option Nat
  responseAnswer : List (RR → Bool)
  responseNs : List (RR → Bool)
  responseExtra : List (RR → Bool)
  invert : Bool
  dnsRuleAction : DNSRuleAction

def DefaultDNSRule.zero : DefaultDNSRule where
  ipVersion := 0
  queryType := []
  conditions := []
  domain := []
  sourceIPCIDR := none
  sourceIPIsPrivate := false
  sourcePort := []
  port := []
  ruleSet := []
  ruleSetIPCIDRMatchSource := false
  ruleSetIPCIDRAcceptEmpty := false
  matchResponse := .off
  ipCIDR := none
  ipIsPrivate := false
  ipAcceptAny := false
  responseRcode := none
  responseAnswer := []
  responseNs := []
  responseExtra := []
  invert := false
  dnsRuleAction := .zero

inductive DNSRule where
  | default (options : DefaultDNSRule)
  | logical (mode : LogicalMode) (rules : List DNSRule) (invert : Bool)
      (dnsRuleAction : DNSRuleAction)

/-- `DefaultDNSRule.IsValid`: something beside `invert` is set. -/
def DefaultDNSRule.isValid (rule : DefaultDNSRule) : Bool :=
  rule.ipVersion != 0 || !rule.queryType.isEmpty || !rule.conditions.isEmpty || !rule.domain.isEmpty ||
    rule.sourceIPCIDR.isSome || rule.sourceIPIsPrivate || !rule.sourcePort.isEmpty ||
    !rule.port.isEmpty || !rule.ruleSet.isEmpty || rule.ruleSetIPCIDRMatchSource ||
    rule.ruleSetIPCIDRAcceptEmpty || rule.matchResponse.isEnabled || rule.ipCIDR.isSome ||
    rule.ipIsPrivate || rule.ipAcceptAny || rule.responseRcode.isSome ||
    !rule.responseAnswer.isEmpty || !rule.responseNs.isEmpty || !rule.responseExtra.isEmpty ||
    rule.dnsRuleAction != .zero

namespace DNSRule

def action : DNSRule → DNSRuleAction
  | .default options => options.dnsRuleAction
  | .logical _ _ _ dnsRuleAction => dnsRuleAction

mutual

def isValid : DNSRule → Bool
  | .default options => options.isValid
  | .logical _ rules _ _ => !rules.isEmpty && allValid rules

def allValid : List DNSRule → Bool
  | [] => true
  | rule :: rest => rule.isValid && allValid rest

end

end DNSRule

end SideraCore.Options
