import SideraCore.Rule.Item

/-!
Owns the matching of default and logical rules and of rule-sets: the group
evaluation of `abstractDefaultRule`, headless rules, `RuleSetItem` with its
merging of single-rule sets, and `abstractLogicalRule`.

Matching updates the rule cache of the metadata it is given, so the functions
of a default rule return the metadata next to their verdict. A nested rule gets
a copy, and nothing it writes comes back.
-/

namespace SideraCore.Rule

open Dns

/-- `ruleMatchState`: one bit for each address or port group. -/
abbrev RuleMatchState := BitVec 8

def ruleMatchSourceAddress : RuleMatchState := 1#8
def ruleMatchSourcePort : RuleMatchState := 2#8
def ruleMatchDestinationAddress : RuleMatchState := 4#8
def ruleMatchDestinationPort : RuleMatchState := 8#8

def RuleMatchState.has (state target : RuleMatchState) : Bool := state &&& target != 0#8

structure RuleGroupMatch where
  required : RuleMatchState
  satisfied : RuleMatchState
deriving DecidableEq, Repr

namespace RuleGroupMatch

def empty : RuleGroupMatch := ⟨0#8, 0#8⟩

def done (groups : RuleGroupMatch) : Bool := groups.required &&& ~~~groups.satisfied == 0#8

def mergeWith (groups other : RuleGroupMatch) : RuleGroupMatch :=
  ⟨groups.required ||| other.required, groups.satisfied ||| other.satisfied⟩

end RuleGroupMatch

/-- The item lists of `abstractDefaultRule` without the rule-set item. -/
structure RuleItems where
  items : List RuleItem
  sourceAddressItems : List RuleItem
  sourcePortItems : List RuleItem
  destinationAddressItems : List RuleItem
  destinationIPCIDRItems : List RuleItem
  destinationPortItems : List RuleItem
  invert : Bool

def matchAnyItem (items : List RuleItem) (metadata : InboundContext) : Bool :=
  items.any fun item => item.isMatch metadata

namespace RuleItems

def empty : RuleItems := ⟨[], [], [], [], [], [], false⟩

/-- Whether `allItems` is empty, the rule-set item apart. -/
def isEmpty (rule : RuleItems) : Bool :=
  rule.items.isEmpty && rule.sourceAddressItems.isEmpty && rule.sourcePortItems.isEmpty &&
    rule.destinationAddressItems.isEmpty && rule.destinationIPCIDRItems.isEmpty &&
    rule.destinationPortItems.isEmpty

variable (rule : RuleItems) (metadata : InboundContext)

def destinationIPCIDRMatchesSource : Bool :=
  !metadata.ignoreDestinationIPCIDRMatch && metadata.ipCidrMatchSource &&
    !rule.destinationIPCIDRItems.isEmpty

def destinationIPCIDRMatchesDestination : Bool :=
  !metadata.ignoreDestinationIPCIDRMatch && !metadata.ipCidrMatchSource &&
    !rule.destinationIPCIDRItems.isEmpty

/-- One block of `evaluateGroups`: a present group becomes required, and satisfied if it
is not yet and an item matches. In blocks that do not ask `has` first, the flag is still
clear. -/
def evaluateGroup (present : Bool) (flag : RuleMatchState) (items : List RuleItem) :
    RuleGroupMatch × InboundContext → RuleGroupMatch × InboundContext
  | (groups, metadata) =>
      if present then
        let matched := { metadata with didMatch := true }
        let required := groups.required ||| flag
        if !groups.satisfied.has flag && matchAnyItem items matched then
          (⟨required, groups.satisfied ||| flag⟩, matched)
        else
          (⟨required, groups.satisfied⟩, matched)
      else
        (groups, metadata)

def evaluateGroups : RuleGroupMatch × InboundContext :=
  let start := (RuleGroupMatch.empty, metadata)
  let sourceAddress := evaluateGroup (!rule.sourceAddressItems.isEmpty) ruleMatchSourceAddress
    rule.sourceAddressItems start
  let sourceCIDR := evaluateGroup (rule.destinationIPCIDRMatchesSource metadata)
    ruleMatchSourceAddress rule.destinationIPCIDRItems sourceAddress
  let sourcePort := evaluateGroup (!rule.sourcePortItems.isEmpty) ruleMatchSourcePort
    rule.sourcePortItems sourceCIDR
  let destinationAddress := evaluateGroup (!rule.destinationAddressItems.isEmpty)
    ruleMatchDestinationAddress rule.destinationAddressItems sourcePort
  let destinationCIDR := evaluateGroup (rule.destinationIPCIDRMatchesDestination metadata)
    ruleMatchDestinationAddress rule.destinationIPCIDRItems destinationAddress
  evaluateGroup (!rule.destinationPortItems.isEmpty) ruleMatchDestinationPort
    rule.destinationPortItems destinationCIDR

/-- The loop over `items`: it stops at the first item that does not match. -/
def matchItems : List RuleItem → InboundContext → Bool × InboundContext
  | [], metadata => (true, metadata)
  | item :: rest, metadata =>
      let matched := { metadata with didMatch := true }
      if item.isMatch matched then matchItems rest matched else (false, matched)

def evaluateForMerge : Option RuleGroupMatch :=
  let (groups, evaluated) := rule.evaluateGroups metadata
  if (matchItems rule.items evaluated).1 then some groups else none

/-- The rule-set item, if there is one, is given by what `matchWithOuterGroups` answers. -/
def matchInner (ruleSet : Option (InboundContext → RuleGroupMatch → Bool)) (metadata : InboundContext) :
    Bool × InboundContext :=
  let (groups, evaluated) := rule.evaluateGroups metadata
  let (itemsMatched, checked) := matchItems rule.items evaluated
  if itemsMatched then
    match ruleSet with
    | some matchWithOuterGroups =>
        let matched := { checked with didMatch := true }
        (matchWithOuterGroups matched groups, matched)
    | none => (groups.done, checked)
  else
    (false, checked)

def isMatch (ruleSet : Option (InboundContext → RuleGroupMatch → Bool)) (metadata : InboundContext) :
    Bool :=
  if rule.isEmpty && ruleSet.isNone then
    true
  else
    let (matched, evaluated) := rule.matchInner ruleSet metadata
    if rule.invert then
      if matched && evaluated.ignoreDestinationIPCIDRMatch && !evaluated.didMatch &&
          !rule.destinationIPCIDRItems.isEmpty then
        true
      else
        !matched
    else
      matched

end RuleItems

/-! ### Headless rules and rule-sets -/

/-- It has no response items and no rule-set item, and its `ip_cidr` group holds address
sets only: what `NewDefaultHeadlessRule` can fill the lists with. -/
structure DefaultHeadlessRule where
  queryType : List UInt16
  items : List (Connection → Bool)
  sourceIPCIDR : List (Addr → Bool)
  sourcePortItems : List (Connection → Bool)
  destinationAddressItems : List (Connection → Bool)
  ipCIDR : List (Addr → Bool)
  destinationPortItems : List (Connection → Bool)
  invert : Bool

namespace DefaultHeadlessRule

def toRuleItems (rule : DefaultHeadlessRule) : RuleItems where
  items := (if rule.queryType.isEmpty then [] else [RuleItem.queryType rule.queryType]) ++
    rule.items.map .connection
  sourceAddressItems := rule.sourceIPCIDR.map fun ipSet => .ipCIDR ipSet true
  sourcePortItems := rule.sourcePortItems.map .connection
  destinationAddressItems := rule.destinationAddressItems.map .connection
  destinationIPCIDRItems := rule.ipCIDR.map fun ipSet => .ipCIDR ipSet false
  destinationPortItems := rule.destinationPortItems.map .connection
  invert := rule.invert

end DefaultHeadlessRule

inductive LogicalMode where
  | and
  | or
deriving DecidableEq, Repr

/-- `adapter.HeadlessRule` as a rule-set holds it. -/
inductive HeadlessRule where
  | default (rule : DefaultHeadlessRule)
  | logical (mode : LogicalMode) (invert : Bool) (rules : List HeadlessRule)

mutual

/-- `DefaultHeadlessRule.Match` and `abstractLogicalRule.Match`. Each sub rule gets its
own copy of the metadata. -/
def HeadlessRule.isMatch : HeadlessRule → InboundContext → Bool
  | .default rule, metadata => rule.toRuleItems.isMatch none metadata
  | .logical mode invert rules, metadata =>
      let matched := match mode with
        | .and => HeadlessRule.allMatch rules metadata.resetRuleCache
        | .or => HeadlessRule.anyMatch rules metadata.resetRuleCache
      if invert then !matched else matched

def HeadlessRule.allMatch : List HeadlessRule → InboundContext → Bool
  | [], _ => true
  | rule :: rest, metadata => rule.isMatch metadata && HeadlessRule.allMatch rest metadata

def HeadlessRule.anyMatch : List HeadlessRule → InboundContext → Bool
  | [], _ => false
  | rule :: rest, metadata => rule.isMatch metadata || HeadlessRule.anyMatch rest metadata

end

structure RuleSet where
  rules : List HeadlessRule

/-- The only rule of the set, when it is a default rule without `invert`. -/
def mergeableRuleIn : List HeadlessRule → Option DefaultHeadlessRule
  | [.default rule] => if rule.invert then none else some rule
  | _ => none

def matchAnyHeadlessRule (rules : List HeadlessRule) (metadata : InboundContext) : Bool :=
  HeadlessRule.anyMatch rules metadata.resetRuleMatchCache

structure RuleSetItem where
  setList : List RuleSet
  ipCidrMatchSource : Bool
  ipCidrAcceptEmpty : Bool

namespace RuleSetItem

variable (item : RuleSetItem) (metadata : InboundContext)

def nestedMetadata : InboundContext :=
  { metadata.resetRuleMatchCache with
    ipCidrMatchSource := item.ipCidrMatchSource
    ipCidrAcceptEmpty := item.ipCidrAcceptEmpty }

def matchRuleSet (outerGroups : RuleGroupMatch) (ruleSet : RuleSet) : Bool :=
  match mergeableRuleIn ruleSet.rules with
  | some branch =>
      match branch.toRuleItems.evaluateForMerge (item.nestedMetadata metadata) with
      | some branchGroups => (outerGroups.mergeWith branchGroups).done
      | none => false
  | none => outerGroups.done && matchAnyHeadlessRule ruleSet.rules (item.nestedMetadata metadata)

def matchWithOuterGroups (outerGroups : RuleGroupMatch) : Bool :=
  item.setList.any (item.matchRuleSet metadata outerGroups)

end RuleSetItem

structure AbstractDefaultRule extends RuleItems where
  ruleSetItem : Option RuleSetItem

def AbstractDefaultRule.isMatch (rule : AbstractDefaultRule) (metadata : InboundContext) : Bool :=
  rule.toRuleItems.isMatch (rule.ruleSetItem.map RuleSetItem.matchWithOuterGroups) metadata

end SideraCore.Rule
