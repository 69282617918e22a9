import SideraCore.Rule.DnsRule
import SideraCore.Rule.Groups

/-!
Owns which responses a DNS rule reads: only those it binds, by tag or anonymously.
For a rule without `match_response` this takes that it has no response items, which
the router checks outside legacy mode.
-/

namespace SideraCore.Rule

open Dns

namespace InboundContext

def answered (metadata : InboundContext) (anonymous : Option Msg) (named : String → Option Msg) :
    InboundContext :=
  { metadata with dnsResponse := anonymous, namedDNSResponses := named }

end InboundContext

/-! ### Items and groups -/

def RuleItems.allItems (rule : RuleItems) : List RuleItem :=
  rule.items ++ rule.sourceAddressItems ++ rule.sourcePortItems ++ rule.destinationAddressItems ++
    rule.destinationIPCIDRItems ++ rule.destinationPortItems

def RuleItems.Deaf (rule : RuleItems) : Prop := ∀ item ∈ rule.allItems, item.readsResponse = false

theorem RuleItems.mem_allItems_of_mem_groupItems {rule : RuleItems} {metadata : InboundContext}
    {group : Group} {item : RuleItem} (member : item ∈ rule.groupItems metadata group) :
    item ∈ rule.allItems := by
  simp only [RuleItems.allItems, List.mem_append]
  cases group with
  | sourceAddress | destinationAddress =>
      rcases List.mem_append.1 member with own | deferred
      · simp [own]
      · simp [(List.mem_ite_nil_right.1 deferred).2]
  | sourcePort => simp [show item ∈ rule.sourcePortItems from member]
  | destinationPort => simp [show item ∈ rule.destinationPortItems from member]

/-- The anonymous response is the same, or no item looks at it. -/
def RuleItems.Indifferent (rule : RuleItems) (metadata : InboundContext) (anonymous : Option Msg) :
    Prop :=
  metadata.dnsResponse = anonymous ∨
    metadata.destinationAddressMatchFromResponse = false ∧ rule.Deaf

section Items

variable {metadata : InboundContext} {anonymous : Option Msg} (named : String → Option Msg)

theorem RuleItem.isMatch_answered (item : RuleItem)
    (indifferent : metadata.dnsResponse = anonymous ∨
      metadata.destinationAddressMatchFromResponse = false ∧ item.readsResponse = false) :
    item.isMatch (metadata.answered anonymous named) = item.isMatch metadata := by
  rcases indifferent with rfl | ⟨elsewhere, deaf⟩
  · cases item <;> rfl
  · cases item with
    | ipCIDR ipSet isSource =>
        simp [RuleItem.isMatch, matchIPCIDR, InboundContext.answered, elsewhere]
    | ipIsPrivate isPublicAddr isSource =>
        simp [RuleItem.isMatch, matchIPIsPrivate, InboundContext.answered, elsewhere]
    | ipAcceptAny => simp [RuleItem.isMatch, matchIPAcceptAny, InboundContext.answered, elsewhere]
    | responseRCode rcode | responseRecord section_ records => cases deaf
    | connection test => rfl

namespace RuleItems

variable {rule : RuleItems}

theorem required_answered (group : Group) :
    rule.required (metadata.answered anonymous named) group = rule.required metadata group := by
  cases group <;> rfl

variable (indifferent : rule.Indifferent metadata anonymous)
include indifferent

theorem Indifferent.item {item : RuleItem} (member : item ∈ rule.allItems) :
    item.isMatch (metadata.answered anonymous named) = item.isMatch metadata :=
  item.isMatch_answered named (indifferent.imp_right fun both => ⟨both.1, both.2 item member⟩)

theorem itemsMatch_answered :
    rule.itemsMatch (metadata.answered anonymous named) = rule.itemsMatch metadata := by
  unfold itemsMatch
  rw [Bool.eq_iff_iff, List.all_eq_true, List.all_eq_true]
  refine forall₂_congr fun item member => ?_
  rw [indifferent.item named (by simp [allItems, member])]

theorem satisfied_answered (group : Group) :
    rule.satisfied (metadata.answered anonymous named) group = rule.satisfied metadata group := by
  have sameItems : rule.groupItems (metadata.answered anonymous named) group =
      rule.groupItems metadata group := by
    cases group <;> rfl
  rw [Bool.eq_iff_iff, satisfied_iff, satisfied_iff, sameItems]
  refine exists_congr fun item => and_congr_right fun member => ?_
  rw [indifferent.item named (mem_allItems_of_mem_groupItems member)]

theorem words_answered :
    RuleGroupMatch.mk (Group.word (rule.required (metadata.answered anonymous named)))
        (Group.word (rule.satisfied (metadata.answered anonymous named))) =
      ⟨Group.word (rule.required metadata), Group.word (rule.satisfied metadata)⟩ := by
  rw [funext (required_answered named), funext (satisfied_answered named indifferent)]

theorem isMatch_answered :
    rule.isMatch none (metadata.answered anonymous named) = rule.isMatch none metadata := by
  have evaluates : rule.evaluates (metadata.answered anonymous named) = rule.evaluates metadata := rfl
  unfold isMatch
  simp only [matchInner_none, itemsMatch_answered named indifferent, evaluates, groupsDone,
    words_answered named indifferent]
  rfl

theorem evaluateForMerge_answered :
    rule.evaluateForMerge (metadata.answered anonymous named) = rule.evaluateForMerge metadata := by
  rw [evaluateForMerge_eq, evaluateForMerge_eq, itemsMatch_answered named indifferent,
    words_answered named indifferent]

end RuleItems

theorem DefaultHeadlessRule.deaf (rule : DefaultHeadlessRule) : rule.toRuleItems.Deaf := by
  intro item member
  simp only [RuleItems.allItems, toRuleItems, List.mem_append, List.mem_map] at member
  rcases member with (((((listed | ⟨_, -, rfl⟩) | ⟨_, -, rfl⟩) | ⟨_, -, rfl⟩) | ⟨_, -, rfl⟩) |
    ⟨_, -, rfl⟩) | ⟨_, -, rfl⟩
  · split at listed
    · cases listed
    · rw [List.mem_singleton.1 listed]
      rfl
  all_goals rfl

/-- What a rule-set is matched with cannot show another anonymous response. -/
def SetsIndifferent (metadata : InboundContext) (anonymous : Option Msg) : Prop :=
  metadata.dnsResponse = anonymous ∨ metadata.destinationAddressMatchFromResponse = false

namespace HeadlessRule

mutual

theorem isMatch_answered (rule : HeadlessRule) (metadata : InboundContext)
    (indifferent : SetsIndifferent metadata anonymous) :
    rule.isMatch (metadata.answered anonymous named) = rule.isMatch metadata := by
  match rule with
  | .default defaultRule =>
      unfold isMatch
      exact RuleItems.isMatch_answered named (indifferent.imp_right fun elsewhere =>
        ⟨elsewhere, defaultRule.deaf⟩)
  | .logical mode invert rules =>
      unfold isMatch
      obtain ⟨all, any⟩ := matches_answered rules metadata.resetRuleCache indifferent
      cases mode with
      | and => exact congrArg (fun matched : Bool => if invert then !matched else matched) all
      | or => exact congrArg (fun matched : Bool => if invert then !matched else matched) any

theorem matches_answered (rules : List HeadlessRule) (metadata : InboundContext)
    (indifferent : SetsIndifferent metadata anonymous) :
    allMatch rules (metadata.answered anonymous named) = allMatch rules metadata ∧
      anyMatch rules (metadata.answered anonymous named) = anyMatch rules metadata := by
  match rules with
  | [] => exact ⟨rfl, rfl⟩
  | rule :: rest =>
      obtain ⟨all, any⟩ := matches_answered rest metadata indifferent
      unfold allMatch anyMatch
      rw [isMatch_answered rule metadata indifferent, all, any]
      exact ⟨rfl, rfl⟩

end

end HeadlessRule

theorem RuleSetItem.matchWithOuterGroups_answered (item : RuleSetItem)
    (indifferent : SetsIndifferent metadata anonymous) (groups : RuleGroupMatch) :
    item.matchWithOuterGroups (metadata.answered anonymous named) groups =
      item.matchWithOuterGroups metadata groups := by
  have nested : item.nestedMetadata (metadata.answered anonymous named) =
      (item.nestedMetadata metadata).answered anonymous named := rfl
  have each (ruleSet : RuleSet) : item.matchRuleSet (metadata.answered anonymous named) groups ruleSet =
      item.matchRuleSet metadata groups ruleSet := by
    unfold RuleSetItem.matchRuleSet
    rw [nested]
    cases mergeableRuleIn ruleSet.rules with
    | some branch =>
        have indifferentBranch :
            branch.toRuleItems.Indifferent (item.nestedMetadata metadata) anonymous :=
          indifferent.imp_right fun elsewhere => ⟨elsewhere, branch.deaf⟩
        simp only [RuleItems.evaluateForMerge_answered named indifferentBranch]
    | none =>
        exact congrArg (groups.done && ·) (HeadlessRule.matches_answered named ruleSet.rules
          (item.nestedMetadata metadata).resetRuleMatchCache indifferent).2
  unfold RuleSetItem.matchWithOuterGroups
  rw [funext each]

theorem AbstractDefaultRule.isMatch_answered (rule : AbstractDefaultRule)
    (indifferent : rule.toRuleItems.Indifferent metadata anonymous) :
    rule.isMatch (metadata.answered anonymous named) = rule.isMatch metadata := by
  cases referenced : rule.ruleSetItem with
  | none =>
      unfold AbstractDefaultRule.isMatch
      rw [referenced]
      exact RuleItems.isMatch_answered named indifferent
  | some item =>
      rw [rule.isMatch_some item referenced, rule.isMatch_some item referenced,
        RuleItems.itemsMatch_answered named indifferent, RuleItems.words_answered named indifferent,
        item.matchWithOuterGroups_answered named (indifferent.imp_right And.left)]

end Items

namespace DNSRule

mutual

/-- Without `match_response` a rule has no response items. -/
def ReadsBound : DNSRule → Prop
  | .default rule => rule.matchResponse = false → rule.toRuleItems.Deaf
  | .logical _ rules _ _ _ => AllReadBound rules

def AllReadBound : List DNSRule → Prop
  | [] => True
  | rule :: rest => rule.ReadsBound ∧ AllReadBound rest

end

/-- The two metadata agree on what the rule binds. -/
structure Agrees (tags : List String) (bindsAnonymous : Bool) (metadata : InboundContext)
    (anonymous : Option Msg) (named : String → Option Msg) : Prop where
  elsewhere : metadata.destinationAddressMatchFromResponse = false
  anonymous : bindsAnonymous = true → metadata.dnsResponse = anonymous
  named : ∀ tag ∈ tags, metadata.namedDNSResponses tag = named tag

variable {metadata : InboundContext} {named : String → Option Msg}

theorem Agrees.of_cons {rule : DNSRule} {rest : List DNSRule} {anonymous : Option Msg}
    (agrees : Agrees (allMatchResponseTags (rule :: rest)) (anyMatchResponseAnonymous (rule :: rest))
      metadata anonymous named) :
    Agrees rule.matchResponseTags rule.matchResponseAnonymous metadata anonymous named ∧
      Agrees (allMatchResponseTags rest) (anyMatchResponseAnonymous rest) metadata anonymous named := by
  refine ⟨⟨agrees.elsewhere, fun binds => agrees.anonymous ?_, fun tag member => agrees.named tag ?_⟩,
    agrees.elsewhere, fun binds => agrees.anonymous ?_, fun tag member => agrees.named tag ?_⟩
  all_goals simp [anyMatchResponseAnonymous, allMatchResponseTags, *]

theorem isMatch_default_answered {rule : DefaultDNSRule} {anonymous : Option Msg}
    (reads : (DNSRule.default rule).ReadsBound) (agrees : Agrees (DNSRule.default rule).matchResponseTags
      (DNSRule.default rule).matchResponseAnonymous metadata anonymous named) :
    rule.matchForMatch (metadata.answered anonymous named) = rule.matchForMatch metadata := by
  unfold DefaultDNSRule.matchForMatch
  cases binds : rule.matchResponse with
  | false =>
      exact rule.toAbstractDefaultRule.isMatch_answered named (.inr ⟨agrees.elsewhere, reads binds⟩)
  | true =>
      -- the response that is looked up decides, and the rest is not looked at
      have sameSource : (if rule.matchResponseTag ≠ "" then
            (metadata.answered anonymous named).namedDNSResponses rule.matchResponseTag
          else (metadata.answered anonymous named).dnsResponse) =
          if rule.matchResponseTag ≠ "" then metadata.namedDNSResponses rule.matchResponseTag
          else metadata.dnsResponse := by
        by_cases untagged : rule.matchResponseTag = ""
        · rw [if_neg (not_not.2 untagged), if_neg (not_not.2 untagged)]
          exact (agrees.anonymous (by simp [matchResponseAnonymous, binds, untagged])).symm
        · rw [if_pos untagged, if_pos untagged]
          exact (agrees.named rule.matchResponseTag (by simp [matchResponseTags, untagged])).symm
      have sameVerdict (message : Msg) :
          rule.isMatch ((metadata.answered anonymous named).withResponse message) =
            rule.isMatch (metadata.withResponse message) :=
        @AbstractDefaultRule.isMatch_answered (metadata.withResponse message) (some message) named
          rule.toAbstractDefaultRule (.inl rfl)
      simp only [if_true, sameSource, sameVerdict]

mutual

/-- **A rule reads only the responses it binds.** -/
theorem isMatch_answered (rule : DNSRule) (metadata : InboundContext) {anonymous : Option Msg}
    {named : String → Option Msg} (reads : rule.ReadsBound)
    (agrees : Agrees rule.matchResponseTags rule.matchResponseAnonymous metadata anonymous named) :
    rule.isMatch (metadata.answered anonymous named) = rule.isMatch metadata := by
  match rule with
  | .default defaultRule =>
      unfold isMatch
      exact isMatch_default_answered reads agrees
  | .logical mode rules invert action race =>
      unfold isMatch
      have subRules : Agrees (allMatchResponseTags rules) (anyMatchResponseAnonymous rules)
          metadata.resetRuleCache anonymous named := by
        refine ⟨agrees.elsewhere, fun binds => agrees.anonymous ?_, fun tag member => agrees.named tag ?_⟩
        · rw [matchResponseAnonymous]
          exact binds
        · rw [matchResponseTags]
          exact List.mem_eraseDups.2 member
      obtain ⟨all, any⟩ := matches_answered rules metadata.resetRuleCache
        (by simpa [ReadsBound] using reads) subRules
      cases mode with
      | and => exact congrArg (fun matched : Bool => if invert then !matched else matched) all
      | or => exact congrArg (fun matched : Bool => if invert then !matched else matched) any

theorem matches_answered (rules : List DNSRule) (metadata : InboundContext) {anonymous : Option Msg}
    {named : String → Option Msg} (reads : AllReadBound rules)
    (agrees : Agrees (allMatchResponseTags rules) (anyMatchResponseAnonymous rules) metadata anonymous
      named) :
    allMatch rules (metadata.answered anonymous named) = allMatch rules metadata ∧
      anyMatch rules (metadata.answered anonymous named) = anyMatch rules metadata := by
  match rules with
  | [] => exact ⟨rfl, rfl⟩
  | rule :: rest =>
      unfold AllReadBound at reads
      obtain ⟨all, any⟩ := matches_answered rest metadata reads.2 agrees.of_cons.2
      unfold allMatch anyMatch
      rw [isMatch_answered rule metadata reads.1 agrees.of_cons.1, all, any]
      exact ⟨rfl, rfl⟩

end

end DNSRule

end SideraCore.Rule
