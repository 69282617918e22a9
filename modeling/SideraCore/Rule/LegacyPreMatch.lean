import SideraCore.Data.Clauses
import SideraCore.Dns.Client.Response
import SideraCore.Rule.DnsRule
import SideraCore.Rule.Merge

/-!
Owns the relation between the two evaluations of legacy mode: `LegacyPreMatch`
before the lookup, which leaves the conditions on the destination address out,
and `MatchAddressLimit` on the response.

A rule tree accepts a response by its addresses only, and what the query leaves open
is a condition on them (`DNSRule.residue`), whose clauses say which addresses would be
accepted. In a default rule, leaving a condition out makes a group easier to satisfy,
or impossible if another condition of the group fails.
-/

namespace SideraCore.Rule

open Data Dns Rule.Group HeadlessRule

/-! ### Conditions on the two sides of a lookup -/

/-- For each group the verdicts from before the lookup, and the tests that wait for the
response. -/
structure Sides where
  immediate : Group → List Bool
  deferred : Group → List (Msg → Bool)

namespace Sides

/-- Every group with a condition before the lookup has one that holds. -/
def Before (sides : Sides) : Prop :=
  ∀ group, sides.immediate group ≠ [] → true ∈ sides.immediate group

/-- Every group with a condition has one that holds with the response. -/
def After (sides : Sides) (response : Msg) : Prop :=
  ∀ group, sides.immediate group ≠ [] ∨ sides.deferred group ≠ [] →
    true ∈ sides.immediate group ∨ ∃ test ∈ sides.deferred group, test response = true

/-- A group has verdicts, all in vain, though others wait for the response, and no group
is hopeless. -/
def Blocks (sides : Sides) : Prop :=
  (∀ group, sides.immediate group ≠ [] →
      true ∈ sides.immediate group ∨ sides.deferred group ≠ []) ∧
    ∃ group, sides.deferred group ≠ [] ∧ sides.immediate group ≠ [] ∧ true ∉ sides.immediate group

def DefersAlone (sides : Sides) : Prop :=
  ∃ group, sides.deferred group ≠ [] ∧ sides.immediate group = []

variable {sides : Sides}

/-- The groups block if some response is accepted that they did not let pass. -/
theorem blocks_iff
    (satisfiable : ∀ group, ∀ test ∈ sides.deferred group, ∃ response, test response = true)
    (only : ∀ first second, sides.deferred first ≠ [] → sides.deferred second ≠ [] → first = second) :
    sides.Blocks ↔ (∃ response, sides.After response) ∧ ¬sides.Before := by
  constructor
  · rintro ⟨hopeful, group, waiting, present, unmatched⟩
    obtain ⟨test, member⟩ := List.exists_mem_of_ne_nil _ waiting
    obtain ⟨response, accepts⟩ := satisfiable group test member
    refine ⟨⟨response, fun other occupied => ?_⟩, fun before => unmatched (before group present)⟩
    by_cases waits : sides.deferred other ≠ []
    · obtain rfl := only group other waiting waits
      exact .inr ⟨test, member, accepts⟩
    · exact .inl ((hopeful other (occupied.resolve_right waits)).resolve_right waits)
  · rintro ⟨⟨response, after⟩, dropped⟩
    have hopeful (group : Group) (present : sides.immediate group ≠ []) :
        true ∈ sides.immediate group ∨ sides.deferred group ≠ [] :=
      (after group (.inl present)).imp_right fun ⟨_, member, _⟩ => List.ne_nil_of_mem member
    simp only [Before, not_forall] at dropped
    obtain ⟨group, present, unmatched⟩ := dropped
    exact ⟨hopeful, group, (hopeful group present).resolve_left unmatched, present, unmatched⟩

theorem defersAlone_iff (before : sides.Before) {silent : Msg}
    (refuses : ∀ group, ∀ test ∈ sides.deferred group, test silent = false) :
    sides.DefersAlone ↔ ∃ response, ¬sides.After response := by
  constructor
  · rintro ⟨group, waiting, vacant⟩
    refine ⟨silent, fun after => ?_⟩
    rcases after group (.inr waiting) with matched | ⟨test, member, accepts⟩
    · rw [vacant] at matched
      cases matched
    · rw [refuses group test member] at accepts
      cases accepts
  · rintro ⟨response, refused⟩
    simp only [After, not_forall, not_or] at refused
    obtain ⟨group, present, unmatched, -⟩ := refused
    have vacant : sides.immediate group = [] := by
      by_contra evaluated
      exact unmatched (before group evaluated)
    exact ⟨group, present.resolve_left (absurd vacant), vacant⟩

end Sides

/-! ### The sides of a rule -/

/-- The item does not look at the response or at the destination address. -/
def RuleItem.beforeLookup : RuleItem → Bool
  | .connection _ => true
  | .ipCIDR _ isSource => isSource
  | .ipIsPrivate _ isSource => isSource
  | _ => false

/-- The item looks at the destination address, which a response supplies. -/
def RuleItem.afterLookup : RuleItem → Bool
  | .ipCIDR _ isSource => !isSource
  | .ipIsPrivate _ isSource => !isSource
  | .ipAcceptAny => true
  | _ => false

theorem RuleItem.isMatch_withResponse (item : RuleItem) (metadata : InboundContext) (response : Msg)
    (known : item.beforeLookup = true) :
    item.isMatch (metadata.withResponse response) = item.isMatch metadata := by
  cases item with
  | connection test => rfl
  | ipCIDR ipSet isSource | ipIsPrivate isPublicAddr isSource =>
      cases known
      rfl
  | ipAcceptAny | responseRCode rcode | responseRecord section_ records => cases known

namespace RuleItems

/-- Only the `ip_cidr` list looks at the destination address, and no item at the
response otherwise. -/
@[mk_iff]
structure Staged (rule : RuleItems) : Prop where
  items : ∀ item ∈ rule.items, item.beforeLookup = true
  sourceAddress : ∀ item ∈ rule.sourceAddressItems, item.beforeLookup = true
  sourcePort : ∀ item ∈ rule.sourcePortItems, item.beforeLookup = true
  destinationAddress : ∀ item ∈ rule.destinationAddressItems, item.beforeLookup = true
  destinationPort : ∀ item ∈ rule.destinationPortItems, item.beforeLookup = true
  destinationIPCIDR : ∀ item ∈ rule.destinationIPCIDRItems, item.afterLookup = true

instance (rule : RuleItems) : Decidable rule.Staged := decidable_of_iff' _ (staged_iff rule)

variable (rule : RuleItems) (metadata : InboundContext)

def deferredItems (group : Group) : List RuleItem :=
  if group = (if metadata.ipCidrMatchSource then .sourceAddress else .destinationAddress) then
    rule.destinationIPCIDRItems
  else []

def sides : Sides where
  immediate group :=
    (rule.groupItems metadata.deferDestination group).map fun item => item.isMatch metadata
  deferred group :=
    (rule.deferredItems metadata group).map fun item response =>
      item.isMatch (metadata.withResponse response)

section

variable {rule : RuleItems} (metadata : InboundContext) (response : Msg)

theorem beforeLookup_of_mem (staged : rule.Staged) {group : Group} {item : RuleItem}
    (member : item ∈ rule.groupItems metadata.deferDestination group) : item.beforeLookup = true := by
  unfold groupItems InboundContext.deferDestination at member
  cases group with
  | sourceAddress => exact staged.sourceAddress item (by simpa using member)
  | sourcePort => exact staged.sourcePort item member
  | destinationAddress => exact staged.destinationAddress item (by simpa using member)
  | destinationPort => exact staged.destinationPort item member

theorem required_deferDestination (group : Group) :
    rule.required metadata.deferDestination group = true ↔
      (rule.sides metadata).immediate group ≠ [] := by
  rw [required_iff]
  simp [sides]

theorem satisfied_deferDestination (group : Group) :
    rule.satisfied metadata.deferDestination group = true ↔
      true ∈ (rule.sides metadata).immediate group := by
  rw [satisfied_iff]
  simp [sides, InboundContext.deferDestination]

theorem itemsMatch_deferDestination :
    rule.itemsMatch metadata.deferDestination = rule.itemsMatch metadata := by
  simp [itemsMatch, InboundContext.deferDestination]

theorem itemsMatch_withResponse (staged : rule.Staged) :
    rule.itemsMatch (metadata.withResponse response) = rule.itemsMatch metadata := by
  rw [Bool.eq_iff_iff, itemsMatch, itemsMatch, List.all_eq_true, List.all_eq_true]
  refine forall₂_congr fun item member => ?_
  rw [RuleItem.isMatch_withResponse item metadata response (staged.items item member)]

theorem groupsDone_deferDestination :
    rule.groupsDone metadata.deferDestination = true ↔ (rule.sides metadata).Before := by
  rw [groupsDone_iff]
  simp only [required_deferDestination, satisfied_deferDestination, Sides.Before]

variable {metadata} (undeferred : metadata.ignoreDestinationIPCIDRMatch = false)
include undeferred

theorem groupItems_withResponse (group : Group) :
    rule.groupItems (metadata.withResponse response) group =
      rule.groupItems metadata.deferDestination group ++ rule.deferredItems metadata group := by
  unfold groupItems deferredItems InboundContext.withResponse InboundContext.deferDestination
  cases source : metadata.ipCidrMatchSource <;> cases group <;> simp [undeferred]

theorem required_withResponse (group : Group) :
    rule.required (metadata.withResponse response) group = true ↔
      (rule.sides metadata).immediate group ≠ [] ∨ (rule.sides metadata).deferred group ≠ [] := by
  rw [required_iff, groupItems_withResponse response undeferred]
  simp only [sides, ne_eq, List.append_eq_nil_iff, List.map_eq_nil_iff]
  tauto

theorem satisfied_withResponse (staged : rule.Staged) (group : Group) :
    rule.satisfied (metadata.withResponse response) group = true ↔
      true ∈ (rule.sides metadata).immediate group ∨
        ∃ test ∈ (rule.sides metadata).deferred group, test response = true := by
  rw [satisfied_iff, groupItems_withResponse response undeferred]
  simp only [sides, List.mem_append, List.mem_map, exists_exists_and_eq_and, or_and_right, exists_or]
  refine or_congr (exists_congr fun item => and_congr_right fun member => ?_) Iff.rfl
  rw [RuleItem.isMatch_withResponse item metadata response (beforeLookup_of_mem metadata staged member)]

theorem groupsDone_withResponse (staged : rule.Staged) :
    rule.groupsDone (metadata.withResponse response) = true ↔
      (rule.sides metadata).After response := by
  rw [groupsDone_iff]
  simp only [required_withResponse response undeferred,
    satisfied_withResponse response undeferred staged, Sides.After]

end

/-! ### Rules without rule-sets -/

/-- The query satisfies what can be evaluated, so that the response decides, yet the
rule does not pass. An inverted rule that evaluates nothing does. -/
def Drops : Prop :=
  rule.itemsMatch metadata = true ∧
    if rule.invert then
      (rule.sides metadata).Before ∧ (rule.sides metadata).DefersAlone ∧
        rule.evaluates metadata.deferDestination = true
    else (rule.sides metadata).Blocks

section

variable {rule : RuleItems} {metadata : InboundContext} {response : Msg}

theorem isMatch_deferDestination (fresh : metadata.didMatch = false) (nonempty : rule.isEmpty = false) :
    rule.isMatch none metadata.deferDestination =
      (let inner := rule.itemsMatch metadata && rule.groupsDone metadata.deferDestination
      if rule.invert then
        !inner || (!rule.evaluates metadata.deferDestination && !rule.destinationIPCIDRItems.isEmpty)
      else inner) := by
  have ignored : metadata.deferDestination.ignoreDestinationIPCIDRMatch = true := rfl
  have start : metadata.deferDestination.didMatch = false := fresh
  unfold isMatch
  simp only [nonempty, Bool.false_and, Bool.false_eq_true, ↓reduceIte, matchInner_none,
    itemsMatch_deferDestination, ignored, start, Bool.false_or, Bool.and_true]
  generalize (rule.itemsMatch metadata && rule.groupsDone metadata.deferDestination) = inner,
    rule.evaluates metadata.deferDestination = evaluated, rule.destinationIPCIDRItems.isEmpty = none
  cases rule.invert <;> cases inner <;> cases evaluated <;> cases none <;> rfl

theorem isMatch_withResponse (staged : rule.Staged)
    (undeferred : metadata.ignoreDestinationIPCIDRMatch = false) (nonempty : rule.isEmpty = false) :
    rule.isMatch none (metadata.withResponse response) =
      (let inner := rule.itemsMatch metadata && rule.groupsDone (metadata.withResponse response)
      if rule.invert then !inner else inner) := by
  have kept : (metadata.withResponse response).ignoreDestinationIPCIDRMatch = false := undeferred
  unfold isMatch
  simp only [nonempty, Bool.false_and, Bool.false_eq_true, ↓reduceIte, matchInner_none,
    itemsMatch_withResponse metadata response staged, kept, Bool.and_false]

end

end RuleItems

/-! ### What the query leaves open -/

namespace RuleItem

/-- The item as a condition on the addresses of the response. -/
def residue (item : RuleItem) (metadata : InboundContext) : Condition Addr :=
  match item with
  | .ipCIDR ipSet false =>
      if metadata.ipCidrMatchSource then .known (ipSet metadata.source.addr)
      else .asks ⟨ipSet, metadata.ipCidrAcceptEmpty⟩
  | .ipIsPrivate isPublicAddr false => .asks ⟨fun address => !isPublicAddr address, false⟩
  | .ipAcceptAny => .asks ⟨fun _ => true, false⟩
  | other => .known (other.isMatch metadata)

theorem eval_residue {item : RuleItem} (staged : item.beforeLookup = true ∨ item.afterLookup = true)
    (metadata : InboundContext) (response : Msg) :
    (item.residue metadata).eval (dnsResponseAddresses (some response)) =
      item.isMatch (metadata.withResponse response) := by
  have addresses : (metadata.withResponse response).dnsResponseAddressesForMatch =
      dnsResponseAddresses (some response) := rfl
  have fromResponse : (metadata.withResponse response).destinationAddressMatchFromResponse = true := rfl
  cases item with
  | connection test => rfl
  | ipCIDR ipSet isSource =>
      cases isSource with
      | true => rfl
      | false =>
          simp only [residue, isMatch, matchIPCIDR, addresses, fromResponse, if_true, Bool.false_or]
          cases source : metadata.ipCidrMatchSource <;>
            simp [source, Condition.eval, Probe.holds, InboundContext.withResponse]
  | ipIsPrivate isPublicAddr isSource =>
      cases isSource with
      | true => rfl
      | false =>
          simp only [residue, isMatch, matchIPIsPrivate, addresses, fromResponse, if_true,
            Bool.false_eq_true, if_false, Condition.eval, Probe.holds]
          cases dnsResponseAddresses (some response) <;> rfl
  | ipAcceptAny =>
      simp only [residue, isMatch, matchIPAcceptAny, addresses, fromResponse, if_true, Condition.eval,
        Probe.holds]
      cases dnsResponseAddresses (some response) <;> simp
  | responseRCode rcode | responseRecord section_ records => rcases staged with known | known <;> cases known

end RuleItem

def groupsResidue (alternatives : Group → List (Condition Addr)) : Condition Addr :=
  .all ([Group.sourceAddress, .sourcePort, .destinationAddress, .destinationPort].map fun group =>
    if (alternatives group).isEmpty then .known true else .any (alternatives group))

theorem eval_groupsResidue (alternatives : Group → List (Condition Addr)) (addresses : List Addr) :
    (groupsResidue alternatives).eval addresses = true ↔
      ∀ group, alternatives group ≠ [] →
        ∃ condition ∈ alternatives group, condition.eval addresses = true := by
  have one (group : Group) :
      (if (alternatives group).isEmpty then .known true
        else .any (alternatives group) : Condition Addr).eval addresses = true ↔
      (alternatives group ≠ [] → ∃ condition ∈ alternatives group, condition.eval addresses = true) := by
    cases listed : alternatives group with
    | nil => simp [Condition.eval]
    | cons first rest => simp [Condition.eval_any]
  simp only [groupsResidue, Condition.eval_all, List.map_cons, List.map_nil, List.all_cons, List.all_nil,
    Bool.and_eq_true, one, and_true]
  constructor
  · rintro ⟨sourceAddress, sourcePort, destinationAddress, destinationPort⟩ group
    cases group <;> assumption
  · intro all
    exact ⟨all _, all _, all _, all _⟩

namespace RuleItems

def alternatives (rule : RuleItems) (metadata : InboundContext) (group : Group) : List (Condition Addr) :=
  (rule.groupItems metadata group).map fun item => item.residue metadata

def residue (rule : RuleItems) (metadata : InboundContext) : Condition Addr :=
  if rule.isEmpty then .known true
  else (Condition.and (.known (rule.itemsMatch metadata))
    (groupsResidue (rule.alternatives metadata))).negateIf rule.invert

variable {rule : RuleItems} {metadata : InboundContext} {response : Msg}

theorem required_iff_alternatives (group : Group) :
    rule.required (metadata.withResponse response) group = true ↔ rule.alternatives metadata group ≠ [] := by
  rw [required_iff, alternatives, ne_eq, ne_eq, List.map_eq_nil_iff]
  rfl

variable (staged : rule.Staged)
include staged

theorem satisfied_iff_alternatives (group : Group) :
    rule.satisfied (metadata.withResponse response) group = true ↔
      ∃ condition ∈ rule.alternatives metadata group,
        condition.eval (dnsResponseAddresses (some response)) = true := by
  simp only [satisfied_iff, alternatives, List.mem_map, exists_exists_and_eq_and]
  refine exists_congr fun item => and_congr_right fun member => ?_
  rw [RuleItem.eval_residue]
  unfold groupItems at member
  cases group with
  | sourcePort => exact .inl (staged.sourcePort item member)
  | destinationPort => exact .inl (staged.destinationPort item member)
  | sourceAddress =>
      rcases List.mem_append.1 member with own | filter
      · exact .inl (staged.sourceAddress item own)
      · split at filter
        · exact .inr (staged.destinationIPCIDR item filter)
        · cases filter
  | destinationAddress =>
      rcases List.mem_append.1 member with own | filter
      · exact .inl (staged.destinationAddress item own)
      · split at filter
        · exact .inr (staged.destinationIPCIDR item filter)
        · cases filter

theorem eval_groups : (groupsResidue (rule.alternatives metadata)).eval (dnsResponseAddresses (some response)) =
    rule.groupsDone (metadata.withResponse response) := by
  rw [Bool.eq_iff_iff, eval_groupsResidue, groupsDone_iff]
  simp only [required_iff_alternatives, satisfied_iff_alternatives staged]

theorem eval_residue (undeferred : metadata.ignoreDestinationIPCIDRMatch = false) :
    (rule.residue metadata).eval (dnsResponseAddresses (some response)) =
      rule.isMatch none (metadata.withResponse response) := by
  unfold residue
  cases vacant : rule.isEmpty with
  | true => simp [Condition.eval, isMatch, vacant]
  | false =>
      rw [isMatch_withResponse staged undeferred vacant, ← eval_groups staged]
      simp [Condition.eval]

end RuleItems

theorem DefaultHeadlessRule.staged (rule : DefaultHeadlessRule) : rule.toRuleItems.Staged where
  items := by
    intro item member
    simp only [toRuleItems, List.mem_append, List.mem_map] at member
    rcases member with listed | ⟨test, -, rfl⟩
    · split at listed
      · cases listed
      · rw [List.mem_singleton.mp listed]
        rfl
    · rfl
  sourceAddress := List.forall_mem_map.2 fun _ _ => rfl
  sourcePort := List.forall_mem_map.2 fun _ _ => rfl
  destinationAddress := List.forall_mem_map.2 fun _ _ => rfl
  destinationPort := List.forall_mem_map.2 fun _ _ => rfl
  destinationIPCIDR := List.forall_mem_map.2 fun _ _ => rfl

def LogicalMode.join : LogicalMode → List (Condition Addr) → Condition Addr
  | .and => .all
  | .or => .any

theorem LogicalMode.eval_join (mode : LogicalMode) (conditions : List (Condition Addr))
    (addresses : List Addr) :
    (mode.join conditions).eval addresses =
      match mode with
      | .and => conditions.all (·.eval addresses)
      | .or => conditions.any (·.eval addresses) := by
  cases mode with
  | and => exact Condition.eval_all addresses conditions
  | or => exact Condition.eval_any addresses conditions

mutual

def HeadlessRule.residue : HeadlessRule → InboundContext → Condition Addr
  | .default rule, metadata => rule.toRuleItems.residue metadata
  | .logical mode invert rules, metadata =>
      (mode.join (residues rules metadata.resetRuleCache)).negateIf invert

def HeadlessRule.residues : List HeadlessRule → InboundContext → List (Condition Addr)
  | [], _ => []
  | rule :: rest, metadata => rule.residue metadata :: residues rest metadata

end

section

variable (response : Msg)

mutual

theorem HeadlessRule.eval_residue (rule : HeadlessRule) (metadata : InboundContext)
    (undeferred : metadata.ignoreDestinationIPCIDRMatch = false) :
    (rule.residue metadata).eval (dnsResponseAddresses (some response)) =
      rule.isMatch (metadata.withResponse response) := by
  match rule with
  | .default defaultRule =>
      unfold residue isMatch
      exact RuleItems.eval_residue defaultRule.staged undeferred
  | .logical mode invert rules =>
      obtain ⟨all, any⟩ := eval_residues rules metadata.resetRuleCache undeferred
      unfold residue isMatch
      rw [Condition.eval_negateIf, LogicalMode.eval_join, all, any]
      rfl

theorem HeadlessRule.eval_residues (rules : List HeadlessRule) (metadata : InboundContext)
    (undeferred : metadata.ignoreDestinationIPCIDRMatch = false) :
    (residues rules metadata).all (·.eval (dnsResponseAddresses (some response))) =
        allMatch rules (metadata.withResponse response) ∧
      (residues rules metadata).any (·.eval (dnsResponseAddresses (some response))) =
        anyMatch rules (metadata.withResponse response) := by
  match rules with
  | [] => exact ⟨rfl, rfl⟩
  | rule :: rest =>
      obtain ⟨all, any⟩ := eval_residues rest metadata undeferred
      have first := eval_residue rule metadata undeferred
      unfold residues allMatch anyMatch
      rw [List.all_cons, List.any_cons, first, all, any]
      exact ⟨rfl, rfl⟩

end

end

/-- A set of one default rule without `invert` shares its groups with the outer rule;
any other stands alone. -/
def RuleSet.residue (ruleSet : RuleSet) (outer : RuleItems) (item : RuleSetItem)
    (metadata : InboundContext) : Condition Addr :=
  match mergeableRuleIn ruleSet.rules with
  | some branch =>
      .and (.known (branch.toRuleItems.itemsMatch (item.nestedMetadata metadata)))
        (groupsResidue fun group => outer.alternatives metadata group ++
          branch.toRuleItems.alternatives (item.nestedMetadata metadata) group)
  | none =>
      .and (groupsResidue (outer.alternatives metadata))
        (.any (residues ruleSet.rules (item.nestedMetadata metadata)))

theorem RuleSet.eval_residue (ruleSet : RuleSet) {outer : RuleItems} (item : RuleSetItem)
    (metadata : InboundContext) (response : Msg) (staged : outer.Staged)
    (undeferred : metadata.ignoreDestinationIPCIDRMatch = false) :
    (ruleSet.residue outer item metadata).eval (dnsResponseAddresses (some response)) =
      item.matchRuleSet (metadata.withResponse response)
        ⟨word (outer.required (metadata.withResponse response)),
          word (outer.satisfied (metadata.withResponse response))⟩ ruleSet := by
  have nested : item.nestedMetadata (metadata.withResponse response) =
      (item.nestedMetadata metadata).withResponse response := rfl
  unfold RuleSet.residue RuleSetItem.matchRuleSet
  rw [nested]
  cases merged : mergeableRuleIn ruleSet.rules with
  | some branch =>
      simp only [RuleItems.evaluateForMerge_eq, Condition.eval,
        RuleItems.itemsMatch_withResponse _ response branch.staged]
      by_cases items : branch.toRuleItems.itemsMatch (item.nestedMetadata metadata) = true
      · -- Merged, a group has the alternatives of both rules.
        simp only [items, ↓reduceIte, Bool.true_and]
        rw [Bool.eq_iff_iff, eval_groupsResidue, done_mergeWith]
        simp only [Bool.or_eq_true, RuleItems.required_iff_alternatives,
          RuleItems.satisfied_iff_alternatives staged, RuleItems.satisfied_iff_alternatives branch.staged,
          ne_eq, List.append_eq_nil_iff, List.mem_append, or_and_right, exists_or, not_and_or]
      · simp [items]
  | none =>
      have own := (eval_residues response ruleSet.rules (item.nestedMetadata metadata) undeferred).2
      simp only [Condition.eval, Condition.eval_any, RuleItems.eval_groups staged, own]
      rfl

def AbstractDefaultRule.residue (rule : AbstractDefaultRule) (metadata : InboundContext) : Condition Addr :=
  match rule.ruleSetItem with
  | none => rule.toRuleItems.residue metadata
  | some item =>
      (Condition.and (.known (rule.itemsMatch metadata))
        (.any (item.setList.map fun ruleSet => ruleSet.residue rule.toRuleItems item metadata))).negateIf
          rule.invert

theorem AbstractDefaultRule.isMatch_none {rule : AbstractDefaultRule} (unreferenced : rule.ruleSetItem = none)
    (metadata : InboundContext) : rule.isMatch metadata = rule.toRuleItems.isMatch none metadata := by
  rw [AbstractDefaultRule.isMatch, unreferenced]
  rfl

theorem AbstractDefaultRule.eval_residue (rule : AbstractDefaultRule) (metadata : InboundContext)
    (response : Msg) (staged : rule.toRuleItems.Staged)
    (undeferred : metadata.ignoreDestinationIPCIDRMatch = false) :
    (rule.residue metadata).eval (dnsResponseAddresses (some response)) =
      rule.isMatch (metadata.withResponse response) := by
  unfold residue
  cases referenced : rule.ruleSetItem with
  | none =>
      rw [isMatch_none referenced]
      exact RuleItems.eval_residue staged undeferred
  | some item =>
      have sets : (fun ruleSet : RuleSet => (ruleSet.residue rule.toRuleItems item metadata).eval
          (dnsResponseAddresses (some response))) = _ :=
        funext fun ruleSet => ruleSet.eval_residue item metadata response staged undeferred
      rw [rule.isMatch_some item referenced]
      simp only [Condition.eval_negateIf, Condition.eval, Condition.eval_any, List.any_map,
        Function.comp_def, sets, RuleItems.itemsMatch_withResponse metadata response staged,
        RuleSetItem.matchWithOuterGroups]

namespace DNSRule

mutual

/-- The rules that legacy mode builds: only the address conditions look at a response. -/
def Legacy : DNSRule → Prop
  | .default rule => rule.matchResponse = false ∧ rule.toRuleItems.Staged
  | .logical _ rules _ _ _ => AllLegacy rules

def AllLegacy : List DNSRule → Prop
  | [] => True
  | rule :: rest => rule.Legacy ∧ AllLegacy rest

end

mutual

/-- What a query leaves open: on which addresses the rule accepts a response. -/
def residue : DNSRule → InboundContext → Condition Addr
  | .default rule, metadata => rule.toAbstractDefaultRule.residue metadata
  | .logical mode rules invert _ _, metadata =>
      (mode.join (residues rules metadata.resetRuleCache)).negateIf invert

def residues : List DNSRule → InboundContext → List (Condition Addr)
  | [], _ => []
  | rule :: rest, metadata => rule.residue metadata :: residues rest metadata

end

section

variable (response : Msg)

mutual

theorem eval_residue (rule : DNSRule) (metadata : InboundContext) (legacy : rule.Legacy)
    (undeferred : metadata.ignoreDestinationIPCIDRMatch = false) :
    (rule.residue metadata).eval (dnsResponseAddresses (some response)) =
      rule.isMatch (metadata.withResponse response) := by
  match rule with
  | .default defaultRule =>
      unfold Legacy at legacy
      unfold residue isMatch DefaultDNSRule.matchForMatch
      rw [legacy.1]
      exact defaultRule.eval_residue metadata response legacy.2 undeferred
  | .logical mode rules invert _ _ =>
      unfold Legacy at legacy
      obtain ⟨all, any⟩ := eval_residues rules metadata.resetRuleCache legacy undeferred
      unfold residue isMatch
      rw [Condition.eval_negateIf, LogicalMode.eval_join, all, any]
      rfl

theorem eval_residues (rules : List DNSRule) (metadata : InboundContext) (legacy : AllLegacy rules)
    (undeferred : metadata.ignoreDestinationIPCIDRMatch = false) :
    (residues rules metadata).all (·.eval (dnsResponseAddresses (some response))) =
        allMatch rules (metadata.withResponse response) ∧
      (residues rules metadata).any (·.eval (dnsResponseAddresses (some response))) =
        anyMatch rules (metadata.withResponse response) := by
  match rules with
  | [] => exact ⟨rfl, rfl⟩
  | rule :: rest =>
      unfold AllLegacy at legacy
      obtain ⟨all, any⟩ := eval_residues rest metadata legacy.2 undeferred
      have first := eval_residue rule metadata legacy.1 undeferred
      unfold residues allMatch anyMatch
      rw [List.all_cons, List.any_cons, first, all, any]
      exact ⟨rfl, rfl⟩

end

end

theorem matchAddressLimit_eq {rule : DNSRule} (legacy : rule.Legacy) (metadata : InboundContext)
    (response : Msg) :
    rule.matchAddressLimit metadata response = rule.isMatch (metadata.withResponse response) := by
  cases rule with
  | default defaultRule =>
      simp [matchAddressLimit, isMatch, DefaultDNSRule.matchForMatch, legacy.1]
  | logical mode rules invert action race => rfl

end DNSRule

/-! ### Default rules: the condition is exact -/

namespace RuleItems

variable {rule : RuleItems} {metadata : InboundContext}

theorem isMatch_withResponse_zero (staged : rule.Staged) {item : RuleItem}
    (member : item ∈ rule.destinationIPCIDRItems) :
    item.isMatch (metadata.resetRuleCache.withResponse Msg.zero) = false := by
  have waits := staged.destinationIPCIDR item member
  cases item with
  | ipCIDR ipSet isSource | ipIsPrivate isPublicAddr isSource =>
      rw [RuleItem.afterLookup, Bool.not_eq_true'] at waits
      subst waits
      rfl
  | ipAcceptAny => rfl
  | responseRCode rcode | responseRecord section_ records | connection test => cases waits

theorem mem_deferred {group : Group} {test : Msg → Bool}
    (member : test ∈ (rule.sides metadata).deferred group) :
    group = (if metadata.ipCidrMatchSource then .sourceAddress else .destinationAddress) ∧
      ∃ item ∈ rule.destinationIPCIDRItems, (fun response => item.isMatch (metadata.withResponse response)) = test := by
  obtain ⟨item, listed, same⟩ := List.mem_map.1 member
  obtain ⟨own, filter⟩ := List.mem_ite_nil_right.1 listed
  exact ⟨own, item, filter, same⟩

theorem deferred_ne_nil {group : Group} (waits : (rule.sides metadata).deferred group ≠ []) :
    group = (if metadata.ipCidrMatchSource then .sourceAddress else .destinationAddress) ∧
      rule.destinationIPCIDRItems ≠ [] := by
  obtain ⟨test, member⟩ := List.exists_mem_of_ne_nil _ waits
  obtain ⟨own, item, listed, -⟩ := mem_deferred member
  exact ⟨own, List.ne_nil_of_mem listed⟩

theorem not_drops_of_isEmpty (vacant : rule.isEmpty = true) : ¬rule.Drops metadata := by
  have none : rule.destinationIPCIDRItems = [] := by
    simp only [isEmpty, Bool.and_eq_true, List.isEmpty_iff] at vacant
    tauto
  rintro ⟨-, fault⟩
  split at fault
  · obtain ⟨-, ⟨group, waits, -⟩, -⟩ := fault
    exact (deferred_ne_nil waits).2 none
  · obtain ⟨-, group, waits, -⟩ := fault
    exact (deferred_ne_nil waits).2 none

/-- The rules that are dropped before the lookup though they accept a response. -/
theorem exists_dropped_iff (staged : rule.Staged)
    (undeferred : metadata.resetRuleCache.ignoreDestinationIPCIDRMatch = false)
    (satisfiable : ∀ item ∈ rule.destinationIPCIDRItems,
      ∃ response, item.isMatch (metadata.resetRuleCache.withResponse response) = true) :
    (∃ response, rule.isMatch none (metadata.resetRuleCache.withResponse response) = true ∧
        rule.isMatch none metadata.resetRuleCache.deferDestination = false) ↔
      rule.Drops metadata.resetRuleCache := by
  have blocks := @Sides.blocks_iff (rule.sides metadata.resetRuleCache)
    (by
      intro group test member
      obtain ⟨-, item, listed, rfl⟩ := mem_deferred member
      exact satisfiable item listed)
    (fun first second waits waitsToo => (deferred_ne_nil waits).1.trans (deferred_ne_nil waitsToo).1.symm)
  have alone (before : (rule.sides metadata.resetRuleCache).Before) :=
    @Sides.defersAlone_iff (rule.sides metadata.resetRuleCache) before Msg.zero (by
      intro group test member
      obtain ⟨-, item, listed, rfl⟩ := mem_deferred member
      exact isMatch_withResponse_zero staged listed)
  cases vacant : rule.isEmpty with
  | true => exact iff_of_false (by simp [isMatch, vacant]) (not_drops_of_isEmpty vacant)
  | false =>
      unfold Drops
      have fresh : metadata.resetRuleCache.didMatch = false := rfl
      simp only [isMatch_withResponse staged undeferred vacant, isMatch_deferDestination fresh vacant]
      have done := fun response => @groupsDone_withResponse rule _ response undeferred staged
      have doneBefore : rule.groupsDone metadata.resetRuleCache.deferDestination = true ↔ _ :=
        groupsDone_deferDestination _
      cases rule.invert with
      | false =>
          simp only [Bool.false_eq_true, ↓reduceIte, ← Bool.not_eq_true, Bool.and_eq_true, done, doneBefore,
            blocks]
          constructor
          · rintro ⟨response, ⟨items, after⟩, dropped⟩
            exact ⟨items, ⟨response, after⟩, fun before => dropped ⟨items, before⟩⟩
          · rintro ⟨items, ⟨response, after⟩, dropped⟩
            exact ⟨response, ⟨items, after⟩, fun both => dropped both.2⟩
      | true =>
          simp only [↓reduceIte, Bool.not_eq_true', Bool.or_eq_false_iff, Bool.not_eq_false',
            Bool.and_eq_false_imp, Bool.and_eq_true, doneBefore]
          simp only [← Bool.not_eq_true, done]
          constructor
          · rintro ⟨response, refused, ⟨items, before⟩, otherwise⟩
            have defers := (alone before).2 ⟨response, refused items⟩
            refine ⟨items, before, defers, ?_⟩
            by_contra unevaluated
            obtain ⟨group, waits, -⟩ := defers
            exact (deferred_ne_nil waits).2 (List.isEmpty_iff.1 (otherwise unevaluated))
          · rintro ⟨items, before, defers, evaluated⟩
            obtain ⟨response, refused⟩ := (alone before).1 defers
            exact ⟨response, fun _ => refused, ⟨items, before⟩, absurd evaluated⟩

end RuleItems

/-- The addresses of a response are valid, and any valid addresses are those of one. -/
theorem exists_dnsResponseAddresses_iff (accepts : List Addr → Prop) :
    (∃ response, accepts (dnsResponseAddresses (some response))) ↔
      ∃ addresses, (∀ address ∈ addresses, address.isValid = true) ∧ accepts addresses := by
  constructor
  · rintro ⟨response, accepted⟩
    refine ⟨_, fun address member => ?_, accepted⟩
    simp only [dnsResponseAddresses] at member
    split at member
    · cases member
    · obtain ⟨record, -, inside⟩ := List.mem_flatMap.1 member
      unfold recordAddresses at inside
      split at inside
      · exact (List.mem_filter.1 inside).2
      · exact (List.mem_filter.1 inside).2
      · obtain ⟨value, -, hinted⟩ := List.mem_flatMap.1 inside
        unfold hintAddresses at hinted
        split at hinted
        · exact (List.mem_filter.1 hinted).2
        · exact (List.mem_filter.1 hinted).2
        · cases hinted
      · cases inside
  · rintro ⟨addresses, valid, accepted⟩
    let record (address : Addr) : RR := ⟨⟨"", typeA, classINET, 0⟩, .a address.asSlice⟩
    refine ⟨{ Msg.zero with answer := addresses.map record }, ?_⟩
    suffices same : (addresses.map record).flatMap recordAddresses = addresses by
      change accepts ((addresses.map record).flatMap recordAddresses)
      rwa [same]
    rw [List.flatMap_map]
    calc addresses.flatMap (fun address => recordAddresses (record address))
        = addresses.flatMap (fun address => [address]) := by
          refine List.flatMap_congr fun address member => ?_
          simp [record, recordAddresses, Addr.ofIP_asSlice (valid address member), valid address member]
      _ = addresses := List.flatMap_singleton' addresses

def routeRule (items : RuleItems) : DNSRule :=
  .default ⟨⟨items, none⟩, some (.dnsRoute "remote" false .zero), false, "", false⟩

def addressFilter : RuleItem := .ipCIDR (· == .v4 0xCB007101) false

def addressResponse : Msg :=
  { Msg.zero with answer := [⟨⟨"example.", typeA, classINET, 60⟩, .a [203, 0, 113, 1]⟩] }

def mixedItems : RuleItems :=
  { RuleItems.empty with
    destinationAddressItems := [.connection fun connection => connection.domain == "a"]
    destinationIPCIDRItems := [addressFilter] }

namespace RuleItems

section

variable (rule : RuleItems) (metadata : InboundContext) (response : Msg)

def filterGroup (metadata : InboundContext) : Group :=
  if metadata.ipCidrMatchSource then .sourceAddress else .destinationAddress

def filtersMatch : Bool :=
  rule.destinationIPCIDRItems.any fun item => item.isMatch (metadata.withResponse response)

def Done (group : Group) : Prop :=
  rule.required metadata group = true → rule.satisfied metadata group = true

/-- All else matches, and the outcome is not that of the filters: others of their group
decide, or the metadata leaves the filters out. -/
def FiltersOverruled : Prop :=
  rule.itemsMatch metadata = true ∧
    (∀ group ≠ filterGroup metadata, rule.Done metadata.deferDestination group) ∧
    if metadata.ignoreDestinationIPCIDRMatch then
      rule.Done metadata.deferDestination (filterGroup metadata) ∧
        rule.filtersMatch metadata response = false
    else
      rule.required metadata.deferDestination (filterGroup metadata) = true ∧
        ¬(rule.satisfied metadata.deferDestination (filterGroup metadata) = true ↔
          rule.filtersMatch metadata response = true)

end

variable {rule : RuleItems} {metadata : InboundContext} {response : Msg}

theorem isMatch_upright_iff (upright : rule.invert = false) (nonempty : rule.destinationIPCIDRItems ≠ [])
    (own : Group) :
    rule.isMatch none metadata = true ↔
      rule.itemsMatch metadata = true ∧ (∀ group ≠ own, rule.Done metadata group) ∧
        rule.Done metadata own := by
  have kept : rule.isEmpty = false := by simp [isEmpty, nonempty]
  simp only [isMatch, kept, upright, matchInner_none, Bool.false_and, Bool.false_eq_true, ↓reduceIte,
    Bool.and_eq_true, groupsDone_iff]
  refine and_congr_right fun _ => ⟨fun all => ⟨fun group _ => all group, all own⟩, ?_⟩
  rintro ⟨others, done⟩ group
  by_cases same : group = own
  · exact same ▸ done
  · exact others group same

theorem done_withResponse_other (staged : rule.Staged) {group : Group}
    (other : metadata.ignoreDestinationIPCIDRMatch = true ∨ group ≠ filterGroup metadata) :
    rule.Done (metadata.withResponse response) group ↔ rule.Done metadata.deferDestination group := by
  have same : rule.groupItems (metadata.withResponse response) group =
      rule.groupItems metadata.deferDestination group := by
    unfold groupItems InboundContext.withResponse InboundContext.deferDestination
    unfold filterGroup at other
    cases ignored : metadata.ignoreDestinationIPCIDRMatch <;>
      cases source : metadata.ipCidrMatchSource <;> cases group <;> simp_all
  unfold Done
  rw [required_iff, required_iff, satisfied_iff, satisfied_iff, same]
  refine imp_congr_right fun _ => exists_congr fun item => and_congr_right fun member => ?_
  rw [RuleItem.isMatch_withResponse item metadata response (beforeLookup_of_mem metadata staged member)]
  simp [InboundContext.deferDestination]

theorem done_withResponse_own (staged : rule.Staged)
    (undeferred : metadata.ignoreDestinationIPCIDRMatch = false)
    (nonempty : rule.destinationIPCIDRItems ≠ []) :
    rule.Done (metadata.withResponse response) (filterGroup metadata) ↔
      rule.satisfied metadata.deferDestination (filterGroup metadata) = true ∨
        rule.filtersMatch metadata response = true := by
  have own : rule.deferredItems metadata (filterGroup metadata) = rule.destinationIPCIDRItems :=
    if_pos rfl
  unfold Done
  rw [required_withResponse response undeferred, satisfied_withResponse response undeferred staged,
    satisfied_deferDestination]
  simp [sides, own, nonempty, filtersMatch]

/-- **A legacy rule accepts a response iff it passes before the lookup and one of its
address filters matches**, exactly if the filters are not overruled. -/
theorem matchAddressLimit_conjunctive_iff (rule : DefaultDNSRule) (metadata : InboundContext)
    (response : Msg) (legacy : (DNSRule.default rule).Legacy) (upright : rule.invert = false)
    (unreferenced : rule.ruleSetItem = none) (filtered : rule.destinationIPCIDRItems ≠ []) :
    (DNSRule.default rule).matchAddressLimit metadata response =
        ((DNSRule.default rule).legacyPreMatch metadata && rule.filtersMatch metadata response) ↔
      ¬rule.FiltersOverruled metadata response := by
  have verdict := AbstractDefaultRule.isMatch_none unreferenced
  obtain ⟨unanswered, staged⟩ := legacy
  have required : rule.satisfied metadata.deferDestination (filterGroup metadata) = true →
      rule.required metadata.deferDestination (filterGroup metadata) = true := by
    rw [satisfied_iff, required_iff_exists]
    exact fun ⟨item, member, _⟩ => ⟨item, member⟩
  rw [Bool.eq_iff_iff, DNSRule.matchAddressLimit, DNSRule.legacyPreMatch, unanswered, verdict, verdict,
    Bool.not_false, Bool.true_and, Bool.and_eq_true,
    isMatch_upright_iff upright filtered (filterGroup metadata),
    isMatch_upright_iff upright filtered (filterGroup metadata),
    itemsMatch_deferDestination, itemsMatch_withResponse metadata response staged,
    FiltersOverruled]
  have others : (∀ group ≠ filterGroup metadata,
      rule.Done (metadata.withResponse response) group) ↔
      ∀ group ≠ filterGroup metadata, rule.Done metadata.deferDestination group :=
    forall₂_congr fun group other => done_withResponse_other staged (Or.inr other)
  rw [others]
  cases ignored : metadata.ignoreDestinationIPCIDRMatch with
  | true =>
      rw [done_withResponse_other staged (Or.inl ignored), if_pos rfl,
        ← Bool.not_eq_true (rule.filtersMatch metadata response)]
      tauto
  | false =>
      rw [done_withResponse_own staged ignored filtered, if_neg Bool.false_ne_true]
      unfold Done
      tauto

/-- A rule for port 53 with an address filter and nothing else in its group. -/
theorem matchAddressLimit_conjunctive_port :
    let items := { RuleItems.empty with
      destinationIPCIDRItems := [addressFilter], destinationPortItems := [.port false [53]] }
    let metadata := { InboundContext.zero with destination := ⟨.invalid, 53, "example."⟩ }
    (routeRule items).matchAddressLimit metadata addressResponse =
      ((routeRule items).legacyPreMatch metadata && items.filtersMatch metadata addressResponse) := by
  intro items metadata
  refine (matchAddressLimit_conjunctive_iff ⟨⟨items, none⟩, _, false, "", false⟩ metadata addressResponse
    ⟨rfl, by decide⟩ rfl rfl (List.cons_ne_nil _ _)).2 ?_
  rintro ⟨-, -, occupied, -⟩
  cases occupied

/-- The domain matches and the only address filter does not: the response is accepted. -/
theorem unfiltered_response_accepted :
    let items := { RuleItems.empty with
      destinationAddressItems := [.connection fun connection => connection.domain == "a"]
      destinationIPCIDRItems := [.ipCIDR (· == .v4 0x0A000001) false] }
    let metadata := { InboundContext.zero with domain := "a" }
    items.Staged ∧ items.filtersMatch metadata addressResponse = false ∧
      (routeRule items).matchAddressLimit metadata addressResponse = true := by
  intro items metadata
  exact ⟨by decide, by decide, by decide⟩

end RuleItems

end SideraCore.Rule
