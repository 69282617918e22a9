import SideraCore.Rule.Groups

/-!
Owns the law that merging a single-rule set into the rule that references it is
the same as writing the two rules as one: `matchWithOuterGroups` computes with
the masks of both rules what the concatenated rule computes on its own.
-/

namespace SideraCore.Rule

open Dns Rule.Group RuleItems DefaultHeadlessRule InboundContext

namespace RuleItems

def append (first second : RuleItems) : RuleItems where
  items := first.items ++ second.items
  sourceAddressItems := first.sourceAddressItems ++ second.sourceAddressItems
  sourcePortItems := first.sourcePortItems ++ second.sourcePortItems
  destinationAddressItems := first.destinationAddressItems ++ second.destinationAddressItems
  destinationIPCIDRItems := first.destinationIPCIDRItems ++ second.destinationIPCIDRItems
  destinationPortItems := first.destinationPortItems ++ second.destinationPortItems
  invert := false

section First

variable (first second : RuleItems) (metadata : InboundContext)
include first second metadata

theorem itemsMatch_append :
    (first.append second).itemsMatch metadata =
      (first.itemsMatch metadata && second.itemsMatch metadata) := by
  simp only [itemsMatch, append, List.all_append]

theorem mem_groupItems_append (group : Group) (item : RuleItem) :
    item ∈ (first.append second).groupItems metadata group ↔
      item ∈ first.groupItems metadata group ∨ item ∈ second.groupItems metadata group := by
  cases group with
  | sourceAddress | destinationAddress =>
      simp only [groupItems, append]
      split <;> simp only [List.mem_append, List.not_mem_nil] <;> tauto
  | sourcePort | destinationPort => exact List.mem_append

theorem required_append (group : Group) :
    (first.append second).required metadata group =
      (first.required metadata group || second.required metadata group) := by
  rw [Bool.eq_iff_iff, Bool.or_eq_true]
  simp only [required_iff_exists, mem_groupItems_append, exists_or]

theorem satisfied_append (group : Group) :
    (first.append second).satisfied metadata group =
      (first.satisfied metadata group || second.satisfied metadata group) := by
  rw [Bool.eq_iff_iff, Bool.or_eq_true]
  simp only [satisfied_iff, mem_groupItems_append, or_and_right, exists_or]

end First

end RuleItems

/-! ### A rule of a set inside the referencing rule -/

/-- The items of a set's rule as the outer rule would hold them. With
`rule_set_ip_cidr_match_source` the `ip_cidr` items count as source addresses. -/
def DefaultHeadlessRule.placed (branch : DefaultHeadlessRule) (matchSource : Bool) : RuleItems :=
  if matchSource then
    { branch.toRuleItems with
      sourceAddressItems := branch.toRuleItems.sourceAddressItems ++
        branch.ipCIDR.map fun ipSet => .ipCIDR ipSet true
      destinationIPCIDRItems := [] }
  else
    branch.toRuleItems

/-- The referencing rule and the rule of the set as one rule. -/
def RuleItems.flatten (outer : RuleItems) (branch : DefaultHeadlessRule) (matchSource : Bool) :
    RuleItems :=
  outer.append (branch.placed matchSource)

section Placed

variable (branch : DefaultHeadlessRule) (item : RuleSetItem) (metadata : InboundContext)
  (strict : item.ipCidrAcceptEmpty = false) (undeferred : metadata.ignoreDestinationIPCIDRMatch = false)

include strict

theorem nestedMetadata_resetRuleCache :
    item.nestedMetadata metadata.resetRuleCache =
      { metadata.resetRuleCache with ipCidrMatchSource := item.ipCidrMatchSource } := by
  unfold RuleSetItem.nestedMetadata
  rw [strict]
  rfl

theorem itemsMatch_placed :
    branch.toRuleItems.itemsMatch (item.nestedMetadata metadata.resetRuleCache) =
      (branch.placed item.ipCidrMatchSource).itemsMatch metadata.resetRuleCache := by
  have sameItems : (branch.placed item.ipCidrMatchSource).items = branch.toRuleItems.items := by
    unfold placed
    split <;> rfl
  rw [nestedMetadata_resetRuleCache item metadata strict]
  unfold itemsMatch
  rw [sameItems]
  simp only [toRuleItems, List.all_append, List.all_map]
  split <;> rfl

include undeferred

theorem required_placed (group : Group) :
    branch.toRuleItems.required (item.nestedMetadata metadata.resetRuleCache) group =
      (branch.placed item.ipCidrMatchSource).required metadata.resetRuleCache group := by
  rw [nestedMetadata_resetRuleCache item metadata strict, Bool.eq_iff_iff]
  unfold required groupItems placed
  cases item.ipCidrMatchSource <;> cases group <;>
    simp [undeferred, resetRuleCache, resetRuleMatchCache,
      toRuleItems]

theorem satisfied_placed (group : Group) :
    branch.toRuleItems.satisfied (item.nestedMetadata metadata.resetRuleCache) group =
      (branch.placed item.ipCidrMatchSource).satisfied metadata.resetRuleCache group := by
  rw [nestedMetadata_resetRuleCache item metadata strict]
  unfold satisfied groupItems placed
  cases item.ipCidrMatchSource <;> cases group <;>
    simp [undeferred, resetRuleCache, resetRuleMatchCache,
      toRuleItems, matchAnyItem, RuleItem.isMatch, RuleItem.matchIPCIDR,
      Function.comp_def]

end Placed

theorem HeadlessRule.anyMatch_iff (rules : List HeadlessRule) (metadata : InboundContext) :
    HeadlessRule.anyMatch rules metadata = true ↔ ∃ rule ∈ rules, rule.isMatch metadata = true := by
  induction rules with
  | nil => simp [HeadlessRule.anyMatch]
  | cons rule rest ih => simp [HeadlessRule.anyMatch, ih]

theorem mergeableRuleIn_eq_some (rules : List HeadlessRule) (branch : DefaultHeadlessRule) :
    mergeableRuleIn rules = some branch ↔ rules = [.default branch] ∧ branch.invert = false := by
  unfold mergeableRuleIn
  split
  · rename_i rule
    by_cases inverted : rule.invert = true
    · simp only [inverted, ↓reduceIte, reduceCtorEq, List.cons.injEq, HeadlessRule.default.injEq,
        and_true, false_iff, not_and]
      rintro rfl
      simp [inverted]
    · simp only [inverted, Bool.false_eq_true, ↓reduceIte, Option.some.injEq, List.cons.injEq,
        HeadlessRule.default.injEq, and_true, iff_self_and]
      rintro rfl
      simpa using inverted
  · rename_i different
    simp only [reduceCtorEq, false_iff, not_and]
    intro single
    exact absurd single (different branch)

section OneSet

variable (outer : RuleItems) (item : RuleSetItem) (metadata : InboundContext) (ruleSet : RuleSet)

theorem matchRuleSet_of_single (branch : DefaultHeadlessRule)
    (strict : item.ipCidrAcceptEmpty = false)
    (undeferred : metadata.ignoreDestinationIPCIDRMatch = false)
    (outerItems : outer.itemsMatch metadata.resetRuleCache = true)
    (single : ruleSet.rules = [.default branch]) (upright : branch.invert = false) :
    item.matchRuleSet metadata.resetRuleCache
        ⟨word (outer.required metadata.resetRuleCache), word (outer.satisfied metadata.resetRuleCache)⟩
        ruleSet = true ↔
      (outer.flatten branch item.ipCidrMatchSource).isMatch none metadata.resetRuleCache = true := by
  have merged := (mergeableRuleIn_eq_some ruleSet.rules branch).mpr ⟨single, upright⟩
  unfold RuleSetItem.matchRuleSet
  rw [merged, isMatch_none_iff _ _ rfl]
  simp only [evaluateForMerge_eq, itemsMatch_placed branch item metadata strict,
    flatten, itemsMatch_append, outerItems, Bool.true_and,
    required_append, satisfied_append,
    ← required_placed branch item metadata strict undeferred,
    ← satisfied_placed branch item metadata strict undeferred, ← done_mergeWith]
  by_cases branchItems :
      (branch.placed item.ipCidrMatchSource).itemsMatch metadata.resetRuleCache = true
  · simp [branchItems]
  · simp [branchItems]

/-- Any other set is judged by its own rules, and the outer groups stand alone. -/
theorem matchRuleSet_of_unmergeable
    (unmergeable : ¬∃ branch, ruleSet.rules = [.default branch] ∧ branch.invert = false) :
    item.matchRuleSet metadata.resetRuleCache
        ⟨word (outer.required metadata.resetRuleCache), word (outer.satisfied metadata.resetRuleCache)⟩
        ruleSet = true ↔
      (∀ group, outer.groupItems metadata.resetRuleCache group ≠ [] →
        ∃ member ∈ outer.groupItems metadata.resetRuleCache group,
          member.isMatch metadata.resetRuleCache = true) ∧
      ∃ headless ∈ ruleSet.rules,
        headless.isMatch (item.nestedMetadata metadata.resetRuleCache) = true := by
  have kept : mergeableRuleIn ruleSet.rules = none := by
    rw [Option.eq_none_iff_forall_ne_some]
    intro branch found
    exact unmergeable ⟨branch, (mergeableRuleIn_eq_some ruleSet.rules branch).mp found⟩
  have anyRule : matchAnyHeadlessRule ruleSet.rules (item.nestedMetadata metadata.resetRuleCache) =
      HeadlessRule.anyMatch ruleSet.rules (item.nestedMetadata metadata.resetRuleCache) := rfl
  unfold RuleSetItem.matchRuleSet
  rw [kept]
  simp only [Bool.and_eq_true, done_word, anyRule, HeadlessRule.anyMatch_iff, required_iff,
    satisfied_iff]

end OneSet

/-- **Merging equals flattening.** Without `invert`, a rule that references rule-sets
matches when its items match and one of the sets agrees: a set of one default rule
without `invert` by the flattened rule, any other by one of its rules, with every outer
group satisfied alone. -/
theorem ruleSet_isMatch_iff_flatten (rule : AbstractDefaultRule) (item : RuleSetItem)
    (metadata : InboundContext) (referenced : rule.ruleSetItem = some item)
    (strict : item.ipCidrAcceptEmpty = false)
    (undeferred : metadata.ignoreDestinationIPCIDRMatch = false) :
    { rule with invert := false }.isMatch metadata.resetRuleCache = true ↔
      (∀ other ∈ rule.items, other.isMatch metadata.resetRuleCache = true) ∧
        ∃ ruleSet ∈ item.setList,
          (∃ branch, ruleSet.rules = [.default branch] ∧ branch.invert = false ∧
              (rule.toRuleItems.flatten branch item.ipCidrMatchSource).isMatch none
                metadata.resetRuleCache = true) ∨
            ((¬∃ branch, ruleSet.rules = [.default branch] ∧ branch.invert = false) ∧
              (∀ group, rule.groupItems metadata.resetRuleCache group ≠ [] →
                ∃ member ∈ rule.groupItems metadata.resetRuleCache group,
                  member.isMatch metadata.resetRuleCache = true) ∧
              ∃ headless ∈ ruleSet.rules,
                headless.isMatch (item.nestedMetadata metadata.resetRuleCache) = true) := by
  have matched : { rule with invert := false }.isMatch metadata.resetRuleCache =
      (rule.itemsMatch metadata.resetRuleCache &&
        item.matchWithOuterGroups metadata.resetRuleCache
          ⟨word (rule.required metadata.resetRuleCache), word (rule.satisfied metadata.resetRuleCache)⟩) := by
    have inner := matchInner_some { rule.toRuleItems with invert := false }
      item.matchWithOuterGroups metadata.resetRuleCache fun _ _ => rfl
    unfold AbstractDefaultRule.isMatch isMatch
    simp only [referenced, Option.map_some, Option.isNone_some, Bool.and_false, Bool.false_eq_true,
      ↓reduceIte, inner]
    rfl
  have items : rule.itemsMatch metadata.resetRuleCache = true ↔
      ∀ other ∈ rule.items, other.isMatch metadata.resetRuleCache = true := by
    simp [itemsMatch]
  rw [matched, Bool.and_eq_true, ← items]
  refine and_congr_right fun outerItems => ?_
  unfold RuleSetItem.matchWithOuterGroups
  rw [List.any_eq_true]
  refine exists_congr fun ruleSet => and_congr_right fun _ => ?_
  by_cases mergeable : ∃ branch, ruleSet.rules = [.default branch] ∧ branch.invert = false
  · obtain ⟨branch, single, upright⟩ := mergeable
    rw [matchRuleSet_of_single rule.toRuleItems item metadata ruleSet branch strict undeferred
      outerItems single upright]
    constructor
    · intro flattened
      exact Or.inl ⟨branch, single, upright, flattened⟩
    · rintro (⟨other, otherSingle, -, flattened⟩ | ⟨unmergeable, -⟩)
      · rw [single] at otherSingle
        cases otherSingle
        exact flattened
      · exact absurd ⟨branch, single, upright⟩ unmergeable
  · rw [matchRuleSet_of_unmergeable rule.toRuleItems item metadata ruleSet mergeable]
    constructor
    · intro alone
      exact Or.inr ⟨mergeable, alone⟩
    · rintro (⟨branch, single, upright, -⟩ | ⟨-, alone⟩)
      · exact absurd ⟨branch, single, upright⟩ mergeable
      · exact alone

/-- The outer rule asks for one address on port 53 and the set for another one: the
query for the second address matches through the set only. -/
theorem ruleSet_isMatch_iff_flatten_splitAddress :
    let outer : RuleItems :=
      { empty with
        destinationIPCIDRItems := [.ipCIDR (· == .v4 1) false]
        destinationPortItems := [.port false [53]] }
    let branch : DefaultHeadlessRule := ⟨[], [], [], [], [], [(· == .v4 2)], [], false⟩
    let item : RuleSetItem := ⟨[⟨[.default branch]⟩], false, false⟩
    let metadata := { zero with destination := ⟨.v4 2, 53, ""⟩ }
    outer.isMatch none metadata = false ∧
      (AbstractDefaultRule.mk outer (some item)).isMatch metadata.resetRuleCache = true := by
  intro outer branch item metadata
  refine ⟨by decide, ?_⟩
  refine (ruleSet_isMatch_iff_flatten ⟨outer, some item⟩ item metadata rfl rfl rfl).mpr ⟨by decide, ?_⟩
  exact ⟨⟨[.default branch]⟩, List.mem_singleton_self _, Or.inl ⟨branch, rfl, rfl, by decide⟩⟩

end SideraCore.Rule
