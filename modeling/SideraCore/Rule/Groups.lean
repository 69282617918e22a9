import SideraCore.Rule.Abstract

/-!
Owns what the group evaluation of a default rule computes. The bit masks of
`ruleGroupMatch` are words over four groups; `evaluateGroups_eq` says which
groups a rule requires and which it satisfies, and `matchInner_none`,
`matchInner_some` and `evaluateForMerge_eq` are what the rest of the development uses.
-/

namespace SideraCore.Rule

inductive Group where
  | sourceAddress
  | sourcePort
  | destinationAddress
  | destinationPort
deriving DecidableEq, Repr

namespace Group

def flag : Group → RuleMatchState
  | .sourceAddress => ruleMatchSourceAddress
  | .sourcePort => ruleMatchSourcePort
  | .destinationAddress => ruleMatchDestinationAddress
  | .destinationPort => ruleMatchDestinationPort

def mask (sourceAddress sourcePort destinationAddress destinationPort : Bool) : RuleMatchState :=
  (if sourceAddress then ruleMatchSourceAddress else 0#8) |||
    (if sourcePort then ruleMatchSourcePort else 0#8) |||
    (if destinationAddress then ruleMatchDestinationAddress else 0#8) |||
    (if destinationPort then ruleMatchDestinationPort else 0#8)

/-- The mask with exactly the flags of the given groups. -/
def word (member : Group → Bool) : RuleMatchState :=
  mask (member .sourceAddress) (member .sourcePort) (member .destinationAddress)
    (member .destinationPort)

theorem word_none : word (fun _ => false) = 0#8 := by decide

theorem mask_or : ∀ a b c d a' b' c' d' : Bool,
    mask a b c d ||| mask a' b' c' d' = mask (a || a') (b || b') (c || c') (d || d') := by
  decide

theorem word_or (first second : Group → Bool) :
    word first ||| word second = word fun group => first group || second group :=
  mask_or _ _ _ _ _ _ _ _

theorem flag_eq_word (group : Group) : group.flag = word fun other => decide (other = group) := by
  cases group <;> decide

theorem mask_has (group : Group) : ∀ a b c d : Bool,
    RuleMatchState.has (mask a b c d) group.flag =
      match group with
      | .sourceAddress => a
      | .sourcePort => b
      | .destinationAddress => c
      | .destinationPort => d := by
  cases group <;> decide

theorem word_has (member : Group → Bool) (group : Group) :
    RuleMatchState.has (word member) group.flag = member group := by
  unfold word
  rw [mask_has]
  cases group <;> rfl

theorem mask_done : ∀ a b c d a' b' c' d' : Bool,
    (RuleGroupMatch.mk (mask a b c d) (mask a' b' c' d')).done = true ↔
      (a = true → a' = true) ∧ (b = true → b' = true) ∧ (c = true → c' = true) ∧
        (d = true → d' = true) := by
  decide

theorem done_word (required satisfied : Group → Bool) :
    (RuleGroupMatch.mk (word required) (word satisfied)).done = true ↔
      ∀ group, required group = true → satisfied group = true := by
  unfold word
  rw [mask_done]
  constructor
  · rintro ⟨sourceAddress, sourcePort, destinationAddress, destinationPort⟩ group
    cases group <;> assumption
  · intro all
    exact ⟨all _, all _, all _, all _⟩

/-- The merged masks of two rules say whether their groups are satisfied together. -/
theorem done_mergeWith (required satisfied others met : Group → Bool) :
    ((RuleGroupMatch.mk (word required) (word satisfied)).mergeWith ⟨word others, word met⟩).done = true ↔
      ∀ group, (required group || others group) = true → (satisfied group || met group) = true := by
  unfold RuleGroupMatch.mergeWith
  rw [word_or, word_or, done_word]

end Group

open Rule.Group

namespace RuleItems

theorem evaluateGroup_word (present : Bool) (group : Group) (items : List RuleItem)
    (required satisfied : Group → Bool) (metadata : InboundContext) :
    evaluateGroup present group.flag items (⟨word required, word satisfied⟩, metadata) =
      (⟨word fun other => required other || (decide (other = group) && present),
        word fun other =>
          satisfied other || (decide (other = group) && (present && matchAnyItem items metadata))⟩,
        { metadata with didMatch := metadata.didMatch || present }) := by
  have sameItems : matchAnyItem items { metadata with didMatch := true } = matchAnyItem items metadata := by
    simp [matchAnyItem]
  cases present with
  | false => simp [evaluateGroup]
  | true =>
      simp only [evaluateGroup, ↓reduceIte, sameItems, word_has]
      rw [flag_eq_word, word_or, word_or]
      by_cases matched : matchAnyItem items metadata = true
      · by_cases already : satisfied group = true
        · have absorbed : (fun other => satisfied other || decide (other = group)) = satisfied := by
            funext other
            by_cases same : other = group
            · simp [same, already]
            · simp [same]
          simp [matched, already, absorbed]
        · simp [matched, already]
      · simp [matched]

variable (rule : RuleItems) (items : List RuleItem) (metadata : InboundContext)

/-- The items of a group. The `ip_cidr` items belong to the source or to the
destination, or to nothing while they are deferred. -/
def groupItems : Group → List RuleItem
  | .sourceAddress =>
      rule.sourceAddressItems ++
        if !metadata.ignoreDestinationIPCIDRMatch && metadata.ipCidrMatchSource then
          rule.destinationIPCIDRItems
        else []
  | .sourcePort => rule.sourcePortItems
  | .destinationAddress =>
      rule.destinationAddressItems ++
        if !metadata.ignoreDestinationIPCIDRMatch && !metadata.ipCidrMatchSource then
          rule.destinationIPCIDRItems
        else []
  | .destinationPort => rule.destinationPortItems

def required (group : Group) : Bool :=
  !(rule.groupItems metadata group).isEmpty

def satisfied (group : Group) : Bool :=
  matchAnyItem (rule.groupItems metadata group) metadata

section Rule

variable (group : Group)
include rule metadata group

theorem required_iff : rule.required metadata group = true ↔ rule.groupItems metadata group ≠ [] := by
  simp [required]

theorem required_iff_exists :
    rule.required metadata group = true ↔ ∃ item, item ∈ rule.groupItems metadata group := by
  rw [required, Bool.not_eq_true', List.isEmpty_eq_false_iff_exists_mem]

theorem satisfied_iff :
    rule.satisfied metadata group = true ↔
      ∃ item ∈ rule.groupItems metadata group, item.isMatch metadata = true := by
  simp [satisfied, matchAnyItem]

end Rule

/-- Whether a group was evaluated at all, which is what `DidMatch` records. -/
def anyRequired : Bool :=
  rule.required metadata .sourceAddress || rule.required metadata .sourcePort ||
    rule.required metadata .destinationAddress || rule.required metadata .destinationPort

theorem present_and_matchAnyItem :
    (!items.isEmpty && matchAnyItem items metadata) = matchAnyItem items metadata := by
  cases items <;> simp [matchAnyItem]

theorem present_append_ite (deferred : List RuleItem) (counted : Bool) :
    (!(items ++ if counted then deferred else []).isEmpty) =
      (!items.isEmpty || (counted && !deferred.isEmpty)) := by
  cases counted <;> cases items <;> simp

theorem matchAnyItem_append_ite (deferred : List RuleItem) (counted : Bool) (metadata : InboundContext) :
    matchAnyItem (items ++ if counted then deferred else []) metadata =
      (matchAnyItem items metadata ||
        ((counted && !deferred.isEmpty) && matchAnyItem deferred metadata)) := by
  rw [Bool.and_assoc, present_and_matchAnyItem]
  cases counted <;> simp [matchAnyItem]

/-- **What the group evaluation computes.** -/
theorem evaluateGroups_eq :
    rule.evaluateGroups metadata =
      (⟨word (rule.required metadata), word (rule.satisfied metadata)⟩,
        { metadata with didMatch := metadata.didMatch || rule.anyRequired metadata }) := by
  have start : RuleGroupMatch.empty = ⟨word fun _ => false, word fun _ => false⟩ := by
    rw [word_none]
    rfl
  have same (items : List RuleItem) (didMatch : Bool) :
      matchAnyItem items { metadata with didMatch := didMatch } = matchAnyItem items metadata := by
    simp [matchAnyItem]
  unfold evaluateGroups
  simp only [start]
  rw [show ruleMatchSourceAddress = Group.sourceAddress.flag from rfl,
    show ruleMatchSourcePort = Group.sourcePort.flag from rfl,
    show ruleMatchDestinationAddress = Group.destinationAddress.flag from rfl,
    show ruleMatchDestinationPort = Group.destinationPort.flag from rfl]
  simp only [evaluateGroup_word, same, present_and_matchAnyItem]
  refine Prod.ext (congrArg₂ RuleGroupMatch.mk (congrArg word (funext fun group => ?_))
    (congrArg word (funext fun group => ?_))) ?_
  · cases group <;>
      simp [required, groupItems, present_append_ite, -Bool.and_eq_true, -Bool.not_eq_eq_eq_not,
        destinationIPCIDRMatchesSource, destinationIPCIDRMatchesDestination]
  · cases group <;>
      simp [satisfied, groupItems, matchAnyItem_append_ite, -Bool.and_eq_true,
        destinationIPCIDRMatchesSource, destinationIPCIDRMatchesDestination]
  · simp [anyRequired, required, groupItems, present_append_ite, -Bool.and_eq_true, Bool.or_assoc,
      destinationIPCIDRMatchesSource, destinationIPCIDRMatchesDestination]

def groupsDone : Bool :=
  (RuleGroupMatch.mk (word (rule.required metadata)) (word (rule.satisfied metadata))).done

theorem groupsDone_iff :
    rule.groupsDone metadata = true ↔
      ∀ group, rule.required metadata group = true → rule.satisfied metadata group = true :=
  done_word _ _

/-! ### The remaining items -/

def itemsMatch : Bool :=
  rule.items.all fun item => item.isMatch metadata

theorem matchItems_eq :
    matchItems items metadata =
      (items.all fun item => item.isMatch metadata,
        { metadata with didMatch := metadata.didMatch || !items.isEmpty }) := by
  induction items generalizing metadata with
  | nil => simp [matchItems]
  | cons item rest ih =>
      unfold matchItems
      by_cases matched : item.isMatch metadata = true
      · simp [matched, ih]
      · simp [matched]

theorem matchItems_items (didMatch : Bool) :
    matchItems rule.items { metadata with didMatch := didMatch } =
      (rule.itemsMatch metadata, { metadata with didMatch := didMatch || !rule.items.isEmpty }) := by
  simp [matchItems_eq, itemsMatch]

/-- Whether evaluating the rule sets `DidMatch`. -/
def evaluates (rule : RuleItems) (metadata : InboundContext) : Bool :=
  rule.anyRequired metadata || !rule.items.isEmpty

theorem evaluateForMerge_eq :
    rule.evaluateForMerge metadata =
      if rule.itemsMatch metadata then
        some ⟨word (rule.required metadata), word (rule.satisfied metadata)⟩
      else none := by
  unfold evaluateForMerge
  rw [evaluateGroups_eq]
  simp only [matchItems_items]

theorem matchInner_none :
    rule.matchInner none metadata =
      (rule.itemsMatch metadata && rule.groupsDone metadata,
        { metadata with didMatch := metadata.didMatch || rule.evaluates metadata }) := by
  unfold matchInner
  rw [evaluateGroups_eq]
  simp only [matchItems_items]
  by_cases matched : rule.itemsMatch metadata = true
  · simp [matched, groupsDone, evaluates, Bool.or_assoc]
  · simp [matched, evaluates, Bool.or_assoc]

/-- With a rule-set item that does not read `DidMatch`, the rule-sets decide about the
groups. -/
theorem matchInner_some (check : InboundContext → RuleGroupMatch → Bool) (metadata : InboundContext)
    (steady : ∀ didMatch groups, check { metadata with didMatch := didMatch } groups = check metadata groups) :
    rule.matchInner (some check) metadata =
      (rule.itemsMatch metadata &&
          check metadata ⟨word (rule.required metadata), word (rule.satisfied metadata)⟩,
        { metadata with didMatch := true }) := by
  unfold matchInner
  rw [evaluateGroups_eq]
  simp only [matchItems_items]
  by_cases matched : rule.itemsMatch metadata = true
  · simp [matched, steady]
  · have nonempty : rule.items.isEmpty = false := by
      cases listed : rule.items with
      | nil => simp [itemsMatch, listed] at matched
      | cons item rest => rfl
    simp [matched, nonempty]

theorem required_of_isEmpty (vacant : rule.isEmpty = true) (group : Group) :
    rule.required metadata group = false := by
  unfold isEmpty at vacant
  cases group <;> simp_all [required, groupItems]

theorem itemsMatch_of_isEmpty (vacant : rule.isEmpty = true) : rule.itemsMatch metadata = true := by
  unfold isEmpty at vacant
  simp_all [itemsMatch]

/-- **A rule without rule-set and without `invert`** matches when its items match and
its groups are satisfied. -/
theorem isMatch_none_iff (upright : rule.invert = false) :
    rule.isMatch none metadata = true ↔
      rule.itemsMatch metadata = true ∧
        ∀ group, rule.required metadata group = true → rule.satisfied metadata group = true := by
  rw [← groupsDone_iff]
  unfold isMatch
  by_cases vacant : rule.isEmpty = true
  · have done : rule.groupsDone metadata = true := by
      rw [groupsDone_iff]
      intro group needed
      rw [required_of_isEmpty rule metadata vacant group] at needed
      cases needed
    simp [vacant, done, itemsMatch_of_isEmpty rule metadata vacant]
  · simp [vacant, upright, matchInner_none]

end RuleItems

/-- A rule that references rule-sets always sets `DidMatch`, so `invert` is plain
negation. -/
theorem AbstractDefaultRule.isMatch_some (rule : AbstractDefaultRule) (item : RuleSetItem)
    (referenced : rule.ruleSetItem = some item) (metadata : InboundContext) :
    rule.isMatch metadata =
      (let matched := rule.itemsMatch metadata &&
        item.matchWithOuterGroups metadata
          ⟨word (rule.required metadata), word (rule.satisfied metadata)⟩
      if rule.invert then !matched else matched) := by
  have inner := RuleItems.matchInner_some rule.toRuleItems item.matchWithOuterGroups metadata
    fun _ _ => rfl
  unfold AbstractDefaultRule.isMatch RuleItems.isMatch
  simp only [referenced, Option.map_some, Option.isNone_some, Bool.and_false, Bool.false_eq_true,
    ↓reduceIte, inner, Bool.not_true, Bool.false_and]

end SideraCore.Rule
