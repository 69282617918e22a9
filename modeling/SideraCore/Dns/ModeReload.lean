import SideraCore.Control.Except
import SideraCore.Dns.Mode

/-!
Owns the reloading of rule-sets under a running router. A reload is a validation
against the metadata the other sets publish, and a later publication; reloads of
different sets interleave. `RouterConsistent` says what the mode chosen at start
promises about the published metadata.
-/

namespace SideraCore.Dns

open Rule Control DnsRuleModeFlags

/-! ### Validation and publication -/

structure RouterStatus where
  started : Bool
  closing : Bool
  legacyDNSMode : Bool
deriving DecidableEq, Repr

abbrev PublishedMetadata := String → Option RuleSetMetadata

def overriddenMetadata (published : PublishedMetadata) (tag : String) (metadata : RuleSetMetadata) :
    RuleSetLookup :=
  lookupDNSRuleSetMetadata published fun other => if other = tag then some metadata else none

def validateRuleSetMetadataUpdate (rules : List Options.DNSRule) (status : RouterStatus)
    (published : PublishedMetadata) (tag : String) (metadata : RuleSetMetadata) : Except String Unit :=
  let lookup := overriddenMetadata published tag metadata
  if rules.isEmpty || status.closing then
    pure ()
  else if !status.started then do
    let (candidateLegacyDNSMode, _) ← resolveLegacyDNSMode lookup rules
    if !candidateLegacyDNSMode then
      let _ ← validateLegacyDNSModeDisabledRules lookup rules
  else do
    let (candidateLegacyDNSMode, flags) ← resolveLegacyDNSMode lookup rules
    if status.legacyDNSMode then
      if !candidateLegacyDNSMode && flags.disabled then
        let _ ← validateLegacyDNSModeDisabledRules lookup rules
        throw optionLegacyDNSAddressFilter
    else
      if candidateLegacyDNSMode then throw optionLegacyDNSAddressFilter
      let _ ← validateLegacyDNSModeDisabledRules lookup rules

/-- A validated reload that is not published. `seen` records what was published then;
the program keeps no such record. -/
structure PendingReload where
  tag : String
  metadata : RuleSetMetadata
  seen : PublishedMetadata

structure ReloadState where
  published : PublishedMetadata
  pending : List PendingReload

/-- The publication of a reload: the set stores its rules and metadata. -/
def PendingReload.publish (reload : PendingReload) (published : PublishedMetadata) : PublishedMetadata :=
  fun other => if other = reload.tag then some reload.metadata else published other

/-- Concurrent reloads under a running router. A failed validation changes nothing;
`condition` restricts the publications. -/
inductive ReloadStep (rules : List Options.DNSRule) (legacyDNSMode : Bool)
    (condition : ReloadState → PendingReload → Prop) : ReloadState → ReloadState → Prop
  | validate (state : ReloadState) (tag : String) (metadata : RuleSetMetadata)
      (accepted : validateRuleSetMetadataUpdate rules ⟨true, false, legacyDNSMode⟩ state.published tag
        metadata = .ok ()) :
      ReloadStep rules legacyDNSMode condition state
        { state with pending := ⟨tag, metadata, state.published⟩ :: state.pending }
  | publish (state : ReloadState) (before after : List PendingReload) (reload : PendingReload)
      (listed : state.pending = before ++ reload :: after) (allowed : condition state reload) :
      ReloadStep rules legacyDNSMode condition state
        ⟨reload.publish state.published, before ++ after⟩

def publishedMetadata (published : PublishedMetadata) : RuleSetLookup :=
  lookupDNSRuleSetMetadata published fun _ => none

/-- The router was started in the mode: `buildRules` accepted its rules. -/
def RouterStarted (rules : List Options.DNSRule) (legacyDNSMode : Bool)
    (published : PublishedMetadata) : Prop :=
  (∃ flags, resolveLegacyDNSMode (publishedMetadata published) rules = .ok (legacyDNSMode, flags)) ∧
    (legacyDNSMode = false →
      ∃ warnings, validateLegacyDNSModeDisabledRules (publishedMetadata published) rules = .ok warnings)

/-- The published metadata fits the mode: outside legacy mode the rules do not require
it and are accepted, in it nothing disables it. -/
def RouterConsistent (rules : List Options.DNSRule) (legacyDNSMode : Bool)
    (published : PublishedMetadata) : Prop :=
  if legacyDNSMode then
    ∃ flags, dnsRuleModeRequirements (publishedMetadata published) rules = .ok flags ∧
      flags.disabled = false
  else
    (∃ flags, resolveLegacyDNSMode (publishedMetadata published) rules = .ok (false, flags)) ∧
      ∃ warnings, validateLegacyDNSModeDisabledRules (publishedMetadata published) rules = .ok warnings

/-- No other set has published anything else since the reload was validated. -/
def Undisturbed (legacyDNSMode : Bool) (state : ReloadState) (reload : PendingReload) : Prop :=
  legacyDNSMode = true ∨ ∀ other, other ≠ reload.tag → state.published other = reload.seen other

theorem publishedMetadata_publish (reload : PendingReload) (published : PublishedMetadata) :
    publishedMetadata (reload.publish published) =
      overriddenMetadata published reload.tag reload.metadata := by
  funext tag
  unfold publishedMetadata overriddenMetadata lookupDNSRuleSetMetadata PendingReload.publish
  by_cases same : tag = reload.tag <;> simp [same]

theorem overriddenMetadata_self (published : PublishedMetadata) (tag : String)
    (metadata : RuleSetMetadata) : overriddenMetadata published tag metadata tag = .ok metadata := by
  unfold overriddenMetadata lookupDNSRuleSetMetadata
  simp
  rfl

variable {tag : String} {metadata : RuleSetMetadata}

theorem overriddenMetadata_other (published : PublishedMetadata) {other : String}
    (metadata : RuleSetMetadata) (different : other ≠ tag) :
    overriddenMetadata published tag metadata other = publishedMetadata published other := by
  unfold overriddenMetadata publishedMetadata lookupDNSRuleSetMetadata
  simp [different]

def Loaded (wanted : RuleSetMetadata → Prop) (lookup : RuleSetLookup) (tag : String) : Prop :=
  ∃ metadata, lookup tag = .ok metadata ∧ wanted metadata

/-! ### The flag that disables legacy mode

Only `ContainsDNSQueryTypeRule` of the referenced sets enters the flag, each set on
its own. -/

mutual

def ruleSetTags : Options.DNSRule → List String
  | .default rule => rule.ruleSet
  | .logical _ rules _ _ => allRuleSetTags rules

def allRuleSetTags : List Options.DNSRule → List String
  | [] => []
  | rule :: rest => ruleSetTags rule ++ allRuleSetTags rest

end

mutual

/-- The rule disables legacy mode whatever the sets contain. -/
def disablesByItself : Options.DNSRule → Bool
  | .default rule =>
      defaultRuleDisablesLegacyDNSMode rule || dnsRuleActionDisablesLegacyDNSMode rule.dnsRuleAction
  | .logical _ rules _ action =>
      (isEvaluate action.action || isRespond action.action ||
        dnsRuleActionDisablesLegacyDNSMode action) || anyDisablesByItself rules

def anyDisablesByItself : List Options.DNSRule → Bool
  | [] => false
  | rule :: rest => disablesByItself rule || anyDisablesByItself rest

end

abbrev QueryTypeFree : RuleSetLookup → String → Prop :=
  Loaded fun metadata => metadata.containsDNSQueryTypeRule = false

theorem merge_disabled_foldl (sets : List DnsRuleModeFlags) (own : DnsRuleModeFlags) :
    (sets.foldl merge own).disabled = false ↔
      own.disabled = false ∧ ∀ flags ∈ sets, flags.disabled = false := by
  induction sets generalizing own with
  | nil => simp
  | cons flags rest ih =>
      rw [List.foldl_cons, ih]
      simp only [merge, Bool.or_eq_false_iff, List.mem_cons, forall_eq_or_imp, and_assoc]

variable (lookup : RuleSetLookup)

theorem lookupAll_queryTypeFree (tags : List String) :
    (∃ sets, lookupAll lookup tags = .ok sets ∧
        ∀ metadata ∈ sets, metadata.containsDNSQueryTypeRule = false) ↔
      ∀ tag ∈ tags, QueryTypeFree lookup tag := by
  induction tags with
  | nil =>
      simp only [lookupAll, pure_eq_ok_iff, List.not_mem_nil, false_implies, implies_true, iff_true]
      exact ⟨[], rfl, nofun⟩
  | cons tag rest ih =>
      rw [List.forall_mem_cons, ← ih]
      simp only [lookupAll, bind_eq_ok_iff, pure_eq_ok_iff]
      constructor
      · rintro ⟨sets, ⟨metadata, found, others, remaining, rfl⟩, free⟩
        rw [List.forall_mem_cons] at free
        exact ⟨⟨metadata, found, free.1⟩, others, remaining, free.2⟩
      · rintro ⟨⟨metadata, found, free⟩, others, remaining, freeOthers⟩
        exact ⟨_, ⟨metadata, found, others, remaining, rfl⟩, List.forall_mem_cons.mpr ⟨free, freeOthers⟩⟩

theorem defaultRule_disabled_iff (rule : Options.DefaultDNSRule) :
    (∃ flags, dnsRuleModeRequirementsInDefaultRule lookup rule = .ok flags ∧ flags.disabled = false) ↔
      disablesByItself (.default rule) = false ∧ ∀ tag ∈ rule.ruleSet, QueryTypeFree lookup tag := by
  rw [← lookupAll_queryTypeFree]
  unfold dnsRuleModeRequirementsInDefaultRule disablesByItself
  simp only [bind_eq_ok_iff, pure_eq_ok_iff]
  constructor
  · rintro ⟨flags, ⟨sets, found, rfl⟩, enabled⟩
    rw [merge_disabled_foldl] at enabled
    refine ⟨enabled.1, sets, found, fun metadata member => ?_⟩
    exact enabled.2 _ (List.mem_map_of_mem member)
  · rintro ⟨own, sets, found, free⟩
    refine ⟨_, ⟨sets, found, rfl⟩, (merge_disabled_foldl _ _).mpr ⟨own, ?_⟩⟩
    intro flags member
    obtain ⟨metadata, listed, rfl⟩ := List.mem_map.mp member
    exact free metadata listed

mutual

theorem rule_disabled_iff (lookup : RuleSetLookup) (rule : Options.DNSRule) :
    (∃ flags, dnsRuleModeRequirementsInRule lookup rule = .ok flags ∧ flags.disabled = false) ↔
      disablesByItself rule = false ∧ ∀ tag ∈ ruleSetTags rule, QueryTypeFree lookup tag := by
  match rule with
  | .default options =>
      unfold dnsRuleModeRequirementsInRule ruleSetTags
      exact defaultRule_disabled_iff lookup options
  | .logical mode rules invert action =>
      unfold dnsRuleModeRequirementsInRule ruleSetTags disablesByItself
      simp only [rules_disabled_iff lookup "sub rule" 0 rules, Bool.or_eq_false_iff, and_assoc]

theorem rules_disabled_iff (lookup : RuleSetLookup) (context : String) (index : Nat)
    (rules : List Options.DNSRule) (own : DnsRuleModeFlags) :
    (∃ flags, dnsRuleModeRequirementsInRules lookup context index rules own = .ok flags ∧
        flags.disabled = false) ↔
      own.disabled = false ∧ anyDisablesByItself rules = false ∧
        ∀ tag ∈ allRuleSetTags rules, QueryTypeFree lookup tag := by
  match rules with
  | [] =>
      unfold dnsRuleModeRequirementsInRules anyDisablesByItself allRuleSetTags
      simp [pure_eq_ok_iff]
  | rule :: rest =>
      unfold dnsRuleModeRequirementsInRules anyDisablesByItself allRuleSetTags
      rw [Bool.or_eq_false_iff, List.forall_mem_append]
      have first := rule_disabled_iff lookup rule
      simp only [bind_eq_ok_iff, mapError_eq_ok_iff]
      have remaining := rules_disabled_iff lookup context (index + 1) rest
      constructor
      · rintro ⟨flags, ⟨ruleFlags, required, later⟩, enabled⟩
        obtain ⟨merged, others⟩ := (remaining _).mp ⟨flags, later, enabled⟩
        rw [merge, Bool.or_eq_false_iff] at merged
        obtain ⟨itself, sets⟩ := first.mp ⟨ruleFlags, required, merged.2⟩
        exact ⟨merged.1, ⟨itself, others.1⟩, sets, others.2⟩
      · rintro ⟨ownEnabled, ⟨itself, others⟩, sets, otherSets⟩
        obtain ⟨ruleFlags, required, ruleEnabled⟩ := first.mpr ⟨itself, sets⟩
        have merged : (own.merge ruleFlags).disabled = false := by
          rw [merge, ownEnabled, ruleEnabled]
          rfl
        obtain ⟨flags, later, enabled⟩ := (remaining _).mpr ⟨merged, others, otherSets⟩
        exact ⟨flags, ⟨ruleFlags, required, later⟩, enabled⟩

end

/-! ### Acceptance outside legacy mode

The sets enter the validation one by one as well, and only to be refused: which
responses a rule uses does not depend on them. -/

mutual

def unansweredTags : Options.DNSRule → List String
  | .default rule => if rule.matchResponse.isEnabled then [] else rule.ruleSet
  | .logical _ rules _ _ => allUnansweredTags rules

def allUnansweredTags : List Options.DNSRule → List String
  | [] => []
  | rule :: rest => unansweredTags rule ++ allUnansweredTags rest

end

/-- The set is loaded and has something to match before a response is known. -/
abbrev Matchable : RuleSetLookup → String → Prop :=
  Loaded fun metadata => isPureIPCIDR metadata = false

def emptySets : RuleSetLookup := fun _ => .ok ⟨false, false, false⟩

theorem validateRuleSets_iff (tags : List String) :
    validateRuleSets lookup tags = .ok () ↔ ∀ tag ∈ tags, Matchable lookup tag := by
  induction tags with
  | nil => simp [validateRuleSets, pure_eq_ok_iff]
  | cons tag rest ih =>
      unfold validateRuleSets
      simp only [throw_bind, bind_eq_ok_iff, ite_throw_eq_ok_iff, ih,
        List.forall_mem_cons, Loaded, Bool.not_eq_true]
      constructor
      · rintro ⟨metadata, found, mixed, others⟩
        exact ⟨⟨metadata, found, mixed⟩, others⟩
      · rintro ⟨⟨metadata, found, mixed⟩, others⟩
        exact ⟨metadata, found, mixed, others⟩

theorem validateRuleSets_emptySets (tags : List String) :
    validateRuleSets emptySets tags = .ok () := by
  rw [validateRuleSets_iff]
  exact fun tag _ => ⟨_, rfl, rfl⟩

theorem defaultRule_accepted_iff (rule : Options.DefaultDNSRule) (use : DnsRuleResponseUse) :
    validateLegacyDNSModeDisabledDefaultRule lookup rule = .ok use ↔
      (∀ tag ∈ unansweredTags (.default rule), Matchable lookup tag) ∧
        validateLegacyDNSModeDisabledDefaultRule emptySets rule = .ok use := by
  unfold validateLegacyDNSModeDisabledDefaultRule unansweredTags
  cases enabled : rule.matchResponse.isEnabled with
  | true => simp
  | false =>
      simp only [throw_bind, ite_throw_eq_ok_iff, Bool.not_false, ↓reduceIte, bind_eq_ok_iff,
        validateRuleSets_emptySets, Bool.false_eq_true]
      rw [← validateRuleSets_iff]
      constructor
      · rintro ⟨fields, value, sets, rest⟩
        exact ⟨sets, fields, (), trivial, rest⟩
      · rintro ⟨sets, fields, value, -, rest⟩
        exact ⟨fields, (), sets, rest⟩

mutual

theorem tree_accepted_iff (lookup : RuleSetLookup) (rule : Options.DNSRule) (use : DnsRuleResponseUse) :
    validateLegacyDNSModeDisabledRuleTree lookup rule = .ok use ↔
      (∀ tag ∈ unansweredTags rule, Matchable lookup tag) ∧
        validateLegacyDNSModeDisabledRuleTree emptySets rule = .ok use := by
  match rule with
  | .default options =>
      unfold validateLegacyDNSModeDisabledRuleTree
      exact defaultRule_accepted_iff lookup options use
  | .logical mode rules invert action =>
      unfold validateLegacyDNSModeDisabledRuleTree unansweredTags
      rw [bind_eq_ok_iff, bind_eq_ok_iff]
      simp only [subRules_accepted_iff lookup 0 rules, and_assoc, exists_and_left]

theorem subRules_accepted_iff (lookup : RuleSetLookup) (index : Nat) (rules : List Options.DNSRule)
    (use : DnsRuleResponseUse) :
    validateSubRules lookup index rules = .ok use ↔
      (∀ tag ∈ allUnansweredTags rules, Matchable lookup tag) ∧
        validateSubRules emptySets index rules = .ok use := by
  match rules with
  | [] =>
      unfold validateSubRules allUnansweredTags
      simp
  | rule :: rest =>
      unfold validateSubRules allUnansweredTags
      simp only [bind_eq_ok_iff, mapError_eq_ok_iff, List.forall_mem_append]
      constructor
      · rintro ⟨first, accepted, others, later, same⟩
        rw [tree_accepted_iff] at accepted
        rw [subRules_accepted_iff] at later
        exact ⟨⟨accepted.1, later.1⟩, first, accepted.2, others, later.2, same⟩
      · rintro ⟨⟨sets, otherSets⟩, first, accepted, others, later, same⟩
        exact ⟨first, (tree_accepted_iff lookup rule first).mpr ⟨sets, accepted⟩, others,
          (subRules_accepted_iff lookup (index + 1) rest others).mpr ⟨otherSets, later⟩, same⟩

end

theorem rules_accepted_iff (index : Nat) (rules : List Options.DNSRule) (state final : RuleValidation) :
    validateRules lookup index rules state = .ok final ↔
      (∀ tag ∈ allUnansweredTags rules, Matchable lookup tag) ∧
        validateRules emptySets index rules state = .ok final := by
  induction rules generalizing index state with
  | nil =>
      unfold validateRules allUnansweredTags
      simp
  | cons rule rest ih =>
      unfold validateRules validateRule allUnansweredTags
      simp only [bind_eq_ok_iff, mapError_eq_ok_iff, List.forall_mem_append]
      constructor
      · rintro ⟨next, ⟨use, accepted, checked⟩, later⟩
        rw [tree_accepted_iff] at accepted
        rw [ih] at later
        exact ⟨⟨accepted.1, later.1⟩, next, ⟨use, accepted.2, checked⟩, later.2⟩
      · rintro ⟨⟨sets, otherSets⟩, next, ⟨use, accepted, checked⟩, later⟩
        exact ⟨next, ⟨use, (tree_accepted_iff lookup rule use).mpr ⟨sets, accepted⟩, checked⟩,
          (ih _ _).mpr ⟨otherSets, later⟩⟩

theorem validate_ok_iff (rules : List Options.DNSRule) :
    (∃ warnings, validateLegacyDNSModeDisabledRules lookup rules = .ok warnings) ↔
      (∀ tag ∈ allUnansweredTags rules, Matchable lookup tag) ∧
        ∃ warnings, validateLegacyDNSModeDisabledRules emptySets rules = .ok warnings := by
  unfold validateLegacyDNSModeDisabledRules
  simp only [bind_eq_ok_iff, pure_eq_ok_iff, rules_accepted_iff lookup]
  constructor
  · rintro ⟨warnings, final, ⟨sets, accepted⟩, same⟩
    exact ⟨sets, warnings, final, accepted, same⟩
  · rintro ⟨sets, warnings, final, accepted, same⟩
    exact ⟨warnings, final, ⟨sets, accepted⟩, same⟩

/-! ### What a validation promises -/

theorem resolve_ok_iff (rules : List Options.DNSRule) (mode : Bool) (flags : DnsRuleModeFlags) :
    resolveLegacyDNSMode lookup rules = .ok (mode, flags) ↔
      dnsRuleModeRequirements lookup rules = .ok flags ∧ modeOfFlags flags = .ok mode := by
  unfold resolveLegacyDNSMode
  simp only [bind_eq_ok_iff, pure_eq_ok_iff, Prod.mk.injEq]
  constructor
  · rintro ⟨found, required, resolved, chosen, rfl, rfl⟩
    exact ⟨required, chosen⟩
  · rintro ⟨required, chosen⟩
    exact ⟨flags, required, mode, chosen, rfl, rfl⟩

theorem enabled_of_mode {flags : DnsRuleModeFlags} (legacy : modeOfFlags flags = .ok true) :
    flags.disabled = false := by
  unfold modeOfFlags at legacy
  cases disabled : flags.disabled with
  | false => rfl
  | true =>
      rw [disabled] at legacy
      cases strategy : flags.neededFromStrategy <;> rw [strategy] at legacy <;> cases legacy

/-- Nothing disables legacy mode. -/
theorem requirements_enabled_iff (rules : List Options.DNSRule) :
    (∃ flags, dnsRuleModeRequirements lookup rules = .ok flags ∧ flags.disabled = false) ↔
      anyDisablesByItself rules = false ∧ ∀ tag ∈ allRuleSetTags rules, QueryTypeFree lookup tag := by
  unfold dnsRuleModeRequirements
  rw [rules_disabled_iff]
  exact and_iff_right rfl

variable {rules : List Options.DNSRule} {published : PublishedMetadata}
  {condition : ReloadState → PendingReload → Prop} {state : ReloadState}

theorem accepted_legacy
    (accepted : validateRuleSetMetadataUpdate rules ⟨true, false, true⟩ published tag metadata = .ok ())
    (referenced : tag ∈ allRuleSetTags rules) : metadata.containsDNSQueryTypeRule = false := by
  have nonempty : rules.isEmpty = false := by
    cases rules with
    | nil => cases referenced
    | cons rule rest => rfl
  unfold validateRuleSetMetadataUpdate at accepted
  simp only [nonempty, Bool.or_self, Bool.false_eq_true, ↓reduceIte, Bool.not_true, bind_eq_ok_iff,
    Prod.exists] at accepted
  obtain ⟨candidate, flags, resolved, checked⟩ := accepted
  rw [resolve_ok_iff] at resolved
  have enabled : flags.disabled = false := by
    cases candidate with
    | true => exact enabled_of_mode resolved.2
    | false =>
        cases disabled : flags.disabled with
        | false => rfl
        | true =>
            rw [disabled] at checked
            simp only [Bool.not_false, Bool.and_self, ↓reduceIte, bind_eq_ok_iff] at checked
            obtain ⟨warnings, -, impossible⟩ := checked
            cases impossible
  obtain ⟨-, free⟩ := (requirements_enabled_iff _ rules).mp ⟨flags, resolved.1, enabled⟩
  obtain ⟨found, lookedUp, queryFree⟩ := free tag referenced
  rw [overriddenMetadata_self] at lookedUp
  cases lookedUp
  exact queryFree

/-- The lookup leads outside legacy mode, and the rules are accepted there. -/
def Modern (lookup : RuleSetLookup) (rules : List Options.DNSRule) : Prop :=
  (∃ flags, resolveLegacyDNSMode lookup rules = .ok (false, flags)) ∧
    ∃ warnings, validateLegacyDNSModeDisabledRules lookup rules = .ok warnings

theorem accepted_modern
    (accepted : validateRuleSetMetadataUpdate rules ⟨true, false, false⟩ published tag metadata = .ok ()) :
    Modern (overriddenMetadata published tag metadata) rules := by
  cases rules with
  | nil => exact ⟨⟨_, rfl⟩, _, rfl⟩
  | cons rule rest =>
      unfold validateRuleSetMetadataUpdate at accepted
      simp only [List.isEmpty_cons, Bool.or_self, Bool.false_eq_true, ↓reduceIte, Bool.not_true,
        throw_bind, bind_eq_ok_iff, ite_throw_eq_ok_iff, Prod.exists, Bool.not_eq_true] at accepted
      obtain ⟨candidate, flags, resolved, rfl, warnings, validated, -⟩ := accepted
      exact ⟨⟨flags, resolved⟩, warnings, validated⟩

/-- Every set of a list is loaded as wanted, and will be after each pending reload. -/
structure SetsInvariant (wanted : RuleSetMetadata → Prop) (tags : List String) (state : ReloadState) :
    Prop where
  published : ∀ tag ∈ tags, Loaded wanted (publishedMetadata state.published) tag
  pending : ∀ reload ∈ state.pending, reload.tag ∈ tags → wanted reload.metadata

/-- What every validation asks of the reloaded set alone holds in every run. -/
theorem SetsInvariant.run {wanted : RuleSetMetadata → Prop} {tags : List String}
    {legacyDNSMode : Bool} {start : ReloadState}
    (asks : ∀ published tag metadata,
      validateRuleSetMetadataUpdate rules ⟨true, false, legacyDNSMode⟩ published tag metadata = .ok () →
        tag ∈ tags → wanted metadata) (initially : SetsInvariant wanted tags start)
    (run : Relation.ReflTransGen (ReloadStep rules legacyDNSMode condition) start state) :
    SetsInvariant wanted tags state := by
  induction run with
  | refl => exact initially
  | tail _ moves invariant =>
      cases moves with
      | validate tag metadata accepted =>
          refine ⟨invariant.published, ?_⟩
          rw [List.forall_mem_cons]
          exact ⟨asks _ tag metadata accepted, invariant.pending⟩
      | publish before after reload listed allowed =>
          have pending := invariant.pending
          rw [listed, List.forall_mem_append, List.forall_mem_cons] at pending
          obtain ⟨earlier, current, later⟩ := pending
          refine ⟨?_, List.forall_mem_append.mpr ⟨earlier, later⟩⟩
          intro tag referenced
          unfold Loaded
          rw [publishedMetadata_publish]
          by_cases same : tag = reload.tag
          · subst same
            exact ⟨_, overriddenMetadata_self _ _ _, current referenced⟩
          · rw [overriddenMetadata_other _ _ same]
            exact invariant.published tag referenced

/-- The invariant of undisturbed runs outside legacy mode. -/
structure ModernInvariant (rules : List Options.DNSRule) (state : ReloadState) : Prop where
  published : Modern (publishedMetadata state.published) rules
  pending : ∀ reload ∈ state.pending, Modern (overriddenMetadata reload.seen reload.tag reload.metadata) rules

theorem ModernInvariant.step {next : ReloadState} (invariant : ModernInvariant rules state)
    (moves : ReloadStep rules false (Undisturbed false) state next) : ModernInvariant rules next := by
  cases moves with
  | validate tag metadata accepted =>
      refine ⟨invariant.published, ?_⟩
      rw [List.forall_mem_cons]
      exact ⟨accepted_modern accepted, invariant.pending⟩
  | publish before after reload listed allowed =>
      have pending := invariant.pending
      rw [listed, List.forall_mem_append, List.forall_mem_cons] at pending
      obtain ⟨earlier, current, later⟩ := pending
      refine ⟨?_, List.forall_mem_append.mpr ⟨earlier, later⟩⟩
      have unchanged := allowed.resolve_left Bool.false_ne_true
      have sameLookup : overriddenMetadata state.published reload.tag reload.metadata =
          overriddenMetadata reload.seen reload.tag reload.metadata := by
        funext tag
        by_cases same : tag = reload.tag
        · rw [same, overriddenMetadata_self, overriddenMetadata_self]
        · rw [overriddenMetadata_other _ _ same, overriddenMetadata_other _ _ same]
          unfold publishedMetadata lookupDNSRuleSetMetadata
          rw [unchanged tag same]
      rw [publishedMetadata_publish, sameLookup]
      exact current

theorem reloads_keep_legacy (started : RouterStarted rules true published)
    (run : Relation.ReflTransGen (ReloadStep rules true condition) ⟨published, []⟩ state) :
    RouterConsistent rules true state.published := by
  obtain ⟨⟨flags, resolved⟩, -⟩ := started
  rw [resolve_ok_iff] at resolved
  obtain ⟨itself, free⟩ := (requirements_enabled_iff _ rules).mp
    ⟨flags, resolved.1, enabled_of_mode resolved.2⟩
  have invariant := SetsInvariant.run (fun _ _ _ => accepted_legacy) ⟨free, List.forall_mem_nil _⟩ run
  exact (requirements_enabled_iff _ rules).mpr ⟨itself, invariant.published⟩

theorem reloads_keep_acceptance (started : RouterStarted rules false published)
    (run : Relation.ReflTransGen (ReloadStep rules false condition) ⟨published, []⟩ state) :
    ∃ warnings, validateLegacyDNSModeDisabledRules (publishedMetadata state.published) rules =
      .ok warnings := by
  obtain ⟨matchable, itself⟩ := (validate_ok_iff _ rules).mp (started.2 rfl)
  have asks (at_ : PublishedMetadata) (tag : String) (metadata : RuleSetMetadata)
      (accepted : validateRuleSetMetadataUpdate rules ⟨true, false, false⟩ at_ tag metadata = .ok ())
      (referenced : tag ∈ allUnansweredTags rules) : isPureIPCIDR metadata = false := by
    obtain ⟨updated, -⟩ := (validate_ok_iff _ rules).mp (accepted_modern accepted).2
    obtain ⟨found, lookedUp, mixed⟩ := updated tag referenced
    rw [overriddenMetadata_self] at lookedUp
    cases lookedUp
    exact mixed
  have invariant := SetsInvariant.run asks ⟨matchable, List.forall_mem_nil _⟩ run
  exact (validate_ok_iff _ rules).mpr ⟨invariant.published, itself⟩

/-- **The running mode stays consistent** in every run in which no other set publishes
between the validation and the publication of a reload. In legacy mode every run
qualifies, and outside it every run at least keeps the rules acceptable. -/
theorem reloads_keep_mode (rules : List Options.DNSRule) (legacyDNSMode : Bool)
    (published : PublishedMetadata) (started : RouterStarted rules legacyDNSMode published)
    (state : ReloadState) :
    (Relation.ReflTransGen (ReloadStep rules legacyDNSMode (Undisturbed legacyDNSMode))
        ⟨published, []⟩ state →
      RouterConsistent rules legacyDNSMode state.published) ∧
    (Relation.ReflTransGen (ReloadStep rules legacyDNSMode fun _ _ => True) ⟨published, []⟩ state →
      if legacyDNSMode then RouterConsistent rules legacyDNSMode state.published
      else ∃ warnings, validateLegacyDNSModeDisabledRules (publishedMetadata state.published) rules =
        .ok warnings) := by
  cases legacyDNSMode with
  | true => exact ⟨reloads_keep_legacy started, reloads_keep_legacy started⟩
  | false =>
      refine ⟨fun run => ?_, reloads_keep_acceptance started⟩
      have invariant : ModernInvariant rules state := by
        induction run with
        | refl => exact ⟨⟨started.1, started.2 rfl⟩, nofun⟩
        | tail _ moves ih => exact ih.step moves
      exact invariant.published

def routeBySet (tag : String) : Options.DNSRule :=
  .default { Options.DefaultDNSRule.zero with
    ruleSet := [tag], dnsRuleAction := ⟨false, some (.dnsRoute "remote" false .zero)⟩ }

def queryTypeAndDomains : PublishedMetadata := fun tag =>
  if tag = "types" then some ⟨false, true, true⟩
  else if tag = "domains" then some ⟨false, false, true⟩ else none

/-- Adding an address range to the set of domains while the query type stays. -/
theorem reloads_keep_mode_addRange :
    let rules := [routeBySet "types", routeBySet "domains"]
    let reload : PendingReload := ⟨"domains", ⟨true, false, true⟩, queryTypeAndDomains⟩
    RouterConsistent rules false (reload.publish queryTypeAndDomains) := by
  intro rules reload
  have started : RouterStarted rules false queryTypeAndDomains := ⟨⟨_, rfl⟩, fun _ => ⟨_, rfl⟩⟩
  refine (reloads_keep_mode rules false queryTypeAndDomains started
    ⟨reload.publish queryTypeAndDomains, []⟩).1 ?_
  refine .tail (.single (.validate _ "domains" ⟨true, false, true⟩ rfl)) ?_
  exact .publish ⟨queryTypeAndDomains, [reload]⟩ [] [] reload rfl (Or.inr fun _ _ => rfl)

/-- Two reloads that were validated before either was published: one drops the query
type, the other adds an address range. Together they require legacy mode. -/
theorem reloads_break_mode :
    let rules := [routeBySet "types", routeBySet "domains"]
    ∃ state, RouterStarted rules false queryTypeAndDomains ∧
      Relation.ReflTransGen (ReloadStep rules false fun _ _ => True) ⟨queryTypeAndDomains, []⟩ state ∧
      ¬RouterConsistent rules false state.published := by
  intro rules
  let dropped : PendingReload := ⟨"types", ⟨false, false, true⟩, queryTypeAndDomains⟩
  let added : PendingReload := ⟨"domains", ⟨true, false, true⟩, queryTypeAndDomains⟩
  refine ⟨⟨added.publish (dropped.publish queryTypeAndDomains), []⟩,
    ⟨⟨_, rfl⟩, fun _ => ⟨_, rfl⟩⟩, ?_, ?_⟩
  · refine .tail (.tail (.tail (.single (.validate _ "types" dropped.metadata rfl))
      (.validate _ "domains" added.metadata rfl)) (.publish _ [added] [] dropped rfl trivial)) ?_
    exact .publish ⟨dropped.publish queryTypeAndDomains, [added]⟩ [] [] added rfl trivial
  · rintro ⟨⟨flags, resolved⟩, -⟩
    have required : resolveLegacyDNSMode
        (publishedMetadata (added.publish (dropped.publish queryTypeAndDomains))) rules =
          .ok (true, ⟨false, true, false⟩) := rfl
    cases resolved

end SideraCore.Dns
