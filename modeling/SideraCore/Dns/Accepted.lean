import SideraCore.Control.Except
import SideraCore.Dns.Mode
import SideraCore.Rule.Responses

/-!
Owns what `buildRules` guarantees of the rules it accepts outside legacy mode: a rule
reads only responses it binds, refers only to tags that an evaluate rule before it
defines, and no two evaluate rules define one tag.
-/

namespace SideraCore.Dns

open Rule Control

def evaluateTag : Option RuleAction → Option String
  | some (.evaluate _ tag _ _) => if tag = "" then none else some tag
  | _ => none

def evaluateTags (rules : List DNSRule) : List String := rules.filterMap fun rule => evaluateTag rule.action

variable {rules : List DNSRule} {index : Nat} {context : RuleContext} {options : Options.DefaultDNSRule}
  {lookup : RuleSetLookup} {use : DnsRuleResponseUse} {state next : RuleValidation}
  {rawRules : List Options.DNSRule} {rule : DNSRule} {tag : String} {legacyDNSMode : Bool}

theorem evaluateTags_take_subset {first second : Nat} (le : first ≤ second) :
    evaluateTags (rules.take first) ⊆ evaluateTags (rules.take second) := by
  intro tag member
  simp only [evaluateTags, List.mem_filterMap] at member ⊢
  obtain ⟨rule, earlier, defines⟩ := member
  exact ⟨rule, (List.take_subset_take_left _ le) earlier, defines⟩

/-- A rule that may stand after the definitions of the tags. -/
structure Admits (defined : List String) (rule : DNSRule) : Prop where
  reads : rule.ReadsBound
  responds : rule.action = some .respond → rule.matchResponseTag = "" → rule.matchResponseTags = []
  binds : rule.race = true → rule.matchResponseTags ≠ [] ∨ rule.matchResponseAnonymous = true
  references : ∀ tag ∈ rule.matchResponseTags, tag ∈ defined
  distinct : ∀ tag, evaluateTag rule.action = some tag → tag ∉ defined

def Admissible (defined : List String) : List DNSRule → Prop
  | [] => True
  | rule :: rest => Admits defined rule ∧ Admissible (defined ++ (evaluateTag rule.action).toList) rest

theorem Admissible.admits {defined : List String} (admissible : Admissible defined rules)
    (found : rules[index]? = some rule) :
    Admits (defined ++ evaluateTags (rules.take index)) rule := by
  induction rules generalizing defined index with
  | nil => cases found
  | cons first rest ih =>
      cases index with
      | zero =>
          cases found
          simpa [evaluateTags] using admissible.1
      | succ earlier =>
          have later := ih admissible.2 found
          cases tagged : evaluateTag first.action with
          | none | some tag => simpa [evaluateTags, tagged] using later

structure Built (action : Option RuleAction) (referenced : List String) (rule : DNSRule) : Prop where
  action : rule.action = action
  reads : rule.ReadsBound
  tags : ∀ tag ∈ rule.matchResponseTags, tag ∈ referenced
  responds : rule.action = some .respond → rule.matchResponseTag = "" → rule.matchResponseTags = []
  binds : rule.race = true → rule.matchResponseTags ≠ [] ∨ rule.matchResponseAnonymous = true

/-- Without response fields the items of a rule read no response. -/
theorem newRuleItems_deaf (fields : hasResponseMatchFields options = false) :
    (newRuleItems context options).Deaf := by
  have none_ : responseItems options = [] := by
    simp only [hasResponseMatchFields, Bool.or_eq_false_iff, Bool.not_eq_false'] at fields
    obtain ⟨⟨⟨rcode, answer⟩, ns⟩, extra⟩ := fields
    simp only [responseItems, answer, ns, extra, if_true, List.append_nil, List.map_eq_nil_iff]
    simpa using rcode
  intro item member
  simp only [RuleItems.allItems, newRuleItems, none_, List.append_nil, List.mem_append, List.mem_map,
    List.mem_ite_nil_right, List.mem_ite_nil_left, List.mem_singleton] at member
  rcases member with ((((((⟨-, rfl⟩ | ⟨-, rfl⟩) | ⟨_, -, rfl⟩) | ⟨_, -, rfl⟩ | ⟨-, rfl⟩) |
    ⟨_, -, rfl⟩) | ⟨_, -, rfl⟩) | (⟨_, -, rfl⟩ | ⟨-, rfl⟩) | ⟨-, rfl⟩) | ⟨_, -, rfl⟩ <;> rfl

theorem validateDefault_spec
    (accepted : validateLegacyDNSModeDisabledDefaultRule lookup options = .ok use) :
    (options.matchResponse.isEnabled = false → hasResponseMatchFields options = false) ∧
      use.referencedTags =
        if options.matchResponse.responseTag = "" then [] else [options.matchResponse.responseTag] := by
  unfold validateLegacyDNSModeDisabledDefaultRule at accepted
  simp only [throw_bind, ite_throw_eq_ok_iff] at accepted
  cases enabled : options.matchResponse.isEnabled with
  | true =>
      simp only [enabled, Bool.not_true, Bool.false_eq_true, if_false, ite_throw_eq_ok_iff,
        pure_eq_ok_iff] at accepted
      obtain ⟨-, -, rfl⟩ := accepted
      exact ⟨Bool.noConfusion, rfl⟩
  | false =>
      simp only [enabled, Bool.not_false, Bool.and_true, if_true, bind_eq_ok_iff, ite_throw_eq_ok_iff,
        pure_eq_ok_iff, Bool.not_eq_true, Bool.or_eq_false_iff] at accepted
      obtain ⟨fields, -, -, -, rfl⟩ := accepted
      exact ⟨fun _ => fields.1.1.1, rfl⟩

theorem newDefaultDNSRule_spec {rule : DefaultDNSRule}
    (built : newDefaultDNSRule context options legacyDNSMode = .ok rule) :
    rule.toRuleItems = newRuleItems context options ∧ rule.action = options.dnsRuleAction.action ∧
      rule.matchResponse = options.matchResponse.isEnabled ∧
      rule.matchResponseTag = options.matchResponse.responseTag ∧
      rule.race = options.dnsRuleAction.race := by
  unfold newDefaultDNSRule at built
  simp only [throw_bind, ite_throw_eq_ok_iff, bind_eq_ok_iff, pure_eq_ok_iff] at built
  obtain ⟨-, -, _, -, rfl⟩ := built
  exact ⟨rfl, rfl, rfl, rfl, rfl⟩

mutual

theorem built_of_validated {lookup : RuleSetLookup} {context : RuleContext}
    {checkServer legacyDNSMode : Bool} (options : Options.DNSRule) {use : DnsRuleResponseUse} {rule : DNSRule}
    (accepted : validateLegacyDNSModeDisabledRuleTree lookup options = .ok use)
    (built : newDNSRule context checkServer legacyDNSMode options = .ok rule) :
    Built options.action.action use.referencedTags rule := by
  match options with
  | .default options =>
      unfold validateLegacyDNSModeDisabledRuleTree at accepted
      unfold newDNSRule at built
      obtain ⟨fields, referenced⟩ := validateDefault_spec accepted
      simp only [throw_bind, bind_eq_ok_iff, ite_throw_eq_ok_iff] at built
      obtain ⟨-, -, -, raceChecked, checked⟩ := built
      have later := eq_ok_of_ite_check checked
      simp only [bind_eq_ok_iff, pure_eq_ok_iff] at later
      obtain ⟨defaultRule, defaultBuilt, rfl⟩ := later
      obtain ⟨items, action, binds, tag, race⟩ := newDefaultDNSRule_spec defaultBuilt
      refine ⟨action, ?_, ?_, ?_, ?_⟩
      · intro unbound
        rw [items]
        exact newRuleItems_deaf (fields (binds ▸ unbound))
      · intro other member
        rw [referenced, ← tag]
        exact member
      · intro _ untagged
        simp only [DNSRule.matchResponseTag] at untagged
        simp [DNSRule.matchResponseTags, untagged]
      · intro races
        rw [DNSRule.race, race] at races
        have enabled : defaultRule.matchResponse = true := by
          rw [binds]
          simpa [races] using raceChecked
        by_cases untagged : defaultRule.matchResponseTag = ""
        · exact .inr (by simp [DNSRule.matchResponseAnonymous, enabled, untagged])
        · exact .inl (by simp [DNSRule.matchResponseTags, untagged])
  | .logical mode rules invert action =>
      unfold validateLegacyDNSModeDisabledRuleTree at accepted
      unfold newDNSRule at built
      simp only [throw_bind, bind_eq_ok_iff, ite_throw_eq_ok_iff] at accepted built
      obtain ⟨-, -, -, checked⟩ := built
      have later := eq_ok_of_ite_check checked
      simp only [bind_eq_ok_iff, ite_throw_eq_ok_iff, pure_eq_ok_iff] at later
      obtain ⟨subRules, subBuilt, raceChecked, rfl⟩ := later
      obtain ⟨subUse, subAccepted, answered⟩ := accepted
      obtain ⟨reads, tags⟩ := built_of_validatedSubRules rules subAccepted subBuilt
      obtain ⟨untagged, same⟩ : (isRespond action.action = true → subUse.referencedTags = []) ∧
          use.referencedTags = subUse.referencedTags := by
        cases responds : isRespond action.action with
        | false =>
            simp only [responds, Bool.false_eq_true, if_false, pure_eq_ok_iff] at answered
            exact ⟨nofun, by rw [answered]⟩
        | true =>
            simp only [responds, if_true, ite_throw_eq_ok_iff, pure_eq_ok_iff] at answered
            exact ⟨fun _ => by simpa using answered.1, by rw [← answered.2]⟩
      have tagsOf : ∀ tag ∈ (DNSRule.logical mode subRules invert action.action action.race).matchResponseTags,
          tag ∈ subUse.referencedTags := by
        intro tag member
        unfold DNSRule.matchResponseTags at member
        exact tags tag (List.mem_eraseDups.1 member)
      refine ⟨rfl, ?_, same ▸ tagsOf, fun respond _ => ?_, fun races => ?_⟩
      · unfold DNSRule.ReadsBound
        exact reads
      · rw [DNSRule.action] at respond
        have none_ := untagged (by rw [respond]; rfl)
        exact List.eq_nil_iff_forall_not_mem.2 fun tag member =>
          List.not_mem_nil (none_ ▸ tagsOf tag member)
      · rw [DNSRule.race] at races
        rw [races] at raceChecked ⊢
        simpa [or_iff_not_imp_left] using raceChecked

theorem built_of_validatedSubRules {lookup : RuleSetLookup} {context : RuleContext}
    {legacyDNSMode : Bool} {index other : Nat} (rules : List Options.DNSRule) {use : DnsRuleResponseUse}
    {subRules : List DNSRule} (accepted : validateSubRules lookup index rules = .ok use)
    (built : newSubRules context legacyDNSMode other rules = .ok subRules) :
    DNSRule.AllReadBound subRules ∧
      ∀ tag ∈ DNSRule.allMatchResponseTags subRules, tag ∈ use.referencedTags := by
  match rules with
  | [] =>
      unfold newSubRules at built
      rw [pure_eq_ok_iff] at built
      subst built
      exact ⟨trivial, nofun⟩
  | options :: rest =>
      unfold validateSubRules at accepted
      unfold newSubRules at built
      simp only [bind_eq_ok_iff, mapError_eq_ok_iff, pure_eq_ok_iff] at accepted built
      obtain ⟨first, firstAccepted, others, othersAccepted, rfl⟩ := accepted
      obtain ⟨-, -, rule, ruleBuilt, later, laterBuilt, rfl⟩ := built
      have head := built_of_validated options firstAccepted ruleBuilt
      have tail := built_of_validatedSubRules rest othersAccepted laterBuilt
      refine ⟨⟨head.reads, tail.1⟩, ?_⟩
      unfold DNSRule.allMatchResponseTags
      rw [List.forall_mem_append]
      exact ⟨fun tag member => List.mem_append_left _ (head.tags tag member),
        fun tag member => List.mem_append_right _ (tail.2 tag member)⟩

end

theorem validateUse_spec (accepted : validateUse index use state = .ok next) :
    (∀ tag ∈ use.referencedTags, tag ∈ state.definedTags) ∧ next.definedTags = state.definedTags := by
  unfold validateUse at accepted
  simp only [throw_bind] at accepted
  by_cases missing : (use.needsAnonymous && !state.seenAnonymousEvaluate) = true
  · rw [if_pos missing] at accepted
    split at accepted <;> cases accepted
  · rw [if_neg missing] at accepted
    cases undefined : use.referencedTags.find? fun tag => !state.definedTags.contains tag with
    | some tag =>
        rw [undefined] at accepted
        cases accepted
    | none =>
        rw [undefined] at accepted
        cases accepted
        refine ⟨fun tag member => ?_, rfl⟩
        simpa using List.find?_eq_none.1 undefined tag member

theorem validateEvaluate_spec (accepted : validateEvaluate index tag state = .ok next) :
    if tag = "" then next.definedTags = state.definedTags
    else tag ∉ state.definedTags ∧ next.definedTags = state.definedTags ++ [tag] := by
  unfold validateEvaluate at accepted
  by_cases untagged : tag = ""
  · rw [if_pos untagged] at accepted ⊢
    cases accepted
    rfl
  · rw [if_neg untagged, ite_throw_eq_ok_iff, pure_eq_ok_iff] at accepted
    obtain ⟨fresh, rfl⟩ := accepted
    rw [if_neg untagged]
    exact ⟨by simpa using fresh, rfl⟩

theorem validateRule_spec {options : Options.DNSRule}
    (accepted : validateRule lookup index options state = .ok next) :
    ∃ use, validateLegacyDNSModeDisabledRuleTree lookup options = .ok use ∧
      (∀ tag ∈ use.referencedTags, tag ∈ state.definedTags) ∧
      (∀ tag, evaluateTag options.action.action = some tag → tag ∉ state.definedTags) ∧
      next.definedTags = state.definedTags ++ (evaluateTag options.action.action).toList := by
  unfold validateRule at accepted
  simp only [bind_eq_ok_iff, mapError_eq_ok_iff] at accepted
  obtain ⟨use, tree, read, readAccepted, defines⟩ := accepted
  obtain ⟨referenced, kept⟩ := validateUse_spec readAccepted
  refine ⟨use, tree, referenced, ?_⟩
  cases evaluates : isEvaluate options.action.action with
  | false =>
      have none_ : evaluateTag options.action.action = none := by
        cases action : options.action.action with
        | none => rfl
        | some ruleAction =>
            cases ruleAction with
            | evaluate => simp [action, isEvaluate] at evaluates
            | _ => rfl
      simp only [evaluates, Bool.false_eq_true, if_false, pure_eq_ok_iff] at defines
      subst defines
      simp [none_, kept]
  | true =>
      simp only [evaluates, if_true] at defines
      have defined := validateEvaluate_spec defines
      rw [kept] at defined
      have tagOf : evaluateTag options.action.action =
          if dnsRuleActionEvaluateTag options = "" then none else some (dnsRuleActionEvaluateTag options) := by
        unfold dnsRuleActionEvaluateTag
        cases action : options.action.action with
        | none => simp [action, isEvaluate] at evaluates
        | some ruleAction =>
            cases ruleAction with
            | evaluate => rfl
            | _ => simp [action, isEvaluate] at evaluates
      rw [tagOf]
      by_cases untagged : dnsRuleActionEvaluateTag options = ""
      · simpa [untagged] using defined
      · simpa [untagged] using defined

theorem admissible_of_validated {other : Nat} {final : RuleValidation}
    (accepted : validateRules lookup index rawRules state = .ok final)
    (built : newDNSRules context legacyDNSMode other rawRules = .ok rules) :
    Admissible state.definedTags rules := by
  induction rawRules generalizing index other state rules with
  | nil =>
      unfold newDNSRules at built
      rw [pure_eq_ok_iff] at built
      subst built
      trivial
  | cons options rest ih =>
      unfold validateRules at accepted
      unfold newDNSRules at built
      simp only [bind_eq_ok_iff, mapError_eq_ok_iff, pure_eq_ok_iff] at accepted built
      obtain ⟨next, firstAccepted, laterAccepted⟩ := accepted
      obtain ⟨rule, ruleBuilt, later, laterBuilt, rfl⟩ := built
      obtain ⟨use, tree, referenced, distinct, defined⟩ := validateRule_spec firstAccepted
      have built := built_of_validated options tree ruleBuilt
      have tail := ih laterAccepted laterBuilt
      rw [defined, ← built.action] at tail
      refine ⟨⟨built.reads, built.responds, built.binds, ?_, ?_⟩, tail⟩
      · exact fun tag member => referenced tag (built.tags tag member)
      · rw [built.action]
        exact distinct

/-- **What is accepted outside legacy mode is admissible.** -/
theorem buildRules_admissible {transports : DNSTransportManager}
    (built : buildRules context transports rawRules = .ok (rules, false)) : Admissible [] rules := by
  unfold buildRules at built
  simp only [bind_eq_ok_iff] at built
  obtain ⟨-, -, ⟨legacyDNSMode, flags⟩, -, checked⟩ := built
  cases legacyDNSMode with
  | true =>
      simp only [Bool.not_true, Bool.false_eq_true, if_false, bind_eq_ok_iff, pure_eq_ok_iff] at checked
      obtain ⟨_, _, _, _, result⟩ := checked
      cases result
  | false =>
      simp only [Bool.not_false, if_true, bind_eq_ok_iff, pure_eq_ok_iff] at checked
      obtain ⟨_, valid, _, _, started, startedBuilt, result⟩ := checked
      cases result
      unfold validateLegacyDNSModeDisabledRules at valid
      rw [bind_eq_ok_iff] at valid
      obtain ⟨final, validated, -⟩ := valid
      exact admissible_of_validated validated startedBuilt

end SideraCore.Dns
