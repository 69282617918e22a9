import SideraCore.Dns.RuleWalk.Copies
import SideraCore.Dns.RuleWalk.Termination

/-!
Owns the evaluation of rules without `race` and its sequential reference, which runs
the exchange of every matched evaluate rule to its end before it looks at the next
rule. Both agree in every run in which a rule is matched only after the responses it
binds by tag were copied. The walker does not ensure that: a completion between
settling and the check that the future is resolved leaves the copy out.
-/

namespace SideraCore.Dns.RuleWalk

open Rule Concurrency WalkState

/-! ### The sequential reference -/

/-- By whom and how each exchange of a sequential evaluation was answered. -/
structure Findings where
  effectiveOptions : DNSQueryOptions
  anonymous : Option (DNSTransport × ExchangeOutcome)
  named : String → Option (DNSTransport × ExchangeOutcome)

/-- What an evaluation returns, and the final exchange it makes. -/
abbrev Verdict := ExchangeWithRulesResult × Option (DNSTransport × DNSQueryOptions)

variable (query : Query)

def finalVerdict (transport : DNSTransport) (options : DNSQueryOptions) : Verdict :=
  let finalOptions := finalizeExchangeOptions query.defaultDomainStrategy options
  (exchangeResult transport (query.finalOutcome transport finalOptions), some (transport, finalOptions))

def answeredResponse (answer : Option (DNSTransport × ExchangeOutcome)) : Option Msg :=
  answer.bind fun found => responseOf found.2

def respondVerdict (answer : Option (DNSTransport × ExchangeOutcome)) : Verdict :=
  (respondResult (answeredResponse answer) (answer.map Prod.fst), none)

def Findings.bind (findings : Findings) (tag : String) (answer : DNSTransport × ExchangeOutcome) :
    Findings :=
  if tag = "" then
    { findings with anonymous := some answer }
  else
    { findings with named := Function.update findings.named tag (some answer) }

/-- The action of a matched rule, with every exchange run to its end. -/
def Findings.perform (index : Nat) (rule : DNSRule) (findings : Findings) :
    Findings ⊕ Verdict :=
  match rule.action with
  | none => .inl findings
  | some (.dnsRouteOptions options) =>
      .inl { findings with
        effectiveOptions := applyDNSRouteOptions findings.effectiveOptions options }
  | some (.evaluate server tag _ _) =>
      match query.transports.transport server with
      | none => .inl (if tag = "" then { findings with anonymous := none } else findings)
      | some transport => .inl (findings.bind tag (transport, query.outcome index))
  | some .respond =>
      .inr (respondVerdict (if rule.matchResponseTag ≠ "" then findings.named rule.matchResponseTag
        else findings.anonymous))
  | some (.dnsRoute server _ options) =>
      match resolveDNSRoute query.transports server options query.allowFakeIP
          findings.effectiveOptions with
      | .resolved transport queryOptions => .inr (finalVerdict query transport queryOptions)
      | _ => .inl findings
  | some (.reject action) =>
      match rejectResult query action with
      | some result => .inr (result, none)
      | none => .inl findings
  | some (.predefined action) => .inr (predefinedResult query action, none)

def Findings.step (index : Nat) (rule : DNSRule) (findings : Findings) :
    Findings ⊕ Verdict :=
  if rule.isMatch (judgedMetadata query (answeredResponse findings.anonymous)
      fun tag => answeredResponse (findings.named tag)) then
    findings.perform query index rule
  else
    .inl findings

/-- The sequential evaluation of the rules from the index on. -/
def sequentialFrom (query : Query) : List DNSRule → Nat → Findings → Verdict
  | [], _, findings => finalVerdict query query.transports.default findings.effectiveOptions
  | rule :: rest, index, findings =>
      match findings.step query index rule with
      | .inl after => sequentialFrom query rest (index + 1) after
      | .inr verdict => verdict

def sequentialExchange : Verdict :=
  sequentialFrom query query.rules 0 ⟨query.options, none, fun _ => none⟩

/-! ### The walk follows the reference -/

/-- What the reference has found out where the walk is. -/
def findingsOf (state : WalkState) (world : World) : Findings where
  effectiveOptions := state.effectiveOptions
  anonymous := state.anonymousFuture.bind world.answer
  named := fun tag => (state.namedFutures tag).bind world.answer

/-- What is left for the reference to do where the walk is. -/
def remaining (state : WalkState) (world : World) : Verdict :=
  sequentialFrom query (query.rules.drop state.ruleIndex) state.ruleIndex (findingsOf state world)

structure Ordered (query : Query) (state : WalkState) (world : World) : Prop where
  copied : Copied query state world
  idle : state.armedRules = []
  unrouted : state.terminalFuture = none
  sequel : remaining query state world = sequentialExchange query

section Ordered

variable {query : Query} {clean : MatchCondition} {rule : DNSRule}
  {state entered : WalkState} {world after : World}

theorem remaining_cons (found : query.rules[state.ruleIndex]? = some rule) :
    remaining query state world =
      match (findingsOf state world).step query state.ruleIndex rule with
      | .inl next => sequentialFrom query (query.rules.drop (state.ruleIndex + 1))
          (state.ruleIndex + 1) next
      | .inr verdict => verdict := by
  obtain ⟨below, rfl⟩ := List.getElem?_eq_some_iff.1 found
  rw [remaining, List.drop_eq_getElem_cons below]
  rfl

/-- What is judged in the walk, the reference judges alike. -/
theorem isMatch_eq (copied : Copied query entered world) (reads : rule.ReadsBound)
    (enters : Entered world rule state entered) {anonymous : Option Msg}
    (judged : Judged query (fun state _ rule _ => TagsSettled state rule) rule entered world anonymous) :
    rule.isMatch (judgedMetadata query anonymous entered.namedResponses) =
      rule.isMatch (judgedMetadata query (answeredResponse (findingsOf entered world).anonymous)
        fun tag => answeredResponse ((findingsOf entered world).named tag)) := by
  refine (rule.isMatch_answered (judgedMetadata query anonymous entered.namedResponses) reads
    ⟨rfl, fun binds => ?_, fun tag member => ?_⟩).symm
  · exact (judged.read binds).trans
      (World.view_eq_response fun future source => enters.anonymous_completed binds source)
  · exact (copied.copyOf judged.clean member).response

theorem findingsOf_follows (follows : Follows world after) :
    findingsOf state after = findingsOf state world := by
  rw [findingsOf, findingsOf, follows.answer]

theorem findingsOf_sameWalk (same : SameWalk state entered) :
    findingsOf entered world = findingsOf state world := by
  rw [findingsOf, findingsOf, same.effectiveOptions, same.anonymousFuture, same.namedFutures]

theorem findingsOf_launch (copied : Copied query state world) (tag : String) (transport : DNSTransport)
    (options : DNSQueryOptions) :
    findingsOf ((state.append tag false transport).bindFuture tag world.exchanges.length)
        (world.launch (query.launch state transport options)) =
      (findingsOf state world).bind tag (transport, query.outcome state.ruleIndex) := by
  have older {source : Option FutureId}
      (below : ∀ future, source = some future → future < world.exchanges.length) :
      source.bind (world.launch (query.launch state transport options)).answer =
        source.bind world.answer := by
    cases source with
    | none => rfl
    | some future => exact (world.extends_launch _).answer (below future rfl)
  have anonymous := older fun future source =>
    copied.aligned.length_eq ▸ Aligned.lt_length (copied.aligned.anonymous source)
  have named (other : String) := older fun future (source : state.namedFutures other = some future) =>
    copied.aligned.length_eq ▸ Aligned.lt_length (copied.aligned.named source).2
  have new : (world.launch (query.launch state transport options)).answer world.exchanges.length =
      some (transport, query.outcome state.ruleIndex) := by
    have position : world.exchanges.length = world.launches.length := by simp [World.launches]
    rw [World.answer, World.launch_launches, position, List.getElem?_concat_length]
    rfl
  unfold Findings.bind bindFuture
  by_cases untagged : tag = ""
  · rw [if_pos untagged, if_pos untagged]
    simp only [findingsOf, append, Option.bind_some, new, named]
  · rw [if_neg untagged, if_neg untagged]
    simp only [findingsOf, append, anonymous]
    congr 1
    funext other
    by_cases same : other = tag
    · simp [same, new]
    · simp [same, named]

namespace Ordered

section Ordered

variable (ordered : Ordered query state world)
include ordered

theorem follows (follows : Follows world after) : Ordered query state after := by
  refine ⟨ordered.copied.follows follows, ordered.idle, ordered.unrouted, ?_⟩
  rw [remaining, findingsOf_follows follows]
  exact ordered.sequel

theorem settles {settled : WalkState} (settles : Settles world state settled) :
    Ordered query settled world := by
  have same := settles.sameWalk
  refine ⟨ordered.copied.settles settles, ?_, ?_, ?_⟩
  · rw [same.armedRules, ordered.idle]
  · rw [same.terminalFuture, ordered.unrouted]
  · rw [remaining, findingsOf_sameWalk same, same.ruleIndex]
    exact ordered.sequel

theorem enters (race : rule.race = false) (enters : Entered world rule state entered) :
    Ordered query entered world := by
  cases enters with
  | unbound => exact ordered
  | ordered _ _ settles => exact ordered.settles settles
  | race _ races => simp [race] at races

theorem advance {next : WalkState} (found : query.rules[state.ruleIndex]? = some rule)
    (copied : Copied query { next with ruleIndex := next.ruleIndex + 1 } after)
    (index : next.ruleIndex = state.ruleIndex) (idle : next.armedRules = [])
    (unrouted : next.terminalFuture = none)
    (step : (findingsOf state world).step query state.ruleIndex rule = .inl (findingsOf next after)) :
    Ordered query { next with ruleIndex := next.ruleIndex + 1 } after := by
  refine ⟨copied, idle, unrouted, ?_⟩
  have sequel := ordered.sequel
  rw [remaining_cons found, step] at sequel
  rw [← sequel, remaining, index]
  rfl

theorem woken : Ordered query state { world with wake := false } :=
  ⟨ordered.copied.woken, ordered.idle, ordered.unrouted, ordered.sequel⟩

/-- Where the reference decides, it has the verdict of the whole evaluation. -/
theorem verdict_eq {verdict : Verdict} (found : query.rules[state.ruleIndex]? = some rule)
    (step : (findingsOf state world).step query state.ruleIndex rule = .inr verdict) :
    verdict = sequentialExchange query := by
  rw [← ordered.sequel, remaining_cons found, step]

end Ordered

end Ordered

/-- The exchange that is left to be awaited is the final one of the reference. -/
def Final (query : Query) (pending : PendingExchange) : Prop :=
  pending.future = none ∧
    finalVerdict query pending.transport pending.options = sequentialExchange query

def EndsIn (query : Query) : Suspension → Prop
  | .pending pending => Final query pending
  | _ => True

def orderedSpec (query : Query) : RoundSpec where
  before := fun state suspension world => Ordered query state world ∧ EndsIn query suspension
  sweeping := fun _ _ => True
  swept := fun state suspension world => Ordered query state world ∧ EndsIn query suspension
  walking := Ordered query
  after := fun state suspension world => Ordered query state world ∧ EndsIn query suspension
  finishing := fun _ pending _ => Final query pending
  exits := fun exit world => exit.site = .cancelled ∧ world.ctxDone = true ∨
    (exit.result, exit.finalExchange) = sequentialExchange query

theorem orderedSpec_stable : (orderedSpec query).Stable query where
  before := fun _ _ => stable_of_follows fun _ _ follows holds => ⟨holds.1.follows follows, holds.2⟩
  sweeping := fun _ => stable_of_follows fun _ _ _ holds => holds
  swept := fun _ _ => stable_of_follows fun _ _ follows holds => ⟨holds.1.follows follows, holds.2⟩
  walking := fun _ => stable_of_follows fun _ _ follows ordered => ordered.follows follows
  after := fun _ _ => stable_of_follows fun _ _ follows holds => ⟨holds.1.follows follows, holds.2⟩
  finishing := fun _ _ => stable_of_follows fun _ _ _ holds => holds
  exits := fun _ => stable_of_follows fun _ _ follows =>
    Or.imp_left fun both => ⟨both.1, follows.ctxDone both.2⟩

theorem Aligned.anonymous_transport (aligned : Aligned query state world) :
    state.anonymousFuture.bind (futureTransport state) =
      (state.anonymousFuture.bind world.answer).map Prod.fst := by
  cases source : state.anonymousFuture with
  | none => rfl
  | some future =>
      obtain ⟨transport, found⟩ := aligned.anonymous source
      rw [Option.bind_some, Option.bind_some, futureTransport_eq, found, aligned.answer_eq found]
      rfl

theorem respond_completed (admits : Admits (evaluateTags (query.rules.take state.ruleIndex)) rule)
    (enters : Entered world rule state entered) (action : rule.action = some .respond)
    (untagged : rule.matchResponseTag = "")
    (ready : hasBindings rule = false →
      ∀ future, entered.anonymousFuture = some future → Completed world future)
    (future : FutureId) (source : entered.anonymousFuture = some future) : Completed world future := by
  cases bound : hasBindings rule with
  | false => exact ready bound future source
  | true =>
      have binds : rule.matchResponseAnonymous = true := by
        simpa [hasBindings, admits.responds action untagged] using bound
      exact enters.anonymous_completed binds source

variable {outcome : RuleOutcome}

theorem orderedSpec_action (ordered : Ordered query entered world)
    (admits : Admits (evaluateTags (query.rules.take entered.ruleIndex)) rule)
    (enters : Entered world rule state entered) (found : query.rules[entered.ruleIndex]? = some rule)
    (tags : TagsSettled entered rule)
    (step : (findingsOf entered world).step query entered.ruleIndex rule =
      (findingsOf entered world).perform query entered.ruleIndex rule)
    (effect : ActionEffect query rule entered world outcome after) :
    (orderedSpec query).afterRule outcome after := by
  have copied := ordered.copied.action admits found effect
  unfold Findings.perform at step
  cases effect with
  | noAction action | options action =>
      rw [action] at step
      exact ordered.advance found copied rfl ordered.idle ordered.unrouted step
  | @evaluateMissing _ tag _ _ action missing =>
      rw [action] at step
      simp only [missing] at step
      refine ordered.advance found copied ?_ ?_ ?_ ?_
      · split <;> rfl
      · split <;> exact ordered.idle
      · split <;> exact ordered.unrouted
      · rw [step]
        split <;> rfl
  | @evaluate _ tag _ _ transport action launched free =>
      rw [action] at step
      simp only [launched] at step
      refine ordered.advance found copied (bindFuture_ruleIndex _ _ _) ?_ ?_ ?_
      · unfold bindFuture
        split <;> exact ordered.idle
      · unfold bindFuture
        split <;> exact ordered.unrouted
      · rw [step, findingsOf_launch ordered.copied]
  | held armed | speculate _ armed => exact absurd ordered.idle armed
  | respondTagged action idle tagged =>
      rw [action] at step
      have copy := ordered.copied.copyOf tags (rule.matchResponseTag_mem tagged)
      refine .inr ((congrArg (fun result => (result, none)) ?_).trans (ordered.verdict_eq found step))
      rw [if_pos tagged, copy.response, copy.transport]
      rfl
  | respondAwait => exact ⟨ordered, trivial⟩
  | respond action idle untagged ready =>
      rw [action] at step
      have completed := respond_completed (enters.ruleIndex ▸ admits) enters action untagged ready
      refine .inr ((congrArg (fun result => (result, none)) ?_).trans (ordered.verdict_eq found step))
      rw [if_neg (not_not.2 untagged), World.view_eq_response completed,
        ordered.copied.aligned.anonymous_transport]
      rfl
  | routeUnresolved action unresolved =>
      rw [action] at step
      refine ordered.advance found copied rfl ordered.idle ordered.unrouted (step.trans ?_)
      simp only
      split
      · exact absurd ‹_› (unresolved _ _)
      · rfl
  | routeSpeculated _ _ launched => simp [ordered.unrouted] at launched
  | route action resolved idle =>
      rw [action] at step
      simp only [findingsOf, resolved] at step
      exact ⟨ordered, rfl, ordered.verdict_eq found step⟩
  | reject action idle rejects =>
      rw [action] at step
      simp only [rejects] at step
      exact .inr (ordered.verdict_eq found step)
  | rejectReply action idle unsupported =>
      rw [action] at step
      simp only [unsupported] at step
      exact ordered.advance found copied rfl ordered.idle ordered.unrouted step
  | predefined action idle =>
      rw [action] at step
      exact .inr (ordered.verdict_eq found step)

theorem orderedSpec_rule (admissible : Admissible [] query.rules) (race : rule.race = false)
    (ordered : Ordered query state world) (found : query.rules[state.ruleIndex]? = some rule)
    (effect : RuleEffect query (fun state _ rule _ => TagsSettled state rule) rule state world outcome after) :
    (orderedSpec query).afterRule outcome after := by
  have copied := ordered.copied.walkRule admissible found effect
  cases effect with
  | arm _ races => simp [race] at races
  | await _ _ settles => exact ⟨ordered.settles settles, trivial⟩
  | @pass entered anonymous enters judged unmatched =>
      have here := ordered.enters race enters
      rw [← enters.ruleIndex] at found
      have admits := admissible.admits found
      rw [isMatch_eq here.copied admits.reads enters judged] at unmatched
      refine here.advance found copied rfl here.idle here.unrouted ?_
      rw [Findings.step, unmatched]
      rfl
  | @act entered anonymous _ _ enters judged matched effect =>
      have here := ordered.enters race enters
      rw [← enters.ruleIndex] at found
      have admits := admissible.admits found
      rw [isMatch_eq here.copied admits.reads enters judged] at matched
      refine orderedSpec_action here admits enters found judged.clean ?_ effect
      rw [Findings.step, matched]
      rfl

theorem orderedSpec_sound (admissible : Admissible [] query.rules)
    (races : ∀ rule ∈ query.rules, rule.race = false) :
    (orderedSpec query).Sound query (fun state _ rule _ => TagsSettled state rule) (fun _ _ => True) where
  toStable := orderedSpec_stable
  settle := fun holds settles => ⟨holds.1.settles settles, holds.2⟩
  sweeps := fun _ => trivial
  disarms := fun _ _ _ => trivial
  judgesArmed := fun _ => trivial
  passes := by
    intro state swept suspension start world _ _ holds effect
    rw [holds.1.idle] at effect
    cases effect
    exact holds
  wins := by
    intro state swept suspension start world exit _ _ holds effect
    rw [holds.1.idle] at effect
    cases effect
  winsPending := by
    intro state swept suspension start world pending _ _ holds effect
    rw [holds.1.idle] at effect
    cases effect
  pending := fun holds => holds.2
  awaits := fun _ _ => trivial
  drains := fun _ _ => trivial
  woken := fun holds _ => ⟨holds.1.woken, holds.2⟩
  cancelled := fun _ ended => .inl ⟨rfl, ended⟩
  resumesAwait := fun holds _ => holds.1
  resumesDrain := fun holds _ => holds.1
  awaitsDone := fun _ _ => trivial
  abandoned := fun _ ended => .inl ⟨rfl, ended⟩
  finished := by
    intro state pending future world outcome final source _
    simp [final.1] at source
  exchanges := fun _ _ => trivial
  exchanged := fun final _ => .inr final.2
  judges := fun _ _ _ => trivial
  rule := fun found ordered effect =>
    orderedSpec_rule admissible (races _ (List.mem_of_getElem? found)) ordered found effect
  finish := by
    intro state world ordered ended
    unfold walkEnd
    rw [if_neg (by simp [ordered.idle])]
    refine ⟨ordered, rfl, ?_⟩
    rw [← ordered.sequel, remaining, List.drop_eq_nil_of_le ended]
    rfl

end Ordered

/-- **Ordered evaluation does not depend on timing.** For accepted rules without `race`:
no run is infinite; and where every rule is matched after the responses it binds by tag
were copied, the walker is not blocked once every exchange has completed, and unless the
context ends it returns and finally sends what the sequential reference does. -/
theorem ordered_evaluation_sequential (context : RuleContext) (transports : DNSTransportManager)
    (rawRules : List Options.DNSRule) (query : Query)
    (accepted : buildRules context transports rawRules = .ok (query.rules, false))
    (races : ∀ rule ∈ query.rules, rule.race = false) :
    Acc (fun after before => Step query.system (resumeBody query)
      (Condition.always walkSignature ResumeLoop World) before after) query.start ∧
    ∀ config, query.Reachable (judging fun state _ rule _ => TagsSettled state rule) config →
      (AllSignalled config.world → ∀ action next, config.process = .act action next →
        query.outcomes config.world action ≠ []) ∧
      ∀ exit, config.process = .done (.inr exit) →
        exit.site = .cancelled ∧ config.world.ctxDone = true ∨
          (exit.result, exit.finalExchange) = sequentialExchange query := by
  refine ⟨walk_terminates query, fun config run => ⟨?_, ?_⟩⟩
  · exact fun all action next waiting => walk_progresses query run.always all waiting
  · intro exit ended
    have secured := (orderedSpec_sound (buildRules_admissible accepted) races).reachable id
      ⟨.start, rfl, rfl, rfl⟩ run
    rw [ended] at secured
    exact secured config.world .refl

def rawEvaluate (server : String) : Options.DNSRule :=
  .default { Options.DefaultDNSRule.zero with
    dnsRuleAction := ⟨false, some (.evaluate server server false .zero)⟩ }

def rawRespond (tag : String) (nonempty : tag ≠ "") (race : Bool) : Options.DNSRule :=
  .default { Options.DefaultDNSRule.zero with
    matchResponse := .tagged tag nonempty
    dnsRuleAction := ⟨race, some .respond⟩ }

def sampleContext : RuleContext := ⟨fun _ => true, fun _ => none⟩

/-- The test of runs in which a rule is matched after its responses were copied. -/
def matchedSettled : WalkAction → Bool
  | .judge state _ rule _ => decide (TagsSettled state rule)
  | _ => true

theorem matchedSettled_tested :
    (judging fun state _ rule _ => TagsSettled state rule).Tested matchedSettled := by
  refine ⟨fun world action answer passes => ?_, fun _ _ => trivial⟩
  cases action with
  | judge state site rule metadata =>
      show TagsSettled state rule
      exact of_decide_eq_true passes
  | _ => trivial

/-- The response of `x` is there before the rule that answers with it is reached. -/
theorem ordered_evaluation_sequential_respond :
    let query := sampleQuery [evaluateRule "x", respondRule "x" false]
    ∃ exit world, query.Reachable (judging fun state _ rule _ => TagsSettled state rule)
        ⟨.done (.inr exit), world⟩ ∧
      exit.site = .rule 1 ∧ (exit.result, exit.finalExchange) = sequentialExchange query := by
  intro query
  have run : query.Reachable (judging fun state _ rule _ => TagsSettled state rule) _ :=
    Config.replay_reaches matchedSettled_tested (show Config.replay _ _ _
      [.act 0, .act 0, .env (.close 0), .act 0, .act 0, .act 0] _ = some _ from rfl)
  have accepted : buildRules sampleContext query.transports
      [rawEvaluate "x", rawRespond "x" (by decide) false] = .ok (query.rules, false) := rfl
  have races : ∀ rule ∈ query.rules, rule.race = false := by
    simp [query, sampleQuery, evaluateRule, respondRule, DNSRule.race]
  obtain ⟨_, secured⟩ := ordered_evaluation_sequential _ _ _ query accepted races
  refine ⟨_, _, run, rfl, ((secured _ run).2 _ rfl).resolve_left ?_⟩
  rintro ⟨cancelled, _⟩
  cases cancelled

/-- The response of `x` comes between settling and the check whether it is there: the
rule that answers with it finds no copy, and the query goes to the default server. -/
theorem ordered_evaluation_races_settling :
    let query := sampleQuery [evaluateRule "x", respondRule "x" false]
    buildRules sampleContext query.transports [rawEvaluate "x", rawRespond "x" (by decide) false] =
        .ok (query.rules, false) ∧
      ∃ config exit, query.Reachable (Condition.always walkSignature ResumeLoop World) config ∧
        config.process = .done (.inr exit) ∧ exit.site ≠ .cancelled ∧
          (exit.result, exit.finalExchange) ≠ sequentialExchange query := by
  intro query
  have run : query.Reachable (Condition.always walkSignature ResumeLoop World) _ :=
    Config.replay_reaches Condition.tested_always (show Config.replay _ _ _
      [.act 0, .act 0, .act 0, .env (.close 0), .act 0, .act 0, .again, .act 0, .act 0] _ =
        some _ from rfl)
  exact ⟨rfl, _, _, run, rfl, nofun, by decide +kernel⟩

end SideraCore.Dns.RuleWalk
