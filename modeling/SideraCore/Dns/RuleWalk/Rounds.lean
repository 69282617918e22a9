import SideraCore.Dns.RuleWalk.Effects

/-!
Owns the invariant rule of the resume loop. A `RoundSpec` names what holds at the
stations of one round: when it begins, after the sweep, during the walk, when it goes
round again, while the last exchange is awaited, and at the exit. `RoundSpec.Sound`
lists what has to be shown, and `RoundSpec.Sound.reachable` carries it to every
reachable configuration. The
beginning and the end of a round are kept apart for a variant that falls in between.
-/

namespace SideraCore.Dns.RuleWalk

open Rule Concurrency

/-! ### The position of the walk -/

variable {rule : DNSRule} {world : World} {state : WalkState}

theorem Entered.ruleIndex {entered : WalkState} (enters : Entered world rule state entered) :
    entered.ruleIndex = state.ruleIndex := by
  cases enters with
  | unbound _ => rfl
  | ordered _ _ settles _ | race _ _ settles _ => exact settles.sameWalk.ruleIndex

theorem WalkState.bindFuture_ruleIndex (state : WalkState) (tag : String) (future : FutureId) :
    (state.bindFuture tag future).ruleIndex = state.ruleIndex := by
  unfold WalkState.bindFuture
  split <;> rfl

variable {query : Query} {next : WalkState} {after : World}

theorem ActionEffect.ruleIndex (effect : ActionEffect query rule state world (.next next) after) :
    next.ruleIndex = state.ruleIndex := by
  cases effect with
  | evaluateMissing => split <;> rfl
  | evaluate => exact WalkState.bindFuture_ruleIndex _ _ _
  | _ => rfl

theorem RuleEffect.ruleIndex {clean : MatchCondition}
    (effect : RuleEffect query clean rule state world (.next next) after) :
    next.ruleIndex = state.ruleIndex := by
  cases effect with
  | arm _ _ settles => exact settles.sameWalk.ruleIndex
  | pass enters => exact enters.ruleIndex
  | act enters _ _ effect => exact effect.ruleIndex.trans enters.ruleIndex

/-- What holds at the stations of one round. -/
structure RoundSpec where
  before : WalkState → Suspension → World → Prop
  sweeping : WalkState → World → Prop
  swept : WalkState → Suspension → World → Prop
  walking : WalkState → World → Prop
  after : WalkState → Suspension → World → Prop
  finishing : WalkState → PendingExchange → World → Prop
  exits : WalkExit → World → Prop

def RoundSpec.afterRule (spec : RoundSpec) : RuleOutcome → World → Prop
  | .next state => spec.walking { state with ruleIndex := state.ruleIndex + 1 }
  | .suspend state suspension => spec.after state suspension
  | .exit exit => spec.exits exit

def RoundSpec.afterWalk (spec : RoundSpec) : WalkOutcome → World → Prop
  | .suspend state suspension => spec.after state suspension
  | .exit exit => spec.exits exit

def RoundSpec.afterRound (spec : RoundSpec) : ResumeLoop ⊕ WalkExit → World → Prop :=
  Sum.elim (fun loop => spec.after loop.1 loop.2) spec.exits

structure RoundSpec.Stable (spec : RoundSpec) (query : Query) : Prop where
  before : ∀ state suspension, query.system.Stable (spec.before state suspension)
  sweeping : ∀ state, query.system.Stable (spec.sweeping state)
  swept : ∀ state suspension, query.system.Stable (spec.swept state suspension)
  walking : ∀ state, query.system.Stable (spec.walking state)
  after : ∀ state suspension, query.system.Stable (spec.after state suspension)
  finishing : ∀ state pending, query.system.Stable (spec.finishing state pending)
  exits : ∀ exit, query.system.Stable (spec.exits exit)

structure RoundSpec.Sound (spec : RoundSpec) (query : Query)
    (clean : MatchCondition) (required : Requirement walkSignature World) :
    Prop extends spec.Stable query where
  settle : ∀ {state settled suspension world}, spec.before state suspension world →
    Settles world state settled → spec.before settled suspension world
  sweeps : ∀ {state suspension world}, spec.before state suspension world → spec.sweeping state world
  disarms : ∀ {state world armed kept rest}, spec.sweeping state world →
    state.armedRules = kept ++ armed :: rest → (∀ future ∈ armed.futures, Completed world future) →
      spec.sweeping (state.disarm (kept ++ rest)) world
  judgesArmed : ∀ {state world site rule metadata}, spec.sweeping state world →
    required (.judge state site rule metadata) world
  passes : ∀ {state swept suspension start world}, spec.before state suspension start →
    Follows start world → spec.before state suspension world →
    SweepEffect query clean start world [] state.armedRules state swept .next →
      spec.swept swept suspension world
  wins : ∀ {state swept suspension start world exit}, spec.before state suspension start →
    Follows start world → spec.before state suspension world →
    SweepEffect query clean start world [] state.armedRules state swept (.exit exit) →
      spec.exits exit world
  winsPending : ∀ {state swept suspension start world pending}, spec.before state suspension start →
    Follows start world → spec.before state suspension world →
    SweepEffect query clean start world [] state.armedRules state swept (.pending pending) →
      spec.finishing swept pending world
  pending : ∀ {state pending world}, spec.swept state (.pending pending) world →
    spec.finishing state pending world
  awaits : ∀ {state future world}, spec.swept state (.await future) world → Unseen world future →
    required (.recvWake state (.await future)) world
  drains : ∀ {state world}, spec.swept state .drain world → state.armedRules ≠ [] →
    required (.recvWake state .drain) world
  woken : ∀ {state suspension world}, spec.swept state suspension world → world.wake = true →
    spec.after state suspension { world with wake := false }
  cancelled : ∀ {state suspension world}, spec.swept state suspension world → world.ctxDone = true →
    spec.exits (cancelledExit state) world
  resumesAwait : ∀ {state future world}, spec.swept state (.await future) world →
    Completed world future → spec.walking state world
  resumesDrain : ∀ {state world}, spec.swept state .drain world → state.armedRules = [] →
    spec.walking state world
  awaitsDone : ∀ {state pending future world}, spec.finishing state pending world →
    pending.future = some future → required (.awaitDone state pending.site future) world
  abandoned : ∀ {state pending world}, spec.finishing state pending world → world.ctxDone = true →
    spec.exits (cancelledExit state) world
  finished : ∀ {state pending future world outcome}, spec.finishing state pending world →
    pending.future = some future → world.poll future = some outcome →
      spec.exits ⟨pending.site, exchangeResult pending.transport outcome, none, state⟩ world
  exchanges : ∀ {state pending world}, spec.finishing state pending world → pending.future = none →
    required (.exchange state pending.site pending.transport
      (finalizeExchangeOptions query.defaultDomainStrategy pending.options)) world
  exchanged : ∀ {state pending world}, spec.finishing state pending world → pending.future = none →
    let options := finalizeExchangeOptions query.defaultDomainStrategy pending.options
    spec.exits ⟨pending.site,
      exchangeResult pending.transport (query.finalOutcome pending.transport options),
      some (pending.transport, options), state⟩ world
  judges : ∀ {rule state entered world metadata}, query.rules[state.ruleIndex]? = some rule →
    spec.walking state world → Entered world rule state entered →
      required (.judge entered (.rule entered.ruleIndex) rule metadata) world
  rule : ∀ {rule state world outcome after}, query.rules[state.ruleIndex]? = some rule →
    spec.walking state world → RuleEffect query clean rule state world outcome after →
      spec.afterRule outcome after
  finish : ∀ {state world}, spec.walking state world → query.rules.length ≤ state.ruleIndex →
    spec.afterWalk (walkEnd query state) world

namespace RoundSpec.Sound

variable {spec : RoundSpec} {query : Query} {clean : MatchCondition}
  {required : Requirement walkSignature World} (sound : spec.Sound query clean required)

include sound

theorem stable_afterWalk (outcome : WalkOutcome) : query.system.Stable (spec.afterWalk outcome) := by
  cases outcome with
  | suspend state suspension => exact sound.after state suspension
  | exit exit => exact sound.exits exit

theorem stable_afterRound (result : ResumeLoop ⊕ WalkExit) :
    query.system.Stable (spec.afterRound result) := by
  cases result with
  | inl loop => exact sound.after loop.1 loop.2
  | inr exit => exact sound.exits exit

variable {state : WalkState} {world : World} {suspension : Suspension}

theorem wp_walkFrom {rules : List DNSRule} (remaining : query.rules.drop state.ruleIndex = rules)
    (walking : spec.walking state world) :
    query.wp clean required (walkFrom query rules state) spec.afterWalk world := by
  induction rules generalizing state world with
  | nil =>
      have ended : query.rules.length ≤ state.ruleIndex := List.drop_eq_nil_iff.1 remaining
      exact wp_done (sound.stable_afterWalk _) (sound.finish walking ended)
  | cons rule rest ih =>
      have found : query.rules[state.ruleIndex]? = some rule := by
        rw [← List.head?_drop, remaining, List.head?_cons]
      unfold walkFrom
      refine wp_walkRule ?_ fun during entered metadata moves =>
        sound.judges found ((sound.walking state).interferes moves walking)
      intro during outcome after moves effect
      have reached := sound.rule found ((sound.walking state).interferes moves walking) effect
      cases outcome with
      | next next =>
          refine ih ?_ reached
          rw [effect.ruleIndex, ← List.tail_drop, remaining, List.tail_cons]
      | suspend next suspension => exact wp_done (sound.after next suspension) reached
      | exit exit => exact wp_done (sound.exits exit) reached

theorem wp_walkOn (walking : spec.walking state world) :
    query.wp clean required (walkOn query state) spec.afterRound world := by
  unfold walkOn walkDNSRules
  refine wp_bind (wp_mono (sound.wp_walkFrom rfl walking) ?_)
  intro outcome after reached
  cases outcome with
  | suspend next suspension => exact wp_done (sound.stable_afterRound (.inl (next, suspension))) reached
  | exit exit => exact wp_done (sound.stable_afterRound (.inr exit)) reached

theorem wp_finishPendingExchange {pending : PendingExchange}
    (finishing : spec.finishing state pending world) :
    query.wp clean required (finishPendingExchange query state pending >>= fun exit => pure (.inr exit))
      spec.afterRound world := by
  unfold finishPendingExchange
  cases source : pending.future with
  | some future =>
      rw [Process.bind_assoc]
      refine wp_act _ (sound.finishing state pending) finishing ?_ ?_
      · exact fun during current _ => sound.awaitsDone current source
      · intro during answer after current outcome _
        rcases List.mem_append.1 outcome with published | ended
        · obtain ⟨result, member, same⟩ := List.mem_map.1 published
          obtain ⟨rfl, rfl⟩ := Prod.mk.inj same
          exact wp_done (sound.exits _) (sound.finished current source (Option.mem_toList.1 member))
        · obtain ⟨ctxDone, same⟩ := List.mem_ite_nil_right.1 ended
          obtain ⟨rfl, rfl⟩ := sole_outcome same
          exact wp_done (sound.exits _) (sound.abandoned current ctxDone)
  | none =>
      refine wp_act _ (sound.finishing state pending) finishing ?_ ?_
      · exact fun during current _ => sound.exchanges current source
      · intro during answer after current outcome _
        obtain ⟨rfl, rfl⟩ := sole_outcome outcome
        exact wp_done (sound.exits _) (sound.exchanged current source)

theorem wp_awaitWake (invariant : World → Prop) (stable : query.system.Stable invariant)
    (holds : invariant world)
    (swept : ∀ during, invariant during → spec.swept state suspension during)
    (waits : ∀ during, invariant during → required (.recvWake state suspension) during) :
    query.wp clean required (awaitWake state suspension) spec.afterRound world := by
  unfold awaitWake
  refine wp_act invariant stable holds (fun during current _ => waits during current) ?_
  intro during answer after current outcome _
  rcases List.mem_append.1 outcome with signal | ended
  · obtain ⟨wake, same⟩ := List.mem_ite_nil_right.1 signal
    obtain ⟨rfl, rfl⟩ := sole_outcome same
    exact wp_done (sound.stable_afterRound (.inl (state, suspension)))
      (sound.woken (swept during current) wake)
  · obtain ⟨ctxDone, same⟩ := List.mem_ite_nil_right.1 ended
    obtain ⟨rfl, rfl⟩ := sole_outcome same
    exact wp_done (sound.stable_afterRound (.inr (cancelledExit state)))
      (sound.cancelled (swept _ current) ctxDone)

theorem wp_testSuspension (swept : spec.swept state suspension world) :
    query.wp clean required (testSuspension query state suspension) spec.afterRound world := by
  cases suspension with
  | pending pending => exact sound.wp_finishPendingExchange (sound.pending swept)
  | await future =>
      unfold testSuspension
      apply wp_poll
      intro during moves
      have current := (sound.swept state (.await future)).interferes moves swept
      cases published : during.poll future with
      | some outcome => exact sound.wp_walkOn (sound.resumesAwait current ⟨outcome, published⟩)
      | none =>
          refine sound.wp_awaitWake (fun later => spec.swept state (.await future) later ∧ Unseen later future)
            ?_ ⟨current, unseen_of_poll_eq_none published⟩ (fun _ both => both.1)
            (fun _ both => sound.awaits both.1 both.2)
          intro earlier later move both
          exact ⟨sound.swept _ _ _ _ move both.1, (follows_of_interferes (.single move)).unseen both.2⟩
  | drain =>
      unfold testSuspension
      by_cases armed : (!state.armedRules.isEmpty) = true
      · rw [if_pos armed]
        exact sound.wp_awaitWake _ (sound.swept state .drain) swept (fun _ holds => holds)
          fun _ holds => sound.drains holds (armedRules_ne_nil armed)
      · rw [if_neg armed]
        exact sound.wp_walkOn (sound.resumesDrain swept (armedRules_eq_nil armed))

theorem wp_resumeBody (before : spec.before state suspension world) :
    query.wp clean required (resumeBody query (state, suspension)) spec.afterRound world := by
  unfold resumeBody
  apply wp_settleDNSFutures
  intro start settled moves settles
  have settledBefore : spec.before settled suspension start :=
    sound.settle ((sound.before state suspension).interferes moves before) settles
  unfold sweepArmedDNSRules
  apply wp_sweepFrom .refl spec.sweeping sound.sweeping sound.disarms sound.judgesArmed rfl
    (sound.sweeps settledBefore)
  intro during swept outcome further effect
  have follows := follows_of_interferes further
  have current := (sound.before settled suspension).interferes further settledBefore
  cases outcome with
  | next => exact sound.wp_testSuspension (sound.passes settledBefore follows current effect)
  | pending pending =>
      exact sound.wp_finishPendingExchange (sound.winsPending settledBefore follows current effect)
  | exit exit =>
      exact wp_done (sound.exits exit) (sound.wins settledBefore follows current effect)

theorem reachable (again : ∀ {state suspension world}, spec.after state suspension world →
      spec.before state suspension world)
    (starts : spec.walking (.start query.options) .start)
    {config : Config walkSignature ResumeLoop WalkExit World}
    (run : query.Reachable (judging clean) config) :
    query.wp clean required config.process spec.afterRound config.world := by
  change Concurrency.wp _ _ _ _ (Sum.elim (fun loop : ResumeLoop => spec.after loop.1 loop.2)
    spec.exits) _
  refine Reaches.wp ?_ ?_ run
  · intro loop world holds _
    exact sound.wp_resumeBody (again holds)
  · exact sound.wp_walkOn starts

end RoundSpec.Sound

end SideraCore.Dns.RuleWalk
