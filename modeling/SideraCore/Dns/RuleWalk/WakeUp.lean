import SideraCore.Dns.RuleWalk.Origins

/-!
Owns the absence of lost wake-ups: signals of any number of completions share one
slot and may be dropped, but never in such a way that the resume loop sleeps on
while what it waits for is there.

The reason is `Unseen`: a future found unresolved has its signal still ahead, and
stays so until a signal is received, after which the loop looks at it again.
-/

namespace SideraCore.Dns.RuleWalk

open Rule Concurrency

def StillWaits (world : World) (state : WalkState) : Suspension → Prop
  | .await future => ¬ Completed world future
  | .drain => ∀ armed ∈ state.armedRules, ∃ future ∈ armed.futures, ¬ Completed world future
  | .pending _ => False

def AllSignalled (world : World) : Prop := ∀ exchange ∈ world.exchanges, exchange.phase = .signalled

theorem AllSignalled.wake {world : World} (all : AllSignalled world) {future : FutureId}
    (below : future < world.exchanges.length) (ahead : Unseen world future) : world.wake = true := by
  refine ahead.resolve_left (not_not.2 ?_)
  simp [World.phase, List.getElem?_eq_getElem below, all _ (List.getElem_mem below)]

def wakeRequirement : Requirement walkSignature World
  | .recvWake state suspension, world =>
      (Quiet world → StillWaits world state suspension) ∧ (AllSignalled world → world.wake = true)
  | _, _ => True

def wakeSpec (query : Query) : RoundSpec where
  before := fun state suspension world => Aligned query state world ∧
    ∀ future, suspension = .await future → future < state.labels.length
  sweeping := fun _ _ => True
  swept := fun state suspension world => (Aligned query state world ∧
    ∀ future, suspension = .await future → future < state.labels.length) ∧
      ∀ armed ∈ state.armedRules, ∃ future ∈ armed.futures, Unseen world future
  walking := Aligned query
  after := fun state suspension world => Aligned query state world ∧
    ∀ future, suspension = .await future → future < state.labels.length
  finishing := fun _ _ _ => True
  exits := fun _ _ => True

theorem wakeSpec_stable (query : Query) : (wakeSpec query).Stable query where
  before := fun _ _ => stable_of_follows fun _ _ follows holds => ⟨holds.1.follows follows, holds.2⟩
  sweeping := fun _ => stable_of_follows fun _ _ _ holds => holds
  swept := fun _ _ => stable_of_follows fun _ _ follows holds =>
    ⟨⟨holds.1.1.follows follows, holds.1.2⟩, fun armed member =>
      (holds.2 armed member).imp fun _ waits => ⟨waits.1, follows.unseen waits.2⟩⟩
  walking := fun _ => stable_of_follows fun _ _ follows aligned => aligned.follows follows
  after := fun _ _ => stable_of_follows fun _ _ follows holds => ⟨holds.1.follows follows, holds.2⟩
  finishing := fun _ _ => stable_of_follows fun _ _ _ holds => holds
  exits := fun _ => stable_of_follows fun _ _ _ holds => holds

theorem awaits_lt {query : Query} {clean : MatchCondition} {rule : DNSRule}
    {state after : WalkState} {world later : World} {future : FutureId}
    (aligned : Aligned query state world)
    (effect : RuleEffect query clean rule state world (.suspend after (.await future)) later) :
    future < after.labels.length := by
  cases effect with
  | await _ _ settles member _ => exact (aligned.settles settles).boundFutures_lt member
  | act enters _ _ effect =>
      cases effect with
      | respondAwait _ _ _ source _ => exact Aligned.lt_length ((aligned.enters enters).anonymous source)

theorem wakeSpec_sound (query : Query) :
    (wakeSpec query).Sound query (fun _ _ _ _ => True) wakeRequirement where
  toStable := wakeSpec_stable query
  settle := by
    rintro state settled suspension world ⟨aligned, awaits⟩ settles
    exact ⟨aligned.settles settles, settles.sameWalk.labels ▸ awaits⟩
  sweeps := fun _ => trivial
  disarms := fun _ _ _ => trivial
  judgesArmed := fun _ => trivial
  passes := by
    rintro state swept suspension start world _ _ ⟨aligned, awaits⟩ effect
    obtain ⟨_, _, rfl⟩ := effect.disarms rfl
    exact ⟨⟨aligned.sweep effect, awaits⟩, effect.waits rfl (by simp)⟩
  wins := fun _ _ _ _ => trivial
  winsPending := fun _ _ _ _ => trivial
  pending := fun _ => trivial
  awaits := by
    rintro state future world ⟨⟨aligned, awaits⟩, _⟩ ahead
    refine ⟨fun quiet => quiet.not_completed ahead, fun all => all.wake ?_ ahead⟩
    exact aligned.length_eq ▸ awaits future rfl
  drains := by
    rintro state world ⟨⟨aligned, _⟩, waits⟩ nonempty
    refine ⟨fun quiet armed member => ?_, fun all => ?_⟩
    · obtain ⟨future, captured, ahead⟩ := waits armed member
      exact ⟨future, captured, quiet.not_completed ahead⟩
    · obtain ⟨armed, member⟩ := List.exists_mem_of_ne_nil _ nonempty
      obtain ⟨future, captured, ahead⟩ := waits armed member
      exact all.wake (aligned.length_eq ▸ (aligned.armed member).1 future captured) ahead
  woken := fun holds _ => ⟨holds.1.1.woken, holds.1.2⟩
  cancelled := fun _ _ => trivial
  resumesAwait := fun holds _ => holds.1.1
  resumesDrain := fun holds _ => holds.1.1
  awaitsDone := fun _ _ => trivial
  abandoned := fun _ _ => trivial
  finished := fun _ _ _ => trivial
  exchanges := fun _ _ => trivial
  exchanged := fun _ _ => trivial
  judges := fun _ _ _ => trivial
  rule := by
    intro rule state world outcome after found aligned effect
    have reached := aligned.walkRule found effect
    cases outcome with
    | next next => exact reached.advance
    | suspend next suspension =>
        refine ⟨reached, ?_⟩
        rintro future rfl
        exact awaits_lt aligned effect
    | exit exit => trivial
  finish := by
    intro state world aligned _
    unfold walkEnd
    split <;> exact ⟨aligned, nofun⟩

/-- **No lost wake-up.** While the loop waits for a signal that has not come and none
is under way, the future it awaits is incomplete or, when it drains, every armed rule
has captured an incomplete one. Once every exchange has completed, the wait can end. -/
theorem recvWake_not_lost (query : Query) (config : Config walkSignature ResumeLoop WalkExit World)
    (run : query.Reachable (Condition.always walkSignature ResumeLoop World) config)
    (state : WalkState) (suspension : Suspension) (next : Bool → Walk (ResumeLoop ⊕ WalkExit))
    (waiting : config.process = .act (.recvWake state suspension) next) :
    (Quiet config.world → StillWaits config.world state suspension) ∧
      (AllSignalled config.world → query.outcomes config.world (.recvWake state suspension) ≠ []) := by
  rw [← judging_true] at run
  have secured := (wakeSpec_sound query).reachable id Aligned.start run
  rw [waiting] at secured
  obtain ⟨incomplete, signalled⟩ := (secured config.world .refl).1 trivial
  refine ⟨incomplete, fun all => List.append_ne_nil_of_left_ne_nil ?_ _⟩
  rw [if_pos (signalled all)]
  exact List.cons_ne_nil _ _

def evaluateRule (server : String) : DNSRule :=
  .default ⟨⟨RuleItems.empty, none⟩, some (.evaluate server server false .zero), false, "", false⟩

def respondRule (tag : String) (race : Bool) : DNSRule :=
  .default ⟨⟨RuleItems.empty, none⟩, some .respond, true, tag, race⟩

def sampleQuery (rules : List DNSRule) : Query where
  rules := rules
  transports := ⟨fun tag => some ⟨tag, false⟩, ⟨"default", false⟩⟩
  defaultDomainStrategy := .asIs
  message := Msg.zero
  metadata := InboundContext.zero
  options := .zero
  allowFakeIP := false
  outcome := fun _ => .ok Msg.zero
  finalOutcome := fun _ _ => .ok Msg.zero

/-- The answer of `x` is awaited while its exchange runs. -/
theorem recvWake_not_lost_respond :
    ∃ (config : Config walkSignature ResumeLoop WalkExit World) (state : WalkState) (future : FutureId)
      (next : Bool → Walk (ResumeLoop ⊕ WalkExit)),
      config.process = .act (.recvWake state (.await future)) next ∧ Quiet config.world ∧
        ¬ Completed config.world future := by
  have run : (sampleQuery [evaluateRule "x", respondRule "x" false]).Reachable
      (Condition.always walkSignature ResumeLoop World) _ :=
    Config.replay_reaches Condition.tested_always (show Config.replay _ _ _
      [.act 0, .act 0, .act 0, .act 0, .again, .act 0, .act 0] _ = some _ from rfl)
  have quiet : Quiet (World.mk [⟨⟨0, [], ⟨"x", false⟩, .zero, .ok Msg.zero⟩, .running⟩] false false) := by
    refine ⟨rfl, ?_⟩
    rintro (_ | future) <;> simp [World.phase]
  exact ⟨_, _, _, _, rfl, quiet, (recvWake_not_lost _ _ run _ _ _ rfl).1 quiet⟩

end SideraCore.Dns.RuleWalk
