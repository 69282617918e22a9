import SideraCore.Dns.RuleWalk.Ordered

/-!
Owns that a ready race rule does not wait for another one, as far as it goes. A race
rule becomes ready while it is armed, and then the next sweep takes it; or it is ready
when the walk gets there, and then its action is held as long as others are armed.
`RaceAlone` excludes the second case, together with the copies that a completion
during settling leaves out.
-/

namespace SideraCore.Dns.RuleWalk

open Rule Concurrency

namespace ReachedRace

def references (reached : ReachedRace) : List FutureId :=
  reached.armed.rule.matchResponseTags.filterMap reached.named ++ reached.armed.anonymousFuture.toList

def metadata (query : Query) (world : World) (reached : ReachedRace) : InboundContext :=
  judgedMetadata query (world.response reached.armed.anonymousFuture)
    fun tag => world.response (reached.named tag)

/-- The rule matches the responses it refers to and has a final action that can be
taken. -/
def decides (query : Query) (world : World) (reached : ReachedRace) : Bool :=
  reached.armed.rule.isMatch (reached.metadata query world) &&
    executable query reached.armed.options reached.armed.rule.action

end ReachedRace

structure Ready (query : Query) (world : World) (reached : ReachedRace) : Prop where
  available : ∀ future ∈ reached.references, Completed world future
  decides : reached.decides query world = true

/-- The rule is matched after the responses it binds by tag were copied, and a race rule
that decides in the walk finds no other armed. -/
def RaceAlone (query : Query) : MatchCondition := fun state site rule metadata =>
  TagsSettled state rule ∧
    ∀ index, site = .rule index → rule.race = true → rule.isMatch metadata = true →
      executable query state.effectiveOptions rule.action = true → state.armedRules = []

/-- What the record of a race rule says of the state and the world. -/
structure Recorded (query : Query) (state : WalkState) (world : World) (reached : ReachedRace) : Prop where
  found : query.rules[reached.armed.ruleIndex]? = some reached.armed.rule
  race : reached.armed.rule.race = true
  captured : ∀ future ∈ reached.armed.futures, future ∈ reached.references
  available : ∀ future ∈ reached.references, future ∈ reached.armed.futures ∨ Completed world future
  binds : reached.armed.bindsAnonymous = reached.armed.rule.matchResponseAnonymous
  below : (∀ future, reached.armed.anonymousFuture = some future → future < state.labels.length) ∧
    ∀ tag future, reached.named tag = some future → future < state.labels.length
  named : ∀ tag ∈ reached.armed.rule.matchResponseTags,
    tag ∈ evaluateTags (query.rules.take state.ruleIndex) ∧ state.namedFutures tag = reached.named tag

/-- The records are of race rules, and every race rule that the walk has passed has one. -/
structure Covers (query : Query) (state : WalkState) : Prop where
  race : ∀ reached ∈ state.reachedRaces,
    query.rules[reached.armed.ruleIndex]? = some reached.armed.rule ∧ reached.armed.rule.race = true
  complete : ∀ index < state.ruleIndex, ∀ rule, query.rules[index]? = some rule → rule.race = true →
    ∃ reached ∈ state.reachedRaces, reached.armed.ruleIndex = index

structure Records (query : Query) (state : WalkState) (world : World) : Prop where
  copied : Copied query state world
  recorded : ∀ reached ∈ state.reachedRaces, Recorded query state world reached
  complete : ∀ index < state.ruleIndex, ∀ rule, query.rules[index]? = some rule → rule.race = true →
    ∃ reached ∈ state.reachedRaces, reached.armed.ruleIndex = index
  armed : ∀ armed ∈ state.armedRules, ∃ reached ∈ state.reachedRaces, reached.armed = armed

/-- Every race rule that the walk has come to is armed or does not decide. -/
structure Races (query : Query) (state : WalkState) (world : World) : Prop
    extends Records query state world where
  undecided : ∀ reached ∈ state.reachedRaces,
    reached.armed ∈ state.armedRules ∨ reached.decides query world = false

/-- A later state, as far as the records go. -/
structure Later (query : Query) (state : WalkState) (world : World) (next : WalkState) (after : World) :
    Prop where
  further : Extends world after
  ruleIndex : state.ruleIndex ≤ next.ruleIndex
  labels : state.labels.length ≤ next.labels.length
  named : ∀ tag ∈ evaluateTags (query.rules.take state.ruleIndex),
    next.namedFutures tag = state.namedFutures tag

section Records

variable {query : Query} {rule : DNSRule} {reached : ReachedRace} {state next : WalkState}
  {world after : World} (admissible : Admissible [] query.rules) (races : Races query state world)
  (found : query.rules[state.ruleIndex]? = some rule)
  (recorded : rule.race = true → ∃ reached ∈ state.reachedRaces, reached.armed.ruleIndex = state.ruleIndex)

theorem Later.onward (ruleIndex : state.ruleIndex ≤ next.ruleIndex) (labels : next.labels = state.labels)
    (named : next.namedFutures = state.namedFutures) : Later query state world next world :=
  ⟨(Follows.refl world).extends, ruleIndex, Nat.le_of_eq (by rw [labels]), fun _ _ => by rw [named]⟩

theorem Later.of_sameWalk (same : SameWalk state next) : Later query state world next world :=
  .onward (Nat.le_of_eq same.ruleIndex.symm) same.labels same.namedFutures

theorem Later.of_follows (follows : Follows world after) : Later query state world state after where
  further := follows.extends
  ruleIndex := Nat.le_refl _
  labels := Nat.le_refl _
  named := fun _ _ => rfl

theorem Recorded.later (recorded : Recorded query state world reached)
    (later : Later query state world next after) : Recorded query next after reached where
  found := recorded.found
  race := recorded.race
  captured := recorded.captured
  available := fun future member => (recorded.available future member).imp_right later.further.completed
  binds := recorded.binds
  below := ⟨fun future source => Nat.lt_of_lt_of_le (recorded.below.1 future source) later.labels,
    fun tag future source => Nat.lt_of_lt_of_le (recorded.below.2 tag future source) later.labels⟩
  named := by
    intro tag member
    obtain ⟨defined, same⟩ := recorded.named tag member
    exact ⟨evaluateTags_take_subset later.ruleIndex defined, (later.named tag defined).trans same⟩

theorem Recorded.decides_later (recorded : Recorded query state world reached)
    (aligned : Aligned query state world) (further : Extends world after) :
    reached.decides query after = reached.decides query world := by
  have response {source : Option FutureId}
      (below : ∀ future, source = some future → future < state.labels.length) :
      after.response source = world.response source := by
    cases source with
    | none => rfl
    | some future =>
        simp only [World.response, Option.bind_some,
          further.answer (aligned.length_eq ▸ below future rfl)]
  have metadata : reached.metadata query after = reached.metadata query world := by
    rw [ReachedRace.metadata, ReachedRace.metadata, response recorded.below.1]
    congr 1
    funext tag
    exact response (recorded.below.2 tag)
  rw [ReachedRace.decides, metadata]
  rfl

variable {anonymous : Option Msg} {outcome : RuleOutcome} {swept : WalkState}

/-- Where the copies are made, a rule is matched as its record says. -/
theorem Recorded.isMatch_eq (recorded : Recorded query state world reached)
    (copied : Copied query state world) (reads : reached.armed.rule.ReadsBound)
    (tags : TagsSettled state reached.armed.rule)
    (read : reached.armed.rule.matchResponseAnonymous = true →
      anonymous = world.response reached.armed.anonymousFuture) :
    reached.armed.rule.isMatch (judgedMetadata query anonymous state.namedResponses) =
      reached.armed.rule.isMatch (reached.metadata query world) := by
  refine (reached.armed.rule.isMatch_answered (judgedMetadata query anonymous state.namedResponses) reads
    ⟨rfl, read, fun tag member => ?_⟩).symm
  rw [← (recorded.named tag member).2]
  exact (copied.copyOf tags member).response

/-! ### What keeps the records -/

namespace Records

section

variable (records : Records query state world)
include records

theorem later (later : Later query state world next after)
    (copied : Copied query next after) (reachedRaces : next.reachedRaces = state.reachedRaces)
    (armedRules : next.armedRules ⊆ state.armedRules)
    (passed : ∀ index, state.ruleIndex ≤ index → index < next.ruleIndex → ∀ rule,
      query.rules[index]? = some rule → rule.race = true →
        ∃ reached ∈ state.reachedRaces, reached.armed.ruleIndex = index) : Records query next after where
  copied := copied
  recorded := by
    rw [reachedRaces]
    exact fun reached member => (records.recorded reached member).later later
  complete := by
    rw [reachedRaces]
    intro index below rule found race
    by_cases earlier : index < state.ruleIndex
    · exact records.complete index earlier rule found race
    · exact passed index (Nat.le_of_not_lt earlier) below rule found race
  armed := by
    rw [reachedRaces]
    exact fun armed member => records.armed armed (armedRules member)

theorem covers : Covers query state :=
  ⟨fun reached member => ⟨(records.recorded reached member).found, (records.recorded reached member).race⟩,
    records.complete⟩

theorem reach {armed : ArmedRule}
    (recorded : Recorded query state world ⟨armed, state.namedFutures⟩) :
    Records query (state.reach armed) world where
  copied := records.copied.of_same ⟨records.copied.aligned.origins, records.copied.aligned.named,
    records.copied.aligned.anonymous, records.copied.aligned.terminal, records.copied.aligned.armed⟩
    (Nat.le_refl _) rfl rfl rfl rfl
  recorded := by
    intro other member
    rcases List.mem_append.1 member with before | new
    · exact (records.recorded other before).later (.onward (Nat.le_refl _) rfl rfl)
    · obtain rfl := List.mem_singleton.1 new
      exact recorded.later (.onward (Nat.le_refl _) rfl rfl)
  complete := by
    intro index below other found race
    obtain ⟨earlier, member, same⟩ := records.complete index below other found race
    exact ⟨earlier, List.mem_append_left _ member, same⟩
  armed := by
    intro other member
    obtain ⟨earlier, recordedEarlier, same⟩ := records.armed other member
    exact ⟨earlier, List.mem_append_left _ recordedEarlier, same⟩

end

end Records

theorem references_new (pending : List FutureId) :
    (ReachedRace.mk (armRule state rule pending) state.namedFutures).references = boundFutures state rule := by
  unfold ReachedRace.references boundFutures armRule
  cases rule.matchResponseAnonymous <;> rfl

namespace Races

section

include races

theorem later (later : Later query state world next after)
    (copied : Copied query next after) (ruleIndex : next.ruleIndex = state.ruleIndex)
    (reachedRaces : next.reachedRaces = state.reachedRaces)
    (armedRules : next.armedRules = state.armedRules) : Races query next after where
  toRecords := races.toRecords.later later copied reachedRaces (armedRules ▸ List.Subset.refl _)
    fun index passed below => absurd (ruleIndex ▸ below) (Nat.not_lt.2 passed)
  undecided := by
    rw [reachedRaces, armedRules]
    intro reached member
    rw [(races.recorded reached member).decides_later races.copied.aligned later.further]
    exact races.undecided reached member

theorem follows (follows : Follows world after) :
    Races query state after :=
  races.later (.of_follows follows) (races.copied.follows follows) rfl rfl rfl

theorem settles {settled : WalkState}
    (settles : Settles world state settled) : Races query settled world :=
  races.later (.of_sameWalk settles.sameWalk) (races.copied.settles settles) settles.sameWalk.ruleIndex
    settles.sameWalk.reachedRaces settles.sameWalk.armedRules

theorem woken : Races query state { world with wake := false } :=
  races.later ⟨⟨List.prefix_rfl, id⟩, Nat.le_refl _, Nat.le_refl _, fun _ _ => rfl⟩ races.copied.woken
    rfl rfl rfl

end

theorem start : Races query (.start query.options) .start where
  copied := .start
  recorded := fun _ member => absurd member List.not_mem_nil
  complete := fun _ below => absurd below (Nat.not_lt_zero _)
  armed := fun _ member => absurd member List.not_mem_nil
  undecided := fun _ member => absurd member List.not_mem_nil

end Races

/-! ### One rule of the walk -/

/-- A race rule that is ready when the walk gets there. -/
structure Fresh (query : Query) (rule : DNSRule) (state : WalkState) (world : World)
    (reached : ReachedRace) : Prop where
  covers : Covers query state
  member : reached ∈ state.reachedRaces
  index : reached.armed.ruleIndex = state.ruleIndex
  available : ∀ future ∈ reached.references, Completed world future
  verdict : ∀ anonymous, Judged query (RaceAlone query) rule state world anonymous →
    reached.decides query world =
      (rule.isMatch (judgedMetadata query anonymous state.namedResponses) &&
        executable query state.effectiveOptions rule.action)
  races : reached.decides query world = false → Races query state world

section Rule

include admissible found

theorem recorded_new (copied : Copied query state world) (race : rule.race = true)
    {pending : List FutureId} (among : PendingAmong world (boundFutures state rule) pending) :
    Recorded query state world ⟨armRule state rule pending, state.namedFutures⟩ where
  found := found
  race := race
  captured := fun future member => references_new pending ▸ (among.unseen future member).1
  available := by
    rw [references_new]
    exact among.completed
  binds := rfl
  below := by
    constructor
    · intro future source
      obtain ⟨_, anonymous⟩ := Option.ite_none_right_eq_some.1 source
      exact Aligned.lt_length (copied.aligned.anonymous anonymous)
    · exact fun tag future source => Aligned.lt_length (copied.aligned.named source).2
  named := fun tag member => ⟨(admissible.admits found).references tag member, rfl⟩

theorem later_action (effect : ActionEffect query rule state world outcome after) :
    Later query state world outcome.resumed after := by
  have grown (tag : String) (terminal : Bool) (transport : DNSTransport) :
      state.labels.length ≤ (state.append tag terminal transport).labels.length := by
    simp [WalkState.labels, WalkState.append]
  cases effect with
  | noAction | routeUnresolved | rejectReply | options => exact .onward (Nat.le_succ _) rfl rfl
  | evaluateMissing => split <;> exact .onward (Nat.le_succ _) rfl rfl
  | @evaluate _ tag _ _ transport action =>
      simp only [RuleOutcome.resumed, WalkState.bindFuture]
      by_cases untagged : tag = ""
      · simp only [untagged, if_true]
        exact ⟨world.extends_launch _, Nat.le_succ _, grown _ _ _, fun _ _ => rfl⟩
      · simp only [untagged, if_false]
        refine ⟨world.extends_launch _, Nat.le_succ _, grown _ _ _, fun other defined => ?_⟩
        refine Function.update_of_ne ?_ _ _
        rintro rfl
        exact (admissible.admits found).distinct _ (by rw [action, evaluateTag, if_neg untagged]) defined
  | speculate => exact ⟨world.extends_launch _, Nat.le_refl _, grown _ _ _, fun _ _ => rfl⟩
  | _ => exact .of_follows (.refl world)

include races

theorem Races.arm (race : rule.race = true) {pending : List FutureId}
    (among : PendingAmong world (boundFutures state rule) pending) :
    Races query { state.arm (armRule state rule pending) with ruleIndex := state.ruleIndex + 1 } world := by
  have reached := races.toRecords.reach (recorded_new admissible found races.copied race among)
  have onward : Later query (state.reach (armRule state rule pending)) world
      { state.arm (armRule state rule pending) with ruleIndex := state.ruleIndex + 1 } world :=
    .onward (Nat.le_succ _) rfl rfl
  have last : ReachedRace.mk (armRule state rule pending) state.namedFutures ∈
      (state.reach (armRule state rule pending)).reachedRaces :=
    List.mem_concat_self
  refine ⟨⟨?_, fun other member => (reached.recorded other member).later onward, ?_, ?_⟩, ?_⟩
  · exact races.copied.of_same (races.copied.aligned.arm among).advance (Nat.le_succ _) rfl rfl rfl rfl
  · intro index below other foundOther raceOther
    rcases Nat.lt_succ_iff_lt_or_eq.1 below with earlier | here
    · exact reached.complete index earlier other foundOther raceOther
    · exact ⟨_, last, here.symm⟩
  · intro armed member
    rcases List.mem_append.1 member with before | new
    · exact reached.armed armed before
    · exact ⟨_, last, (List.mem_singleton.1 new).symm⟩
  · intro other member
    rcases List.mem_append.1 member with before | new
    · exact (races.undecided other before).imp_left (List.mem_append_left _)
    · rw [List.mem_singleton.1 new]
      exact .inl (List.mem_concat_self)

theorem Races.fresh (race : rule.race = true)
    (available : ∀ future ∈ boundFutures state rule, Completed world future) :
    Fresh query rule (state.reach (armRule state rule [])) world
      ⟨armRule state rule [], state.namedFutures⟩ := by
  have recorded := recorded_new admissible found races.copied race
    (show PendingAmong world (boundFutures state rule) [] from
      ⟨fun _ member => absurd member List.not_mem_nil, fun future member => .inr (available future member)⟩)
  have records := races.toRecords.reach recorded
  have member : ReachedRace.mk (armRule state rule []) state.namedFutures ∈
      (state.reach (armRule state rule [])).reachedRaces :=
    List.mem_concat_self
  refine ⟨records.covers, member, rfl, ?_, ?_, ?_⟩
  · rw [references_new]
    exact available
  · intro anonymous judged
    have read (binds : rule.matchResponseAnonymous = true) :
        anonymous = world.response (armRule state rule []).anonymousFuture := by
      rw [judged.read binds, show (armRule state rule []).anonymousFuture = state.anonymousFuture by
        simp [armRule, binds]]
      refine World.view_eq_response fun future (source : state.anonymousFuture = some future) =>
        available future (List.mem_append_right _ ?_)
      simp [binds, source]
    have verdict := (records.recorded _ member).isMatch_eq records.copied (admissible.admits found).reads judged.clean.1 read
    rw [ReachedRace.decides, ← verdict]
    rfl
  · intro undecided
    refine ⟨records, fun reached recordedThere => ?_⟩
    rcases List.mem_append.1 recordedThere with before | new
    · exact races.undecided reached before
    · rw [List.mem_singleton.1 new]
      exact .inr undecided

theorem Races.enters {entered : WalkState} (enters : Entered world rule state entered) :
    rule.race = false ∧ Races query entered world ∨
      hasBindings rule = true ∧ rule.race = true ∧ ∃ reached, Fresh query rule entered world reached := by
  cases enters with
  | unbound unbound =>
      refine .inl ⟨?_, races⟩
      by_contra race
      simp only [Bool.not_eq_false] at race
      simp only [hasBindings, Bool.or_eq_false_iff, Bool.not_eq_false', List.isEmpty_iff] at unbound
      rcases (admissible.admits found).binds race with tags | anonymous
      · exact tags unbound.1
      · simp [unbound.2] at anonymous
  | ordered _ ordered settles => exact .inl ⟨ordered, races.settles settles⟩
  | race bound race settles available =>
      rw [← settles.sameWalk.ruleIndex] at found
      exact .inr ⟨bound, race, _, (races.settles settles).fresh admissible found race available⟩

include recorded

theorem Races.action (effect : ActionEffect query rule state world outcome after) :
    Races query outcome.resumed after := by
  obtain ⟨armedRules, reachedRaces, ruleIndex⟩ := effect.resumed
  have onward := later_action admissible found effect
  refine ⟨races.toRecords.later onward (races.copied.action (admissible.admits found) found effect) reachedRaces
    (armedRules ▸ List.Subset.refl _) ?_, ?_⟩
  · intro index passed below other foundOther race
    obtain rfl := Nat.le_antisymm passed (Nat.le_of_lt_succ (Nat.lt_of_lt_of_le below ruleIndex))
    cases found.symm.trans foundOther
    exact recorded race
  · rw [reachedRaces, armedRules]
    intro reached member
    rw [(races.recorded reached member).decides_later races.copied.aligned onward.further]
    exact races.undecided reached member

omit admissible in
theorem Races.advance : Races query { state with ruleIndex := state.ruleIndex + 1 } world := by
  refine ⟨races.toRecords.later (.onward (Nat.le_succ _) rfl rfl)
    (races.copied.of_same races.copied.aligned.advance (Nat.le_succ _) rfl rfl rfl rfl) rfl
    (List.Subset.refl _) ?_, races.undecided⟩
  intro index passed below other foundOther race
  obtain rfl := Nat.le_antisymm passed (Nat.le_of_lt_succ below)
  cases found.symm.trans foundOther
  exact recorded race

end Rule

variable {start : World} {kept rest : List ArmedRule}

theorem ArmedJudged.isMatch_eq (races : Records query state world)
    (recorded : Recorded query state world reached) (earlier : Recorded query state start reached)
    (reads : reached.armed.rule.ReadsBound)
    (judged : ArmedJudged query (RaceAlone query) start world reached.armed state anonymous) :
    reached.armed.rule.isMatch (judgedMetadata query anonymous state.namedResponses) =
      reached.armed.rule.isMatch (reached.metadata query world) := by
  refine recorded.isMatch_eq races.copied reads judged.clean.1 fun binds => ?_
  have refers {future : FutureId} (source : reached.armed.anonymousFuture = some future) :
      future ∈ reached.references := List.mem_append_right _ (Option.mem_toList.2 source)
  rw [judged.read (recorded.binds ▸ binds) fun future source => earlier.available future (refers source)]
  refine World.view_eq_response fun future source => ?_
  exact (recorded.available future (refers source)).elim (judged.ready future) id

theorem Recorded.disarm (recorded : Recorded query state world reached) (remaining : List ArmedRule) :
    Recorded query (state.disarm remaining) world reached :=
  recorded.later (.onward (Nat.le_refl _) rfl rfl)

theorem Records.disarm (records : Records query state world) {remaining : List ArmedRule}
    (subset : remaining ⊆ state.armedRules) : Records query (state.disarm remaining) world :=
  records.later (.onward (Nat.le_refl _) rfl rfl) (records.copied.disarm subset) rfl subset fun _ passed below => absurd below (Nat.not_lt.2 passed)

variable {armed : ArmedRule} {suspension : Suspension}

section Sweep

include admissible races

theorem Races.drop
    (earlier : ∀ reached ∈ state.reachedRaces, Recorded query state start reached)
    (all : state.armedRules = kept ++ armed :: rest)
    (judged : ArmedJudged query (RaceAlone query) start world armed (state.disarm (kept ++ rest)) anonymous)
    (passes : armed.rule.isMatch (judgedMetadata query anonymous state.namedResponses) = true →
      executable query armed.options armed.rule.action = false) :
    Races query (state.disarm (kept ++ rest)) world := by
  have records : Records query (state.disarm (kept ++ rest)) world := by
    apply races.toRecords.disarm
    rw [all]
    exact ((List.sublist_cons_self _ _).append_left _).subset
  refine ⟨records, fun reached member => ?_⟩
  rcases races.undecided reached member with stillArmed | undecided
  · by_cases same : reached.armed = armed
    · subst same
      right
      have recorded := records.recorded reached member
      have reads := (admissible.admits recorded.found).reads
      have verdict := judged.isMatch_eq records recorded ((earlier reached member).disarm _) reads
      rw [ReachedRace.decides, Bool.and_eq_false_iff, ← verdict, ← Bool.not_eq_true]
      exact not_or_of_imp passes
    · left
      rw [all] at stillArmed
      simp only [List.mem_append, List.mem_cons, same, false_or] at stillArmed
      exact List.mem_append.2 stillArmed
  · exact .inr undecided

theorem SweepEffect.passes
    (effect : SweepEffect query (RaceAlone query) start world kept rest state swept .next)
    (all : state.armedRules = kept ++ rest)
    (earlier : ∀ reached ∈ state.reachedRaces, Recorded query state start reached) :
    Races query swept world := by
  generalize decided : SweepOutcome.next = outcome at effect
  induction effect with
  | done => exact races
  | keep _ _ _ ih => exact ih races (by simp [all]) earlier decided
  | drop judged passes _ ih =>
      exact ih (races.drop admissible earlier all judged passes) rfl
        (fun reached member => (earlier reached member).disarm _) decided
  | wins _ _ effect => exact absurd decided.symm effect.ne_next

end Sweep

/-- A ready race rule decided, or no race rule that the walk has come to does. -/
def Decided (query : Query) (state : WalkState) (world : World) (site : CommitSite) : Prop :=
  Covers query state ∧
    ((∃ winner ∈ state.reachedRaces, Ready query world winner ∧
      (site = .rule winner.armed.ruleIndex ∨ site = .armed winner.armed.ruleIndex)) ∨
    ∀ reached ∈ state.reachedRaces, reached.decides query world = false)

theorem ArmedEffect.executable {outcome : SweepOutcome}
    (effect : ArmedEffect query armed state world outcome) :
    executable query armed.options armed.rule.action = true := by
  cases effect with
  | respondTagged action | respond action | predefined action => simp [action, RuleWalk.executable]
  | route action resolved => simp [action, RuleWalk.executable, resolved]
  | reject action rejects => simp [action, RuleWalk.executable, rejects]

theorem ReachedRace.decides_follows (follows : Follows world after) (reached : ReachedRace) :
    reached.decides query after = reached.decides query world := by
  unfold ReachedRace.decides ReachedRace.metadata World.response
  rw [follows.answer]

theorem Ready.follows (ready : Ready query world reached) (follows : Follows world after) :
    Ready query after reached :=
  ⟨fun future refers => follows.completed (ready.available future refers),
    (reached.decides_follows follows).trans ready.decides⟩

theorem Decided.follows {site : CommitSite} (decided : Decided query state world site)
    (follows : Follows world after) : Decided query state after site := by
  rcases decided with ⟨covers, ⟨winner, member, ready, here⟩ | none_⟩
  · exact ⟨covers, .inl ⟨winner, member, ready.follows follows, here⟩⟩
  · exact ⟨covers, .inr fun reached member =>
      (reached.decides_follows follows).trans (none_ reached member)⟩

/-- With no rule armed, none that the walk has come to decides. -/
theorem Races.decided (races : Races query state world) (idle : state.armedRules = []) (site : CommitSite) :
    Decided query state world site := by
  refine ⟨races.covers, .inr fun reached member => (races.undecided reached member).resolve_left ?_⟩
  rw [idle]
  exact List.not_mem_nil

def Commits (state : WalkState) : RuleOutcome → Prop
  | .next _ => False
  | .suspend next (.pending pending) => next = state ∧ pending.site = .rule state.ruleIndex
  | .suspend _ _ => False
  | .exit exit => exit.state = state ∧ exit.site = .rule state.ruleIndex

theorem ActionEffect.idle_of_commits (effect : ActionEffect query rule state world outcome after)
    (commits : Commits state outcome) : state.armedRules = [] ∧ after = world := by
  cases effect with
  | respondTagged _ idle | respond _ idle | routeSpeculated _ idle | reject _ idle | predefined _ idle =>
      exact ⟨idle, rfl⟩
  | route _ _ idle => exact ⟨idle, rfl⟩
  | _ => exact commits.elim

theorem ActionEffect.commits (effect : ActionEffect query rule state world outcome after)
    (bound : hasBindings rule = true)
    (executes : executable query state.effectiveOptions rule.action = true)
    (idle : state.armedRules = []) : Commits state outcome := by
  cases effect with
  | respondTagged | respond | routeSpeculated | route | reject | predefined => exact ⟨rfl, rfl⟩
  | held armed | speculate _ armed => exact absurd idle armed
  | respondAwait _ _ unbound => simp [bound] at unbound
  | noAction action | options action | evaluateMissing action | evaluate action
  | routeUnresolved action unresolved =>
      simp [action, executable] at executes
  | rejectReply action _ unsupported => simp [action, executable, unsupported] at executes

def Standing (query : Query) (state : WalkState) (world : World) : Suspension → Prop
  | .pending pending => state.armedRules = [] ∧ Decided query state world pending.site
  | _ => Races query state world

def raceRequirement (query : Query) : Requirement walkSignature World
  | .recvWake state _, world => Covers query state ∧
      (world.wake = false → ∀ reached ∈ state.reachedRaces, Ready query world reached →
        ∃ future ∈ reached.references, world.phase future = some .closed)
  | .awaitDone state site _, world => Decided query state world site
  | .exchange state site _ _, world => Decided query state world site
  | _, _ => True

def raceSpec (query : Query) : RoundSpec where
  before := fun state suspension world => Standing query state world suspension
  sweeping := fun _ _ => True
  swept := fun state suspension world => Standing query state world suspension ∧
    ∀ armed ∈ state.armedRules, ∃ future ∈ armed.futures, Unseen world future
  walking := Races query
  after := fun state suspension world => Standing query state world suspension
  finishing := fun state pending world => Decided query state world pending.site
  exits := fun exit world => exit.site = .cancelled ∨ Decided query exit.state world exit.site

theorem Standing.follows (standing : Standing query state world suspension)
    (follows : Follows world after) : Standing query state after suspension := by
  cases suspension with
  | pending pending => exact ⟨standing.1, standing.2.follows follows⟩
  | await future | drain => exact Races.follows standing follows

theorem raceSpec_stable : (raceSpec query).Stable query where
  before := fun _ _ => stable_of_follows fun _ _ follows standing => standing.follows follows
  sweeping := fun _ => stable_of_follows fun _ _ _ holds => holds
  swept := fun _ _ => stable_of_follows fun _ _ follows holds =>
    ⟨holds.1.follows follows, fun armed member =>
      (holds.2 armed member).imp fun _ waits => ⟨waits.1, follows.unseen waits.2⟩⟩
  walking := fun _ => stable_of_follows fun _ _ follows races => races.follows follows
  after := fun _ _ => stable_of_follows fun _ _ follows standing => standing.follows follows
  finishing := fun _ _ => stable_of_follows fun _ _ follows decided => decided.follows follows
  exits := fun _ => stable_of_follows fun _ _ follows => Or.imp_right fun decided => decided.follows follows

theorem raceSpec_commits (commits : Commits state outcome) (idle : state.armedRules = [])
    (decided : Decided query state world (.rule state.ruleIndex)) :
    (raceSpec query).afterRule outcome world := by
  cases outcome with
  | next => exact commits.elim
  | suspend next suspension =>
      cases suspension with
      | pending pending =>
          obtain ⟨rfl, site⟩ := commits
          refine ⟨idle, ?_⟩
          rw [site]
          exact decided
      | await | drain => exact commits.elim
  | exit exit =>
      obtain ⟨rfl, site⟩ := commits
      refine .inr ?_
      rw [site]
      exact decided

section Rule

include admissible races found

include recorded in
theorem raceSpec_action (effect : ActionEffect query rule state world outcome after) :
    (raceSpec query).afterRule outcome after := by
  by_cases commits : Commits state outcome
  · obtain ⟨idle, rfl⟩ := effect.idle_of_commits commits
    exact raceSpec_commits commits idle (races.decided idle _)
  · have resumed := races.action admissible found recorded effect
    cases outcome with
    | next next => exact resumed
    | suspend next suspension =>
        cases suspension with
        | pending pending => exact absurd (by cases effect <;> exact ⟨rfl, rfl⟩) commits
        | await | drain => exact resumed
    | exit exit => exact absurd (by cases effect <;> exact ⟨rfl, rfl⟩) commits

theorem raceSpec_rule (effect : RuleEffect query (RaceAlone query) rule state world outcome after) :
    (raceSpec query).afterRule outcome after := by
  cases effect with
  | arm _ race settles among =>
      rw [← settles.sameWalk.ruleIndex] at found
      exact (races.settles settles).arm admissible found race among
  | await _ _ settles => exact races.settles settles
  | pass enters judged unmatched =>
      have foundHere := enters.ruleIndex ▸ found
      rcases races.enters admissible found enters with ⟨ordered, here⟩ | ⟨_, _, reached, fresh⟩
      · exact here.advance foundHere fun race => by simp [ordered] at race
      · have here := fresh.races (by rw [fresh.verdict _ judged, unmatched]; rfl)
        exact here.advance foundHere fun _ => ⟨reached, fresh.member, fresh.index⟩
  | @act entered anonymous _ _ enters judged matched effect =>
      have foundHere := enters.ruleIndex ▸ found
      rcases races.enters admissible found enters with ⟨ordered, here⟩ | ⟨bound, race, reached, fresh⟩
      · exact raceSpec_action admissible here foundHere (fun race => by simp [ordered] at race) effect
      have verdict := fresh.verdict _ judged
      rw [matched, Bool.true_and] at verdict
      cases executes : executable query entered.effectiveOptions rule.action with
      | false =>
          exact raceSpec_action admissible (fresh.races (verdict.trans executes)) foundHere
            (fun _ => ⟨reached, fresh.member, fresh.index⟩) effect
      | true =>
          -- the condition: no other race rule is armed
          have idle := judged.clean.2 _ rfl race matched executes
          have commits := effect.commits bound executes idle
          obtain ⟨_, rfl⟩ := effect.idle_of_commits commits
          exact raceSpec_commits commits idle ⟨fresh.covers, .inl ⟨reached, fresh.member,
            ⟨fresh.available, verdict.trans executes⟩, .inl (by rw [fresh.index])⟩⟩

end Rule

theorem races_wait (races : Races query state world)
    (waits : ∀ armed ∈ state.armedRules, ∃ future ∈ armed.futures, Unseen world future)
    (empty : world.wake = false) (member : reached ∈ state.reachedRaces) (ready : Ready query world reached) :
    ∃ future ∈ reached.references, world.phase future = some .closed := by
  rcases races.undecided reached member with stillArmed | undecided
  · obtain ⟨future, captured, ahead⟩ := waits reached.armed stillArmed
    have refers := (races.recorded reached member).captured future captured
    refine ⟨future, refers, ?_⟩
    obtain ⟨outcome, published⟩ := ready.available future refers
    obtain ⟨exchange, found, notRunning, _⟩ := World.poll_eq_some_iff.1 published
    have unsignalled := ahead.resolve_right (by simp [empty])
    rw [World.phase, found, Option.map_some] at unsignalled ⊢
    cases phase : exchange.phase with
    | running => exact absurd phase notRunning
    | closed => rfl
    | signalled => exact absurd (congrArg some phase) unsignalled
  · exact absurd ready.decides (by simp [undecided])

/-- A wait ends with a decision, or nothing is decided yet. -/
theorem Standing.cases (standingThen : Standing query state start suspension)
    (standing : Standing query state world suspension) :
    state.armedRules = [] ∨ Races query state start ∧ Races query state world ∧
      ∀ next after, Races query next after → Standing query next after suspension := by
  cases suspension with
  | pending pending => exact .inl standing.1
  | await future | drain => exact .inr ⟨standingThen, standing, fun _ _ races => races⟩

theorem SweepEffect.of_idle {clean : MatchCondition} {outcome : SweepOutcome}
    (idle : state.armedRules = [])
    (effect : SweepEffect query clean start world [] state.armedRules state swept outcome) :
    swept = state ∧ outcome = .next := by
  rw [idle] at effect
  cases effect
  exact ⟨rfl, rfl⟩

theorem SweepEffect.decided {outcome : SweepOutcome} (admissible : Admissible [] query.rules)
    (standingThen : Standing query state start suspension) (standing : Standing query state world suspension)
    (effect : SweepEffect query (RaceAlone query) start world [] state.armedRules state swept outcome)
    (wins : outcome ≠ .next) :
    ∃ armed, ArmedEffect query armed swept world outcome ∧
      Decided query swept world (.armed armed.ruleIndex) := by
  rcases standingThen.cases standing with idle | ⟨racesThen, races, _⟩
  · exact absurd (effect.of_idle idle).2 wins
  obtain ⟨armed, armedThen, anonymous, judged, matched, armedEffect⟩ := effect.winner wins
  obtain ⟨winner, member, rfl⟩ := races.armed armed armedThen
  obtain ⟨_, subset, rfl⟩ := effect.disarms rfl
  have records := races.toRecords.disarm subset
  have recorded := records.recorded winner member
  refine ⟨winner.armed, armedEffect, records.covers, .inl ⟨winner, member, ⟨?_, ?_⟩, .inr rfl⟩⟩
  · exact fun future refers => (recorded.available future refers).elim (judged.ready future) id
  · have reads := (admissible.admits recorded.found).reads
    rw [judged.isMatch_eq records recorded ((racesThen.recorded winner member).disarm _) reads] at matched
    rw [ReachedRace.decides, matched, armedEffect.executable]
    rfl

theorem raceSpec_sound (admissible : Admissible [] query.rules) :
    (raceSpec query).Sound query (RaceAlone query) (raceRequirement query) where
  toStable := raceSpec_stable
  settle := by
    intro state settled suspension world standing settles
    have same := settles.sameWalk
    cases suspension with
    | pending pending =>
        obtain ⟨idle, covers, decided⟩ := standing
        refine ⟨same.armedRules.trans idle, ⟨?_, ?_⟩, ?_⟩
        · rw [same.reachedRaces]
          exact covers.race
        · rw [same.reachedRaces, same.ruleIndex]
          exact covers.complete
        · rw [same.reachedRaces]
          exact decided
    | await future | drain => exact Races.settles standing settles
  sweeps := fun _ => trivial
  disarms := fun _ _ _ => trivial
  judgesArmed := fun _ => trivial
  passes := by
    intro state swept suspension start world standingThen _ standing effect
    refine ⟨?_, effect.waits rfl (by simp)⟩
    rcases standingThen.cases standing with idle | ⟨racesThen, races, stands⟩
    · rw [(effect.of_idle idle).1]
      exact standing
    · exact stands _ _ (effect.passes admissible races rfl racesThen.recorded)
  wins := by
    intro state swept suspension start world exit standingThen _ standing effect
    obtain ⟨armed, armedEffect, decided⟩ :=
      effect.decided admissible standingThen standing SweepOutcome.noConfusion
    cases armedEffect <;> exact .inr decided
  winsPending := by
    intro state swept suspension start world pending standingThen _ standing effect
    obtain ⟨armed, armedEffect, decided⟩ :=
      effect.decided admissible standingThen standing SweepOutcome.noConfusion
    cases armedEffect
    exact decided
  pending := fun holds => holds.1.2
  awaits := fun holds _ => ⟨Records.covers (Races.toRecords holds.1), fun empty _ member ready =>
    races_wait holds.1 holds.2 empty member ready⟩
  drains := fun holds _ => ⟨Records.covers (Races.toRecords holds.1), fun empty _ member ready =>
    races_wait holds.1 holds.2 empty member ready⟩
  woken := by
    intro state suspension world holds _
    cases suspension with
    | pending pending =>
        obtain ⟨idle, covers, ⟨winner, member, ready, here⟩ | none_⟩ := holds.1
        · exact ⟨idle, covers, .inl ⟨winner, member, ⟨ready.available, ready.decides⟩, here⟩⟩
        · exact ⟨idle, covers, .inr none_⟩
    | await future | drain => exact Races.woken holds.1
  cancelled := fun _ _ => .inl rfl
  resumesAwait := fun holds _ => holds.1
  resumesDrain := fun holds _ => holds.1
  awaitsDone := fun decided _ => decided
  abandoned := fun _ _ => .inl rfl
  finished := fun decided _ _ => .inr decided
  exchanges := fun decided _ => decided
  exchanged := fun decided _ => .inr decided
  judges := fun _ _ _ => trivial
  rule := fun found races effect => raceSpec_rule admissible races found effect
  finish := by
    intro state world races _
    unfold walkEnd
    by_cases armed : (!state.armedRules.isEmpty) = true
    · rw [if_pos armed]
      exact races
    · rw [if_neg armed]
      exact ⟨armedRules_eq_nil armed, races.decided (armedRules_eq_nil armed) _⟩

end Records

/-- **A ready race rule does not wait for another one.** For accepted rules outside
legacy mode, in a run of `RaceAlone`: every race rule passed is on record; while the
loop waits, none on record is ready, unless a completion it depends on has still to
signal; and the last exchange and the result belong to a ready race rule, or none on
record decides. -/
theorem ready_race_not_waiting (context : RuleContext) (transports : DNSTransportManager)
    (rawRules : List Options.DNSRule) (query : Query)
    (accepted : buildRules context transports rawRules = .ok (query.rules, false))
    (config : Config walkSignature ResumeLoop WalkExit World)
    (run : query.Reachable (judging (RaceAlone query)) config) :
    (∀ state suspension next, config.process = .act (.recvWake state suspension) next →
      Covers query state ∧ (config.world.wake = false → ∀ reached ∈ state.reachedRaces,
        Ready query config.world reached →
          ∃ future ∈ reached.references, config.world.phase future = some .closed)) ∧
    (∀ state site future next, config.process = .act (.awaitDone state site future) next →
      Decided query state config.world site) ∧
    (∀ state site transport options next,
      config.process = .act (.exchange state site transport options) next →
        Decided query state config.world site) ∧
    ∀ exit, config.process = .done (.inr exit) →
      exit.site = .cancelled ∨ Decided query exit.state config.world exit.site := by
  have secured := (raceSpec_sound (buildRules_admissible accepted)).reachable id Races.start run
  refine ⟨?_, ?_, ?_, ?_⟩
  · intro state suspension next waiting
    rw [waiting] at secured
    exact (secured config.world .refl).1 trivial
  · intro state site future next waiting
    rw [waiting] at secured
    exact (secured config.world .refl).1 trivial
  · intro state site transport options next waiting
    rw [waiting] at secured
    exact (secured config.world .refl).1 trivial
  · intro exit ended
    rw [ended] at secured
    exact secured config.world .refl

def matchedAlone (query : Query) : WalkAction → Bool
  | .judge state site rule metadata =>
      decide (TagsSettled state rule) &&
        match site with
        | .rule _ => !(rule.race && rule.isMatch metadata &&
            executable query state.effectiveOptions rule.action) || state.armedRules.isEmpty
        | _ => true
  | _ => true

theorem matchedAlone_tested (query : Query) : (judging (RaceAlone query)).Tested (matchedAlone query) := by
  refine ⟨fun world action answer passes => ?_, fun _ _ => trivial⟩
  cases action with
  | judge state site rule metadata =>
      obtain ⟨settled, alone⟩ := Bool.and_eq_true_iff.1 passes
      refine ⟨of_decide_eq_true settled, ?_⟩
      rintro index rfl race matched executes
      simpa [race, matched, executes] using alone
  | _ => trivial

def raceQuery : Query :=
  sampleQuery [evaluateRule "x", evaluateRule "y", respondRule "x" true, respondRule "y" true]

theorem raceQuery_accepted : buildRules sampleContext raceQuery.transports
    [rawEvaluate "x", rawEvaluate "y", rawRespond "x" (by decide) true, rawRespond "y" (by decide) true] =
      .ok (raceQuery.rules, false) := rfl

/-- The response of `y` comes while both race rules are armed, and its rule wins. -/
theorem ready_race_not_waiting_sweep :
    ∃ config exit, raceQuery.Reachable (judging (RaceAlone raceQuery)) config ∧
      config.process = .done (.inr exit) ∧ exit.site = .armed 3 ∧
        Decided raceQuery exit.state config.world exit.site := by
  obtain ⟨config, run, won⟩ := Config.exists_reaches (matchedAlone_tested raceQuery)
    [.act 0, .act 0, .act 0, .act 0, .act 0, .act 0, .act 0, .act 0, .act 0, .act 0,
      .env (.close 1), .again, .act 0, .act 0, .act 0, .act 0, .act 0]
    (fun config : Config walkSignature ResumeLoop WalkExit World => match config.process with
      | .done (.inr exit) => exit.site == .armed 3
      | .done (.inl _) | .act .. => false)
    (show (raceQuery.start.replay raceQuery.system (resumeBody raceQuery) _ _).any _ = true by
      decide +kernel)
  split at won
  case h_1 exit ended =>
    have site : exit.site = .armed 3 := eq_of_beq won
    obtain ⟨_, _, _, exits⟩ := ready_race_not_waiting _ _ _ raceQuery raceQuery_accepted config run
    refine ⟨config, exit, run, ended, site, (exits exit ended).resolve_left ?_⟩
    rw [site]
    exact CommitSite.noConfusion
  all_goals cases won

/-- The response of `y` is there when the walk gets to its race rule, which matches. But
the race rule of `x` is armed, and the loop waits for the response of `x`. -/
theorem ready_race_waits_for_armed :
    ∃ config state next, raceQuery.Reachable (Condition.always walkSignature ResumeLoop World) config ∧
      config.process = .act (.recvWake state .drain) next ∧
      raceQuery.outcomes config.world (.recvWake state .drain) = [] ∧
        ∃ reached ∈ state.reachedRaces, reached.armed.ruleIndex = 3 ∧
          Ready raceQuery config.world reached ∧
            ∀ future ∈ reached.references, config.world.phase future = some .signalled := by
  obtain ⟨config, run, waits⟩ := Config.exists_reaches Condition.tested_always
    [.act 0, .act 0, .act 0, .act 0, .env (.close 1), .env (.signal 1), .act 0, .act 0, .act 0,
      .act 0, .act 0, .act 0, .again, .act 0, .act 0, .act 0, .again, .act 0, .act 0]
    (fun config : Config walkSignature ResumeLoop WalkExit World => match config.process with
      | .act (.recvWake state .drain) _ =>
          !config.world.wake && !config.world.ctxDone && state.reachedRaces.any fun reached =>
            reached.armed.ruleIndex == 3 && reached.decides raceQuery config.world &&
              reached.references.all fun future =>
                config.world.phase future == some .signalled && (config.world.poll future).isSome
      | .act (.recvWake _ (.await _)) _ | .act (.recvWake _ (.pending _)) _ | .act (.poll _) _
      | .act (.judge ..) _ | .act (.launch _) _ | .act (.awaitDone ..) _ | .act (.exchange ..) _
      | .done _ => false)
    (show (raceQuery.start.replay raceQuery.system (resumeBody raceQuery) _ _).any _ = true by
      decide +kernel)
  split at waits
  case h_1 state next waiting =>
    simp only [Bool.and_eq_true, Bool.not_eq_true', List.any_eq_true, List.all_eq_true, beq_iff_eq]
      at waits
    obtain ⟨⟨empty, going⟩, reached, member, ⟨index, decides⟩, all⟩ := waits
    refine ⟨config, state, next, run, waiting, ?_, reached, member, index, ⟨?_, decides⟩, ?_⟩
    · simp only [Query.outcomes, empty, going, Bool.false_eq_true, if_false]
      rfl
    · exact fun future refers => Option.isSome_iff_exists.1 (all future refers).2
    · exact fun future refers => (all future refers).1
  all_goals cases waits

end SideraCore.Dns.RuleWalk
