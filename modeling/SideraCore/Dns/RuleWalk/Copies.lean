import SideraCore.Dns.Accepted
import SideraCore.Dns.RuleWalk.Origins

/-!
Owns the two views of a response under a tag: the future of its exchange, and the
copy that settling makes. A copy that was made is the response of the exchange, and
a tag without a future has no copy. Between completion and settling the copy is
missing; `TagsSettled` excludes that for the tags of one rule.
-/

namespace SideraCore.Dns.RuleWalk

open Rule Concurrency

/-! ### What an exchange answers -/

/-- What the exchange of a future answers, whether or not it has completed. -/
def World.answer (world : World) (future : FutureId) : Option (DNSTransport × ExchangeOutcome) :=
  (world.launches[future]?).map fun launch => (launch.transport, launch.outcome)

def World.response (world : World) (source : Option FutureId) : Option Msg :=
  (source.bind world.answer).bind fun answer => responseOf answer.2

variable {before after world : World}

theorem Follows.answer (follows : Follows before after) :
    after.answer = before.answer := by
  funext future
  rw [World.answer, World.answer, follows.launches]

variable {future : FutureId}

theorem Extends.answer (further : Extends before after) (below : future < before.exchanges.length) :
    after.answer future = before.answer future := by
  obtain ⟨more, same⟩ := further.launches
  have within : future < before.launches.length := by simpa [World.launches] using below
  rw [World.answer, World.answer, ← same, List.getElem?_append_left within]

theorem World.answer_of_poll {outcome : ExchangeOutcome} (published : world.poll future = some outcome) :
    ∃ transport, world.answer future = some (transport, outcome) := by
  obtain ⟨exchange, found, _, rfl⟩ := World.poll_eq_some_iff.1 published
  exact ⟨exchange.transport, by simp [World.answer, World.launches, found]⟩

theorem World.view_eq_response {source : Option FutureId}
    (completed : ∀ future, source = some future → Completed world future) :
    world.view source = world.response source := by
  cases source with
  | none => rfl
  | some future =>
      obtain ⟨outcome, published⟩ := completed future rfl
      obtain ⟨transport, answered⟩ := World.answer_of_poll published
      simp [World.view, World.response, published, answered]

theorem Aligned.answer_eq {query : Query} {state : WalkState} (aligned : Aligned query state world)
    {label : FutureLabel} (found : state.labels[future]? = some label) :
    (world.answer future).map Prod.fst = some label.transport := by
  obtain ⟨launch, launched, origin⟩ := aligned.launch_at found
  simp [World.answer, launched, origin.transport]

/-- The copies of the responses that the rule binds by tag have been made. -/
def TagsSettled (state : WalkState) (rule : DNSRule) : Prop :=
  ∀ tag ∈ rule.matchResponseTags, ∀ future, state.namedFutures tag = some future →
    ∃ entry, state.futures[future]? = some entry ∧ entry.settled = true

instance (state : WalkState) (rule : DNSRule) : Decidable (TagsSettled state rule) :=
  decidable_of_iff (∀ tag ∈ rule.matchResponseTags,
      (state.namedFutures tag).all fun future => (state.futures[future]?).any Future.settled) <| by
    simp [TagsSettled, Option.all_eq_true, Option.any_eq_true]

/-- The copy under the tag is what the exchange of its future answers. -/
structure CopyOf (state : WalkState) (world : World) (tag : String) : Prop where
  response : state.namedResponses tag = world.response (state.namedFutures tag)
  transport : state.namedTransports tag =
    ((state.namedFutures tag).bind world.answer).map Prod.fst

structure Copied (query : Query) (state : WalkState) (world : World) : Prop where
  aligned : Aligned query state world
  settled : ∀ {tag future entry}, state.namedFutures tag = some future →
    state.futures[future]? = some entry → entry.settled = true → CopyOf state world tag
  unbound : ∀ {tag}, state.namedFutures tag = none → CopyOf state world tag
  owner : ∀ {future label}, state.labels[future]? = some label → label.tag ≠ "" →
    state.namedFutures label.tag = some future
  defined : ∀ {tag future}, state.namedFutures tag = some future →
    tag ∈ evaluateTags (query.rules.take state.ruleIndex)

namespace Copied

variable {query : Query} {clean : MatchCondition} {rule : DNSRule} {state : WalkState}
  {world after : World} {tag : String}

theorem copyOf (copied : Copied query state world) (tags : TagsSettled state rule)
    (member : tag ∈ rule.matchResponseTags) : CopyOf state world tag := by
  cases source : state.namedFutures tag with
  | none => exact copied.unbound source
  | some future =>
      obtain ⟨entry, found, settled⟩ := tags tag member future source
      exact copied.settled source found settled

theorem start : Copied query (.start query.options) .start where
  aligned := .start
  settled := nofun
  unbound := fun _ => ⟨rfl, rfl⟩
  owner := nofun
  defined := nofun

section Copied

variable (copied : Copied query state world)
include copied

theorem follows (follows : Follows world after) : Copied query state after := by
  have copyOf {tag : String} (copy : CopyOf state world tag) : CopyOf state after tag := by
    refine ⟨?_, ?_⟩
    · rw [World.response, follows.answer]
      exact copy.response
    · rw [follows.answer]
      exact copy.transport
  exact ⟨copied.aligned.follows follows, fun source found settled =>
    copyOf (copied.settled source found settled), fun source => copyOf (copied.unbound source),
    copied.owner, copied.defined⟩

variable {id : FutureId} {other : WalkState}

theorem label_tag {future : Future} (source : state.namedFutures tag = some id)
    (found : state.futures[id]? = some future) : future.tag = tag ∧ tag ≠ "" := by
  obtain ⟨nonempty, transport, labelled⟩ := copied.aligned.named source
  simp only [WalkState.labels, List.getElem?_map, found, Option.map_some, Option.some.injEq] at labelled
  exact ⟨congrArg FutureLabel.tag labelled, nonempty⟩

theorem settle {future : Future} {outcome : ExchangeOutcome} (found : state.futures[id]? = some future)
    (published : world.poll id = some outcome) :
    Copied query (state.settle id future outcome) world := by
  have same := state.sameWalk_settle id future outcome found
  have labelled : state.labels[id]? = some future.toFutureLabel := by simp [WalkState.labels, found]
  -- the copy that is made belongs to the tag of the future
  have made (tagged : future.tag ≠ "") : CopyOf (state.settle id future outcome) world future.tag := by
    obtain ⟨transport, answered⟩ := World.answer_of_poll published
    have sent := copied.aligned.answer_eq labelled
    simp only [answered, Option.map_some, Option.some.injEq] at sent
    constructor <;>
      simp [WalkState.settle, tagged, World.response, copied.owner labelled tagged, answered, sent]
  have kept {tag : String} (other : future.tag = "" ∨ tag ≠ future.tag) (copy : CopyOf state world tag) :
      CopyOf (state.settle id future outcome) world tag := by
    unfold WalkState.settle
    by_cases untagged : future.tag = ""
    · simp only [untagged, if_true]
      exact ⟨copy.response, copy.transport⟩
    · have apart := other.resolve_left untagged
      simp only [untagged, if_false]
      constructor
      · simpa [apart] using copy.response
      · simpa [apart] using copy.transport
  refine ⟨copied.aligned.of_sameWalk same, ?_, ?_, ?_, ?_⟩
  · intro tag other entry source stored settled
    rw [same.namedFutures] at source
    by_cases here : other = id
    · subst here
      obtain ⟨rfl, tagged⟩ := copied.label_tag source found
      exact made tagged
    · rw [WalkState.settle_futures, List.getElem?_set_ne (Ne.symm here)] at stored
      by_cases apart : tag = future.tag
      · obtain ⟨-, tagged⟩ := copied.label_tag source stored
        exact apart ▸ made (apart ▸ tagged)
      · exact kept (.inr apart) (copied.settled source stored settled)
  · intro tag source
    rw [same.namedFutures] at source
    refine kept ?_ (copied.unbound source)
    by_contra both
    obtain ⟨tagged, rfl⟩ := not_or.1 both |>.imp_right not_not.1
    simp [copied.owner labelled tagged] at source
  · intro other label at_ tagged
    rw [same.labels] at at_
    rw [same.namedFutures]
    exact copied.owner at_ tagged
  · intro tag other source
    rw [same.ruleIndex]
    exact copied.defined (same.namedFutures ▸ source)

theorem settles {settled : WalkState} (settles : Settles world state settled) :
    Copied query settled world := by
  induction settles with
  | refl => exact copied
  | step found _ published _ ih => exact ih (copied.settle found published)

theorem of_same (aligned : Aligned query other world) (ruleIndex : state.ruleIndex ≤ other.ruleIndex)
    (futures : other.futures = state.futures) (namedFutures : other.namedFutures = state.namedFutures)
    (namedResponses : other.namedResponses = state.namedResponses)
    (namedTransports : other.namedTransports = state.namedTransports) : Copied query other world := by
  have copyOf {tag : String} (copy : CopyOf state world tag) : CopyOf other world tag :=
    ⟨by rw [namedResponses, namedFutures, copy.response],
      by rw [namedTransports, namedFutures, copy.transport]⟩
  refine ⟨aligned, ?_, ?_, ?_, ?_⟩
  · rw [futures, namedFutures]
    exact fun source found settled => copyOf (copied.settled source found settled)
  · rw [namedFutures]
    exact fun source => copyOf (copied.unbound source)
  · rw [WalkState.labels, futures, namedFutures]
    exact copied.owner
  · intro tag future source
    exact evaluateTags_take_subset ruleIndex (copied.defined (namedFutures ▸ source))

theorem enters {entered : WalkState} (enters : Entered world rule state entered) :
    Copied query entered world := by
  have aligned := copied.aligned.enters enters
  cases enters with
  | unbound => exact copied
  | ordered _ _ settles => exact copied.settles settles
  | race _ _ settles => exact (copied.settles settles).of_same aligned (Nat.le_refl _) rfl rfl rfl rfl

theorem launch_copyOf {launch : Launch} (namedFutures : other.namedFutures tag = state.namedFutures tag)
    (namedResponses : other.namedResponses = state.namedResponses)
    (namedTransports : other.namedTransports = state.namedTransports) (copy : CopyOf state world tag) :
    CopyOf other (world.launch launch) tag := by
  have answer : (state.namedFutures tag).bind (world.launch launch).answer =
      (state.namedFutures tag).bind world.answer := by
    cases source : state.namedFutures tag with
    | none => rfl
    | some future =>
        have below := Aligned.lt_length (copied.aligned.named source).2
        exact (world.extends_launch launch).answer (copied.aligned.length_eq ▸ below)
  constructor
  · rw [namedResponses, namedFutures, World.response, answer]
    exact copy.response
  · rw [namedTransports, namedFutures, answer]
    exact copy.transport

end Copied

theorem launched {other : WalkState} {label : FutureLabel} {launch : Launch}
    (copied : Copied query state world) (aligned : Aligned query other (world.launch launch))
    (ruleIndex : state.ruleIndex ≤ other.ruleIndex)
    (futures : other.futures = state.futures ++ [⟨label, false⟩])
    (namedFutures : other.namedFutures = if label.tag = "" then state.namedFutures else
      Function.update state.namedFutures label.tag (some world.exchanges.length))
    (namedResponses : other.namedResponses = state.namedResponses)
    (namedTransports : other.namedTransports = state.namedTransports)
    (fresh : label.tag ≠ "" → state.namedFutures label.tag = none)
    (defines : label.tag ≠ "" → label.tag ∈ evaluateTags (query.rules.take other.ruleIndex)) :
    Copied query other (world.launch launch) := by
  have length : world.exchanges.length = state.futures.length := by
    rw [copied.aligned.length_eq, WalkState.labels, List.length_map]
  -- a tag stands for the new future or for what it stood for
  have cases_ (tag : String) : other.namedFutures tag = state.namedFutures tag ∨
      label.tag ≠ "" ∧ tag = label.tag ∧ other.namedFutures tag = some world.exchanges.length := by
    rw [namedFutures]
    by_cases untagged : label.tag = ""
    · exact .inl (by rw [if_pos untagged])
    · rw [if_neg untagged]
      by_cases same : tag = label.tag
      · exact .inr ⟨untagged, same, by rw [same, Function.update_self]⟩
      · exact .inl (Function.update_of_ne same _ _)
  refine ⟨aligned, ?_, ?_, ?_, ?_⟩
  · intro tag future entry source found settled
    rw [futures] at found
    rcases cases_ tag with before | ⟨_, _, new⟩
    · rw [before] at source
      have below := Aligned.lt_length (copied.aligned.named source).2
      rw [WalkState.labels, List.length_map] at below
      rw [List.getElem?_append_left below] at found
      exact copied.launch_copyOf before namedResponses namedTransports (copied.settled source found settled)
    · rw [new] at source
      cases source
      simp only [length, List.getElem?_concat_length, Option.some.injEq] at found
      simp [← found] at settled
  · intro tag source
    rcases cases_ tag with before | ⟨_, _, new⟩
    · exact copied.launch_copyOf before namedResponses namedTransports (copied.unbound (before ▸ source))
    · simp [new] at source
  · intro future found at_ tagged
    have labels : other.labels = state.labels ++ [label] := by simp [WalkState.labels, futures]
    rw [labels] at at_
    by_cases below : future < state.labels.length
    · rw [List.getElem?_append_left below] at at_
      have source := copied.owner at_ tagged
      rcases cases_ found.tag with before | ⟨_, same, _⟩
      · rw [before, source]
      · simp [same ▸ fresh (same ▸ tagged)] at source
    · rw [List.getElem?_append_right (Nat.le_of_not_lt below), List.getElem?_singleton] at at_
      obtain ⟨last, rfl⟩ := Option.ite_none_right_eq_some.1 at_ |>.imp_right Option.some.inj
      have position : future = world.exchanges.length := by
        rw [copied.aligned.length_eq]
        exact Nat.le_antisymm (Nat.sub_eq_zero_iff_le.1 last) (Nat.le_of_not_lt below)
      rw [namedFutures, if_neg tagged, Function.update_self, position]
  · intro tag future source
    rcases cases_ tag with before | ⟨tagged, same, _⟩
    · exact evaluateTags_take_subset ruleIndex (copied.defined (before ▸ source))
    · exact same ▸ defines tagged

section Copied

variable (copied : Copied query state world)
include copied

theorem undefined (distinct : tag ∉ evaluateTags (query.rules.take state.ruleIndex)) :
    state.namedFutures tag = none := by
  cases source : state.namedFutures tag with
  | none => rfl
  | some future => exact absurd (copied.defined source) distinct

theorem action {outcome : RuleOutcome}
    (admits : Admits (evaluateTags (query.rules.take state.ruleIndex)) rule)
    (found : query.rules[state.ruleIndex]? = some rule)
    (effect : ActionEffect query rule state world outcome after) :
    Copied query outcome.resumed after := by
  have aligned := copied.aligned.action found effect
  have next : state.ruleIndex ≤ state.ruleIndex + 1 := Nat.le_succ _
  cases effect with
  | noAction | routeUnresolved | rejectReply => exact copied.of_same aligned.advance next rfl rfl rfl rfl
  | options => exact copied.of_same aligned.advance next rfl rfl rfl rfl
  | evaluateMissing =>
      split at aligned
      · rw [if_pos ‹_›]
        exact copied.of_same aligned.advance next rfl rfl rfl rfl
      · rw [if_neg ‹_›]
        exact copied.of_same aligned.advance next rfl rfl rfl rfl
  | @evaluate _ tag _ _ transport action _ _ =>
      have defines (tagged : tag ≠ "") : evaluateTag rule.action = some tag := by
        rw [action, evaluateTag, if_neg tagged]
      have index : (RuleOutcome.next ((state.append tag false transport).bindFuture tag
          world.exchanges.length)).resumed.ruleIndex = state.ruleIndex + 1 :=
        congrArg (· + 1) (WalkState.bindFuture_ruleIndex _ _ _)
      refine @launched _ _ _ _ ⟨tag, false, transport⟩ _ copied aligned.advance (index ▸ next)
        ?_ ?_ ?_ ?_ ?_ ?_
      iterate 4
        · unfold WalkState.bindFuture
          split <;> rfl
      · exact fun tagged => copied.undefined (admits.distinct tag (defines tagged))
      · intro tagged
        rw [index]
        simp [evaluateTags, List.take_add_one, found, defines tagged]
  | speculate =>
      exact @launched _ _ _ _ ⟨"", true, _⟩ _ copied aligned (Nat.le_refl _) rfl rfl rfl rfl
        (absurd rfl) (absurd rfl)
  | _ => exact copied

theorem walkRule {outcome : RuleOutcome} (admissible : Admissible [] query.rules)
    (found : query.rules[state.ruleIndex]? = some rule)
    (effect : RuleEffect query clean rule state world outcome after) :
    Copied query outcome.resumed after := by
  have aligned := copied.aligned.walkRule found effect
  cases effect with
  | arm _ _ settles =>
      exact (copied.settles settles).of_same aligned.advance (Nat.le_succ _) rfl rfl rfl rfl
  | await _ _ settles => exact copied.settles settles
  | pass enters =>
      exact (copied.enters enters).of_same aligned.advance (Nat.le_succ _) rfl rfl rfl rfl
  | act enters _ _ effect =>
      rw [← enters.ruleIndex] at found
      exact (copied.enters enters).action (admissible.admits found) found effect

theorem disarm {remaining : List ArmedRule} (subset : remaining ⊆ state.armedRules) :
    Copied query (state.disarm remaining) world :=
  copied.of_same (copied.aligned.disarm subset) (Nat.le_refl _) rfl rfl rfl rfl

theorem woken : Copied query state { world with wake := false } :=
  ⟨copied.aligned.woken, fun source found settled => ⟨(copied.settled source found settled).response,
    (copied.settled source found settled).transport⟩, fun source => ⟨(copied.unbound source).response,
    (copied.unbound source).transport⟩, copied.owner, copied.defined⟩

end Copied

end Copied

end SideraCore.Dns.RuleWalk
