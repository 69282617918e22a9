import SideraCore.Concurrency.Logic
import SideraCore.Dns.RuleWalk.Model

/-!
Owns the worlds completions lead to, and the program rules for the actions of the
walker and for its reads of futures.

A completion never takes back what it has published. So what a read-only stretch has
found out can be stated at its end: which results are there (`poll`), and which futures
still have a signal ahead of the walker (`Unseen`).
-/

namespace SideraCore.Dns.RuleWalk

open Rule Concurrency

/-! ### What completions keep -/

def World.launches (world : World) : List Launch := world.exchanges.map Exchange.toLaunch

def Completed (world : World) (future : FutureId) : Prop :=
  ∃ outcome, world.poll future = some outcome

/-- The completion of the future has not signalled yet, or a signal is waiting. -/
def Unseen (world : World) (future : FutureId) : Prop :=
  world.phase future ≠ some .signalled ∨ world.wake = true

def Quiet (world : World) : Prop :=
  world.wake = false ∧ ∀ future, world.phase future ≠ some .closed

/-- What holds between a world and any later one that completions lead to. -/
structure Follows (before after : World) : Prop where
  launches : after.launches = before.launches
  poll : ∀ {future outcome}, before.poll future = some outcome → after.poll future = some outcome
  unseen : ∀ {future}, Unseen before future → Unseen after future
  ctxDone : before.ctxDone = true → after.ctxDone = true

theorem Follows.refl (world : World) : Follows world world := ⟨rfl, id, id, id⟩

theorem Follows.trans {first second third : World} (early : Follows first second)
    (late : Follows second third) : Follows first third where
  launches := late.launches.trans early.launches
  poll := fun found => late.poll (early.poll found)
  unseen := fun ahead => late.unseen (early.unseen ahead)
  ctxDone := fun ended => late.ctxDone (early.ctxDone ended)

/-- What holds between a world and one that completions and launches lead to. -/
structure Extends (before after : World) : Prop where
  launches : before.launches <+: after.launches
  poll : ∀ {future outcome}, before.poll future = some outcome → after.poll future = some outcome

variable {before after : World} {future : FutureId}

theorem Follows.extends (follows : Follows before after) : Extends before after :=
  ⟨follows.launches ▸ List.prefix_rfl, follows.poll⟩

theorem Extends.completed (further : Extends before after) (completed : Completed before future) :
    Completed after future := by
  obtain ⟨outcome, found⟩ := completed
  exact ⟨outcome, further.poll found⟩

variable {world : World} {outcome : ExchangeOutcome}

theorem World.poll_eq_some_iff :
    world.poll future = some outcome ↔
      ∃ exchange, world.exchanges[future]? = some exchange ∧ exchange.phase ≠ .running ∧
        exchange.outcome = outcome := by
  unfold World.poll
  cases found : world.exchanges[future]? with
  | none => simp
  | some exchange => by_cases running : exchange.phase = .running <;> simp [running]

theorem Follows.completed (follows : Follows before after) (completed : Completed before future) :
    Completed after future :=
  follows.extends.completed completed

theorem World.launch_launches (world : World) (launch : Launch) :
    (world.launch launch).launches = world.launches ++ [launch] := by
  simp [World.launches, World.launch]

theorem World.extends_launch (world : World) (launch : Launch) :
    Extends world (world.launch launch) := by
  refine ⟨world.launch_launches launch ▸ List.prefix_append _ _, ?_⟩
  intro future outcome published
  obtain ⟨exchange, found, notRunning, result⟩ := poll_eq_some_iff.1 published
  refine poll_eq_some_iff.2 ⟨exchange, ?_, notRunning, result⟩
  have below := (List.getElem?_eq_some_iff.1 found).1
  simp only [World.launch]
  rw [List.getElem?_append_left below, found]

theorem unseen_of_poll_eq_none (missing : world.poll future = none) :
    Unseen world future := by
  refine .inl fun signalled => ?_
  simp only [World.phase, Option.map_eq_some_iff] at signalled
  obtain ⟨exchange, found, phase⟩ := signalled
  have published : world.poll future = some exchange.outcome :=
    World.poll_eq_some_iff.2 ⟨exchange, found, by simp [phase], rfl⟩
  simp [missing] at published

/-- With no signal waiting or under way, an unseen future is incomplete. -/
theorem Quiet.not_completed (quiet : Quiet world) (ahead : Unseen world future) :
    ¬ Completed world future := by
  rintro ⟨outcome, published⟩
  obtain ⟨exchange, found, notRunning, -⟩ := World.poll_eq_some_iff.1 published
  have phase : world.phase future = some exchange.phase := by simp [World.phase, found]
  cases reached : exchange.phase with
  | running => exact notRunning reached
  | closed => exact quiet.2 future (phase.trans (congrArg some reached))
  | signalled =>
      rcases ahead with unsignalled | waiting
      · exact unsignalled (phase.trans (congrArg some reached))
      · simp [quiet.1] at waiting

/-! ### One move of the environment -/

theorem World.setPhase_getElem? (world : World) (target : FutureId) (phase : Phase) (future : FutureId) :
    (world.setPhase target phase).exchanges[future]? =
      if target = future then
        (world.exchanges[future]?).map fun exchange => { exchange with phase := phase }
      else world.exchanges[future]? := by
  simp only [World.setPhase, List.getElem?_modify]
  split <;> simp

theorem World.setPhase_launches (world : World) (target : FutureId) (phase : Phase) :
    (world.setPhase target phase).launches = world.launches := by
  apply List.ext_getElem?
  intro index
  simp only [World.launches, List.getElem?_map, setPhase_getElem?]
  split <;> simp [Function.comp_def]

variable {phase : Phase} {query : Query}

theorem World.setPhase_poll {target : FutureId} (moved : phase ≠ .running)
    (published : world.poll future = some outcome) :
    (world.setPhase target phase).poll future = some outcome := by
  obtain ⟨exchange, found, notRunning, result⟩ := poll_eq_some_iff.1 published
  rw [poll_eq_some_iff, setPhase_getElem?]
  split
  · exact ⟨{ exchange with phase := phase }, by simp [found], moved, result⟩
  · exact ⟨exchange, found, notRunning, result⟩

theorem World.setPhase_phase_ne (world : World) (target : FutureId) (unsignalled : phase ≠ .signalled)
    (before : world.phase future ≠ some .signalled) :
    (world.setPhase target phase).phase future ≠ some .signalled := by
  unfold World.phase at before ⊢
  rw [setPhase_getElem?]
  split
  · cases world.exchanges[future]? <;> simp [unsignalled]
  · exact before

theorem follows_of_interfere {event : WalkEvent} (moved : before.interfere event = some after) :
    Follows before after := by
  cases event with
  | close target =>
      obtain ⟨_, ⟨⟩⟩ := Option.ite_none_right_eq_some.1 moved
      refine ⟨before.setPhase_launches .., before.setPhase_poll (by decide), ?_, id⟩
      rintro future (unsignalled | waiting)
      · exact .inl (before.setPhase_phase_ne target (by decide) unsignalled)
      · exact .inr waiting
  | signal target =>
      obtain ⟨_, ⟨⟩⟩ := Option.ite_none_right_eq_some.1 moved
      exact ⟨before.setPhase_launches .., before.setPhase_poll (by decide), fun _ => .inr rfl, id⟩
  | cancel =>
      obtain ⟨_, ⟨⟩⟩ := Option.ite_none_left_eq_some.1 moved
      exact ⟨rfl, id, id, fun _ => rfl⟩

theorem follows_of_interferes (moves : query.system.Interferes before after) :
    Follows before after := by
  induction moves with
  | refl => exact .refl before
  | tail _ move ih =>
      obtain ⟨event, moved⟩ := move
      exact ih.trans (follows_of_interfere moved)

theorem stable_of_follows {property : World → Prop}
    (carries : ∀ before after, Follows before after → property before → property after) :
    query.system.Stable property := by
  rintro before after ⟨event, moved⟩
  exact carries before after (follows_of_interfere moved)

/-! ### Rules for the actions -/

def Shows : WalkAction → Prop
  | .poll _ => False
  | .launch _ => False
  | _ => True

/-- A requirement on the actions that show the walker's variables. -/
def whereShown (required : Requirement walkSignature World) : Requirement walkSignature World :=
  fun action world => Shows action → required action world

/-- On matching a rule: the walker's variables, on whose behalf, the rule and its
metadata. -/
abbrev MatchCondition := WalkState → CommitSite → DNSRule → InboundContext → Prop

/-- The runs in which every rule is judged under the given condition. -/
def judging (clean : MatchCondition) :
    Condition walkSignature ResumeLoop World where
  Answers := fun _ action _ =>
    match action with
    | .judge state site rule metadata => clean state site rule metadata
    | _ => True
  Reenters := fun _ _ => True

theorem judging_true :
    judging (fun _ _ _ _ => True) = Condition.always walkSignature ResumeLoop World := by
  unfold judging Condition.always
  congr
  funext world action answer
  cases action <;> rfl

section Rules

variable {query : Query} {clean : MatchCondition}
  {required : Requirement walkSignature World} {α : Type} {post : α → World → Prop} {world : World}

abbrev Query.wp (query : Query) (clean : MatchCondition)
    (required : Requirement walkSignature World) {α : Type} (process : Walk α)
    (post : α → World → Prop) (world : World) : Prop :=
  Concurrency.wp query.system (judging clean).Answers (whereShown required) process post world

theorem wp_poll {future : FutureId} {next : Option ExchangeOutcome → Walk α}
    (continues : ∀ during, query.system.Interferes world during →
      query.wp clean required (next (during.poll future)) post during) :
    query.wp clean required (poll future >>= next) post world := by
  intro during moves
  refine ⟨False.elim, ?_⟩
  intro answer after outcome _
  obtain ⟨rfl, rfl⟩ := sole_outcome outcome
  exact continues _ moves

theorem wp_launch {launch : Launch} {next : FutureId → Walk α}
    (continues : ∀ during, query.system.Interferes world during →
      query.wp clean required (next during.exchanges.length) post (during.launch launch)) :
    query.wp clean required (perform (.launch launch) >>= next) post world := by
  intro during moves
  refine ⟨False.elim, ?_⟩
  intro answer after outcome _
  obtain ⟨rfl, rfl⟩ := sole_outcome outcome
  exact continues _ moves

variable {state : WalkState}

theorem wp_judge {site : CommitSite} {rule : DNSRule} {anonymous : Option Msg} {next : Bool → Walk α}
    (judges : ∀ during metadata, query.system.Interferes world during →
      required (.judge state site rule metadata) during)
    (continues : ∀ during, query.system.Interferes world during →
      clean state site rule (judgedMetadata query anonymous state.namedResponses) →
      query.wp clean required
        (next (rule.isMatch (judgedMetadata query anonymous state.namedResponses))) post during) :
    query.wp clean required (judge query state site rule anonymous >>= next) post world := by
  intro during moves
  refine ⟨fun _ => judges during _ moves, ?_⟩
  intro answer after outcome allows
  obtain ⟨rfl, rfl⟩ := sole_outcome outcome
  exact continues _ moves allows

/-- What the shown variables and the end of a process say of the launches holds in
between, if it holds of fewer launches too. -/
theorem wp_launches {process : Walk α} (property : List Launch → Prop)
    (shrinks : ∀ launches launch, property (launches ++ [launch]) → property launches)
    (shown : ∀ action during, Shows action → required action during → property during.launches)
    (ends : ∀ value after, post value after → property after.launches)
    (secured : query.wp clean required process post world) : property world.launches := by
  induction process generalizing world with
  | done value => exact ends value world (secured world .refl)
  | act action next ih =>
      obtain ⟨requirement, continues⟩ := secured world .refl
      have here (shows : Shows action) := shown action world shows (requirement shows)
      cases action with
      | poll future =>
          exact ih _ (continues _ world (List.mem_singleton.2 rfl) trivial)
      | launch launch =>
          apply shrinks world.launches launch
          have later := ih _ (continues _ _ (List.mem_singleton.2 rfl) trivial)
          rwa [World.launch_launches] at later
      | judge | recvWake | awaitDone | exchange => exact here trivial

def FirstUnresolved (world : World) (futures : List FutureId) : Option FutureId → Prop
  | none => ∀ future ∈ futures, Completed world future
  | some future => future ∈ futures ∧ world.poll future = none

theorem wp_firstUnresolved {futures : List FutureId} {next : Option FutureId → Walk α}
    (continues : ∀ during found, query.system.Interferes world during →
      FirstUnresolved during futures found → query.wp clean required (next found) post during) :
    query.wp clean required (firstUnresolved futures >>= next) post world := by
  induction futures generalizing world with
  | nil => exact continues world none .refl (by simp [FirstUnresolved])
  | cons future rest ih =>
      unfold firstUnresolved
      apply wp_poll
      intro during moves
      cases published : during.poll future with
      | none => exact continues during (some future) moves ⟨List.mem_cons_self, published⟩
      | some outcome =>
          apply ih
          intro later found further unresolved
          refine continues later found (moves.trans further) ?_
          cases found with
          | none =>
              have completed : Completed later future :=
                ⟨outcome, (follows_of_interferes further).poll published⟩
              exact List.forall_mem_cons.2 ⟨completed, unresolved⟩
          | some pending => exact ⟨List.mem_cons_of_mem _ unresolved.1, unresolved.2⟩

/-- The pending futures are the unresolved ones among those asked about. -/
structure PendingAmong (world : World) (futures pending : List FutureId) : Prop where
  unseen : ∀ future ∈ pending, future ∈ futures ∧ Unseen world future
  completed : ∀ future ∈ futures, future ∈ pending ∨ Completed world future

theorem wp_unresolvedAmong {futures : List FutureId} {next : List FutureId → Walk α}
    (continues : ∀ during pending, query.system.Interferes world during →
      PendingAmong during futures pending → query.wp clean required (next pending) post during) :
    query.wp clean required (unresolvedAmong futures >>= next) post world := by
  induction futures generalizing world next with
  | nil => exact continues world [] .refl ⟨by simp, by simp⟩
  | cons future rest ih =>
      unfold unresolvedAmong
      apply wp_poll
      intro during moves
      cases published : during.poll future with
      | none =>
          change query.wp clean required
            ((unresolvedAmong rest >>= fun others => Process.done (future :: others)) >>= next) post during
          rw [Process.bind_assoc]
          apply ih
          intro later pending further among
          refine continues later (future :: pending) (moves.trans further) ⟨?_, ?_⟩
          · have ahead : Unseen later future :=
              (follows_of_interferes further).unseen (unseen_of_poll_eq_none published)
            exact List.forall_mem_cons.2 ⟨⟨List.mem_cons_self, ahead⟩, fun other member =>
              ⟨List.mem_cons_of_mem _ (among.unseen other member).1, (among.unseen other member).2⟩⟩
          · exact List.forall_mem_cons.2 ⟨.inl List.mem_cons_self, fun other member =>
              (among.completed other member).imp_left (List.mem_cons_of_mem _)⟩
      | some outcome =>
          apply ih
          intro later pending further among
          refine continues later pending (moves.trans further) ⟨?_, ?_⟩
          · exact fun other member =>
              ⟨List.mem_cons_of_mem _ (among.unseen other member).1, (among.unseen other member).2⟩
          · have completed : Completed later future :=
              ⟨outcome, (follows_of_interferes further).poll published⟩
            exact List.forall_mem_cons.2 ⟨.inr completed, among.completed⟩

def World.view (world : World) (source : Option FutureId) : Option Msg :=
  (source.bind world.poll).bind responseOf

variable {source : Option FutureId} {next : WalkState → Walk α}

theorem Follows.view {before after : World} (follows : Follows before after)
    (completed : ∀ future, source = some future → Completed before future) :
    after.view source = before.view source := by
  cases source with
  | none => rfl
  | some future =>
      obtain ⟨outcome, published⟩ := completed future rfl
      simp [World.view, published, follows.poll published]

theorem wp_viewOptional {next : Option Msg → Walk α}
    (continues : ∀ during, query.system.Interferes world during →
      query.wp clean required (next (during.view source)) post during) :
    query.wp clean required (viewOptional source >>= next) post world := by
  cases source with
  | none => exact continues world .refl
  | some future =>
      unfold viewOptional view
      apply wp_poll
      intro during moves
      exact continues during moves

inductive Settles (world : World) : WalkState → WalkState → Prop
  | refl (state : WalkState) : Settles world state state
  | step {state after : WalkState} {id : FutureId} {future : Future} {outcome : ExchangeOutcome}
      (found : state.futures[id]? = some future) (fresh : future.settled = false)
      (published : world.poll id = some outcome)
      (rest : Settles world (state.settle id future outcome) after) : Settles world state after

theorem Settles.follows {before after : World} (follows : Follows before after) {settled : WalkState}
    (settles : Settles before state settled) : Settles after state settled := by
  induction settles with
  | refl state => exact .refl state
  | step found fresh published _ ih =>
      exact .step found fresh (follows.poll published) ih

@[simp] theorem WalkState.settle_futures (state : WalkState) (id : FutureId) (future : Future)
    (outcome : ExchangeOutcome) :
    (state.settle id future outcome).futures = state.futures.set id { future with settled := true } := by
  unfold WalkState.settle
  split <;> rfl

theorem wp_settleFrom {id : FutureId} {futures : List Future}
    (remaining : state.futures.drop id = futures)
    (continues : ∀ during settled, query.system.Interferes world during →
      Settles during state settled → query.wp clean required (next settled) post during) :
    query.wp clean required (settleFrom id futures state >>= next) post world := by
  induction futures generalizing world id state with
  | nil => exact continues world state .refl (.refl state)
  | cons future rest ih =>
      have found : state.futures[id]? = some future := by
        rw [← List.head?_drop, remaining, List.head?_cons]
      have later : state.futures.drop (id + 1) = rest := by
        rw [← List.tail_drop, remaining, List.tail_cons]
      unfold settleFrom
      by_cases settled : future.settled
      · rw [if_pos settled]
        exact ih later continues
      · rw [if_neg settled, Process.bind_assoc]
        apply wp_poll
        intro during moves
        cases published : during.poll id with
        | none =>
            apply ih later
            exact fun after final further => continues after final (moves.trans further)
        | some outcome =>
            have untouched : (state.settle id future outcome).futures.drop (id + 1) = rest := by
              rw [WalkState.settle_futures, List.drop_set_of_lt (Nat.lt_succ_self id), later]
            apply ih untouched
            intro after final further settles
            have still : after.poll id = some outcome := (follows_of_interferes further).poll published
            exact continues after final (moves.trans further)
              (.step found (Bool.eq_false_iff.2 settled) still settles)

theorem wp_settleDNSFutures (continues : ∀ during settled, query.system.Interferes world during →
      Settles during state settled → query.wp clean required (next settled) post during) :
    query.wp clean required (settleDNSFutures state >>= next) post world :=
  wp_settleFrom rfl continues

end Rules

end SideraCore.Dns.RuleWalk
