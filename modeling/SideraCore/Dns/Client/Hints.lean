import SideraCore.Dns.Client.Explained

/-!
Owns the address hints of the responses to HTTPS queries. The client removes the
hints that a strategy excludes before it stores a response, under a key that
does not name the strategy, and a cached response is returned with the hints it
was stored with.
-/

namespace SideraCore.Dns

open Concurrency Experimental

def SVCBKeyValue.isHint (value : SVCBKeyValue) : Bool :=
  value.key = svcbIPv4Hint || value.key = svcbIPv6Hint

/-- The address hints of a record. OPT records have none. -/
def RR.hints (record : RR) : List SVCBKeyValue :=
  if record.hdr.rrtype = typeOPT then []
  else
    match record.data with
    | .https _ _ value => value.filter SVCBKeyValue.isHint
    | .svcb _ _ value => value.filter SVCBKeyValue.isHint
    | _ => []

def Msg.hints (message : Msg) : List SVCBKeyValue := message.records.flatMap RR.hints

def TransportOutcome.hints : TransportOutcome → List SVCBKeyValue
  | .response message => message.hints
  | .rcodeError _ => []
  | .error => []

/-- All hints of the message lie in HTTPS records of its answer section. -/
structure Msg.HintsInAnswers (message : Msg) : Prop where
  answer : ∀ record ∈ message.answer, record.hints ≠ [] →
    ∃ priority target value, record.data = .https priority target value
  others : ∀ record ∈ message.ns ++ message.extra, record.hints = []

theorem RR.hints_setTTL (record : RR) (timeToLive : UInt32) :
    (record.setTTL timeToLive).hints = record.hints := by
  unfold RR.setTTL
  split
  · rfl
  · rename_i other
    simp [RR.hints, other]

theorem Msg.hints_mapRecords (message : Msg) (rewrite : RR → RR)
    (kept : ∀ record ∈ message.records, (rewrite record).hints = record.hints) :
    (message.mapRecords rewrite).hints = message.hints := by
  have mapped : (message.mapRecords rewrite).records = message.records.map rewrite := by
    simp [Msg.records, Msg.mapRecords]
  rw [Msg.hints, mapped, List.flatMap_map, Msg.hints]
  exact List.flatMap_congr kept

theorem hints_normalizeTTL (message : Msg) (timeToLive : UInt32) :
    (normalizeTTL message timeToLive).hints = message.hints :=
  message.hints_mapRecords _ fun record _ => record.hints_setTTL timeToLive

theorem Msg.hints_dropOPT (message : Msg) : message.dropOPT.hints = message.hints := by
  have dropped : (message.extra.filter fun record => record.hdr.rrtype ≠ typeOPT).flatMap RR.hints =
      message.extra.flatMap RR.hints := by
    induction message.extra with
    | nil => rfl
    | cons record rest ih =>
        by_cases opt : record.hdr.rrtype = typeOPT
        · simpa [opt, RR.hints] using ih
        · simpa [opt] using ih
  simp only [Msg.hints, Msg.records, Msg.dropOPT, List.flatMap_append, dropped]

theorem hints_fitEdns (request response : Msg) : (fitEdns request response).hints = response.hints := by
  have set (udpSize : UInt16) (isDo : Bool) :
      (response.dropOPT.setEdns0 udpSize isDo).hints = response.hints := by
    rw [← response.hints_dropOPT]
    simp [Msg.hints, Msg.records, Msg.setEdns0, RR.hints]
  unfold fitEdns
  split
  · rfl
  · split
    · exact response.hints_dropOPT
    · split
      · exact set _ _
      · rfl

variable {response : Msg} {strategy : DomainStrategy}

theorem Msg.HintsInAnswers.strip (inAnswers : response.HintsInAnswers) :
    (stripDNSPadding response).HintsInAnswers where
  answer := inAnswers.answer
  others := by
    intro record member
    rcases List.mem_append.1 member with ns | extra
    · exact inAnswers.others record (List.mem_append_left _ ns)
    · obtain ⟨original, inside, rfl⟩ := List.mem_map.1 extra
      have none := inAnswers.others original (List.mem_append_right _ inside)
      cases data : original.data <;> simp_all [RR.hints]

theorem filterHints_excludes {question : Question} {key : UInt16} (https : question.qtype = typeHTTPS)
    (excluded : strategy.filteredHint = some key) (inAnswers : response.HintsInAnswers) :
    ∀ hint ∈ (filterHints question response strategy).hints, hint.key ≠ key := by
  intro hint member
  simp only [filterHints, https, if_true, excluded, Msg.hints, Msg.records, List.flatMap_append,
    List.mem_append, List.mem_flatMap, List.mem_map] at member
  rcases member with (⟨_, ⟨record, inside, rfl⟩, found⟩ | ⟨record, inside, found⟩) |
    ⟨record, inside, found⟩
  · by_cases isHTTPS : ∃ priority target value, record.data = .https priority target value
    · obtain ⟨priority, target, value, data⟩ := isHTTPS
      simp only [RR.dropHint, data, RR.hints] at found
      split at found
      · simp at found
      · simp only [List.mem_filter, decide_eq_true_eq] at found
        exact found.1.2
    · have unchanged : record.dropHint key = record := by
        unfold RR.dropHint
        split
        · rename_i priority target value data
          exact absurd ⟨priority, target, value, data⟩ isHTTPS
        · rfl
      rw [unchanged] at found
      exact absurd (inAnswers.answer record inside (List.ne_nil_of_mem found)) isHTTPS
  · simp [inAnswers.others record (List.mem_append_left _ inside)] at found
  · simp [inAnswers.others record (List.mem_append_right _ inside)] at found

namespace Client

variable {Raw : Type} {client : Client Raw}

/-- The transports send hints in HTTPS records of the answer section only. -/
def HintsInAnswers (client : Client Raw) : Prop :=
  ∀ number transport message response,
    client.exchange number transport message = .response response → response.HintsInAnswers

variable {pool : ClientPool Raw} {query : Query} {response : Msg}

theorem Answers.hints {number : Nat} (outcome : client.Answers number query response) :
    response.hints = (client.exchange number query.transport query.message).hints ∧
      (client.HintsInAnswers → response.HintsInAnswers) := by
  unfold Answers at outcome
  cases exchanged : client.exchange number query.transport query.message with
  | response message =>
      rw [exchanged] at outcome
      rw [show response = stripDNSPadding message from outcome]
      refine ⟨?_, fun inAnswers => (inAnswers _ _ _ _ exchanged).strip⟩
      simp only [TransportOutcome.hints, Msg.hints, Msg.records, stripDNSPadding,
        List.flatMap_append, List.flatMap_map]
      congr 1
      refine List.flatMap_congr fun record _ => ?_
      cases data : record.data <;> simp [RR.hints, data]
  | rcodeError rcode =>
      rw [exchanged] at outcome
      rw [show response = fixedResponseStatus query.message rcode from outcome]
      refine ⟨?_, fun _ => ⟨by simp [fixedResponseStatus], by simp [fixedResponseStatus]⟩⟩
      rfl
  | error =>
      rw [exchanged] at outcome
      exact outcome.elim

theorem Shares.refl (key : DnsCacheKey) : client.Shares key key := by
  unfold Shares
  split <;> rfl

theorem Shares.qtype {first second : DnsCacheKey} (shares : client.Shares first second) :
    first.question.qtype = second.question.qtype := by
  unfold Shares at shares
  split at shares
  · exact congrArg SaveCacheKey.qType shares
  · rw [shares]

/-- Whatever was stored in the place of the call's query was filtered as the call
asks. -/
def FiltersAlike (client : Client Raw)
    (pool : ClientPool Raw) (call : Call) : Prop :=
  ∀ query, client.query call = some query → ∀ record ∈ pool.world.history,
    ∀ other, (pool.threads.map Thread.origin)[record.thread]? = some other →
      ∀ storing ∈ client.queries other, client.Shares storing.key query.key →
        storing.options.strategy.filteredHint = call.options.strategy.filteredHint

/-- A transport was asked in the run for a query of a thread in the same place, and
answered with these hints. -/
def SentHints (client : Client Raw) (pool : ClientPool Raw) (query : Query)
    (hints : List SVCBKeyValue) : Prop :=
  ∃ (thread : Nat) (job : ClientJob), (pool.threads.map Thread.origin)[thread]? = some job ∧
    ∃ storing ∈ client.queries job, client.Shares storing.key query.key ∧
      ∃ number : Nat, pool.world.exchanges[number]? = some (storing.transport, storing.message) ∧
        hints = (client.exchange number storing.transport storing.message).hints

/-- The hints are those of a transport's answer, without what the strategy of the query
excludes. -/
structure RespectsHints (client : Client Raw) (pool : ClientPool Raw) (query : Query)
    (response : Msg) : Prop where
  excluded : ∀ key, query.options.strategy.filteredHint = some key → ∀ hint ∈ response.hints, hint.key ≠ key
  complete : query.options.strategy.filteredHint = none → client.SentHints pool query response.hints

theorem respectsHints_of_applied {thread : Nat} {job : ClientJob} {storing : Query} {message : Msg}
    (origin : (pool.threads.map Thread.origin)[thread]? = some job)
    (member : storing ∈ client.queries job) (https : query.key.question.qtype = typeHTTPS) (shares : client.Shares storing.key query.key)
    (alike : storing.options.strategy.filteredHint = query.options.strategy.filteredHint)
    (inAnswers : query.options.strategy.filteredHint ≠ none → client.HintsInAnswers)
    (answered : client.Answered pool.world.exchanges storing response)
    (same : message.hints = (applyResponseOptions storing.key.question response storing.options).1.hints) :
    client.RespectsHints pool query message := by
  replace same := same.trans (hints_normalizeTTL _ _)
  obtain ⟨number, made, answers⟩ := answered
  obtain ⟨hints, inside⟩ := answers.hints
  refine ⟨fun key excluded => ?_, fun unfiltered => ?_⟩
  · rw [same]
    exact filterHints_excludes (shares.qtype.trans https) (alike.trans excluded)
      (inside (inAnswers (by simp [excluded])))
  · simp only [filterHints, alike.trans unfiltered, ite_self] at same
    exact ⟨thread, job, origin, storing, member, shares, number, made, same.trans hints⟩

/-- Every answer to an HTTPS query respects the query's strategy, if the stores in
its place were made under the same filter and the transports send hints only
where the client filters them. -/
theorem https_hints_respected (client : Client Raw) {start : Time}
    {pool : ClientPool Raw}
    (reachable : client.Reachable start pool) {self : Nat} {job : ClientJob} {exit : ClientExit}
    (finished : pool.threads[self]? = some ⟨job, .done exit⟩) {call : Call}
    (asks : job = .exchange call ∨ job = .exchangeAsync call) {query : Query}
    (asked : client.query call = some query) (https : query.key.question.qtype = typeHTTPS)
    (alike : client.FiltersAlike pool call)
    (inAnswers : call.options.strategy.filteredHint ≠ none → client.HintsInAnswers) :
    ∀ answer ∈ exit.answers,
      (call.options.strategy = .ipv4Only → ∀ hint ∈ answer.response.hints, hint.key ≠ svcbIPv6Hint) ∧
      (call.options.strategy = .ipv6Only → ∀ hint ∈ answer.response.hints, hint.key ≠ svcbIPv4Hint) ∧
      (call.options.strategy = .asIs → client.SentHints pool query answer.response.hints) := by
  intro answer returned
  have sameOptions : query.options = call.options := by
    obtain ⟨question, -, rfl⟩ := Option.map_eq_some_iff.1 asked
    rfl
  suffices respects : client.RespectsHints pool query answer.response by
    rw [← sameOptions]
    exact ⟨fun strategy => respects.excluded _ (by rw [strategy]; rfl),
      fun strategy => respects.excluded _ (by rw [strategy]; rfl),
      fun strategy => respects.complete (by rw [strategy]; rfl)⟩
  rw [← sameOptions] at inAnswers
  obtain ⟨other, called, explains⟩ := reachable.explains finished returned
  obtain rfl : other = call := by
    rcases asks with rfl | rfl <;> exact List.mem_singleton.1 called
  cases explains with
  | refused refused =>
      exfalso
      obtain ⟨question, first, rfl⟩ := Option.map_eq_some_iff.1 asked
      obtain ⟨rest, questions⟩ := List.head?_eq_some_iff.1 first
      have qtype : question.qtype = typeHTTPS := https
      simp [Call.Refused, questions, strategyRejects, qtype, typeHTTPS, typeA, typeAAAA] at refused
  | @exchanged again response askedAgain answered accepted =>
      cases asked.symm.trans askedAgain
      have origin : (pool.threads.map Thread.origin)[self]? = some job := by simp [finished]
      exact respectsHints_of_applied origin (mem_queries asked called) https (.refl _) rfl inAnswers answered (hints_fitEdns _ _)
  | @cached again record hit id askedAgain stored served stale =>
      cases asked.symm.trans askedAgain
      obtain ⟨storer, origin, storing, member, storedBy⟩ := reachable.recorded record stored
      obtain ⟨response, answered, -, -, applied⟩ := storedBy.origin
      have shares : client.Shares storing.key query.key := storedBy.key ▸ served.key
      have sameFilter := alike query asked record stored storer origin storing member shares
      refine respectsHints_of_applied origin member https shares (sameOptions ▸ sameFilter) inAnswers answered ?_
      rw [applied]
      show hit.loaded.response.hints = record.message.hints
      rcases served.response with same | ⟨timeToLive, same⟩
      · rw [same]
      · rw [same, hints_normalizeTTL]

def ipv4Options : DNSQueryOptions := { DNSQueryOptions.zero with strategy := .ipv4Only }

def sampleHints : RR :=
  ⟨⟨"example.com.", typeHTTPS, classINET, 60⟩,
    .https 1 "." [.ipv4Hint [[192, 0, 2, 1]], .ipv6Hint [List.replicate 16 1]]⟩

theorem answering_hintsInAnswers : (answering false [sampleHints]).HintsInAnswers := by
  rintro number transport message response ⟨⟩
  refine ⟨fun record member _ => ?_, by simp [fixedResponseStatus]⟩
  rw [List.mem_singleton.1 member]
  exact ⟨_, _, _, rfl⟩

theorem filtersAlike_of_origins {call : Call}
    (origins : pool.threads.map Thread.origin = [.exchange call, .exchange call]) :
    client.FiltersAlike pool call := by
  intro query _ record _ other origin storing member _
  rw [origins] at origin
  obtain rfl : other = .exchange call := by simpa using List.mem_of_getElem? origin
  obtain ⟨called, inside, asked⟩ := List.mem_filterMap.1 member
  obtain rfl := List.mem_singleton.1 inside
  obtain ⟨question, -, rfl⟩ := Option.map_eq_some_iff.1 asked
  rfl

/-- A second query with the strategy of the first is served from the cache: without
IPv6 hints under IPv4 only, with all of them under no strategy. -/
theorem https_hints_respected_twice :
    (∃ pool exit, (answering false [sampleHints]).Reachable 0 pool ∧
      pool.threads[1]? = some ⟨.exchange (sampleCall typeHTTPS ipv4Options none), .done exit⟩ ∧
        exit.answers.map Answer.source = [.cached false false (some 0)] ∧
          ∀ answer ∈ exit.answers, ∀ hint ∈ answer.response.hints, hint.key ≠ svcbIPv6Hint) ∧
    ∃ pool exit query, (answering false [sampleHints]).query (sampleCall typeHTTPS .zero none) = some query ∧
      (answering false [sampleHints]).Reachable 0 pool ∧
      pool.threads[1]? = some ⟨.exchange (sampleCall typeHTTPS .zero none), .done exit⟩ ∧
        exit.answers.map Answer.source = [.cached false false (some 0)] ∧
          ∀ answer ∈ exit.answers,
            (answering false [sampleHints]).SentHints pool query answer.response.hints := by
  constructor
  · obtain ⟨pool, reachable, both⟩ := (answering false [sampleHints]).exists_reachable 0
      (exchangeTwice (sampleCall typeHTTPS ipv4Options none) (sampleCall typeHTTPS ipv4Options none))
      (fun _ => exchangeTwice_isCall) (fun it => (it.threads[1]?, it.threads.map Thread.origin)) rfl
    obtain ⟨finished, origins⟩ := Prod.mk.inj both
    refine ⟨pool, _, reachable, finished, rfl, fun answer returned => ?_⟩
    exact (https_hints_respected _ reachable finished (.inl rfl) rfl rfl
      (filtersAlike_of_origins origins) (fun _ => answering_hintsInAnswers) answer
      returned).1 rfl
  · obtain ⟨pool, reachable, both⟩ := (answering false [sampleHints]).exists_reachable 0
      (exchangeTwice (sampleCall typeHTTPS .zero none) (sampleCall typeHTTPS .zero none))
      (fun _ => exchangeTwice_isCall) (fun it => (it.threads[1]?, it.threads.map Thread.origin)) rfl
    obtain ⟨finished, origins⟩ := Prod.mk.inj both
    refine ⟨pool, _, _, rfl, reachable, finished, rfl, fun answer returned => ?_⟩
    exact (https_hints_respected _ reachable finished (.inl rfl) rfl rfl
      (filtersAlike_of_origins origins) (fun filters => absurd rfl filters) answer
      returned).2.2 rfl

/-- A response stored by a query without a strategy is served, with its IPv6 hints,
to a query that asks for IPv4 only. -/
theorem cached_hints_unfiltered :
    ∃ pool exit answer, (answering false [sampleHints]).Reachable 0 pool ∧
      pool.threads[1]? =
          some ⟨.exchange (sampleCall typeHTTPS ipv4Options none),
            .done exit⟩ ∧
        answer ∈ exit.answers ∧ ∃ hint ∈ answer.response.hints, hint.key = svcbIPv6Hint := by
  obtain ⟨pool, reachable, finished⟩ := (answering false [sampleHints]).exists_reachable 0
    (exchangeTwice (sampleCall typeHTTPS .zero none) (sampleCall typeHTTPS ipv4Options none))
    (fun _ => exchangeTwice_isCall) (fun it => it.threads[1]?) rfl
  exact ⟨pool, _, _, reachable, finished, List.mem_singleton.2 rfl, .ipv6Hint [List.replicate 16 1], by decide, rfl⟩

end Client

end SideraCore.Dns
