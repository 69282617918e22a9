import SideraCore.Dns.Client.Explained

/-!
Owns what a response checker sees of the responses its call returns. The client
checks a response once, when a transport has answered: synthetic and cached
responses are returned unchecked, and a checked one is rewritten afterwards.
-/

namespace SideraCore.Dns

open Concurrency Experimental ClientJob

def ClientJob.responseChecker : ClientJob → Option ResponseChecker
  | .exchange call => call.responseChecker
  | .exchangeAsync call => call.responseChecker
  | .lookup call => call.responseChecker
  | .task _ _ started => started.responseChecker
  | .refresh query => query.responseChecker

def ClientJob.Refused : ClientJob → Prop
  | .exchange call => call.Refused
  | .exchangeAsync call => call.Refused
  | .lookup _ => False
  | .task _ _ started => started.call.Refused
  | .refresh _ => False

namespace LookupCall

theorem lookupOptions_strategy (call : LookupCall) : call.lookupOptions.strategy = call.strategy := by
  unfold lookupOptions strategy
  split <;> rfl

/-- A lookup asks for no type of address that its strategy excludes. -/
theorem not_refused (call : LookupCall) {asked : Call} (member : asked ∈ (lookup call).calls) :
    ¬ asked.Refused := by
  have refused_iff (qType : UInt16) : (call.task qType).call.Refused ↔
      strategyRejects ⟨(call.task qType).name, qType, classINET⟩ call.strategy = true := by
    rw [← call.lookupOptions_strategy]
    rfl
  cases strategy : call.strategy <;> simp only [calls, strategy, List.mem_cons,
    List.not_mem_nil, or_false] at member
  case ipv4Only | ipv6Only =>
    subst member
    rw [refused_iff, strategy]
    simp [strategyRejects, typeA, typeAAAA]
  all_goals
    rcases member with rfl | rfl <;> rw [refused_iff, strategy] <;> simp [strategyRejects]

end LookupCall

namespace Client

variable {Raw : Type} {client : Client Raw} {job : ClientJob} {call : Call} {query : Query}

theorem calls_responseChecker (member : call ∈ job.calls) :
    call.responseChecker = job.responseChecker := by
  cases job with
  | lookup lookup =>
      simp only [calls] at member
      split at member <;> simp only [List.mem_cons, List.not_mem_nil, or_false] at member
      · exact member ▸ rfl
      · exact member ▸ rfl
      · rcases member with rfl | rfl <;> rfl
  | refresh query => simp [calls] at member
  | _ =>
      simp only [calls, List.mem_singleton] at member
      exact member ▸ rfl

theorem query_responseChecker (asked : client.query call = some query) :
    query.responseChecker = call.responseChecker := by
  obtain ⟨question, -, rfl⟩ := Option.map_eq_some_iff.1 asked
  rfl

theorem queries_responseChecker (member : query ∈ client.queries job) :
    query.responseChecker = job.responseChecker := by
  cases job with
  | refresh other =>
      rw [List.mem_singleton.1 member]
      rfl
  | _ =>
      obtain ⟨call, called, asked⟩ := List.mem_filterMap.1 member
      exact (query_responseChecker asked).trans (calls_responseChecker called)

/-- The thread of a job has stored in the place of a query of another. -/
def StoredFor (client : Client Raw) (pool : ClientPool Raw) (job other : ClientJob) : Prop :=
  ∃ record ∈ pool.world.history, ∃ query ∈ client.queries job, client.Shares record.key query.key ∧
    (pool.threads.map Thread.origin)[record.thread]? = some other

/-- Whatever was stored in the place of a query of the job passed a checker that accepts
nothing this one rejects. -/
def Stricter (client : Client Raw)
    (pool : ClientPool Raw) (job : ClientJob)
    (check : ResponseChecker) : Prop :=
  ∀ other, client.StoredFor pool job other → ∀ message, cacheableRcode message = true →
    rejects other.responseChecker message = false → check message = true

/-- The verdict survives what the client rewrites. Hints are filtered for the queries of
the job and for those that stored in their place. -/
structure Indifferent (client : Client Raw) (pool : ClientPool Raw) (job : ClientJob)
    (check : ResponseChecker) : Prop where
  id : ∀ message id, check message = true → check { message with id := id } = true
  timeToLive : ∀ message timeToLive, check message = true → check (normalizeTTL message timeToLive) = true
  hints : ∀ other, other = job ∨ client.StoredFor pool job other → ∀ query ∈ client.queries other,
    ∀ message, check message = true →
      check (filterHints query.key.question message query.options.strategy) = true
  edns : ∀ request message, check message = true → check (fitEdns request message) = true

theorem Indifferent.applied {pool : ClientPool Raw} {other : ClientJob} {check : ResponseChecker}
    (indifferent : client.Indifferent pool job check) (asks : other = job ∨ client.StoredFor pool job other)
    (member : query ∈ client.queries other) {message : Msg} (accepts : check message = true) :
    check (applyResponseOptions query.key.question message query.options).1 = true :=
  indifferent.timeToLive _ _ (indifferent.hints other asks query member message accepts)

/-- A checker accepts the answers to a query, if it survives the rewriting and
every store in the query's place was checked at least as strictly. -/
theorem answers_checked (client : Client Raw) {start : Time}
    {pool : ClientPool Raw}
    (reachable : client.Reachable start pool) {self : Nat} {job : ClientJob} {exit : ClientExit}
    (finished : pool.threads[self]? = some ⟨job, .done exit⟩) {check : ResponseChecker}
    (given : job.responseChecker = some check) (asks : ¬ job.Refused)
    (indifferent : client.Indifferent pool job check) (stricter : client.Stricter pool job check) :
    ∀ answer ∈ exit.answers, check answer.response = true := by
  intro answer returned
  obtain ⟨call, called, explains⟩ := reachable.explains finished returned
  cases explains with
  | refused refused =>
      exfalso
      cases job with
      | lookup lookup => exact lookup.not_refused called refused
      | refresh query => simp [calls] at called
      | _ =>
          rw [List.mem_singleton.1 called] at refused
          exact asks refused
  | @exchanged query response asked answered accepted =>
      have sameChecker : query.responseChecker = some check :=
        (query_responseChecker asked).trans ((calls_responseChecker called).trans given)
      have accepts : check response = true := by
        rw [sameChecker] at accepted
        simp only [rejects] at accepted
        split at accepted
        · simp at accepted
        · simpa using accepted
      exact indifferent.edns _ _
        (indifferent.id _ _ (indifferent.applied (.inl rfl) (mem_queries asked called) accepts))
  | @cached query record hit id asked stored served stale =>
      obtain ⟨other, origin, storing, member, storedBy⟩ := reachable.recorded record stored
      obtain ⟨response, -, accepted, cacheable, applied⟩ := storedBy.origin
      have storedFor : client.StoredFor pool job other :=
        ⟨record, stored, query, mem_queries asked called, served.key, origin⟩
      have accepts : check response = true :=
        stricter other storedFor response cacheable (queries_responseChecker member ▸ accepted)
      have acceptsStored : check record.message = true := by
        have rewritten := indifferent.applied (.inr storedFor) member accepts
        rwa [applied] at rewritten
      refine indifferent.id _ _ ?_
      rcases served.response with same | ⟨timeToLive, same⟩
      · rw [same]
        exact acceptsStored
      · rw [same]
        exact indifferent.timeToLive _ _ acceptsStored

def hasAnswer : ResponseChecker := fun response => !response.answer.isEmpty

theorem hasAnswer_indifferent (pool : ClientPool Raw) : client.Indifferent pool job hasAnswer where
  id := fun _ _ accepts => accepts
  timeToLive := fun message timeToLive accepts => by
    simpa [hasAnswer, normalizeTTL, Msg.mapRecords] using accepts
  hints := fun _ _ _ _ message accepts => by
    unfold filterHints
    split
    · exact accepts
    · simpa [hasAnswer] using accepts
  edns := fun request message accepts => by
    unfold fitEdns
    split
    · exact accepts
    · split
      · exact accepts
      · split
        · exact accepts
        · exact accepts

/-- A second call with the same checker is served what the first has stored. -/
theorem answers_checked_twice :
    ∃ pool exit, (answering false [sampleAddress]).Reachable 0 pool ∧
      pool.threads[1]? = some ⟨.exchange (sampleCall typeA .zero (some hasAnswer)), .done exit⟩ ∧
        exit.answers.map Answer.source = [.cached false false (some 0)] ∧
          ∀ answer ∈ exit.answers, hasAnswer answer.response = true := by
  obtain ⟨pool, reachable, both⟩ := (answering false [sampleAddress]).exists_reachable 0
    (exchangeTwice (sampleCall typeA .zero (some hasAnswer)) (sampleCall typeA .zero (some hasAnswer)))
    (fun _ => exchangeTwice_isCall) (fun it => (it.threads[1]?, it.threads.map Thread.origin)) rfl
  obtain ⟨finished, origins⟩ := Prod.mk.inj both
  refine ⟨pool, _, reachable, finished, rfl, ?_⟩
  refine answers_checked _ reachable finished rfl Bool.false_ne_true (hasAnswer_indifferent pool) ?_
  rintro other ⟨record, -, query, -, -, origin⟩ message cacheable accepted
  have same : other = .exchange (sampleCall typeA .zero (some hasAnswer)) := by
    rw [origins] at origin
    exact (List.mem_of_getElem? origin |> List.mem_cons.1).elim id List.mem_singleton.1
  subst same
  simpa [responseChecker, sampleCall, rejects, cacheable] using accepted

/-- A response that a call without a checker has stored is served to a call whose
checker rejects it. -/
theorem cached_answer_unchecked :
    ∃ pool exit answer, (answering false [sampleAddress]).Reachable 0 pool ∧
      pool.threads[1]? =
          some ⟨.exchange (sampleCall typeA .zero (some fun response => !hasAnswer response)), .done exit⟩ ∧
        answer ∈ exit.answers ∧ (!hasAnswer answer.response) = false := by
  obtain ⟨pool, reachable, finished⟩ := (answering false [sampleAddress]).exists_reachable 0
    (exchangeTwice (sampleCall typeA .zero none)
      (sampleCall typeA .zero (some fun response => !hasAnswer response)))
    (fun _ => exchangeTwice_isCall) (fun it => it.threads[1]?) rfl
  exact ⟨pool, _, _, reachable, finished, List.mem_singleton.2 rfl, rfl⟩

end Client

end SideraCore.Dns
