import SideraCore.Dns.Client.Provenance

/-!
Owns the verification of the client's threads against `Client.provenance`: one
specification for each function, and what they come to in every reachable pool,
`Client.Reachable.explains` for the answers and `Client.Reachable.recorded` for
the stores.
-/

namespace SideraCore.Dns.Client

open Concurrency Experimental Discipline

variable {Raw : Type} {client : Client Raw} {self : Nat} {job : ClientJob} {world : ClientWorld Raw}
  {α β : Type}

abbrev Secures (client : Client Raw) (self : Nat) (job : ClientJob) (process : ClientProcess Raw α)
    (post : α → ClientWorld Raw → Prop) (world : ClientWorld Raw) : Prop :=
  wp (client.provenance.around client.shared self) (fun _ _ _ => True)
    (client.provenance.Promise client.shared self job) process post world

abbrev Carries (client : Client Raw) (assertion : ClientWorld Raw → Prop) : Prop :=
  Carried client.provenance client.shared assertion

theorem carries_backed : client.Carries client.Backed where
  acts := fun _ _ _ _ grows => grows.backed
  moves := fun _ _ _ moved => Backed.interfere moved

theorem carries_of_later {assertion : ClientWorld Raw → Prop}
    (lasts : ∀ before after, Later before after → assertion before → assertion after) :
    client.Carries assertion where
  acts := fun _ _ before after grows => lasts before after grows.later
  moves := fun _ before after moved => lasts before after (later_interfere moved)

theorem carries_record (record : StoreRecord) : client.Carries fun world => record ∈ world.history :=
  carries_of_later fun _ _ later member => later.history.subset member

theorem carries_answered (query : Query) (response : Msg) :
    client.Carries fun world => client.Answered world.exchanges query response :=
  carries_of_later fun _ _ later answered => answered.mono later.exchanges

variable {action : ClientAction Raw} {post : α → ClientWorld Raw → Prop} {key : DnsCacheKey}
  {record : StoreRecord} {query : Query} {call : Call} {answer : Answer} {operation : ExchangeOperation}

theorem promise_of_justified (justified : client.Justified job action world) :
    client.provenance.Promise client.shared self job action world :=
  ⟨justified, fun _ _ outcome => ⟨grows_of_justified justified outcome, starts_of_outcome outcome⟩⟩

variable {process : ClientProcess Raw α} {value : α} {task : LookupTask} (backed : client.Backed world)

include backed in
theorem Secures.bind {next : α → ClientProcess Raw β} {middle : α → ClientWorld Raw → Prop}
    {post : β → ClientWorld Raw → Prop}
    (first : client.Secures self job process middle world)
    (second : ∀ value after, client.Backed after → middle value after →
      client.Secures self job (next value) post after) :
    client.Secures self job (process >>= next) post world :=
  wp_bind (wp_mono (wp_frame carries_backed backed first) fun value after holds =>
    second value after holds.2 holds.1)

theorem secures_done (carries : client.Carries (post value)) (holds : post value world) :
    client.Secures self job (.done value) post world :=
  wp_done (carries.stable self) holds

def Free : ClientAction Raw → Prop
  | .memoryAdd .. => False
  | .saveDNSCacheAsync .. => False
  | .finishTask .. => False
  | _ => True

theorem justified_of_free (free : Free action) : client.Justified job action world := by
  cases action <;> trivial

include backed in
theorem secures_free (free : Free action)
    {next : (clientSignature Raw).Answer action → ClientProcess Raw α}
    (continues : ∀ during answer after, client.Backed during → client.Backed after →
      (answer, after) ∈ client.outcomes self during action →
        client.Secures self job (next answer) post after) :
    client.Secures self job (.act action next) post world :=
  wp_action carries_backed backed
    (fun _ _ => promise_of_justified (justified_of_free free)) continues

theorem secures_every (free : process.Every Free) :
    client.Secures self job process (fun _ _ => True) world :=
  wp_every Free (fun _ => True) (fun _ _ _ _ => trivial) free
    (fun _ _ kind _ => promise_of_justified (justified_of_free kind)) (fun _ _ _ _ _ _ _ => trivial)
    trivial

def Hits (client : Client Raw) (key : DnsCacheKey) (hit : Option CacheHit) (world : ClientWorld Raw) :
    Prop :=
  ∀ found, hit = some found → ∃ record ∈ world.history, client.Serves key record found

theorem carries_hits (key : DnsCacheKey) (hit : Option CacheHit) : client.Carries (client.Hits key hit) :=
  carries_of_later fun _ _ later hits found equal =>
    (hits found equal).imp fun _ both => ⟨later.history.subset both.1, both.2⟩

theorem hits_none (key : DnsCacheKey) : client.Hits key none world := by
  intro found equal
  simp at equal

theorem hits_some {hit : CacheHit} (member : record ∈ world.history)
    (serves : client.Serves key record hit) : client.Hits key (some hit) world := by
  rintro found ⟨⟩
  exact ⟨record, member, serves⟩

section Caches

include backed

theorem servePersistent_secures (persistent : client.dnsCache = true) {isStored : Bool}
    {found : Raw × Time} (member : record ∈ world.history)
    (sameKey : client.saveKey record.key = client.saveKey key)
    (packed : client.codec.pack record.message = some found.1)
    (expires : found.2 = record.expireAt isStored) :
    client.Secures self job (client.servePersistent isStored found) (client.Hits key) world := by
  have shares : client.Shares record.key key := by simpa [Shares, persistent] using sameKey
  rw [servePersistent, client.codec.unpack_pack _ _ packed]
  by_cases forever : client.disableExpire = true
  · simp only [forever, if_true]
    exact secures_done (carries_hits key _) (hits_some member ⟨shares, fun _ => persistent, forever, rfl⟩)
  · simp only [forever, Bool.false_eq_true, if_false]
    refine wp_action (carries_backed.and (carries_record record)) ⟨backed, member⟩
      (fun _ _ => promise_of_justified trivial) ?_
    rintro during timeNow after ⟨backedDuring, memberDuring⟩ ⟨-, memberAfter⟩ outcome
    obtain ⟨rfl, rfl⟩ := sole_outcome outcome
    refine secures_done (carries_hits key _) ?_
    intro hit served
    obtain ⟨loaded, serves, rfl⟩ := Option.map_eq_some_iff.1 served
    exact ⟨record, memberAfter, shares, fun _ => persistent, by simpa using forever,
      backedDuring.recorded record memberDuring, expires ▸ serves⟩

theorem loadPersistentResponse_secures (persistent : client.dnsCache = true) (key : DnsCacheKey) :
    client.Secures self job (client.loadPersistentResponse key) (client.Hits key) world := by
  refine secures_free backed (by trivial) fun during waiting after _ backedAfter outcome => ?_
  obtain ⟨rfl, rfl⟩ := sole_outcome outcome
  cases found : after.flushing.file.loadPending (client.saveKey key) with
  | some content =>
      obtain ⟨entry, waits, rfl⟩ := Option.map_eq_some_iff.1 found
      obtain ⟨record, member, sameKey, packed, expires⟩ := backedAfter.file.pending _ entry waits
      exact servePersistent_secures backedAfter persistent member sameKey packed
        (expires.trans record.expireAt_false.symm)
  | none =>
      refine secures_free backedAfter (by trivial) fun reading content afterRead _ backedRead read => ?_
      obtain ⟨rfl, rfl⟩ := sole_outcome read
      cases stored : afterRead.flushing.file.loadStored (client.saveKey key) with
      | none => exact secures_done (carries_hits key none) (hits_none key)
      | some content =>
          obtain ⟨written, there, rfl⟩ := Option.map_eq_some_iff.1 stored
          obtain ⟨expireAt, ⟨record, member, sameKey, packed, rfl⟩, seconds⟩ :=
            backedRead.file.stored _ written there
          exact servePersistent_secures backedRead persistent member sameKey packed
            (by rw [seconds, record.expireAt_true])

theorem serveMemory_secures {entry : MemoryEntry} (member : record ∈ world.history)
    (shares : client.Shares record.key key)
    (message : entry.message = record.message)
    (expires : entry.expireAt = if client.disableExpire then none else some (record.expireAt false)) :
    client.Secures self job (client.serveMemory key entry) (client.Hits key) world := by
  unfold serveMemory
  cases lifetime : entry.expireAt with
  | none =>
      have forever : client.disableExpire = true := by
        rw [lifetime] at expires
        by_contra limited
        simp [limited] at expires
      refine secures_done (carries_hits key _) (hits_some member ⟨shares, fun stored => ?_, forever, ?_⟩)
      · simp at stored
      · rw [message]
  | some expireAt =>
      obtain ⟨limited, sameExpiry⟩ : client.disableExpire = false ∧ expireAt = record.expireAt false := by
        rw [lifetime] at expires
        split at expires
        · simp at expires
        · rename_i limited
          exact ⟨by simpa using limited, Option.some.inj expires⟩
      simp only [issue_bind, message]
      refine wp_action (carries_backed.and (carries_record record)) ⟨backed, member⟩
        (fun _ _ => promise_of_justified trivial) ?_
      rintro reading timeNow after ⟨backedReading, memberReading⟩ ⟨backedAfter, memberAfter⟩ read
      obtain ⟨rfl, rfl⟩ := sole_outcome read
      cases served : client.serve after.now expireAt record.message with
      | none =>
          refine secures_free backedAfter (by trivial) fun _ _ _ _ _ _ => ?_
          exact secures_done (carries_hits key none) (hits_none key)
      | some loaded =>
          have serves : client.Serves key record ⟨loaded, false, some after.now⟩ :=
            ⟨shares, fun stored => by simp at stored, limited,
              backedReading.recorded record memberReading, sameExpiry ▸ served⟩
          exact secures_done (carries_hits key _) (hits_some memberAfter serves)

theorem loadMemoryResponse_secures (volatile : client.dnsCache = false) (key : DnsCacheKey) :
    client.Secures self job (client.loadMemoryResponse key) (client.Hits key) world := by
  refine secures_free backed (by trivial) fun during found after _ backedAfter outcome => ?_
  obtain ⟨rfl, rfl⟩ := sole_outcome outcome
  cases entered : after.memory key with
  | none => exact secures_done (carries_hits key none) (hits_none key)
  | some entry =>
      obtain ⟨record, member, sameKey, rfl⟩ := backedAfter.memory key entry entered
      have shares : client.Shares record.key key := by simpa [Shares, volatile] using sameKey
      exact serveMemory_secures backedAfter member shares rfl
        (by rw [record.expireAt_false, memoryEntry])

theorem loadResponse_secures (key : DnsCacheKey) :
    client.Secures self job (client.loadResponse key) (client.Hits key) world := by
  unfold loadResponse
  split
  · rename_i persistent
    exact loadPersistentResponse_secures backed persistent key
  · rename_i volatile
    split
    · exact secures_done (carries_hits key none) (hits_none key)
    · exact loadMemoryResponse_secures backed (by simpa using volatile) key

end Caches

theorem storeCache_secures {message : Msg} {timeToLive : UInt32} (asked : query ∈ client.queries job)
    (stored : timeToLive ≠ 0 → client.Stored world.exchanges query key message timeToLive) :
    client.Secures self job (client.storeCache key message timeToLive) (fun _ _ => True) world := by
  have ends : ∀ after, client.Secures self job (.done ()) (fun _ _ => True) after :=
    fun _ _ _ => trivial
  have answered : client.Carries fun world => client.Stored world.exchanges query key message timeToLive :=
    carries_of_later fun _ _ later stored => stored.mono later.exchanges
  unfold storeCache
  split
  · exact ends world
  · rename_i lasts
    split
    · split
      · exact ends world
      · rename_i packed encoded
        refine wp_action answered (stored lasts) (fun _ _ => promise_of_justified trivial)
          fun during timeNow after _ storedAfter outcome => ?_
        obtain ⟨rfl, rfl⟩ := sole_outcome outcome
        have read : client.Carries fun world => after.now ≤ world.now :=
          carries_of_later fun _ _ later below => below.trans later.now
        exact wp_action (read.and answered) ⟨le_rfl, storedAfter⟩
          (fun _ kept => promise_of_justified ⟨⟨query, asked, kept.2⟩, encoded, kept.1⟩)
          fun _ _ after _ _ _ => ends after
    · by_cases uncached : client.disableCache = true
      · rw [if_pos uncached]
        exact ends world
      · rw [if_neg uncached]
        exact wp_action answered (stored lasts)
          (fun _ kept => promise_of_justified ⟨query, asked, kept⟩) fun _ _ after _ _ _ => ends after

structure Operates (client : Client Raw) (call : Call) (operation : ExchangeOperation) : Prop where
  asked : client.query call = some operation.query
  question : operation.question = operation.query.key.question
  messageId : operation.messageId = operation.query.message.id
  transport : operation.query.transport = call.transport
  options : operation.query.options = call.options

def Replies (client : Client Raw) (call : Call) (reply : Reply) (world : ClientWorld Raw) : Prop :=
  ∀ answer ∈ (ClientExit.reply reply).answers,
    client.Explains call world.exchanges world.history answer

theorem carries_replies (call : Call) (reply : Reply) : client.Carries (client.Replies call reply) :=
  carries_of_later fun _ _ later replies answer member =>
    (replies answer member).mono later.history later.exchanges

theorem replies_error {answer : Option Answer} {error : ExchangeError} :
    client.Replies call ⟨answer, some error⟩ world := by
  simp [Replies, ClientExit.answers]

theorem replies_answer (explains : client.Explains call world.exchanges world.history answer) :
    client.Replies call ⟨some answer, none⟩ world := by
  simpa [Replies, ClientExit.answers] using explains

theorem mem_queries (asked : client.query call = some query) (member : call ∈ job.calls) :
    query ∈ client.queries job := by
  cases job with
  | refresh other => simp [ClientJob.calls] at member
  | _ => exact List.mem_filterMap.2 ⟨call, member, asked⟩

theorem release_free (operation : ExchangeOperation) :
    (release operation : ClientProcess Raw Unit).Every Free := by
  unfold release
  split
  · trivial
  · exact ⟨trivial, fun _ => ⟨trivial, fun _ => trivial⟩⟩

/-- After the lock is released the process is at its end. -/
theorem released_secures (carries : client.Carries (post value)) (holds : post value world) :
    client.Secures self job (release operation >>= fun _ => pure value) post world := by
  refine wp_bind (wp_mono (wp_frame carries holds (secures_every (release_free operation))) ?_)
  intro _ after kept
  exact secures_done carries kept.2

def Begins (client : Client Raw) (call : Call) (begun : Begun) (world : ClientWorld Raw) : Prop :=
  match begun with
  | .ready operation => client.Operates call operation
  | .done reply => client.Replies call reply world
  | .wait => True

theorem carries_begins (call : Call) (begun : Begun) : client.Carries (client.Begins call begun) := by
  cases begun with
  | ready operation | wait => exact carries_of_later fun _ _ _ holds => holds
  | done reply => exact carries_replies call reply

section Exchanges

include backed

theorem exchangeToTransport_secures :
    client.Secures self job (exchangeToTransport query.transport query.message)
      (fun response world => ∀ found, response = some found →
        client.Answered world.exchanges query found) world := by
  refine secures_free backed (by trivial) fun during outcome after _ _ happened => ?_
  obtain ⟨rfl, rfl⟩ := sole_outcome happened
  have carries : ∀ response : Option Msg, client.Carries fun world =>
      ∀ found, response = some found → client.Answered world.exchanges query found :=
    fun _ => carries_of_later fun _ _ later holds found equal => (holds found equal).mono later.exchanges
  cases answered : client.exchange during.exchanges.length query.transport query.message with
  | response message | rcodeError rcode =>
      refine secures_done (carries _) ?_
      rintro found ⟨⟩
      exact ⟨during.exchanges.length, by simp, by rw [Answers, answered]⟩
  | error =>
      refine secures_done (carries none) ?_
      intro found equal
      simp at equal

theorem finishExchange_secures {transport : DNSTransport} {response : Msg} (member : call ∈ job.calls)
    (operates : client.Operates call operation)
    (answered : client.Answered world.exchanges operation.query response) :
    client.Secures self job (client.finishExchange transport operation response)
      (client.Replies call) world := by
  unfold finishExchange
  rw [operates.question, operates.messageId]
  split
  · have ends : ∀ after, client.Secures self job
        (.done ⟨some ⟨response, .exchanged⟩, some .responseRejected⟩) (client.Replies call) after :=
      fun _ => secures_done (carries_replies call _) replies_error
    dsimp only
    split
    · exact secures_free backed (by trivial) fun _ _ after _ _ _ => ends after
    · exact ends world
  · rename_i accepted
    have accepts : rejects operation.query.responseChecker response = false := by simpa using accepted
    have explains (after : ClientWorld Raw)
        (kept : client.Answered after.exchanges operation.query response) :
        client.Explains call after.exchanges after.history _ :=
      .exchanged operates.asked kept accepts
    rcases applied : applyResponseOptions operation.query.key.question response operation.query.options
      with ⟨message, timeToLive⟩
    rw [applied] at explains
    dsimp only
    split
    · rename_i cached
      have cacheable : cacheableRcode response = true := by simp at cached; exact cached.2
      refine Secures.bind backed (wp_frame (carries_answered operation.query response) answered
        (storeCache_secures (mem_queries operates.asked member) fun lasts =>
          ⟨rfl, lasts, response, answered, accepts, cacheable, applied⟩)) fun _ after _ kept => ?_
      exact secures_done (carries_replies call _) (replies_answer (explains after kept.2))
    · exact secures_done (carries_replies call _) (replies_answer (explains world answered))

theorem completeExchange_secures (member : call ∈ job.calls)
    (operates : client.Operates call operation) :
    client.Secures self job (client.completeExchange call operation) (client.Replies call) world := by
  unfold completeExchange
  rw [← operates.transport]
  refine Secures.bind backed (exchangeToTransport_secures backed) fun response after backedAfter answered => ?_
  cases response with
  | none => exact released_secures (carries_replies call _) replies_error
  | some message =>
      refine Secures.bind backedAfter (finishExchange_secures backedAfter member operates (answered message rfl))
        fun reply _ _ replies => ?_
      exact released_secures (carries_replies call reply) replies

section Operates

variable (operates : client.Operates call operation)
include operates

theorem checkTransport_secures :
    client.Secures self job (client.checkTransport call operation) (client.Begins call) world := by
  unfold checkTransport
  split
  · exact released_secures (carries_begins call (.done _)) replies_error
  · split
    · refine secures_free backed (by trivial) fun _ rejected after _ _ _ => ?_
      cases rejected with
      | true => exact released_secures (carries_begins call (.done _)) replies_error
      | false => exact secures_done (carries_begins call (.ready operation)) operates
    · exact secures_done (carries_begins call (.ready operation)) operates

theorem tryCache_secures :
    client.Secures self job (client.tryCache call operation) (client.Begins call) world := by
  unfold tryCache
  refine Secures.bind backed (loadResponse_secures backed _) fun hit after backedAfter hits => ?_
  cases hit with
  | none => exact checkTransport_secures backedAfter operates
  | some hit =>
      obtain ⟨record, member, serves⟩ := hits hit rfl
      have explains (fresh : hit.loaded.isStale = true → call.options.disableOptimisticCache = false) :
          client.Begins call (.done ⟨some ⟨{ hit.loaded.response with id := operation.messageId },
            hit.source⟩, none⟩) after :=
        replies_answer (.cached operates.asked member serves fresh)
      dsimp only
      split
      · split
        · exact checkTransport_secures backedAfter operates
        · rename_i optimistic
          exact wp_action (carries_begins call _) (explains fun _ => by simpa using optimistic)
            (fun _ _ => promise_of_justified trivial) fun _ _ _ _ kept _ =>
              released_secures (carries_begins call (.done _)) kept
      · rename_i fresh
        exact released_secures (carries_begins call (.done _)) (explains fun stale => absurd stale fresh)

theorem lockCache_secures {allowWait : Bool} :
    client.Secures self job (client.lockCache call allowWait operation) (client.Begins call) world := by
  unfold lockCache
  refine secures_free backed (by trivial) fun _ answer after _ backedAfter _ => ?_
  rcases answer with ⟨channel, loaded⟩
  cases loaded with
  | false =>
      exact tryCache_secures backedAfter ⟨operates.asked, operates.question, operates.messageId,
        operates.transport, operates.options⟩
  | true =>
      cases allowWait with
      | false => exact secures_done (carries_begins call .wait) trivial
      | true =>
          refine secures_free backedAfter (by trivial) fun _ signalled final _ backedFinal _ => ?_
          cases signalled with
          | true => exact tryCache_secures backedFinal operates
          | false => exact secures_done (carries_begins call (.done _)) replies_error

end Operates

theorem beginExchange_secures (call : Call) (allowWait : Bool) :
    client.Secures self job (client.beginExchange call allowWait) (client.Begins call) world := by
  unfold beginExchange
  split
  · rename_i missing
    exact secures_done (carries_begins call (.done _))
      (replies_answer (.refused (by simp [Call.Refused, missing])))
  · rename_i question rest asked
    have operates : client.Operates call (client.operation call question) :=
      ⟨by simp [query, asked], rfl, rfl, rfl, rfl⟩
    split
    · rename_i excluded
      exact secures_done (carries_begins call (.done _))
        (replies_answer (.refused (by simpa [Call.Refused, asked] using excluded)))
    · dsimp only
      split
      · exact checkTransport_secures backed operates
      · exact lockCache_secures backed operates

theorem exchangeCall_secures (member : call ∈ job.calls) :
    client.Secures self job (client.exchangeCall call) (client.Replies call) world := by
  refine Secures.bind backed (beginExchange_secures backed call true) fun begun after backedAfter begins => ?_
  cases begun with
  | ready operation => exact completeExchange_secures backedAfter member begins
  | done reply => exact secures_done (carries_replies call reply) begins
  | wait => exact secures_done (carries_replies call _) (by simp [Replies, ClientExit.answers])

end Exchanges

/-- Every answer of a finished thread is explained by one of its calls. -/
def Ends (client : Client Raw) (job : ClientJob) (exit : ClientExit) (world : ClientWorld Raw) : Prop :=
  ∀ answer ∈ exit.answers, ∃ call ∈ job.calls,
    client.Explains call world.exchanges world.history answer

theorem carries_ends (exit : ClientExit) : client.Carries (client.Ends job exit) :=
  carries_of_later fun _ _ later ends answer member =>
    (ends answer member).imp fun _ both => ⟨both.1, both.2.mono later.history later.exchanges⟩

theorem ends_reply {reply : Reply} (member : call ∈ job.calls)
    (replies : client.Replies call reply world) : client.Ends job (.reply reply) world :=
  fun answer inside => ⟨call, member, replies answer inside⟩

def LooksUp (client : Client Raw) (call : Call) (reply : LookupReply) (world : ClientWorld Raw) : Prop :=
  ∀ answer ∈ reply.answers, client.Explains call world.exchanges world.history answer

theorem carries_looksUp (call : Call) (reply : LookupReply) :
    client.Carries (client.LooksUp call reply) :=
  carries_of_later fun _ _ later looksUp answer member =>
    (looksUp answer member).mono later.history later.exchanges

theorem looksUp_answer (explains : client.Explains call world.exchanges world.history answer) :
    client.LooksUp call (lookupAnswer answer) world := by
  unfold lookupAnswer
  split
  · simp [LooksUp]
  · simpa [LooksUp] using explains

theorem effectiveClientSubnet_prepare (client : Client Raw) (message : Msg) (options : DNSQueryOptions) :
    client.effectiveClientSubnet (client.prepareExchangeMessage message options) options =
      client.effectiveClientSubnet message options := by
  unfold effectiveClientSubnet prepareExchangeMessage
  split
  · rfl
  · split
    · rfl
    · rename_i unset
      simp [unset]

/-- `questionCache` looks under the key that the exchange would use. -/
theorem query_lookup (client : Client Raw) (task : LookupTask) :
    client.query task.call = some
      ⟨task.transport, ⟨⟨task.name, task.qType, classINET⟩, task.transport.tag,
        client.effectiveClientSubnet task.message task.options⟩,
        client.prepareExchangeMessage task.message task.options, task.options, task.responseChecker⟩ := by
  simp [query, operation, LookupTask.call, LookupTask.message, effectiveClientSubnet_prepare]

theorem mem_merge {group : LookupGroup} {strategy : DomainStrategy}
    (member : answer ∈ (group.merge strategy).answers) :
    ∃ isIPv6 reply, group.result isIPv6 = some reply ∧ answer ∈ reply.answers := by
  have either : answer ∈ (group.exchange4.getD ⟨[], some .context, []⟩).answers ++
      (group.exchange6.getD ⟨[], some .context, []⟩).answers := by
    unfold LookupGroup.merge at member
    dsimp only at member
    split at member
    · split at member
      · exact member
      · simp at member
    · exact member
  rcases List.mem_append.1 either with first | second
  · cases result : group.exchange4 with
    | none => simp [result] at first
    | some reply => exact ⟨false, reply, result, by simpa [result] using first⟩
  · cases result : group.exchange6 with
    | none => simp [result] at second
    | some reply => exact ⟨true, reply, result, by simpa [result] using second⟩

theorem carries_group (index : Nat) (isIPv6 : Bool) (task : LookupTask) :
    client.Carries fun world =>
      ∃ found, world.groups[index]? = some found ∧ found.task isIPv6 = task :=
  carries_of_later fun _ _ later holds => by
    obtain ⟨found, there, same⟩ := holds
    obtain ⟨after, present, tasks⟩ := later.groups index found there
    exact ⟨after, present, (tasks isIPv6).trans same⟩

section Jobs

include backed

theorem exchangeAsync_secures (member : call ∈ job.calls) :
    client.Secures self job (client.exchangeAsync call) (client.Ends job) world := by
  refine Secures.bind backed (beginExchange_secures backed call false) fun begun after backedAfter begins => ?_
  cases begun with
  | ready operation =>
      refine Secures.bind backedAfter (completeExchange_secures backedAfter member begins)
        fun reply _ _ replies => ?_
      exact secures_done (carries_ends _) (ends_reply member replies)
  | done reply => exact secures_done (carries_ends _) (ends_reply member begins)
  | wait =>
      refine secures_free backedAfter (by trivial) fun _ _ _ _ _ _ => ?_
      exact secures_done (carries_ends _) (by simp [Ends, ClientExit.answers])

theorem questionCache_secures (task : LookupTask) :
    client.Secures self job (client.questionCache task)
      (fun reply after => ∀ found, reply = some found → client.LooksUp task.call found after) world := by
  have carries : ∀ reply : Option LookupReply, client.Carries fun after =>
      ∀ found, reply = some found → client.LooksUp task.call found after :=
    fun _ => carries_of_later fun _ _ later holds found equal answer member =>
      (holds found equal answer member).mono later.history later.exchanges
  have misses : ∀ after, client.Secures self job (.done none)
      (fun reply after => ∀ found, reply = some found → client.LooksUp task.call found after) after :=
    fun _ => secures_done (carries none) (by simp)
  refine Secures.bind backed (loadResponse_secures backed _) fun hit after backedAfter hits => ?_
  cases hit with
  | none => exact misses after
  | some hit =>
      obtain ⟨record, member, serves⟩ := hits hit rfl
      have looksUp (fresh : hit.loaded.isStale = true → task.options.disableOptimisticCache = false) :
          ∀ found, some (lookupAnswer ⟨hit.loaded.response, hit.source⟩) = some found →
            client.LooksUp task.call found after := by
        rintro found ⟨⟩
        exact looksUp_answer (.cached (query_lookup client task) member serves fresh)
      dsimp only
      split
      · split
        · exact misses after
        · rename_i optimistic
          exact wp_action (carries _) (looksUp fun _ => by simpa using optimistic)
            (fun _ _ => promise_of_justified trivial) fun _ _ _ _ kept _ => secures_done (carries _) kept
      · rename_i fresh
        exact secures_done (carries _) (looksUp fun stale => absurd stale fresh)

theorem lookupExchange_secures (member : task.call ∈ job.calls) :
    client.Secures self job (client.lookupExchange task) (client.LooksUp task.call) world := by
  refine Secures.bind backed (exchangeCall_secures backed member) fun reply after _ replies => ?_
  rcases reply with ⟨answer, error⟩
  cases error with
  | some error => exact secures_done (carries_looksUp _ _) (by simp [LooksUp])
  | none =>
      cases answer with
      | none => exact secures_done (carries_looksUp _ _) (by simp [LooksUp])
      | some answer =>
          exact secures_done (carries_looksUp _ _)
            (looksUp_answer (replies answer (by simp [ClientExit.answers])))

theorem lookupToExchange_secures (member : task.call ∈ job.calls) :
    client.Secures self job (client.lookupToExchange task) (client.LooksUp task.call) world := by
  unfold lookupToExchange
  split
  · exact lookupExchange_secures backed member
  · refine Secures.bind backed (questionCache_secures backed task) fun reply after backedAfter found => ?_
    cases reply with
    | none => exact lookupExchange_secures backedAfter member
    | some reply => exact secures_done (carries_looksUp _ reply) (found reply rfl)

theorem startGroup_secures {task4 task6 : LookupTask} (member4 : task4.call ∈ job.calls)
    (member6 : task6.call ∈ job.calls) (strategy : DomainStrategy) :
    client.Secures self job (do
      let group ← issue (.startGroup task4 task6)
      let results ← issue (.awaitGroup group)
      pure (LookupGroup.merge results strategy))
      (fun reply => client.Ends job (.lookedUp reply)) world := by
  refine secures_free backed (by trivial) fun during group after _ backedAfter started => ?_
  obtain ⟨rfl, rfl⟩ := sole_outcome started
  refine wp_action
    (carries_backed.and ((carries_group during.groups.length false task4).and
      (carries_group during.groups.length true task6)))
    ⟨backedAfter, by simp [LookupGroup.task], by simp [LookupGroup.task]⟩
    (fun _ _ => promise_of_justified trivial) ?_
  rintro waiting results final ⟨backedWaiting, ⟨found, there, same4⟩, foundAgain, thereAgain, same6⟩ - outcome
  obtain ⟨rfl, present⟩ := mem_outcomes_awaitGroup client outcome
  cases there.symm.trans thereAgain
  cases there.symm.trans present
  refine secures_done (carries_ends _) fun answer member => ?_
  obtain ⟨isIPv6, reply, done, inside⟩ := mem_merge member
  have explains := backedWaiting.results _ (List.mem_of_getElem? there) isIPv6 reply done answer inside
  cases isIPv6 with
  | false => exact ⟨task4.call, member4, same4 ▸ explains⟩
  | true => exact ⟨task6.call, member6, same6 ▸ explains⟩

theorem lookup_secures (call : LookupCall) :
    client.Secures self (.lookup call) (client.lookup call)
      (fun reply => client.Ends (.lookup call) (.lookedUp reply)) world := by
  have single {qType : UInt16} (member : (call.task qType).call ∈ (ClientJob.lookup call).calls) :
      client.Secures self (.lookup call) (client.lookupToExchange (call.task qType))
        (fun reply => client.Ends (.lookup call) (.lookedUp reply)) world :=
    wp_mono (lookupToExchange_secures backed member) fun _ _ looksUp answer inside =>
      ⟨_, member, looksUp answer inside⟩
  cases strategy : call.strategy with
  | ipv4Only | ipv6Only =>
      rw [lookup, strategy]
      exact single (by simp [ClientJob.calls, strategy])
  | asIs | preferIPv4 | preferIPv6 =>
      rw [lookup, strategy]
      exact startGroup_secures backed (by simp [ClientJob.calls, strategy])
        (by simp [ClientJob.calls, strategy]) _

theorem refreshResponse_secures (query : Query) :
    client.Secures self (.refresh query) (client.refreshResponse query) (fun _ _ => True) world := by
  have ends : ∀ after, client.Secures self (.refresh query) (.done ()) (fun _ _ => True) after :=
    fun _ _ _ => trivial
  refine Secures.bind backed (exchangeToTransport_secures backed) fun response after backedAfter answered => ?_
  cases response with
  | none => exact ends after
  | some response =>
      dsimp only
      split
      · split
        · exact secures_free backedAfter (by trivial) fun _ _ final _ _ _ => ends final
        · exact ends after
      · rename_i accepted
        split
        · exact ends after
        · rename_i cacheable
          exact storeCache_secures (by simp [queries]) fun lasts =>
            ⟨rfl, lasts, response, answered response rfl, by simpa using accepted, by simpa using cacheable,
              rfl⟩

theorem body_secures (job : ClientJob) (starts : client.provenance.starts job world) :
    client.Secures self job (client.body job) (client.Ends job) world := by
  cases job with
  | exchange call =>
      have member : call ∈ (ClientJob.exchange call).calls := by simp [ClientJob.calls]
      refine Secures.bind backed (exchangeCall_secures backed member) fun reply _ _ replies => ?_
      exact secures_done (carries_ends _) (ends_reply member replies)
  | exchangeAsync call => exact exchangeAsync_secures backed (by simp [ClientJob.calls])
  | lookup call =>
      refine Secures.bind backed (lookup_secures backed call) fun reply _ _ ends => ?_
      exact secures_done (carries_ends _) ends
  | task group isIPv6 task =>
      have looksUp : client.Secures self (.task group isIPv6 task) (client.lookupToExchange task)
          (client.LooksUp task.call) world :=
        lookupToExchange_secures backed (by simp [ClientJob.calls])
      refine wp_bind (wp_mono (wp_frame (carries_group group isIPv6 task) starts looksUp) ?_)
      rintro reply after ⟨looksUp, started⟩
      refine wp_action ((carries_group group isIPv6 task).and (carries_looksUp task.call reply))
        ⟨started, looksUp⟩ ?_ fun _ _ _ _ _ _ =>
          secures_done (carries_ends _) (by simp [Ends, ClientExit.answers])
      rintro during ⟨⟨found, there, same⟩, explained⟩
      exact promise_of_justified ⟨found, there, same ▸ explained⟩
  | refresh query =>
      refine Secures.bind backed (refreshResponse_secures backed query) fun _ after backedAfter _ => ?_
      refine secures_free backedAfter (by trivial) fun _ _ _ _ _ _ => ?_
      exact secures_done (carries_ends _) (by simp [Ends, ClientExit.answers])

end Jobs

theorem provenance_sound (client : Client Raw) :
    client.provenance.Sound client.shared client.body ClientJob.IsCall where
  acts := carries_backed.acts
  moves := carries_backed.moves
  unborn := fun _ _ _ _ _ _ => trivial
  arrives := by
    intro job world isCall _
    cases job with
    | task group isIPv6 task => exact isCall.elim
    | _ => trivial
  secured := fun _ job _ backed _ starts => body_secures backed job starts

section Reachable

variable {start : Time} {pool : ClientPool Raw}

/-- Every response that a finished thread returned without an error is explained. -/
theorem Reachable.explains (reachable : client.Reachable start pool) {job : ClientJob}
    {exit : ClientExit} (finished : pool.threads[self]? = some ⟨job, .done exit⟩) {answer : Answer}
    (returned : answer ∈ exit.answers) :
    ∃ call ∈ job.calls, client.Explains call pool.world.exchanges pool.world.history answer :=
  (client.provenance_sound.reaches (Backed.start start) (fun _ => trivial) reachable).post finished
    answer returned

/-- Every store was made by one of the threads, for a query of its job. -/
def Recorded (client : Client Raw) (jobs : List ClientJob) (world : ClientWorld Raw) : Prop :=
  ∀ record ∈ world.history, ∃ job, jobs[record.thread]? = some job ∧
    ∃ query ∈ client.queries job,
      client.Stored world.exchanges query record.key record.message record.timeToLive

theorem Reachable.recorded (reachable : client.Reachable start pool) :
    client.Recorded (pool.threads.map Thread.origin) pool.world := by
  refine client.provenance_sound.traces (Backed.start start) (fun _ => trivial) ?_ ?_ ?_ ?_ reachable
  · simp [Recorded, ClientWorld.start]
  · intro jobs thread job before after running grows recorded record member
    rcases grows.recorded record member with old | ⟨rfl, stored⟩
    · obtain ⟨other, there, query, asked, stored⟩ := recorded record old
      exact ⟨other, there, query, asked, stored.mono grows.later.exchanges⟩
    · exact ⟨job, running, stored⟩
  · intro jobs more world recorded record member
    obtain ⟨job, there, stored⟩ := recorded record member
    exact ⟨job, (List.getElem?_append_left (List.getElem?_eq_some_iff.1 there).1).trans there, stored⟩
  · intro jobs event before after moved recorded record member
    obtain ⟨history, -, exchanges, -⟩ := interfere_frame moved
    obtain ⟨job, there, query, asked, stored⟩ := recorded record (history ▸ member)
    exact ⟨job, there, query, asked, exchanges ▸ stored⟩

end Reachable

end SideraCore.Dns.Client
