import SideraCore.Dns.Client.Model

/-!
Owns the bodies of the DNS client's threads, one process for each function of
the client: `Exchange`, `ExchangeAsync`, `Lookup`, the tasks of a lookup and the
background refresh.

`release` clears `releaseCond` in the source, so that a second call does
nothing; here every path calls it once.
-/

namespace SideraCore.Dns

open Concurrency Experimental

def cacheableRcode (response : Msg) : Bool :=
  response.rcode = rcodeSuccess || response.rcode = rcodeNameError

def rejects (responseChecker : Option ResponseChecker) (response : Msg) : Bool :=
  match responseChecker with
  | none => false
  | some check => if !cacheableRcode response then true else !check response

/-- A response found in a cache, and the reading of the clock it was served at. -/
structure CacheHit where
  loaded : LoadedResponse
  isStored : Bool
  time : Option Time

def CacheHit.source (hit : CacheHit) : Source := .cached hit.loaded.isStale hit.isStored hit.time

/-- `exchangeOperation`: the query, whether its response stays out of the cache, and the
channel `releaseCond` closes. -/
structure ExchangeOperation where
  query : Query
  question : Question
  messageId : UInt16
  disableCache : Bool
  releaseCond : Option Nat

/-- How `beginExchange` ends: `exchangeReady`, `exchangeDone` or `exchangeWait`. -/
inductive Begun where
  | ready (operation : ExchangeOperation)
  | done (reply : Reply)
  | wait

def LookupTask.message (task : LookupTask) : Msg :=
  { Msg.zero with recursionDesired := true, question := [⟨task.name, task.qType, classINET⟩] }

def LookupTask.call (task : LookupTask) : Call :=
  ⟨task.transport, task.message, task.options, task.responseChecker, task.contextTransport⟩

def lookupAnswer (answer : Answer) : LookupReply :=
  if answer.response.rcode ≠ rcodeSuccess then ⟨[], some (.rcode answer.response.rcode), []⟩
  else ⟨dnsResponseAddresses (some answer.response), none, [answer]⟩

def sortAddresses (response4 response6 : List Addr) (strategy : DomainStrategy) : List Addr :=
  if strategy = .preferIPv6 then response6 ++ response4 else response4 ++ response6

/-- What `Lookup` makes of its tasks; a missing result was cancelled. -/
def LookupGroup.merge (group : LookupGroup) (strategy : DomainStrategy) : LookupReply :=
  let missing : LookupReply := ⟨[], some .context, []⟩
  let result4 := group.exchange4.getD missing
  let result6 := group.exchange6.getD missing
  let answers := result4.answers ++ result6.answers
  let error := result4.error.or result6.error
  if result4.addresses = [] ∧ result6.addresses = [] then
    ⟨[], error, if error.isNone then answers else []⟩
  else ⟨sortAddresses result4.addresses result6.addresses strategy, none, answers⟩

namespace LookupCall

def strategy (call : LookupCall) : DomainStrategy :=
  if call.options.lookupStrategy ≠ .asIs then call.options.lookupStrategy else call.options.strategy

def lookupOptions (call : LookupCall) : DNSQueryOptions :=
  if call.options.lookupStrategy ≠ .asIs then { call.options with strategy := call.strategy }
  else call.options

def task (call : LookupCall) (qType : UInt16) : LookupTask :=
  ⟨call.transport, fqdn (fqdnToDomain call.domain), qType, call.lookupOptions, call.responseChecker,
    call.contextTransport⟩

end LookupCall

namespace Client

variable {Raw : Type} (client : Client Raw)

def servePersistent (isStored : Bool) (found : Raw × Time) : ClientProcess Raw (Option CacheHit) :=
  match client.codec.unpack found.1 with
  | none => pure none
  | some response =>
      if client.disableExpire then pure (some ⟨⟨response, 0, false⟩, isStored, none⟩)
      else do
        let timeNow ← issue .timeNow
        pure ((client.serve timeNow found.2 response).map fun loaded => ⟨loaded, isStored, some timeNow⟩)

variable (key : DnsCacheKey) (query : Query)

def loadPersistentResponse : ClientProcess Raw (Option CacheHit) := do
  match ← issue (.loadPending (client.saveKey key)) with
  | some found => client.servePersistent false found
  | none =>
      match ← issue (.loadStored (client.saveKey key)) with
      | some found => client.servePersistent true found
      | none => pure none

/-- `loadResponse` with an entry of the memory cache, which has a lifetime unless
`disableExpire` is set. -/
def serveMemory (entry : MemoryEntry) : ClientProcess Raw (Option CacheHit) :=
  match entry.expireAt with
  | none => pure (some ⟨⟨entry.message, 0, false⟩, false, none⟩)
  | some expireAt => do
      let timeNow ← issue .timeNow
      match client.serve timeNow expireAt entry.message with
      | some loaded => pure (some ⟨loaded, false, some timeNow⟩)
      | none =>
          dispatch (.memoryRemove key)
          pure none

def loadMemoryResponse : ClientProcess Raw (Option CacheHit) := do
  match ← issue (.memoryGet key) with
  | some entry => client.serveMemory key entry
  | none => pure none

def loadResponse : ClientProcess Raw (Option CacheHit) :=
  if client.dnsCache then client.loadPersistentResponse key
  else if client.disableCache then pure none
  else client.loadMemoryResponse key

def storeCache (message : Msg) (timeToLive : UInt32) : ClientProcess Raw Unit :=
  if timeToLive = 0 then pure ()
  else if client.dnsCache then
    match client.codec.pack message with
    | none => pure ()
    | some packed => do
        let timeNow ← issue .timeNow
        dispatch (.saveDNSCacheAsync key message packed timeToLive timeNow)
  else if client.disableCache then pure ()
  else dispatch (.memoryAdd key message timeToLive)

/-- `exchangeToTransport`; `exchangeToTransportAsync` does the same before its callback. -/
def exchangeToTransport (transport : DNSTransport) (message : Msg) :
    ClientProcess Raw (Option Msg) := do
  match ← issue (.exchange transport message) with
  | .response response => pure (some (stripDNSPadding response))
  | .rcodeError rcode => pure (some (fixedResponseStatus message rcode))
  | .error => pure none

def backgroundRefreshDNS : ClientProcess Raw Unit := dispatch (.startRefresh query)

def refreshResponse : ClientProcess Raw Unit := do
  match ← exchangeToTransport query.transport query.message with
  | none => pure ()
  | some response =>
      if rejects query.responseChecker response then
        if client.rdrc then
          dispatch (.saveRDRC query.transport.tag query.key.question.name query.key.question.qtype)
      else if !cacheableRcode response then pure ()
      else
        let (applied, timeToLive) := applyResponseOptions query.key.question response query.options
        client.storeCache query.key applied timeToLive

def refresh : ClientProcess Raw ClientExit := do
  client.refreshResponse query
  dispatch (.endRefresh query.key)
  pure .ended

def release (operation : ExchangeOperation) : ClientProcess Raw Unit :=
  match operation.releaseCond with
  | none => pure ()
  | some channel => do
      dispatch (.deleteLock operation.query.key)
      dispatch (.closeLock channel)

/-- The operation before it has the lock. The key is read only when the cache is used. -/
def operation (call : Call) (question : Question) : ExchangeOperation :=
  let message := client.prepareExchangeMessage call.message call.options
  { query :=
      ⟨call.transport, ⟨question, call.transport.tag, client.effectiveClientSubnet message call.options⟩,
        message, call.options, call.responseChecker⟩
    question := question
    messageId := message.id
    disableCache := !isSimpleRequest call.message || client.disableCache || call.options.disableCache
    releaseCond := none }

/-- The end of `beginExchange`: the checks for a loop and for earlier rejections. -/
def checkTransport (call : Call) (operation : ExchangeOperation) : ClientProcess Raw Begun := do
  if call.contextTransport = some call.transport.tag then
    release operation
    pure (.done ⟨none, some (.loopback call.transport.tag)⟩)
  else if !operation.disableCache && call.responseChecker.isSome && client.rdrc then
    let rejected : Bool ←
      issue (.loadRDRC call.transport.tag operation.question.name operation.question.qtype)
    if rejected then
      release operation
      pure (.done ⟨none, some .responseRejectedCached⟩)
    else pure (.ready operation)
  else pure (.ready operation)

def tryCache (call : Call) (operation : ExchangeOperation) : ClientProcess Raw Begun := do
  match ← client.loadResponse operation.query.key with
  | none => client.checkTransport call operation
  | some hit =>
      let reply : Reply :=
        ⟨some ⟨{ hit.loaded.response with id := operation.messageId }, hit.source⟩, none⟩
      if hit.loaded.isStale then
        if call.options.disableOptimisticCache then client.checkTransport call operation
        else
          backgroundRefreshDNS operation.query
          release operation
          pure (.done reply)
      else
        release operation
        pure (.done reply)

def lockCache (call : Call) (allowWait : Bool) (operation : ExchangeOperation) :
    ClientProcess Raw Begun := do
  let (channel, loaded) ← issue (.loadOrStoreLock operation.query.key)
  if loaded then
    if !allowWait then pure .wait
    else
      let signalled : Bool ← issue (.awaitLock channel)
      if signalled then client.tryCache call operation
      else pure (.done ⟨none, some .context⟩)
  else client.tryCache call { operation with releaseCond := some channel }

def beginExchange (call : Call) (allowWait : Bool) : ClientProcess Raw Begun :=
  match call.message.question with
  | [] =>
      pure (.done ⟨some ⟨fixedResponseStatus call.message rcodeFormatError, .synthetic⟩, none⟩)
  | question :: _ =>
      if strategyRejects question call.options.strategy then
        pure (.done ⟨some ⟨fixedResponseStatus call.message rcodeSuccess, .synthetic⟩, none⟩)
      else
        let operation := client.operation call question
        if operation.disableCache then client.checkTransport call operation
        else client.lockCache call allowWait operation

def finishExchange (transport : DNSTransport) (operation : ExchangeOperation) (response : Msg) :
    ClientProcess Raw Reply := do
  let disableCache := operation.disableCache || !cacheableRcode response
  if rejects operation.query.responseChecker response then
    if !disableCache && client.rdrc then
      dispatch (.saveRDRC transport.tag operation.question.name operation.question.qtype)
    pure ⟨some ⟨response, .exchanged⟩, some .responseRejected⟩
  else
    let (applied, timeToLive) :=
      applyResponseOptions operation.question response operation.query.options
    if !disableCache then
      client.storeCache operation.query.key applied timeToLive
    pure ⟨some ⟨fitEdns operation.query.message { applied with id := operation.messageId }, .exchanged⟩,
      none⟩

def completeExchange (call : Call) (operation : ExchangeOperation) : ClientProcess Raw Reply := do
  match ← exchangeToTransport call.transport operation.query.message with
  | none =>
      release operation
      pure ⟨none, some .transport⟩
  | some response =>
      let reply ← client.finishExchange call.transport operation response
      release operation
      pure reply

def exchangeCall (call : Call) : ClientProcess Raw Reply := do
  match ← client.beginExchange call true with
  | .ready operation => client.completeExchange call operation
  | .done reply => pure reply
  | .wait => pure ⟨none, none⟩

def exchangeAsync (call : Call) : ClientProcess Raw ClientExit := do
  match ← client.beginExchange call false with
  | .ready operation =>
      let reply ← client.completeExchange call operation
      pure (.reply reply)
  | .done reply => pure (.reply reply)
  | .wait =>
      dispatch (.goExchange call)
      pure .deferred

/-- `questionCache`: nothing stands for `ErrNotCached`. -/
def questionCache (task : LookupTask) : ClientProcess Raw (Option LookupReply) := do
  let key : DnsCacheKey :=
    ⟨⟨task.name, task.qType, classINET⟩, task.transport.tag,
      client.effectiveClientSubnet task.message task.options⟩
  match ← client.loadResponse key with
  | none => pure none
  | some hit =>
      let reply := lookupAnswer ⟨hit.loaded.response, hit.source⟩
      if hit.loaded.isStale then
        if task.options.disableOptimisticCache then pure none
        else
          backgroundRefreshDNS ⟨task.transport, key,
            client.prepareExchangeMessage task.message task.options, task.options, task.responseChecker⟩
          pure (some reply)
      else pure (some reply)

def lookupExchange (task : LookupTask) : ClientProcess Raw LookupReply := do
  match ← client.exchangeCall task.call with
  | ⟨_, some error⟩ => pure ⟨[], some error, []⟩
  | ⟨some answer, none⟩ => pure (lookupAnswer answer)
  | ⟨none, none⟩ => pure ⟨[], none, []⟩

def lookupToExchange (task : LookupTask) : ClientProcess Raw LookupReply := do
  if client.disableCache || task.options.disableCache then client.lookupExchange task
  else
    match ← client.questionCache task with
    | some reply => pure reply
    | none => client.lookupExchange task

def lookup (call : LookupCall) : ClientProcess Raw LookupReply :=
  match call.strategy with
  | .ipv4Only => client.lookupToExchange (call.task typeA)
  | .ipv6Only => client.lookupToExchange (call.task typeAAAA)
  | strategy => do
      let group ← issue (.startGroup (call.task typeA) (call.task typeAAAA))
      let results ← issue (.awaitGroup group)
      pure (LookupGroup.merge results strategy)

def body : ClientJob → ClientProcess Raw ClientExit
  | .exchange call => do
      let reply ← client.exchangeCall call
      pure (.reply reply)
  | .exchangeAsync call => client.exchangeAsync call
  | .lookup call => do
      let reply ← client.lookup call
      pure (.lookedUp reply)
  | .task group isIPv6 task => do
      let reply ← client.lookupToExchange task
      dispatch (.finishTask group isIPv6 reply)
      pure .ended
  | .refresh query => client.refresh query

def Reachable (start : Time) (pool : ClientPool Raw) :
    Prop :=
  PoolReaches client.shared client.body ClientJob.IsCall (.start start) pool

def replay (start : Time) (choices : List (PoolChoice ClientJob ClientEvent)) :
    Option (ClientPool Raw) :=
  (⟨[], .start start⟩ : ClientPool Raw).replay
    client.shared client.body choices

theorem exists_reachable (start : Time) (choices : List (PoolChoice ClientJob ClientEvent))
    (allowed : ∀ job, .arrive job ∈ choices → job.IsCall) {α : Type} (read : ClientPool Raw → α)
    {value : α} (computed : (client.replay start choices).map read = some value) :
    ∃ pool, client.Reachable start pool ∧ read pool = value := by
  obtain ⟨pool, replayed, isRead⟩ := Option.map_eq_some_iff.1 computed
  exact ⟨pool, Pool.replay_reaches allowed replayed, isRead⟩

/-! ### A sample client -/

def answering (dnsCache : Bool) (records : List RR) : Client Msg :=
  { Client.sample with
    dnsCache := dnsCache
    exchange := fun _ _ message =>
      .response { fixedResponseStatus message rcodeSuccess with answer := records } }

end Client

def sampleCall (qtype : UInt16) (options : DNSQueryOptions) (responseChecker : Option ResponseChecker) :
    Call where
  transport := ⟨"local", false⟩
  message := { Msg.zero with id := 7, question := [⟨"example.com.", qtype, classINET⟩] }
  options := options
  responseChecker := responseChecker
  contextTransport := none

def sampleAddress : RR := ⟨⟨"example.com.", typeA, classINET, 60⟩, .a [192, 0, 2, 1]⟩

def exchangeTwice (first second : Call) : List (PoolChoice ClientJob ClientEvent) :=
  .arrive (.exchange first) :: List.replicate 6 (.act 0 0) ++
    .arrive (.exchange second) :: List.replicate 5 (.act 1 0)

theorem exchangeTwice_isCall {first second : Call} {job : ClientJob}
    (arrives : .arrive job ∈ exchangeTwice first second) : job.IsCall := by
  simp only [exchangeTwice, List.cons_append, List.mem_cons, List.mem_append, List.mem_replicate,
    reduceCtorEq, and_false, false_or, or_false, PoolChoice.arrive.injEq] at arrives
  rcases arrives with rfl | rfl <;> trivial

end SideraCore.Dns
