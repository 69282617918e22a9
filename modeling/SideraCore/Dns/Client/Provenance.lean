import SideraCore.Dns.Client.Exchange
import SideraCore.Experimental.DnsSaved

/-!
Owns where the responses of the DNS client come from. In every reachable pool,
whatever lies in a cache was stored by some thread, after a transport had
answered it and the thread's checker had accepted it; and every response that a
call returned is synthetic, fresh from its transport, or served from such a
store (`Client.Explains`).
-/

namespace SideraCore.Dns

open Concurrency Experimental

def Call.Refused (call : Call) : Prop :=
  match call.message.question with
  | [] => True
  | question :: _ => strategyRejects question call.options.strategy = true

def ClientJob.calls : ClientJob → List Call
  | .exchange call => [call]
  | .exchangeAsync call => [call]
  | .lookup call =>
      match call.strategy with
      | .ipv4Only => [(call.task typeA).call]
      | .ipv6Only => [(call.task typeAAAA).call]
      | _ => [(call.task typeA).call, (call.task typeAAAA).call]
  | .task _ _ started => [started.call]
  | .refresh _ => []

/-- When a stored response expires; the database keeps whole seconds. -/
def StoreRecord.expireAt (record : StoreRecord) (isStored : Bool) : Time :=
  if isStored then unix (Client.expiry record.time record.timeToLive) * second
  else Client.expiry record.time record.timeToLive

@[simp] theorem StoreRecord.expireAt_false (record : StoreRecord) :
    record.expireAt false = Client.expiry record.time record.timeToLive := if_neg Bool.false_ne_true

@[simp] theorem StoreRecord.expireAt_true (record : StoreRecord) :
    record.expireAt true = unix (Client.expiry record.time record.timeToLive) * second := if_pos rfl

namespace Client

variable {Raw : Type} (client : Client Raw)

/-! ### Stores and answers -/

def query (call : Call) : Option Query :=
  call.message.question.head?.map fun question => (client.operation call question).query

/-- The queries whose answers a job may store. -/
def queries : ClientJob → List Query
  | .refresh query => [query]
  | job => job.calls.filterMap client.query

/-- What the client makes of the answer to an exchange, if it was made for the query. -/
def Answers (number : Nat) (query : Query) (response : Msg) : Prop :=
  match client.exchange number query.transport query.message with
  | .response message => response = stripDNSPadding message
  | .rcodeError rcode => response = fixedResponseStatus query.message rcode
  | .error => False

/-- One of the exchanges was made for the query and answered with the response. -/
def Answered (exchanges : List (DNSTransport × Msg)) (query : Query) (response : Msg) : Prop :=
  ∃ number, exchanges[number]? = some (query.transport, query.message) ∧
    client.Answers number query response

/-- An answer to the query, accepted by its checker and rewritten by its options. -/
structure Stored (exchanges : List (DNSTransport × Msg)) (query : Query) (key : DnsCacheKey)
    (message : Msg) (timeToLive : UInt32) : Prop where
  key : key = query.key
  lasts : timeToLive ≠ 0
  origin : ∃ response, client.Answered exchanges query response ∧
    rejects query.responseChecker response = false ∧ cacheableRcode response = true ∧
      applyResponseOptions query.key.question response query.options = (message, timeToLive)

/-- The keys lie in one place of the cache. -/
def Shares (first second : DnsCacheKey) : Prop :=
  if client.dnsCache then client.saveKey first = client.saveKey second else first = second

/-- A load for the key makes the hit out of the stored response. -/
structure Serves (key : DnsCacheKey) (record : StoreRecord) (hit : CacheHit) : Prop where
  key : client.Shares record.key key
  isStored : hit.isStored = true → client.dnsCache = true
  loaded :
    match hit.time with
    | none => client.disableExpire = true ∧ hit.loaded = ⟨record.message, 0, false⟩
    | some now =>
        client.disableExpire = false ∧ record.time ≤ now ∧
          client.serve now (record.expireAt hit.isStored) record.message = some hit.loaded

inductive Explains (call : Call) (exchanges : List (DNSTransport × Msg)) (history : List StoreRecord) :
    Answer → Prop
  | refused {rcode : Nat} (refused : call.Refused) :
      Explains call exchanges history ⟨fixedResponseStatus call.message rcode, .synthetic⟩
  | exchanged {query : Query} {response : Msg} (asked : client.query call = some query)
      (answered : client.Answered exchanges query response)
      (accepted : rejects query.responseChecker response = false) :
      Explains call exchanges history
        ⟨fitEdns query.message
          { (applyResponseOptions query.key.question response query.options).1 with
            id := query.message.id }, .exchanged⟩
  | cached {query : Query} {record : StoreRecord} {hit : CacheHit} {id : UInt16}
      (asked : client.query call = some query) (stored : record ∈ history)
      (served : client.Serves query.key record hit)
      (stale : hit.loaded.isStale = true → call.options.disableOptimisticCache = false) :
      Explains call exchanges history ⟨{ hit.loaded.response with id := id }, hit.source⟩

variable {client}

theorem serve_response {now expireAt : Time} {message : Msg} {loaded : LoadedResponse}
    (served : client.serve now expireAt message = some loaded) :
    ∃ timeToLive, loaded.response = normalizeTTL message timeToLive := by
  unfold serve at served
  split at served
  · split at served
    · exact ⟨1, by rw [← Option.some.inj served]⟩
    · simp at served
  · exact ⟨_, by rw [← Option.some.inj served]⟩

theorem Serves.response {key : DnsCacheKey} {record : StoreRecord} {hit : CacheHit}
    (serves : client.Serves key record hit) :
    hit.loaded.response = record.message ∨
      ∃ timeToLive, hit.loaded.response = normalizeTTL record.message timeToLive := by
  have loaded := serves.loaded
  split at loaded
  · exact .inl (by rw [loaded.2])
  · exact .inr (serve_response loaded.2.2)

/-! ### What the threads promise -/

structure Later (before after : ClientWorld Raw) : Prop where
  now : before.now ≤ after.now
  history : before.history <+: after.history
  exchanges : before.exchanges <+: after.exchanges
  groups : ∀ (index : Nat) (group : LookupGroup), before.groups[index]? = some group →
    ∃ later, after.groups[index]? = some later ∧ ∀ isIPv6, later.task isIPv6 = group.task isIPv6

section Mono

variable {before after : ClientWorld Raw} {query : Query} {response : Msg}

theorem Answered.mono (answered : client.Answered before.exchanges query response)
    (grows : before.exchanges <+: after.exchanges) : client.Answered after.exchanges query response := by
  obtain ⟨number, made, answers⟩ := answered
  obtain ⟨more, same⟩ := grows
  refine ⟨number, ?_, answers⟩
  rw [← same, List.getElem?_append_left (List.getElem?_eq_some_iff.1 made).1, made]

theorem Stored.mono {key : DnsCacheKey} {message : Msg} {timeToLive : UInt32}
    (stored : client.Stored before.exchanges query key message timeToLive)
    (grows : before.exchanges <+: after.exchanges) :
    client.Stored after.exchanges query key message timeToLive := by
  obtain ⟨response, answered, accepted⟩ := stored.origin
  exact ⟨stored.key, stored.lasts, response, answered.mono grows, accepted⟩

theorem Explains.mono {call : Call} {answer : Answer} (explains : client.Explains call before.exchanges before.history answer)
    (history : before.history <+: after.history) (exchanges : before.exchanges <+: after.exchanges) :
    client.Explains call after.exchanges after.history answer := by
  cases explains with
  | refused refused => exact .refused refused
  | exchanged asked answered accepted => exact .exchanged asked (answered.mono exchanges) accepted
  | cached asked stored served stale => exact .cached asked (history.subset stored) served stale

end Mono

variable (client)

/-- The cache file was given the message under a key with the name. -/
def Queued (world : ClientWorld Raw) (saveKey : SaveCacheKey) (rawMessage : Raw) (expireAt : Time) :
    Prop :=
  ∃ record ∈ world.history, client.saveKey record.key = saveKey ∧
    client.codec.pack record.message = some rawMessage ∧
      expireAt = expiry record.time record.timeToLive

/-- Every content of the caches and every result of a lookup has its origin. -/
structure Backed (world : ClientWorld Raw) : Prop where
  recorded : ∀ record ∈ world.history, record.time ≤ world.now
  memory : ∀ key entry, world.memory key = some entry →
    ∃ record ∈ world.history, record.key = key ∧
      entry = client.memoryEntry record.time record.message record.timeToLive
  file : world.flushing.Saved (client.Queued world)
  results : ∀ group ∈ world.groups, ∀ isIPv6 reply, group.result isIPv6 = some reply →
    ∀ answer ∈ reply.answers, client.Explains (group.task isIPv6).call world.exchanges world.history answer

/-- A thread stores nothing but answers to the queries of its job. -/
structure Grows (thread : Nat) (job : ClientJob) (before after : ClientWorld Raw) : Prop where
  later : Later before after
  backed : client.Backed before → client.Backed after
  recorded : ∀ record ∈ after.history, record ∈ before.history ∨
    record.thread = thread ∧
      ∃ query ∈ client.queries job,
        client.Stored after.exchanges query record.key record.message record.timeToLive

/-- When an action keeps the promise. -/
def Justified (job : ClientJob) : Requirement (clientSignature Raw) (ClientWorld Raw)
  | .memoryAdd key message timeToLive, world =>
      ∃ query ∈ client.queries job, client.Stored world.exchanges query key message timeToLive
  | .saveDNSCacheAsync key message packed timeToLive time, world =>
      (∃ query ∈ client.queries job, client.Stored world.exchanges query key message timeToLive) ∧
        client.codec.pack message = some packed ∧ time ≤ world.now
  | .finishTask group isIPv6 reply, world =>
      ∃ found, world.groups[group]? = some found ∧
        ∀ answer ∈ reply.answers, client.Explains (found.task isIPv6).call world.exchanges world.history answer
  | _, _ => True

def provenance : Discipline (clientSignature Raw) ClientJob ClientExit (ClientWorld Raw) where
  invariant := client.Backed
  guarantee := client.Grows
  unborn := fun _ _ => True
  starts := fun job world =>
    match job with
    | .task group isIPv6 task => ∃ found, world.groups[group]? = some found ∧ found.task isIPv6 = task
    | _ => True
  requires := fun _ job => client.Justified job
  post := fun _ job exit world =>
    ∀ answer ∈ exit.answers, ∃ call ∈ job.calls, client.Explains call world.exchanges world.history answer

variable {client}

namespace Later

theorem of_groups {before after : ClientWorld Raw} (now : before.now ≤ after.now)
    (history : before.history <+: after.history) (exchanges : before.exchanges <+: after.exchanges)
    (groups : after.groups = before.groups) : Later before after :=
  ⟨now, history, exchanges, fun _ group found => ⟨group, groups ▸ found, fun _ => rfl⟩⟩

end Later

namespace Backed

theorem start (now : Time) : client.Backed (.start now) where
  recorded := by simp [ClientWorld.start]
  memory := by simp [ClientWorld.start]
  file := .empty
  results := by simp [ClientWorld.start]

variable {before after : ClientWorld Raw}

theorem shrink (backed : client.Backed before) (now : before.now ≤ after.now)
    (history : after.history = before.history) (exchanges : before.exchanges <+: after.exchanges)
    (memory : ∀ key entry, after.memory key = some entry → before.memory key = some entry)
    (file : after.flushing.Saved (client.Queued before)) (groups : after.groups = before.groups) :
    client.Backed after where
  recorded := fun record member => (backed.recorded record (history ▸ member)).trans now
  memory := fun key entry found => history ▸ backed.memory key entry (memory key entry found)
  file := file.mono fun _ _ _ queued => by rw [Queued, history]; exact queued
  results := by
    intro group member isIPv6 reply done answer inside
    exact (backed.results group (groups ▸ member) isIPv6 reply done answer inside).mono
      (history ▸ List.prefix_refl _) exchanges

theorem record (backed : client.Backed before) {record : StoreRecord} (now : after.now = before.now)
    (time : record.time ≤ before.now) (history : after.history = before.history ++ [record])
    (exchanges : after.exchanges = before.exchanges)
    (memory : ∀ key entry, after.memory key = some entry → before.memory key = some entry ∨
      record.key = key ∧ entry = client.memoryEntry record.time record.message record.timeToLive)
    (file : after.flushing.Saved (client.Queued after)) (groups : after.groups = before.groups) :
    client.Backed after where
  recorded := by
    intro other member
    rw [history] at member
    rw [now]
    rcases List.mem_append.1 member with old | new
    · exact backed.recorded other old
    · exact List.mem_singleton.1 new ▸ time
  memory := by
    intro key entry found
    rw [history]
    rcases memory key entry found with old | ⟨same, entered⟩
    · obtain ⟨other, member, key, content⟩ := backed.memory key entry old
      exact ⟨other, List.mem_append_left _ member, key, content⟩
    · exact ⟨record, by simp, same, entered⟩
  file := file
  results := by
    have grows : before.history <+: after.history := history ▸ List.prefix_append _ _
    intro group member isIPv6 reply done answer inside
    exact (backed.results group (groups ▸ member) isIPv6 reply done answer inside).mono grows
      (exchanges ▸ List.prefix_refl _)

end Backed

section Environment

variable {before after : ClientWorld Raw} {event : ClientEvent}

section

variable (moved : before.interfere event = some after)
include moved

/-- The environment stores nothing, and time only passes. -/
theorem interfere_frame :
    after.history = before.history ∧ before.now ≤ after.now ∧ after.exchanges = before.exchanges ∧
      after.groups = before.groups := by
  cases event with
  | tick elapsed =>
      cases moved
      exact ⟨rfl, Nat.le_add_right _ _, rfl, rfl⟩
  | flush index succeeds =>
      obtain ⟨flushing, -, rfl⟩ := Option.map_eq_some_iff.1 moved
      exact ⟨rfl, le_rfl, rfl, rfl⟩
  | _ =>
      cases moved
      exact ⟨rfl, le_rfl, rfl, rfl⟩

theorem later_interfere : Later before after := by
  obtain ⟨history, now, exchanges, groups⟩ := interfere_frame moved
  exact .of_groups now (history ▸ List.prefix_refl _) (exchanges ▸ List.prefix_refl _) groups

theorem Backed.interfere (backed : client.Backed before) :
    client.Backed after := by
  obtain ⟨history, now, exchanges, groups⟩ := interfere_frame moved
  suffices caches : (∀ key entry, after.memory key = some entry → before.memory key = some entry) ∧
      after.flushing.Saved (client.Queued before) from
    backed.shrink now history (exchanges ▸ List.prefix_refl _) caches.1 caches.2 groups
  cases event with
  | evict key =>
      cases moved
      refine ⟨fun other entry found => ?_, backed.file⟩
      simp only [Function.update_apply] at found
      split at found
      · simp at found
      · exact found
  | purge =>
      cases moved
      exact ⟨fun _ _ found => by simp at found, backed.file⟩
  | flush index succeeds =>
      obtain ⟨flushing, flushed, rfl⟩ := Option.map_eq_some_iff.1 moved
      exact ⟨fun _ _ found => found, backed.file.flush flushed⟩
  | cleanup transportName questionKey =>
      cases moved
      refine ⟨fun _ _ found => found, backed.file.shrink (fun _ _ found => found) fun other content found => ?_⟩
      simp only [CacheFile.stored, Function.update_apply] at found ⊢
      split at found
      · rename_i same
        rw [Function.update_apply] at found
        split at found
        · simp at found
        · rwa [same]
      · exact found
  | clearPending =>
      cases moved
      exact ⟨fun _ _ found => found,
        backed.file.shrink (fun _ _ found => by simp at found) fun _ _ found => found⟩
  | deleteBucket =>
      cases moved
      exact ⟨fun _ _ found => found,
        backed.file.shrink (fun _ _ found => found) fun _ _ found => by simp at found⟩
  | _ =>
      cases moved
      exact ⟨fun _ _ found => found, backed.file⟩

end

end Environment

section Actions

variable {self : Nat} {job : ClientJob} {before after : ClientWorld Raw}

theorem Grows.of_history (now : after.now = before.now) (history : after.history = before.history)
    (exchanges : before.exchanges <+: after.exchanges)
    (memory : ∀ key entry, after.memory key = some entry → before.memory key = some entry)
    (flushing : after.flushing = before.flushing) (groups : after.groups = before.groups) :
    client.Grows self job before after where
  later := .of_groups now.ge (history ▸ List.prefix_refl _) exchanges groups
  backed := fun backed => backed.shrink now.ge history exchanges memory (flushing ▸ backed.file) groups
  recorded := fun _ member => .inl (history ▸ member)

theorem Grows.of_record {record : StoreRecord} (now : after.now = before.now)
    (thread : record.thread = self) (time : record.time ≤ before.now)
    (history : after.history = before.history ++ [record]) (exchanges : after.exchanges = before.exchanges)
    (memory : ∀ key entry, after.memory key = some entry → before.memory key = some entry ∨
      record.key = key ∧ entry = client.memoryEntry record.time record.message record.timeToLive)
    (file : client.Backed before → after.flushing.Saved (client.Queued after))
    (groups : after.groups = before.groups)
    (stored : ∃ query ∈ client.queries job,
      client.Stored before.exchanges query record.key record.message record.timeToLive) :
    client.Grows self job before after where
  later := .of_groups now.ge (history ▸ List.prefix_append _ _) (exchanges ▸ List.prefix_refl _) groups
  backed := fun backed => backed.record now time history exchanges memory (file backed) groups
  recorded := by
    intro other member
    rw [history] at member
    rcases List.mem_append.1 member with old | new
    · exact .inl old
    · exact .inr (List.mem_singleton.1 new ▸ ⟨thread, exchanges ▸ stored⟩)

variable {group : Nat} {isIPv6 : Bool} {reply : LookupReply} {action : ClientAction Raw}

theorem Backed.finishTask (backed : client.Backed before) {found : LookupGroup}
    (started : before.groups[group]? = some found) (explained : ∀ answer ∈ reply.answers,
      client.Explains (found.task isIPv6).call before.exchanges before.history answer) :
    client.Backed (before.finishTask group isIPv6 reply) where
  recorded := backed.recorded
  memory := backed.memory
  file := backed.file
  results := by
    intro other member family result done
    obtain ⟨index, position⟩ := List.mem_iff_getElem?.1 member
    simp only [ClientWorld.finishTask, List.getElem?_modify] at position
    obtain ⟨old, there, rfl⟩ := Option.map_eq_some_iff.1 position
    have results := backed.results old (List.mem_of_getElem? there) family
    split at done
    · rename_i same
      subst same
      cases started.symm.trans there
      simp only [if_true, LookupGroup.finish_task]
      rw [LookupGroup.finish_result] at done
      split at done
      · rename_i sameFamily
        cases done
        exact sameFamily ▸ explained
      · exact results result done
    · rename_i different
      simp only [different, if_false]
      exact results result done

theorem later_finishTask :
    Later before (before.finishTask group isIPv6 reply) where
  now := le_rfl
  history := List.prefix_refl _
  exchanges := List.prefix_refl _
  groups := by
    intro index found there
    simp only [ClientWorld.finishTask, List.getElem?_modify, there]
    refine ⟨_, rfl, fun family => ?_⟩
    by_cases same : group = index <;> simp [same]

variable {answer : (clientSignature Raw).Answer action}

/-- A justified action keeps the promise. -/
theorem grows_of_justified (justified : client.Justified job action before)
    (outcome : (answer, after) ∈ client.outcomes self before action) :
    client.Grows self job before after := by
  cases action with
  | loadOrStoreLock key =>
      obtain rfl : after = (before.loadOrStoreLock self key).2 :=
        (sole_outcome outcome).2
      unfold ClientWorld.loadOrStoreLock
      split <;> exact .of_history rfl rfl (List.prefix_refl _) (fun _ _ found => found) rfl rfl
  | deleteLock key =>
      obtain rfl : after = before.deleteLock self key :=
        (sole_outcome outcome).2
      unfold ClientWorld.deleteLock
      split <;> exact .of_history rfl rfl (List.prefix_refl _) (fun _ _ found => found) rfl rfl
  | awaitLock channel =>
      obtain ⟨rfl, -⟩ := mem_outcomes_awaitLock client |>.1 outcome
      exact .of_history rfl rfl (List.prefix_refl _) (fun _ _ found => found) rfl rfl
  | memoryRemove key =>
      obtain rfl := (sole_outcome outcome).2
      refine .of_history rfl rfl (List.prefix_refl _) (fun other entry found => ?_) rfl rfl
      simp only [Function.update_apply] at found
      split at found
      · simp at found
      · exact found
  | memoryAdd key message timeToLive =>
      obtain rfl := (sole_outcome outcome).2
      refine .of_record rfl rfl le_rfl rfl rfl (fun other entry found => ?_)
        (fun backed => backed.file.mono fun _ _ _ queued =>
          queued.imp fun _ found => ⟨List.mem_append_left _ found.1, found.2⟩) rfl justified
      simp only [Function.update_apply] at found
      split at found
      · rename_i same
        exact .inr ⟨same.symm, (Option.some.inj found).symm⟩
      · exact .inl found
  | saveDNSCacheAsync key message packed timeToLive time =>
      obtain rfl := (sole_outcome outcome).2
      obtain ⟨stored, encoded, read⟩ := justified
      refine .of_record rfl rfl read rfl rfl (fun _ _ found => .inl found) (fun backed => ?_) rfl stored
      refine Flushing.Saved.saveDNSCacheAsync (backed.file.mono fun _ _ _ queued =>
        queued.imp fun _ found => ⟨List.mem_append_left _ found.1, found.2⟩) ?_
      exact ⟨⟨self, key, message, timeToLive, time⟩, by simp, rfl, encoded, rfl⟩
  | startGroup exchange4 exchange6 =>
      obtain rfl := (sole_outcome outcome).2
      refine ⟨⟨le_rfl, List.prefix_refl _, List.prefix_refl _, fun index group found => ⟨group, ?_, fun _ => rfl⟩⟩,
        fun backed => ⟨backed.recorded, backed.memory, backed.file, fun group member => ?_⟩,
        fun _ member => .inl member⟩
      · exact (List.getElem?_append_left (List.getElem?_eq_some_iff.1 found).1).trans found
      · rcases List.mem_append.1 member with old | new
        · exact backed.results group old
        · rw [List.mem_singleton.1 new]
          intro isIPv6
          cases isIPv6 <;> simp [LookupGroup.result]
  | finishTask group isIPv6 reply =>
      obtain rfl := (sole_outcome outcome).2
      obtain ⟨found, started, explained⟩ := justified
      exact ⟨later_finishTask, fun backed => backed.finishTask started explained,
        fun _ member => .inl member⟩
  | awaitGroup group =>
      obtain ⟨rfl, -⟩ := mem_outcomes_awaitGroup client outcome
      exact .of_history rfl rfl (List.prefix_refl _) (fun _ _ found => found) rfl rfl
  | exchange transport message =>
      obtain rfl := (sole_outcome outcome).2
      exact .of_history rfl rfl (List.prefix_append _ _) (fun _ _ found => found) rfl rfl
  | _ =>
      obtain rfl := (sole_outcome outcome).2
      exact .of_history rfl rfl (List.prefix_refl _) (fun _ _ found => found) rfl rfl

theorem starts_of_outcome (outcome : (answer, after) ∈ client.outcomes self before action) :
    ∀ spawned ∈ spawns action answer, client.provenance.starts spawned after := by
  cases action with
  | startGroup exchange4 exchange6 =>
      obtain ⟨rfl, rfl⟩ := sole_outcome outcome
      simp [spawns, provenance, LookupGroup.task]
  | startRefresh query =>
      intro spawned member
      cases answer <;> simp [spawns] at member
      exact member ▸ trivial
  | goExchange call =>
      intro spawned member
      simp only [spawns, List.mem_singleton] at member
      exact member ▸ trivial
  | _ => simp [spawns]

end Actions

end Client

end SideraCore.Dns
