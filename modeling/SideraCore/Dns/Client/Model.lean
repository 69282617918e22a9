import SideraCore.Concurrency.Pool
import SideraCore.Dns.Client.Cache

/-!
Owns the DNS client as a pool of threads: `Exchange`, `ExchangeAsync` and
`Lookup` calls, the goroutines they start, and background refreshes, over the
caches, the locks and the transports they share.

Every access to shared state is one action. The flush loops of the cache file,
eviction, `ClearCache`, the clock and the cancellation of contexts are moves of
the environment. A context is cancelled for a whole thread. Logging is left out.
-/

namespace SideraCore.Dns

open Concurrency Experimental Function

abbrev ResponseChecker := Msg → Bool

/-- The arguments of `Exchange` and `ExchangeAsync`, with the transport of the context. -/
structure Call where
  transport : DNSTransport
  message : Msg
  options : DNSQueryOptions
  responseChecker : Option ResponseChecker
  contextTransport : Option String

structure LookupCall where
  transport : DNSTransport
  domain : String
  options : DNSQueryOptions
  responseChecker : Option ResponseChecker
  contextTransport : Option String

structure LookupTask where
  transport : DNSTransport
  name : String
  qType : UInt16
  options : DNSQueryOptions
  responseChecker : Option ResponseChecker
  contextTransport : Option String

/-- A cacheable question to a transport: its key, the prepared message, and what the
answer is checked and rewritten with. -/
structure Query where
  transport : DNSTransport
  key : DnsCacheKey
  message : Msg
  options : DNSQueryOptions
  responseChecker : Option ResponseChecker

/-- A call, one of the two tasks of a lookup, or a background refresh. -/
inductive ClientJob where
  | exchange (call : Call)
  | exchangeAsync (call : Call)
  | lookup (call : LookupCall)
  | task (group : Nat) (isIPv6 : Bool) (task : LookupTask)
  | refresh (query : Query)

def ClientJob.IsCall : ClientJob → Prop
  | .exchange _ => True
  | .exchangeAsync _ => True
  | .lookup _ => True
  | .task .. => False
  | .refresh _ => False

inductive ExchangeError where
  | context
  | loopback (transport : String)
  | responseRejectedCached
  | responseRejected
  | transport
  | rcode (code : Nat)
deriving DecidableEq, Repr

/-- Where a response comes from. A cached one may be stale or from the database, and was
served at a reading of the clock unless entries do not expire. -/
inductive Source where
  | synthetic
  | cached (isStale isStored : Bool) (time : Option Time)
  | exchanged
deriving DecidableEq, Repr

structure Answer where
  response : Msg
  source : Source
deriving DecidableEq, Repr

structure Reply where
  answer : Option Answer
  error : Option ExchangeError
deriving DecidableEq, Repr

/-- The result of `lookupToExchange` and `Lookup`, with the responses behind it. -/
structure LookupReply where
  addresses : List Addr
  error : Option ExchangeError
  answers : List Answer
deriving DecidableEq, Repr

/-- How a thread ends. `ExchangeAsync` may leave its call to a new goroutine. -/
inductive ClientExit where
  | reply (reply : Reply)
  | deferred
  | lookedUp (reply : LookupReply)
  | ended
deriving DecidableEq, Repr

def ClientExit.answers : ClientExit → List Answer
  | .reply result => if result.error.isNone then result.answer.toList else []
  | .lookedUp result => result.answers
  | .deferred => []
  | .ended => []

/-! ### The shared state -/

/-- A channel of `cacheLock`: who made it, removed its entry and closed it. -/
structure Channel where
  key : DnsCacheKey
  opener : Nat
  removals : List Nat
  closings : List Nat
deriving DecidableEq, Repr

/-- A response that was stored: by which thread, under which key, and when. -/
structure StoreRecord where
  thread : Nat
  key : DnsCacheKey
  message : Msg
  timeToLive : UInt32
  time : Time
deriving DecidableEq, Repr

structure LookupGroup where
  task4 : LookupTask
  task6 : LookupTask
  exchange4 : Option LookupReply
  exchange6 : Option LookupReply

namespace LookupGroup

variable (group : LookupGroup) (isIPv6 : Bool)

def task : LookupTask := if isIPv6 then group.task6 else group.task4

def result : Option LookupReply :=
  if isIPv6 then group.exchange6 else group.exchange4

def finish (reply : LookupReply) : LookupGroup :=
  if isIPv6 then { group with exchange6 := some reply } else { group with exchange4 := some reply }

@[simp] theorem finish_task (other : Bool) (reply : LookupReply) :
    (group.finish isIPv6 reply).task other = group.task other := by
  cases isIPv6 <;> rfl

theorem finish_result (other : Bool) (reply : LookupReply) :
    (group.finish isIPv6 reply).result other = if other = isIPv6 then some reply else group.result other := by
  cases isIPv6 <;> cases other <;> rfl

end LookupGroup

/-- The shared state. Only the length of `exchanges` is read, and `history` by no
action. -/
structure ClientWorld (Raw : Type) where
  now : Time
  memory : DnsCacheKey → Option MemoryEntry
  flushing : Flushing Raw
  cacheLock : DnsCacheKey → Option Nat
  channels : List Channel
  backgroundRefresh : DnsCacheKey → Bool
  rejected : String → String → UInt16 → Bool
  exchanges : List (DNSTransport × Msg)
  groups : List LookupGroup
  cancelled : Nat → Bool
  history : List StoreRecord

def ClientWorld.start {Raw : Type} (now : Time) : ClientWorld Raw where
  now := now
  memory := fun _ => none
  flushing := .empty
  cacheLock := fun _ => none
  channels := []
  backgroundRefresh := fun _ => false
  rejected := fun _ _ _ => false
  exchanges := []
  groups := []
  cancelled := fun _ => false
  history := []

inductive ClientAction (Raw : Type) where
  | loadOrStoreLock (key : DnsCacheKey)
  | awaitLock (channel : Nat)
  | deleteLock (key : DnsCacheKey)
  | closeLock (channel : Nat)
  | timeNow
  | memoryGet (key : DnsCacheKey)
  | memoryRemove (key : DnsCacheKey)
  | memoryAdd (key : DnsCacheKey) (message : Msg) (timeToLive : UInt32)
  | loadPending (saveKey : SaveCacheKey)
  | loadStored (saveKey : SaveCacheKey)
  | saveDNSCacheAsync (key : DnsCacheKey) (message : Msg) (packed : Raw) (timeToLive : UInt32)
      (time : Time)
  | startRefresh (query : Query)
  | endRefresh (key : DnsCacheKey)
  | loadRDRC (transportTag name : String) (qType : UInt16)
  | saveRDRC (transportTag name : String) (qType : UInt16)
  | exchange (transport : DNSTransport) (message : Msg)
  | goExchange (call : Call)
  | startGroup (exchange4 exchange6 : LookupTask)
  | finishTask (group : Nat) (isIPv6 : Bool) (reply : LookupReply)
  | awaitGroup (group : Nat)

/-- A channel and whether it was there, whether a wait was signalled or cancelled,
whether a refresh was running. -/
def clientSignature (Raw : Type) : Signature where
  Action := ClientAction Raw
  Answer
    | .loadOrStoreLock _ => Nat × Bool
    | .awaitLock _ => Bool
    | .deleteLock _ => Unit
    | .closeLock _ => Unit
    | .timeNow => Time
    | .memoryGet _ => Option MemoryEntry
    | .memoryRemove _ => Unit
    | .memoryAdd .. => Unit
    | .loadPending _ => Option (Raw × Time)
    | .loadStored _ => Option (Raw × Time)
    | .saveDNSCacheAsync .. => Unit
    | .startRefresh _ => Bool
    | .endRefresh _ => Unit
    | .loadRDRC .. => Bool
    | .saveRDRC .. => Unit
    | .exchange .. => TransportOutcome
    | .goExchange _ => Unit
    | .startGroup .. => Nat
    | .finishTask .. => Unit
    | .awaitGroup _ => LookupGroup

abbrev ClientProcess (Raw : Type) := Process (clientSignature Raw)

abbrev ClientThread (Raw : Type) := Thread (clientSignature Raw) ClientJob ClientExit

abbrev ClientPool (Raw : Type) := Pool (clientSignature Raw) ClientJob ClientExit (ClientWorld Raw)

variable {Raw : Type}

def issue (action : ClientAction Raw) : ClientProcess Raw ((clientSignature Raw).Answer action) :=
  Process.perform (S := clientSignature Raw) action

def dispatch (action : ClientAction Raw) : ClientProcess Raw Unit := .act action fun _ => .done ()

@[simp] theorem issue_bind {α : Type} (action : ClientAction Raw)
    (next : (clientSignature Raw).Answer action → ClientProcess Raw α) :
    (issue action >>= next) = .act action next := rfl

namespace ClientWorld

variable (world : ClientWorld Raw) (self : Nat)

def loadOrStoreLock (key : DnsCacheKey) :
    (Nat × Bool) × ClientWorld Raw :=
  match world.cacheLock key with
  | some channel => ((channel, true), world)
  | none =>
      ((world.channels.length, false),
        { world with
          cacheLock := update world.cacheLock key (some world.channels.length)
          channels := world.channels ++ [⟨key, self, [], []⟩] })

def deleteLock (key : DnsCacheKey) : ClientWorld Raw :=
  match world.cacheLock key with
  | none => world
  | some channel =>
      { world with
        cacheLock := update world.cacheLock key none
        channels := world.channels.modify channel fun it => { it with removals := it.removals ++ [self] } }

def closeLock (channel : Nat) : ClientWorld Raw :=
  { world with
    channels := world.channels.modify channel fun it => { it with closings := it.closings ++ [self] } }

def isClosed (channel : Nat) : Bool :=
  (world.channels[channel]?).any fun it => !it.closings.isEmpty

def finishTask (group : Nat) (isIPv6 : Bool) (reply : LookupReply) :
    ClientWorld Raw :=
  { world with groups := world.groups.modify group fun it => it.finish isIPv6 reply }

end ClientWorld

namespace Client

variable (client : Client Raw)

/-- A wait blocks until its channel is closed, its group has both results, or the
context is cancelled. -/
def outcomes (self : Nat) (world : ClientWorld Raw) :
    (action : ClientAction Raw) → List ((clientSignature Raw).Answer action × ClientWorld Raw)
  | .loadOrStoreLock key => [world.loadOrStoreLock self key]
  | .awaitLock channel =>
      (if world.isClosed channel then [(true, world)] else []) ++
        if world.cancelled self then [(false, world)] else []
  | .deleteLock key => [((), world.deleteLock self key)]
  | .closeLock channel => [((), world.closeLock self channel)]
  | .timeNow => [(world.now, world)]
  | .memoryGet key => [(world.memory key, world)]
  | .memoryRemove key => [((), { world with memory := update world.memory key none })]
  | .memoryAdd key message timeToLive =>
      [((), { world with
        memory := update world.memory key
          (some (client.memoryEntry world.now message timeToLive))
        history := world.history ++ [⟨self, key, message, timeToLive, world.now⟩] })]
  | .loadPending saveKey => [(world.flushing.file.loadPending saveKey, world)]
  | .loadStored saveKey => [(world.flushing.file.loadStored saveKey, world)]
  | .saveDNSCacheAsync key message packed timeToLive time =>
      [((), { world with
        flushing := world.flushing.saveDNSCacheAsync (client.saveKey key) packed
          (expiry time timeToLive)
        history := world.history ++ [⟨self, key, message, timeToLive, time⟩] })]
  | .startRefresh query =>
      [(world.backgroundRefresh query.key, { world with
        backgroundRefresh := update world.backgroundRefresh query.key true })]
  | .endRefresh key =>
      [((), { world with backgroundRefresh := update world.backgroundRefresh key false })]
  | .loadRDRC transportTag name qType => [(world.rejected transportTag name qType, world)]
  | .saveRDRC transportTag name qType =>
      [((), { world with
        rejected := fun tag question type =>
          tag = transportTag && question = name && type = qType || world.rejected tag question type })]
  | .exchange transport message =>
      [(client.exchange world.exchanges.length transport message,
        { world with exchanges := world.exchanges ++ [(transport, message)] })]
  | .goExchange _ => [((), world)]
  | .startGroup exchange4 exchange6 =>
      [(world.groups.length,
        { world with groups := world.groups ++ [⟨exchange4, exchange6, none, none⟩] })]
  | .finishTask group isIPv6 reply => [((), world.finishTask group isIPv6 reply)]
  | .awaitGroup group =>
      match world.groups[group]? with
      | none => []
      | some results =>
          if results.exchange4.isSome && results.exchange6.isSome || world.cancelled self then
            [(results, world)]
          else []

variable {self : Nat} {before after : ClientWorld Raw}

theorem mem_outcomes_awaitLock {channel : Nat} {signalled : Bool} :
    (signalled, after) ∈ client.outcomes self before (.awaitLock channel) ↔
      after = before ∧
        (before.isClosed channel = true ∧ signalled = true ∨
          before.cancelled self = true ∧ signalled = false) := by
  show (signalled, after) ∈ ((if before.isClosed channel then [(true, before)] else []) ++
    if before.cancelled self then [(false, before)] else [] : List (Bool × ClientWorld Raw)) ↔ _
  simp only [List.mem_append, List.mem_ite_nil_right, List.mem_singleton, Prod.mk.injEq]
  tauto

theorem mem_outcomes_awaitGroup {group : Nat} {results : LookupGroup}
    (outcome : (results, after) ∈ client.outcomes self before (.awaitGroup group)) :
    after = before ∧ before.groups[group]? = some results := by
  simp only [outcomes] at outcome
  split at outcome
  · exact absurd outcome List.not_mem_nil
  · rename_i found there
    split at outcome
    · cases List.mem_singleton.1 outcome
      exact ⟨rfl, there⟩
    · exact absurd outcome List.not_mem_nil

def spawns : (action : ClientAction Raw) → (clientSignature Raw).Answer action → List ClientJob
  | .startRefresh query, (loaded : Bool) => if loaded then [] else [.refresh query]
  | .goExchange call, _ => [.exchange call]
  | .startGroup exchange4 exchange6, (group : Nat) =>
      [.task group false exchange4, .task group true exchange6]
  | _, _ => []

end Client

/-- Time passes, entries leave the caches, flush loops run, contexts are cancelled,
rejections are forgotten. `ClearCache` is `purge`, `clearPending` and `deleteBucket`. -/
inductive ClientEvent where
  | tick (elapsed : Nat)
  | evict (key : DnsCacheKey)
  | purge
  | flush (index : Nat) (succeeds : Bool)
  | cleanup (transportName : String) (questionKey : List UInt8)
  | clearPending
  | deleteBucket
  | cancel (thread : Nat)
  | forgetRDRC
deriving DecidableEq, Repr

def ClientWorld.interfere (world : ClientWorld Raw) : ClientEvent → Option (ClientWorld Raw)
  | .tick elapsed => some { world with now := world.now + elapsed }
  | .evict key => some { world with memory := update world.memory key none }
  | .purge => some { world with memory := fun _ => none }
  | .flush index succeeds =>
      (world.flushing.flush index succeeds).map fun flushing => { world with flushing := flushing }
  | .cleanup transportName questionKey =>
      some { world with
        flushing := { world.flushing with
          file := { world.flushing.file with
            bucketDNSCache := update world.flushing.file.bucketDNSCache transportName
              (update (world.flushing.file.bucketDNSCache transportName) questionKey none) } } }
  | .clearPending =>
      some { world with
        flushing := { world.flushing with file := world.flushing.file.clearPending } }
  | .deleteBucket =>
      some { world with
        flushing := { world.flushing with file := world.flushing.file.deleteBucket } }
  | .cancel thread => some { world with cancelled := update world.cancelled thread true }
  | .forgetRDRC => some { world with rejected := fun _ _ _ => false }

def Client.shared (client : Client Raw) :
    Shared (clientSignature Raw) ClientJob (ClientWorld Raw) ClientEvent where
  outcomes := client.outcomes
  spawns := Client.spawns
  interfere := fun event world => world.interfere event

end SideraCore.Dns
