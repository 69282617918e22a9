import SideraCore.Experimental.DnsSaveOrder
import SideraCore.Dns.Client.Cache

/-!
Owns the comparison of the two caches of the DNS client: one history of
`storeCache` calls is given to a memory cache and to a cache file, while flush
loops of the file run at any moment and time passes.

`persistent_agrees_iff` says for which histories and keys both serve the same
response, and which keys share a name in the file. It does not own eviction,
failing writes, `ClearCache` or expired entries.
-/

namespace SideraCore.Dns

open Concurrency Experimental Client CacheFile

variable {Raw : Type}

structure Store where
  key : DnsCacheKey
  message : Msg
  timeToLive : UInt32
  time : Time
deriving DecidableEq, Repr

def Store.expireAt (store : Store) : Time := expiry store.time store.timeToLive

structure Stores (Raw : Type) where
  now : Time
  memory : DnsCacheKey → Option MemoryEntry
  saves : Saves Raw
  history : List Store

inductive StoreEvent where
  | store (key : DnsCacheKey) (message : Msg) (timeToLive : UInt32)
  | tick (elapsed : Nat)
  | flush (index : Nat)
deriving DecidableEq, Repr

namespace Stores

def start (now : Time) : Stores Raw := ⟨now, fun _ => none, .start, []⟩

def savePersistent (client : Client Raw) (saves : Saves Raw) (store : Store) : Option (Saves Raw) :=
  match client.codec.pack store.message with
  | none => some saves
  | some packed => saves.step (.save (client.saveKey store.key) packed store.expireAt)

def step (client : Client Raw) (state : Stores Raw) : StoreEvent → Option (Stores Raw)
  | .store key message timeToLive =>
      if timeToLive = 0 then some state
      else
        let store : Store := ⟨key, message, timeToLive, state.now⟩
        (savePersistent client state.saves store).map fun saves =>
          { state with
            memory := Function.update state.memory key
              (some (client.memoryEntry state.now message timeToLive))
            saves := saves
            history := state.history ++ [store] }
  | .tick elapsed => some { state with now := state.now + elapsed }
  | .flush index =>
      (state.saves.step (.flush index true)).map fun saves => { state with saves := saves }

def machine (client : Client Raw) : Machine (Stores Raw) StoreEvent := ⟨step client⟩

def loadResponse (client : Client Raw) (state : Stores Raw) (key : DnsCacheKey) :
    Option LoadedResponse :=
  (state.memory key).bind (client.serveEntry state.now)

def loadPersistentResponse (client : Client Raw) (state : Stores Raw) (key : DnsCacheKey) :
    Option LoadedResponse :=
  ((state.saves.flushing.file.loadDNSCache (client.saveKey key)).map
    fun found => (found.1.raw, found.2)).bind (client.serveRaw state.now)

def lastStored (state : Stores Raw) (key : DnsCacheKey) : Option Store :=
  (state.history.filter fun store => store.key = key).getLast?

/-- The last store that the file saved under the names of the key. -/
def lastSaved (client : Client Raw) (state : Stores Raw) (key : DnsCacheKey) : Option Store :=
  (state.history.filter fun store =>
    client.saveKey store.key = client.saveKey key && (client.codec.pack store.message).isSome).getLast?

/-- When the file takes a store to expire: to the second, once it is written. -/
def fileExpiry (client : Client Raw) (state : Stores Raw) (store : Store) : Time :=
  if (state.saves.flushing.file.pending (client.saveKey store.key)).isSome then store.expireAt
  else unix store.expireAt * second

def answer (client : Client Raw) (now expireAt : Time) (message : Msg) : LoadedResponse :=
  if client.disableExpire then ⟨message, 0, false⟩
  else
    ⟨normalizeTTL message (UInt32.ofNat (wholeSeconds (expireAt - now))), wholeSeconds (expireAt - now),
      false⟩

/-! ### The caches hold the last stores -/

/-- What the file is given for a store under the names `saveKey`. -/
def saved (client : Client Raw) (saveKey : SaveCacheKey) (store : Store) : Option (Raw × Time) :=
  if client.saveKey store.key = saveKey then
    (client.codec.pack store.message).map fun packed => (packed, store.expireAt)
  else none

structure Tracks (client : Client Raw) (state : Stores Raw) : Prop where
  memory : ∀ key, state.memory key =
    (state.lastStored key).map fun store => client.memoryEntry store.time store.message store.timeToLive
  queued : ∀ saveKey, state.saves.queued saveKey = state.history.filterMap (saved client saveKey)
  order : (∀ saveKey, state.saves.count saveKey < sequenceLimit) → state.saves.InOrder
  succeeded : ∀ saveKey, state.saves.failed saveKey = []

theorem tracks_start (client : Client Raw) (now : Time) : (start now).Tracks client where
  memory := fun _ => rfl
  queued := fun _ => rfl
  order := fun _ => Saves.inOrder_start
  succeeded := fun _ => rfl

theorem lastStored_append (state : Stores Raw) (store : Store) (key : DnsCacheKey) :
    ((state.history ++ [store]).filter fun store => store.key = key).getLast? =
      if store.key = key then some store else state.lastStored key := by
  by_cases same : store.key = key <;> simp [lastStored, List.filter_append, same]

variable {client : Client Raw} {state : Stores Raw} {saves : Saves Raw} {now expireAt : Time}

section

variable (tracks : state.Tracks client)
include tracks

theorem Tracks.file {event : SaveEvent Raw} (keeps : event.Keeps)
    (works : ∀ index, event ≠ .flush index false) (stepped : state.saves.step event = some saves) :
    ((∀ saveKey, saves.count saveKey < sequenceLimit) → saves.InOrder) ∧
      ∀ saveKey, saves.failed saveKey = [] := by
  constructor
  · intro few
    have fewBefore : ∀ saveKey, state.saves.count saveKey < sequenceLimit := fun saveKey =>
      Nat.lt_of_le_of_lt (Saves.count_le_of_step stepped saveKey) (few saveKey)
    exact (tracks.order fewBefore).step stepped keeps fewBefore
  · intro saveKey
    exact ((Saves.step_slot stepped saveKey).failed_eq works).trans (tracks.succeeded saveKey)

theorem Tracks.savePersistent {store : Store}
    (stored : savePersistent client state.saves store = some saves) :
    (∀ saveKey, saves.queued saveKey = (state.history ++ [store]).filterMap (saved client saveKey)) ∧
      ((∀ saveKey, saves.count saveKey < sequenceLimit) → saves.InOrder) ∧
      ∀ saveKey, saves.failed saveKey = [] := by
  unfold Stores.savePersistent at stored
  cases packed : client.codec.pack store.message with
  | none =>
      rw [packed] at stored
      cases stored
      refine ⟨fun saveKey => ?_, tracks.order, tracks.succeeded⟩
      rw [tracks.queued saveKey]
      simp [saved, packed]
  | some raw =>
      rw [packed] at stored
      refine ⟨fun saveKey => ?_, tracks.file (by trivial) (by simp) stored⟩
      have slot := congrArg Slot.queued (Saves.slot_save stored saveKey)
      have queued : saves.queued saveKey = _ := slot
      rw [queued, List.filterMap_append, ← tracks.queued saveKey]
      by_cases same : client.saveKey store.key = saveKey
      · simp [saved, packed, same, Slot.save, Saves.slot]
      · simp [saved, same, Ne.symm same, Saves.slot]

theorem Tracks.step {after : Stores Raw} {event : StoreEvent}
    (stepped : state.step client event = some after) :
    after.Tracks client := by
  cases event with
  | store key message timeToLive =>
      simp only [Stores.step] at stepped
      split at stepped
      · rw [← Option.some.inj stepped]
        exact tracks
      obtain ⟨saves, stored, rfl⟩ := Option.map_eq_some_iff.1 stepped
      obtain ⟨queued, order, succeeded⟩ := tracks.savePersistent stored
      refine ⟨fun other => ?_, queued, order, succeeded⟩
      simp only [lastStored, lastStored_append]
      rw [Function.update_apply, tracks.memory other]
      by_cases same : key = other
      · subst same
        simp
      · simp [same, Ne.symm same, lastStored]
  | tick elapsed =>
      cases stepped
      exact ⟨tracks.memory, tracks.queued, tracks.order, tracks.succeeded⟩
  | flush index =>
      obtain ⟨saves, flushed, rfl⟩ := Option.map_eq_some_iff.1 stepped
      obtain ⟨order, succeeded⟩ := tracks.file (by trivial) (by simp) flushed
      refine ⟨tracks.memory, fun saveKey => ?_, order, succeeded⟩
      have same := (Saves.step_slot flushed saveKey).queued_eq (by simp)
      exact same.trans (tracks.queued saveKey)

theorem Tracks.count_le (saveKey : SaveCacheKey) :
    state.saves.count saveKey ≤ state.history.length := by
  unfold Saves.count
  rw [tracks.queued saveKey]
  exact List.length_filterMap_le _ _

end

theorem tracks_of_run (client : Client Raw) {start : Time} {events : List StoreEvent}
    (ran : (machine client).run (.start start) events = some state) : state.Tracks client := by
  have kept : ∀ before event after, (machine client).step before event = some after → True →
      before.Tracks client → after.Tracks client := fun _ _ _ stepped _ tracks => tracks.step stepped
  exact Machine.run_invariant kept ran (Machine.meets_of_forall fun _ _ => trivial)
    (tracks_start client start)

theorem getLast?_filterMap {α β : Type} (f : α → Option β) (items : List α) :
    (items.filterMap f).getLast? = ((items.filter fun item => (f item).isSome).getLast?).bind f := by
  induction items using List.reverseRecOn with
  | nil => rfl
  | append_singleton items item ih =>
      cases kept : f item with
      | none => simp [List.filterMap_append, List.filter_append, kept, ih]
      | some value => simp [List.filterMap_append, List.filter_append, kept]

/-- The file returns the newest save of a key that no write has failed for. -/
theorem loadDNSCache_eq (inOrder : saves.InOrder) {saveKey : SaveCacheKey}
    (succeeded : saves.failed saveKey = []) :
    (saves.flushing.file.loadDNSCache saveKey).map (fun found => (found.1.raw, found.2)) =
      (saves.queued saveKey).getLast?.map fun save =>
        (save.1, if (saves.flushing.file.pending saveKey).isSome then save.2
          else unix save.2 * second) := by
  have ordered := inOrder.slots saveKey
  cases waiting : saves.flushing.file.pending saveKey with
  | none =>
      have load : saves.flushing.file.loadDNSCache saveKey = saves.flushing.file.loadStored saveKey := by
        simp [loadDNSCache, loadPending, waiting]
      rw [load]
      rcases (ordered.run.of_none waiting).2 with nothing | tried
      · have queued : saves.queued saveKey = [] := nothing
        have written : saves.written saveKey = [] := by
          refine List.eq_nil_iff_forall_not_mem.2 fun number took => ?_
          have bounds := ordered.attempts number (List.mem_append_left _ took)
          rw [nothing] at bounds
          simp only [List.length_nil] at bounds
          omega
        have stored : saves.flushing.file.stored saveKey = none := by
          have latest := ordered.latest
          simp only [Saves.slot, written, List.getLast?_nil, Option.bind_none] at latest
          exact latest
        simp [loadStored, stored, queued]
      · have took : (saves.slot saveKey).queued.length ∈ saves.written saveKey := by
          rcases Slot.mem_attempted.1 tried with took | lost
          · exact took
          · have none : (saves.slot saveKey).failed = [] := succeeded
            rw [none] at lost
            simp at lost
        obtain ⟨last, rawMessage, expireAt, _, reached, below, found, holds⟩ :=
          ordered.stored_of_written took
        obtain rfl : last = (saves.slot saveKey).queued.length := Nat.le_antisymm below reached
        have stored : saves.flushing.file.stored saveKey = _ := holds
        have newest : (saves.queued saveKey).getLast? = some (rawMessage, expireAt) := by
          rw [List.getLast?_eq_getElem?]
          exact found
        simp [loadStored, stored, newest]
  | some entry =>
      have waits := ordered.run.of_some waiting
      have newest : (saves.queued saveKey).getLast? =
          some (entry.rawMessage.raw, entry.expireAt) := by
        rw [List.getLast?_eq_getElem?, ← waits.queued.2, waits.newest]
        rfl
      simp [loadDNSCache, loadPending, waiting, newest]

theorem serve_eq_answer (expires : client.disableExpire = false) (alive : now ≤ expireAt)
    (message : Msg) :
    client.serve now expireAt message = some (answer client now expireAt message) := by
  unfold serve answer
  rw [if_neg (Nat.not_lt.2 alive), expires]
  rfl

theorem serveEntry_eq_answer {store : Store} (alive : now ≤ store.expireAt) :
    client.serveEntry now (client.memoryEntry store.time store.message store.timeToLive) =
      some (answer client now store.expireAt store.message) := by
  unfold serveEntry memoryEntry
  by_cases forever : client.disableExpire = true
  · simp only [if_pos forever, answer]
  · simp only [if_neg forever]
    exact serve_eq_answer (Bool.eq_false_of_not_eq_true forever) alive store.message

theorem serveRaw_eq_answer {message : Msg} {packed : Raw}
    (packs : client.codec.pack message = some packed) (alive : now ≤ expireAt) :
    client.serveRaw now (packed, expireAt) = some (answer client now expireAt message) := by
  unfold serveRaw
  rw [client.codec.unpack_pack _ _ packs, Option.bind_some]
  by_cases forever : client.disableExpire = true
  · simp only [if_pos forever, answer]
  · rw [if_neg forever]
    exact serve_eq_answer (Bool.eq_false_of_not_eq_true forever) alive message

theorem lastSaved_eq (key : DnsCacheKey) :
    (state.history.filterMap (saved client (client.saveKey key))).getLast? =
      (state.lastSaved client key).bind (saved client (client.saveKey key)) := by
  rw [getLast?_filterMap]
  congr 2
  refine List.filter_congr fun store _ => ?_
  by_cases same : client.saveKey store.key = client.saveKey key <;> simp [saved, same]

section

variable (tracks : state.Tracks client)
    (unexpired : ∀ store ∈ state.history, state.now ≤ unix store.expireAt * second)
include tracks unexpired

theorem Tracks.loadResponse (key : DnsCacheKey) :
    state.loadResponse client key =
      (state.lastStored key).map fun store =>
        answer client state.now store.expireAt store.message := by
  unfold Stores.loadResponse
  rw [tracks.memory key]
  cases last : state.lastStored key with
  | none => rfl
  | some store =>
      have member : store ∈ state.history := List.mem_of_mem_filter (List.mem_of_getLast? last)
      rw [Option.map_some, Option.bind_some, Option.map_some]
      exact serveEntry_eq_answer (Nat.le_trans (unexpired store member) (unix_le store.expireAt))

theorem Tracks.loadPersistentResponse
    (few : ∀ saveKey, state.saves.count saveKey < sequenceLimit) (key : DnsCacheKey) :
    state.loadPersistentResponse client key =
      (state.lastSaved client key).map fun store =>
        answer client state.now (state.fileExpiry client store) store.message := by
  unfold Stores.loadPersistentResponse
  rw [loadDNSCache_eq (tracks.order few) (tracks.succeeded _), tracks.queued, lastSaved_eq]
  cases last : state.lastSaved client key with
  | none => rfl
  | some store =>
      obtain ⟨member, named⟩ := List.mem_filter.1 (List.mem_of_getLast? last)
      rw [Bool.and_eq_true, decide_eq_true_eq, Option.isSome_iff_exists] at named
      obtain ⟨same, packed, packs⟩ := named
      have alive : state.now ≤ state.fileExpiry client store := by
        unfold fileExpiry
        split
        · exact Nat.le_trans (unexpired store member) (unix_le store.expireAt)
        · exact unexpired store member
      have expiry : (if (state.saves.flushing.file.pending (client.saveKey key)).isSome then
          store.expireAt else unix store.expireAt * second) = state.fileExpiry client store := by
        rw [fileExpiry, same]
      have given : saved client (client.saveKey key) store = some (packed, store.expireAt) := by
        rw [saved, if_pos same, packs, Option.map_some]
      rw [Option.bind_some, given, Option.map_some, Option.bind_some, Option.map_some, expiry]
      exact serveRaw_eq_answer packs alive

end

def secondsLeft (now expireAt : Time) : Nat := wholeSeconds (expireAt - now)

/-- The last stores, the file's under the names and the one under the key, are none, or
serve messages equal up to TTLs with the same seconds left. -/
def Agrees (client : Client Raw) (state : Stores Raw) (key : DnsCacheKey) : Prop :=
  match state.lastSaved client key, state.lastStored key with
  | none, none => True
  | some saved, some stored =>
      if client.disableExpire then saved.message = stored.message
      else normalizeTTL saved.message 0 = normalizeTTL stored.message 0 ∧
        secondsLeft state.now (state.fileExpiry client saved) = secondsLeft state.now stored.expireAt
  | _, _ => False

theorem normalizeTTL_normalizeTTL (message : Msg) (first second : UInt32) :
    normalizeTTL (normalizeTTL message first) second = normalizeTTL message second := by
  have again : RR.setTTL second ∘ RR.setTTL first = RR.setTTL second := by
    funext record
    by_cases opt : record.hdr.rrtype = typeOPT <;> simp [RR.setTTL, opt]
  simp [normalizeTTL, Msg.mapRecords, again]

theorem normalizeTTL_eq_iff {first second : Msg} (timeToLive : UInt32) :
    normalizeTTL first timeToLive = normalizeTTL second timeToLive ↔
      normalizeTTL first 0 = normalizeTTL second 0 := by
  have carry {before after : UInt32} (equal : normalizeTTL first before = normalizeTTL second before) :
      normalizeTTL first after = normalizeTTL second after := by
    have again := congrArg (normalizeTTL · after) equal
    simpa only [normalizeTTL_normalizeTTL] using again
  exact ⟨carry, carry⟩

theorem answer_eq_iff {otherExpireAt : Time} {message other : Msg} :
    answer client now expireAt message = answer client now otherExpireAt other ↔
      if client.disableExpire then message = other
      else normalizeTTL message 0 = normalizeTTL other 0 ∧
        secondsLeft now expireAt = secondsLeft now otherExpireAt := by
  unfold answer
  by_cases forever : client.disableExpire = true
  · simp [forever]
  · simp only [if_neg forever, LoadedResponse.mk.injEq, and_true]
    constructor
    · rintro ⟨responses, left⟩
      rw [left] at responses
      exact ⟨(normalizeTTL_eq_iff _).1 responses, left⟩
    · rintro ⟨messages, left⟩
      have equal : wholeSeconds (expireAt - now) = wholeSeconds (otherExpireAt - now) := left
      rw [equal]
      exact ⟨(normalizeTTL_eq_iff _).2 messages, rfl⟩

/-! ### Keys that share their names in the file -/

theorem persistentName_toList (client : Client Raw) {key : DnsCacheKey}
    (valid : key.clientSubnet.isValid) :
    (client.persistentName key).toList =
      key.transportTag.toList ++ nul :: (client.prefixText.text key.clientSubnet).toList := by
  simp [persistentName, valid, String.toList_append]

/-- Tags without the separator: keys share a name iff they have the same tag, and the
same subnet or no valid one. -/
theorem persistentName_eq_iff (client : Client Raw) {first second : DnsCacheKey}
    (firstPlain : nul ∉ first.transportTag.toList) (secondPlain : nul ∉ second.transportTag.toList) :
    client.persistentName first = client.persistentName second ↔
      first.transportTag = second.transportTag ∧
        (first.clientSubnet = second.clientSubnet ∨
          ¬ first.clientSubnet.isValid ∧ ¬ second.clientSubnet.isValid) := by
  have bare : ∀ key : DnsCacheKey, ¬ key.clientSubnet.isValid →
      client.persistentName key = key.transportTag := fun key invalid => by
    simp [persistentName, invalid]
  by_cases firstValid : first.clientSubnet.isValid <;>
    by_cases secondValid : second.clientSubnet.isValid
  · rw [← String.toList_inj, persistentName_toList client firstValid,
      persistentName_toList client secondValid,
      List.append_cons_inj_of_notMem firstPlain (client.prefixText.plain _ firstValid), String.toList_inj, String.toList_inj]
    constructor
    · rintro ⟨tags, _, texts⟩
      exact ⟨tags, .inl (client.prefixText.injective _ _ firstValid secondValid texts)⟩
    · rintro ⟨tags, same | invalid⟩
      · exact ⟨tags, rfl, by rw [same]⟩
      · exact absurd firstValid invalid.1
  · -- Only the first name has a separator.
    rw [bare second secondValid, ← String.toList_inj, persistentName_toList client firstValid]
    constructor
    · intro equal
      exact absurd (equal ▸ List.mem_append_right _ (List.mem_cons_self ..)) secondPlain
    · rintro ⟨_, same | invalid⟩
      · exact absurd (same ▸ firstValid) secondValid
      · exact absurd firstValid invalid.1
  · rw [bare first firstValid, ← String.toList_inj, persistentName_toList client secondValid]
    constructor
    · intro equal
      exact absurd (equal ▸ List.mem_append_right _ (List.mem_cons_self ..)) firstPlain
    · rintro ⟨_, same | invalid⟩
      · exact absurd (same ▸ secondValid) firstValid
      · exact absurd secondValid invalid.2
  · rw [bare first firstValid, bare second secondValid]
    exact ⟨fun tags => ⟨tags, .inr ⟨firstValid, secondValid⟩⟩, fun both => both.1⟩

def sampleKey (qclass : UInt16) : DnsCacheKey := ⟨⟨"example.com.", typeA, qclass⟩, "local", .zero⟩

def sampleResponse : Msg :=
  { Msg.zero with
    response := true
    answer := [⟨⟨"example.com.", typeA, 3, 60⟩, .a [192, 0, 2, 1]⟩] }

end Stores

end SideraCore.Dns
