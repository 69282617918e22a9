import Mathlib

/-!
Owns the DNS part of the cache file: the map of entries waiting to be written,
the database bucket behind it, and the critical sections of
`LoadDNSCache`, `SaveDNSCacheAsync`, the flush loops and `ClearDNSCache`.

Raw messages are carried, never read, so their type is a parameter. The database is a
map that reads an absent bucket as an empty one; the eight bytes in front of a stored
message are the seconds they hold.
-/

namespace SideraCore.Experimental

/-- A point in time, in nanoseconds since the Unix epoch. -/
abbrev Time := Nat

def second : Nat := 1000000000

def unix (time : Time) : Nat := time / second

theorem unix_le (time : Time) : unix time * second ≤ time := by
  exact Nat.div_mul_le_self time second

structure SaveCacheKey where
  transportName : String
  questionName : String
  qType : UInt16
deriving DecidableEq, Repr

structure SaveDNSCacheEntry (Raw : Type) where
  rawMessage : Raw
  expireAt : Time
  sequence : UInt64
  saving : Bool
deriving DecidableEq, Repr

/-- The zero value, which Go reads from a map that misses the key. -/
def SaveDNSCacheEntry.next {Raw : Type} (entry : Option (SaveDNSCacheEntry Raw)) (rawMessage : Raw)
    (expireAt : Time) : SaveDNSCacheEntry Raw where
  rawMessage := rawMessage
  expireAt := expireAt
  sequence := (entry.elim 0 SaveDNSCacheEntry.sequence) + 1
  saving := true

/-- A value of the `dns_cache` bucket. -/
structure Content (Raw : Type) where
  expireUnix : Nat
  rawMessage : Raw
deriving DecidableEq, Repr

/-- Two bytes of type, then the name. -/
def questionKey (qName : String) (qType : UInt16) : List UInt8 :=
  (qType >>> 8).toUInt8 :: qType.toUInt8 :: qName.toByteArray.data.toList

theorem questionKey_inj {name otherName : String} {qType otherType : UInt16} :
    questionKey name qType = questionKey otherName otherType ↔
      name = otherName ∧ qType = otherType := by
  constructor
  · intro equal
    simp only [questionKey, List.cons.injEq, Array.toList_inj] at equal
    obtain ⟨high, low, bytes⟩ := equal
    refine ⟨String.toByteArray_inj.1 (ByteArray.ext bytes), ?_⟩
    have highByte := congrArg UInt8.toNat high
    have lowByte := congrArg UInt8.toNat low
    have bound := qType.toNat_lt
    have otherBound := otherType.toNat_lt
    simp only [UInt16.toNat_toUInt8] at lowByte
    apply UInt16.toNat_inj.1
    simp at highByte
    omega
  · rintro ⟨rfl, rfl⟩
    rfl

/-- The part of `CacheFile` that the DNS cache uses. -/
structure CacheFile (Raw : Type) where
  /-- The map `saveDNSCache` of entries waiting to be written. -/
  pending : SaveCacheKey → Option (SaveDNSCacheEntry Raw)
  /-- The bucket `dns_cache`, by transport name and question key. -/
  bucketDNSCache : String → List UInt8 → Option (Content Raw)

namespace CacheFile

variable {Raw : Type}

def empty : CacheFile Raw := ⟨fun _ => none, fun _ _ => none⟩

variable (file : CacheFile Raw) (key : SaveCacheKey)

def stored : Option (Content Raw) :=
  file.bucketDNSCache key.transportName (questionKey key.questionName key.qType)

def loadPending : Option (Raw × Time) :=
  (file.pending key).map fun entry => (entry.rawMessage, entry.expireAt)

def loadStored : Option (Raw × Time) :=
  (file.stored key).map fun content => (content.rawMessage, content.expireUnix * second)

/-- `LoadDNSCache`, when nothing happens between its two reads. -/
def loadDNSCache : Option (Raw × Time) :=
  (file.loadPending key).or (file.loadStored key)

def saveDNSCache (rawMessage : Raw) (expireAt : Time) :
    CacheFile Raw :=
  { file with
    bucketDNSCache := Function.update file.bucketDNSCache key.transportName
      (Function.update (file.bucketDNSCache key.transportName)
        (questionKey key.questionName key.qType) (some ⟨unix expireAt, rawMessage⟩)) }

/-- `queueDNSCacheSave`: whether a flush loop has to be started, and the file. -/
def queueDNSCacheSave (saveKey : SaveCacheKey) (rawMessage : Raw) (expireAt : Time) :
    Bool × CacheFile Raw :=
  let entry := file.pending saveKey
  (!(entry.elim false SaveDNSCacheEntry.saving),
    { file with
      pending := Function.update file.pending saveKey
        (some (SaveDNSCacheEntry.next entry rawMessage expireAt)) })

def clearPending : CacheFile Raw := { file with pending := fun _ => none }

def deleteBucket : CacheFile Raw :=
  { file with bucketDNSCache := fun _ _ => none }

@[simp] theorem saveDNSCache_pending (rawMessage : Raw) (expireAt : Time) :
    (file.saveDNSCache key rawMessage expireAt).pending = file.pending := rfl

theorem saveDNSCache_stored (other : SaveCacheKey) (rawMessage : Raw) (expireAt : Time) :
    (file.saveDNSCache key rawMessage expireAt).stored other =
      if other = key then some ⟨unix expireAt, rawMessage⟩ else file.stored other := by
  obtain ⟨name, question, qType⟩ := key
  obtain ⟨otherName, otherQuestion, otherType⟩ := other
  simp only [saveDNSCache, stored, Function.update_apply, SaveCacheKey.mk.injEq]
  by_cases sameTransport : otherName = name
  · subst sameTransport
    simp [Function.update_apply, questionKey_inj]
  · simp [sameTransport]

@[simp] theorem clearPending_pending :
    file.clearPending.pending key = none := rfl

@[simp] theorem deleteBucket_stored :
    file.deleteBucket.stored key = none := rfl

end CacheFile

/-- Before it reads the waiting entry, before it writes its copy, or before it compares
that copy with the waiting entry. -/
inductive FlushStage (Raw : Type) where
  | load
  | save (entry : SaveDNSCacheEntry Raw)
  | settle (entry : SaveDNSCacheEntry Raw)
deriving DecidableEq, Repr

/-- The next critical section of `flushPendingDNSCacheWith`, with whether the database
takes the write. -/
def flushPendingDNSCache {Raw : Type} (saveKey : SaveCacheKey) (succeeds : Bool)
    (file : CacheFile Raw) : FlushStage Raw → Option (FlushStage Raw) × CacheFile Raw
  | .load =>
      match file.pending saveKey with
      | none => (none, file)
      | some entry => (some (.save entry), file)
  | .save entry =>
      (some (.settle entry),
        if succeeds then file.saveDNSCache saveKey entry.rawMessage entry.expireAt else file)
  | .settle entry =>
      match file.pending saveKey with
      | none => (none, file)
      | some currentEntry =>
          if currentEntry.sequence ≠ entry.sequence then (some .load, file)
          else (none, { file with pending := Function.update file.pending saveKey none })

theorem flushPendingDNSCache_frame {Raw : Type} {saveKey key : SaveCacheKey} (different : key ≠ saveKey)
    (succeeds : Bool) (file : CacheFile Raw) (stage : FlushStage Raw) :
    (flushPendingDNSCache saveKey succeeds file stage).2.pending key = file.pending key ∧
      (flushPendingDNSCache saveKey succeeds file stage).2.stored key = file.stored key := by
  cases stage with
  | load => cases waiting : file.pending saveKey <;> simp [flushPendingDNSCache, waiting]
  | save entry =>
      cases succeeds <;> simp [flushPendingDNSCache, CacheFile.saveDNSCache_stored, different]
  | settle entry =>
      cases waiting : file.pending saveKey with
      | none => simp [flushPendingDNSCache, waiting]
      | some current =>
          by_cases equal : current.sequence = entry.sequence <;>
            simp [flushPendingDNSCache, waiting, equal, different, CacheFile.stored]

structure FlushLoop (Raw : Type) where
  saveKey : SaveCacheKey
  stage : FlushStage Raw
deriving DecidableEq, Repr

structure Flushing (Raw : Type) where
  file : CacheFile Raw
  loops : List (FlushLoop Raw)

namespace Flushing

variable {Raw : Type}

def empty : Flushing Raw := ⟨.empty, []⟩

def saveDNSCacheAsync (flushing : Flushing Raw) (saveKey : SaveCacheKey) (rawMessage : Raw)
    (expireAt : Time) : Flushing Raw :=
  let (startFlush, file) := flushing.file.queueDNSCacheSave saveKey rawMessage expireAt
  ⟨file, if startFlush then flushing.loops ++ [⟨saveKey, .load⟩] else flushing.loops⟩

def flush (flushing : Flushing Raw) (index : Nat) (succeeds : Bool) : Option (Flushing Raw) :=
  match flushing.loops[index]? with
  | none => none
  | some ⟨saveKey, stage⟩ =>
      let (next, file) := flushPendingDNSCache saveKey succeeds flushing.file stage
      some ⟨file, match next with
        | none => flushing.loops.eraseIdx index
        | some stage => flushing.loops.set index ⟨saveKey, stage⟩⟩

end Flushing

end SideraCore.Experimental
