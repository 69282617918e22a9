import SideraCore.Dns.FakeIP.Store

/-!
Owns the FakeIP storage in the cache file (`experimental/cachefile/fakeip.go`):
the three buckets of the database, its transactions, and the timer that saves
the metadata.

A transaction whose function returns an error is rolled back. The metadata stands in
the bucket of the addresses, under a key of fifteen bytes. The maps of
`FakeIPStoreAsync` are left out: nothing calls it.
-/

namespace SideraCore.Experimental

open Dns Dns.FakeIP Function

def maxKeySize : Nat := 32768

def checkKey (size : Nat) : Except StorageError Unit :=
  if size = 0 then throw .keyRequired
  else if maxKeySize < size then throw .keyTooLarge
  else pure ()

structure AddressBucket where
  domains : IP → Option String
  metadata : Option FakeIPMetadata

def AddressBucket.empty : AddressBucket := ⟨fun _ => none, none⟩

/-- The buckets of FakeIP: `fakeip_address`, `fakeip_domain4` and `fakeip_domain6`. -/
structure FakeIPBuckets where
  address : Option AddressBucket
  domain4 : Option (String → Option IP)
  domain6 : Option (String → Option IP)

namespace FakeIPBuckets

def empty : FakeIPBuckets := ⟨none, none, none⟩

variable (buckets : FakeIPBuckets)

def domain (isIPv6 : Bool) : Option (String → Option IP) :=
  if isIPv6 then buckets.domain6 else buckets.domain4

def setDomain (isIPv6 : Bool) (bucket : String → Option IP) : FakeIPBuckets :=
  if isIPv6 then { buckets with domain6 := some bucket } else { buckets with domain4 := some bucket }

def batch {α : Type} (transaction : FakeIPBuckets → Except StorageError (α × FakeIPBuckets))
    (buckets : FakeIPBuckets) : Except StorageError α × FakeIPBuckets :=
  match transaction buckets with
  | .ok (value, after) => (.ok value, after)
  | .error error => (.error error, buckets)

/-- The transaction of `FakeIPMetadata`: it takes the metadata out. -/
def takeMetadata : Except StorageError (FakeIPMetadata × FakeIPBuckets) :=
  match buckets.address with
  | none => throw .notExist
  | some bucket =>
      match bucket.metadata with
      | none => throw .invalid
      | some metadata => pure (metadata, { buckets with address := some { bucket with metadata := none } })

def putMetadata (metadata : FakeIPMetadata) (buckets : FakeIPBuckets) :
    Except StorageError (Unit × FakeIPBuckets) :=
  let bucket := buckets.address.getD .empty
  pure ((), { buckets with address := some { bucket with metadata := some metadata } })

def putAddress (address : Addr) (domain : String) (buckets : FakeIPBuckets) :
    Except StorageError (Unit × FakeIPBuckets) := do
  let bucket := buckets.address.getD .empty
  let oldDomain := bucket.domains address.asSlice
  checkKey address.asSlice.length
  let bucket := { bucket with domains := update bucket.domains address.asSlice (some domain) }
  let domains := (buckets.domain address.isIPv6).getD fun _ => none
  let domains := oldDomain.elim domains fun oldDomain => update domains oldDomain none
  checkKey domain.utf8ByteSize
  let domains := update domains domain (some address.asSlice)
  pure ((), { buckets.setDomain address.isIPv6 domains with address := some bucket })

/-- The transaction of `FakeIPReset`: a bucket that is not there fails it. -/
def deleteBuckets : Except StorageError (Unit × FakeIPBuckets) :=
  if buckets.address.isNone then throw .bucketNotFound
  else if buckets.domain4.isNone then throw .bucketNotFound
  else if buckets.domain6.isNone then throw .bucketNotFound
  else pure ((), .empty)

def fakeIPLoad (address : Addr) : Option String :=
  (buckets.address.bind fun bucket => bucket.domains address.asSlice).filter fun domain => domain ≠ ""

def fakeIPLoadDomain (domain : String) (isIPv6 : Bool) : Option Addr :=
  let address := Addr.ofIP (((buckets.domain isIPv6).bind fun bucket => bucket domain).getD [])
  if address.isValid then some address else none

def metadata (buckets : FakeIPBuckets) : Option FakeIPMetadata :=
  buckets.address.bind AddressBucket.metadata

end FakeIPBuckets

/-! ### What a transaction does -/

theorem checkKey_eq_ok {size : Nat} : checkKey size = .ok () ↔ 0 < size ∧ size ≤ maxKeySize := by
  unfold checkKey
  split
  · rename_i zero
    simp [throw, throwThe, MonadExceptOf.throw, zero]
  · split
    · simp only [throw, throwThe, MonadExceptOf.throw, reduceCtorEq, false_iff, not_and]
      omega
    · simp only [pure, Except.pure, true_iff]
      omega

namespace FakeIPBuckets

def withAddress (address : Addr) (domain : String) (buckets : FakeIPBuckets) : FakeIPBuckets :=
  let bucket := buckets.address.getD .empty
  let domains := (buckets.domain address.isIPv6).getD fun _ => none
  let evicted := (bucket.domains address.asSlice).elim domains fun oldDomain =>
    update domains oldDomain none
  { buckets.setDomain address.isIPv6 (update evicted domain (some address.asSlice)) with
    address :=
      some { bucket with domains := update bucket.domains address.asSlice (some domain) } }

/-- `FakeIPStore` needs an address and a domain that can be keys. -/
structure CanPut (address : Addr) (domain : String) : Prop where
  valid : address ≠ .invalid
  nonempty : domain ≠ ""
  short : domain.utf8ByteSize ≤ maxKeySize

instance (address : Addr) (domain : String) : Decidable (CanPut address domain) :=
  decidable_of_iff (address ≠ .invalid ∧ domain ≠ "" ∧ domain.utf8ByteSize ≤ maxKeySize)
    ⟨fun ⟨first, second, third⟩ => ⟨first, second, third⟩, fun can => ⟨can.1, can.2, can.3⟩⟩

variable {address : Addr} {domain : String} {buckets : FakeIPBuckets}

theorem putAddress_ok (buckets : FakeIPBuckets) (can : CanPut address domain) :
    buckets.putAddress address domain = .ok ((), buckets.withAddress address domain) := by
  have addressKey : checkKey address.asSlice.length = .ok () := by
    refine checkKey_eq_ok.2 ⟨List.length_pos_iff.2 fun empty => can.valid (Addr.asSlice_eq_nil.1 empty), ?_⟩
    cases address <;> simp [Addr.asSlice, Addr.length_bytes, maxKeySize]
  have domainKey : checkKey domain.utf8ByteSize = .ok () :=
    checkKey_eq_ok.2 ⟨Nat.pos_of_ne_zero fun zero => can.nonempty (by simpa using zero), can.short⟩
  simp only [putAddress, addressKey, domainKey]
  rfl

theorem putAddress_error (buckets : FakeIPBuckets) (cannot : ¬ CanPut address domain) :
    ∃ error, buckets.putAddress address domain = .error error := by
  cases addressKey : checkKey address.asSlice.length with
  | error error => exact ⟨error, by simp only [putAddress, addressKey]; rfl⟩
  | ok =>
      cases domainKey : checkKey domain.utf8ByteSize with
      | error error => exact ⟨error, by simp only [putAddress, addressKey, domainKey]; rfl⟩
      | ok =>
          exfalso
          obtain ⟨positive, _⟩ := checkKey_eq_ok.1 addressKey
          obtain ⟨nonempty, short⟩ := checkKey_eq_ok.1 domainKey
          refine cannot ⟨?_, ?_, short⟩
          · rintro rfl
            simp [Addr.asSlice] at positive
          · rintro rfl
            simp at nonempty

def Complete (buckets : FakeIPBuckets) : Prop :=
  buckets.address.isSome ∧ buckets.domain4.isSome ∧ buckets.domain6.isSome

instance (buckets : FakeIPBuckets) : Decidable buckets.Complete := inferInstanceAs (Decidable (_ ∧ _ ∧ _))

theorem deleteBuckets_ok (complete : buckets.Complete) : buckets.deleteBuckets = .ok ((), .empty) := by
  obtain ⟨address, domain4, domain6⟩ := complete
  simp [deleteBuckets, Option.isNone_eq_false_iff.2, address, domain4, domain6, pure, Except.pure]

theorem deleteBuckets_error (incomplete : ¬ buckets.Complete) :
    buckets.deleteBuckets = .error .bucketNotFound := by
  unfold deleteBuckets
  split
  · rfl
  · split
    · rfl
    · split
      · rfl
      · rename_i address domain4 domain6
        refine absurd ⟨?_, ?_, ?_⟩ incomplete
        · exact Option.isSome_iff_ne_none.2 fun missing => address (by simp [missing])
        · exact Option.isSome_iff_ne_none.2 fun missing => domain4 (by simp [missing])
        · exact Option.isSome_iff_ne_none.2 fun missing => domain6 (by simp [missing])

/-- An address as it stands in a bucket of domains. -/
def decode (ip : IP) : Option Addr := if (Addr.ofIP ip).isValid then some (Addr.ofIP ip) else none

theorem decode_asSlice (valid : address ≠ .invalid) : decode address.asSlice = some address := by
  have isValid : address.isValid = true := by cases address <;> simp_all [Addr.isValid]
  simp [decode, Addr.ofIP_asSlice isValid, isValid]

theorem fakeIPLoadDomain_eq (buckets : FakeIPBuckets) (domain : String) (isIPv6 : Bool) :
    buckets.fakeIPLoadDomain domain isIPv6 =
      ((buckets.domain isIPv6).bind fun bucket => bucket domain).bind decode := by
  unfold fakeIPLoadDomain decode
  cases (buckets.domain isIPv6).bind fun bucket => bucket domain <;> rfl

theorem fakeIPLoad_ne_empty (found : buckets.fakeIPLoad address = some domain) : domain ≠ "" := by
  simpa using (Option.filter_eq_some_iff.1 found).2

end FakeIPBuckets

/-! ### The cache file -/

/-- `saveMetadataTimer`: the metadata captured when it was made, and whether it is
running. -/
structure SaveMetadataTimer where
  metadata : FakeIPMetadata
  armed : Bool

structure FakeIPFile where
  buckets : FakeIPBuckets
  saveMetadataTimer : Option SaveMetadataTimer

namespace FakeIPFile

def opened (buckets : FakeIPBuckets) : FakeIPFile := ⟨buckets, none⟩

def transact {α : Type} (transaction : FakeIPBuckets → Except StorageError (α × FakeIPBuckets))
    (file : FakeIPFile) : Option StorageError × FakeIPFile :=
  let (result, buckets) := file.buckets.batch transaction
  (match result with
    | .ok _ => none
    | .error error => some error,
    { file with buckets })

def fakeIPMetadata (file : FakeIPFile) : Option FakeIPMetadata × FakeIPFile :=
  let (result, buckets) := file.buckets.batch FakeIPBuckets.takeMetadata
  (result.toOption, { file with buckets })

/-- `CacheFile.FakeIPSaveMetadataAsync`: a timer that exists keeps its function. -/
def fakeIPSaveMetadataAsync (metadata : FakeIPMetadata) (file : FakeIPFile) : FakeIPFile :=
  { file with
    saveMetadataTimer :=
      match file.saveMetadataTimer with
      | none => some ⟨metadata, true⟩
      | some timer => some { timer with armed := true } }

def ops : FakeIPStorage FakeIPFile where
  fakeIPMetadata := fakeIPMetadata
  fakeIPSaveMetadata metadata file := file.transact (FakeIPBuckets.putMetadata metadata)
  fakeIPSaveMetadataAsync := fakeIPSaveMetadataAsync
  fakeIPStore address domain file := file.transact (FakeIPBuckets.putAddress address domain)
  fakeIPLoad file := file.buckets.fakeIPLoad
  fakeIPLoadDomain file := file.buckets.fakeIPLoadDomain
  fakeIPReset file := file.transact FakeIPBuckets.deleteBuckets

variable {address : Addr} {domain : String} {file : FakeIPFile}

theorem fakeIPStore_ok (file : FakeIPFile) (can : FakeIPBuckets.CanPut address domain) :
    ops.fakeIPStore address domain file =
      (none, { file with buckets := file.buckets.withAddress address domain }) := by
  simp [ops, transact, FakeIPBuckets.batch, file.buckets.putAddress_ok can]

theorem fakeIPStore_error (file : FakeIPFile) (cannot : ¬ FakeIPBuckets.CanPut address domain) :
    ∃ error, ops.fakeIPStore address domain file = (some error, file) := by
  obtain ⟨error, failed⟩ := file.buckets.putAddress_error cannot
  exact ⟨error, by simp [ops, transact, FakeIPBuckets.batch, failed]⟩

theorem fakeIPReset_ok (complete : file.buckets.Complete) :
    ops.fakeIPReset file = (none, { file with buckets := .empty }) := by
  simp [ops, transact, FakeIPBuckets.batch, FakeIPBuckets.deleteBuckets_ok complete]

theorem fakeIPReset_error (incomplete : ¬ file.buckets.Complete) :
    ops.fakeIPReset file = (some .bucketNotFound, file) := by
  simp [ops, transact, FakeIPBuckets.batch, FakeIPBuckets.deleteBuckets_error incomplete]

def fire (file : FakeIPFile) : Option FakeIPFile :=
  match file.saveMetadataTimer with
  | some ⟨metadata, true⟩ =>
      some { (ops.fakeIPSaveMetadata metadata file).2 with saveMetadataTimer := some ⟨metadata, false⟩ }
  | _ => none

end FakeIPFile

end SideraCore.Experimental
