import SideraCore.Dns.Client.Response

/-!
Owns the FakeIP store: the ranges and the allocation of addresses
(`dns/transport/fakeip/store.go`), the interface of the storages behind it
(`adapter.FakeIPStorage`) and the storage in memory
(`dns/transport/fakeip/memory.go`).

`Create` reads the storage before and after it takes the lock; with nothing in between
the second read is the first.
-/

namespace SideraCore.Dns

namespace Addr

/-- `netip.Addr.Next`: the last address of a family has no successor. -/
def next : Addr → Addr
  | .invalid => .invalid
  | .v4 bits => if bits = BitVec.allOnes 32 then .invalid else .v4 (bits + 1)
  | .v6 bits => if bits = BitVec.allOnes 128 then .invalid else .v6 (bits + 1)

def isIPv6 (address : Addr) : Bool := !address.is4

end Addr

def Prefix.contains (subnet : Prefix) (address : Addr) : Bool :=
  match subnet.bits, subnet.addr, address with
  | some bits, .v4 base, .v4 ip => (ip ^^^ base) >>> (32 - bits) = 0
  | some bits, .v6 base, .v6 ip => (ip ^^^ base) >>> (128 - bits) = 0
  | _, _, _ => false

variable {subnet : Prefix} {address : Addr}

theorem Prefix.contains_is4 (inside : subnet.contains address = true) :
    address.is4 = subnet.addr.is4 := by
  unfold contains at inside
  split at inside
  · rename_i found
    simp [found, Addr.is4]
  · rename_i found
    simp [found, Addr.is4]
  · cases inside

theorem Prefix.contains_isValid (inside : subnet.contains address = true) :
    subnet.isValid = true ∧ address.isValid = true := by
  unfold contains at inside
  split at inside
  · rename_i found _
    exact ⟨by simp [isValid, found], rfl⟩
  · rename_i found _
    exact ⟨by simp [isValid, found], rfl⟩
  · cases inside

namespace FakeIP

/-- The address with all bits set from the place on. -/
def setBits {width : Nat} (bits : Nat) (raw : BitVec width) : BitVec width :=
  (List.range' bits (width - bits)).foldl
    (fun raw index => raw ||| BitVec.twoPow width (width - 1 - index)) raw

def broadcastAddress (subnet : Prefix) : Addr :=
  match subnet.bits, subnet.addr with
  | some bits, .v4 raw => .v4 (setBits bits raw)
  | some bits, .v6 raw => .v6 (setBits bits raw)
  | _, _ => .invalid

structure FakeIPMetadata where
  inet4Range : Prefix
  inet6Range : Prefix
  inet4Current : Addr
  inet6Current : Addr
deriving DecidableEq, Repr

/-- Why a storage refuses: the errors of the cache file and of its database. -/
inductive StorageError where
  | notExist
  | invalid
  | bucketNotFound
  | keyRequired
  | keyTooLarge
deriving DecidableEq, Repr

/-- `adapter.FakeIPStorage`, on the states of a storage. -/
structure FakeIPStorage (State : Type) where
  fakeIPMetadata : State → Option FakeIPMetadata × State
  fakeIPSaveMetadata : FakeIPMetadata → State → Option StorageError × State
  fakeIPSaveMetadataAsync : FakeIPMetadata → State → State
  fakeIPStore : Addr → String → State → Option StorageError × State
  fakeIPLoad : State → Addr → Option String
  fakeIPLoadDomain : State → String → Bool → Option Addr
  fakeIPReset : State → Option StorageError × State

structure Store where
  inet4Range : Prefix
  inet6Range : Prefix
  inet4Last : Addr
  inet6Last : Addr
  inet4Current : Addr
  inet6Current : Addr
deriving DecidableEq, Repr

inductive CreateError where
  | missingIPv4Range
  | missingIPv6Range
deriving DecidableEq, Repr

namespace Store

def new (inet4Range inet6Range : Prefix) : Store where
  inet4Range := inet4Range
  inet6Range := inet6Range
  inet4Last := if inet4Range.isValid then broadcastAddress inet4Range else .invalid
  inet6Last := if inet6Range.isValid then broadcastAddress inet6Range else .invalid
  inet4Current := .invalid
  inet6Current := .invalid

def range (store : Store) (isIPv6 : Bool) : Prefix :=
  if isIPv6 then store.inet6Range else store.inet4Range

def last (store : Store) (isIPv6 : Bool) : Addr :=
  if isIPv6 then store.inet6Last else store.inet4Last

def current (store : Store) (isIPv6 : Bool) : Addr :=
  if isIPv6 then store.inet6Current else store.inet4Current

def setCurrent (store : Store) (isIPv6 : Bool) (address : Addr) : Store :=
  if isIPv6 then { store with inet6Current := address } else { store with inet4Current := address }

def metadata (store : Store) : FakeIPMetadata where
  inet4Range := store.inet4Range
  inet6Range := store.inet6Range
  inet4Current := store.inet4Current
  inet6Current := store.inet6Current

def wraps (store : Store) (isIPv6 : Bool) : Bool :=
  (store.current isIPv6).next = store.last isIPv6 ∨
    (store.range isIPv6).contains (store.current isIPv6).next = false

def nextAddress (store : Store) (isIPv6 : Bool) : Addr :=
  if store.wraps isIPv6 then (store.range isIPv6).addr.next.next else (store.current isIPv6).next

section Operations

variable {State : Type} (ops : FakeIPStorage State)

def start (store : Store) (storage : State) : Store × State :=
  let (metadata, storage) := ops.fakeIPMetadata storage
  let resume := metadata.filter fun it =>
    it.inet4Range = store.inet4Range && it.inet6Range = store.inet6Range
  match resume with
  | some saved =>
      ({ store with inet4Current := saved.inet4Current, inet6Current := saved.inet6Current }, storage)
  | none =>
      let inet4Current :=
        if store.inet4Range.isValid then store.inet4Range.addr.next else store.inet4Current
      let inet6Current :=
        if store.inet6Range.isValid then store.inet6Range.addr.next else store.inet6Current
      ({ store with inet4Current, inet6Current }, (ops.fakeIPReset storage).2)

/-- `Store.Create`. A failed `FakeIPStore` is only logged. -/
def create (domain : String) (isIPv6 : Bool) (store : Store) (storage : State) :
    Except CreateError Addr × Store × State :=
  match ops.fakeIPLoadDomain storage domain isIPv6 with
  | some address => (.ok address, store, storage)
  | none =>
      if (store.current isIPv6).isValid then
        let address := store.nextAddress isIPv6
        let store := store.setCurrent isIPv6 address
        let (_, storage) := ops.fakeIPStore address domain storage
        (.ok address, store, ops.fakeIPSaveMetadataAsync store.metadata storage)
      else (.error (if isIPv6 then .missingIPv6Range else .missingIPv4Range), store, storage)

def lookup (address : Addr) (storage : State) : Option String := ops.fakeIPLoad storage address

def reset (storage : State) : Option StorageError × State := ops.fakeIPReset storage

def close (store : Store) (storage : State) : Option StorageError × State :=
  ops.fakeIPSaveMetadata store.metadata storage

end Operations

variable (store : Store) (isIPv6 : Bool) (address : Addr)

@[simp] theorem setCurrent_range (other : Bool) :
    (store.setCurrent isIPv6 address).range other = store.range other := by
  cases isIPv6 <;> rfl

@[simp] theorem setCurrent_current (other : Bool) : (store.setCurrent isIPv6 address).current other =
    if other = isIPv6 then address else store.current other := by
  cases isIPv6 <;> cases other <;> rfl

end Store

/-! ### The storage in memory -/

structure MemoryStorage where
  addressCache : Addr → Option String
  domainCache4 : String → Option Addr
  domainCache6 : String → Option Addr

namespace MemoryStorage

def new : MemoryStorage where
  addressCache _ := none
  domainCache4 _ := none
  domainCache6 _ := none

def domainCache (storage : MemoryStorage) (isIPv6 : Bool) : String → Option Addr :=
  if isIPv6 then storage.domainCache6 else storage.domainCache4

def setDomainCache (storage : MemoryStorage) (isIPv6 : Bool) (cache : String → Option Addr) :
    MemoryStorage :=
  if isIPv6 then { storage with domainCache6 := cache } else { storage with domainCache4 := cache }

def fakeIPStore (address : Addr) (domain : String) (storage : MemoryStorage) : MemoryStorage :=
  let cache := storage.domainCache address.isIPv6
  let evicted :=
    (storage.addressCache address).elim cache fun oldDomain => Function.update cache oldDomain none
  { storage.setDomainCache address.isIPv6 (Function.update evicted domain (some address)) with
    addressCache := Function.update storage.addressCache address (some domain) }

def ops : FakeIPStorage MemoryStorage where
  fakeIPMetadata storage := (none, storage)
  fakeIPSaveMetadata _ storage := (none, storage)
  fakeIPSaveMetadataAsync _ storage := storage
  fakeIPStore address domain storage := (none, storage.fakeIPStore address domain)
  fakeIPLoad storage := storage.addressCache
  fakeIPLoadDomain storage domain isIPv6 := storage.domainCache isIPv6 domain
  fakeIPReset _ := (none, .new)

end MemoryStorage

end FakeIP

end SideraCore.Dns
