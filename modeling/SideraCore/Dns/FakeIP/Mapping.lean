import SideraCore.Concurrency.Machine
import SideraCore.Data.Pairing
import SideraCore.Experimental.FakeIP

/-!
Owns what a FakeIP storage is for: in each family a partial bijection of domains
and addresses. The bijections are a storage of their own, and the storage in
memory and the one in the cache file both refine it, the second as long as its
transactions succeed. The stores here are started on a new storage.
-/

namespace SideraCore.Dns.FakeIP

open Concurrency Experimental Function FakeIPFile

/-- In each family, a partial bijection of domains and addresses of the family. -/
structure Mapping where
  pairs : Bool → (String ≃. Addr)
  family : ∀ isIPv6 domain address, pairs isIPv6 domain = some address → address.isIPv6 = isIPv6

namespace Mapping

def empty : Mapping := ⟨fun _ => ⊥, by simp⟩

def assign (mapping : Mapping) (domain : String) (address : Addr) : Mapping where
  pairs isIPv6 :=
    if isIPv6 = address.isIPv6 then Data.assign (mapping.pairs isIPv6) domain address
    else mapping.pairs isIPv6
  family := by
    intro isIPv6 other held found
    split at found
    · rename_i same
      rw [Data.assign_apply] at found
      split at found
      · rw [← Option.some.inj found, same]
      · split at found
        · cases found
        · exact mapping.family isIPv6 other held found
    · exact mapping.family isIPv6 other held found

def ops : FakeIPStorage Mapping where
  fakeIPMetadata mapping := (none, mapping)
  fakeIPSaveMetadata _ mapping := (none, mapping)
  fakeIPSaveMetadataAsync _ mapping := mapping
  fakeIPStore address domain mapping := (none, mapping.assign domain address)
  fakeIPLoad mapping address := (mapping.pairs address.isIPv6).symm address
  fakeIPLoadDomain mapping domain isIPv6 := mapping.pairs isIPv6 domain
  fakeIPReset _ := (none, empty)

end Mapping

variable {State : Type}

structure Represents (ops : FakeIPStorage State) (storage : State) (mapping : Mapping) : Prop where
  loadDomain : ops.fakeIPLoadDomain storage = Mapping.ops.fakeIPLoadDomain mapping
  load : ops.fakeIPLoad storage = Mapping.ops.fakeIPLoad mapping

/-- What succeeds in the storage happens to the mapping it represents. -/
structure Refines (ops : FakeIPStorage State) : Prop where
  saves : ∀ {storage mapping} metadata, Represents ops storage mapping →
    Represents ops (ops.fakeIPSaveMetadataAsync metadata storage) mapping
  stores : ∀ {storage mapping address domain}, Represents ops storage mapping →
    mapping.pairs address.isIPv6 domain = none → (ops.fakeIPStore address domain storage).1 = none →
      Represents ops (ops.fakeIPStore address domain storage).2 (mapping.assign domain address)
  resets : ∀ {storage}, (ops.fakeIPReset storage).1 = none →
    Represents ops (ops.fakeIPReset storage).2 .empty

namespace Represents

variable {ops : FakeIPStorage State} {storage : State} {mapping : Mapping}

theorem bijective (represents : Represents ops storage mapping) (domain : String) (isIPv6 : Bool)
    (address : Addr) : ops.fakeIPLoadDomain storage domain isIPv6 = some address ↔
      ops.fakeIPLoad storage address = some domain ∧ address.isIPv6 = isIPv6 := by
  rw [represents.loadDomain, represents.load]
  show mapping.pairs isIPv6 domain = some address ↔
    (mapping.pairs address.isIPv6).symm address = some domain ∧ address.isIPv6 = isIPv6
  constructor
  · intro found
    obtain rfl := mapping.family isIPv6 domain address found
    exact ⟨(mapping.pairs _).mem_iff_mem.2 found, rfl⟩
  · rintro ⟨found, rfl⟩
    exact (mapping.pairs _).mem_iff_mem.1 found

end Represents

namespace Mapping

theorem assign_pairs (mapping : Mapping) (domain : String) (address : Addr) (isIPv6 : Bool) :
    ((mapping.assign domain address).pairs isIPv6 : String → Option Addr) =
      if isIPv6 = address.isIPv6 then
        update
          (((mapping.pairs isIPv6).symm address).elim (mapping.pairs isIPv6 : String → Option Addr) fun former =>
            update (mapping.pairs isIPv6) former none)
          domain (some address)
      else mapping.pairs isIPv6 := by
  by_cases same : isIPv6 = address.isIPv6
  · rw [if_pos same, ← Data.assign_eq_update]
    simp only [assign, if_pos same]
  · simp only [assign, if_neg same]

theorem assign_pairs_apply (mapping : Mapping) (domain : String) (address : Addr) (other : String) :
    (mapping.assign domain address).pairs address.isIPv6 other =
      if other = domain then some address
      else if mapping.pairs address.isIPv6 other = some address then none
      else mapping.pairs address.isIPv6 other := by
  simp only [assign, if_true]
  exact Data.assign_apply other

theorem load_assign (mapping : Mapping) {domain : String} {address : Addr}
    (free : mapping.pairs address.isIPv6 domain = none) :
    ops.fakeIPLoad (mapping.assign domain address) =
      update (ops.fakeIPLoad mapping) address (some domain) := by
  funext other
  show ((mapping.assign domain address).pairs other.isIPv6).symm other = _
  unfold assign
  dsimp only
  split
  · rename_i same
    rw [same, Data.assign_symm_eq_update free, update_apply, update_apply]
    simp only [ops, same]
  · rename_i different
    have distinct : other ≠ address := fun equal => different (by rw [equal])
    rw [update_of_ne distinct]
    rfl

end Mapping

namespace MemoryStorage

theorem fakeIPStore_domainCache (storage : MemoryStorage) (address : Addr) (domain : String)
    (isIPv6 : Bool) : (storage.fakeIPStore address domain).domainCache isIPv6 =
      if isIPv6 = address.isIPv6 then
        update
          ((storage.addressCache address).elim (storage.domainCache isIPv6) fun oldDomain =>
            update (storage.domainCache isIPv6) oldDomain none)
          domain (some address)
      else storage.domainCache isIPv6 := by
  unfold fakeIPStore setDomainCache domainCache
  cases address.isIPv6 <;> cases isIPv6 <;> rfl

theorem fakeIPStore_addressCache (storage : MemoryStorage) (address : Addr) (domain : String) :
    (storage.fakeIPStore address domain).addressCache =
      update storage.addressCache address (some domain) := rfl

theorem represents_new : Represents ops .new .empty :=
  ⟨by funext domain isIPv6; cases isIPv6 <;> rfl, rfl⟩

theorem refines : Refines ops where
  saves := fun _ represents => represents
  stores := by
    intro storage mapping address domain represents free _
    have load : storage.addressCache = Mapping.ops.fakeIPLoad mapping := represents.load
    have loadDomain (isIPv6 : Bool) : storage.domainCache isIPv6 = mapping.pairs isIPv6 :=
      funext fun other => congrFun (congrFun represents.loadDomain other) isIPv6
    refine ⟨?_, ?_⟩
    · funext other isIPv6
      show (storage.fakeIPStore address domain).domainCache isIPv6 other =
        (mapping.assign domain address).pairs isIPv6 other
      rw [fakeIPStore_domainCache, Mapping.assign_pairs, load, loadDomain]
      by_cases same : isIPv6 = address.isIPv6
      · subst same
        rfl
      · rw [if_neg same, if_neg same]
    · show (storage.fakeIPStore address domain).addressCache = _
      rw [fakeIPStore_addressCache, Mapping.load_assign mapping free, load]
  resets := fun _ => represents_new

end MemoryStorage

namespace FileStorage

open FakeIPBuckets

variable {address : Addr} {domain : String} (buckets : FakeIPBuckets)

theorem fakeIPLoad_withAddress (can : CanPut address domain) :
    (buckets.withAddress address domain).fakeIPLoad =
      update buckets.fakeIPLoad address (some domain) := by
  funext other
  by_cases same : other = address
  · subst same
    simp [fakeIPLoad, withAddress, can.nonempty]
  · have slices : other.asSlice ≠ address.asSlice := fun equal => same (Addr.asSlice_inj.1 equal)
    rw [update_of_ne same]
    simp only [fakeIPLoad, withAddress, Option.bind_some, update_of_ne slices]
    cases buckets.address <;> rfl

theorem domain_withAddress (isIPv6 : Bool) :
    (buckets.withAddress address domain).domain isIPv6 =
      if isIPv6 = address.isIPv6 then
        some (update
          (((buckets.address.getD .empty).domains address.asSlice).elim
            ((buckets.domain isIPv6).getD fun _ => none) fun oldDomain =>
              update ((buckets.domain isIPv6).getD fun _ => none) oldDomain none)
          domain (some address.asSlice))
      else buckets.domain isIPv6 := by
  unfold withAddress setDomain FakeIPBuckets.domain
  cases address.isIPv6 <;> cases isIPv6 <;> rfl

theorem fakeIPLoadDomain_withAddress (can : CanPut address domain) (other : String) :
    (buckets.withAddress address domain).fakeIPLoadDomain other address.isIPv6 =
      if other = domain then some address
      else if (buckets.address.getD .empty).domains address.asSlice = some other then none
      else buckets.fakeIPLoadDomain other address.isIPv6 := by
  rw [fakeIPLoadDomain_eq, domain_withAddress, if_pos rfl, Option.bind_some]
  by_cases same : other = domain
  · rw [if_pos same, same, update_self, Option.bind_some, decode_asSlice can.valid]
  · rw [if_neg same, update_of_ne same]
    have reads : ((buckets.domain address.isIPv6).getD fun _ => none) other =
        (buckets.domain address.isIPv6).bind fun bucket => bucket other := by
      cases buckets.domain address.isIPv6 <;> rfl
    cases old : (buckets.address.getD .empty).domains address.asSlice with
    | none =>
        rw [if_neg (by simp), fakeIPLoadDomain_eq, ← reads]
        rfl
    | some oldDomain =>
        by_cases evicted : oldDomain = other
        · rw [if_pos (by rw [evicted]), evicted]
          simp
        · rw [if_neg (by simpa using evicted), fakeIPLoadDomain_eq, ← reads]
          simp only [Option.elim_some, update_of_ne (Ne.symm evicted)]

theorem domains_eq_iff {file : FakeIPFile} {mapping : Mapping}
    (represents : Represents ops file mapping) {other : String} (nonempty : other ≠ "") :
    (file.buckets.address.getD .empty).domains address.asSlice = some other ↔
      mapping.pairs address.isIPv6 other = some address := by
  have stored : file.buckets.fakeIPLoad address = some other ↔
      (file.buckets.address.getD .empty).domains address.asSlice = some other := by
    unfold fakeIPLoad
    cases file.buckets.address with
    | none => simp [AddressBucket.empty]
    | some bucket => simp [Option.filter_eq_some_iff, nonempty]
  have paired := represents.bijective other address.isIPv6 address
  rw [represents.loadDomain] at paired
  rw [← stored]
  exact ⟨fun found => paired.2 ⟨found, rfl⟩, fun found => (paired.1 found).1⟩

theorem represents_empty : Represents ops (.opened .empty) .empty :=
  ⟨by funext domain isIPv6; cases isIPv6 <;> rfl, rfl⟩

theorem refines : Refines ops where
  saves := fun _ represents => ⟨represents.loadDomain, represents.load⟩
  stores := by
    intro file mapping address domain represents free succeeded
    by_cases can : CanPut address domain
    · rw [fakeIPStore_ok file can]
      have load : file.buckets.fakeIPLoad = Mapping.ops.fakeIPLoad mapping := represents.load
      have loadDomain : file.buckets.fakeIPLoadDomain = Mapping.ops.fakeIPLoadDomain mapping :=
        represents.loadDomain
      refine ⟨?_, ?_⟩
      · funext other isIPv6
        show (file.buckets.withAddress address domain).fakeIPLoadDomain other isIPv6 =
          (mapping.assign domain address).pairs isIPv6 other
        by_cases same : isIPv6 = address.isIPv6
        · subst same
          rw [fakeIPLoadDomain_withAddress _ can, Mapping.assign_pairs_apply, loadDomain]
          by_cases empty : other = ""
          · -- no domain is empty, so neither side evicts one
            have free : mapping.pairs address.isIPv6 other = none := by
              refine Option.eq_none_iff_forall_ne_some.2 fun held found => ?_
              have loaded := ((represents.bijective other address.isIPv6 held).1
                (represents.loadDomain ▸ found)).1
              exact fakeIPLoad_ne_empty loaded empty
            simp [Mapping.ops, free]
          · rw [if_congr (domains_eq_iff represents empty) rfl rfl]
            rfl
        · rw [Mapping.assign_pairs, if_neg same, fakeIPLoadDomain_eq, domain_withAddress, if_neg same,
            ← fakeIPLoadDomain_eq, loadDomain]
          rfl
      · show (file.buckets.withAddress address domain).fakeIPLoad = _
        rw [fakeIPLoad_withAddress _ can, Mapping.load_assign mapping free, load]
    · obtain ⟨error, failed⟩ := fakeIPStore_error file can
      rw [failed] at succeeded
      cases succeeded
  resets := by
    intro file succeeded
    by_cases complete : file.buckets.Complete
    · rw [fakeIPReset_ok complete]
      exact ⟨represents_empty.loadDomain, represents_empty.load⟩
    · rw [fakeIPReset_error complete] at succeeded
      cases succeeded

end FileStorage

end SideraCore.Dns.FakeIP
