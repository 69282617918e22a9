import SideraCore.Dns.FakeIP.Crash

/-!
Owns where the addresses that `Create` hands out lie. The successor of an address is
checked against the range; the address that the allocation starts from, two above the
base, is not.
-/

namespace SideraCore.Dns.FakeIP

open Experimental Lived

/-- A storage that has nothing saved, and loads for a domain only what was stored. -/
structure FreshStorage (State : Type) extends FakeIPStorage State where
  initial : State
  unsaved : (fakeIPMetadata initial).1 = none
  unmapped : ∀ domain isIPv6, fakeIPLoadDomain (fakeIPReset (fakeIPMetadata initial).2).2 domain isIPv6 = none
  remembers : ∀ {metadata address domain storage other isIPv6 held},
    fakeIPLoadDomain (fakeIPSaveMetadataAsync metadata (fakeIPStore address domain storage).2) other isIPv6 =
      some held → fakeIPLoadDomain storage other isIPv6 = some held ∨ held = address ∧ isIPv6 = address.isIPv6

def MemoryStorage.fresh : FreshStorage MemoryStorage where
  toFakeIPStorage := ops
  initial := .new
  unsaved := rfl
  unmapped := by
    intro domain isIPv6
    cases isIPv6 <;> rfl
  remembers := by
    intro metadata address domain storage other isIPv6 held found
    change (storage.fakeIPStore address domain).domainCache isIPv6 other = some held at found
    rw [fakeIPStore_domainCache] at found
    change storage.domainCache isIPv6 other = some held ∨ _
    cases old : storage.addressCache address <;>
      simp only [old, Option.elim_none, Option.elim_some] at found <;> grind [Function.update_apply]

def freshFile : FreshStorage FakeIPFile where
  toFakeIPStorage := FakeIPFile.ops
  initial := .opened .empty
  unsaved := rfl
  unmapped := by
    intro domain isIPv6
    cases isIPv6 <;> rfl
  remembers := by
    intro metadata address domain file other isIPv6 held found
    change (FakeIPFile.ops.fakeIPStore address domain file).2.buckets.fakeIPLoadDomain other isIPv6 =
      some held at found
    by_cases can : FakeIPBuckets.CanPut address domain
    · rw [FakeIPFile.fakeIPStore_ok file can] at found
      exact (loadDomain_withAddress can found).symm.imp And.left And.right
    · obtain ⟨error, failed⟩ := FakeIPFile.fakeIPStore_error file can
      rw [failed] at found
      exact .inl found

namespace Store

def contains (store : Store) (address : Addr) : Bool :=
  store.inet4Range.contains address || store.inet6Range.contains address

/-- The address is in the range of the family, and not its last one. -/
def Proper (store : Store) (isIPv6 : Bool) (address : Addr) : Prop :=
  (store.range isIPv6).contains address = true ∧ address ≠ store.last isIPv6

variable {State : Type} (fresh : FreshStorage State)
  (ranges : {ranges : Prefix × Prefix // OwnFamilies ranges.1 ranges.2})

abbrev ofRanges : Store := new ranges.1.1 ranges.1.2

def createAll (requests : List (String × Bool)) : Store × State :=
  requests.foldl (fun state request => (create fresh.toFakeIPStorage request.1 request.2 state.1 state.2).2)
    ((ofRanges ranges).start fresh.toFakeIPStorage fresh.initial)

/-- What `Create` keeps: the ranges, an allocation only from a proper start, and proper
addresses. -/
structure Placed (state : Store × State) : Prop where
  range : state.1.range = (ofRanges ranges).range
  last : state.1.last = (ofRanges ranges).last
  start : ∀ isIPv6, (state.1.current isIPv6).isValid = true →
    (ofRanges ranges).Proper isIPv6 ((ofRanges ranges).range isIPv6).addr.next.next
  mapped : ∀ domain isIPv6 address, fresh.fakeIPLoadDomain state.2 domain isIPv6 = some address →
    (ofRanges ranges).Proper isIPv6 address

variable {fresh ranges} {state : Store × State}

theorem Placed.create (placed : Placed fresh ranges state) (domain : String) (isIPv6 : Bool) :
    Placed fresh ranges (create fresh.toFakeIPStorage domain isIPv6 state.1 state.2).2 ∧
      ∀ address, (create fresh.toFakeIPStorage domain isIPv6 state.1 state.2).1 = .ok address →
        (ofRanges ranges).Proper isIPv6 address := by
  unfold Store.create
  cases loaded : fresh.fakeIPLoadDomain state.2 domain isIPv6 with
  | some held =>
      refine ⟨placed, fun address same => ?_⟩
      exact Except.ok.inj same ▸ placed.mapped domain isIPv6 held loaded
  | none =>
      dsimp only
      split
      case isTrue valid =>
        have proper : (ofRanges ranges).Proper isIPv6 (state.1.nextAddress isIPv6) := by
          unfold nextAddress wraps
          rw [placed.range, placed.last]
          split
          · exact placed.start isIPv6 valid
          · simp_all [Proper]
        have family : (state.1.nextAddress isIPv6).isIPv6 = isIPv6 := by
          have rangeFamily := ranges.2.range isIPv6 (Prefix.contains_isValid proper.1).1
          exact (congrArg Bool.not (Prefix.contains_is4 proper.1)).trans rangeFamily
        refine ⟨⟨?_, ?_, fun other otherValid => ?_, fun other otherFamily address found => ?_⟩,
          fun address same => Except.ok.inj same ▸ proper⟩
        · exact (funext (setCurrent_range _ _ _)).trans placed.range
        · rw [← placed.last]
          cases isIPv6 <;> rfl
        · rw [setCurrent_current] at otherValid
          split at otherValid
          · rename_i same
            exact same ▸ placed.start isIPv6 valid
          · exact placed.start other otherValid
        · rcases fresh.remembers found with before | ⟨rfl, rfl⟩
          · exact placed.mapped other otherFamily address before
          · exact family.symm ▸ proper
      case isFalse => exact ⟨placed, fun address same => nomatch same⟩

variable (fresh ranges)

/-- **Every address that `Create` hands out is a proper one of its range**, exactly if two
above the base of each range that an allocation can start in is a proper one. -/
theorem created_proper_iff :
    (∀ requests domain isIPv6 address,
      let after := createAll fresh ranges requests
      (create fresh.toFakeIPStorage domain isIPv6 after.1 after.2).1 = .ok address →
        (ofRanges ranges).Proper isIPv6 address ∧ after.1.contains address = true) ↔
    ∀ isIPv6, let range := (ofRanges ranges).range isIPv6
      range.isValid = true → range.addr.next.isValid = true →
        (ofRanges ranges).Proper isIPv6 range.addr.next.next := by
  have started : (ofRanges ranges).start fresh.toFakeIPStorage fresh.initial =
      (((ofRanges ranges).start Mapping.ops .empty).1,
        (fresh.fakeIPReset (fresh.fakeIPMetadata fresh.initial).2).2) := by
    simp only [start, fresh.unsaved]
    rfl
  constructor
  · intro inside isIPv6 range valid first
    have current : (((ofRanges ranges).start Mapping.ops .empty).1.current isIPv6) = range.addr.next := by
      cases isIPv6 <;> exact if_pos valid
    refine (inside [] "" isIPv6 _ ?_).1
    unfold create createAll
    simp only [List.foldl_nil, started, fresh.unmapped, current, first, if_true]
    rw [nextAddress, current]
    exact congrArg _ (ite_self _)
  · intro proper requests domain isIPv6 address after created
    have placed : Placed fresh ranges after := by
      refine List.foldlRecOn requests _ (motive := Placed fresh ranges) ?_ fun state placed request _ =>
        (placed.create request.1 request.2).1
      rw [started]
      refine ⟨rfl, rfl, fun family valid => ?_, fun domain family address found => ?_⟩
      · obtain ⟨rangeValid, first⟩ := ready_start family valid
        exact proper family rangeValid first
      · rw [fresh.unmapped] at found
        cases found
    have isProper := (placed.create domain isIPv6).2 address created
    refine ⟨isProper, ?_⟩
    have inside := isProper.1
    rw [← placed.range] at inside
    unfold contains
    cases isIPv6 with
    | false => exact Bool.or_eq_true_iff.2 (.inl inside)
    | true => exact Bool.or_eq_true_iff.2 (.inr inside)

/-- A range of two addresses: the first address handed out is behind it. -/
theorem created_outside :
    let state := (new (.of (.v4 0xC6120000#32) 31) .zero).start MemoryStorage.ops .new
    (create MemoryStorage.ops "a" false state.1 state.2).1 = .ok (.v4 0xC6120002#32) ∧
      state.1.contains (.v4 0xC6120002#32) = false := by
  decide

end Store

end SideraCore.Dns.FakeIP
