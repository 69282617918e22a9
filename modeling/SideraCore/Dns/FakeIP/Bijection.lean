import SideraCore.Dns.FakeIP.Mapping

/-!
Owns runs of a started FakeIP store: any sequence of `Create`, `Lookup` and
`Reset`, over any storage. Its result is that the storage in memory holds a
bijection in each family at every moment, wherever the allocation stands in its
range, and that the storage in the cache file gives the same answers while its
transactions succeed.
-/

namespace SideraCore.Dns.FakeIP

open Concurrency Experimental

inductive StoreEvent where
  | create (domain : String) (isIPv6 : Bool)
  | lookup (address : Addr)
  | reset
deriving DecidableEq, Repr

inductive StoreAnswer where
  | created (result : Except CreateError Addr)
  | found (domain : Option String)
  | reset (error : Option StorageError)

namespace Store

variable {State : Type} (ops : FakeIPStorage State)

def perform (state : Store × State) : StoreEvent → StoreAnswer × Store × State
  | .create domain isIPv6 =>
      let (result, after) := create ops domain isIPv6 state.1 state.2
      (.created result, after)
  | .lookup address => (.found (lookup ops address state.2), state)
  | .reset =>
      let (error, storage) := reset ops state.2
      (.reset error, state.1, storage)

def machine : Machine (Store × State) StoreEvent where
  step state event := some (perform ops state event).2

def answers : Store × State → List StoreEvent → List StoreAnswer
  | _, [] => []
  | state, event :: rest => (perform ops state event).1 :: answers (perform ops state event).2 rest

/-- The transaction of the operation succeeds, if it makes one. -/
def Succeeds (state : Store × State) : StoreEvent → Prop
  | .create domain isIPv6 =>
      ops.fakeIPLoadDomain state.2 domain isIPv6 = none → (state.1.current isIPv6).isValid = true →
        (ops.fakeIPStore (state.1.nextAddress isIPv6) domain state.2).1 = none
  | .lookup _ => True
  | .reset => (ops.fakeIPReset state.2).1 = none

/-- A new allocation can start: the two addresses after the base exist, or the first
does not and nothing is allocated. -/
structure Allocatable (subnet : Prefix) (isIPv6 : Bool) : Prop where
  family : subnet.isValid = true → subnet.addr.isIPv6 = isIPv6
  roomy : isIPv6 = false → subnet.addr.next.isValid = true → subnet.addr.next.next.isValid = true

/-- The ranges stay, and there is an allocation only where the range has a first
address. -/
structure Steady (store : Store) : Prop where
  allocatable : ∀ isIPv6, Allocatable (store.range isIPv6) isIPv6
  ready : ∀ isIPv6, (store.current isIPv6).isValid = true →
    (store.range isIPv6).isValid = true ∧ (store.range isIPv6).addr.next.isValid = true

variable {ops} {address : Addr} {isIPv6 : Bool} {state : Store × State} {abstract : Store × Mapping}

theorem next_isIPv6 (valid : address.next.isValid = true) : address.next.isIPv6 = address.isIPv6 := by
  cases address with
  | invalid => rfl
  | v4 bits =>
      simp only [Addr.next] at valid ⊢
      split at valid
      · cases valid
      · rename_i notLast
        rw [if_neg notLast]
        rfl
  | v6 bits =>
      simp only [Addr.next]
      split <;> rfl

theorem next_of_v6 (v6 : address.isIPv6 = true) : address.next.isIPv6 = true := by
  cases address with
  | invalid => rfl
  | v4 bits => cases v6
  | v6 bits =>
      simp only [Addr.next]
      split <;> rfl

theorem Steady.nextAddress_isIPv6 {store : Store} (steady : store.Steady)
    (valid : (store.current isIPv6).isValid = true) : (store.nextAddress isIPv6).isIPv6 = isIPv6 := by
  obtain ⟨rangeValid, first⟩ := steady.ready isIPv6 valid
  have family := (steady.allocatable isIPv6).family rangeValid
  unfold nextAddress
  split
  · cases isIPv6 with
    | true => exact next_of_v6 (next_of_v6 family)
    | false =>
        have second := (steady.allocatable false).roomy rfl first
        rw [next_isIPv6 second, next_isIPv6 first, family]
  · rename_i inside
    simp only [wraps, decide_eq_true_eq, not_or, Bool.not_eq_false] at inside
    have same : (store.current isIPv6).next.isIPv6 = (store.range isIPv6).addr.isIPv6 :=
      congrArg Bool.not (Prefix.contains_is4 inside.2)
    exact same.trans family

theorem Steady.setCurrent {store : Store} (steady : store.Steady)
    (valid : (store.current isIPv6).isValid = true) (address : Addr) :
    (store.setCurrent isIPv6 address).Steady where
  allocatable := by simpa using steady.allocatable
  ready := by
    intro other otherValid
    rw [setCurrent_range]
    rw [setCurrent_current] at otherValid
    split at otherValid
    · rename_i same
      rw [same]
      exact steady.ready isIPv6 valid
    · exact steady.ready other otherValid

/-- A store over a storage and one over the mapping that the storage represents. -/
structure Simulates (ops : FakeIPStorage State) (state : Store × State) (abstract : Store × Mapping) :
    Prop where
  store : state.1 = abstract.1
  steady : abstract.1.Steady
  represents : Represents ops state.2 abstract.2

section Refines

variable (refines : Refines ops) (simulates : Simulates ops state abstract)
include refines simulates

theorem Simulates.perform {event : StoreEvent} (succeeds : Succeeds ops state event) :
    (Store.perform ops state event).1 = (Store.perform Mapping.ops abstract event).1 ∧
      Simulates ops (Store.perform ops state event).2 (Store.perform Mapping.ops abstract event).2 := by
  obtain ⟨store, storage⟩ := state
  obtain ⟨other, mapping⟩ := abstract
  obtain ⟨rfl, steady, represents⟩ := simulates
  cases event with
  | create domain isIPv6 =>
      simp only [Store.perform, create, represents.loadDomain]
      cases found : Mapping.ops.fakeIPLoadDomain mapping domain isIPv6 with
      | some address => exact ⟨rfl, rfl, steady, represents⟩
      | none =>
          by_cases valid : (store.current isIPv6).isValid = true
          · rw [if_pos valid, if_pos valid]
            have free : mapping.pairs (store.nextAddress isIPv6).isIPv6 domain = none := by
              rw [steady.nextAddress_isIPv6 valid]
              exact found
            have stored := succeeds (by rw [represents.loadDomain]; exact found) valid
            exact ⟨rfl, rfl, steady.setCurrent valid _, refines.saves _ (refines.stores represents free stored)⟩
          · rw [if_neg valid, if_neg valid]
            exact ⟨rfl, rfl, steady, represents⟩
  | lookup address =>
      refine ⟨?_, rfl, steady, represents⟩
      simp only [Store.perform, lookup, represents.load]
  | reset =>
      have succeeded : (ops.fakeIPReset storage).1 = none := succeeds
      refine ⟨?_, rfl, steady, refines.resets succeeded⟩
      simp only [Store.perform, reset, succeeded]
      rfl

/-- `Lookup` finds the domain that an address was just created for. -/
theorem Simulates.lookup_created {after : Store × State} {domain : String}
    (succeeds : Succeeds ops state (.create domain isIPv6))
    (created : create ops domain isIPv6 state.1 state.2 = (.ok address, after)) :
    lookup ops address after.2 = some domain := by
  obtain ⟨store, storage⟩ := state
  obtain ⟨other, mapping⟩ := abstract
  obtain ⟨rfl, steady, represents⟩ := simulates
  simp only [create] at created
  split at created
  · rename_i found
    obtain ⟨same, rfl⟩ := Prod.mk.inj created
    rw [Except.ok.inj same] at found
    exact ((represents.bijective domain isIPv6 address).1 found).1
  · rename_i missing
    split at created
    · rename_i valid
      obtain ⟨same, rfl⟩ := Prod.mk.inj created
      rw [← Except.ok.inj same]
      have free : mapping.pairs (store.nextAddress isIPv6).isIPv6 domain = none := by
        rw [steady.nextAddress_isIPv6 valid]
        rw [represents.loadDomain] at missing
        exact missing
      have stored := refines.saves (store.setCurrent isIPv6 (store.nextAddress isIPv6)).metadata
        (refines.stores represents free (succeeds missing valid))
      show ops.fakeIPLoad _ _ = _
      rw [stored.load, mapping.load_assign free, Function.update_self]
    · cases (Prod.mk.inj created).1

/-- A whole run: the answers are those of the mapping. -/
theorem Simulates.run {events : List StoreEvent}
    (succeed : (machine ops).Meets (Succeeds ops) state events) :
    answers ops state events = answers Mapping.ops abstract events ∧
      ∀ after, (machine ops).run state events = some after →
        ∃ abstractAfter, Simulates ops after abstractAfter := by
  induction events generalizing state abstract with
  | nil =>
      refine ⟨rfl, fun after ran => ?_⟩
      simp only [Machine.run, Option.some.injEq] at ran
      exact ⟨abstract, ran ▸ simulates⟩
  | cons event rest ih =>
      obtain ⟨same, next⟩ := simulates.perform refines succeed.1
      obtain ⟨answered, reached⟩ := ih next succeed.2
      exact ⟨by rw [answers, answers, same, answered], reached⟩

end Refines

theorem memory_succeeds (state : Store × MemoryStorage) (event : StoreEvent) :
    Succeeds MemoryStorage.ops state event := by
  cases event with
  | create domain isIPv6 => exact fun _ _ => rfl
  | lookup address => trivial
  | reset => rfl

theorem memory_meets (state : Store × MemoryStorage) (events : List StoreEvent) :
    (machine MemoryStorage.ops).Meets (Succeeds MemoryStorage.ops) state events := by
  induction events generalizing state with
  | nil => trivial
  | cons event rest ih =>
      exact ⟨memory_succeeds state event, ih _⟩

variable {inet4Range inet6Range : Prefix}

theorem ready_start (isIPv6 : Bool)
    (valid : (((new inet4Range inet6Range).start Mapping.ops .empty).1.current isIPv6).isValid = true) :
    (if isIPv6 then inet6Range else inet4Range).isValid = true ∧
      (if isIPv6 then inet6Range else inet4Range).addr.next.isValid = true := by
  have first : ∀ subnet : Prefix,
      (if subnet.isValid then subnet.addr.next else Addr.invalid).isValid = true →
        subnet.isValid = true ∧ subnet.addr.next.isValid = true := by
    intro subnet valid
    split at valid
    · rename_i rangeValid
      exact ⟨rangeValid, valid⟩
    · cases valid
  cases isIPv6 with
  | false => exact first inet4Range valid
  | true => exact first inet6Range valid

theorem steady_start (four : Allocatable inet4Range false) (six : Allocatable inet6Range true) :
    ((new inet4Range inet6Range).start Mapping.ops .empty).1.Steady where
  allocatable := by
    intro isIPv6
    cases isIPv6 with
    | false => exact four
    | true => exact six
  ready := by
    intro isIPv6 valid
    have ready := ready_start isIPv6 valid
    cases isIPv6 <;> exact ready

variable (four : Allocatable inet4Range false) (six : Allocatable inet6Range true)
include four six

theorem simulates_memory : Simulates MemoryStorage.ops
    ((new inet4Range inet6Range).start MemoryStorage.ops .new)
    ((new inet4Range inet6Range).start Mapping.ops .empty) :=
  ⟨rfl, steady_start four six, MemoryStorage.represents_new⟩

/-- A FakeIP store in memory holds a bijection in each family at every moment; `Create`
returns the address of a mapped domain, and `Lookup` the domain of a created address.
The cache file gives the same answers while its transactions succeed. -/
theorem fakeIP_bijective {events : List StoreEvent} {after : Store × MemoryStorage}
    (ran : (machine MemoryStorage.ops).run ((new inet4Range inet6Range).start MemoryStorage.ops .new)
      events = some after) :
    (∀ domain isIPv6 address,
      MemoryStorage.ops.fakeIPLoadDomain after.2 domain isIPv6 = some address ↔
        MemoryStorage.ops.fakeIPLoad after.2 address = some domain ∧ address.isIPv6 = isIPv6) ∧
      (∀ domain isIPv6 address,
        MemoryStorage.ops.fakeIPLoadDomain after.2 domain isIPv6 = some address →
          create MemoryStorage.ops domain isIPv6 after.1 after.2 = (.ok address, after)) ∧
      (∀ domain isIPv6 address created,
        create MemoryStorage.ops domain isIPv6 after.1 after.2 = (.ok address, created) →
          lookup MemoryStorage.ops address created.2 = some domain) ∧
      ((machine FakeIPFile.ops).Meets (Succeeds FakeIPFile.ops)
          ((new inet4Range inet6Range).start FakeIPFile.ops (.opened .empty)) events →
        answers FakeIPFile.ops ((new inet4Range inet6Range).start FakeIPFile.ops (.opened .empty)) events =
          answers MemoryStorage.ops ((new inet4Range inet6Range).start MemoryStorage.ops .new) events) := by
  have memory := (simulates_memory four six).run MemoryStorage.refines (memory_meets _ events)
  obtain ⟨abstract, simulates⟩ := memory.2 after ran
  refine ⟨simulates.represents.bijective, fun domain isIPv6 address found => ?_,
    fun domain isIPv6 address created returned => ?_, fun succeed => ?_⟩
  · simp only [create, found]
  · exact simulates.lookup_created MemoryStorage.refines (memory_succeeds _ _) returned
  · have file := Simulates.run FileStorage.refines
      ⟨rfl, steady_start four six, FileStorage.represents_empty⟩ succeed
    rw [file.1, memory.1]

omit four six

/-- A /30 and a /126 in which `b` takes the address of `a`, the last one before the end. -/
theorem fakeIP_bijective_wrapped :
    ∃ after, (machine MemoryStorage.ops).run
        ((new (.of (.v4 0xc6120000#32) 30) (.of (.v6 0xfc000000000000000000000000000000#128) 126)).start
          MemoryStorage.ops .new)
        [.create "a" false, .create "a" true, .create "b" false, .lookup (.v4 0xc6120002#32)] =
          some after ∧
      MemoryStorage.ops.fakeIPLoadDomain after.2 "b" false = some (.v4 0xc6120002#32) ∧
        (MemoryStorage.ops.fakeIPLoad after.2 (.v4 0xc6120002#32) = some "b" ∧
          Addr.isIPv6 (.v4 0xc6120002#32) = false) := by
  have four : Allocatable (.of (.v4 0xc6120000#32) 30) false := ⟨by decide, by decide⟩
  have six : Allocatable (.of (.v6 0xfc000000000000000000000000000000#128) 126) true :=
    ⟨by decide, by decide⟩
  refine ⟨_, rfl, by decide +kernel, ?_⟩
  exact ((@fakeIP_bijective _ _ four six [_, _, _, _] _ rfl).1 "b" false _).1 (by decide +kernel)

/-- At the end of the address space the store hands out the invalid address and
files it with the IPv6 addresses, so that the address that the domain had there
still leads to the domain, but not back. -/
theorem fakeIP_end_of_space :
    ∃ after, (machine MemoryStorage.ops).run
        ((new (.of (.v4 0xfffffffe#32) 31) (.of (.v6 0xfc000000000000000000000000000000#128) 18)).start
          MemoryStorage.ops .new)
        [.create "a" true, .create "a" false] = some after ∧
      MemoryStorage.ops.fakeIPLoad after.2 (.v6 0xfc000000000000000000000000000002#128) = some "a" ∧
        MemoryStorage.ops.fakeIPLoadDomain after.2 "a" true ≠
          some (.v6 0xfc000000000000000000000000000002#128) :=
  ⟨_, rfl, by decide +kernel, by decide +kernel⟩

end Store

end SideraCore.Dns.FakeIP
