import SideraCore.Dns.FakeIP.Restart

/-!
Owns crashes: lives of a cache file with one pair of ranges in which a process
creates addresses, the timer fires, and the process ends without `Close`. Its
result says where the allocation resumes, and that an address that is mapped is
not given to another domain before the range has wrapped around.
-/

namespace SideraCore.Dns

def Addr.toNat : Addr → Nat
  | .invalid => 0
  | .v4 bits => bits.toNat
  | .v6 bits => bits.toNat

theorem Addr.next_toNat {address : Addr} (valid : address.next.isValid = true) :
    address.next.toNat = address.toNat + 1 := by
  have below {width : Nat} {bits : BitVec width} (notLast : bits ≠ BitVec.allOnes width) :
      bits.toNat + 1 < 2 ^ width := by
    have distinct : bits.toNat ≠ 2 ^ width - 1 := fun equal =>
      notLast (BitVec.eq_of_toNat_eq (by rw [equal, BitVec.toNat_allOnes]))
    omega
  cases address with
  | invalid => cases valid
  | v4 bits | v6 bits =>
      simp only [next] at valid ⊢
      split at valid
      · cases valid
      rename_i notLast
      have room := below notLast
      rw [if_neg notLast]
      simp only [toNat, BitVec.toNat_add, BitVec.ofNat_eq_ofNat, BitVec.toNat_ofNat]
      omega

theorem Addr.isValid_of_next {address : Addr} (valid : address.next.isValid = true) :
    address.isValid = true := by
  cases address with
  | invalid => cases valid
  | v4 bits | v6 bits => rfl

namespace FakeIP

open Concurrency Experimental FakeIPBuckets FakeIP.Store FakeIPFile

inductive CrashEvent where
  | create (domain : String) (isIPv6 : Bool)
  | fire
  | restart
deriving DecidableEq, Repr

def Life.currents (life : Life) : Addr × Addr := (life.store.inet4Current, life.store.inet6Current)

/-- A life with the current addresses when the timer was made and when it last fired,
and the families whose allocation has started over since there were no mappings. -/
structure Lived where
  life : Life
  timed : Option (Addr × Addr)
  fired : Option (Addr × Addr)
  wrapped : Bool → Bool

namespace Lived

variable (inet4Range inet6Range : Prefix)

def begin : Lived := ⟨Life.begin.start inet4Range inet6Range, none, none, fun _ => false⟩

def Allocates (lived : Lived) (domain : String) (isIPv6 : Bool) : Prop :=
  lived.life.file.buckets.fakeIPLoadDomain domain isIPv6 = none ∧
    (lived.life.store.current isIPv6).isValid = true

instance (lived : Lived) (domain : String) (isIPv6 : Bool) : Decidable (lived.Allocates domain isIPv6) :=
  inferInstanceAs (Decidable (_ ∧ _))

def step (lived : Lived) : CrashEvent → Option Lived
  | .create domain isIPv6 =>
      let life := lived.life.create domain isIPv6
      some { lived with
        life
        timed := if lived.life.file.saveMetadataTimer.isNone then some life.currents else lived.timed
        wrapped :=
          if lived.Allocates domain isIPv6 ∧ lived.life.store.wraps isIPv6 = true then
            Function.update lived.wrapped isIPv6 true
          else lived.wrapped }
  | .fire =>
      (lived.life.step .fire).map fun life =>
        { lived with life, fired := some life.currents }
  | .restart =>
      some {
        life := lived.life.start inet4Range inet6Range
        timed := none
        fired := none
        wrapped := if lived.life.file.buckets.metadata.isSome then lived.wrapped else fun _ => false }

def machine : Machine Lived CrashEvent := ⟨step inet4Range inet6Range⟩

/-- The timer fires before another address is allocated than the one it was made with,
and a process ends before another is allocated than when it fired, or with nothing saved
and a `Reset` that takes effect. -/
def Timely (lived : Lived) : CrashEvent → Prop
  | .create _ _ => True
  | .fire => lived.timed = some lived.life.currents
  | .restart =>
      if lived.life.file.buckets.metadata.isSome then lived.fired = some lived.life.currents
      else lived.life.Resets

structure OwnFamilies : Prop where
  four : inet4Range.isValid = true → inet4Range.addr.isIPv6 = false
  six : inet6Range.isValid = true → inet6Range.addr.isIPv6 = true

theorem OwnFamilies.range {inet4Range inet6Range : Prefix} (families : OwnFamilies inet4Range inet6Range)
    (isIPv6 : Bool) (valid : (if isIPv6 then inet6Range else inet4Range).isValid = true) :
    (if isIPv6 then inet6Range else inet4Range).addr.isIPv6 = isIPv6 := by
  cases isIPv6 with
  | false => exact families.four valid
  | true => exact families.six valid

/-- What every step that does not lose the allocation keeps. -/
structure Surviving (lived : Lived) : Prop where
  range : ∀ isIPv6, lived.life.store.range isIPv6 = if isIPv6 then inet6Range else inet4Range
  captured : ∀ timer ∈ lived.life.file.saveMetadataTimer,
    (timer.metadata.inet4Range = inet4Range ∧ timer.metadata.inet6Range = inet6Range) ∧
      lived.timed = some (timer.metadata.inet4Current, timer.metadata.inet6Current)
  saved : ∀ saved ∈ lived.life.file.buckets.metadata,
    (saved.inet4Range = inet4Range ∧ saved.inet6Range = inet6Range) ∧
      lived.fired = some (saved.inet4Current, saved.inet6Current)
  family : ∀ isIPv6, (lived.life.store.current isIPv6).isValid = true →
    (lived.life.store.range isIPv6).isValid = true ∧
      (lived.life.store.current isIPv6).isIPv6 = isIPv6
  below : ∀ isIPv6, lived.wrapped isIPv6 = false → ∀ address domain,
    lived.life.file.buckets.fakeIPLoad address = some domain → address.isIPv6 = isIPv6 →
      address.toNat ≤ (lived.life.store.current isIPv6).toNat

variable {inet4Range inet6Range}

namespace Surviving

variable {lived after : Lived} {isIPv6 : Bool} (surviving : Surviving inet4Range inet6Range lived)
  (families : OwnFamilies inet4Range inet6Range)

include families in
theorem start_reset {life : Life}
    (unsaved : life.file.buckets.metadata = none) (resets : life.Resets) (wrapped : Bool → Bool) :
    Surviving inet4Range inet6Range ⟨life.start inet4Range inet6Range, none, none, wrapped⟩ := by
  have changed : life.Changed inet4Range inet6Range := by
    intro saved isSaved
    rw [unsaved] at isSaved
    cases isSaved
  obtain ⟨taken, timer⟩ := life.start_clean inet4Range inet6Range
  obtain ⟨store, -⟩ := Life.start_changed changed
  have unmapped := (Life.start_load_none_iff changed).2 resets
  refine ⟨life.start_range _ _, by simp [timer], by simp [taken], fun isIPv6 valid => ?_,
    fun isIPv6 _ address domain loaded => ?_⟩
  · rw [Life.start_range]
    rw [store] at valid ⊢
    obtain ⟨rangeValid, first⟩ := ready_start isIPv6 valid
    have begins : ((new inet4Range inet6Range).start Mapping.ops .empty).1.current isIPv6 =
        (if isIPv6 then inet6Range else inet4Range).addr.next := by
      cases isIPv6 with
      | false | true => exact if_pos rangeValid
    rw [begins, next_isIPv6 first]
    exact ⟨rangeValid, families.range isIPv6 rangeValid⟩
  · rw [unmapped] at loaded
    cases loaded

section Surviving

include surviving

/-- The address after the current one is not mapped. -/
theorem next_unmapped (unwrapped : lived.wrapped isIPv6 = false)
    (stays : lived.life.store.wraps isIPv6 = false) :
    (lived.life.store.nextAddress isIPv6).isIPv6 = isIPv6 ∧
      (lived.life.store.nextAddress isIPv6).toNat = (lived.life.store.current isIPv6).toNat + 1 ∧
      lived.life.file.buckets.fakeIPLoad (lived.life.store.nextAddress isIPv6) = none := by
  have next : lived.life.store.nextAddress isIPv6 = (lived.life.store.current isIPv6).next := by
    rw [nextAddress, stays]
    rfl
  simp only [wraps, decide_eq_false_iff_not, not_or, Bool.not_eq_false] at stays
  have valid := (Prefix.contains_isValid stays.2).2
  have family : (lived.life.store.current isIPv6).next.isIPv6 = isIPv6 := by
    rw [next_isIPv6 valid]
    exact (surviving.family isIPv6 (Addr.isValid_of_next valid)).2
  have place := Addr.next_toNat valid
  rw [next]
  refine ⟨family, place, Option.eq_none_iff_forall_ne_some.2 fun domain found => ?_⟩
  have below := surviving.below isIPv6 unwrapped _ domain found family
  omega

theorem captured_async {address : Addr} {timer : SaveMetadataTimer}
    (member : timer ∈ (lived.life.file.fakeIPSaveMetadataAsync
      (lived.life.store.setCurrent isIPv6 address).metadata).saveMetadataTimer) :
    (timer.metadata.inet4Range = inet4Range ∧ timer.metadata.inet6Range = inet6Range) ∧
      (if lived.life.file.saveMetadataTimer.isNone then
          some (Life.currents ⟨lived.life.store.setCurrent isIPv6 address, lived.life.file⟩)
        else lived.timed) = some (timer.metadata.inet4Current, timer.metadata.inet6Current) := by
  unfold fakeIPSaveMetadataAsync at member
  cases made : lived.life.file.saveMetadataTimer with
  | none =>
      simp only [made, Option.mem_def, Option.some.injEq] at member
      subst member
      have ranges := fun other => (lived.life.store.setCurrent_range isIPv6 address other).trans
        (surviving.range other)
      exact ⟨⟨ranges false, ranges true⟩, rfl⟩
  | some existing =>
      simp only [made, Option.mem_def, Option.some.injEq] at member
      subst member
      exact surviving.captured existing made

theorem fire (timely : lived.Timely .fire)
    (stepped : lived.step inet4Range inet6Range .fire = some after) :
    Surviving inet4Range inet6Range after := by
  obtain ⟨life, fired, rfl⟩ := Option.map_eq_some_iff.1 stepped
  obtain ⟨file, filed, rfl⟩ := Option.map_eq_some_iff.1 fired
  unfold fire at filed
  split at filed
  · rename_i metadata running
    cases filed
    obtain ⟨captured, timed⟩ := surviving.captured _ running
    have current := Option.some.inj (timely.symm.trans timed)
    have same := sameLoads_putMetadata lived.life.file metadata
    refine ⟨surviving.range, fun timer member => ?_, fun saved found => ?_, surviving.family,
      fun isIPv6 unwrapped address domain found => ?_⟩
    · cases member
      exact ⟨captured, timed⟩
    · cases found
      exact ⟨captured, congrArg some current⟩
    · rw [same.load] at found
      exact surviving.below isIPv6 unwrapped address domain found
  · cases filed

include families

theorem nextAddress_isIPv6
    (valid : (lived.life.store.current isIPv6).isValid = true)
    (allocated : (lived.life.store.nextAddress isIPv6).isValid = true) :
    (lived.life.store.nextAddress isIPv6).isIPv6 = isIPv6 := by
  obtain ⟨rangeValid, currentFamily⟩ := surviving.family isIPv6 valid
  unfold nextAddress at allocated ⊢
  split at allocated
  · rename_i wraps
    rw [if_pos wraps, next_isIPv6 allocated, next_isIPv6 (Addr.isValid_of_next allocated)]
    rw [surviving.range] at rangeValid ⊢
    exact families.range isIPv6 rangeValid
  · rename_i stays
    rw [if_neg stays, next_isIPv6 allocated, currentFamily]

/-- `Create` keeps the mapped addresses up to the current one, unless the allocation
starts over. -/
theorem create {domain : String}
    (stepped : lived.step inet4Range inet6Range (.create domain isIPv6) = some after) :
    Surviving inet4Range inet6Range after := by
  cases stepped
  -- a family that has not started over had not done so before
  have unwrapped (other : Bool) (now : (if lived.Allocates domain isIPv6 ∧
      lived.life.store.wraps isIPv6 = true then Function.update lived.wrapped isIPv6 true
        else lived.wrapped) other = false) :
      lived.wrapped other = false ∧ (other = isIPv6 → lived.Allocates domain isIPv6 →
        lived.life.store.wraps isIPv6 = false) := by
    split at now
    · by_cases same : other = isIPv6
      · rw [same, Function.update_self] at now
        cases now
      · rw [Function.update_of_ne same] at now
        exact ⟨now, fun equal => absurd equal same⟩
    · rename_i stays
      exact ⟨now, fun _ allocates => by simpa using fun wraps => stays ⟨allocates, wraps⟩⟩
  have created := create_created domain isIPv6 lived.life.store lived.life.file
  simp only [Life.create]
  generalize create ops domain isIPv6 lived.life.store lived.life.file = result
    at created ⊢
  cases created with
  | loaded found | missing free error =>
      refine ⟨surviving.range, fun timer made => ?_, surviving.saved, surviving.family,
        fun other now => surviving.below other (unwrapped other now).1⟩
      rw [Option.mem_def.1 made]
      exact surviving.captured timer made
  | allocated free valid file stored timer =>
      obtain ⟨rangeValid, currentFamily⟩ := surviving.family isIPv6 valid
      have metadata : file.buckets.metadata = lived.life.file.buckets.metadata := by
        rw [stored]
        split
        · unfold FakeIPBuckets.withAddress FakeIPBuckets.metadata FakeIPBuckets.setDomain
          cases lived.life.file.buckets.address <;> rfl
        · rfl
      refine ⟨by simpa using surviving.range, fun made member => ?_, fun saved found => ?_,
        fun other otherValid => ?_, fun other now address mapped found family => ?_⟩
      · rw [timer] at member
        exact captured_async surviving member
      · exact surviving.saved saved (metadata ▸ found)
      · simp only [setCurrent_current, setCurrent_range] at otherValid ⊢
        split at otherValid
        · rename_i same
          rw [if_pos same, same]
          exact ⟨rangeValid, surviving.nextAddress_isIPv6 families valid otherValid⟩
        · rename_i different
          rw [if_neg different]
          exact surviving.family other otherValid
      · obtain ⟨before, stays⟩ := unwrapped other now
        have old (earlier : lived.life.file.buckets.fakeIPLoad address = some mapped) :
            address.toNat ≤ ((lived.life.store.setCurrent isIPv6
              (lived.life.store.nextAddress isIPv6)).current other).toNat := by
          have below := surviving.below other before address mapped earlier family
          rw [setCurrent_current]
          split
          · rename_i same
            subst same
            have place := (surviving.next_unmapped before (stays rfl ⟨free, valid⟩)).2.1
            omega
          · exact below
        simp only [stored] at found
        split at found
        · rename_i can
          rw [FileStorage.fakeIPLoad_withAddress _ can] at found
          by_cases same : address = lived.life.store.nextAddress isIPv6
          · have isValid : (lived.life.store.nextAddress isIPv6).isValid = true := by
              cases allocated : lived.life.store.nextAddress isIPv6 with
              | invalid => exact absurd allocated can.valid
              | v4 bits | v6 bits => rfl
            have isFamily := surviving.nextAddress_isIPv6 families valid isValid
            rw [setCurrent_current, if_pos (by rw [← family, same, isFamily]), same]
          · rw [Function.update_of_ne same] at found
            exact old found
        · exact old found

/-- A process resumes at the last allocation, or without any mapping. -/
theorem restart (timely : lived.Timely .restart)
    (stepped : lived.step inet4Range inet6Range .restart = some after) :
    Surviving inet4Range inet6Range after := by
  cases stepped
  unfold Timely at timely
  cases found : lived.life.file.buckets.metadata with
  | none =>
      rw [found] at timely
      exact start_reset families found timely _
  | some saved =>
      obtain ⟨ranges, fired⟩ := surviving.saved saved found
      rw [found, fired] at timely
      obtain ⟨isFour, isSix⟩ := Prod.mk.inj (Option.some.inj timely)
      obtain ⟨taken, timer⟩ := lived.life.start_clean inet4Range inet6Range
      obtain ⟨store, same⟩ := Life.start_resumed found ranges
      have current (isIPv6 : Bool) : (lived.life.start inet4Range inet6Range).store.current isIPv6 =
          lived.life.store.current isIPv6 := by
        rw [store]
        cases isIPv6 with
        | false => exact isFour
        | true => exact isSix
      refine ⟨lived.life.start_range _ _, by simp [timer], by simp [taken], fun isIPv6 valid => ?_,
        fun isIPv6 unwrapped address domain loaded => ?_⟩
      · rw [current] at valid
        rw [Life.start_range, current, ← surviving.range]
        exact surviving.family isIPv6 valid
      · rw [same.load] at loaded
        rw [current]
        exact surviving.below isIPv6 (by simpa [found] using unwrapped) address domain loaded

theorem step {event : CrashEvent} (timely : lived.Timely event)
    (stepped : lived.step inet4Range inet6Range event = some after) :
    Surviving inet4Range inet6Range after := by
  cases event with
  | create domain isIPv6 => exact surviving.create families stepped
  | fire => exact surviving.fire timely stepped
  | restart => exact surviving.restart families timely stepped

end Surviving

end Surviving

variable {lived : Lived}

/-- The invariant of runs without a lost allocation. -/
theorem surviving_of_run (families : OwnFamilies inet4Range inet6Range) {events : List CrashEvent}
    (ran : (machine inet4Range inet6Range).run (begin inet4Range inet6Range) events = some lived)
    (timely : (machine inet4Range inet6Range).Meets Timely (begin inet4Range inet6Range) events) :
    Surviving inet4Range inet6Range lived := by
  have kept : ∀ before event after, (machine inet4Range inet6Range).step before event = some after →
      before.Timely event → Surviving inet4Range inet6Range before →
        Surviving inet4Range inet6Range after :=
    fun _ _ _ stepped timely surviving => surviving.step families timely stepped
  exact Machine.run_invariant kept ran timely
    (Surviving.start_reset families rfl (.inr fun _ => rfl) _)

/-- In every run whose steps do not lose it, the waiting metadata has the addresses of
the last `Create` before the timer fired, the next start resumes there, and until the
range has wrapped around no address is given to a domain while it is mapped. -/
theorem allocation_survives_crash (families : OwnFamilies inet4Range inet6Range)
    {events : List CrashEvent} {lived : Lived}
    (ran : (machine inet4Range inet6Range).run (begin inet4Range inet6Range) events = some lived)
    (timely : (machine inet4Range inet6Range).Meets Timely (begin inet4Range inet6Range) events) :
    (∀ saved, lived.life.file.buckets.metadata = some saved →
      lived.fired = some (saved.inet4Current, saved.inet6Current) ∧
        (lived.life.start inet4Range inet6Range).store.inet4Current = saved.inet4Current ∧
        (lived.life.start inet4Range inet6Range).store.inet6Current = saved.inet6Current) ∧
      ∀ domain isIPv6 address, lived.Allocates domain isIPv6 →
        (create ops domain isIPv6 lived.life.store lived.life.file).1 = .ok address →
          lived.wrapped isIPv6 = false → lived.life.store.wraps isIPv6 = false →
            lookup ops address lived.life.file = none := by
  have surviving := surviving_of_run families ran timely
  refine ⟨fun saved found => ?_, fun domain isIPv6 address allocates returned unwrapped stays => ?_⟩
  · obtain ⟨ranges, fired⟩ := surviving.saved saved found
    obtain ⟨store, -⟩ := Life.start_resumed found ranges
    exact ⟨fired, by rw [store], by rw [store]⟩
  · have created := create_created domain isIPv6 lived.life.store lived.life.file
    generalize create ops domain isIPv6 lived.life.store lived.life.file = result
      at created returned
    cases created with
    | loaded found =>
        rw [allocates.1] at found
        cases found
    | missing free error => cases returned
    | allocated =>
        obtain rfl := Except.ok.inj returned
        exact (surviving.next_unmapped unwrapped stays).2.2

theorem timely_restart_of_saved (saved : lived.life.file.buckets.metadata.isSome = true)
    (current : lived.fired = some lived.life.currents) : lived.Timely .restart := by
  unfold Timely
  rwa [if_pos saved]

/-- One address is created and saved before the crash; the next domain gets the next address. -/
theorem allocation_survives_crash_once :
    ∃ lived, (machine (.of (.v4 0xc6120000#32) 15) .zero).run (begin (.of (.v4 0xc6120000#32) 15) .zero)
        [.create "a" false, .fire, .restart] = some lived ∧
      (create ops "b" false lived.life.store lived.life.file).1.toOption =
          some (.v4 0xc6120003#32) ∧
        lookup ops (.v4 0xc6120003#32) lived.life.file = none := by
  have ran : (machine (.of (.v4 0xc6120000#32) 15) .zero).run (begin (.of (.v4 0xc6120000#32) 15) .zero)
      [.create "a" false, .fire, .restart] = some _ := rfl
  have timely : (machine (.of (.v4 0xc6120000#32) 15) .zero).Meets Timely
      (begin (.of (.v4 0xc6120000#32) 15) .zero) [.create "a" false, .fire, .restart] :=
    ⟨trivial, rfl, timely_restart_of_saved (by decide +kernel) rfl, trivial⟩
  have families : OwnFamilies (.of (.v4 0xc6120000#32) 15) .zero := ⟨by decide, by decide⟩
  refine ⟨_, ran, by decide +kernel, ?_⟩
  exact (allocation_survives_crash families ran timely).2 "b" false _ (by decide +kernel)
    (by decide +kernel) (by decide +kernel) (by decide +kernel)

/-- The timer saves what it captured with the first address, so that the domain
created after the crash gets the address of the second. -/
theorem crash_reassigns_address :
    ∃ lived, (machine (.of (.v4 0xc6120000#32) 15) .zero).run (begin (.of (.v4 0xc6120000#32) 15) .zero)
        [.create "a" false, .create "b" false, .fire] = some lived ∧
      lived.life.file.buckets.metadata.map FakeIPMetadata.inet4Current ≠ lived.fired.map Prod.fst ∧
        (create ops "c" false
          (lived.life.start (.of (.v4 0xc6120000#32) 15) .zero).store
          (lived.life.start (.of (.v4 0xc6120000#32) 15) .zero).file).1.toOption =
            some (.v4 0xc6120003#32) ∧
          lookup ops (.v4 0xc6120003#32)
            (lived.life.start (.of (.v4 0xc6120000#32) 15) .zero).file = some "b" :=
  ⟨_, rfl, by decide +kernel, by decide +kernel, by decide +kernel⟩

end Lived

end FakeIP

end SideraCore.Dns
