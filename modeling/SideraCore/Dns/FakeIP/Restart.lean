import SideraCore.Dns.FakeIP.Bijection

/-!
Owns the life of a FakeIP cache file over restarts: processes that start a store
on the file, create and reset, close it or crash, and the timer that saves the
metadata. Its results are what is left of the old mappings after a start with
other ranges, and where the allocation stands after a crash.

A start also stands for the end of the process before it: the store and the timer are
gone, the buckets stay.
-/

namespace SideraCore.Dns.FakeIP

open Concurrency Experimental FakeIPBuckets FakeIPFile

/-- `Create` on the cache file, by its three outcomes. -/
inductive Store.Created (domain : String) (isIPv6 : Bool) (store : Store) (file : FakeIPFile) :
    Except CreateError Addr × Store × FakeIPFile → Prop
  | loaded {address : Addr} (found : file.buckets.fakeIPLoadDomain domain isIPv6 = some address) :
      Created domain isIPv6 store file (.ok address, store, file)
  | missing (free : file.buckets.fakeIPLoadDomain domain isIPv6 = none)
      (error : CreateError) : Created domain isIPv6 store file (.error error, store, file)
  | allocated (free : file.buckets.fakeIPLoadDomain domain isIPv6 = none)
      (valid : (store.current isIPv6).isValid = true) (after : FakeIPFile)
      (stored : after.buckets =
        if CanPut (store.nextAddress isIPv6) domain then
          file.buckets.withAddress (store.nextAddress isIPv6) domain
        else file.buckets)
      (timer : after.saveMetadataTimer =
        (file.fakeIPSaveMetadataAsync
          (store.setCurrent isIPv6 (store.nextAddress isIPv6)).metadata).saveMetadataTimer) :
      Created domain isIPv6 store file
        (.ok (store.nextAddress isIPv6), store.setCurrent isIPv6 (store.nextAddress isIPv6), after)

theorem Store.create_created (domain : String) (isIPv6 : Bool) (store : Store) (file : FakeIPFile) :
    Store.Created domain isIPv6 store file (Store.create ops domain isIPv6 store file) := by
  unfold Store.create
  cases found : ops.fakeIPLoadDomain file domain isIPv6 with
  | some address => exact .loaded found
  | none =>
      dsimp only
      split
      · rename_i valid
        refine .allocated found valid _ ?_ rfl
        show (ops.fakeIPStore (store.nextAddress isIPv6) domain file).2.buckets = _
        by_cases can : CanPut (store.nextAddress isIPv6) domain
        · rw [if_pos can, fakeIPStore_ok file can]
        · obtain ⟨error, failed⟩ := fakeIPStore_error file can
          rw [if_neg can, failed]
      · exact .missing found _

/-! ### Lives of a cache file -/

structure Life where
  store : Store
  file : FakeIPFile

inductive LifeEvent where
  | start (inet4Range inet6Range : Prefix)
  | create (domain : String) (isIPv6 : Bool)
  | reset
  | close
  | fire
deriving DecidableEq, Repr

namespace Life

def begin : Life := ⟨.new .zero .zero, .opened .empty⟩

def start (life : Life) (inet4Range inet6Range : Prefix) : Life :=
  let (store, file) := (Store.new inet4Range inet6Range).start ops (.opened life.file.buckets)
  ⟨store, file⟩

def create (life : Life) (domain : String) (isIPv6 : Bool) : Life :=
  let (store, file) := (Store.create ops domain isIPv6 life.store life.file).2
  ⟨store, file⟩

def step (life : Life) : LifeEvent → Option Life
  | .start inet4Range inet6Range => some (life.start inet4Range inet6Range)
  | .create domain isIPv6 => some (life.create domain isIPv6)
  | .reset => some { life with file := (Store.reset ops life.file).2 }
  | .close => some { life with file := (life.store.close ops life.file).2 }
  | .fire => life.file.fire.map fun file => { life with file }

def machine : Machine Life LifeEvent := ⟨step⟩

end Life

/-! ### What the buckets hold -/

/-- The same domains and addresses, whatever the metadata. -/
structure SameLoads (before after : FakeIPBuckets) : Prop where
  load : after.fakeIPLoad = before.fakeIPLoad
  loadDomain : after.fakeIPLoadDomain = before.fakeIPLoadDomain

theorem SameLoads.refl (buckets : FakeIPBuckets) : SameLoads buckets buckets := ⟨rfl, rfl⟩

theorem sameLoads_putMetadata (file : FakeIPFile) (metadata : FakeIPMetadata) :
    SameLoads file.buckets (ops.fakeIPSaveMetadata metadata file).2.buckets := by
  refine ⟨?_, rfl⟩
  funext address
  show fakeIPLoad { file.buckets with address := _ } address = _
  unfold fakeIPLoad
  cases file.buckets.address <;> rfl

theorem fakeIPMetadata_eq (file : FakeIPFile) :
    (ops.fakeIPMetadata file).1 = file.buckets.metadata ∧
      SameLoads file.buckets (ops.fakeIPMetadata file).2.buckets ∧
      (ops.fakeIPMetadata file).2.buckets.metadata = none ∧
      ((ops.fakeIPMetadata file).2.buckets.Complete ↔ file.buckets.Complete) := by
  obtain ⟨⟨address, domain4, domain6⟩, timer⟩ := file
  cases address with
  | none => exact ⟨rfl, .refl _, rfl, .rfl⟩
  | some bucket =>
      obtain ⟨domains, metadata⟩ := bucket
      cases metadata with
      | none => exact ⟨rfl, .refl _, rfl, .rfl⟩
      | some metadata => exact ⟨rfl, ⟨rfl, rfl⟩, rfl, .rfl⟩

/-- Every domain stands in the bucket of its address's family and is the domain
of its address. -/
def Backed (buckets : FakeIPBuckets) : Prop :=
  ∀ domain isIPv6 address, buckets.fakeIPLoadDomain domain isIPv6 = some address →
    buckets.fakeIPLoad address = some domain ∧ address.isIPv6 = isIPv6

theorem backed_empty : Backed .empty := by
  intro domain isIPv6 address found
  cases isIPv6 <;> cases found

theorem Backed.sameLoads {before after : FakeIPBuckets} (backed : Backed before)
    (same : SameLoads before after) : Backed after := by
  intro domain isIPv6 address found
  rw [same.loadDomain] at found
  rw [same.load]
  exact backed domain isIPv6 address found

variable {buckets : FakeIPBuckets} {address : Addr} {domain : String} {other : String} {isIPv6 : Bool}

theorem loadDomain_withAddress_ne (different : isIPv6 ≠ address.isIPv6) :
    (buckets.withAddress address domain).fakeIPLoadDomain other isIPv6 =
      buckets.fakeIPLoadDomain other isIPv6 := by
  rw [fakeIPLoadDomain_eq, FileStorage.domain_withAddress, if_neg different, ← fakeIPLoadDomain_eq]

theorem loadDomain_withAddress {held : Addr} (can : CanPut address domain)
    (found : (buckets.withAddress address domain).fakeIPLoadDomain other isIPv6 = some held) :
    other = domain ∧ held = address ∧ isIPv6 = address.isIPv6 ∨
      buckets.fakeIPLoadDomain other isIPv6 = some held ∧
        (isIPv6 = address.isIPv6 →
          (buckets.address.getD .empty).domains address.asSlice ≠ some other) := by
  by_cases same : isIPv6 = address.isIPv6
  · subst same
    rw [FileStorage.fakeIPLoadDomain_withAddress _ can] at found
    split at found
    · rename_i isDomain
      exact .inl ⟨isDomain, (Option.some.inj found).symm, rfl⟩
    · split at found
      · cases found
      · rename_i kept
        exact .inr ⟨found, fun _ => kept⟩
  · rw [loadDomain_withAddress_ne same] at found
    exact .inr ⟨found, fun equal => absurd equal same⟩

theorem Backed.withAddress (backed : Backed buckets) (can : CanPut address domain) :
    Backed (buckets.withAddress address domain) := by
  intro other isIPv6 held found
  rw [FileStorage.fakeIPLoad_withAddress _ can]
  rcases loadDomain_withAddress can found with ⟨rfl, rfl, rfl⟩ | ⟨before, kept⟩
  · exact ⟨Function.update_self .., rfl⟩
  · obtain ⟨loaded, family⟩ := backed other isIPv6 held before
    refine ⟨?_, family⟩
    rw [Function.update_of_ne]
    · exact loaded
    · -- the domain of the address itself was evicted
      rintro rfl
      refine kept family.symm ?_
      unfold fakeIPLoad at loaded
      cases bucket : buckets.address with
      | none => simp [bucket] at loaded
      | some it =>
          rw [bucket, Option.bind_some] at loaded
          exact (Option.filter_eq_some_iff.1 loaded).1

theorem Backed.reset {file : FakeIPFile} (backed : Backed file.buckets) :
    Backed (ops.fakeIPReset file).2.buckets := by
  by_cases complete : file.buckets.Complete
  · rw [fakeIPReset_ok complete]
    exact backed_empty
  · rw [fakeIPReset_error complete]
    exact backed

namespace Life

variable {life after : Life} {inet4Range inet6Range : Prefix}

/-- No metadata of these ranges waits in the file. -/
def Changed (life : Life) (inet4Range inet6Range : Prefix) : Prop :=
  ∀ saved, life.file.buckets.metadata = some saved →
    ¬ (saved.inet4Range = inet4Range ∧ saved.inet6Range = inet6Range)

/-- `Reset` takes effect, or has nothing to do. -/
def Resets (life : Life) : Prop :=
  life.file.buckets.Complete ∨ ∀ address, life.file.buckets.fakeIPLoad address = none

/-- A start takes the metadata out. With that of its ranges it resumes; else it begins
the allocation and resets the file. -/
theorem start_cases (life : Life) (inet4Range inet6Range : Prefix) :
    ∃ file : FakeIPFile, SameLoads life.file.buckets file.buckets ∧ file.buckets.metadata = none ∧
      file.saveMetadataTimer = none ∧ (file.buckets.Complete ↔ life.file.buckets.Complete) ∧
      ((∃ saved, life.file.buckets.metadata = some saved ∧
          (saved.inet4Range = inet4Range ∧ saved.inet6Range = inet6Range) ∧
          life.start inet4Range inet6Range =
            ⟨{ Store.new inet4Range inet6Range with
              inet4Current := saved.inet4Current, inet6Current := saved.inet6Current }, file⟩) ∨
        life.Changed inet4Range inet6Range ∧ life.start inet4Range inet6Range =
          ⟨((Store.new inet4Range inet6Range).start Mapping.ops .empty).1,
            (ops.fakeIPReset file).2⟩) := by
  obtain ⟨found, same, taken, complete⟩ := fakeIPMetadata_eq (.opened life.file.buckets)
  refine ⟨_, same, taken, rfl, complete, ?_⟩
  unfold start Store.start
  dsimp only
  rw [found]
  split
  · rename_i saved resumes
    obtain ⟨isSaved, ranges⟩ := Option.filter_eq_some_iff.1 resumes
    exact .inl ⟨saved, isSaved,
      (Bool.and_eq_true_iff.1 ranges).imp of_decide_eq_true of_decide_eq_true, rfl⟩
  · rename_i resets
    refine .inr ⟨fun saved isSaved ranges => ?_, rfl⟩
    exact Option.filter_eq_none_iff.1 resets saved isSaved
      (Bool.and_eq_true_iff.2 (ranges.imp decide_eq_true decide_eq_true))

theorem backed_step {event : LifeEvent} (stepped : life.step event = some after)
    (backed : Backed life.file.buckets) : Backed after.file.buckets := by
  cases event with
  | start inet4Range inet6Range =>
      cases stepped
      obtain ⟨file, same, -, -, -, ⟨_, -, -, started⟩ | ⟨-, started⟩⟩ :=
        life.start_cases inet4Range inet6Range
      · rw [started]
        exact backed.sameLoads same
      · rw [started]
        exact (backed.sameLoads same).reset
  | create domain isIPv6 =>
      cases stepped
      have created := Store.create_created domain isIPv6 life.store life.file
      show Backed (Store.create ops domain isIPv6 life.store life.file).2.2.buckets
      generalize Store.create ops domain isIPv6 life.store life.file = result at created ⊢
      cases created with
      | loaded | missing => exact backed
      | allocated _ _ file stored =>
          show Backed file.buckets
          rw [stored]
          split
          · rename_i can
            exact backed.withAddress can
          · exact backed
  | reset =>
      cases stepped
      exact backed.reset
  | close =>
      cases stepped
      exact backed.sameLoads (sameLoads_putMetadata life.file life.store.metadata)
  | fire =>
      obtain ⟨file, fired, rfl⟩ := Option.map_eq_some_iff.1 stepped
      unfold FakeIPFile.fire at fired
      split at fired
      · cases fired
        exact backed.sameLoads (sameLoads_putMetadata life.file _)
      · cases fired

/-- The buckets of every file that was used are consistent. -/
theorem backed_of_run {events : List LifeEvent} (ran : machine.run begin events = some life) :
    Backed life.file.buckets := by
  have kept : ∀ before event after, machine.step before event = some after → True →
      Backed before.file.buckets → Backed after.file.buckets := fun _ _ _ stepped _ => backed_step stepped
  exact Machine.run_invariant kept ran (Machine.meets_of_forall fun _ _ => trivial) backed_empty

end Life

/-- Every allocation stays in the range: the address it starts over with lies inside. -/
structure Allots (subnet : Prefix) (isIPv6 : Bool) : Prop where
  family : subnet.isValid = true → subnet.addr.isIPv6 = isIPv6
  restarts : subnet.isValid = true → subnet.addr.next.isValid = true →
    subnet.contains subnet.addr.next.next = true

/-- Every address that the store has mapped lies in the range of its family. -/
structure Inside (inet4Range inet6Range : Prefix) (state : Store × FakeIPFile) : Prop where
  range : ∀ isIPv6, state.1.range isIPv6 = if isIPv6 then inet6Range else inet4Range
  allots : ∀ isIPv6, Allots (state.1.range isIPv6) isIPv6
  ready : ∀ isIPv6, (state.1.current isIPv6).isValid = true →
    (state.1.range isIPv6).isValid = true ∧ (state.1.range isIPv6).addr.next.isValid = true
  mapped : ∀ domain isIPv6 address, state.2.buckets.fakeIPLoadDomain domain isIPv6 = some address →
    (state.1.range isIPv6).contains address = true

namespace Inside

variable {inet4Range inet6Range : Prefix} {state : Store × FakeIPFile}

section

variable (inside : Inside inet4Range inet6Range state)
include inside

theorem nextAddress {isIPv6 : Bool}
    (valid : (state.1.current isIPv6).isValid = true) :
    (state.1.range isIPv6).contains (state.1.nextAddress isIPv6) = true := by
  obtain ⟨rangeValid, first⟩ := inside.ready isIPv6 valid
  unfold Store.nextAddress
  split
  · exact (inside.allots isIPv6).restarts rangeValid first
  · rename_i stays
    simp only [Store.wraps, decide_eq_true_eq, not_or, Bool.not_eq_false] at stays
    exact stays.2

theorem create (domain : String) (isIPv6 : Bool) :
    (∀ address, (Store.create ops domain isIPv6 state.1 state.2).1 = .ok address →
      (state.1.range isIPv6).contains address = true) ∧
      Inside inet4Range inet6Range (Store.create ops domain isIPv6 state.1 state.2).2 := by
  have created := Store.create_created domain isIPv6 state.1 state.2
  generalize Store.create ops domain isIPv6 state.1 state.2 = result at created ⊢
  cases created with
  | loaded found =>
      refine ⟨fun address same => ?_, inside⟩
      rw [← Except.ok.inj same]
      exact inside.mapped domain isIPv6 _ found
  | missing free error => exact ⟨fun address same => (by cases same), inside⟩
  | allocated free valid after stored =>
      have contained := inside.nextAddress valid
      have family : (state.1.nextAddress isIPv6).isIPv6 = isIPv6 := by
        have rangeFamily := (inside.allots isIPv6).family (Prefix.contains_isValid contained).1
        exact (congrArg Bool.not (Prefix.contains_is4 contained)).trans rangeFamily
      refine ⟨fun address same => ?_, by simpa using inside.range, by simpa using inside.allots,
        fun other otherValid => ?_, fun other otherFamily address found => ?_⟩
      · rw [← Except.ok.inj same]
        exact contained
      · simp only [Store.setCurrent_range, Store.setCurrent_current] at otherValid ⊢
        split at otherValid
        · rename_i same
          rw [same]
          exact inside.ready isIPv6 valid
        · exact inside.ready other otherValid
      · simp only [Store.setCurrent_range]
        simp only [stored] at found
        split at found
        · rename_i can
          rcases loadDomain_withAddress can found with ⟨-, rfl, rfl⟩ | ⟨before, -⟩
          · rw [family]
            exact contained
          · exact inside.mapped other otherFamily address before
        · exact inside.mapped other otherFamily address found

theorem perform (event : StoreEvent) :
    Inside inet4Range inet6Range (Store.perform ops state event).2 := by
  cases event with
  | create domain isIPv6 => exact (inside.create domain isIPv6).2
  | lookup address => exact inside
  | reset =>
      refine ⟨inside.range, inside.allots, inside.ready, fun domain isIPv6 address found => ?_⟩
      by_cases complete : state.2.buckets.Complete
      · simp only [Store.perform, Store.reset, fakeIPReset_ok complete] at found
        cases isIPv6 <;> cases found
      · simp only [Store.perform, Store.reset, fakeIPReset_error complete] at found
        exact inside.mapped domain isIPv6 address found

end

end Inside

theorem load_perform {state : Store × FakeIPFile} {event : StoreEvent}
    (found : (Store.perform ops state event).2.2.buckets.fakeIPLoad address = some domain) :
    (∃ before, state.2.buckets.fakeIPLoad address = some before) ∨
      (Store.perform ops state event).1 = .created (.ok address) := by
  cases event with
  | create other isIPv6 =>
      have created := Store.create_created other isIPv6 state.1 state.2
      simp only [Store.perform] at found ⊢
      generalize Store.create ops other isIPv6 state.1 state.2 = result at created found ⊢
      cases created with
      | loaded | missing => exact .inl ⟨domain, found⟩
      | allocated free valid after stored =>
          simp only [stored] at found
          split at found
          · rename_i can
            rw [FileStorage.fakeIPLoad_withAddress _ can] at found
            by_cases same : address = state.1.nextAddress isIPv6
            · exact .inr (by rw [same])
            · rw [Function.update_of_ne same] at found
              exact .inl ⟨domain, found⟩
          · exact .inl ⟨domain, found⟩
  | lookup other => exact .inl ⟨domain, found⟩
  | reset =>
      by_cases complete : state.2.buckets.Complete
      · simp only [Store.perform, Store.reset, fakeIPReset_ok complete] at found
        cases found
      · simp only [Store.perform, Store.reset, fakeIPReset_error complete] at found
        exact .inl ⟨domain, found⟩

/-- After operations on a file without mappings, addresses lie in their ranges and only
returned ones are mapped. -/
theorem inside_of_run {inet4Range inet6Range : Prefix} {state after : Store × FakeIPFile}
    {events : List StoreEvent} (inside : Inside inet4Range inet6Range state)
    (ran : (Store.machine ops).run state events = some after) :
    Inside inet4Range inet6Range after ∧ ∀ address domain, after.2.buckets.fakeIPLoad address = some domain →
      (∃ before, state.2.buckets.fakeIPLoad address = some before) ∨
        .created (.ok address) ∈ Store.answers ops state events := by
  induction events generalizing state with
  | nil =>
      cases ran
      exact ⟨inside, fun address domain found => .inl ⟨domain, found⟩⟩
  | cons event rest ih =>
      obtain ⟨next, stepped, remaining⟩ := Machine.run_cons ran
      cases stepped
      obtain ⟨afterwards, mapped⟩ := ih (inside.perform event) remaining
      refine ⟨afterwards, fun address domain found => ?_⟩
      rcases mapped address domain found with ⟨before, loaded⟩ | answered
      · rcases load_perform loaded with earlier | returned
        · exact .inl earlier
        · exact .inr (List.mem_cons.2 (.inl returned.symm))
      · exact .inr (List.mem_cons_of_mem _ answered)

namespace Life

variable {life : Life} {inet4Range inet6Range : Prefix}

/-- A start with other ranges begins the allocation and resets the file. -/
theorem start_changed (changed : life.Changed inet4Range inet6Range) :
    (life.start inet4Range inet6Range).store =
        ((Store.new inet4Range inet6Range).start Mapping.ops .empty).1 ∧
      ∃ file : FakeIPFile, SameLoads life.file.buckets file.buckets ∧
        (file.buckets.Complete ↔ life.file.buckets.Complete) ∧
        (life.start inet4Range inet6Range).file = (ops.fakeIPReset file).2 := by
  obtain ⟨file, same, -, -, complete, ⟨saved, found, ranges, -⟩ | ⟨-, started⟩⟩ :=
    life.start_cases inet4Range inet6Range
  · exact absurd ranges (changed saved found)
  · rw [started]
    exact ⟨rfl, file, same, complete, rfl⟩

theorem start_range (life : Life) (inet4Range inet6Range : Prefix) (isIPv6 : Bool) :
    (life.start inet4Range inet6Range).store.range isIPv6 =
      if isIPv6 then inet6Range else inet4Range := by
  unfold start Store.start
  dsimp only
  split <;> cases isIPv6 <;> rfl

theorem start_resumed {saved : FakeIPMetadata} (found : life.file.buckets.metadata = some saved)
    (same : saved.inet4Range = inet4Range ∧ saved.inet6Range = inet6Range) :
    (life.start inet4Range inet6Range).store =
        { Store.new inet4Range inet6Range with
          inet4Current := saved.inet4Current, inet6Current := saved.inet6Current } ∧
      SameLoads life.file.buckets (life.start inet4Range inet6Range).file.buckets := by
  obtain ⟨file, loads, -, -, -, ⟨other, isOther, -, started⟩ | ⟨changed, -⟩⟩ :=
    life.start_cases inet4Range inet6Range
  · cases found.symm.trans isOther
    rw [started]
    exact ⟨rfl, loads⟩
  · exact absurd same (changed saved found)

theorem start_clean (life : Life) (inet4Range inet6Range : Prefix) :
    (life.start inet4Range inet6Range).file.buckets.metadata = none ∧
      (life.start inet4Range inet6Range).file.saveMetadataTimer = none := by
  obtain ⟨file, -, taken, timer, -, ⟨_, -, -, started⟩ | ⟨-, started⟩⟩ :=
    life.start_cases inet4Range inet6Range
  · rw [started]
    exact ⟨taken, timer⟩
  · rw [started]
    by_cases complete : file.buckets.Complete
    · rw [fakeIPReset_ok complete]
      exact ⟨rfl, timer⟩
    · rw [fakeIPReset_error complete]
      exact ⟨taken, timer⟩

theorem start_load_none_iff (changed : life.Changed inet4Range inet6Range) :
    (∀ address, (life.start inet4Range inet6Range).file.buckets.fakeIPLoad address = none) ↔
      life.Resets := by
  obtain ⟨-, file, same, complete, started⟩ := start_changed changed
  unfold Resets
  rw [started, ← complete, ← same.load]
  by_cases resets : file.buckets.Complete
  · rw [fakeIPReset_ok resets]
    exact iff_of_true (fun _ => rfl) (.inl resets)
  · rw [fakeIPReset_error resets]
    exact ⟨.inr, fun either => either.resolve_left resets⟩

theorem inside_start (backed : Backed life.file.buckets) (changed : life.Changed inet4Range inet6Range)
    (resets : life.Resets) (four : Allots inet4Range false) (six : Allots inet6Range true) :
    Inside inet4Range inet6Range
      ((life.start inet4Range inet6Range).store, (life.start inet4Range inet6Range).file) := by
  have unmapped := (start_load_none_iff changed).2 resets
  obtain ⟨store, file, same, -, started⟩ := start_changed changed
  have consistent : Backed (life.start inet4Range inet6Range).file.buckets := by
    rw [started]
    exact (backed.sameLoads same).reset
  refine ⟨life.start_range _ _, fun isIPv6 => ?_, fun isIPv6 valid => ?_,
    fun domain isIPv6 address found => ?_⟩
  · rw [start_range]
    cases isIPv6 with
    | false => exact four
    | true => exact six
  · rw [start_range]
    rw [store] at valid
    exact Store.ready_start isIPv6 valid
  · have loaded := (consistent domain isIPv6 address found).1
    rw [unmapped] at loaded
    cases loaded

/-- A start with other ranges discards the old mappings iff `Reset` takes effect or has
nothing to do; it does not if one of the families was never used. Then, with ranges in
which the allocation stays, `Create` returns addresses of its ranges, and `Lookup` finds
only addresses returned since. -/
theorem changed_ranges_discard {events : List LifeEvent} (ran : machine.run begin events = some life)
    (changed : life.Changed inet4Range inet6Range) :
    ((∀ address, Store.lookup ops address (life.start inet4Range inet6Range).file = none) ↔
        life.Resets) ∧
      (life.Resets → Allots inet4Range false → Allots inet6Range true →
        ∀ later after, (Store.machine ops).run
            ((life.start inet4Range inet6Range).store, (life.start inet4Range inet6Range).file) later =
              some after →
          (∀ domain isIPv6 address,
            (Store.create ops domain isIPv6 after.1 after.2).1 = .ok address →
              (if isIPv6 then inet6Range else inet4Range).contains address = true) ∧
            ∀ address domain, Store.lookup ops address after.2 = some domain →
              .created (.ok address) ∈ Store.answers ops
                ((life.start inet4Range inet6Range).store, (life.start inet4Range inet6Range).file)
                later) := by
  refine ⟨start_load_none_iff changed, fun resets four six later after ranLater => ?_⟩
  have started := inside_start (backed_of_run ran) changed resets four six
  obtain ⟨inside, mapped⟩ := inside_of_run started ranLater
  refine ⟨fun domain isIPv6 address created => ?_, fun address domain found => ?_⟩
  · rw [← inside.range]
    exact (inside.create domain isIPv6).1 address created
  · rcases mapped address domain found with ⟨before, loaded⟩ | returned
    · rw [(start_load_none_iff changed).2 resets] at loaded
      cases loaded
    · exact returned

/-- Both families were used before the ranges changed. -/
theorem changed_ranges_discard_both :
    ∃ life, machine.run begin
        [.start (.of (.v4 0xc6120000#32) 15) (.of (.v6 0xfc000000000000000000000000000000#128) 18),
          .create "a" false, .create "a" true, .close] = some life ∧
      life.file.buckets.fakeIPLoad (.v4 0xc6120002#32) = some "a" ∧
        (∀ address, Store.lookup ops address
          (life.start (.of (.v4 0x0a000000#32) 8) .zero).file = none) ∧
        ∀ later after, (Store.machine ops).run
            ((life.start (.of (.v4 0x0a000000#32) 8) .zero).store,
              (life.start (.of (.v4 0x0a000000#32) 8) .zero).file) later = some after →
          ∀ domain address, (Store.create ops domain false after.1 after.2).1 = .ok address →
            Prefix.contains (.of (.v4 0x0a000000#32) 8) address = true := by
  have ran : machine.run begin
      [.start (.of (.v4 0xc6120000#32) 15) (.of (.v6 0xfc000000000000000000000000000000#128) 18),
        .create "a" false, .create "a" true, .close] = some _ := rfl
  obtain ⟨discarded, inRange⟩ :=
    @changed_ranges_discard _ (.of (.v4 0x0a000000#32) 8) .zero _ ran (by
      rintro saved found ⟨same, -⟩
      have four := congrArg (Option.map FakeIPMetadata.inet4Range) found
      rw [Option.map_some, same] at four
      exact absurd four (by decide +kernel))
  refine ⟨_, ran, by decide +kernel, discarded.2 (.inl (by decide +kernel)),
    fun later after ranLater domain => ?_⟩
  exact (inRange (.inl (by decide +kernel)) ⟨fun _ => rfl, fun _ _ => by decide⟩
    ⟨fun valid => (by cases valid), fun valid => (by cases valid)⟩ later after ranLater).1 domain false

/-- With IPv4 alone in use there is no bucket of IPv6 domains, `Reset` fails, and
the old address is still found and still returned. -/
theorem changed_range_keeps_address :
    ∃ life, machine.run begin
        [.start (.of (.v4 0xc6120000#32) 15) .zero, .create "a" false, .close] = some life ∧
      life.file.buckets.metadata.map FakeIPMetadata.inet4Range ≠ some (.of (.v4 0x0a000000#32) 8) ∧
        Store.lookup ops (.v4 0xc6120002#32)
            (life.start (.of (.v4 0x0a000000#32) 8) .zero).file = some "a" ∧
          (Store.create ops "a" false (life.start (.of (.v4 0x0a000000#32) 8) .zero).store
            (life.start (.of (.v4 0x0a000000#32) 8) .zero).file).1.toOption = some (.v4 0xc6120002#32) ∧
          Prefix.contains (.of (.v4 0x0a000000#32) 8) (.v4 0xc6120002#32) = false :=
  ⟨_, rfl, by decide +kernel, by decide +kernel, by decide +kernel, by decide⟩

end Life

end SideraCore.Dns.FakeIP
