import SideraCore.Experimental.DnsSaves

/-!
Owns what asynchronous DNS cache saves keep as long as the cache is not
cleared: one flush loop for a key, writes in the order of the saves, and loads
that see the save they follow.

The invariant `Slot.Ordered` compares sequence numbers through the numbers of their
saves, while a key has fewer saves than 64 bits can tell apart.
-/

namespace SideraCore.Experimental

open Concurrency

variable {Raw : Type}

namespace Slot

def attempted (slot : Slot Raw) : List Nat := slot.written ++ slot.failed

/-- Where a flush loop may stand while `current` waits. -/
def Follows (slot : Slot Raw) (current : SaveDNSCacheEntry (Numbered Raw)) :
    FlushStage (Numbered Raw) → Prop
  | .load => ∀ number ∈ slot.attempted, number < current.rawMessage.number
  | .save entry =>
      slot.Queued entry ∧ entry.Older current ∧
        ∀ number ∈ slot.attempted, number < entry.rawMessage.number
  | .settle entry =>
      entry.Older current ∧ entry.rawMessage.number ∈ slot.attempted ∧
        ∀ number ∈ slot.attempted, number ≤ entry.rawMessage.number

/-- The invariant of a key while the cache is not cleared. -/
structure Ordered (slot : Slot Raw) : Prop where
  run : slot.Runs (slot.queued = [] ∨ slot.queued.length ∈ slot.attempted) slot.Follows
  attempts : ∀ number ∈ slot.attempted, 0 < number ∧ number ≤ slot.queued.length
  ascending : slot.written.Pairwise (· < ·)
  latest : slot.stored = slot.written.getLast?.bind slot.content

/-! ### One step of a slot -/

variable {slot : Slot Raw}

theorem Follows.save {current : SaveDNSCacheEntry (Numbered Raw)} {stage : FlushStage (Numbered Raw)}
    (follows : slot.Follows current stage) (rawMessage : Raw) (expireAt : Time) :
    (slot.save rawMessage expireAt).Follows
      (.next (some current) ⟨rawMessage, current.rawMessage.number + 1⟩ expireAt) stage := by
  cases stage with
  | load => exact fun number tried => Nat.lt_succ_of_lt (follows number tried)
  | save entry => exact ⟨follows.1.save _ _, follows.2.1.next _ _, follows.2.2⟩
  | settle entry => exact ⟨follows.1.next _ _, follows.2⟩

theorem Ordered.save (ordered : slot.Ordered) (rawMessage : Raw) (expireAt : Time) :
    (slot.save rawMessage expireAt).Ordered where
  run := by
    refine ordered.run.save rawMessage expireAt (fun current newest number tried => ?_)
      fun current stage _ follows => follows.save rawMessage expireAt
    rw [newest]
    exact Nat.lt_succ_of_le (ordered.attempts number tried).2
  attempts := by
    intro number tried
    obtain ⟨positive, below⟩ := ordered.attempts number tried
    exact ⟨positive, by simp only [Slot.save, List.length_append]; omega⟩
  ascending := ordered.ascending
  latest := by
    show slot.stored = _
    rw [ordered.latest]
    refine Option.bind_congr fun number last => ?_
    have tried : number ∈ slot.attempted :=
      List.mem_append_left _ (List.mem_of_getLast? last)
    exact (content_save (ordered.attempts number tried).1 (ordered.attempts number tried).2 _ _).symm

theorem mem_attempted {number : Nat} :
    number ∈ slot.attempted ↔ number ∈ slot.written ∨ number ∈ slot.failed := List.mem_append

variable {left right : List (FlushStage (Numbered Raw))} {entry : SaveDNSCacheEntry (Numbered Raw)}

theorem Ordered.tried (ordered : slot.Ordered) (stages : slot.stages = left ++ .save entry :: right)
    {after : Slot Raw} (settling : after.stages = left ++ .settle entry :: right)
    (pending : after.pending = slot.pending) (queued : after.queued = slot.queued)
    (attempted : ∀ number, number ∈ after.attempted ↔
      number ∈ slot.attempted ∨ number = entry.rawMessage.number) :
    after.Runs (after.queued = [] ∨ after.queued.length ∈ after.attempted) after.Follows ∧
      ∀ number ∈ after.attempted, 0 < number ∧ number ≤ after.queued.length := by
  obtain ⟨current, waiting⟩ := ordered.run.busy stages
  obtain ⟨rfl, rfl, waits, copied, older, newer⟩ := ordered.run.waits stages waiting
  constructor
  · refine Runs.move waits settling (pending.trans waiting) queued
      ⟨older, (attempted _).2 (.inr rfl), fun number tried => ?_⟩
    rcases (attempted number).1 tried with earlier | rfl
    · exact Nat.le_of_lt (newer number earlier)
    · exact Nat.le_refl _
  · intro number tried
    rw [queued]
    rcases (attempted number).1 tried with earlier | rfl
    · exact ordered.attempts number earlier
    · exact ⟨copied.1, Nat.le_trans older.1 (Nat.le_of_eq waits.newest)⟩

theorem Ordered.write (ordered : slot.Ordered) (stages : slot.stages = left ++ .save entry :: right) :
    Ordered { slot with
      stages := left ++ .settle entry :: right
      stored := some ⟨unix entry.expireAt, entry.rawMessage⟩
      written := slot.written ++ [entry.rawMessage.number] } := by
  obtain ⟨run, attempts⟩ := @Ordered.tried _ _ _ _ _ ordered stages { slot with
      stages := left ++ .settle entry :: right
      stored := some ⟨unix entry.expireAt, entry.rawMessage⟩
      written := slot.written ++ [entry.rawMessage.number] } rfl rfl rfl
    (by simp [mem_attempted, or_right_comm])
  obtain ⟨current, waiting⟩ := ordered.run.busy stages
  obtain ⟨_, _, _, copied, _, newer⟩ := ordered.run.waits stages waiting
  refine ⟨run, attempts, ?_, ?_⟩
  · refine List.pairwise_append.2 ⟨ordered.ascending, by simp, fun number written other last => ?_⟩
    rw [List.mem_singleton.1 last]
    exact newer number (List.mem_append_left _ written)
  · simp only [List.getLast?_concat, Option.bind_some, content, copied.2, Option.map_some]

theorem Ordered.fail (ordered : slot.Ordered) (stages : slot.stages = left ++ .save entry :: right) :
    Ordered { slot with
      stages := left ++ .settle entry :: right
      failed := slot.failed ++ [entry.rawMessage.number] } := by
  obtain ⟨run, attempts⟩ := @Ordered.tried _ _ _ _ _ ordered stages { slot with
      stages := left ++ .settle entry :: right
      failed := slot.failed ++ [entry.rawMessage.number] } rfl rfl rfl
    (by simp [mem_attempted, or_assoc])
  exact ⟨run, attempts, ordered.ascending, ordered.latest⟩

end Slot

/-- The database holds the newest of the saves whose write succeeded. -/
theorem Slot.Ordered.stored_of_written {slot : Slot Raw} (ordered : slot.Ordered) {number : Nat}
    (took : number ∈ slot.written) :
    ∃ last rawMessage expireAt, last ∈ slot.written ∧ number ≤ last ∧ last ≤ slot.queued.length ∧
      slot.queued[last - 1]? = some (rawMessage, expireAt) ∧
      slot.stored = some ⟨unix expireAt, ⟨rawMessage, last⟩⟩ := by
  obtain ⟨last, newest⟩ : ∃ last, slot.written.getLast? = some last :=
    ⟨_, List.getLast?_eq_getLast_of_ne_nil (List.ne_nil_of_mem took)⟩
  have written : last ∈ slot.written := List.mem_of_getLast? newest
  obtain ⟨positive, below⟩ := ordered.attempts last (List.mem_append_left _ written)
  have reached : number ≤ last := by
    obtain ⟨earlier, split⟩ := List.getLast?_eq_some_iff.1 newest
    have ascending := ordered.ascending
    rw [split] at ascending took
    rcases List.mem_append.1 took with before | same
    · exact Nat.le_of_lt ((List.pairwise_append.1 ascending).2.2 number before last (by simp))
    · exact Nat.le_of_eq (List.mem_singleton.1 same)
  obtain ⟨⟨rawMessage, expireAt⟩, found⟩ : ∃ save, slot.queued[last - 1]? = some save :=
    ⟨_, List.getElem?_eq_getElem (by omega)⟩
  refine ⟨last, rawMessage, expireAt, written, reached, below, found, ?_⟩
  rw [ordered.latest, newest]
  simp only [Option.bind_some, content, found, Option.map_some]

/-- The event does not belong to a `ClearDNSCache` call. -/
def SaveEvent.Keeps : SaveEvent Raw → Prop
  | .clear => False
  | .deleteBucket _ => False
  | _ => True

variable {event : SaveEvent Raw} {before after : Slot Raw}

section

variable (moved : SlotStep event before after)
include moved

theorem Slot.Ordered.step (keeps : event.Keeps)
    (few : before.queued.length < sequenceLimit) (ordered : before.Ordered) : after.Ordered := by
  cases moved with
  | stay => exact ordered
  | save => exact ordered.save _ _
  | read stages waiting =>
      obtain ⟨rfl, rfl, waits, newer⟩ := ordered.run.waits stages waiting
      exact ⟨Slot.Runs.move waits rfl waiting rfl ⟨waits.queued, .refl _, newer⟩,
        ordered.attempts, ordered.ascending, ordered.latest⟩
  | finish stages _ absent =>
      obtain ⟨current, found⟩ := ordered.run.busy stages
      cases absent.symm.trans found
  | write stages => exact ordered.write stages
  | fail stages => exact ordered.fail stages
  | @again _ _ _ _ _ _ current stages waiting differs =>
      obtain ⟨rfl, rfl, waits, older, _, newer⟩ := ordered.run.waits stages waiting
      refine ⟨Slot.Runs.move waits rfl waiting rfl fun number tried => ?_, ordered.attempts,
        ordered.ascending, ordered.latest⟩
      have later := newer number tried
      have below := older.1
      -- Equal numbers would have equal sequence numbers.
      have apart : current.rawMessage.number ≠ _ := fun equal => differs (by
        rw [older.2, equal, Nat.sub_self]
        simp)
      omega
  | settle stages waiting equal =>
      obtain ⟨rfl, rfl, waits, older, tried, _⟩ := ordered.run.waits stages waiting
      refine ⟨⟨rfl, .inr ?_⟩, ordered.attempts, ordered.ascending, ordered.latest⟩
      have number := older.eq_of_sequence equal (waits.newest ▸ few)
      rw [← waits.newest, number]
      exact tried
  | clear | delete => exact keeps.elim

theorem SlotStep.grows :
    before.queued <+: after.queued ∧ before.written <+: after.written ∧
      before.failed <+: after.failed := by
  cases moved <;> simp [Slot.save]

theorem SlotStep.count_le :
    after.queued.length ≤ before.queued.length + 1 := by
  cases moved <;> simp [Slot.save]

end

namespace Saves

/-- The load found a save that was queued no earlier than the last one before its start
and no later than its return. -/
def Saw (state : Saves Raw) (load : Load Raw) (result : LoadResult Raw) : Prop :=
  ∃ number rawMessage expireAt, load.since ≤ number ∧ number ≤ result.saves ∧
    (state.queued load.saveKey)[number - 1]? = some (rawMessage, expireAt) ∧
    (result.found = some (⟨rawMessage, number⟩, expireAt) ∨
      result.found = some (⟨rawMessage, number⟩, unix expireAt * second))

/-- What a load that follows a save knows: its write failed, or it or a later one will
be seen. -/
def Sound (state : Saves Raw) (load : Load Raw) : Prop :=
  0 < load.since → load.since ∈ state.failed load.saveKey ∨
    load.result.elim (∃ number ∈ state.written load.saveKey, load.since ≤ number) (state.Saw load)

/-- The invariant of a run in which the cache is not cleared. -/
structure InOrder (state : Saves Raw) : Prop where
  slots : ∀ key, (state.slot key).Ordered
  loads : ∀ load ∈ state.loads, state.Sound load

variable {state after : Saves Raw} {event : SaveEvent Raw}

theorem Sound.step {load : Load Raw} (stepped : state.step event = some after)
    (sound : state.Sound load) : after.Sound load := by
  intro follows
  obtain ⟨queued, written, failed⟩ := (step_slot stepped load.saveKey).grows
  rcases sound follows with lost | seen
  · exact .inl (failed.subset lost)
  · refine .inr ?_
    cases returned : load.result with
    | none =>
        rw [returned] at seen
        obtain ⟨number, took, later⟩ := seen
        exact ⟨number, written.subset took, later⟩
    | some result =>
        rw [returned] at seen
        obtain ⟨number, rawMessage, expireAt, later, earlier, found, value⟩ := seen
        refine ⟨number, rawMessage, expireAt, later, earlier, ?_, value⟩
        obtain ⟨more, extended⟩ := queued
        have below := (List.getElem?_eq_some_iff.1 found).1
        have longer : after.queued load.saveKey = state.queued load.saveKey ++ more := extended.symm
        rw [longer, List.getElem?_append_left below]
        exact found

theorem InOrder.sound_load (inOrder : state.InOrder) (saveKey : SaveCacheKey) :
    state.Sound ⟨saveKey, state.count saveKey,
      (state.flushing.file.loadPending saveKey).map fun value => ⟨some value, state.count saveKey⟩⟩ := by
  intro follows
  have run := (inOrder.slots saveKey).run
  cases waiting : state.flushing.file.pending saveKey with
  | none =>
      rcases (run.of_none waiting).2 with nothing | tried
      · have none : state.count saveKey = 0 := congrArg List.length nothing
        exact absurd none (Nat.pos_iff_ne_zero.1 follows)
      · rcases Slot.mem_attempted.1 tried with took | lost
        · simp only [CacheFile.loadPending, waiting, Option.map_none]
          exact .inr ⟨_, took, Nat.le_refl _⟩
        · exact .inl lost
  | some entry =>
      have waits := run.of_some waiting
      have newest : entry.rawMessage.number = state.count saveKey := waits.newest
      simp only [CacheFile.loadPending, waiting, Option.map_some]
      exact .inr ⟨entry.rawMessage.number, entry.rawMessage.raw, entry.expireAt,
        Nat.le_of_eq newest.symm, Nat.le_of_eq newest, waits.queued.2, .inl rfl⟩

theorem InOrder.sound_view (inOrder : state.InOrder) {saveKey : SaveCacheKey} {since : Nat}
    (sound : state.Sound ⟨saveKey, since, none⟩) :
    state.Sound ⟨saveKey, since,
      some ⟨state.flushing.file.loadStored saveKey, state.count saveKey⟩⟩ := by
  intro follows
  rcases sound follows with lost | ⟨number, took, later⟩
  · exact .inl lost
  · obtain ⟨last, rawMessage, expireAt, _, reached, below, found, stored⟩ :=
      (inOrder.slots saveKey).stored_of_written took
    have holds : state.flushing.file.stored saveKey = some ⟨unix expireAt, ⟨rawMessage, last⟩⟩ := stored
    refine .inr ⟨last, rawMessage, expireAt, Nat.le_trans later reached, below, found, .inr ?_⟩
    simp only [CacheFile.loadStored, holds, Option.map_some]

theorem InOrder.step (stepped : state.step event = some after) (keeps : event.Keeps)
    (few : ∀ key, state.count key < sequenceLimit) (inOrder : state.InOrder) :
    after.InOrder where
  slots := fun key => (inOrder.slots key).step (step_slot stepped key) keeps (few key)
  loads := by
    have old : ∀ load ∈ state.loads, after.Sound load := fun load member =>
      (inOrder.loads load member).step stepped
    have calls := stepped
    cases event with
    | load saveKey =>
        simp only [Saves.step, Option.some.injEq] at calls
        intro load member
        rw [← calls] at member
        rcases List.mem_append.1 member with earlier | new
        · exact old load earlier
        · rw [List.mem_singleton.1 new]
          exact (inOrder.sound_load saveKey).step stepped
    | view index =>
        simp only [Saves.step] at calls
        split at calls
        · rename_i saveKey since found
          simp only [Option.some.injEq] at calls
          intro load member
          rw [← calls] at member
          rcases List.mem_or_eq_of_mem_set member with earlier | rfl
          · exact old load earlier
          · exact (inOrder.sound_view (inOrder.loads _ (List.mem_of_getElem? found))).step stepped
        · simp at calls
    | save saveKey rawMessage expireAt =>
        simp only [Saves.step, Option.some.injEq] at calls
        rw [← calls] at old ⊢
        exact old
    | flush index succeeds =>
        simp only [Saves.step, Option.map_eq_some_iff] at calls
        obtain ⟨_, _, calls⟩ := calls
        rw [← calls] at old ⊢
        exact old
    | clear | deleteBucket index => exact keeps.elim

theorem count_le_of_step (stepped : state.step event = some after) (key : SaveCacheKey) :
    state.count key ≤ after.count key :=
  (step_slot stepped key).grows.1.length_le

theorem inOrder_start : (start : Saves Raw).InOrder where
  slots := fun _ => ⟨⟨rfl, .inl rfl⟩, by simp [Slot.attempted, slot, start], .nil, rfl⟩
  loads := by simp [start]

variable {events : List (SaveEvent Raw)}

/-- Every run without `ClearDNSCache` is in order. -/
theorem inOrder_of_run (ran : (machine Raw).run start events = some state)
    (keeps : ∀ event ∈ events, event.Keeps) (few : ∀ key, state.count key < sequenceLimit) :
    state.InOrder := by
  have kept : ∀ before event after, (machine Raw).step before event = some after → event.Keeps →
      ((∀ key, before.count key < sequenceLimit) → before.InOrder) →
      (∀ key, after.count key < sequenceLimit) → after.InOrder := by
    intro before event after stepped keeps inOrder few
    have fewBefore : ∀ key, before.count key < sequenceLimit := fun key =>
      Nat.lt_of_le_of_lt (count_le_of_step stepped key) (few key)
    exact (inOrder fewBefore).step stepped keeps fewBefore
  exact Machine.run_invariant kept ran (Machine.meets_of_forall keeps) (fun _ => inOrder_start) few

/-- Asynchronous saves neither lose nor reorder the latest value, while the cache is not
cleared and sequence numbers suffice: a load that follows a save sees it, or one queued
while the load ran, unless the write of that save failed. -/
theorem saves_keep_latest {state : Saves Raw} {events : List (SaveEvent Raw)}
    (ran : (machine Raw).run start events = some state) (keeps : ∀ event ∈ events, event.Keeps)
    (few : ∀ key, state.count key < sequenceLimit) :
    (∀ key, (stagesOf key state.flushing.loops).length ≤ 1) ∧
      (∀ load ∈ state.loads, ∀ result, load.result = some result → 0 < load.since →
        load.since ∈ state.failed load.saveKey ∨ state.Saw load result) ∧
      (state.flushing.loops = [] → ∀ key, state.flushing.file.pending key = none ∧
        ∀ number ∈ state.written key, ∃ last content, last ∈ state.written key ∧ number ≤ last ∧
          (state.slot key).content last = some content ∧
          state.flushing.file.stored key = some content) := by
  have inOrder := inOrder_of_run ran keeps few
  refine ⟨fun key => (inOrder.slots key).run.stages_length, fun load member result returned follows => ?_,
    fun ended key => ⟨?_, fun number took => ?_⟩⟩
  · have sound := inOrder.loads load member follows
    rw [returned] at sound
    exact sound
  · exact (inOrder.slots key).run.pending_of_stages (by simp [slot, ended, stagesOf])
  · obtain ⟨last, rawMessage, expireAt, written, reached, _, found, stored⟩ :=
      (inOrder.slots key).stored_of_written took
    refine ⟨last, _, written, reached, ?_, stored⟩
    simp only [Slot.content, found, Option.map_some]

theorem count_le_length {before : Saves Raw} (ran : (machine Raw).run before events = some state)
    (key : SaveCacheKey) :
    state.count key ≤ before.count key + events.length := by
  induction events generalizing before with
  | nil =>
      cases ran
      exact Nat.le_refl _
  | cons event rest ih =>
      obtain ⟨next, stepped, remaining⟩ := Machine.run_cons ran
      have grown : next.count key ≤ before.count key + 1 := (step_slot stepped key).count_le
      have later := ih remaining
      rw [List.length_cons]
      omega

def sampleKey : SaveCacheKey := ⟨"local", "example.com.", 1⟩

def reloadRun : List (SaveEvent Nat) :=
  [.save sampleKey 7 1500000000, .flush 0 true, .flush 0 true, .flush 0 true, .load sampleKey, .view 0]

theorem saves_keep_latest_reload :
    ∃ state, (machine Nat).run start reloadRun = some state ∧ state.flushing.loops = [] ∧
      ∀ load ∈ state.loads, ∀ result, load.result = some result → 0 < load.since →
        load.since ∈ state.failed load.saveKey ∨ state.Saw load result := by
  have ran : (machine Nat).run start reloadRun = some _ := rfl
  have keeps : ∀ event ∈ reloadRun, event.Keeps := by simp [reloadRun, SaveEvent.Keeps]
  refine ⟨_, ran, rfl, (saves_keep_latest ran keeps fun key => ?_).2.1⟩
  exact Nat.lt_of_le_of_lt (count_le_length ran key) (show 0 + 6 < 2 ^ 64 by decide)

/-- A load whose transaction comes after the write of a save queued after its start. -/
def overtakenRun : List (SaveEvent Nat) :=
  [.save sampleKey 7 1500000000, .flush 0 true, .flush 0 true, .flush 0 true, .load sampleKey,
    .save sampleKey 8 2500000000, .flush 0 true, .flush 0 true, .view 0]

/-- A load that starts after one save returned and before the next one started
may still see the later save. -/
theorem load_sees_later_save :
    ¬ ∀ (state : Saves Nat) (events : List (SaveEvent Nat)),
      (machine Nat).run start events = some state → (∀ event ∈ events, event.Keeps) →
      (∀ key, state.count key < sequenceLimit) →
      ∀ load ∈ state.loads, ∀ result, load.result = some result → 0 < load.since →
        load.since ∈ state.failed load.saveKey ∨
          ∃ found, result.found = some found ∧ found.1.number = load.since := by
  intro claimed
  have ran : (machine Nat).run start overtakenRun = some _ := rfl
  have keeps : ∀ event ∈ overtakenRun, event.Keeps := by simp [overtakenRun, SaveEvent.Keeps]
  have few (key : SaveCacheKey) := Nat.lt_of_le_of_lt (count_le_length ran key)
    (show 0 + 9 < 2 ^ 64 by decide)
  rcases claimed _ overtakenRun ran keeps few _ (List.mem_singleton.2 rfl) _ rfl (by decide) with
    lost | ⟨found, seen, number⟩
  · cases lost
  · cases seen
    cases number

end Saves

end SideraCore.Experimental
