import SideraCore.Experimental.DnsSaveOrder

/-!
Owns when `ClearDNSCache` is effective: which saves can still be read after it,
and which one the database holds once all flush loops have ended.

A flush loop that runs while the cache is cleared keeps a copy of an entry that no
longer waits, and sequence numbers start again. The results hold for runs in which
every clear begins while no flush loop runs and no write fails.
-/

namespace SideraCore.Experimental

open Concurrency

variable {Raw : Type}

/-! ### Entries queued after a clear -/

def FlushStage.copy : FlushStage Raw → Option (SaveDNSCacheEntry Raw)
  | .load => none
  | .save entry => some entry
  | .settle entry => some entry

namespace Slot

/-- What waits or is held by a flush loop was queued after the first `floor` saves. -/
structure Above (slot : Slot Raw) (floor : Nat) : Prop where
  queued : floor ≤ slot.queued.length
  pending : ∀ entry, slot.pending = some entry → floor < entry.rawMessage.number
  copies : ∀ stage ∈ slot.stages, ∀ entry, stage.copy = some entry → floor < entry.rawMessage.number

/-- What the database holds was queued after the first `floor` saves. -/
def StoredAbove (slot : Slot Raw) (floor : Nat) : Prop :=
  ∀ content, slot.stored = some content → floor < content.rawMessage.number

variable {slot : Slot Raw} {floor : Nat} {left right : List (FlushStage (Numbered Raw))}
  {stage : FlushStage (Numbered Raw)}

section Above

variable (above : slot.Above floor) (stages : slot.stages = left ++ stage :: right)
include above stages

theorem Above.copy {entry : SaveDNSCacheEntry (Numbered Raw)} (copied : stage.copy = some entry) :
    floor < entry.rawMessage.number :=
  above.copies stage (by simp [stages]) entry copied

theorem Above.remove :
    ∀ other ∈ left ++ right, ∀ entry, other.copy = some entry → floor < entry.rawMessage.number := by
  intro other member
  apply above.copies other
  rw [stages]
  exact List.perm_middle.mem_iff.2 (List.mem_cons_of_mem _ member)

theorem Above.replace {next : FlushStage (Numbered Raw)}
    (newer : ∀ entry, next.copy = some entry → floor < entry.rawMessage.number) :
    ∀ other ∈ left ++ next :: right, ∀ entry, other.copy = some entry →
      floor < entry.rawMessage.number := by
  intro other member
  rcases List.mem_cons.1 (List.perm_middle.mem_iff.1 member) with rfl | stays
  · exact newer
  · exact above.remove stages other stays

end Above

theorem Above.save (above : slot.Above floor) (rawMessage : Raw) (expireAt : Time) :
    (slot.save rawMessage expireAt).Above floor where
  queued := by
    have := above.queued
    simp only [Slot.save, List.length_append]
    omega
  pending := by
    intro entry waiting
    simp only [Slot.save, Option.some.injEq] at waiting
    rw [← waiting]
    exact Nat.lt_succ_of_le above.queued
  copies := by
    intro stage member entry copied
    simp only [Slot.save] at member
    split at member
    · exact above.copies stage member entry copied
    · rcases List.mem_append.1 member with earlier | new
      · exact above.copies stage earlier entry copied
      · rw [List.mem_singleton.1 new] at copied
        simp [FlushStage.copy] at copied

variable {event : SaveEvent Raw} {before after : Slot Raw}

theorem Above.step (moved : SlotStep event before after) (above : before.Above floor) :
    after.Above floor := by
  cases moved with
  | stay => exact above
  | save => exact above.save _ _
  | read stages waiting =>
      refine ⟨above.queued, above.pending, above.replace stages fun entry copied => ?_⟩
      exact above.pending entry (waiting.trans copied)
  | finish stages _ _ => exact ⟨above.queued, above.pending, above.remove stages⟩
  | write stages | fail stages =>
      exact ⟨above.queued, above.pending, above.replace stages fun entry => above.copy stages⟩
  | again stages _ _ =>
      exact ⟨above.queued, above.pending, above.replace stages (by simp [FlushStage.copy])⟩
  | settle stages _ _ => exact ⟨above.queued, by simp, above.remove stages⟩
  | clear => exact ⟨above.queued, by simp, above.copies⟩
  | delete => exact ⟨above.queued, above.pending, above.copies⟩

theorem StoredAbove.step (moved : SlotStep event before after) (above : before.Above floor)
    (stored : before.StoredAbove floor) : after.StoredAbove floor := by
  cases moved with
  | write stages =>
      intro content holds
      simp only [Option.some.injEq] at holds
      rw [← holds]
      exact above.copy stages rfl
  | delete => simp [StoredAbove]
  | _ => exact stored

end Slot

/-! ### The newest save -/

namespace Slot

/-- The database holds the save, unless the bucket was deleted after it was queued. -/
def Holds (slot : Slot Raw) (number : Nat) : Prop :=
  slot.stored = slot.content number ∨ number ≤ slot.deleted

/-- Where the only flush loop of a key may stand while `current` waits. -/
def Flushes (slot : Slot Raw) (current : SaveDNSCacheEntry (Numbered Raw)) :
    FlushStage (Numbered Raw) → Prop
  | .load => True
  | .save entry => slot.Queued entry ∧ entry.Older current
  | .settle entry => entry.Older current ∧ slot.Holds entry.rawMessage.number

/-- The invariant of a key whose cache is cleared only while no flush loop runs. -/
structure Current (slot : Slot Raw) : Prop where
  run : slot.Runs (slot.Holds slot.queued.length) slot.Flushes
  known : ∀ content, slot.stored = some content →
    0 < content.rawMessage.number ∧ slot.content content.rawMessage.number = some content

theorem Holds.save {slot : Slot Raw} {number : Nat} (holds : slot.Holds number)
    (below : number ≤ slot.queued.length) (rawMessage : Raw) (expireAt : Time) :
    (slot.save rawMessage expireAt).Holds number := by
  rcases Nat.eq_zero_or_pos number with zero | positive
  · exact .inr (zero ▸ Nat.zero_le _)
  rcases holds with stored | old
  · exact .inl (stored.trans (content_save positive below _ _).symm)
  · exact .inr old

theorem Current.save {slot : Slot Raw} (current : slot.Current) (rawMessage : Raw)
    (expireAt : Time) : (slot.save rawMessage expireAt).Current where
  run := by
    refine current.run.save rawMessage expireAt (fun _ _ => trivial) fun entry stage newest flushes => ?_
    cases stage with
    | load => trivial
    | save copied => exact ⟨flushes.1.save _ _, flushes.2.next _ _⟩
    | settle copied => exact ⟨flushes.1.next _ _, flushes.2.save (newest ▸ flushes.1.1) _ _⟩
  known := by
    intro content stored
    obtain ⟨positive, found⟩ := current.known content stored
    obtain ⟨save, queued, _⟩ := Option.map_eq_some_iff.1 found
    have below := (List.getElem?_eq_some_iff.1 queued).1
    exact ⟨positive, (content_save positive (by omega) _ _).trans found⟩

end Slot

/-! ### Runs that clear while no flush loop runs -/

/-- The database does not fail, the cache is cleared only while no flush loop runs, and
the saves of a key stay distinguishable. -/
def Saves.Quiet (state : Saves Raw) : SaveEvent Raw → Prop
  | .save saveKey _ _ => state.count saveKey + 1 < sequenceLimit
  | .flush _ succeeds => succeeds = true
  | .clear => state.flushing.loops = []
  | _ => True

theorem Slot.Current.write {slot : Slot Raw} (current : slot.Current)
    {left right : List (FlushStage (Numbered Raw))} {entry : SaveDNSCacheEntry (Numbered Raw)}
    (stages : slot.stages = left ++ .save entry :: right) :
    Slot.Current { slot with
      stages := left ++ .settle entry :: right
      stored := some ⟨unix entry.expireAt, entry.rawMessage⟩
      written := slot.written ++ [entry.rawMessage.number] } := by
  obtain ⟨waiter, waiting⟩ := current.run.busy stages
  obtain ⟨rfl, rfl, waits, copied, older⟩ := current.run.waits stages waiting
  have taken : slot.content entry.rawMessage.number = some ⟨unix entry.expireAt, entry.rawMessage⟩ := by
    simp only [Slot.content, copied.2, Option.map_some]
  refine ⟨Slot.Runs.move waits rfl waiting rfl ⟨older, .inl taken.symm⟩, fun content holds => ?_⟩
  simp only [Option.some.injEq] at holds
  rw [← holds]
  exact ⟨copied.1, taken⟩

theorem Slot.Current.step {event : SaveEvent Raw} {before after : Slot Raw}
    (moved : SlotStep event before after) (current : before.Current)
    (few : before.queued.length < sequenceLimit) (works : ∀ index, event ≠ .flush index false)
    (quiet : event = .clear → before.stages = []) : after.Current := by
  cases moved with
  | stay => exact current
  | save => exact current.save _ _
  | read stages waiting =>
      obtain ⟨rfl, rfl, waits, _⟩ := current.run.waits stages waiting
      exact ⟨Slot.Runs.move waits rfl waiting rfl ⟨waits.queued, .refl _⟩, current.known⟩
  | finish stages _ absent =>
      obtain ⟨entry, found⟩ := current.run.busy stages
      cases absent.symm.trans found
  | write stages => exact current.write stages
  | fail stages => exact absurd rfl (works _)
  | again stages waiting differs =>
      obtain ⟨rfl, rfl, waits, _⟩ := current.run.waits stages waiting
      exact ⟨Slot.Runs.move waits rfl waiting rfl trivial, current.known⟩
  | settle stages waiting equal =>
      obtain ⟨rfl, rfl, waits, older, holds⟩ := current.run.waits stages waiting
      have number := older.eq_of_sequence equal (waits.newest ▸ few)
      refine ⟨⟨rfl, ?_⟩, current.known⟩
      show before.Holds before.queued.length
      rw [← waits.newest, number]
      exact holds
  | clear =>
      have ended := quiet rfl
      have idle := current.run.of_none (current.run.pending_of_stages ended)
      exact ⟨idle, current.known⟩
  | delete =>
      refine ⟨?_, by simp⟩
      cases waiting : before.pending with
      | none =>
          exact ⟨(current.run.of_none waiting).1, .inr (Nat.le_refl _)⟩
      | some entry =>
          have waits := current.run.of_some waiting
          obtain ⟨stage, alone, flushes⟩ := waits.alone
          refine Slot.Runs.move waits alone rfl rfl ?_
          cases stage with
          | load => trivial
          | save copied => exact flushes
          | settle copied => exact ⟨flushes.1, .inr (waits.newest ▸ flushes.1.1)⟩

namespace Saves

/-- The invariant of a run of quiet events. -/
structure Effective (state : Saves Raw) : Prop where
  few : ∀ key, state.count key < sequenceLimit
  slots : ∀ key, (state.slot key).Current
  clearing : ∀ before ∈ state.clearing, ∀ key, (state.slot key).Above (before key)
  cleared : ∀ before ∈ state.cleared, ∀ key,
    (state.slot key).Above (before key) ∧ (state.slot key).StoredAbove (before key)

variable {state after : Saves Raw} {event : SaveEvent Raw}

theorem step_clears (stepped : state.step event = some after) :
    (∀ before ∈ after.clearing, before ∈ state.clearing ∨ event = .clear ∧ before = state.count) ∧
      ∀ before ∈ after.cleared, before ∈ state.cleared ∨
        before ∈ state.clearing ∧ ∀ key, (after.slot key).stored = none := by
  cases event with
  | save saveKey rawMessage expireAt | load saveKey =>
      cases stepped
      exact ⟨fun _ => .inl, fun _ => .inl⟩
  | flush index succeeds =>
      simp only [Saves.step, Option.map_eq_some_iff] at stepped
      obtain ⟨flushing, _, rfl⟩ := stepped
      exact ⟨fun _ => .inl, fun _ => .inl⟩
  | view index =>
      simp only [Saves.step] at stepped
      split at stepped
      · cases stepped
        exact ⟨fun _ => .inl, fun _ => .inl⟩
      · simp at stepped
  | clear =>
      cases stepped
      refine ⟨fun before member => ?_, fun _ => .inl⟩
      rcases List.mem_append.1 member with earlier | new
      · exact .inl earlier
      · exact .inr ⟨rfl, List.mem_singleton.1 new⟩
  | deleteBucket index =>
      simp only [Saves.step] at stepped
      split at stepped
      · simp at stepped
      · rename_i before found
        cases stepped
        refine ⟨fun other member => .inl (List.mem_of_mem_eraseIdx member), fun other member => ?_⟩
        rcases List.mem_append.1 member with earlier | new
        · exact .inl earlier
        · rw [List.mem_singleton.1 new]
          exact .inr ⟨List.mem_of_getElem? found, fun key => rfl⟩

theorem Effective.step (stepped : state.step event = some after) (quiet : state.Quiet event)
    (effective : state.Effective) : after.Effective := by
  have moved : ∀ key, SlotStep event (state.slot key) (after.slot key) := step_slot stepped
  have ended : event = .clear → ∀ key, (state.slot key).stages = [] := by
    rintro rfl key
    have none : state.flushing.loops = [] := quiet
    simp [slot, none, stagesOf]
  have slots : ∀ key, (after.slot key).Current := fun key =>
    (effective.slots key).step (moved key) (effective.few key)
      (fun index failing => by subst failing; exact Bool.false_ne_true quiet)
      (fun clears => ended clears key)
  obtain ⟨begun, returned⟩ := step_clears stepped
  have above : ∀ before ∈ after.clearing, ∀ key, (after.slot key).Above (before key) := by
    intro before member key
    rcases begun before member with earlier | ⟨clears, rfl⟩
    · exact (effective.clearing before earlier key).step (moved key)
    · have none := (effective.slots key).run.pending_of_stages (ended clears key)
      have floor : (state.slot key).Above (state.count key) :=
        ⟨Nat.le_refl _, by simp [none], by simp [ended clears key]⟩
      exact floor.step (moved key)
  refine ⟨fun key => ?_, slots, above, fun before member key => ?_⟩
  · cases event with
    | save saveKey rawMessage expireAt =>
        show (after.slot key).queued.length < _
        rw [slot_save stepped key]
        split
        · rename_i same
          subst same
          simpa [Slot.save, slot, count, Quiet] using quiet
        · exact effective.few key
    | _ =>
        have same := (moved key).queued_eq (by simp)
        exact lt_of_eq_of_lt (congrArg List.length same) (effective.few key)
  · rcases returned before member with earlier | ⟨beginning, empty⟩
    · obtain ⟨pending, stored⟩ := effective.cleared before earlier key
      exact ⟨pending.step (moved key), stored.step (moved key) pending⟩
    · refine ⟨(effective.clearing before beginning key).step (moved key), fun content holds => ?_⟩
      rw [empty key] at holds
      simp at holds

theorem effective_start : (start : Saves Raw).Effective where
  few := fun _ => show 0 < 2 ^ 64 by decide
  slots := fun _ => ⟨⟨rfl, .inr (Nat.le_refl _)⟩, by
    simp [slot, start, Flushing.empty, CacheFile.empty, CacheFile.stored]⟩
  clearing := by simp [start]
  cleared := by simp [start]

/-- A cleared cache stays cleared. If no write fails, each `ClearDNSCache` begins while
no flush loop runs, and sequence numbers suffice: once all flush loops have ended, no
key reads a save queued before a `ClearDNSCache` that has returned, and of those queued
since the bucket was last deleted the database has the latest. -/
theorem clear_effective {state : Saves Raw} {events : List (SaveEvent Raw)}
    (ran : (machine Raw).run start events = some state)
    (quiet : (machine Raw).Meets Quiet start events) (ended : state.flushing.loops = [])
    (key : SaveCacheKey) :
    (∀ before ∈ state.cleared, ∀ found, state.flushing.file.loadDNSCache key = some found →
      before key < found.1.number) ∧
      (state.deleted key < state.count key → ∃ rawMessage expireAt,
        (state.queued key).getLast? = some (rawMessage, expireAt) ∧
          state.flushing.file.stored key =
            some ⟨unix expireAt, ⟨rawMessage, state.count key⟩⟩) := by
  have kept : ∀ before event after, (machine Raw).step before event = some after →
      before.Quiet event → before.Effective → after.Effective := fun _ _ _ => Effective.step
  have effective : state.Effective := Machine.run_invariant kept ran quiet effective_start
  have stages : (state.slot key).stages = [] := by simp [slot, ended, stagesOf]
  have none : state.flushing.file.pending key = none :=
    (effective.slots key).run.pending_of_stages stages
  constructor
  · intro before member found loaded
    simp only [CacheFile.loadDNSCache, CacheFile.loadPending, none, Option.map_none, Option.none_or,
      CacheFile.loadStored, Option.map_eq_some_iff] at loaded
    obtain ⟨content, stored, rfl⟩ := loaded
    exact (effective.cleared before member key).2 content stored
  · intro later
    rcases ((effective.slots key).run.of_none none).2 with stored | old
    · have positive : 0 < (state.queued key).length := Nat.lt_of_le_of_lt (Nat.zero_le _) later
      obtain ⟨⟨rawMessage, expireAt⟩, last⟩ : ∃ save, (state.queued key).getLast? = some save :=
        ⟨_, List.getLast?_eq_getLast_of_ne_nil (List.ne_nil_of_length_pos positive)⟩
      refine ⟨rawMessage, expireAt, last, ?_⟩
      rw [List.getLast?_eq_getElem?] at last
      simp only [Slot.content, slot, last, Option.map_some] at stored
      exact stored
    · exact absurd later (Nat.not_lt.2 old)

instance [DecidableEq Raw] : ∀ (state : Saves Raw) event, Decidable (state.Quiet event)
  | state, .save saveKey _ _ => inferInstanceAs (Decidable (state.count saveKey + 1 < sequenceLimit))
  | _, .flush _ succeeds => inferInstanceAs (Decidable (succeeds = true))
  | state, .clear => inferInstanceAs (Decidable (state.flushing.loops = []))
  | _, .load _ => isTrue trivial
  | _, .view _ => isTrue trivial
  | _, .deleteBucket _ => isTrue trivial

def clearedRun : List (SaveEvent Nat) :=
  [.save sampleKey 7 1500000000, .flush 0 true, .flush 0 true, .flush 0 true, .clear,
    .deleteBucket 0, .save sampleKey 8 2500000000, .flush 0 true, .flush 0 true, .flush 0 true]

theorem clear_effective_resaved :
    ∃ state, (machine Nat).run start clearedRun = some state ∧
      ∀ before ∈ state.cleared, ∀ found, state.flushing.file.loadDNSCache sampleKey = some found →
        before sampleKey < found.1.number := by
  have ran : (machine Nat).run start clearedRun = some _ := rfl
  have quiet : (machine Nat).Meets Quiet start clearedRun := by decide
  exact ⟨_, ran, (clear_effective ran quiet rfl sampleKey).1⟩

/-- A flush loop reads an entry before the cache is cleared and writes it afterwards. -/
def staleRun : List (SaveEvent Nat) :=
  [.save sampleKey 7 1500000000, .flush 0 true, .clear, .deleteBucket 0, .flush 0 true, .flush 0 true]

/-- A save queued before `ClearDNSCache` is read after it returned and all
flush loops have ended, though no write failed. -/
theorem clear_restored_by_flush :
    ∃ state, (machine Nat).run start staleRun = some state ∧
      (∀ index, SaveEvent.flush index false ∉ staleRun) ∧ state.flushing.loops = [] ∧
      ∃ before ∈ state.cleared, ∃ found,
        state.flushing.file.loadDNSCache sampleKey = some found ∧ found.1.number ≤ before sampleKey :=
  ⟨_, rfl, by simp [staleRun], rfl, _, List.mem_singleton.2 rfl, _, rfl, by decide⟩

end Saves

end SideraCore.Experimental
