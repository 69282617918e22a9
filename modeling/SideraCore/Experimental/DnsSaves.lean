import SideraCore.Concurrency.Machine
import SideraCore.Experimental.DnsCache

/-!
Owns the interleavings of the DNS cache file: `SaveDNSCacheAsync` calls, the
flush loops they start, `LoadDNSCache` calls and `ClearDNSCache` calls, one
critical section at a time.

What happens to one key is independent of the others: `Slot` is the part of a state
that belongs to a key, and `step_slot` says what an event can do to it.
-/

namespace SideraCore.Experimental

open Concurrency CacheFile

variable {Raw : Type}

/-- A raw message with its number among the saves of its key, which the cache file
carries along unread. -/
structure Numbered (Raw : Type) where
  raw : Raw
  number : Nat
deriving DecidableEq, Repr

/-- What a `LoadDNSCache` call returned, and how many saves of its key were queued by
then. -/
structure LoadResult (Raw : Type) where
  found : Option (Numbered Raw × Time)
  saves : Nat
deriving DecidableEq, Repr

/-- A `LoadDNSCache` call, with how many saves of its key were queued at its start, and
no result while its transaction is outstanding. -/
structure Load (Raw : Type) where
  saveKey : SaveCacheKey
  since : Nat
  result : Option (LoadResult Raw)
deriving DecidableEq, Repr

/-- The shared state and the calls in progress. The fields from `queued` on are read by
no critical section. -/
structure Saves (Raw : Type) where
  flushing : Flushing (Numbered Raw)
  loads : List (Load Raw)
  /-- `ClearDNSCache` calls before their database transaction, each with the
  number of saves queued before it. -/
  clearing : List (SaveCacheKey → Nat)
  queued : SaveCacheKey → List (Raw × Time)
  written : SaveCacheKey → List Nat
  failed : SaveCacheKey → List Nat
  /-- `ClearDNSCache` calls that have returned, as in `clearing`. -/
  cleared : List (SaveCacheKey → Nat)
  /-- The number of saves queued when the bucket was last deleted. -/
  deleted : SaveCacheKey → Nat

/-- The critical sections, each by the call or the loop that enters it. -/
inductive SaveEvent (Raw : Type) where
  | save (saveKey : SaveCacheKey) (rawMessage : Raw) (expireAt : Time)
  | flush (index : Nat) (succeeds : Bool)
  | load (saveKey : SaveCacheKey)
  | view (index : Nat)
  | clear
  | deleteBucket (index : Nat)
deriving DecidableEq, Repr

namespace Saves

def start : Saves Raw where
  flushing := .empty
  loads := []
  clearing := []
  queued := fun _ => []
  written := fun _ => []
  failed := fun _ => []
  cleared := []
  deleted := fun _ => 0

def count (state : Saves Raw) (key : SaveCacheKey) : Nat := (state.queued key).length

/-- The numbers after a critical section, where `attempts` are those whose write went
the way `outcome` says. -/
def record (state : Saves Raw) (index : Nat) (outcome : Bool)
    (attempts : SaveCacheKey → List Nat) : SaveCacheKey → List Nat :=
  match state.flushing.loops[index]? with
  | some ⟨saveKey, .save entry⟩ =>
      if outcome then
        Function.update attempts saveKey (attempts saveKey ++ [entry.rawMessage.number])
      else attempts
  | _ => attempts

def step (state : Saves Raw) : SaveEvent Raw → Option (Saves Raw)
  | .save saveKey rawMessage expireAt =>
      some { state with
        flushing := state.flushing.saveDNSCacheAsync saveKey
          ⟨rawMessage, state.count saveKey + 1⟩ expireAt
        queued := Function.update state.queued saveKey
          (state.queued saveKey ++ [(rawMessage, expireAt)]) }
  | .flush index succeeds =>
      (state.flushing.flush index succeeds).map fun flushing =>
        { state with
          flushing := flushing
          written := state.record index succeeds state.written
          failed := state.record index (!succeeds) state.failed }
  | .load saveKey =>
      let found := state.flushing.file.loadPending saveKey
      some { state with
        loads := state.loads ++ [⟨saveKey, state.count saveKey,
          found.map fun value => ⟨some value, state.count saveKey⟩⟩] }
  | .view index =>
      match state.loads[index]? with
      | some ⟨saveKey, since, none⟩ =>
          some { state with
            loads := state.loads.set index ⟨saveKey, since,
              some ⟨state.flushing.file.loadStored saveKey, state.count saveKey⟩⟩ }
      | _ => none
  | .clear =>
      some { state with
        flushing := { state.flushing with file := state.flushing.file.clearPending }
        clearing := state.clearing ++ [state.count] }
  | .deleteBucket index =>
      match state.clearing[index]? with
      | none => none
      | some before =>
          some { state with
            flushing := { state.flushing with file := state.flushing.file.deleteBucket }
            clearing := state.clearing.eraseIdx index
            cleared := state.cleared ++ [before]
            deleted := state.count }

def machine (Raw : Type) : Machine (Saves Raw) (SaveEvent Raw) := ⟨step⟩

end Saves

def stagesOf (key : SaveCacheKey) (loops : List (FlushLoop Raw)) : List (FlushStage Raw) :=
  loops.filterMap fun loop => if loop.saveKey = key then some loop.stage else none

structure Slot (Raw : Type) where
  pending : Option (SaveDNSCacheEntry (Numbered Raw))
  stages : List (FlushStage (Numbered Raw))
  stored : Option (Content (Numbered Raw))
  queued : List (Raw × Time)
  written : List Nat
  failed : List Nat
  deleted : Nat

namespace Slot

def save (slot : Slot Raw) (rawMessage : Raw) (expireAt : Time) : Slot Raw :=
  { slot with
    pending := some (.next slot.pending ⟨rawMessage, slot.queued.length + 1⟩ expireAt)
    stages :=
      if slot.pending.elim false SaveDNSCacheEntry.saving then slot.stages else slot.stages ++ [.load]
    queued := slot.queued ++ [(rawMessage, expireAt)] }

end Slot

inductive SlotStep : SaveEvent Raw → Slot Raw → Slot Raw → Prop
  | stay {event : SaveEvent Raw} {slot : Slot Raw} : SlotStep event slot slot
  | save {saveKey : SaveCacheKey} {rawMessage : Raw} {expireAt : Time} {slot : Slot Raw} :
      SlotStep (.save saveKey rawMessage expireAt) slot (slot.save rawMessage expireAt)
  | read {index : Nat} {succeeds : Bool} {slot : Slot Raw}
      {left right : List (FlushStage (Numbered Raw))} {entry : SaveDNSCacheEntry (Numbered Raw)}
      (stages : slot.stages = left ++ .load :: right) (waiting : slot.pending = some entry) :
      SlotStep (.flush index succeeds) slot { slot with stages := left ++ .save entry :: right }
  | finish {index : Nat} {succeeds : Bool} {slot : Slot Raw}
      {left right : List (FlushStage (Numbered Raw))} {stage : FlushStage (Numbered Raw)}
      (stages : slot.stages = left ++ stage :: right) (idle : ∀ entry, stage ≠ .save entry)
      (none : slot.pending = none) :
      SlotStep (.flush index succeeds) slot { slot with stages := left ++ right }
  | write {index : Nat} {slot : Slot Raw} {left right : List (FlushStage (Numbered Raw))}
      {entry : SaveDNSCacheEntry (Numbered Raw)}
      (stages : slot.stages = left ++ .save entry :: right) :
      SlotStep (.flush index true) slot
        { slot with
          stages := left ++ .settle entry :: right
          stored := some ⟨unix entry.expireAt, entry.rawMessage⟩
          written := slot.written ++ [entry.rawMessage.number] }
  | fail {index : Nat} {slot : Slot Raw} {left right : List (FlushStage (Numbered Raw))}
      {entry : SaveDNSCacheEntry (Numbered Raw)}
      (stages : slot.stages = left ++ .save entry :: right) :
      SlotStep (.flush index false) slot
        { slot with
          stages := left ++ .settle entry :: right
          failed := slot.failed ++ [entry.rawMessage.number] }
  | again {index : Nat} {succeeds : Bool} {slot : Slot Raw}
      {left right : List (FlushStage (Numbered Raw))}
      {entry current : SaveDNSCacheEntry (Numbered Raw)}
      (stages : slot.stages = left ++ .settle entry :: right) (waiting : slot.pending = some current)
      (differs : current.sequence ≠ entry.sequence) :
      SlotStep (.flush index succeeds) slot { slot with stages := left ++ .load :: right }
  | settle {index : Nat} {succeeds : Bool} {slot : Slot Raw}
      {left right : List (FlushStage (Numbered Raw))}
      {entry current : SaveDNSCacheEntry (Numbered Raw)}
      (stages : slot.stages = left ++ .settle entry :: right) (waiting : slot.pending = some current)
      (equal : current.sequence = entry.sequence) :
      SlotStep (.flush index succeeds) slot { slot with stages := left ++ right, pending := none }
  | clear {slot : Slot Raw} : SlotStep .clear slot { slot with pending := none }
  | delete {index : Nat} {slot : Slot Raw} :
      SlotStep (.deleteBucket index) slot
        { slot with stored := none, deleted := slot.queued.length }

namespace Saves

def slot (state : Saves Raw) (key : SaveCacheKey) : Slot Raw where
  pending := state.flushing.file.pending key
  stages := stagesOf key state.flushing.loops
  stored := state.flushing.file.stored key
  queued := state.queued key
  written := state.written key
  failed := state.failed key
  deleted := state.deleted key

/-! ### What an event does to a slot -/

theorem stagesOf_split {left right : List (FlushLoop Raw)} {loop : FlushLoop Raw}
    (key : SaveCacheKey) :
    stagesOf key (left ++ loop :: right) =
      if loop.saveKey = key then stagesOf key left ++ loop.stage :: stagesOf key right
      else stagesOf key (left ++ right) := by
  by_cases same : loop.saveKey = key <;> simp [stagesOf, same]

variable {index : Nat} {state after : Saves Raw}

theorem split_at {α : Type} {items : List α} {item : α} (found : items[index]? = some item) :
    ∃ left right, items = left ++ item :: right ∧ items.eraseIdx index = left ++ right ∧
      ∀ other, items.set index other = left ++ other :: right := by
  obtain ⟨below, rfl⟩ := List.getElem?_eq_some_iff.1 found
  refine ⟨items.take index, items.drop (index + 1), ?_, ?_, fun other => ?_⟩
  · rw [← List.drop_eq_getElem_cons below, List.take_append_drop]
  · rw [List.eraseIdx_eq_take_drop_succ]
  · rw [List.set_eq_take_append_cons_drop, if_pos below]

theorem slot_save {saveKey : SaveCacheKey} {rawMessage : Raw} {expireAt : Time}
    (stepped : state.step (.save saveKey rawMessage expireAt) = some after) (key : SaveCacheKey) :
    after.slot key =
      if key = saveKey then (state.slot key).save rawMessage expireAt else state.slot key := by
  cases stepped
  by_cases same : key = saveKey
  · subst same
    by_cases flag : (state.flushing.file.pending key).elim false SaveDNSCacheEntry.saving = true <;>
      simp [slot, Slot.save, stagesOf, count, Flushing.saveDNSCacheAsync,
        queueDNSCacheSave, stored, flag]
  · have different : saveKey ≠ key := fun equal => same equal.symm
    by_cases flag : (state.flushing.file.pending saveKey).elim false SaveDNSCacheEntry.saving = true <;>
      simp [slot, stagesOf, Flushing.saveDNSCacheAsync, queueDNSCacheSave,
        stored, same, different, flag]

theorem stagesOf_append (key : SaveCacheKey) (left right : List (FlushLoop Raw)) :
    stagesOf key (left ++ right) = stagesOf key left ++ stagesOf key right :=
  List.filterMap_append

theorem record_of_ne {loop : FlushLoop (Numbered Raw)}
    (found : state.flushing.loops[index]? = some loop) {key : SaveCacheKey}
    (different : loop.saveKey ≠ key) (outcome : Bool) (attempts : SaveCacheKey → List Nat) :
    state.record index outcome attempts key = attempts key := by
  obtain ⟨saveKey, stage⟩ := loop
  have apart : key ≠ saveKey := fun equal => different equal.symm
  cases stage <;> cases outcome <;> simp [record, found, Function.update_of_ne apart]

theorem slot_flush {succeeds : Bool} (stepped : state.step (.flush index succeeds) = some after)
    (key : SaveCacheKey) : SlotStep (.flush index succeeds) (state.slot key) (after.slot key) := by
  simp only [step, Option.map_eq_some_iff] at stepped
  obtain ⟨flushing, flushed, rfl⟩ := stepped
  unfold Flushing.flush at flushed
  split at flushed
  · simp at flushed
  rename_i saveKey stage found
  obtain ⟨left, right, loops, erased, replaced⟩ := split_at found
  simp only [Option.some.injEq] at flushed
  subst flushed
  by_cases same : saveKey = key
  · subst same
    have stages : (state.slot saveKey).stages =
        stagesOf saveKey left ++ stage :: stagesOf saveKey right := by
      simp only [slot, loops, stagesOf_split, if_true]
    cases stage with
    | load =>
        cases waiting : state.flushing.file.pending saveKey with
        | none =>
            convert SlotStep.finish stages (by simp) waiting using 1
            simp [slot, flushPendingDNSCache, waiting, record, found, erased, stagesOf_append]
        | some entry =>
            convert SlotStep.read stages waiting using 1
            simp [slot, flushPendingDNSCache, waiting, record, found, replaced, stagesOf_split]
    | save entry =>
        cases succeeds with
        | true =>
            convert SlotStep.write stages using 1
            simp [slot, flushPendingDNSCache, saveDNSCache_stored, record, found, replaced,
              stagesOf_split]
        | false =>
            convert SlotStep.fail stages using 1
            simp [slot, flushPendingDNSCache, record, found, replaced, stagesOf_split]
    | settle entry =>
        cases waiting : state.flushing.file.pending saveKey with
        | none =>
            convert SlotStep.finish stages (by simp) waiting using 1
            simp [slot, flushPendingDNSCache, waiting, record, found, erased, stagesOf_append]
        | some current =>
            by_cases equal : current.sequence = entry.sequence
            · convert SlotStep.settle stages waiting equal using 1
              simp [slot, flushPendingDNSCache, waiting, equal, record, found, erased,
                stagesOf_append, stored]
            · convert SlotStep.again stages waiting equal using 1
              simp [slot, flushPendingDNSCache, waiting, equal, record, found, replaced,
                stagesOf_split]
  · have frame := flushPendingDNSCache_frame (Ne.symm same) succeeds state.flushing.file stage
    convert SlotStep.stay using 1
    simp only [slot, frame.1, frame.2, record_of_ne found same, Slot.mk.injEq, true_and, and_true]
    split
    · rw [erased, loops, stagesOf_split, if_neg same]
    · rw [replaced, loops, stagesOf_split, stagesOf_split, if_neg same, if_neg same]

theorem step_slot {event : SaveEvent Raw} (stepped : state.step event = some after)
    (key : SaveCacheKey) : SlotStep event (state.slot key) (after.slot key) := by
  cases event with
  | save saveKey rawMessage expireAt =>
      rw [slot_save stepped key]
      split
      · exact .save
      · exact .stay
  | flush index succeeds => exact slot_flush stepped key
  | load saveKey =>
      cases stepped
      exact .stay
  | view index =>
      simp only [step] at stepped
      split at stepped
      · cases stepped
        exact .stay
      · simp at stepped
  | clear =>
      cases stepped
      exact .clear
  | deleteBucket index =>
      simp only [step] at stepped
      split at stepped
      · simp at stepped
      · cases stepped
        exact .delete

end Saves

/-! ### What an event leaves alone -/

variable {event : SaveEvent Raw} {before after : Slot Raw}

theorem SlotStep.queued_eq (moved : SlotStep event before after)
    (other : ∀ saveKey rawMessage expireAt, event ≠ .save saveKey rawMessage expireAt) :
    after.queued = before.queued := by
  cases moved with
  | save => exact absurd rfl (other _ _ _)
  | _ => rfl

theorem SlotStep.failed_eq (moved : SlotStep event before after)
    (works : ∀ index, event ≠ .flush index false) :
    after.failed = before.failed := by
  cases moved with
  | fail => exact absurd rfl (works _)
  | _ => rfl

/-! ### One flush loop for a key -/

/-- How many saves of one key a sequence number can tell apart. -/
def sequenceLimit : Nat := 2 ^ 64

/-- The sequence numbers differ by as much as the numbers of the saves. -/
def SaveDNSCacheEntry.Older (entry current : SaveDNSCacheEntry (Numbered Raw)) : Prop :=
  entry.rawMessage.number ≤ current.rawMessage.number ∧
    current.sequence =
      entry.sequence + UInt64.ofNat (current.rawMessage.number - entry.rawMessage.number)

variable {entry current : SaveDNSCacheEntry (Numbered Raw)}

theorem SaveDNSCacheEntry.Older.next (older : entry.Older current) (rawMessage : Raw) (expireAt : Time) :
    entry.Older (.next (some current) ⟨rawMessage, current.rawMessage.number + 1⟩ expireAt) := by
  obtain ⟨below, sequence⟩ := older
  refine ⟨Nat.le_succ_of_le below, ?_⟩
  have distance : current.rawMessage.number + 1 - entry.rawMessage.number =
      (current.rawMessage.number - entry.rawMessage.number) + 1 := by omega
  simp only [SaveDNSCacheEntry.next, Option.elim_some]
  rw [distance, UInt64.ofNat_add, sequence, UInt64.add_assoc]
  rfl

theorem SaveDNSCacheEntry.Older.eq_of_sequence (older : entry.Older current)
    (equal : current.sequence = entry.sequence) (few : current.rawMessage.number < sequenceLimit) :
    current.rawMessage.number = entry.rawMessage.number := by
  obtain ⟨below, sequence⟩ := older
  rw [equal] at sequence
  have values := congrArg UInt64.toNat sequence
  simp only [UInt64.toNat_add, UInt64.toNat_ofNat'] at values
  unfold sequenceLimit at few
  omega

theorem SaveDNSCacheEntry.Older.refl (entry : SaveDNSCacheEntry (Numbered Raw)) : entry.Older entry :=
  ⟨Nat.le_refl _, by simp⟩

namespace Slot

/-- The entry is what the save with its number queued. -/
def Queued (slot : Slot Raw) (entry : SaveDNSCacheEntry (Numbered Raw)) : Prop :=
  0 < entry.rawMessage.number ∧
    slot.queued[entry.rawMessage.number - 1]? = some (entry.rawMessage.raw, entry.expireAt)

/-- What the database holds after it took the save with the number. -/
def content (slot : Slot Raw) (number : Nat) : Option (Content (Numbered Raw)) :=
  (slot.queued[number - 1]?).map fun save => ⟨unix save.2, ⟨save.1, number⟩⟩

theorem Queued.save {slot : Slot Raw} {entry : SaveDNSCacheEntry (Numbered Raw)}
    (queued : slot.Queued entry) (rawMessage : Raw) (expireAt : Time) :
    (slot.save rawMessage expireAt).Queued entry := by
  obtain ⟨positive, found⟩ := queued
  have below := (List.getElem?_eq_some_iff.1 found).1
  exact ⟨positive, (List.getElem?_append_left below).trans found⟩

theorem content_save {slot : Slot Raw} {number : Nat} (positive : 0 < number)
    (below : number ≤ slot.queued.length) (rawMessage : Raw) (expireAt : Time) :
    (slot.save rawMessage expireAt).content number = slot.content number := by
  simp only [content, save]
  rw [List.getElem?_append_left (by omega)]

/-- The newest save waits for the only flush loop of its key, where `follows` says. -/
structure Waits (slot : Slot Raw) (follows : FlushStage (Numbered Raw) → Prop)
    (current : SaveDNSCacheEntry (Numbered Raw)) : Prop where
  saving : current.saving = true
  newest : current.rawMessage.number = slot.queued.length
  queued : slot.Queued current
  alone : ∃ stage, slot.stages = [stage] ∧ follows stage

/-- A key is idle and has no flush loop, or it has one for its newest save. -/
def Runs (slot : Slot Raw) (idle : Prop)
    (follows : SaveDNSCacheEntry (Numbered Raw) → FlushStage (Numbered Raw) → Prop) : Prop :=
  slot.pending.elim (slot.stages = [] ∧ idle) fun current => slot.Waits (follows current) current

section Runs

variable {slot : Slot Raw} {idle : Prop}
  {follows : SaveDNSCacheEntry (Numbered Raw) → FlushStage (Numbered Raw) → Prop}

section Runs

variable (runs : slot.Runs idle follows)
include runs

theorem Runs.of_none (absent : slot.pending = none) : slot.stages = [] ∧ idle := by
  unfold Runs at runs
  rwa [absent] at runs

theorem Runs.of_some {current : SaveDNSCacheEntry (Numbered Raw)}
    (waiting : slot.pending = some current) : slot.Waits (follows current) current := by
  unfold Runs at runs
  rwa [waiting] at runs

theorem Runs.pending_of_stages (ended : slot.stages = []) : slot.pending = none := by
  cases waiting : slot.pending with
  | none => rfl
  | some current =>
      obtain ⟨stage, alone, _⟩ := (runs.of_some waiting).alone
      simp [ended] at alone

theorem Runs.stages_length : slot.stages.length ≤ 1 := by
  cases waiting : slot.pending with
  | none => simp [(runs.of_none waiting).1]
  | some current =>
      obtain ⟨stage, alone, _⟩ := (runs.of_some waiting).alone
      simp [alone]

section Stages

variable {left right : List (FlushStage (Numbered Raw))} {stage : FlushStage (Numbered Raw)}
  (stages : slot.stages = left ++ stage :: right)
include stages

/-- The only flush loop of a key works for the entry that waits. -/
theorem Runs.waits {current : SaveDNSCacheEntry (Numbered Raw)}
    (waiting : slot.pending = some current) :
    left = [] ∧ right = [] ∧ slot.Waits (follows current) current ∧ follows current stage := by
  obtain ⟨only, alone, follow⟩ := (runs.of_some waiting).alone
  rw [alone] at stages
  have lengths := congrArg List.length stages
  simp only [List.length_cons, List.length_nil, List.length_append] at lengths
  have leftEmpty : left = [] := List.length_eq_zero_iff.1 (by omega)
  have rightEmpty : right = [] := List.length_eq_zero_iff.1 (by omega)
  subst leftEmpty rightEmpty
  simp only [List.nil_append, List.cons.injEq, and_true] at stages
  subst stages
  exact ⟨rfl, rfl, runs.of_some waiting, follow⟩

theorem Runs.busy : ∃ current, slot.pending = some current := by
  refine Option.ne_none_iff_exists'.1 fun absent => ?_
  simp [(runs.of_none absent).1] at stages

end Stages

theorem Runs.save (rawMessage : Raw) (expireAt : Time) {busy : Prop}
    {after : SaveDNSCacheEntry (Numbered Raw) → FlushStage (Numbered Raw) → Prop}
    (starts : ∀ current, current.rawMessage.number = slot.queued.length + 1 → after current .load)
    (goes : ∀ current stage, current.rawMessage.number = slot.queued.length → follows current stage →
      after (.next (some current) ⟨rawMessage, current.rawMessage.number + 1⟩ expireAt) stage) :
    (slot.save rawMessage expireAt).Runs busy after := by
  cases waiting : slot.pending with
  | none =>
      refine ⟨rfl, by simp [Slot.save, SaveDNSCacheEntry.next], ?_, .load, ?_, starts _ ?_⟩
      · simp [Queued, Slot.save, SaveDNSCacheEntry.next]
      · simp [Slot.save, waiting, (runs.of_none waiting).1]
      · simp [SaveDNSCacheEntry.next]
  | some current =>
      obtain ⟨saving, newest, queued, stage, alone, follow⟩ := runs.of_some waiting
      refine ⟨rfl, by simp [Slot.save, SaveDNSCacheEntry.next], ?_, stage, ?_, ?_⟩
      · simp [Queued, Slot.save, SaveDNSCacheEntry.next]
      · simp [Slot.save, waiting, saving, alone]
      · rw [waiting, ← newest]
        exact goes current stage newest follow

end Runs

theorem Runs.move {current : SaveDNSCacheEntry (Numbered Raw)}
    (waits : slot.Waits (follows current) current) {after : Slot Raw} {busy : Prop}
    {onward : SaveDNSCacheEntry (Numbered Raw) → FlushStage (Numbered Raw) → Prop}
    {stage : FlushStage (Numbered Raw)} (stages : after.stages = [stage])
    (pending : after.pending = some current) (queued : after.queued = slot.queued)
    (follow : onward current stage) : after.Runs busy onward := by
  unfold Runs
  rw [pending]
  refine ⟨waits.saving, queued ▸ waits.newest, ?_, stage, stages, follow⟩
  unfold Queued
  rw [queued]
  exact waits.queued

end Runs

end Slot

end SideraCore.Experimental
