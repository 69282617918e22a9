import SideraCore.Dns.Client.Local

/-!
Owns the locks of the DNS client. A thread that places an entry in `cacheLock`
removes the entry and closes its channel, once each and before it ends, and no
other thread does. A thread waits only while it holds no entry itself, so that
the thread it waits for can go on.
-/

namespace SideraCore.Dns

open Concurrency Experimental ClientWorld

/-- The entry of the channel was removed and the channel closed, by its opener. -/
def Channel.Released (channel : Channel) : Prop :=
  channel.removals = [channel.opener] ∧ channel.closings = [channel.opener]

/-- A channel goes through three states: placed, removed and released. -/
structure ClientWorld.LocksKept {Raw : Type} (world : ClientWorld Raw) : Prop where
  placed : ∀ key channel, world.cacheLock key = some channel →
    ∃ opener, world.channels[channel]? = some ⟨key, opener, [], []⟩
  stages : ∀ (index : Nat) channel, world.channels[index]? = some channel →
    (channel.removals = [] ∧ channel.closings = [] ∧ world.cacheLock channel.key = some index) ∨
      (channel.removals = [channel.opener] ∧ channel.closings = []) ∨ channel.Released

/-- The thread has released every channel it opened, but for the held one. -/
structure ClientWorld.Owns {Raw : Type} (world : ClientWorld Raw) (thread : Nat)
    (held : Option (Nat × Channel)) : Prop where
  present : ∀ index channel, held = some (index, channel) →
    world.channels[index]? = some channel ∧ channel.opener = thread
  others : ∀ (index : Nat) channel, world.channels[index]? = some channel → channel.opener = thread →
    channel.Released ∨ held = some (index, channel)

variable {channel : Channel} {channels : List Channel} {change : Channel → Channel} {place : Nat}
  {index : Nat} {held : Channel}

theorem getElem?_concat {new : Channel} :
    (channels ++ [new])[index]? = some channel ↔
      channels[index]? = some channel ∨ index = channels.length ∧ channel = new := by
  grind

section

variable (there : channels[index]? = some held)
include there

theorem getElem?_changed :
    (channels.modify index change)[place]? = some channel ↔
      place = index ∧ channel = change held ∨ place ≠ index ∧ channels[place]? = some channel := by
  grind

theorem opener_changed (same : (change held).opener = held.opener)
    (found : channels[place]? = some channel) :
    ∃ later, (channels.modify index change)[place]? = some later ∧ later.opener = channel.opener := by
  by_cases here : place = index
  · subst here
    cases there.symm.trans found
    exact ⟨change _, (getElem?_changed there).2 (.inl ⟨rfl, rfl⟩), same⟩
  · exact ⟨channel, (getElem?_changed there).2 (.inr ⟨here, found⟩), rfl⟩

theorem others_changed {thread : Nat}
    (before : held.opener = thread) (after : (change held).opener = thread)
    (other : channel.opener ≠ thread) :
    (channels.modify index change)[place]? = some channel ↔ channels[place]? = some channel := by
  rw [getElem?_changed there]
  constructor
  · rintro (⟨-, rfl⟩ | ⟨-, old⟩)
    · exact absurd after other
    · exact old
  · intro old
    refine .inr ⟨?_, old⟩
    rintro rfl
    cases there.symm.trans old
    exact other before

end

namespace Client

variable {Raw : Type} {client : Client Raw}

/-- What an action of the thread does: it leaves the channels of the others alone. -/
structure RespectsLocks (thread : Nat) (before after : ClientWorld Raw) : Prop where
  kept : before.LocksKept → after.LocksKept
  openers : ∀ (index : Nat) channel, before.channels[index]? = some channel →
    ∃ later, after.channels[index]? = some later ∧ later.opener = channel.opener
  others : ∀ (index : Nat) channel, channel.opener ≠ thread →
    (after.channels[index]? = some channel ↔ before.channels[index]? = some channel)

def locking (Raw : Type) : Discipline (clientSignature Raw) ClientJob ClientExit (ClientWorld Raw) where
  invariant := LocksKept
  guarantee := fun thread _ => RespectsLocks thread
  unborn := fun self world =>
    ∀ (index : Nat) channel, world.channels[index]? = some channel → channel.opener ≠ self
  starts := fun _ _ => True
  requires := fun self _ action world =>
    match action with
    | .awaitLock index => world.Owns self none ∧ ∃ channel, world.channels[index]? = some channel
    | .awaitGroup _ => world.Owns self none
    | _ => True
  post := fun self _ _ world => world.Owns self none

/-! ### Worlds with the same locks -/

variable {before after : ClientWorld Raw} {thread : Nat} {action : ClientAction Raw}

theorem RespectsLocks.of_eq (channels : after.channels = before.channels)
    (cacheLock : after.cacheLock = before.cacheLock) :
    RespectsLocks thread before after where
  kept := fun kept => ⟨by rw [channels, cacheLock]; exact kept.placed,
    by rw [channels, cacheLock]; exact kept.stages⟩
  openers := fun index channel found => ⟨channel, channels ▸ found, rfl⟩
  others := fun index channel _ => by rw [channels]

theorem owns_congr (channels : after.channels = before.channels) {held : Option (Nat × Channel)}
    (owns : before.Owns thread held) : after.Owns thread held :=
  ⟨by rw [channels]; exact owns.present, by rw [channels]; exact owns.others⟩

theorem interfere_locks {event : ClientEvent} (moved : before.interfere event = some after) :
    after.channels = before.channels ∧ after.cacheLock = before.cacheLock := by
  cases event with
  | flush index succeeds =>
      obtain ⟨flushing, -, rfl⟩ := Option.map_eq_some_iff.1 moved
      exact ⟨rfl, rfl⟩
  | _ =>
      cases moved
      exact ⟨rfl, rfl⟩

/-- Actions that touch no lock and wait for nothing. -/
def LockFree : ClientAction Raw → Prop
  | .loadOrStoreLock _ => False
  | .awaitLock _ => False
  | .deleteLock _ => False
  | .closeLock _ => False
  | .awaitGroup _ => False
  | _ => True

theorem Local.lockFree (isLocal : Local action) : LockFree action := by
  cases action <;> trivial

theorem outcomes_locks {self : Nat} {answer : (clientSignature Raw).Answer action}
    (free : LockFree action) (outcome : (answer, after) ∈ client.outcomes self before action) :
    after.channels = before.channels ∧ after.cacheLock = before.cacheLock := by
  cases action with
  | loadOrStoreLock key => exact free.elim
  | awaitLock channel => exact free.elim
  | deleteLock key => exact free.elim
  | closeLock channel => exact free.elim
  | awaitGroup group => exact free.elim
  | _ =>
      obtain rfl := (sole_outcome outcome).2
      exact ⟨rfl, rfl⟩

/-! ### Placing, removing and closing -/

section Locks

variable {self : Nat} {world : ClientWorld Raw} {key : DnsCacheKey} {index : Nat}

theorem place_respects (free : world.cacheLock key = none) :
    RespectsLocks self world (world.loadOrStoreLock self key).2 := by
  simp only [loadOrStoreLock, free]
  refine ⟨fun kept => ⟨fun other channel found => ?_, fun place channel found => ?_⟩,
    fun place channel found => ⟨channel, getElem?_concat.2 (.inl found), rfl⟩,
    fun place channel other => ?_⟩
  · simp only [Function.update_apply] at found
    split at found
    · rename_i same
      cases found
      exact ⟨self, by simp [same]⟩
    · obtain ⟨opener, there⟩ := kept.placed other channel found
      exact ⟨opener, getElem?_concat.2 (.inl there)⟩
  · rcases getElem?_concat.1 found with old | ⟨rfl, rfl⟩
    · refine (kept.stages place channel old).imp_left fun ⟨removals, closings, entry⟩ =>
        ⟨removals, closings, ?_⟩
      have different : channel.key ≠ key := by
        rintro rfl
        simp [free] at entry
      simpa [Function.update_apply, different] using entry
    · exact .inl ⟨rfl, rfl, by simp⟩
  · rw [getElem?_concat, or_iff_left]
    rintro ⟨-, rfl⟩
    exact other rfl

theorem place_owns (free : world.cacheLock key = none) (owns : world.Owns self none) :
    (world.loadOrStoreLock self key).2.Owns self
      (some (world.channels.length, ⟨key, self, [], []⟩)) := by
  simp only [loadOrStoreLock, free]
  refine ⟨?_, fun place channel found mine => ?_⟩
  · rintro place channel ⟨⟩
    exact ⟨getElem?_concat.2 (.inr ⟨rfl, rfl⟩), rfl⟩
  · rcases getElem?_concat.1 found with old | ⟨rfl, rfl⟩
    · exact .inl ((owns.others place channel old mine).resolve_right (by simp))
    · exact .inr rfl

section Kept

variable (kept : world.LocksKept) (owns : world.Owns self (some (index, ⟨key, self, [], []⟩)))
include kept owns

theorem held_entry : world.cacheLock key = some index := by
  rcases kept.stages index _ (owns.present _ _ rfl).1 with ⟨-, -, entry⟩ | ⟨removed, -⟩ | released
  · exact entry
  · simp at removed
  · simp [Channel.Released] at released

theorem delete_respects : RespectsLocks self world (world.deleteLock self key) := by
  have entry := held_entry kept owns
  have there := (owns.present _ _ rfl).1
  simp only [deleteLock, entry]
  refine ⟨fun _ => ⟨fun other channel found => ?_, fun place channel found => ?_⟩,
    fun place channel found => opener_changed there rfl found, fun place channel other => ?_⟩
  · simp only [Function.update_apply] at found
    split at found
    · simp at found
    · rename_i different
      obtain ⟨opener, present⟩ := kept.placed other channel found
      refine ⟨opener, (getElem?_changed there).2 (.inr ⟨?_, present⟩)⟩
      rintro rfl
      cases there.symm.trans present
      exact different rfl
  · rcases (getElem?_changed there).1 found with ⟨rfl, rfl⟩ | ⟨different, old⟩
    · exact .inr (.inl ⟨rfl, rfl⟩)
    · refine (kept.stages place channel old).imp_left fun ⟨removals, closings, placed⟩ =>
        ⟨removals, closings, ?_⟩
      have otherKey : channel.key ≠ key := by
        rintro rfl
        exact different (Option.some.inj (placed.symm.trans entry))
      simpa [Function.update_apply, otherKey] using placed
  · exact others_changed there rfl rfl other

theorem delete_owns :
    (world.deleteLock self key).Owns self (some (index, ⟨key, self, [self], []⟩)) := by
  have there := (owns.present _ _ rfl).1
  simp only [deleteLock, held_entry kept owns]
  refine ⟨?_, fun place channel found mine => ?_⟩
  · rintro place channel ⟨⟩
    exact ⟨(getElem?_changed there).2 (.inl ⟨rfl, rfl⟩), rfl⟩
  · rcases (getElem?_changed there).1 found with ⟨rfl, rfl⟩ | ⟨different, old⟩
    · exact .inr rfl
    · refine .inl ((owns.others place channel old mine).resolve_right ?_)
      rintro ⟨⟩
      exact different rfl

end Kept

theorem close_respects (owns : world.Owns self (some (index, ⟨key, self, [self], []⟩))) :
    RespectsLocks self world (world.closeLock self index) := by
  have there := (owns.present _ _ rfl).1
  refine ⟨fun kept => ⟨fun other channel found => ?_, fun place channel found => ?_⟩,
    fun place channel found => opener_changed there rfl found, fun place channel other => ?_⟩
  · obtain ⟨opener, present⟩ := kept.placed other channel found
    refine ⟨opener, (getElem?_changed there).2 (.inr ⟨?_, present⟩)⟩
    rintro rfl
    cases there.symm.trans present
  · rcases (getElem?_changed there).1 found with ⟨rfl, rfl⟩ | ⟨-, old⟩
    · exact .inr (.inr ⟨rfl, rfl⟩)
    · exact kept.stages place channel old
  · exact others_changed there rfl rfl other

theorem close_owns (owns : world.Owns self (some (index, ⟨key, self, [self], []⟩))) :
    (world.closeLock self index).Owns self none := by
  have there := (owns.present _ _ rfl).1
  refine ⟨by simp, fun place channel found mine => ?_⟩
  rcases (getElem?_changed there).1 found with ⟨rfl, rfl⟩ | ⟨different, old⟩
  · exact .inl ⟨rfl, rfl⟩
  · refine .inl ((owns.others place channel old mine).resolve_right ?_)
    rintro ⟨⟩
    exact different rfl

end Locks

end Client

end SideraCore.Dns
