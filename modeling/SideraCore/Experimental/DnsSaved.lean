import SideraCore.Experimental.DnsCache

/-!
Owns where the contents of a cache file come from: whatever waits, is copied by
a flush loop or lies in the database was saved under its key. In the database
the expiry is cut to whole seconds.
-/

namespace SideraCore.Experimental

variable {Raw : Type}

structure Flushing.Saved (saved : SaveCacheKey → Raw → Time → Prop) (flushing : Flushing Raw) :
    Prop where
  pending : ∀ key entry, flushing.file.pending key = some entry →
    saved key entry.rawMessage entry.expireAt
  loops : ∀ loop ∈ flushing.loops, ∀ entry, loop.stage = .save entry →
    saved loop.saveKey entry.rawMessage entry.expireAt
  stored : ∀ key content, flushing.file.stored key = some content →
    ∃ expireAt, saved key content.rawMessage expireAt ∧ content.expireUnix = unix expireAt

namespace Flushing.Saved

variable {saved : SaveCacheKey → Raw → Time → Prop} {flushing : Flushing Raw}

theorem empty : (Flushing.empty : Flushing Raw).Saved saved :=
  ⟨by simp [Flushing.empty, CacheFile.empty], by simp [Flushing.empty],
    by simp [Flushing.empty, CacheFile.empty, CacheFile.stored]⟩

section Holds

variable (holds : flushing.Saved saved)
include holds

theorem mono {more : SaveCacheKey → Raw → Time → Prop}
    (implies : ∀ key rawMessage expireAt, saved key rawMessage expireAt → more key rawMessage expireAt) :
    flushing.Saved more where
  pending := fun key entry found => implies _ _ _ (holds.pending key entry found)
  loops := fun loop member entry copied => implies _ _ _ (holds.loops loop member entry copied)
  stored := fun key content found =>
    (holds.stored key content found).imp fun _ both => ⟨implies _ _ _ both.1, both.2⟩

theorem shrink {file : CacheFile Raw}
    (pending : ∀ key entry, file.pending key = some entry → flushing.file.pending key = some entry)
    (stored : ∀ key content, file.stored key = some content → flushing.file.stored key = some content) :
    ({ flushing with file := file } : Flushing Raw).Saved saved where
  pending := fun key entry found => holds.pending key entry (pending key entry found)
  loops := holds.loops
  stored := fun key content found => holds.stored key content (stored key content found)

theorem saveDNSCacheAsync {saveKey : SaveCacheKey} {rawMessage : Raw} {expireAt : Time}
    (new : saved saveKey rawMessage expireAt) :
    (flushing.saveDNSCacheAsync saveKey rawMessage expireAt).Saved saved where
  pending := by
    intro key entry found
    simp only [Flushing.saveDNSCacheAsync, CacheFile.queueDNSCacheSave, Function.update_apply] at found
    split at found
    · rename_i same
      cases found
      exact same ▸ new
    · exact holds.pending key entry found
  loops := by
    intro loop member entry copied
    simp only [Flushing.saveDNSCacheAsync] at member
    split at member
    · rcases List.mem_append.1 member with old | fresh
      · exact holds.loops loop old entry copied
      · rw [List.mem_singleton.1 fresh] at copied
        cases copied
    · exact holds.loops loop member entry copied
  stored := fun key content found => holds.stored key content found

theorem flushPendingDNSCache {saveKey : SaveCacheKey} {stage : FlushStage Raw}
    (member : ⟨saveKey, stage⟩ ∈ flushing.loops) (succeeds : Bool) :
    (∀ key entry, (flushPendingDNSCache saveKey succeeds flushing.file stage).2.pending key = some entry →
      flushing.file.pending key = some entry) ∧
    (∀ key content, (flushPendingDNSCache saveKey succeeds flushing.file stage).2.stored key =
        some content →
      ∃ expireAt, saved key content.rawMessage expireAt ∧ content.expireUnix = unix expireAt) ∧
    ∀ entry, (flushPendingDNSCache saveKey succeeds flushing.file stage).1 = some (.save entry) →
      saved saveKey entry.rawMessage entry.expireAt := by
  cases stage with
  | load =>
      cases waiting : flushing.file.pending saveKey with
      | none => simpa [Experimental.flushPendingDNSCache, waiting] using holds.stored
      | some entry =>
          simpa [Experimental.flushPendingDNSCache, waiting] using
            ⟨holds.stored, holds.pending saveKey entry waiting⟩
  | save entry =>
      refine ⟨?_, ?_, by simp [Experimental.flushPendingDNSCache]⟩
      · cases succeeds <;> simp [Experimental.flushPendingDNSCache]
      · intro key content found
        cases succeeds with
        | false => exact holds.stored key content (by simpa [Experimental.flushPendingDNSCache] using found)
        | true =>
            simp only [Experimental.flushPendingDNSCache, if_true, CacheFile.saveDNSCache_stored] at found
            split at found
            · rename_i same
              cases found
              exact ⟨entry.expireAt, same ▸ holds.loops _ member entry rfl, rfl⟩
            · exact holds.stored key content found
  | settle entry =>
      cases waiting : flushing.file.pending saveKey with
      | none => simpa [Experimental.flushPendingDNSCache, waiting] using holds.stored
      | some current =>
          by_cases equal : current.sequence = entry.sequence
          · refine ⟨?_, ?_, by simp [Experimental.flushPendingDNSCache, waiting, equal]⟩
            · intro key found
              simp only [Experimental.flushPendingDNSCache, waiting, equal, ne_eq, not_true,
                if_false, Function.update_apply]
              split <;> simp
            · intro key content found
              exact holds.stored key content
                (by simpa [Experimental.flushPendingDNSCache, waiting, equal, CacheFile.stored] using found)
          · simpa [Experimental.flushPendingDNSCache, waiting, equal] using holds.stored

theorem flush {index : Nat} {succeeds : Bool} {after : Flushing Raw}
    (flushed : flushing.flush index succeeds = some after) : after.Saved saved := by
  unfold Flushing.flush at flushed
  split at flushed
  · simp at flushed
  · rename_i saveKey stage found
    obtain ⟨pending, stored, copied⟩ :=
      holds.flushPendingDNSCache (List.mem_of_getElem? found) succeeds
    cases flushed
    refine ⟨fun key entry waits => holds.pending key entry (pending key entry waits), ?_, stored⟩
    intro loop member entry copy
    dsimp only at member
    split at member
    · exact holds.loops loop (List.mem_of_mem_eraseIdx member) entry copy
    · rename_i next stays
      rcases List.mem_or_eq_of_mem_set member with old | new
      · exact holds.loops loop old entry copy
      · subst new
        exact copied entry (stays.trans (congrArg some copy))

end Holds

end Flushing.Saved

end SideraCore.Experimental
