import SideraCore.Control.Checked

/-!
Owns how the query multiplexer of a DNS transport gives out query ids: the search of
`register` goes once around the ids from where the counter stands.
-/

namespace SideraCore.Dns

open Control Control.Checked

variable {Pending : Type}

structure QueryMultiplexer (Pending : Type) where
  queryId : UInt16
  queries : UInt16 → Option Pending

namespace QueryMultiplexer

/-- One turn of the loop of `register`: the id it goes on from, or how it ends. -/
def nextQueryId (queries : UInt16 → Option Pending) (start queryId : UInt16) :
    Checked Empty (UInt16 ⊕ Option UInt16) :=
  if (queries (queryId + 1)).isNone then .ok (.inr (some (queryId + 1)))
  else if queryId + 1 = start then .ok (.inr none)
  else .ok (.inl (queryId + 1))

/-- `register`, within a number of turns. Where it fails, the counter is back at its start. -/
def register (multiplexer : QueryMultiplexer Pending) (pending : Pending) (turns : Nat) :
    Checked Empty (Except String UInt16 × QueryMultiplexer Pending) := do
  match ← iterate (nextQueryId multiplexer.queries multiplexer.queryId) turns multiplexer.queryId with
  | some queryId =>
      pure (.ok queryId, ⟨queryId, Function.update multiplexer.queries queryId (some pending)⟩)
  | none => pure (.error "no available query ID", multiplexer)

variable {queries : UInt16 → Option Pending} {start queryId : UInt16}

theorem distance_succ (onward : queryId + 1 ≠ start) :
    (queryId + 1 - start).toNat = (queryId - start).toNat + 1 := by
  have moved : queryId + 1 - start = queryId - start + 1 := by grind
  have short : queryId - start ≠ 65535 := by grind
  rw [moved, UInt16.toNat_add]
  rw [ne_eq, ← UInt16.toNat_inj] at short
  have below := (queryId - start).toNat_lt
  simp only [UInt16.reduceToNat] at *
  omega

/-- The ids behind the start, up to where the counter stands, are pending. -/
def Passed (queries : UInt16 → Option Pending) (start queryId : UInt16) : Prop :=
  ∀ id, (id - start - 1).toNat < (queryId - start).toNat → queries id ≠ none

/-- The search ends, with an id that is free if there is one. -/
theorem returns_search (queries : UInt16 → Option Pending) (start : UInt16) (more : Nat) :
    Returns (iterate (nextQueryId queries start) (2 ^ 16 + more) start) fun found =>
      (∀ id, found = some id → queries id = none) ∧ (found = none → ∀ id, queries id ≠ none) := by
  refine returns_iterate (Passed queries start) (fun queryId => 65535 - (queryId - start).toNat) ?_ ?_ ?_
  · intro queryId passed
    unfold nextQueryId
    split
    · rename_i free
      exact ⟨fun id same => Option.some.inj same ▸ Option.isNone_iff_eq_none.1 free, nofun⟩
    · rename_i taken
      have further (id : UInt16) (before : (id - start - 1).toNat ≤ (queryId - start).toNat) :
          queries id ≠ none := by
        rcases Nat.lt_or_eq_of_le before with earlier | here
        · exact passed id earlier
        · obtain rfl : id = queryId + 1 := by
            rw [UInt16.toNat_inj] at here
            grind
          simpa using taken
      split
      · rename_i round
        have whole : queryId - start = 65535 := by grind
        refine ⟨nofun, fun _ id => further id ?_⟩
        rw [whole]
        exact Nat.le_of_lt_succ (id - start - 1).toNat_lt
      · rename_i onward
        have moved := distance_succ onward
        have below := (queryId + 1 - start).toNat_lt
        exact ⟨fun id before => further id (by omega), by omega⟩
  · simp [Passed]
  · omega

/-- **Query-id allocation is complete.** `register` ends within 65536 turns; it fails
iff every id is pending, and then changes nothing; otherwise it takes a free id, and no
pending query is replaced. -/
theorem register_complete (multiplexer : QueryMultiplexer Pending) (pending : Pending) (more : Nat) :
    ∃ reply after, multiplexer.register pending (2 ^ 16 + more) = .ok (reply, after) ∧
      (reply = .error "no available query ID" ↔ ∀ id, multiplexer.queries id ≠ none) ∧
      ((∃ id, multiplexer.queries id = none) → ∃ id, reply = .ok id) ∧
      (∀ id, reply = .ok id → multiplexer.queries id = none ∧ after.queries id = some pending) ∧
      (∀ id query, multiplexer.queries id = some query → after.queries id = some query) ∧
        ∀ problem, reply = .error problem → after = multiplexer := by
  have returns := returns_search multiplexer.queries multiplexer.queryId more
  obtain ⟨found, searched⟩ := returns.eq_ok
  obtain ⟨free, exhausted⟩ := returns.of_eq_ok searched
  unfold register
  rw [searched]
  cases found with
  | none =>
      refine ⟨_, _, rfl, iff_of_true rfl (exhausted rfl), ?_, nofun, fun _ _ => id, fun _ _ => rfl⟩
      rintro ⟨id, unused⟩
      exact absurd unused (exhausted rfl id)
  | some queryId =>
      have unused := free queryId rfl
      refine ⟨_, _, rfl, iff_of_false nofun fun all => all queryId unused,
        fun _ => ⟨queryId, rfl⟩, ?_, ?_, nofun⟩
      · rintro id ⟨⟩
        exact ⟨unused, Function.update_self ..⟩
      · intro id query there
        refine (Function.update_of_ne ?_ ..).trans there
        rintro rfl
        simp [unused] at there

end QueryMultiplexer

end SideraCore.Dns
