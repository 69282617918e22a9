import SideraCore.Vless.Resume

/-!
Owns the expiry of sessions over all runs of creations and ticks. A tick looks only at the
ticket that was noted last for its minute, so the minutes that ticks skip are what its result
excludes.
-/

namespace SideraCore.Vless.ServerInstance

/-- Runs of creations, with tickets not drawn before, and ticks. Each ticket has the
minute it is recorded for. -/
inductive Runs (expiry : Ticket → Nat) : Nat → ServerInstance → Prop where
  | init (secondsFrom secondsTo : Nat) : Runs expiry 0 (init secondsFrom secondsTo)
  | create {clock now server ticket after} (runs : Runs expiry clock server) (later : clock ≤ now)
      (new : ticket ∉ server.made) (minute : expiry ticket = (now + server.lifetime) / 60 + 2)
      (stepped : server.step (.create ticket now) = some after) : Runs expiry now after
  | expire {clock now server after} (runs : Runs expiry clock server) (later : clock ≤ now)
      (stepped : server.step (.expire now) = some after) : Runs expiry now after

/-- The tickets are those of the sessions, by their minutes; one noted in `lasts` is the
last of its minute. -/
structure Recorded (expiry : Ticket → Nat) (clock : Nat) (server : ServerInstance) : Prop where
  known : ∀ ticket ∈ server.tickets, ticket ∈ server.made
  distinct : server.tickets.Nodup
  live : ∀ ticket, (server.sessions ticket).isSome ↔ ticket ∈ server.tickets
  sorted : server.tickets.Pairwise fun first second => expiry first ≤ expiry second
  bounded : ∀ ticket ∈ server.tickets, expiry ticket ≤ (clock + server.lifetime) / 60 + 2
  last : ∀ minute ticket, clock / 60 ≤ minute → server.lasts minute = some ticket →
    (server.tickets.filter (expiry · = minute)).getLast? = some ticket

variable {server after : ServerInstance} {expiry : Ticket → Nat} {clock now : Nat}
  {ticket : Ticket}

namespace Recorded

section

variable (recorded : Recorded expiry clock server) (later : clock ≤ now)
include recorded later

theorem create (new : ticket ∉ server.made)
    (minute : expiry ticket = (now + server.lifetime) / 60 + 2)
    (stepped : server.step (.create ticket now) = some after) : Recorded expiry now after := by
  cases stepped
  have bounded (old : Ticket) (member : old ∈ server.tickets) : expiry old ≤ expiry ticket := by
    have := recorded.bounded old member
    omega
  refine ⟨?_, ?_, fun old => ?_, ?_, ?_, fun due old ahead found => ?_⟩
  · refine List.forall_mem_append.2 ⟨fun old member => ?_, by simp⟩
    exact List.mem_append_left _ (recorded.known old member)
  · refine List.nodup_append.2 ⟨recorded.distinct, List.nodup_singleton _, ?_⟩
    simpa using fun old member => ne_of_mem_of_not_mem (recorded.known old member) new
  · by_cases same : old = ticket <;> simp [same, recorded.live]
  · refine List.pairwise_append.2 ⟨recorded.sorted, List.pairwise_singleton _ _, ?_⟩
    simpa using bounded
  · rw [← minute]
    exact List.forall_mem_append.2 ⟨bounded, by simp⟩
  · simp only [← minute, Function.update_apply] at found
    split at found
    · simp [‹due = expiry ticket›, Option.some.inj found]
    · have before := recorded.last due old ((Nat.div_le_div_right later).trans ahead) found
      simpa [Ne.symm ‹due ≠ expiry ticket›] using before

theorem split (stepped : server.step (.expire now) = some after) :
    server.tickets = server.gone now ++ after.tickets ∧
      (∀ ticket ∈ server.gone now, expiry ticket ≤ now / 60) ∧
      (server.lastAt now ≠ none → ∀ ticket ∈ after.tickets, now / 60 < expiry ticket) := by
  cases stepped
  dsimp only
  unfold gone
  cases found : server.lastAt now with
  | none => simp
  | some last =>
      obtain ⟨noted, -⟩ := Option.filter_eq_some_iff.1 found
      -- the tickets up to the one that is noted, and the others, none of them of the minute
      obtain ⟨same, isLast⟩ := List.getLast?_eq_some_iff.1
        (recorded.last _ last (Nat.div_le_div_right later) noted)
      obtain ⟨first, second, split, -, only⟩ := List.filter_eq_append_iff.1 isLast
      obtain ⟨middle, rest, rfl, -, minute, others⟩ := List.filter_eq_cons_iff.1 only
      rw [← List.append_assoc] at split
      generalize first ++ middle = earlier at split
      have sorted := recorded.sorted
      have distinct := recorded.distinct
      rw [split] at sorted distinct ⊢
      have apart : last ∉ earlier := fun both =>
        (List.nodup_append.1 distinct).2.2 last both last List.mem_cons_self rfl
      have isGone : server.expired last = earlier ++ [last] := by
        simp [expired, split, List.idxOf_append_of_notMem apart, List.take_append]
      rw [List.pairwise_append, List.pairwise_cons] at sorted
      simp only [decide_eq_true_eq] at minute
      simp only [List.filter_eq_nil_iff, decide_eq_true_eq] at others
      have member := List.mem_append_right earlier (List.mem_cons_self (a := last) (l := rest))
      simp only [isGone, Option.any_some, member, decide_true, if_true]
      refine ⟨by simp, fun old isOld => ?_, fun _ next isLeft => ?_⟩
      · rcases List.mem_append.1 isOld with before | same
        · exact minute ▸ sorted.2.2 old before last List.mem_cons_self
        · rw [List.mem_singleton.1 same, minute]
      · have isNext : next ∈ rest := by simpa using isLeft
        exact lt_of_le_of_ne (minute ▸ sorted.2.1.1 next isNext) (Ne.symm (others next isNext))

theorem expire (stepped : server.step (.expire now) = some after) : Recorded expiry now after := by
  obtain ⟨split, expired, -⟩ := recorded.split later stepped
  have kept : after.tickets.Sublist server.tickets := split ▸ List.sublist_append_right _ _
  have apart := List.nodup_append.1 (split ▸ recorded.distinct)
  cases stepped
  refine ⟨fun old member => recorded.known old (kept.subset member), apart.2.1, fun old => ?_,
    recorded.sorted.sublist kept, fun old member => ?_, fun due old ahead found => ?_⟩
  · have live := recorded.live old
    rw [split, List.mem_append] at live
    by_cases isGone : old ∈ server.gone now
    · simpa [isGone] using fun stays => apart.2.2 old isGone old stays rfl
    · simpa [isGone] using live
  · exact (recorded.bounded old (kept.subset member)).trans (by gcongr)
  · obtain ⟨other, before⟩ := Option.ite_none_left_eq_some.1 found
    have isLast := recorded.last due old ((Nat.div_le_div_right later).trans ahead) before
    -- no ticket of the minute is among those that are removed
    have none : (server.gone now).filter (expiry · = due) = [] := by
      refine List.filter_eq_nil_iff.2 fun ticket isGone => ?_
      have := expired ticket isGone
      simp only [decide_eq_true_eq]
      omega
    rwa [split, List.filter_append, none, List.nil_append] at isLast

end

end Recorded

theorem Runs.recorded (runs : Runs expiry clock server) : Recorded expiry clock server := by
  induction runs with
  | init secondsFrom secondsTo => constructor <;> simp [ServerInstance.init]
  | create _ later new minute stepped ih => exact ih.create later new minute stepped
  | expire _ later stepped ih => exact ih.expire later stepped

/-- **A tick leaves exactly the sessions of later minutes, and their tickets**, if and only
if it finds a ticket noted for its minute or no session of that minute or before. -/
theorem expire_exact_iff (runs : Runs expiry clock server) (later : clock ≤ now)
    (stepped : server.step (.expire now) = some after) :
    (∀ ticket, ((after.sessions ticket).isSome ↔
        (server.sessions ticket).isSome ∧ now / 60 < expiry ticket) ∧
      ((after.sessions ticket).isSome ↔ ticket ∈ after.tickets)) ↔
      server.lastAt now ≠ none ∨
        ∀ ticket, (server.sessions ticket).isSome → now / 60 < expiry ticket := by
  have before := runs.recorded
  have afterwards := before.expire later stepped
  obtain ⟨split, expired, remaining⟩ := before.split later stepped
  simp only [before.live, afterwards.live, split, List.mem_append, and_true]
  constructor
  · intro exactly
    refine or_iff_not_imp_left.2 fun missed => ?_
    have none : server.gone now = [] := by simp [gone, not_not.1 missed]
    simpa [none] using exactly
  · intro condition ticket
    have late (member : ticket ∈ after.tickets) : now / 60 < expiry ticket :=
      condition.elim (remaining · ticket member) fun all => all ticket (.inr member)
    constructor
    · exact fun member => ⟨.inr member, late member⟩
    · rintro ⟨isGone | member, isLater⟩
      · exact absurd isLater (Nat.not_lt.2 (expired ticket isGone))
      · exact member

/-- The tick of minute 3 removes the session that was to expire then, and leaves the one
of minute 4. -/
theorem expire_on_time :
    ∃ server after, Runs (fun ticket => if ticket = 5 then 3 else 4) 60 server ∧
      server.step (.expire 180) = some after ∧ (server.sessions 5).isSome ∧
      ¬(after.sessions 5).isSome ∧ (after.sessions 6).isSome := by
  have first : Runs (fun ticket => if ticket = 5 then 3 else 4) 0 _ :=
    .create (.init 60 0) le_rfl (List.not_mem_nil : (5 : Ticket) ∉ []) rfl rfl
  have both : Runs (fun ticket => if ticket = 5 then 3 else 4) 60 _ :=
    .create first (Nat.zero_le 60) (show (6 : Ticket) ∉ _ by decide) rfl rfl
  have exactly := (expire_exact_iff both (show 60 ≤ 180 by decide) rfl).2 (.inl (by decide))
  refine ⟨_, _, both, rfl, rfl, fun stays => ?_, (exactly 6).1.2 ⟨rfl, by decide⟩⟩
  exact absurd ((exactly 5).1.1 stays).2 (by decide)

/-- The first tick comes in minute 4, and the session that was to expire in minute 3 stays. -/
theorem expire_skips :
    ∃ server after, Runs (fun _ => 3) 0 server ∧ server.step (.expire 240) = some after ∧
      (after.sessions 5).isSome := by
  have runs : Runs (fun _ => 3) 0 _ :=
    .create (.init 60 0) le_rfl (List.not_mem_nil : (5 : Ticket) ∉ []) rfl rfl
  exact ⟨_, _, runs, rfl, rfl⟩

end SideraCore.Vless.ServerInstance
