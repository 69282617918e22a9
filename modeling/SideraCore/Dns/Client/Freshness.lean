import SideraCore.Dns.Client.Explained
import SideraCore.Dns.Client.Refreshes

/-!
Owns how old a cached response may be: what its times to live say about the
store it comes from, when a stale one is served, and that one refresh at a time
runs for it. An entry that a flush loop has written expires at a whole second.
-/

namespace SideraCore.Dns

open Concurrency Experimental

theorem ttl_normalizeTTL {response : Msg} {timeToLive : UInt32} {record : RR}
    (member : record ∈ (normalizeTTL response timeToLive).records)
    (plain : record.hdr.rrtype ≠ typeOPT) : record.hdr.ttl = timeToLive := by
  have mapped : (normalizeTTL response timeToLive).records =
      response.records.map (RR.setTTL timeToLive) := by
    simp [Msg.records, normalizeTTL, Msg.mapRecords]
  rw [mapped] at member
  obtain ⟨original, -, rfl⟩ := List.mem_map.1 member
  unfold RR.setTTL at plain ⊢
  split
  · rename_i opt
    simp [opt] at plain
  · rfl

namespace StoreRecord

theorem expireAt_le (record : StoreRecord) (isStored : Bool) :
    record.expireAt isStored ≤ record.time + record.timeToLive.toNat * second := by
  cases isStored with
  | false =>
      rw [expireAt_false]
      exact le_rfl
  | true =>
      rw [expireAt_true]
      exact unix_le _

theorem wholeSeconds_le (record : StoreRecord) {isStored : Bool} {now : Nat} (later : record.time ≤ now)
    (unexpired : now ≤ record.expireAt isStored) :
    wholeSeconds (record.expireAt isStored - now) + (now - record.time) / second ≤
      record.timeToLive.toNat := by
  have bound := record.expireAt_le isStored
  have small := record.timeToLive.toNat_lt
  generalize record.expireAt isStored = expireAt, record.time = time,
    record.timeToLive.toNat = timeToLive at *
  have total : (expireAt - now) + (now - time) ≤ timeToLive * second := by
    rw [Nat.sub_add_sub_cancel unexpired later]
    exact Nat.sub_le_iff_le_add'.2 bound
  have positive : 0 < second := by decide
  have short : (expireAt - now) / second < 2 ^ 53 := by
    have least : (expireAt - now) / second ≤ timeToLive := by
      rw [← Nat.mul_div_cancel timeToLive positive]
      exact Nat.div_le_div_right (le_trans (Nat.le_add_right _ _) total)
    exact lt_of_le_of_lt least (lt_trans small (by decide))
  have rounded := wholeSeconds_lt short
  have since := Nat.div_mul_le_self (now - time) second
  have scaled : (wholeSeconds (expireAt - now) + (now - time) / second) * second <
      (timeToLive + 1) * second := by
    rw [Nat.add_mul, Nat.succ_mul]
    calc wholeSeconds (expireAt - now) * second + (now - time) / second * second
        < expireAt - now + second + (now - time) := Nat.add_lt_add_of_lt_of_le rounded since
      _ = expireAt - now + (now - time) + second := Nat.add_right_comm _ _ _
      _ ≤ timeToLive * second + second := Nat.add_le_add_right total _
  exact Nat.le_of_lt_succ (Nat.lt_of_mul_lt_mul_right scaled)

end StoreRecord

/-- Served before its expiry: the times to live are the whole seconds left, up to the
rounding of long ones. -/
structure Fresh (record : StoreRecord) (isStored : Bool) (now : Time) (records : List RR) : Prop where
  unexpired : now ≤ record.expireAt isStored
  left : ∀ rr ∈ records, rr.hdr.rrtype ≠ typeOPT →
    rr.hdr.ttl.toNat = wholeSeconds (record.expireAt isStored - now)
  whole : (record.expireAt isStored - now) / second < 2 ^ 24 →
    ∀ rr ∈ records, rr.hdr.rrtype ≠ typeOPT →
      rr.hdr.ttl.toNat = (record.expireAt isStored - now) / second
  bound : ∀ rr ∈ records, rr.hdr.rrtype ≠ typeOPT →
    rr.hdr.ttl.toNat ≤ record.timeToLive.toNat - (now - record.time) / second

structure Stale (optimisticTimeout : Nat) (record : StoreRecord) (isStored : Bool) (now : Time)
    (records : List RR) : Prop where
  enabled : 0 < optimisticTimeout
  expired : record.expireAt isStored < now
  within : now < record.expireAt isStored + optimisticTimeout
  one : ∀ rr ∈ records, rr.hdr.rrtype ≠ typeOPT → rr.hdr.ttl = 1

namespace Client

variable {Raw : Type} {client : Client Raw} {now : Time} {record : StoreRecord} {isStored : Bool}
  {loaded : LoadedResponse}

theorem serve_fresh (later : record.time ≤ now)
    (served : client.serve now (record.expireAt isStored) record.message = some loaded)
    (fresh : loaded.isStale = false) : Fresh record isStored now loaded.response.records := by
  unfold serve at served
  split at served
  · split at served
    · rw [← Option.some.inj served] at fresh
      simp at fresh
    · simp at served
  · rename_i unexpired
    have inTime : now ≤ record.expireAt isStored := Nat.le_of_not_lt unexpired
    have total := record.wholeSeconds_le later inTime
    have fits : wholeSeconds (record.expireAt isStored - now) < 2 ^ 32 :=
      lt_of_le_of_lt (le_trans (Nat.le_add_right _ _) total) record.timeToLive.toNat_lt
    have left : ∀ rr ∈ loaded.response.records, rr.hdr.rrtype ≠ typeOPT →
        rr.hdr.ttl.toNat = wholeSeconds (record.expireAt isStored - now) := by
      intro rr member plain
      rw [← Option.some.inj served] at member
      rw [ttl_normalizeTTL member plain, UInt32.toNat_ofNat']
      exact Nat.mod_eq_of_lt fits
    refine ⟨inTime, left, fun short rr member plain => ?_, fun rr member plain => ?_⟩
    · rw [left rr member plain, wholeSeconds_eq short]
    · rw [left rr member plain]
      exact Nat.le_sub_of_add_le total

theorem serve_stale (served : client.serve now (record.expireAt isStored) record.message = some loaded)
    (stale : loaded.isStale = true) :
    Stale client.optimisticTimeout record isStored now loaded.response.records := by
  unfold serve at served
  split at served
  · rename_i expired
    split at served
    · rename_i optimistic
      refine ⟨optimistic.1, expired, optimistic.2, fun rr member plain => ?_⟩
      rw [← Option.some.inj served] at member
      exact ttl_normalizeTTL member plain
    · simp at served
  · rw [← Option.some.inj served] at stale
    simp at stale

/-- Every cached response is one that was stored, and as fresh as its times to live say, a stale one is
served only where that is allowed, and one refresh at a time runs for a key. -/
theorem cached_answers_fresh (client : Client Raw) (expires : client.disableExpire = false)
    {start : Time} {pool : ClientPool Raw} (reachable : client.Reachable start pool) :
    (∀ (self : Nat) job exit, pool.threads[self]? = some ⟨job, .done exit⟩ →
      ∀ answer ∈ exit.answers, ∀ isStale isStored time, answer.source = .cached isStale isStored time →
        ∃ now, time = some now ∧ ∃ call ∈ job.calls, ∃ query, client.query call = some query ∧
          ∃ record ∈ pool.world.history, client.Shares record.key query.key ∧
            (∃ timeToLive id, answer.response = { normalizeTTL record.message timeToLive with id := id }) ∧
            record.time ≤ now ∧ 0 < record.timeToLive ∧ (isStored = true → client.dnsCache = true) ∧
              (isStale = false → Fresh record isStored now answer.response.records) ∧
                (isStale = true → call.options.disableOptimisticCache = false ∧
                  Stale client.optimisticTimeout record isStored now answer.response.records)) ∧
      ∀ self other key, Refreshing pool self key → Refreshing pool other key → self = other := by
  refine ⟨?_, reachable.refreshesOnce.unique⟩
  intro self job exit finished answer returned isStale isStored time source
  obtain ⟨call, called, explains⟩ := reachable.explains finished returned
  cases explains with
  | refused refused | exchanged asked answered accepted => cases source
  | @cached query record hit id asked stored served stale =>
      cases source
      obtain ⟨_, _, storing, _, storedBy⟩ := reachable.recorded record stored
      have lasts : 0 < record.timeToLive := UInt32.pos_iff_ne_zero.2 storedBy.lasts
      have loaded := served.loaded
      cases reading : hit.time with
      | none =>
          rw [reading] at loaded
          simp [expires] at loaded
      | some now =>
          rw [reading] at loaded
          obtain ⟨-, later, serves⟩ := loaded
          obtain ⟨timeToLive, same⟩ := serve_response serves
          exact ⟨now, rfl, call, called, query, asked, record, stored, served.key,
            ⟨timeToLive, id, by rw [same]⟩, later, lasts,
            served.isStored, fun fresh => serve_fresh later serves fresh,
            fun isStale => ⟨stale isStale, serve_stale serves isStale⟩⟩

def exchangeFlushed (call : Call) : List (PoolChoice ClientJob ClientEvent) :=
  .arrive (.exchange call) :: List.replicate 8 (.act 0 0) ++
    List.replicate 3 (.env (.flush 0 true)) ++
      .arrive (.exchange call) :: List.replicate 6 (.act 1 0)

theorem exchangeFlushed_isCall {call : Call} {job : ClientJob}
    (arrives : .arrive job ∈ exchangeFlushed call) : job.IsCall := by
  simp only [exchangeFlushed, List.cons_append, List.mem_cons, List.mem_append, List.mem_replicate,
    reduceCtorEq, and_false, false_or, or_false, PoolChoice.arrive.injEq] at arrives
  rcases arrives with rfl | rfl <;> trivial

/-- A response read from the database half a second after a whole second. -/
theorem cached_answers_fresh_flushed :
    ∃ pool exit answer, (answering true [sampleAddress]).Reachable 500000000 pool ∧
      pool.threads[1]? = some ⟨.exchange (sampleCall typeA .zero none), .done exit⟩ ∧
        answer ∈ exit.answers ∧ answer.source = .cached false true (some 500000000) ∧
          ∃ record ∈ pool.world.history, Fresh record true 500000000 answer.response.records := by
  obtain ⟨pool, reachable, computed⟩ := (answering true [sampleAddress]).exists_reachable 500000000
    (exchangeFlushed (sampleCall typeA .zero none)) (fun _ => exchangeFlushed_isCall)
    (fun it => it.threads[1]?) rfl
  obtain ⟨exit, answer, finished, returned, source⟩ : ∃ (exit : ClientExit) (answer : Answer),
      pool.threads[1]? = some ⟨.exchange (sampleCall typeA .zero none), .done exit⟩ ∧
        answer ∈ exit.answers ∧ answer.source = .cached false true (some 500000000) :=
    ⟨_, _, computed, List.mem_singleton.2 rfl, rfl⟩
  obtain ⟨now, read, _, _, _, _, record, stored, _, _, _, _, _, fresh, _⟩ :=
    (cached_answers_fresh _ rfl reachable).1 1 _ exit finished answer returned _ _ _ source
  cases read
  exact ⟨pool, exit, answer, reachable, finished, returned, source, record, stored, fresh rfl⟩

/-- The database has cut the expiry to a whole second: a response stored for sixty
seconds is served at once with a time to live of fifty-nine. -/
theorem flushed_answer_loses_second :
    ∃ pool exit answer record, (answering true [sampleAddress]).Reachable 500000000 pool ∧
      pool.threads[1]? = some ⟨.exchange (sampleCall typeA .zero none), .done exit⟩ ∧
        answer ∈ exit.answers ∧ answer.source = .cached false true (some 500000000) ∧
          pool.world.history = [record] ∧ ∃ rr ∈ answer.response.records, rr.hdr.rrtype ≠ typeOPT ∧
            rr.hdr.ttl.toNat ≠ (expiry record.time record.timeToLive - 500000000) / second := by
  obtain ⟨pool, reachable, both⟩ := (answering true [sampleAddress]).exists_reachable 500000000
    (exchangeFlushed (sampleCall typeA .zero none)) (fun _ => exchangeFlushed_isCall)
    (fun it => (it.threads[1]?, it.world.history)) rfl
  obtain ⟨finished, history⟩ := Prod.mk.inj both
  exact ⟨pool, _, _, _, reachable, finished, List.mem_singleton.2 rfl, rfl, history, by decide +kernel⟩

end Client

end SideraCore.Dns
