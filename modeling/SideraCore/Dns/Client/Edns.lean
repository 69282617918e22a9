import SideraCore.Dns.Client.Explained

/-!
Owns the OPT records of replies to requests without one. The client fits those of a
response to the request it has sent, after it has stored the response: a client subnet
lets them through, and a cached response keeps them.
-/

namespace SideraCore.Dns

open Concurrency Experimental

namespace Msg

def types (message : Msg) : List UInt16 × List UInt16 :=
  ((message.answer ++ message.ns).map (·.hdr.rrtype), message.extra.map (·.hdr.rrtype))

def HasOPT (message : Msg) : Prop := typeOPT ∈ message.types.1 ∨ typeOPT ∈ message.types.2

end Msg

section

variable {message request : Msg}

theorem types_normalizeTTL (timeToLive : UInt32) :
    (normalizeTTL message timeToLive).types = message.types := by
  have kept : (fun record : RR => (record.setTTL timeToLive).hdr.rrtype) = (·.hdr.rrtype) := by
    funext record
    unfold RR.setTTL
    split <;> rfl
  simp [Msg.types, normalizeTTL, Msg.mapRecords, Function.comp_def, kept]

theorem types_applied (question : Question) (options : DNSQueryOptions) :
    (applyResponseOptions question message options).1.types = message.types := by
  have kept (key : UInt16) (record : RR) : (record.dropHint key).hdr.rrtype = record.hdr.rrtype := by
    unfold RR.dropHint
    split <;> rfl
  refine (types_normalizeTTL _).trans ?_
  unfold filterHints
  split <;> simp [Msg.types, kept]

theorem isEdns0_eq_none : message.isEdns0 = none ↔ typeOPT ∉ message.types.2 := by
  simp [Msg.isEdns0, Msg.types]

theorem hasOPT_fitEdns (passed : (fitEdns request message).HasOPT) :
    typeOPT ∈ message.types.1 ∨ request.isEdns0 ≠ none ∧ typeOPT ∈ message.types.2 := by
  have dropped : typeOPT ∉ message.dropOPT.types.2 := by
    simp [Msg.types, Msg.dropOPT]
  unfold fitEdns at passed
  split at passed
  · rename_i none
    exact .inl (passed.resolve_right (isEdns0_eq_none.1 none))
  · rename_i some
    split at passed
    · exact .inl (passed.resolve_right dropped)
    · rename_i request
      refine .inr ⟨by simp [request], ?_⟩
      by_contra absent
      simp [isEdns0_eq_none.2 absent] at some

end

namespace Client

variable {Raw : Type}

/-- The OPT records of a transport's answer that the client lets through are none. -/
def AnswersPlain (client : Client Raw) (query : Query) : Prop :=
  ∀ number response, client.Answers number query response →
    typeOPT ∉ response.types.1 ∧ (query.message.isEdns0 ≠ none → typeOPT ∉ response.types.2)

/-- What was stored in the place of the query has no OPT record. -/
def StoresPlain (client : Client Raw) (world : ClientWorld Raw) (query : Query) : Prop :=
  ∀ record ∈ world.history, client.Shares record.key query.key → ¬record.message.HasOPT

/-- **A reply carries EDNS only if the request did**, as long as the transport's answers
have no OPT record that the client lets through, and what was stored in the place of the
query has none. -/
theorem replies_without_edns (client : Client Raw) {start : Time} {pool : ClientPool Raw}
    (reachable : client.Reachable start pool) {self : Nat} {job : ClientJob} {exit : ClientExit}
    (finished : pool.threads[self]? = some ⟨job, .done exit⟩) {call : Call}
    (asks : job = .exchange call ∨ job = .exchangeAsync call)
    (plain : ∀ query, client.query call = some query →
      client.AnswersPlain query ∧ client.StoresPlain pool.world query) :
    ∀ answer ∈ exit.answers, ¬answer.response.HasOPT := by
  intro answer returned has
  obtain ⟨other, called, explains⟩ := reachable.explains finished returned
  obtain rfl : other = call := by
    rcases asks with rfl | rfl <;> exact List.mem_singleton.1 called
  cases explains with
  | refused refused => exact has.elim List.not_mem_nil List.not_mem_nil
  | @exchanged query response asked answered accepted =>
      obtain ⟨number, -, answers⟩ := answered
      obtain ⟨outside, inside⟩ := (plain query asked).1 number response answers
      have types := @types_applied response query.key.question query.options
      rcases hasOPT_fitEdns has with found | ⟨edns, found⟩
      · exact outside (types ▸ found)
      · exact inside edns (types ▸ found)
  | @cached query record hit id asked stored served stale =>
      apply (plain query asked).2 record stored served.key
      change hit.loaded.response.HasOPT at has
      rcases served.response with same | ⟨timeToLive, same⟩
      · rwa [same] at has
      · rwa [same, Msg.HasOPT, types_normalizeTTL] at has

def ednsClient : Client Msg :=
  { Client.sample with
    dnsCache := false
    exchange := fun _ _ message => .response { fixedResponseStatus message rcodeSuccess with
      answer := [sampleAddress]
      extra := [⟨⟨".", typeOPT, 1232, 0⟩, .opt []⟩] } }

def uncachedCall : Call := sampleCall typeA { DNSQueryOptions.zero with disableCache := true } none

/-- Without a cache, the OPT record is taken out of the reply; and a reply stored without
one is served so. -/
theorem replies_without_edns_uncached :
    (∃ pool exit, ednsClient.Reachable 0 pool ∧
      pool.threads[0]? = some ⟨.exchange uncachedCall, .done exit⟩ ∧
        exit.answers ≠ [] ∧ ∀ answer ∈ exit.answers, ¬answer.response.HasOPT) ∧
    ∃ pool exit, (answering false [sampleAddress]).Reachable 0 pool ∧
      pool.threads[1]? = some ⟨.exchange (sampleCall typeA .zero none), .done exit⟩ ∧
        exit.answers.map Answer.source = [.cached false false (some 0)] ∧
          ∀ answer ∈ exit.answers, ¬answer.response.HasOPT := by
  constructor
  · obtain ⟨pool, reachable, both⟩ := ednsClient.exists_reachable 0
      [.arrive (.exchange uncachedCall), .act 0 0]
      (fun job arrives => by simp at arrives; subst arrives; trivial)
      (fun it => (it.threads[0]?, it.world.history)) rfl
    obtain ⟨finished, history⟩ := Prod.mk.inj both
    refine ⟨pool, _, reachable, finished, List.cons_ne_nil _ _,
      replies_without_edns _ reachable finished (.inl rfl) fun query asked => ⟨?_, ?_⟩⟩
    · cases asked
      rintro number response rfl
      exact ⟨by decide, fun edns => absurd rfl edns⟩
    · intro record stored
      rw [history] at stored
      cases stored
  · obtain ⟨pool, reachable, both⟩ := (answering false [sampleAddress]).exists_reachable 0
      (exchangeTwice (sampleCall typeA .zero none) (sampleCall typeA .zero none))
      (fun _ => exchangeTwice_isCall) (fun it => (it.threads[1]?, it.world.history)) rfl
    obtain ⟨finished, history⟩ := Prod.mk.inj both
    refine ⟨pool, _, reachable, finished, rfl,
      replies_without_edns _ reachable finished (.inl rfl) fun query asked => ⟨?_, ?_⟩⟩
    · cases asked
      rintro number response rfl
      exact ⟨by decide, fun edns => absurd rfl edns⟩
    · intro record stored _ has
      rw [history] at stored
      rw [List.mem_singleton.1 stored] at has
      exact has.elim (by decide) (by decide)

/-- Of two exchanges, the second is served the OPT record that the first was not. -/
theorem cached_reply_has_edns :
    ∃ pool exit answer, ednsClient.Reachable 0 pool ∧ (sampleCall typeA .zero none).message.types = ([], []) ∧
      pool.threads[1]? = some ⟨.exchange (sampleCall typeA .zero none), .done exit⟩ ∧
        answer ∈ exit.answers ∧ answer.response.HasOPT := by
  obtain ⟨pool, reachable, finished⟩ := ednsClient.exists_reachable 0
    (exchangeTwice (sampleCall typeA .zero none) (sampleCall typeA .zero none))
    (fun _ => exchangeTwice_isCall) (fun it => it.threads[1]?) rfl
  exact ⟨pool, _, _, reachable, rfl, finished, List.mem_singleton.2 rfl, .inr List.mem_cons_self⟩

end Client

end SideraCore.Dns
