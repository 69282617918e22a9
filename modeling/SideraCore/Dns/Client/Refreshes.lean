import SideraCore.Dns.Client.Local

/-!
Owns the background refreshes: a refresh is started only by the thread that sets
the flag of its key, and clears the flag as its last action, so that at most one
refresh of a key is in flight.
-/

namespace SideraCore.Dns.Client

open Concurrency Experimental

variable {Raw : Type} {client : Client Raw}

/-! ### The shape of the threads -/

def Starts (action : ClientAction Raw) : Prop := ∀ key, action ≠ .endRefresh key

variable {action : ClientAction Raw} {before after world : ClientWorld Raw}
  {threads : List (ClientThread Raw)}

theorem Local.starts (isLocal : Local action) : Starts action := by
  rintro key rfl
  exact isLocal

theorem loadResponse_starts (key : DnsCacheKey) : (client.loadResponse key).Every Starts :=
  (loadResponse_local key).mono fun _ => Local.starts

variable (call : Call) (operation : ExchangeOperation)

theorem release_starts : (release operation : ClientProcess Raw Unit).Every Starts := by
  unfold release
  split
  · trivial
  · exact ⟨by simp [Starts], fun _ => ⟨by simp [Starts], fun _ => trivial⟩⟩

theorem checkTransport_starts : (client.checkTransport call operation).Every Starts := by
  unfold checkTransport
  split
  · exact (release_starts operation).bind fun _ => trivial
  · split
    · refine ⟨by simp [Starts], fun rejected => ?_⟩
      cases rejected with
      | true => exact (release_starts operation).bind fun _ => trivial
      | false => trivial
    · trivial

theorem tryCache_starts : (client.tryCache call operation).Every Starts := by
  refine (loadResponse_starts _).bind fun hit => ?_
  cases hit with
  | none => exact checkTransport_starts call operation
  | some hit =>
      dsimp only
      split
      · split
        · exact checkTransport_starts call operation
        · exact ⟨by simp [Starts], fun _ => (release_starts operation).bind fun _ => trivial⟩
      · exact (release_starts operation).bind fun _ => trivial

theorem beginExchange_starts (allowWait : Bool) :
    (client.beginExchange call allowWait).Every Starts := by
  unfold beginExchange
  split
  · trivial
  · split
    · trivial
    · dsimp only
      split
      · exact checkTransport_starts call _
      · refine ⟨by simp [Starts], fun placed => ?_⟩
        rcases placed with ⟨channel, loaded⟩
        cases loaded with
        | false => exact tryCache_starts call _
        | true =>
            cases allowWait with
            | false => trivial
            | true =>
                refine ⟨by simp [Starts], fun signalled => ?_⟩
                cases signalled with
                | true => exact tryCache_starts call _
                | false => trivial

theorem completeExchange_starts : (client.completeExchange call operation).Every Starts := by
  refine ((exchangeToTransport_local _ _).mono fun _ => Local.starts).bind fun response => ?_
  cases response with
  | none => exact (release_starts operation).bind fun _ => trivial
  | some response =>
      refine ((finishExchange_local _ _ _).mono fun _ => Local.starts).bind fun reply => ?_
      exact (release_starts operation).bind fun _ => trivial

theorem exchangeCall_starts : (client.exchangeCall call).Every Starts := by
  refine (beginExchange_starts call true).bind fun begun => ?_
  cases begun with
  | ready operation => exact completeExchange_starts call operation
  | done reply | wait => trivial

theorem lookupToExchange_starts (task : LookupTask) : (client.lookupToExchange task).Every Starts := by
  have exchanges : (client.lookupExchange task).Every Starts := by
    refine (exchangeCall_starts task.call).bind fun reply => ?_
    rcases reply with ⟨_ | answer, _ | error⟩ <;> trivial
  unfold lookupToExchange
  split
  · exact exchanges
  · refine Process.Every.bind ?_ fun cached => ?_
    · refine (loadResponse_starts _).bind fun hit => ?_
      cases hit with
      | none => trivial
      | some hit =>
          dsimp only
          split
          · split
            · trivial
            · exact ⟨by simp [Starts], fun _ => trivial⟩
          · trivial
    · cases cached with
      | none => exact exchanges
      | some reply => trivial

theorem body_starts (client : Client Raw) (job : ClientJob) (other : ∀ query, job ≠ .refresh query) :
    (client.body job).Every Starts := by
  cases job with
  | exchange call => exact (exchangeCall_starts call).bind fun _ => trivial
  | exchangeAsync call =>
      refine (beginExchange_starts call false).bind fun begun => ?_
      cases begun with
      | ready operation => exact (completeExchange_starts call operation).bind fun _ => trivial
      | done reply => trivial
      | wait => exact ⟨by simp [Starts], fun _ => trivial⟩
  | lookup call =>
      refine Process.Every.bind ?_ fun _ => trivial
      unfold lookup
      split
      · exact lookupToExchange_starts _
      · exact lookupToExchange_starts _
      · exact ⟨by simp [Starts], fun _ => ⟨by simp [Starts], fun _ => trivial⟩⟩
  | task group isIPv6 task =>
      exact (lookupToExchange_starts task).bind fun _ => ⟨by simp [Starts], fun _ => trivial⟩
  | refresh query => exact absurd rfl (other query)

/-- The process clears the flag of the key, at its end and only then. -/
def ClearsLast {α : Type} (key : DnsCacheKey) (process : ClientProcess Raw α) : Prop :=
  process.EndsIn Local fun action => action = ClientAction.endRefresh key

/-- The remaining actions of a thread clear only the flag of its own refresh. -/
def Shaped (thread : ClientThread Raw) : Prop :=
  match thread.origin with
  | .refresh query => (∃ exit, thread.process = .done exit) ∨ ClearsLast query.key thread.process
  | _ => thread.process.Every Starts

theorem shaped_start (client : Client Raw) (job : ClientJob) : Shaped (Thread.start client.body job) := by
  by_cases isRefresh : ∃ query, job = .refresh query
  · obtain ⟨query, rfl⟩ := isRefresh
    exact .inr ((refreshResponse_local query).endsIn fun _ => .inl ⟨rfl, fun _ => ⟨_, rfl⟩⟩)
  · have starts := body_starts client job fun query same => isRefresh ⟨query, same⟩
    cases job with
    | refresh query => exact absurd ⟨query, rfl⟩ isRefresh
    | _ => exact starts

section Shapes

variable {origin : ClientJob} {action : ClientAction Raw}
  {rest : (clientSignature Raw).Answer action → ClientProcess Raw ClientExit}

theorem Shaped.next (shaped : Shaped ⟨origin, .act action rest⟩)
    (answer : (clientSignature Raw).Answer action) : Shaped ⟨origin, rest answer⟩ := by
  cases origin with
  | refresh query =>
      rcases shaped with ⟨exit, ended⟩ | ⟨-, ends⟩ | ⟨-, continues⟩
      · simp at ended
      · exact .inl (ends answer)
      · exact .inr (continues answer)
  | _ => exact shaped.2 answer

theorem Shaped.refresh {key : DnsCacheKey} (clears : action = .endRefresh key)
    (shaped : Shaped ⟨origin, .act action rest⟩) :
    (∃ query, origin = .refresh query ∧ query.key = key) ∧
      ∀ answer, ∃ exit, rest answer = .done exit := by
  subst clears
  cases origin with
  | refresh query =>
      rcases shaped with ⟨exit, ended⟩ | ⟨last, ends⟩ | ⟨isLocal, -⟩
      · simp at ended
      · exact ⟨⟨query, rfl, (ClientAction.endRefresh.inj last).symm⟩, ends⟩
      · exact isLocal.elim
  | _ => exact absurd rfl (shaped.1 key)

end Shapes

/-! ### One refresh for each key -/

def Refreshing (pool : ClientPool Raw) (self : Nat)
    (key : DnsCacheKey) : Prop :=
  ∃ query action rest, pool.threads[self]? = some ⟨.refresh query, .act action rest⟩ ∧ query.key = key

/-- A refresh in flight has set the flag of its key, and no other has. -/
structure RefreshesOnce (pool : ClientPool Raw) :
    Prop where
  shaped : ∀ (self : Nat) thread, pool.threads[self]? = some thread → Shaped thread
  flagged : ∀ self key, Refreshing pool self key → pool.world.backgroundRefresh key = true
  unique : ∀ self other key, Refreshing pool self key → Refreshing pool other key → self = other

variable {self : Nat} {answer : (clientSignature Raw).Answer action}

theorem outcomes_flags (outcome : (answer, after) ∈ client.outcomes self before action)
    (noStart : ∀ query, action ≠ .startRefresh query) (noEnd : ∀ key, action ≠ .endRefresh key) :
    after.backgroundRefresh = before.backgroundRefresh ∧
      ∀ query, .refresh query ∉ spawns action answer := by
  cases action with
  | startRefresh query => exact absurd rfl (noStart query)
  | endRefresh key => exact absurd rfl (noEnd key)
  | loadOrStoreLock key =>
      obtain rfl : after = (before.loadOrStoreLock self key).2 :=
        (sole_outcome outcome).2
      cases placed : before.cacheLock key <;> simp [ClientWorld.loadOrStoreLock, placed, spawns]
  | deleteLock key =>
      obtain rfl : after = before.deleteLock self key :=
        (sole_outcome outcome).2
      cases placed : before.cacheLock key <;> simp [ClientWorld.deleteLock, placed, spawns]
  | awaitLock channel =>
      obtain ⟨rfl, -⟩ := mem_outcomes_awaitLock client |>.1 outcome
      simp [spawns]
  | awaitGroup group =>
      obtain ⟨rfl, -⟩ := mem_outcomes_awaitGroup client outcome
      simp [spawns]
  | _ =>
      obtain rfl := (sole_outcome outcome).2
      simp [spawns, ClientWorld.closeLock, ClientWorld.finishTask]

theorem interfere_flags {event : ClientEvent} (moved : before.interfere event = some after) :
    after.backgroundRefresh = before.backgroundRefresh := by
  cases event with
  | flush index succeeds =>
      obtain ⟨flushing, -, rfl⟩ := Option.map_eq_some_iff.1 moved
      rfl
  | _ =>
      cases moved
      rfl

/-- A refresh in flight was in flight before, on a thread that goes on, or the action
started it. -/
theorem Refreshing.previous {origin : ClientJob}
    {rest : (clientSignature Raw).Answer action → ClientProcess Raw ClientExit}
    (running : threads[self]? = some ⟨origin, .act action rest⟩) {index : Nat} {key : DnsCacheKey}
    (refreshing : Refreshing ⟨threads.set self ⟨origin, rest answer⟩ ++
      (spawns action answer).map (Thread.start client.body), after⟩ index key) :
    Refreshing ⟨threads, world⟩ index key ∧ (index = self → ∀ exit, rest answer ≠ .done exit) ∨
      threads.length ≤ index ∧ ∃ query, (spawns action answer)[index - threads.length]? =
        some (.refresh query) ∧ query.key = key := by
  obtain ⟨query, nextAction, nextRest, found, sameKey⟩ := refreshing
  rcases getElem?_act found with ⟨different, old⟩ | ⟨rfl, acted⟩ | ⟨beyond, job, spawned, started⟩
  · exact .inl ⟨⟨query, nextAction, nextRest, old, sameKey⟩, fun same => absurd same different⟩
  · obtain ⟨rfl, process⟩ := Thread.mk.inj acted
    exact .inl ⟨⟨query, action, rest, running, sameKey⟩, fun _ exit ended => by
      rw [ended] at process
      cases process⟩
  · obtain ⟨rfl, -⟩ := Thread.mk.inj started
    exact .inr ⟨beyond, query, spawned, sameKey⟩

theorem RefreshesOnce.of_kept {before after : ClientPool Raw} (once : RefreshesOnce before)
    (shaped : ∀ (self : Nat) thread, after.threads[self]? = some thread → Shaped thread)
    (kept : ∀ self key, Refreshing after self key → Refreshing before self key ∧
      (before.world.backgroundRefresh key = true → after.world.backgroundRefresh key = true)) :
    RefreshesOnce after where
  shaped := shaped
  flagged := fun self key refreshing =>
    (kept self key refreshing).2 (once.flagged self key (kept self key refreshing).1)
  unique := fun self other key first second =>
    once.unique self other key (kept self key first).1 (kept other key second).1

theorem RefreshesOnce.start (once : RefreshesOnce ⟨threads, world⟩) {after : ClientPool Raw}
    {query : Query} (clear : world.backgroundRefresh query.key = false)
    (flags : after.world.backgroundRefresh = Function.update world.backgroundRefresh query.key true)
    (shaped : ∀ (self : Nat) thread, after.threads[self]? = some thread → Shaped thread)
    (kept : ∀ self key, Refreshing after self key → Refreshing ⟨threads, world⟩ self key ∨
      self = threads.length ∧ key = query.key) :
    RefreshesOnce after where
  shaped := shaped
  flagged := by
    intro self key refreshing
    rw [flags, Function.update_apply]
    split
    · rfl
    · rename_i different
      rcases kept self key refreshing with old | ⟨-, same⟩
      · exact once.flagged self key old
      · exact absurd same different
  unique := by
    have notBefore : ∀ self, ¬ Refreshing ⟨threads, world⟩ self query.key := by
      intro self refreshing
      exact Bool.noConfusion ((once.flagged self query.key refreshing).symm.trans clear)
    intro self other key first second
    rcases kept self key first with old | ⟨new, rfl⟩
    · rcases kept other key second with oldOther | ⟨-, rfl⟩
      · exact once.unique self other key old oldOther
      · exact absurd old (notBefore self)
    · rcases kept other _ second with oldOther | ⟨newOther, -⟩
      · exact absurd oldOther (notBefore other)
      · exact new.trans newOther.symm

theorem RefreshesOnce.act {threads : List (ClientThread Raw)} {world after : ClientWorld Raw}
    (once : RefreshesOnce ⟨threads, world⟩) {self : Nat} {origin : ClientJob}
    {action : ClientAction Raw}
    {rest : (clientSignature Raw).Answer action → ClientProcess Raw ClientExit}
    {answer : (clientSignature Raw).Answer action}
    (running : threads[self]? = some ⟨origin, .act action rest⟩)
    (outcome : (answer, after) ∈ client.outcomes self world action) :
    RefreshesOnce ⟨threads.set self ⟨origin, rest answer⟩ ++
      (spawns action answer).map (Thread.start client.body), after⟩ := by
  have shape := once.shaped self _ running
  have shaped : ∀ (index : Nat) thread, (threads.set self ⟨origin, rest answer⟩ ++
      (spawns action answer).map (Thread.start client.body))[index]? = some thread → Shaped thread := by
    intro index thread found
    rcases getElem?_act found with ⟨-, old⟩ | ⟨-, rfl⟩ | ⟨-, job, -, rfl⟩
    · exact once.shaped index thread old
    · exact shape.next answer
    · exact shaped_start client job
  by_cases starts : ∃ query, action = .startRefresh query
  · obtain ⟨query, rfl⟩ := starts
    obtain ⟨rfl, rfl⟩ := sole_outcome outcome
    cases clear : world.backgroundRefresh query.key with
    | false =>
        refine once.start clear rfl (clear ▸ shaped) fun index key refreshing => ?_
        rcases refreshing.previous running with ⟨old, -⟩ | ⟨beyond, other, spawned, sameKey⟩
        · exact .inl old
        · have single : [ClientJob.refresh query][index - threads.length]? = some (.refresh other) := spawned
          obtain ⟨inside, same⟩ := List.getElem?_eq_some_iff.1 single
          simp only [List.length_singleton, Nat.lt_one_iff] at inside
          simp only [inside, List.getElem_cons_zero, ClientJob.refresh.injEq] at same
          exact .inr ⟨by omega, by rw [← sameKey, same]⟩
    | true =>
        refine once.of_kept (clear ▸ shaped) fun index key refreshing => ?_
        rcases refreshing.previous running with ⟨old, -⟩ | ⟨-, other, spawned, -⟩
        · refine ⟨old, fun set => ?_⟩
          simp only [Function.update_apply]
          split
          · rfl
          · exact set
        · simp [spawns] at spawned
  · by_cases clears : ∃ key, action = .endRefresh key
    · obtain ⟨key, rfl⟩ := clears
      obtain ⟨⟨query, rfl, sameKey⟩, ends⟩ := shape.refresh rfl
      have here : Refreshing ⟨threads, world⟩ self key := ⟨query, _, rest, running, sameKey⟩
      obtain rfl := (sole_outcome outcome).2
      refine once.of_kept shaped fun index other refreshing => ?_
      rcases refreshing.previous running with ⟨old, notEnded⟩ | ⟨-, other, spawned, -⟩
      · refine ⟨old, fun set => ?_⟩
        have different : other ≠ key := by
          rintro rfl
          obtain ⟨exit, ended⟩ := ends answer
          exact notEnded (once.unique index self other old here) exit ended
        simpa [Function.update_apply, different] using set
      · simp [spawns] at spawned
    · obtain ⟨flags, noRefresh⟩ := outcomes_flags outcome (fun query same => starts ⟨query, same⟩)
        fun key same => clears ⟨key, same⟩
      refine once.of_kept shaped fun index key refreshing => ?_
      rcases refreshing.previous running with ⟨old, -⟩ | ⟨-, other, spawned, -⟩
      · exact ⟨old, fun set => by rw [flags]; exact set⟩
      · exact absurd (List.mem_of_getElem? spawned) (noRefresh other)

theorem RefreshesOnce.step {before after : ClientPool Raw} (once : RefreshesOnce before)
    (step : PoolStep client.shared client.body ClientJob.IsCall before after) :
    RefreshesOnce after := by
  cases step with
  | act running outcome => exact once.act running outcome
  | @arrive threads world job allowed =>
      refine once.of_kept (fun index thread found => ?_) fun index key refreshing => ?_
      · rcases getElem?_started (show (threads ++ [job].map (Thread.start client.body))[index]? = _ from found)
          with old | ⟨-, other, -, rfl⟩
        · exact once.shaped index thread old
        · exact shaped_start client other
      · obtain ⟨query, action, rest, found, sameKey⟩ := refreshing
        rcases getElem?_started (show (threads ++ [job].map (Thread.start client.body))[index]? = _ from found)
          with old | ⟨-, other, member, started⟩
        · exact ⟨⟨query, action, rest, old, sameKey⟩, id⟩
        · obtain rfl : other = job := List.mem_singleton.1 (List.mem_of_getElem? member)
          obtain ⟨rfl, -⟩ := Thread.mk.inj started
          exact allowed.elim
  | env moved =>
      refine once.of_kept once.shaped fun index key refreshing => ⟨refreshing, fun set => ?_⟩
      rw [interfere_flags moved]
      exact set

/-- In every reachable pool at most one refresh of a key is in flight. -/
theorem Reachable.refreshesOnce {start : Time} {pool : ClientPool Raw}
    (reachable : client.Reachable start pool) : RefreshesOnce pool := by
  induction reachable with
  | refl => exact ⟨by simp, by simp [Refreshing], by simp [Refreshing]⟩
  | tail _ step ih => exact ih.step step

end SideraCore.Dns.Client
