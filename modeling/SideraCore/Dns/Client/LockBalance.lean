import SideraCore.Dns.Client.Locks

/-!
Owns the verification of the client's threads against `Client.locking`, and what
it comes to in every reachable pool: the locks are balanced, and no thread waits
for a lock that nobody will release.
-/

namespace SideraCore.Dns.Client

open Concurrency Experimental

variable {Raw : Type} {client : Client Raw} {self : Nat} {job : ClientJob} {world : ClientWorld Raw}
  {α β : Type}

abbrev Keeps (client : Client Raw) (self : Nat) (job : ClientJob) (process : ClientProcess Raw α)
    (post : α → ClientWorld Raw → Prop) (world : ClientWorld Raw) : Prop :=
  wp ((locking Raw).around client.shared self) (fun _ _ _ => True)
    ((locking Raw).Promise client.shared self job) process post world

/-- The thread holds what it should, among locks that are kept. -/
structure At (thread : Nat) (held : Option (Nat × Channel)) (world : ClientWorld Raw) : Prop where
  kept : world.LocksKept
  owns : world.Owns thread held

variable {held : Option (Nat × Channel)} {action : ClientAction Raw} {operation : ExchangeOperation}
  {call : Call}

theorem owns_respects {other : Nat} {before after : ClientWorld Raw} (different : other ≠ self)
    (respects : RespectsLocks other before after) (owns : before.Owns self held) :
    after.Owns self held where
  present := by
    intro index channel holds
    obtain ⟨there, mine⟩ := owns.present index channel holds
    exact ⟨(respects.others index channel (mine ▸ different.symm)).2 there, mine⟩
  others := by
    intro index channel found mine
    exact owns.others index channel ((respects.others index channel (mine ▸ different.symm)).1 found) mine

theorem at_stable (self : Nat) (held : Option (Nat × Channel)) :
    ((locking Raw).around client.shared self).Stable (At self held) := by
  refine Discipline.stable_of_rely fun before after rely holds => ?_
  rcases rely with ⟨other, job, different, respects⟩ | ⟨event, moved⟩
  · exact ⟨respects.kept holds.kept, owns_respects different respects holds.owns⟩
  · obtain ⟨channels, cacheLock⟩ := interfere_locks moved
    have same : RespectsLocks self before after := .of_eq channels cacheLock
    exact ⟨same.kept holds.kept, owns_congr channels holds.owns⟩

theorem place_stable (self index : Nat) :
    ((locking Raw).around client.shared self).Stable fun world =>
      ∃ channel, world.channels[index]? = some channel := by
  refine Discipline.stable_of_rely fun before after rely ⟨channel, there⟩ => ?_
  rcases rely with ⟨other, job, -, respects⟩ | ⟨event, moved⟩
  · obtain ⟨later, present, -⟩ := respects.openers index channel there
    exact ⟨later, present⟩
  · rw [(interfere_locks moved).1]
    exact ⟨channel, there⟩

theorem keeps_done {value : α} (holds : At self held world) :
    client.Keeps self job (.done value) (fun _ => At self held) world :=
  wp_done (at_stable self held) holds

theorem promise_lockFree (free : LockFree action) :
    (locking Raw).Promise client.shared self job action world := by
  refine ⟨?_, fun answer after outcome => ⟨?_, fun _ _ => trivial⟩⟩
  · cases action <;> trivial
  · obtain ⟨channels, cacheLock⟩ := outcomes_locks free outcome
    exact .of_eq channels cacheLock

variable {process : ClientProcess Raw α} {post : α → ClientWorld Raw → Prop}

theorem keeps_every (every : process.Every LockFree) (holds : At self held world) :
    client.Keeps self job process (fun _ => At self held) world := by
  refine wp_every LockFree (At self held) (at_stable self held) every
    (fun _ _ free _ => promise_lockFree free) ?_ holds
  intro action during answer after free current outcome
  obtain ⟨channels, cacheLock⟩ := outcomes_locks free outcome
  have same : RespectsLocks self during after := .of_eq channels cacheLock
  exact ⟨same.kept current.kept, owns_congr channels current.owns⟩

theorem Keeps.bind {next : α → ClientProcess Raw β} {middle : α → ClientWorld Raw → Prop}
    {post : β → ClientWorld Raw → Prop} (first : client.Keeps self job process middle world)
    (second : ∀ value after, middle value after → client.Keeps self job (next value) post after) :
    client.Keeps self job (process >>= next) post world :=
  wp_bind (wp_mono first second)

theorem keeps_free (free : LockFree action)
    {next : (clientSignature Raw).Answer action → ClientProcess Raw α} (holds : At self held world)
    (continues : ∀ answer after, At self held after → client.Keeps self job (next answer) post after) :
    client.Keeps self job (.act action next) post world := by
  have single : (Process.perform action : ClientProcess Raw _).Every LockFree := ⟨free, fun _ => trivial⟩
  exact Keeps.bind (keeps_every single holds) continues

def heldFor (self : Nat) (operation : ExchangeOperation) : Option (Nat × Channel) :=
  operation.releaseCond.map fun channel => (channel, ⟨operation.query.key, self, [], []⟩)

/-- What the thread holds when `beginExchange` has returned. -/
def BegunAt (self : Nat) (begun : Begun) (world : ClientWorld Raw) : Prop :=
  match begun with
  | .ready operation => At self (heldFor self operation) world
  | .done _ => At self none world
  | .wait => At self none world

theorem begunAt_done {begun : Begun} (holds : BegunAt self begun world) :
    client.Keeps self job (.done begun) (BegunAt self) world := by
  cases begun with
  | ready operation | done reply | wait => exact wp_done (at_stable self _) holds

theorem loadResponse_lockFree (key : DnsCacheKey) : (client.loadResponse key).Every LockFree :=
  (loadResponse_local key).mono fun _ => Local.lockFree

theorem questionCache_lockFree (task : LookupTask) : (client.questionCache task).Every LockFree := by
  refine (loadResponse_lockFree _).bind fun hit => ?_
  cases hit with
  | none => trivial
  | some hit =>
      dsimp only
      split
      · split
        · trivial
        · exact ⟨trivial, fun _ => trivial⟩
      · trivial

section Holding

variable (holds : At self (heldFor self operation) world)
include holds

theorem release_keeps :
    client.Keeps self job (release operation) (fun _ => At self none) world := by
  unfold release
  split
  · rename_i unlocked
    rw [heldFor, unlocked] at holds
    exact keeps_done holds
  · rename_i channel locked
    rw [heldFor, locked] at holds
    refine wp_act _ (at_stable self _) holds (fun during current => ⟨trivial, ?_⟩) ?_
    · intro answer after outcome
      obtain rfl := (sole_outcome outcome).2
      exact ⟨delete_respects current.kept current.owns, fun _ _ => trivial⟩
    · intro during answer after current outcome _
      obtain rfl := (sole_outcome outcome).2
      have removed : At self (some (channel, ⟨operation.query.key, self, [self], []⟩))
          (during.deleteLock self operation.query.key) :=
        ⟨(delete_respects current.kept current.owns).kept current.kept, delete_owns current.kept current.owns⟩
      refine wp_act _ (at_stable self _) removed (fun closing holding => ⟨trivial, ?_⟩) ?_
      · intro answer after outcome
        obtain rfl := (sole_outcome outcome).2
        exact ⟨close_respects holding.owns, fun _ _ => trivial⟩
      · intro closing answer after holding outcome _
        obtain rfl := (sole_outcome outcome).2
        exact keeps_done ⟨(close_respects holding.owns).kept holding.kept, close_owns holding.owns⟩

theorem released_keeps {reply : Reply} :
    client.Keeps self job (release operation >>= fun _ => pure (Begun.done reply)) (BegunAt self) world :=
  Keeps.bind (release_keeps holds) fun _ _ free => begunAt_done free

theorem checkTransport_keeps :
    client.Keeps self job (client.checkTransport call operation) (BegunAt self) world := by
  unfold checkTransport
  split
  · exact released_keeps holds
  · split
    · refine keeps_free (by trivial) holds fun rejected after current => ?_
      cases rejected with
      | true => exact released_keeps current
      | false => exact begunAt_done current
    · exact begunAt_done holds

theorem tryCache_keeps :
    client.Keeps self job (client.tryCache call operation) (BegunAt self) world := by
  refine Keeps.bind (keeps_every (loadResponse_lockFree _) holds) fun hit after current => ?_
  cases hit with
  | none => exact checkTransport_keeps current
  | some hit =>
      dsimp only
      split
      · split
        · exact checkTransport_keeps current
        · exact keeps_free (by trivial) current fun _ _ kept => released_keeps kept
      · exact released_keeps current

theorem completeExchange_keeps :
    client.Keeps self job (client.completeExchange call operation) (fun _ => At self none) world := by
  have ends : ∀ {reply : Reply} {after : ClientWorld Raw}, At self (heldFor self operation) after →
      client.Keeps self job (release operation >>= fun _ => pure reply) (fun _ => At self none) after :=
    fun current => Keeps.bind (release_keeps current) fun _ _ => keeps_done
  refine Keeps.bind (keeps_every ((exchangeToTransport_local _ _).mono fun _ => Local.lockFree) holds)
    fun response after current => ?_
  cases response with
  | none => exact ends current
  | some response =>
      exact Keeps.bind (keeps_every ((finishExchange_local _ _ _).mono fun _ => Local.lockFree) current)
        fun _ _ => ends

end Holding

section Free

variable (holds : At self none world)
include holds

theorem awaitLock_keeps {channel : Nat} (unheld : heldFor self operation = none)
    (there : ∃ placed, world.channels[channel]? = some placed) :
    client.Keeps self job (do
      let signalled : Bool ← issue (.awaitLock channel)
      if signalled then client.tryCache call operation else pure (.done ⟨none, some .context⟩))
      (BegunAt self) world := by
  refine wp_act (fun world => At self none world ∧ ∃ placed, world.channels[channel]? = some placed) ?_
    ⟨holds, there⟩ ?_ ?_
  · intro before after move both
    exact ⟨at_stable self none before after move both.1, place_stable self channel before after move both.2⟩
  · rintro during ⟨current, there⟩
    refine ⟨⟨current.owns, there⟩, fun signalled after outcome => ⟨?_, fun _ _ => trivial⟩⟩
    obtain ⟨rfl, -⟩ := mem_outcomes_awaitLock client |>.1 outcome
    exact .of_eq rfl rfl
  · rintro during signalled after ⟨current, -⟩ outcome -
    obtain ⟨rfl, -⟩ := mem_outcomes_awaitLock client |>.1 outcome
    cases signalled with
    | true => exact tryCache_keeps (unheld ▸ current)
    | false => exact begunAt_done current

theorem lockCache_keeps {allowWait : Bool} (unlocked : operation.releaseCond = none) :
    client.Keeps self job (client.lockCache call allowWait operation) (BegunAt self) world := by
  have heldNone : heldFor self operation = none := by rw [heldFor, unlocked]; rfl
  refine wp_act _ (at_stable self none) holds (fun during current => ⟨trivial, ?_⟩) ?_
  · intro answer after outcome
    obtain rfl : after = (during.loadOrStoreLock self operation.query.key).2 :=
      (sole_outcome outcome).2
    refine ⟨?_, fun _ _ => trivial⟩
    cases entry : during.cacheLock operation.query.key with
    | none => exact place_respects entry
    | some channel => simp only [ClientWorld.loadOrStoreLock, entry]; exact .of_eq rfl rfl
  · intro during answer after current outcome _
    have equal := List.mem_singleton.1 outcome
    cases entry : during.cacheLock operation.query.key with
    | none =>
        have placed : At self (some (during.channels.length, ⟨operation.query.key, self, [], []⟩))
            (during.loadOrStoreLock self operation.query.key).2 :=
          ⟨(place_respects entry).kept current.kept, place_owns entry current.owns⟩
        rw [← equal] at placed
        simp only [ClientWorld.loadOrStoreLock, entry] at equal
        obtain ⟨rfl, -⟩ := Prod.mk.inj equal
        exact tryCache_keeps placed
    | some channel =>
        obtain ⟨opener, there⟩ := current.kept.placed _ channel entry
        simp only [ClientWorld.loadOrStoreLock, entry] at equal
        obtain ⟨rfl, rfl⟩ := Prod.mk.inj equal
        cases allowWait with
        | false => exact begunAt_done current
        | true =>
            exact awaitLock_keeps current heldNone ⟨_, there⟩

theorem beginExchange_keeps (call : Call) (allowWait : Bool) :
    client.Keeps self job (client.beginExchange call allowWait) (BegunAt self) world := by
  unfold beginExchange
  split
  · exact begunAt_done holds
  · split
    · exact begunAt_done holds
    · dsimp only
      split
      · exact checkTransport_keeps holds
      · exact lockCache_keeps holds rfl

theorem exchangeCall_keeps (call : Call) :
    client.Keeps self job (client.exchangeCall call) (fun _ => At self none) world := by
  refine Keeps.bind (beginExchange_keeps holds call true) fun begun after current => ?_
  cases begun with
  | ready operation => exact completeExchange_keeps current
  | done reply | wait => exact keeps_done current

theorem exchangeAsync_keeps (call : Call) :
    client.Keeps self job (client.exchangeAsync call) (fun _ => At self none) world := by
  refine Keeps.bind (beginExchange_keeps holds call false) fun begun after current => ?_
  cases begun with
  | ready operation => exact Keeps.bind (completeExchange_keeps current) fun _ _ => keeps_done
  | done reply => exact keeps_done current
  | wait => exact keeps_free (by trivial) current fun _ _ => keeps_done

theorem lookupExchange_keeps (task : LookupTask) :
    client.Keeps self job (client.lookupExchange task) (fun _ => At self none) world := by
  refine Keeps.bind (exchangeCall_keeps holds task.call) fun reply after current => ?_
  rcases reply with ⟨_ | answer, _ | error⟩ <;> exact keeps_done current

theorem lookupToExchange_keeps (task : LookupTask) :
    client.Keeps self job (client.lookupToExchange task) (fun _ => At self none) world := by
  unfold lookupToExchange
  split
  · exact lookupExchange_keeps holds task
  · refine Keeps.bind (keeps_every (questionCache_lockFree task) holds) fun cached after current => ?_
    cases cached with
    | none => exact lookupExchange_keeps current task
    | some reply => exact keeps_done current

theorem awaitGroup_keeps {group : Nat} {next : LookupGroup → ClientProcess Raw α}
    (continues : ∀ results after, At self none after → client.Keeps self job (next results) post after) :
    client.Keeps self job (issue (.awaitGroup group) >>= next) post world := by
  refine wp_act _ (at_stable self none) holds (fun during current => ⟨current.owns, ?_⟩) ?_
  · intro results after outcome
    obtain ⟨rfl, -⟩ := mem_outcomes_awaitGroup client outcome
    exact ⟨.of_eq rfl rfl, fun _ _ => trivial⟩
  · intro during results after current outcome _
    obtain ⟨rfl, -⟩ := mem_outcomes_awaitGroup client outcome
    exact continues results after current

theorem lookup_keeps (call : LookupCall) :
    client.Keeps self job (client.lookup call) (fun _ => At self none) world := by
  unfold lookup
  split
  · exact lookupToExchange_keeps holds _
  · exact lookupToExchange_keeps holds _
  · exact keeps_free (by trivial) holds fun _ _ current =>
      awaitGroup_keeps current fun _ _ => keeps_done

theorem body_keeps (job : ClientJob) :
    client.Keeps self job (client.body job) (fun _ => At self none) world := by
  cases job with
  | exchange call => exact Keeps.bind (exchangeCall_keeps holds call) fun _ _ => keeps_done
  | exchangeAsync call => exact exchangeAsync_keeps holds call
  | lookup call => exact Keeps.bind (lookup_keeps holds call) fun _ _ => keeps_done
  | task group isIPv6 task =>
      refine Keeps.bind (lookupToExchange_keeps holds task) fun _ _ current => ?_
      exact keeps_free (by trivial) current fun _ _ => keeps_done
  | refresh query =>
      refine Keeps.bind (keeps_every ((refreshResponse_local query).mono fun _ => Local.lockFree) holds)
        fun _ _ current => ?_
      exact keeps_free (by trivial) current fun _ _ => keeps_done

end Free

theorem locking_sound (client : Client Raw) :
    (locking Raw).Sound client.shared client.body ClientJob.IsCall where
  acts := fun _ _ _ _ respects => respects.kept
  moves := by
    intro event before after moved kept
    obtain ⟨channels, cacheLock⟩ := interfere_locks moved
    exact (RespectsLocks.of_eq channels cacheLock : RespectsLocks 0 before after).kept kept
  unborn := by
    rintro self before after (⟨other, job, different, respects⟩ | ⟨event, moved⟩) _ unborn index channel found
    · rintro rfl
      exact unborn index channel ((respects.others index channel different.symm).1 found) rfl
    · rw [(interfere_locks moved).1] at found
      exact unborn index channel found
  arrives := fun _ _ _ _ => trivial
  secured := by
    intro self job world kept unborn _
    have holds : At self none world :=
      ⟨kept, by simp, fun index channel found mine => absurd mine (unborn index channel found)⟩
    exact wp_mono (body_keeps holds job) fun _ _ current => current.owns

theorem locking_kept (client : Client Raw) {start : Time} {pool : ClientPool Raw}
    (reachable : client.Reachable start pool) :
    Discipline.Kept (locking Raw) client.shared pool :=
  client.locking_sound.reaches ⟨by simp [ClientWorld.start], by simp [ClientWorld.start]⟩
    (fun _ => by simp [locking, ClientWorld.start]) reachable

/-- Only the waits can block. -/
theorem outcomes_ne_nil (lock : ∀ channel, action ≠ .awaitLock channel)
    (group : ∀ group, action ≠ .awaitGroup group) : client.outcomes self world action ≠ [] := by
  cases action with
  | awaitLock channel => exact absurd rfl (lock channel)
  | awaitGroup other => exact absurd rfl (group other)
  | _ => exact List.cons_ne_nil _ _

section Kept

variable {pool : ClientPool Raw} {index : Nat} {channel : Channel}
  (found : pool.world.channels[index]? = some channel)
include found

theorem opener_thread (kept : Discipline.Kept (locking Raw) client.shared pool) :
    ∃ thread, pool.threads[channel.opener]? = some thread := by
  rcases Nat.lt_or_ge channel.opener pool.threads.length with inside | beyond
  · exact ⟨_, List.getElem?_eq_getElem inside⟩
  · exact absurd rfl (kept.unborn channel.opener beyond index channel found)

theorem released_of_owns (owns : pool.world.Owns channel.opener none) : channel.Released :=
  (owns.others index channel found rfl).resolve_right (by simp)

theorem isClosed_of_released (released : channel.Released) : pool.world.isClosed index = true := by
  simp [ClientWorld.isClosed, found, released.2]

/-- The opener of a channel that is not closed can go on. -/
theorem opener_enabled (kept : Discipline.Kept (locking Raw) client.shared pool)
    (unclosed : pool.world.isClosed index ≠ true) {job : ClientJob} {action : ClientAction Raw}
    {rest : (clientSignature Raw).Answer action → ClientProcess Raw ClientExit}
    (pending : pool.threads[channel.opener]? = some ⟨job, .act action rest⟩) :
    client.outcomes channel.opener pool.world action ≠ [] := by
  have required := kept.requires pending
  apply outcomes_ne_nil
  · rintro other rfl
    exact unclosed (isClosed_of_released found (released_of_owns found required.1))
  · rintro other rfl
    exact unclosed (isClosed_of_released found (released_of_owns found required))

/-- The opener of a channel, left to itself, closes it, by induction on the rest of its
process. -/
theorem opener_closes {start : Time} {job : ClientJob} (process : ClientProcess Raw ClientExit)
    (reachable : client.Reachable start pool)
    (running : pool.threads[channel.opener]? = some ⟨job, process⟩) :
    ∃ later, Relation.ReflTransGen (PoolStep client.shared client.body ClientJob.IsCall) pool later ∧
      later.world.isClosed index = true := by
  induction process generalizing pool channel with
  | done exit =>
      have kept := client.locking_kept reachable
      exact ⟨pool, .refl, isClosed_of_released found (released_of_owns found (kept.post running))⟩
  | act action rest ih =>
      have kept := client.locking_kept reachable
      by_cases closed : pool.world.isClosed index = true
      · exact ⟨pool, .refl, closed⟩
      · obtain ⟨⟨answer, after⟩, outcome⟩ :=
          List.exists_mem_of_ne_nil _ (opener_enabled found kept closed running)
        have respects := ((kept.threads _ _ running pool.world .refl).1.2 answer after outcome).1
        obtain ⟨later, present, sameOpener⟩ := respects.openers index channel found
        have step : PoolStep client.shared client.body ClientJob.IsCall pool _ := .act running outcome
        have acted : (pool.threads.set channel.opener ⟨job, rest answer⟩ ++
            (client.shared.spawns action answer).map (Thread.start client.body))[later.opener]? =
              some ⟨job, rest answer⟩ := by
          have inside := (List.getElem?_eq_some_iff.1 running).1
          rw [sameOpener, List.getElem?_append_left (by simpa using inside), List.getElem?_set_self inside]
        obtain ⟨final, run, finallyClosed⟩ :=
          ih answer present (Relation.ReflTransGen.tail reachable step) acted
        exact ⟨final, .head step run, finallyClosed⟩

end Kept

/-- An entry is removed and its channel closed at most once, by the thread that placed
it and before it ends; none is left when all threads have ended; and a thread waits for
one that is in flight and can go on until the channel is closed. -/
structure LocksBalanced (client : Client Raw) (pool : ClientPool Raw) : Prop where
  once : ∀ (index : Nat) channel, pool.world.channels[index]? = some channel →
    (channel.removals = [] ∨ channel.removals = [channel.opener]) ∧
      (channel.closings = [] ∨ channel.closings = [channel.opener])
  released : ∀ (index : Nat) channel, pool.world.channels[index]? = some channel →
    ∃ thread, pool.threads[channel.opener]? = some thread ∧
      ∀ exit, thread.process = .done exit →
        channel.removals = [channel.opener] ∧ channel.closings = [channel.opener]
  empty : (∀ (self : Nat) thread, pool.threads[self]? = some thread →
    ∃ exit, thread.process = .done exit) → ∀ key, pool.world.cacheLock key = none
  waits : ∀ (self : Nat) job index rest,
    pool.threads[self]? = some ⟨job, .act (.awaitLock index) rest⟩ →
      ∃ later, Relation.ReflTransGen (PoolStep client.shared client.body ClientJob.IsCall) pool later ∧
        later.world.isClosed index = true

theorem locks_balanced (client : Client Raw) {start : Time} {pool : ClientPool Raw}
    (reachable : client.Reachable start pool) : client.LocksBalanced pool := by
  have kept := client.locking_kept reachable
  have released : ∀ (index : Nat) channel, pool.world.channels[index]? = some channel →
      ∃ thread, pool.threads[channel.opener]? = some thread ∧
        ∀ exit, thread.process = .done exit → channel.Released := by
    intro index channel found
    obtain ⟨⟨job, process⟩, running⟩ := opener_thread found kept
    refine ⟨⟨job, process⟩, running, ?_⟩
    rintro exit rfl
    exact released_of_owns found (kept.post running)
  refine ⟨fun index channel found => ?_, released, fun ended key => ?_, fun self job index rest waiting => ?_⟩
  · rcases kept.invariant.stages index channel found with ⟨removals, closings, -⟩ | ⟨removals, closings⟩ |
      ⟨removals, closings⟩
    · exact ⟨.inl removals, .inl closings⟩
    · exact ⟨.inr removals, .inl closings⟩
    · exact ⟨.inr removals, .inr closings⟩
  · cases entry : pool.world.cacheLock key with
    | none => rfl
    | some index =>
        obtain ⟨opener, found⟩ := kept.invariant.placed key index entry
        obtain ⟨thread, running, ends⟩ := released index _ found
        obtain ⟨exit, done⟩ := ended _ thread running
        have removed := (ends exit done).1
        simp at removed
  · obtain ⟨channel, found⟩ := (kept.requires waiting).2
    obtain ⟨⟨openerJob, process⟩, running⟩ := opener_thread found kept
    exact opener_closes found process reachable running

/-- A call waits for another of the same key that has placed its entry. -/
theorem locks_balanced_waiting :
    ∃ pool rest, (answering false [sampleAddress]).Reachable 0 pool ∧
      pool.threads[1]? =
          some ⟨.exchange (sampleCall typeA .zero none), .act (.awaitLock 0) rest⟩ ∧
        (answering false [sampleAddress]).LocksBalanced pool := by
  obtain ⟨pool, reachable, waiting⟩ := (answering false [sampleAddress]).exists_reachable 0
    [.arrive (.exchange (sampleCall typeA .zero none)), .act 0 0,
      .arrive (.exchange (sampleCall typeA .zero none)), .act 1 0]
    (fun job arrives => by simp at arrives; subst arrives; trivial) (fun it => it.threads[1]?) rfl
  exact ⟨pool, _, reachable, waiting, locks_balanced _ reachable⟩

end SideraCore.Dns.Client
