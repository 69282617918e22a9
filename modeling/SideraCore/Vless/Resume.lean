import SideraCore.Concurrency.Machine

/-!
Owns the sessions of a server that accepts 0-RTT (`ServerInstance.resume`): their
creation at the end of a handshake, their expiry by the minute, and the handshakes that
resume them.

A handshake looks its session up under the lock of the server and notes its key in the
session after that lock is released. A removal between the two
steps lets a removed ticket through.
-/

namespace SideraCore.Vless

open Concurrency Function

abbrev Ticket := BitVec 128

abbrev NfsKey := BitVec 256

structure Resuming where
  ticket : Ticket
  nfsKey : NfsKey
  session : Nat
deriving DecidableEq, Repr

/-- What has happened to tickets. -/
inductive Entry where
  | accepted (ticket : Ticket) (nfsKey : NfsKey)
  | removed (ticket : Ticket)
deriving DecidableEq, Repr

/-- A session is a pointer: its place among all that were made, of which `made` has the
tickets and `nfsKeys` the keys. The lifetime is the longer of `SecondsFrom` and
`SecondsTo`; the log has the newest entry first. -/
structure ServerInstance where
  lifetime : Nat
  lasts : Nat → Option Ticket
  tickets : List Ticket
  sessions : Ticket → Option Nat
  made : List Ticket
  nfsKeys : Nat → List NfsKey
  resuming : List Resuming
  log : List Entry

/-- The steps of handshakes and of `expireSessions`, in any order. Times are in seconds. -/
inductive ServerEvent where
  /-- A handshake that has agreed on keys makes a session. -/
  | create (ticket : Ticket) (now : Nat)
  /-- The ticker of `expireSessions`. -/
  | expire (now : Nat)
  /-- `resume`, up to the lookup. -/
  | lookup (ticket : Ticket) (nfsKey : NfsKey)
  /-- The rest of `resume`, and whether it can read random bytes. -/
  | store (index : Nat) (random : Bool)
deriving DecidableEq, Repr

namespace ServerInstance

/-- The tickets up to the last one of a minute: all, if it is not among them. -/
def expired (server : ServerInstance) (last : Ticket) : List Ticket :=
  server.tickets.take (server.tickets.idxOf last + 1)

/-- The last ticket that is to expire. The zero ticket counts as none. -/
def lastAt (server : ServerInstance) (now : Nat) : Option Ticket :=
  (server.lasts (now / 60)).filter (· ≠ 0)

def gone (server : ServerInstance) (now : Nat) : List Ticket :=
  match server.lastAt now with
  | none => []
  | some last => server.expired last

/-- What an expiry logs: the removals of tickets that have a session. -/
def removals (server : ServerInstance) (now : Nat) : List Entry :=
  ((server.gone now).filter fun ticket => (server.sessions ticket).isSome).map .removed

def step (server : ServerInstance) : ServerEvent → Option ServerInstance
  | .create ticket now => some { server with
      lasts := update server.lasts ((now + server.lifetime) / 60 + 2) ticket
      tickets := server.tickets ++ [ticket]
      sessions := update server.sessions ticket server.made.length
      made := server.made ++ [ticket]
      nfsKeys := update server.nfsKeys server.made.length [] }
  | .expire now =>
      let gone := server.gone now
      some { server with
        lasts := fun minute =>
          if minute = now / 60 ∨ minute = now / 60 - 1 then none else server.lasts minute
        tickets := if (server.lastAt now).any (· ∈ server.tickets) then server.tickets.drop gone.length
          else server.tickets
        sessions := fun ticket => if ticket ∈ gone then none else server.sessions ticket
        log := server.removals now ++ server.log }
  | .lookup ticket nfsKey => some { server with
      resuming := server.resuming ++
        ((server.sessions ticket).map fun session => ⟨ticket, nfsKey, session⟩).toList }
  | .store index random =>
      (server.resuming[index]?).map fun ⟨ticket, nfsKey, session⟩ =>
        let ended := { server with resuming := server.resuming.eraseIdx index }
        -- `LoadOrStore`
        if nfsKey ∈ server.nfsKeys session then ended
        else { ended with
          nfsKeys := update server.nfsKeys session (nfsKey :: server.nfsKeys session)
          log := if random then .accepted ticket nfsKey :: server.log else server.log }

def machine : Machine ServerInstance ServerEvent := ⟨step⟩

def init (secondsFrom secondsTo : Nat) : ServerInstance :=
  ⟨max secondsFrom secondsTo, fun _ => none, [], fun _ => none, [], fun _ => [], [], []⟩

/-- No ticket is accepted with a key it was accepted with before, or after it was removed. -/
def AcceptsOnce (server : ServerInstance) : Prop :=
  server.log.Pairwise fun later earlier => ∀ ticket nfsKey, later = .accepted ticket nfsKey →
    earlier ≠ .accepted ticket nfsKey ∧ earlier ≠ .removed ticket

/-- A new ticket differs from all before it, and no session is removed that a handshake
has looked up and not yet noted its key in. -/
def Careful (server : ServerInstance) : ServerEvent → Prop
  | .create ticket _ => ticket ∉ server.made
  | .expire now => ∀ handshake ∈ server.resuming, handshake.ticket ∉ server.gone now
  | _ => True

instance (server : ServerInstance) : ∀ event, Decidable (server.Careful event)
  | .create ticket _ => inferInstanceAs (Decidable (ticket ∉ server.made))
  | .expire now =>
      inferInstanceAs (Decidable (∀ handshake ∈ server.resuming, handshake.ticket ∉ server.gone now))
  | .lookup _ _ => isTrue trivial
  | .store _ _ => isTrue trivial

structure Sound (server : ServerInstance) : Prop where
  distinct : server.made.Nodup
  session : ∀ ticket session, server.sessions ticket = some session → server.made[session]? = some ticket
  resuming : ∀ handshake ∈ server.resuming, server.sessions handshake.ticket = some handshake.session
  accepted : ∀ ticket nfsKey, .accepted ticket nfsKey ∈ server.log →
    ∃ session, server.made[session]? = some ticket ∧ nfsKey ∈ server.nfsKeys session
  removed : ∀ ticket, .removed ticket ∈ server.log → ticket ∈ server.made ∧ server.sessions ticket = none
  once : server.AcceptsOnce

variable {server after : ServerInstance} {ticket : Ticket} {nfsKey : NfsKey} {now : Nat}

section

variable (sound : server.Sound)
include sound

theorem Sound.ticket_mem {session : Nat}
    (found : server.sessions ticket = some session) : ticket ∈ server.made :=
  List.mem_of_getElem? (sound.session ticket session found)

theorem Sound.create (careful : server.Careful (.create ticket now))
    (stepped : server.step (.create ticket now) = some after) : after.Sound := by
  cases stepped
  have other (old : Ticket) (drawn : old ∈ server.made) :
      update server.sessions ticket (some server.made.length) old = server.sessions old :=
    update_of_ne (ne_of_mem_of_not_mem drawn careful) _ _
  have place {session : Nat} {old : Ticket} (made : server.made[session]? = some old) :
      session < server.made.length ∧ (server.made ++ [ticket])[session]? = some old := by
    have below := (List.getElem?_eq_some_iff.1 made).1
    exact ⟨below, (List.getElem?_append_left below).trans made⟩
  refine ⟨List.nodup_append.2 ⟨sound.distinct, List.nodup_singleton _, ?_⟩, ?_, ?_, ?_, ?_, sound.once⟩
  · intro old drawn new isNew
    rw [List.mem_singleton.1 isNew]
    exact ne_of_mem_of_not_mem drawn careful
  · intro known session found
    dsimp only at found ⊢
    by_cases same : known = ticket
    · rw [same, update_self, Option.some.injEq] at found
      rw [same, ← found, List.getElem?_concat_length]
    · rw [update_of_ne same] at found
      exact (place (sound.session known session found)).2
  · intro handshake member
    have found := sound.resuming handshake member
    exact (other _ (sound.ticket_mem found)).trans found
  · intro known key member
    obtain ⟨session, made, noted⟩ := sound.accepted known key member
    obtain ⟨below, still⟩ := place made
    refine ⟨session, still, ?_⟩
    dsimp only
    rwa [update_of_ne below.ne]
  · intro known member
    obtain ⟨drawn, absent⟩ := sound.removed known member
    exact ⟨List.mem_append_left _ drawn, (other known drawn).trans absent⟩

theorem Sound.expire (careful : server.Careful (.expire now))
    (stepped : server.step (.expire now) = some after) : after.Sound := by
  cases stepped
  have vacuous {entry : Entry} (new : entry ∈ server.removals now) (ticket : Ticket) (key : NfsKey) :
      entry ≠ .accepted ticket key := by
    obtain ⟨_, -, rfl⟩ := List.mem_map.1 new
    exact Entry.noConfusion
  refine ⟨sound.distinct, ?_, ?_, ?_, ?_, List.pairwise_append.2 ⟨?_, sound.once, ?_⟩⟩
  · intro ticket session found
    exact sound.session ticket session (Option.ite_none_left_eq_some.1 found).2
  · intro handshake member
    exact (if_neg (careful handshake member)).trans (sound.resuming handshake member)
  · intro ticket key member
    exact sound.accepted ticket key
      ((List.mem_append.1 member).resolve_left fun new => vacuous new ticket key rfl)
  · intro ticket member
    rcases List.mem_append.1 member with new | old
    · obtain ⟨_, found, same⟩ := List.mem_map.1 new
      cases same
      obtain ⟨isGone, live⟩ := List.mem_filter.1 found
      obtain ⟨session, present⟩ := Option.isSome_iff_exists.1 live
      exact ⟨sound.ticket_mem present, if_pos isGone⟩
    · obtain ⟨drawn, absent⟩ := sound.removed ticket old
      exact ⟨drawn, by simp only [absent, ite_self]⟩
  · exact List.Pairwise.imp_of_mem (fun new _ _ ticket key same => absurd same (vacuous new ticket key))
      (List.pairwise_of_forall fun _ _ => trivial)
  · exact fun entry new _ _ ticket key same => absurd same (vacuous new ticket key)

theorem Sound.lookup (stepped : server.step (.lookup ticket nfsKey) = some after) :
    after.Sound := by
  cases stepped
  refine ⟨sound.distinct, sound.session, ?_, sound.accepted, sound.removed, sound.once⟩
  intro handshake member
  rcases List.mem_append.1 member with earlier | new
  · exact sound.resuming handshake earlier
  · obtain ⟨session, found, rfl⟩ := Option.map_eq_some_iff.1 (Option.mem_toList.1 new)
    exact found

theorem Sound.store {index : Nat} {random : Bool}
    (stepped : server.step (.store index random) = some after) : after.Sound := by
  obtain ⟨⟨ticket, nfsKey, session⟩, waiting, stored⟩ := Option.map_eq_some_iff.1 stepped
  have found : server.sessions ticket = some session := sound.resuming _ (List.mem_of_getElem? waiting)
  have made := sound.session _ _ found
  have resuming (handshake : Resuming) (member : handshake ∈ server.resuming.eraseIdx index) :=
    sound.resuming handshake (List.mem_of_mem_eraseIdx member)
  dsimp only at stored
  split at stored
  · cases stored
    exact ⟨sound.distinct, sound.session, resuming, sound.accepted, sound.removed, sound.once⟩
  case isFalse new =>
    cases stored
    have kept (key : NfsKey) (place : Nat) (noted : key ∈ server.nfsKeys place) : key ∈
        update server.nfsKeys session (nfsKey :: server.nfsKeys session) place := by
      by_cases same : place = session
      · rw [same, update_self]
        exact List.mem_cons_of_mem _ (same ▸ noted)
      · rwa [update_of_ne same]
    have accepted (known : Ticket) (key : NfsKey) (member : .accepted known key ∈ server.log) :=
      (sound.accepted known key member).imp fun place => And.imp_right (kept key place)
    cases random with
    | false => exact ⟨sound.distinct, sound.session, resuming, accepted, sound.removed, sound.once⟩
    | true =>
        refine ⟨sound.distinct, sound.session, resuming, ?_, ?_, List.pairwise_cons.2 ⟨?_, sound.once⟩⟩
        · intro known key member
          rcases List.mem_cons.1 member with same | earlier
          · cases same
            exact ⟨session, made, by simp⟩
          · exact accepted known key earlier
        · intro known member
          exact sound.removed known ((List.mem_cons.1 member).resolve_left Entry.noConfusion)
        · rintro entry earlier known key same
          cases same
          constructor
          · rintro rfl
            obtain ⟨place, madeThere, noted⟩ := sound.accepted _ _ earlier
            have below := (List.getElem?_eq_some_iff.1 made).1
            rw [(List.getElem?_inj below sound.distinct).1 (made.trans madeThere.symm)] at new
            exact new noted
          · rintro rfl
            rw [(sound.removed _ earlier).2] at found
            cases found

end

theorem Sound.step {event : ServerEvent} (stepped : server.step event = some after)
    (careful : server.Careful event) (sound : server.Sound) : after.Sound := by
  cases event with
  | create ticket now => exact sound.create careful stepped
  | expire now => exact sound.expire careful stepped
  | lookup ticket nfsKey => exact sound.lookup stepped
  | store index random => exact sound.store stepped

/-- In every run of careful steps, each ticket is accepted at most once with a key, and
not after it was removed. -/
theorem resumes_once {secondsFrom secondsTo : Nat} {events : List ServerEvent}
    (ran : machine.run (init secondsFrom secondsTo) events = some server)
    (careful : machine.Meets Careful (init secondsFrom secondsTo) events) : server.AcceptsOnce := by
  have initially : (init secondsFrom secondsTo).Sound := by
    refine ⟨List.nodup_nil, ?_, ?_, ?_, ?_, List.Pairwise.nil⟩ <;> simp [init]
  exact (machine.run_invariant (fun _ _ _ => Sound.step) ran careful initially).once

/-- A replay while the session is there. -/
theorem resumes_once_replayed :
    ∃ server, machine.run (init 60 0)
        [.create 5 0, .lookup 5 9, .store 0 true, .lookup 5 9, .store 0 true, .expire 180] = some server ∧
      server.log = [.removed 5, .accepted 5 9] ∧ server.AcceptsOnce := by
  exact ⟨_, rfl, rfl, @resumes_once _ 60 0 [.create 5 0, .lookup 5 9, .store 0 true, .lookup 5 9,
    .store 0 true, .expire 180] rfl (by decide)⟩

/-- The session is removed after the lookup, and the handshake is accepted. -/
theorem resumed_after_removal :
    ∃ server, machine.run (init 60 0) [.create 5 0, .lookup 5 9, .expire 180, .store 0 true] = some server ∧
      ¬server.AcceptsOnce := by
  refine ⟨_, rfl, fun once => ?_⟩
  have ordered := List.pairwise_cons.1 (show List.Pairwise _ [Entry.accepted 5 9, .removed 5] from once)
  exact (ordered.1 (.removed 5) List.mem_cons_self 5 9 rfl).2 rfl

end ServerInstance

end SideraCore.Vless
