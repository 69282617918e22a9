import Mathlib.Logic.Function.Basic

/-!
Owns the end of a connection: what the exits of `NewConnection` and `NewPacketConnection`,
the early write handshakes and the copies close, and how often they call the handler.

A run is given by the direction whose copy swaps the flag first, and has this copy end before
the other one. That the copies end alike in every order of their steps is proved last.
-/

namespace SideraCore.Route.CloseHandler

structure Connections where
  opened : Bool
  inboundClosed : Bool
  remoteClosed : Bool
  done : Bool
  calls : Nat

namespace Connections

def accepted : Connections := ⟨false, false, false, false, 0⟩

def dialed : Connections := { accepted with opened := true }

variable (it : Connections)

def onClose : Connections := { it with calls := it.calls + 1 }

def close : Connections := { it with inboundClosed := true, remoteClosed := true }

def closeOnHandshakeFailure : Connections := { it with inboundClosed := true }.onClose

/-- The handler was called exactly once and nothing is left open. -/
def Ended : Prop :=
  it.calls = 1 ∧ it.inboundClosed = true ∧ (it.opened = true → it.remoteClosed = true)

end Connections

/-- With an error, by closing the write side of a duplex destination, or by closing
another. -/
inductive CopyEnd where
  | failed
  | closeWrite (fails : Bool)
  | close

/-- What a copy closes at its end, before it swaps the flag. -/
def CopyEnd.closes (direction : Bool) (it : Connections) : CopyEnd → Connections
  | .failed | .closeWrite true => it.close
  | .closeWrite false => it
  | .close => if direction then { it with inboundClosed := true } else { it with remoteClosed := true }

def connectionCopy (direction : Bool) (copyEnd : CopyEnd) (it : Connections) : Connections :=
  let copied := copyEnd.closes direction it
  if copied.done then copied.onClose.close else { copied with done := true }

def packetConnectionCopy (it : Connections) : Connections :=
  (if it.done then it else { it with done := true }.onClose).close

/-- An early write handshake; `excused` says of an error whether it is a timeout or the
like. -/
structure Handshake where
  needed : Bool
  cached : Bool
  excused : Option Bool

def kickWriteHandshake (serverFirst : Bool) (handshake : Handshake) (it : Connections) :
    Option Connections :=
  let wrotePayload := !serverFirst && handshake.cached
  match handshake.needed, handshake.excused with
  | true, some excused =>
      if !wrotePayload && excused then none
      else some (if it.done then it else { it with done := true }.onClose).close
  | _, _ => none

/-- What happens to a connection: `spoofs` holds also where no TLS spoofing is asked
for, `firstSwap` is the copy that swaps first. -/
structure Outcomes where
  dials : Bool
  reports : Bool
  spoofs : Bool
  serverFirst : Bool
  handshake : Bool → Handshake
  firstSwap : Bool
  copyEnd : Bool → CopyEnd

open Connections

def newConnection (outcomes : Outcomes) : Connections :=
  let kick direction := kickWriteHandshake outcomes.serverFirst (outcomes.handshake direction) dialed
  let copy direction := connectionCopy direction (outcomes.copyEnd direction)
  if !outcomes.dials then accepted.closeOnHandshakeFailure
  else if !outcomes.reports || !outcomes.spoofs then
    { dialed with remoteClosed := true }.closeOnHandshakeFailure
  else ((kick false).or (kick true)).getD (copy (!outcomes.firstSwap) (copy outcomes.firstSwap dialed))

def newPacketConnection (outcomes : Outcomes) : Connections :=
  if !outcomes.dials then accepted.closeOnHandshakeFailure
  else if !outcomes.reports then dialed.close
  else packetConnectionCopy (packetConnectionCopy dialed)

/-- A connection given to the connection manager or to the DNS outbound. -/
inductive Request where
  | stream (outcomes : Outcomes)
  | packet (outcomes : Outcomes)
  | dnsStream
  | dnsPacket

namespace Request

/-- The DNS outbound serves a stream until a request fails, and packets without a handler. -/
def run : Request → Connections
  | stream outcomes => newConnection outcomes
  | packet outcomes => newPacketConnection outcomes
  | dnsStream => { accepted with inboundClosed := true }.onClose
  | dnsPacket => { accepted with inboundClosed := true }

def HandsOn : Request → Prop
  | packet outcomes => outcomes.dials = true → outcomes.reports = true
  | dnsPacket => False
  | _ => True

end Request

theorem connectionCopy_first (direction : Bool) (copyEnd : CopyEnd) :
    (connectionCopy direction copyEnd dialed).done = true ∧
      (connectionCopy direction copyEnd dialed).calls = 0 := by
  rcases copyEnd with _ | ⟨_ | _⟩ | _ <;> cases direction <;> exact ⟨rfl, rfl⟩

theorem connectionCopy_second {it : Connections} (direction : Bool) (copyEnd : CopyEnd)
    (done : it.done = true) (uncalled : it.calls = 0) : (connectionCopy direction copyEnd it).Ended := by
  obtain ⟨opened, inboundClosed, remoteClosed, _, _⟩ := it
  cases done
  cases uncalled
  rcases copyEnd with _ | ⟨_ | _⟩ | _ <;> cases direction <;> exact ⟨rfl, rfl, fun _ => rfl⟩

theorem kickWriteHandshake_ended {serverFirst : Bool} {handshake : Handshake} {it : Connections}
    (kicked : kickWriteHandshake serverFirst handshake dialed = some it) : it.Ended := by
  unfold kickWriteHandshake at kicked
  dsimp only at kicked
  split at kicked
  · split at kicked
    · cases kicked
    · cases kicked
      exact ⟨rfl, rfl, fun _ => rfl⟩
  · cases kicked

theorem newConnection_ended (outcomes : Outcomes) : (newConnection outcomes).Ended := by
  unfold newConnection
  dsimp only
  split
  · exact ⟨rfl, rfl, Bool.noConfusion⟩
  · split
    · exact ⟨rfl, rfl, fun _ => rfl⟩
    · cases kicked : (kickWriteHandshake outcomes.serverFirst (outcomes.handshake false) dialed).or
          (kickWriteHandshake outcomes.serverFirst (outcomes.handshake true) dialed) with
      | some ended =>
          rcases Option.or_eq_some_iff.1 kicked with upload | ⟨-, download⟩
          · exact kickWriteHandshake_ended upload
          · exact kickWriteHandshake_ended download
      | none =>
          obtain ⟨done, uncalled⟩ := connectionCopy_first outcomes.firstSwap
            (outcomes.copyEnd outcomes.firstSwap)
          exact connectionCopy_second _ _ done uncalled

/-- **A close handler runs exactly once**, and both connections are closed, unless the
report of a packet connection's handshake fails or the DNS outbound is given packets. -/
theorem handler_once_iff (request : Request) : request.run.Ended ↔ request.HandsOn := by
  cases request with
  | stream outcomes => exact iff_of_true (newConnection_ended outcomes) trivial
  | packet outcomes =>
      obtain ⟨dials, reports, _⟩ := outcomes
      cases dials <;> cases reports <;>
        simp [Request.run, Request.HandsOn, newPacketConnection, packetConnectionCopy, Ended, accepted,
          dialed, closeOnHandshakeFailure, onClose, close]
  | dnsStream => exact iff_of_true ⟨rfl, rfl, Bool.noConfusion⟩ trivial
  | dnsPacket => exact iff_of_false (fun ended => absurd ended.1 Nat.zero_ne_one) id

/-- A packet connection whose handshake report fails: its handler is never called. -/
theorem unreported_packets_uncalled :
    ¬(Request.packet ⟨true, false, true, false, fun _ => ⟨false, false, none⟩, false,
      fun _ => .failed⟩).run.Ended := by
  rintro ⟨uncalled, -⟩
  cases uncalled

/-- How many steps each copy has taken, and whether it found the flag swapped. -/
structure Copies where
  connections : Connections
  taken : Bool → Nat
  second : Bool → Bool

/-- What a copy closes at its end, the swap of the flag, and the rest. A stream's
handler is called by the copy that swaps last, that of packets by the first. -/
def Copies.step (stream : Bool) (atEnd : Bool → Connections → Connections) (copies : Copies)
    (direction : Bool) : Copies :=
  let it := copies.connections
  let next := { copies with
    taken := Function.update copies.taken direction (copies.taken direction + 1) }
  let called := if copies.second direction = stream then it.onClose.close else it.close
  match copies.taken direction with
  | 0 => { next with connections := atEnd direction it }
  | 1 => { next with
      connections := { it with done := true }
      second := Function.update copies.second direction it.done }
  | _ => { next with connections := if stream && !copies.second direction then it else called }

def orders : Nat → List (List Bool)
  | 0 => [[]]
  | steps + 1 => (orders steps).map (false :: ·) ++ (orders steps).map (true :: ·)

def CopyEnd.all : List CopyEnd := [.failed, .closeWrite true, .closeWrite false, .close]

instance (it : Connections) : Decidable it.Ended := inferInstanceAs (Decidable (_ ∧ _))

/-- **However the steps of two copies are interleaved**, they end as one after the other. -/
theorem interleaved_copies_ended :
    ∀ order ∈ orders 6, order.count true = 3 →
      (∀ upload ∈ CopyEnd.all, ∀ download ∈ CopyEnd.all,
        (order.foldl (Copies.step true fun direction it => (if direction then download else upload).closes direction it)
          ⟨dialed, fun _ => 0, fun _ => false⟩).connections.Ended) ∧
      (order.foldl (Copies.step false fun _ => id) ⟨dialed, fun _ => 0, fun _ => false⟩).connections.Ended := by
  decide +kernel

end SideraCore.Route.CloseHandler
