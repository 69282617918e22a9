import SideraCore.Dns.Client.Exchange

/-!
Owns which parts of the client's threads keep to themselves: they load and store
responses, ask transports and record rejections, and touch neither the locks nor
the flags of background refreshes.
-/

namespace SideraCore.Dns.Client

open Concurrency Experimental

variable {Raw : Type} {client : Client Raw}

def Local : ClientAction Raw → Prop
  | .loadOrStoreLock _ => False
  | .awaitLock _ => False
  | .deleteLock _ => False
  | .closeLock _ => False
  | .startRefresh _ => False
  | .endRefresh _ => False
  | .goExchange _ => False
  | .startGroup .. => False
  | .awaitGroup _ => False
  | _ => True

theorem servePersistent_local (isStored : Bool) (found : Raw × Time) :
    (client.servePersistent isStored found).Every Local := by
  unfold servePersistent
  split
  · trivial
  · split
    · trivial
    · exact ⟨trivial, fun _ => trivial⟩

theorem serveMemory_local (key : DnsCacheKey) (entry : MemoryEntry) :
    (client.serveMemory key entry).Every Local := by
  unfold serveMemory
  split
  · trivial
  · refine ⟨trivial, fun timeNow => ?_⟩
    simp only [Process.bind]
    split
    · trivial
    · exact ⟨trivial, fun _ => trivial⟩

theorem loadResponse_local (key : DnsCacheKey) : (client.loadResponse key).Every Local := by
  unfold loadResponse
  split
  · refine ⟨trivial, fun waiting => ?_⟩
    cases waiting with
    | some found => exact servePersistent_local false found
    | none =>
        refine ⟨trivial, fun stored => ?_⟩
        cases stored with
        | some found => exact servePersistent_local true found
        | none => trivial
  · split
    · trivial
    · refine ⟨trivial, fun entered => ?_⟩
      cases entered with
      | some entry => exact serveMemory_local key entry
      | none => trivial

theorem storeCache_local (key : DnsCacheKey) (message : Msg) (timeToLive : UInt32) :
    (client.storeCache key message timeToLive).Every Local := by
  unfold storeCache
  split
  · trivial
  · split
    · split
      · trivial
      · exact ⟨trivial, fun _ => ⟨trivial, fun _ => trivial⟩⟩
    · split
      · trivial
      · exact ⟨trivial, fun _ => trivial⟩

theorem exchangeToTransport_local (transport : DNSTransport) (message : Msg) :
    (exchangeToTransport transport message : ClientProcess Raw (Option Msg)).Every Local := by
  refine ⟨trivial, fun outcome => ?_⟩
  cases outcome <;> trivial

theorem finishExchange_local (transport : DNSTransport) (operation : ExchangeOperation)
    (response : Msg) : (client.finishExchange transport operation response).Every Local := by
  unfold finishExchange
  dsimp only
  split
  · split
    · exact ⟨trivial, fun _ => trivial⟩
    · trivial
  · split
    · exact (storeCache_local _ _ _).bind fun _ => trivial
    · trivial

theorem refreshResponse_local (query : Query) : (client.refreshResponse query).Every Local := by
  refine (exchangeToTransport_local _ _).bind fun response => ?_
  cases response with
  | none => trivial
  | some response =>
      dsimp only
      split
      · split
        · exact ⟨trivial, fun _ => trivial⟩
        · trivial
      · split
        · trivial
        · exact storeCache_local _ _ _

end SideraCore.Dns.Client
