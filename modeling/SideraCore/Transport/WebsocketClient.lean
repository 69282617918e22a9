import SideraCore.Concurrency.Machine

/-!
Owns what dialing makes of the configuration of the V2Ray WebSocket client. The client
dials with its own header map, unless early data goes into a header, and the dial takes the
sub-protocol out of the map it is given.
-/

namespace SideraCore.Transport

open Concurrency Function

abbrev Header := String → List String

structure UpgradeRequest where
  scheme : String
  host : String
  path : String
  headers : Header

/-- `Client`: the request that it is configured with, and a canonical name for early data. -/
structure WebsocketClient extends UpgradeRequest where
  maxEarlyData : Nat
  earlyDataHeaderName : String

/-- What `Client.dialContext` leaves of the header map, and the request if the server is
reached, with the sub-protocol among its headers. -/
def dialContext (request : UpgradeRequest) (reached : Bool) : Header × Option UpgradeRequest :=
  let key := "Sec-Websocket-Protocol"
  let protocolHeader := (request.headers key).headD ""
  if !reached then (request.headers, none)
  else if protocolHeader = "" then (request.headers, some request)
  else (update request.headers key [],
    some { request with headers := update request.headers key [protocolHeader] })

namespace WebsocketClient

variable (encodeToString : List UInt8 → String)

/-- The dial for one connection, in `DialContext` without early data and in
`EarlyWebsocketConn.writeRequest` otherwise. -/
def dial (client : WebsocketClient) (content : List UInt8) (reached : Bool) :
    WebsocketClient × Option UpgradeRequest :=
  let earlyData := content.take client.maxEarlyData
  let own (request : UpgradeRequest) : WebsocketClient × Option UpgradeRequest :=
    let (headers, sent) := dialContext request reached
    ({ client with headers }, sent)
  if earlyData = [] then own client.toUpgradeRequest
  else if client.earlyDataHeaderName = "" then
    own { client.toUpgradeRequest with path := client.path ++ encodeToString earlyData }
  else
    let headers := update client.headers client.earlyDataHeaderName [encodeToString earlyData]
    (client, (dialContext { client.toUpgradeRequest with headers } reached).2)

def machine : Machine WebsocketClient (List UInt8 × Bool) :=
  ⟨fun client connection => some (client.dial encodeToString connection.1 connection.2).1⟩

def configured (client : WebsocketClient) (content : List UInt8) : UpgradeRequest :=
  let earlyData := content.take client.maxEarlyData
  let name := client.earlyDataHeaderName
  if earlyData = [] then client.toUpgradeRequest
  else if name = "" then
    { client.toUpgradeRequest with path := client.path ++ encodeToString earlyData }
  else { client.toUpgradeRequest with
    headers := update client.headers name (client.headers name ++ [encodeToString earlyData]) }

/-- No sub-protocol is configured, and not the header for early data where it is used. -/
structure Plain (client : WebsocketClient) : Prop where
  protocol : (client.headers "Sec-Websocket-Protocol").headD "" = ""
  early : client.maxEarlyData ≠ 0 → client.earlyDataHeaderName ≠ "" →
    client.headers client.earlyDataHeaderName = []

variable {encodeToString} {client : WebsocketClient}

theorem dialContext_of_plain {request : UpgradeRequest} {reached : Bool}
    (protocol : (request.headers "Sec-Websocket-Protocol").headD "" = "") :
    dialContext request reached = (request.headers, if reached then some request else none) := by
  simp only [dialContext, protocol, if_true]
  cases reached <;> rfl

theorem Plain.dial (plain : client.Plain) (content : List UInt8) (reached : Bool) :
    client.dial encodeToString content reached =
      (client, if reached then some (client.configured encodeToString content) else none) := by
  by_cases empty : content.take client.maxEarlyData = []
  · simp only [WebsocketClient.dial, configured, if_pos empty, dialContext_of_plain plain.protocol]
  by_cases inPath : client.earlyDataHeaderName = ""
  · simp only [WebsocketClient.dial, configured, if_neg empty, if_pos inPath]
    rw [dialContext_of_plain]
    exact plain.protocol
  simp only [WebsocketClient.dial, configured, if_neg empty, if_neg inPath]
  rw [plain.early (fun zero => empty (by simp [zero])) inPath, List.nil_append]
  by_cases isProtocol : client.earlyDataHeaderName = "Sec-Websocket-Protocol"
  · -- the data is sent as a sub-protocol, unless it is encoded as nothing
    cases reached with
    | false => rfl
    | true =>
        simp only [dialContext, isProtocol, update_self, List.headD_cons, update_idem, Bool.not_true,
          Bool.false_eq_true, if_false, if_true]
        split <;> rfl
  · rw [dialContext_of_plain]
    simpa [update_of_ne (Ne.symm isProtocol)] using plain.protocol

theorem Plain.kept (plain : client.Plain) {connections : List (List UInt8 × Bool)}
    {after : WebsocketClient} (ran : (machine encodeToString).run client connections = some after) :
    after = client := by
  have kept (before : WebsocketClient) (connection : List UInt8 × Bool) (next : WebsocketClient)
      (stepped : (machine encodeToString).step before connection = some next) (_ : True)
      (same : before = client) : next = client := by
    cases stepped
    rw [same, plain.dial]
  exact Machine.run_invariant kept ran (Machine.meets_of_forall fun _ _ => trivial) rfl

theorem dial_takes_protocol (protocol : (client.headers "Sec-Websocket-Protocol").headD "" ≠ "") :
    (client.dial encodeToString [] true).1 ≠ client := by
  intro same
  have taken : (client.dial encodeToString [] true).1.headers "Sec-Websocket-Protocol" = [] := by
    simp only [WebsocketClient.dial, List.take_nil, if_true, dialContext, if_neg protocol, Bool.not_true,
      Bool.false_eq_true, if_false, update_self]
  rw [same] at taken
  exact protocol (by rw [taken]; rfl)

theorem dial_replaces_header {content : List UInt8} (early : content.take client.maxEarlyData ≠ [])
    (named : client.earlyDataHeaderName ≠ "") : ∃ request,
      (client.dial encodeToString content true).2 = some request ∧
        request.headers client.earlyDataHeaderName =
          [encodeToString (content.take client.maxEarlyData)] := by
  simp only [WebsocketClient.dial, if_neg early, if_neg named, dialContext, Bool.not_true,
    Bool.false_eq_true, if_false]
  split
  · exact ⟨_, rfl, update_self ..⟩
  · refine ⟨_, rfl, ?_⟩
    by_cases isProtocol : client.earlyDataHeaderName = "Sec-Websocket-Protocol"
    · simp [isProtocol]
    · simp [update_of_ne isProtocol]

/-- **Dialing leaves exactly a plain configuration unchanged**, with every request as
configured. -/
theorem dial_unchanged (encodeToString : List UInt8 → String) (client : WebsocketClient) :
    client.Plain ↔ ∀ connections after, (machine encodeToString).run client connections = some after →
      after = client ∧ ∀ content reached request,
        (after.dial encodeToString content reached).2 = some request →
          request = client.configured encodeToString content := by
  constructor
  · intro plain connections after ran
    have same := plain.kept ran
    refine ⟨same, fun content reached request sent => ?_⟩
    rw [same, plain.dial] at sent
    exact (Option.some.inj (Option.ite_none_right_eq_some.1 sent).2).symm
  · intro unchanged
    constructor
    · by_contra protocol
      exact dial_takes_protocol protocol (unchanged [([], true)] _ rfl).1
    · intro limit named
      obtain ⟨request, sent, replaced⟩ := @dial_replaces_header encodeToString client [0]
        (by simp [limit]) named
      have asConfigured := (unchanged [] client rfl).2 [0] true request sent
      rw [asConfigured, configured, if_neg (by simp [limit]), if_neg named] at replaced
      simpa using replaced

/-- Early data in a header, next to the user agent: two connections leave the client as it is,
and a third is dialed as configured. -/
theorem dial_unchanged_early :
    let client : WebsocketClient :=
      ⟨⟨"ws", "host", "/", fun key => if key = "User-Agent" then ["Go-http-client/1.1"] else []⟩, 4,
        "Early"⟩
    let first := (client.dial (fun _ => "data") [1] true).1
    let second := (first.dial (fun _ => "data") [] false).1
    second = client ∧ ∀ request, (second.dial (fun _ => "data") [2] true).2 = some request →
      request = client.configured (fun _ => "data") [2] := by
  intro client first second
  obtain ⟨same, asConfigured⟩ := (dial_unchanged (fun _ => "data") client).1 ⟨rfl, fun _ _ => rfl⟩
    [([1], true), ([], false)] second rfl
  exact ⟨same, asConfigured [2] true⟩

/-- The second connection asks for no sub-protocol. -/
theorem protocol_lost :
    let client : WebsocketClient :=
      ⟨⟨"ws", "host", "/", fun key => if key = "Sec-Websocket-Protocol" then ["chat"] else []⟩, 0, ""⟩
    let first := client.dial (fun _ => "") [] true
    let second := first.1.dial (fun _ => "") [] true
    first.2.map (·.headers "Sec-Websocket-Protocol") = some ["chat"] ∧
      second.2.map (·.headers "Sec-Websocket-Protocol") = some [] := by
  decide

end WebsocketClient

end SideraCore.Transport
