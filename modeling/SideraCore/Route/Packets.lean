import SideraCore.Route.Stream

/-!
Owns sniffing on a packet connection: the sniff action, which re-examines the
packets already read and may read more, the merging of its result into the
packets held by `matchRule`, and what `routePacketConnection` hands on.

A cached packet connection returns its packet before the connection below it and
releases the buffer then. A packet buffer is known by the position of its packet among
those read; `N.PutPacketBuffer` empties it as it puts it into its pool.
-/

namespace SideraCore.Route

open Rule Concurrency Router

structure Packet where
  data : List UInt8
  destination : Socksaddr
deriving DecidableEq, Repr

/-- A read during sniffing ends with a packet, the read timeout, another error, or the
end of the context. -/
inductive PacketEvent where
  | packet (packet : Packet)
  | timeout
  | failure (error : String)
  | cancelled
deriving DecidableEq, Repr

def packetsOf (conn : List PacketEvent) : List Packet :=
  conn.filterMap fun
    | .packet packet => some packet
    | _ => none

structure PacketBuffer where
  index : Nat
  packet : Packet
deriving DecidableEq, Repr

/-- The connection below, the packets read from it, and the buffers `matchRule`
holds. -/
structure PacketState where
  conn : List PacketEvent
  arrived : List Packet
  buffers : List PacketBuffer
deriving DecidableEq, Repr

def quicMoreData (action : RuleActionSniff) (metadata : RouteContext) : Bool :=
  metadata.snifferNames = action.snifferNames && metadata.sniffError = some .needMoreData

def Router.packetSniffers (router : Router) (action : RuleActionSniff) : List Sniffer :=
  if action.packetSniffers.isEmpty then router.defaultPacketSniffers else action.packetSniffers

def Router.examine (router : Router) (action : RuleActionSniff) (metadata : RouteContext)
    (bytes : List UInt8) : RouteContext × Option SniffError :=
  let sniffers := if quicMoreData action metadata then [router.quicClientHello]
    else router.packetSniffers action
  let (sniffed, error) := peek sniffers metadata bytes
  (sniffed.sniffed action.snifferNames error, error)

/-- The loop over the packets already read; no verdict if every packet needs more data. -/
def Router.reexamine (router : Router) (action : RuleActionSniff) :
    RouteContext → List PacketBuffer → RouteContext × Option (Option SniffError)
  | metadata, [] => (metadata, none)
  | metadata, buffer :: rest =>
      match router.examine action metadata buffer.packet.data with
      | (sniffed, some .needMoreData) => router.reexamine action sniffed rest
      | (sniffed, error) => (sniffed, some error)

structure ReadOutcome where
  fatal : Option String
  metadata : RouteContext
  error : Option SniffError
  conn : List PacketEvent
  arrived : List Packet
  buffers : List PacketBuffer

/-- The read loop: it goes on while packets arrive and need more data. Without further
events it runs into the timeout. -/
def Router.readPackets (router : Router) (action : RuleActionSniff) :
    RouteContext → List Packet → List PacketBuffer → List PacketEvent → ReadOutcome
  | metadata, arrived, buffers, [] => ⟨none, metadata, some .other, [], arrived, buffers⟩
  | metadata, arrived, buffers, .timeout :: rest =>
      ⟨none, metadata, some .other, rest, arrived, buffers⟩
  | metadata, arrived, buffers, .failure problem :: rest =>
      ⟨some problem, metadata, some .other, rest, arrived, buffers⟩
  | metadata, arrived, buffers, .cancelled :: rest =>
      ⟨some "context canceled", metadata, some .other, rest, arrived, buffers⟩
  | metadata, arrived, buffers, .packet packet :: rest =>
      let grown := buffers ++ [⟨arrived.length, packet⟩]
      match router.examine action metadata packet.data with
      | (sniffed, some .needMoreData) =>
          router.readPackets action sniffed (arrived ++ [packet]) grown rest
      | (sniffed, error) => ⟨none, sniffed, error, rest, arrived ++ [packet], grown⟩

def packetSniffSkipped (action : RuleActionSniff) (metadata : RouteContext) : Bool :=
  sniffSkip metadata || metadata.protocol ≠ "" ||
    (action.packetSniffers.isEmpty && !action.streamSniffers.isEmpty) || sniffSettled action metadata

/-- `actionSniff` on packets. A read starts from the buffers already held, and
`matchRule` appends its whole result to them. -/
def Router.actionSniffPacket (router : Router) : SniffOn PacketState :=
  fun action metadata io =>
    if packetSniffSkipped action metadata then (none, metadata, io)
    else
      match router.reexamine action metadata io.buffers with
      | (sniffed, some error) => (none, router.settleSniff action sniffed error, io)
      | (sniffed, none) =>
          let read := router.readPackets action sniffed io.arrived io.buffers io.conn
          (read.fatal, router.settleSniff action read.metadata read.error,
            ⟨read.conn, read.arrived,
              if read.buffers.isEmpty then io.buffers else io.buffers ++ read.buffers⟩)

/-- The packets handed on in the order they are read, and the indices of the released
buffers. An emptied packet buffer that is used as a full one ends in a panic. -/
inductive PacketOutcome where
  | refused (error : String) (released : List Nat)
  | connected (delivered : List PacketBuffer) (released : List Nat)
  | hijacked (delivered : List PacketBuffer) (released : List Nat)
  | panicked (released : List Nat)
deriving DecidableEq, Repr

def cachedPacketConn (below : List PacketBuffer) (buffer : PacketBuffer) : List PacketBuffer :=
  buffer :: below

def PacketBuffer.isIn (buffer : PacketBuffer) (buffers : List PacketBuffer) : Bool :=
  buffers.any fun other => other.index = buffer.index

/-- `N.ReleaseMultiPacketBuffer`; a buffer that comes again has nothing left to release. -/
def releaseMulti (buffers : List PacketBuffer) : List Nat :=
  (buffers.map PacketBuffer.index).eraseDups

/-- One wrapper for each buffer, in their order. Each is put into its pool as soon as it
is wrapped. -/
def connect : List PacketBuffer → List PacketBuffer → PacketOutcome
  | wrapped, [] => .connected wrapped (releaseMulti wrapped)
  | wrapped, buffer :: rest =>
      if buffer.isIn wrapped then .panicked [] else connect (cachedPacketConn wrapped buffer) rest

/-- The loop of `NewDNSPacketConnection`. A packet that does not unpack ends it after
its buffer is released. A buffer that comes again has no data left; with a read waiter,
its packet buffer is in the pool as well. -/
def serveCached (unpacks : List UInt8 → Bool) (readWaiter : Bool) :
    List PacketBuffer → List PacketBuffer → PacketOutcome
  | served, [] => .hijacked served (releaseMulti served)
  | served, buffer :: rest =>
      if buffer.isIn served && readWaiter then .panicked (releaseMulti served)
      else
        let data := if buffer.isIn served then [] else buffer.packet.data
        let more := served ++ [{ buffer with packet := { buffer.packet with data := data } }]
        if unpacks data then serveCached unpacks readWaiter more rest
        else .hijacked more (releaseMulti more)

/-- `NewDNSPacketConnection`: the packets are served in reverse. -/
def hijack (unpacks : List UInt8 → Bool) (readWaiter : Bool) (buffers : List PacketBuffer) : PacketOutcome :=
  serveCached unpacks readWaiter [] buffers.reverse

def connectTo (outbound : Outbound) (buffers : List PacketBuffer) : PacketOutcome :=
  if outbound.networks.contains "udp" then connect [] buffers
  else .refused ("UDP is not supported by outbound: " ++ outbound.tag) (releaseMulti buffers)

/-- `RuleActionReject.Error`, and the check on the method before it. -/
def rejectError (action : RuleActionReject) : String :=
  if action.method = .reply then "reject method `reply` is not supported for UDP connections"
  else "rejected"

/-- `routePacketConnection` after `matchRule`. A failed match returns without the
buffers. -/
def Router.routePacketConnection (router : Router) (unpacks : List UInt8 → Bool) (readWaiter : Bool)
    (walk : Walk PacketState) : PacketOutcome :=
  match walk.status with
  | .failed error => .refused error []
  | .selected (.route tag) =>
      match router.outbound tag with
      | none => .refused ("outbound not found: " ++ tag) (releaseMulti walk.io.buffers)
      | some outbound => connectTo outbound walk.io.buffers
  | .selected (.reject action) => .refused (rejectError action) (releaseMulti walk.io.buffers)
  | .selected .hijackDNS => hijack unpacks readWaiter walk.io.buffers
  | .walking => connectTo router.defaultOutbound walk.io.buffers

def PacketOutcome.released : PacketOutcome → List Nat
  | .refused _ released => released
  | .connected _ released => released
  | .hijacked _ released => released
  | .panicked released => released

/-- The packets handed on, if the connection is handed on at all. -/
def PacketOutcome.delivered? : PacketOutcome → Option (List PacketBuffer)
  | .refused _ _ => none
  | .connected delivered _ => some delivered
  | .hijacked delivered _ => some delivered
  | .panicked _ => none

/-- The next read brings at most one packet, which settles the sniff or is followed by
the timeout. -/
def Router.SettlesAtOnce (router : Router) (action : RuleActionSniff) (metadata : RouteContext) :
    List PacketEvent → Prop
  | .packet packet :: rest =>
      (router.examine action metadata packet.data).2 ≠ some .needMoreData ∨
        rest = [] ∨ ∃ later, rest = .timeout :: later
  | .cancelled :: _ => False
  | _ => True

/-- A sniff action reads at most one packet, and none while one is held, when nothing
fails either. -/
def PacketCondition (router : Router) (walk : Walk PacketState) : RouteAction → Prop
  | .sniff action =>
      packetSniffSkipped action walk.metadata = true ∨
        (walk.io.buffers = [] ∧ router.SettlesAtOnce action walk.metadata walk.io.conn) ∨
        (router.reexamine action walk.metadata walk.io.buffers).2 ≠ none
  | .resolve action =>
      walk.io.buffers = [] ∨ ∃ resolved, router.actionResolve walk.metadata action = .ok resolved
  | _ => True

/-- At most one packet has been read; it is held once, and nothing has failed
since. -/
structure Intact (conn : List PacketEvent) (walk : Walk PacketState) : Prop where
  conserved : walk.io.arrived ++ packetsOf walk.io.conn = packetsOf conn
  held : walk.io.buffers = walk.io.arrived.mapIdx fun index packet => ⟨index, packet⟩
  single : walk.io.arrived.length ≤ 1
  alive : ∀ error, walk.status = .failed error → walk.io.arrived = []

variable {conn : List PacketEvent} {walk : Walk PacketState} {router : Router}

theorem Intact.arrived_of_unheld (intact : Intact conn walk) (unheld : walk.io.buffers = []) :
    walk.io.arrived = [] := by
  rw [intact.held] at unheld
  simpa using unheld

variable {action : RuleActionSniff} {metadata : RouteContext}

theorem readPackets_settles (settles : router.SettlesAtOnce action metadata conn) :
    let read := router.readPackets action metadata [] [] conn
    read.arrived ++ packetsOf read.conn = packetsOf conn ∧
      read.buffers = read.arrived.mapIdx (fun index packet => ⟨index, packet⟩) ∧
      read.arrived.length ≤ 1 ∧ (read.fatal ≠ none → read.arrived = []) := by
  match conn with
  | [] => simp [readPackets]
  | .timeout :: rest => simp [readPackets, packetsOf]
  | .failure problem :: rest => simp [readPackets, packetsOf]
  | .cancelled :: rest => exact settles.elim
  | .packet packet :: rest =>
      simp only [readPackets]
      split
      · rename_i sniffed verdict
        obtain settled | unread | ⟨later, timedOut⟩ := settles
        · exact absurd (congrArg Prod.snd verdict) settled
        · simp [unread, readPackets, packetsOf]
        · simp [timedOut, readPackets, packetsOf]
      · simp [packetsOf]

theorem intact_sniff (condition : PacketCondition router walk (.sniff action))
    (intact : Intact conn walk) :
    Intact conn (walk.perform router router.actionSniffPacket (.sniff action)) := by
  have unchanged (metadata : RouteContext) : Intact conn ⟨metadata, walk.io, .walking⟩ :=
    ⟨intact.conserved, intact.held, intact.single, fun error failed => by cases failed⟩
  by_cases skipped : packetSniffSkipped action walk.metadata = true
  · simp only [Walk.perform, actionSniffPacket, if_pos skipped]
    exact unchanged _
  · simp only [Walk.perform, actionSniffPacket, if_neg skipped]
    cases verdict : router.reexamine action walk.metadata walk.io.buffers with
    | mk sniffed settled =>
        cases settled with
        | some error => exact unchanged _
        | none =>
            -- the action reads, so nothing is held and the read settles at once
            obtain ⟨unheld, settles⟩ : walk.io.buffers = [] ∧
                router.SettlesAtOnce action walk.metadata walk.io.conn := by
              rcases condition with skip | both | other
              · exact absurd skip skipped
              · exact both
              · exact absurd (congrArg Prod.snd verdict) other
            have fresh := intact.arrived_of_unheld unheld
            have conserved := intact.conserved
            rw [unheld] at verdict
            obtain rfl : walk.metadata = sniffed := congrArg Prod.fst verdict
            rw [fresh, List.nil_append] at conserved
            obtain ⟨whole, held, single, lost⟩ := readPackets_settles settles
            simp only [fresh, unheld, List.nil_append]
            refine ⟨whole.trans conserved, ?_, single, ?_⟩
            · split
              · rename_i none_read
                rw [← held, List.isEmpty_iff.1 none_read]
              · exact held
            · intro error failed
              apply lost
              intro survived
              rw [survived] at failed
              cases failed

theorem intact_perform {action : RouteAction} (condition : PacketCondition router walk action)
    (intact : Intact conn walk) (walking : walk.status = .walking) :
    Intact conn (walk.perform router router.actionSniffPacket action) := by
  have unfailed (metadata : RouteContext) (status : WalkStatus)
      (fine : ∀ error, status ≠ .failed error) : Intact conn ⟨metadata, walk.io, status⟩ :=
    ⟨intact.conserved, intact.held, intact.single, fun error failed => absurd failed (fine error)⟩
  have walked : ∀ error, walk.status ≠ .failed error := by simp [walking]
  cases action with
  | sniff action => exact intact_sniff condition intact
  | resolve action =>
      simp only [Walk.perform]
      cases resolved : router.actionResolve walk.metadata action with
      | ok metadata => exact unfailed _ _ walked
      | error problem =>
          have unheld : walk.io.buffers = [] := by
            rcases condition with unheld | ⟨metadata, succeeded⟩
            · exact unheld
            · rw [resolved] at succeeded
              cases succeeded
          exact ⟨intact.conserved, intact.held, intact.single,
            fun _ _ => intact.arrived_of_unheld unheld⟩
  | bypass outbound options =>
      simp only [Walk.perform]
      split
      · exact intact
      · exact unfailed _ _ (by simp)
  | route outbound options | reject action | hijackDNS => exact unfailed _ _ (by simp)
  | routeOptions options => exact unfailed _ _ walked
  | direct => exact intact

/-- Every performed action of the walk meets the condition. -/
def PacketWalkMeets (router : Router) (metadata : RouteContext) (conn : List PacketEvent) : Prop :=
  ∀ prepared, router.prepareMatchMetadata metadata = .ok prepared →
    (Walk.machine router router.actionSniffPacket).Meets
      (fun before rule => before.status = .walking →
        rule.isMatch false before.metadata.resetRuleCache = true →
          PacketCondition router { before with metadata := before.metadata.resetRuleCache } rule.action)
      ⟨prepared, ⟨conn, [], []⟩, .walking⟩ router.rules

theorem intact_matchRule (meets : PacketWalkMeets router metadata conn) :
    Intact conn (router.matchRule router.actionSniffPacket metadata ⟨conn, [], []⟩) := by
  unfold matchRule
  cases prepared : router.prepareMatchMetadata metadata with
  | error problem => exact ⟨rfl, rfl, by simp, fun _ _ => rfl⟩
  | ok ready =>
      exact Walk.foldl_invariant
        (fun walk intact => ⟨intact.conserved, intact.held, intact.single, intact.alive⟩)
        (fun walk action walking condition intact => intact_perform condition intact walking)
        (meets ready prepared) ⟨rfl, rfl, by simp, fun _ _ => rfl⟩

/-- The packets handed on are the given ones, all buffers are released once, and nothing
panics. -/
structure PacketOutcome.Transparent (outcome : PacketOutcome) (arrived : List Packet) : Prop where
  released : outcome.released = List.range arrived.length
  delivered : ∀ delivered, outcome.delivered? = some delivered →
    delivered.map PacketBuffer.packet = arrived
  safe : ∀ released, outcome ≠ .panicked released

theorem handed_on {unpacks : List UInt8 → Bool} {readWaiter : Bool} {buffers : List PacketBuffer}
    {arrived : List Packet} (held : buffers = arrived.mapIdx fun index packet => ⟨index, packet⟩)
    (single : arrived.length ≤ 1) :
    releaseMulti buffers = List.range arrived.length ∧ (connect [] buffers).Transparent arrived ∧
      (hijack unpacks readWaiter buffers).Transparent arrived := by
  match arrived with
  | [] => refine ⟨?_, ⟨?_, ?_, ?_⟩, ?_, ?_, ?_⟩ <;> simp [held, connect, hijack, serveCached,
      PacketOutcome.released, PacketOutcome.delivered?, releaseMulti]
  | [packet] =>
      have once : [0].eraseDups = [0] := rfl
      have served : hijack unpacks readWaiter buffers = .hijacked [⟨0, packet⟩] [0] := by
        cases unpacked : unpacks packet.data <;>
          simp [held, hijack, serveCached, PacketBuffer.isIn, releaseMulti, unpacked, once]
      rw [served, held]
      refine ⟨rfl, ⟨rfl, ?_, nofun⟩, rfl, ?_, nofun⟩
      · rintro delivered ⟨⟩
        rfl
      · rintro delivered ⟨⟩
        rfl
  | first :: second :: rest =>
      rw [List.length_cons, List.length_cons] at single
      omega

theorem connectTo_transparent {outbound : Outbound} {buffers : List PacketBuffer} {arrived : List Packet}
    (held : buffers = arrived.mapIdx fun index packet => ⟨index, packet⟩) (single : arrived.length ≤ 1) :
    (connectTo outbound buffers).Transparent arrived := by
  obtain ⟨released, connected, -⟩ := @handed_on (fun _ => true) false _ _ held single
  unfold connectTo
  split
  · exact connected
  · exact ⟨released, nofun, nofun⟩

theorem routePacketConnection_transparent {router : Router} {unpacks : List UInt8 → Bool}
    {readWaiter : Bool} {conn : List PacketEvent} {walk : Walk PacketState} (intact : Intact conn walk) :
    (router.routePacketConnection unpacks readWaiter walk).Transparent walk.io.arrived := by
  obtain ⟨released, -, hijacked⟩ := @handed_on unpacks readWaiter _ _ intact.held intact.single
  unfold routePacketConnection
  cases status : walk.status with
  | walking => exact connectTo_transparent intact.held intact.single
  | failed error =>
      refine ⟨?_, nofun, nofun⟩
      rw [intact.alive error status]
      rfl
  | selected action =>
      cases action with
      | reject action => exact ⟨released, nofun, nofun⟩
      | hijackDNS => exact hijacked
      | route tag =>
          simp only
          cases router.outbound tag with
          | none => exact ⟨released, nofun, nofun⟩
          | some outbound => exact connectTo_transparent intact.held intact.single

def datagram (data : List UInt8) : Packet := ⟨data, ⟨.invalid, 443, ""⟩⟩

/-- A sniffer for a message from 1 to 2, which may be split. -/
def splitSniffer : Sniffer := fun metadata bytes =>
  if bytes.getLast? = some 2 then ({ metadata.unsniffed with protocol := "quic" }, none)
  else ({ metadata.unsniffed with protocol := "quic" }, some .needMoreData)

def splitSniff : RuleActionSniff := ⟨["quic"], [], [splitSniffer], false⟩

def splitRouter (rules : List RouteRule) : Router :=
  { plainRouter rules with quicClientHello := splitSniffer }

-- a second sniff action that continues the message holds the first packet twice, and the
-- loop that wraps the packets comes to its emptied buffer
example :
    let walk := (splitRouter [always (.sniff (blindSniff "dns")), always (.sniff splitSniff)]).matchRule
      (splitRouter [always (.sniff (blindSniff "dns")), always (.sniff splitSniff)]).actionSniffPacket .zero
      ⟨[.packet (datagram [1]), .packet (datagram [2])], [], []⟩
    (splitRouter [always (.sniff (blindSniff "dns")), always (.sniff splitSniff)]).routePacketConnection
        (fun _ => true) true walk =
      .panicked [] := by
  decide +kernel

end SideraCore.Route
