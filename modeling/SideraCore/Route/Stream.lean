import SideraCore.Route.Walk

/-!
Owns sniffing on a stream: `PeekStream` with its read loop, the sniff action on
a connection, the replay of the sniffed bytes by nested cached connections, and
when the outbound reads what the client sent.

A cached connection returns its buffer before the connection below it; this is
what the bytes of `cachedConn` say.
-/

namespace SideraCore.Route

open Concurrency

/-- What one `Read` finds: bytes, an error, or bytes together with an error. -/
structure Arrival where
  bytes : List UInt8
  failed : Bool
  something : bytes ≠ [] ∨ failed = true

def pending (conn : List Arrival) : List UInt8 := (conn.map Arrival.bytes).flatten

@[simp] theorem pending_cons (arrival : Arrival) (rest : List Arrival) :
    pending (arrival :: rest) = arrival.bytes ++ pending rest := rfl

/-- The connection below and the buffers read from it so far. -/
structure StreamState where
  conn : List Arrival
  buffers : List (List UInt8)

/-- A chunk longer than the free space is split: the rest stays in the connection. -/
def Arrival.split (arrival : Arrival) (free : Nat) (longer : free < arrival.bytes.length) : Arrival where
  bytes := arrival.bytes.drop free
  failed := arrival.failed
  something := .inl (by simpa using longer)

/-- Metadata, error, the filled buffer, and what is left of the connection. -/
structure Peeked where
  metadata : RouteContext
  error : Option SniffError
  buffer : List UInt8
  conn : List Arrival

/-- The loop of `PeekStream`. A failed read returns `read payload` in the first turn,
the error of the sniffers later. A full buffer fails the read without touching the
connection. -/
def peekStreamLoop (capacity : Nat) (sniffers : List Sniffer) (earlier : List UInt8) :
    SniffError → List UInt8 → RouteContext → List Arrival → Peeked
  | readError, buffer, metadata, [] => ⟨metadata, some readError, buffer, []⟩
  | readError, buffer, metadata, arrival :: rest =>
      if capacity ≤ buffer.length then ⟨metadata, some readError, buffer, arrival :: rest⟩
      else if longer : capacity - buffer.length < arrival.bytes.length then
        -- this read fills the buffer, so the next one fails if it comes to that
        let filled := buffer ++ arrival.bytes.take (capacity - buffer.length)
        let (sniffed, error) := peek sniffers metadata (earlier ++ filled)
        ⟨sniffed, error, filled, arrival.split _ longer :: rest⟩
      else if arrival.failed then ⟨metadata, some readError, buffer ++ arrival.bytes, rest⟩
      else
        match peek sniffers metadata (earlier ++ (buffer ++ arrival.bytes)) with
        | (sniffed, some .needMoreData) =>
            peekStreamLoop capacity sniffers earlier .needMoreData (buffer ++ arrival.bytes) sniffed rest
        | (sniffed, error) => ⟨sniffed, error, buffer ++ arrival.bytes, rest⟩

def peekStream (capacity : Nat) (sniffers : List Sniffer) (metadata : RouteContext) (io : StreamState) :
    Peeked :=
  peekStreamLoop capacity sniffers io.buffers.flatten .other [] metadata io.conn

def streamSniffSkipped (action : RuleActionSniff) (metadata : RouteContext) : Bool :=
  sniffSkip metadata || metadata.protocol ≠ "" ||
    (action.streamSniffers.isEmpty && !action.packetSniffers.isEmpty) || sniffSettled action metadata

def Router.actionSniffStream (router : Router) (capacity : Nat) : SniffOn StreamState :=
  fun action metadata io =>
    if streamSniffSkipped action metadata then (none, metadata, io)
    else
      let sniffers := if action.streamSniffers.isEmpty then router.defaultStreamSniffers
        else action.streamSniffers
      let peeked := peekStream capacity sniffers metadata io
      (none,
        router.settleSniff action (peeked.metadata.sniffed action.snifferNames peeked.error) peeked.error,
        ⟨peeked.conn, if peeked.buffer.isEmpty then io.buffers else io.buffers ++ [peeked.buffer]⟩)

def cachedConn (below buffer : List UInt8) : List UInt8 := buffer ++ below

/-- The bytes handed on: `routeConnection` wraps the connection for each buffer, in
their order. -/
def StreamState.delivered (io : StreamState) : List UInt8 := io.buffers.foldl cachedConn (pending io.conn)

/-- The wrapping reads the buffers backwards. -/
theorem foldl_cachedConn (buffers : List (List UInt8)) (below : List UInt8) :
    buffers.foldl cachedConn below = buffers.reverse.flatten ++ below := by
  induction buffers generalizing below with
  | nil => rfl
  | cons buffer rest ih =>
      rw [List.foldl_cons, ih]
      simp [cachedConn]

/-! ### No byte is lost while peeking -/

theorem peekStreamLoop_conserves (capacity : Nat) (sniffers : List Sniffer) (earlier : List UInt8)
    (readError : SniffError) (buffer : List UInt8) (metadata : RouteContext) (conn : List Arrival) :
    let peeked := peekStreamLoop capacity sniffers earlier readError buffer metadata conn
    peeked.buffer ++ pending peeked.conn = buffer ++ pending conn := by
  induction conn generalizing readError buffer metadata with
  | nil => rfl
  | cons arrival rest ih =>
      simp only [peekStreamLoop]
      split
      · rfl
      · split
        · simp only [Arrival.split, pending_cons]
          rw [List.append_assoc, ← List.append_assoc (List.take _ _), List.take_append_drop]
        · split
          · simp
          · split
            · rw [ih]
              simp
            · simp

theorem peekStream_conserves (capacity : Nat) (sniffers : List Sniffer) (metadata : RouteContext)
    (io : StreamState) :
    (peekStream capacity sniffers metadata io).buffer ++
        pending (peekStream capacity sniffers metadata io).conn = pending io.conn :=
  peekStreamLoop_conserves _ _ _ _ _ _ _

def Quiet : List Arrival → Prop
  | [] => True
  | arrival :: _ => arrival.bytes = []

variable {capacity : Nat} {sent : List UInt8} {walk : Walk StreamState}

theorem peekStream_quiet {sniffers : List Sniffer} {metadata : RouteContext} {io : StreamState}
    (quiet : Quiet io.conn) : (peekStream capacity sniffers metadata io).buffer = [] := by
  cases listed : io.conn with
  | nil => simp [peekStream, listed, peekStreamLoop]
  | cons arrival rest =>
      rw [listed] at quiet
      have empty : arrival.bytes = [] := quiet
      have failed : arrival.failed = true := arrival.something.resolve_left (not_not.2 empty)
      simp only [peekStream, listed, peekStreamLoop, empty, failed]
      split <;> simp

/-- The buffers and the bytes to come are what the client sent, and at most one buffer
is held. -/
structure Faithful (sent : List UInt8) (walk : Walk StreamState) : Prop where
  conserved : walk.io.buffers.flatten ++ pending walk.io.conn = sent
  single : walk.io.buffers.length ≤ 1

theorem Faithful.delivered_eq_sent (faithful : Faithful sent walk) : walk.io.delivered = sent := by
  rw [StreamState.delivered, foldl_cachedConn, ← faithful.conserved]
  have single := faithful.single
  match held : walk.io.buffers with
  | [] | [buffer] => rfl
  | first :: second :: rest =>
      rw [held, List.length_cons, List.length_cons] at single
      omega

/-- Reading into a second buffer loses the order: a sniff action finds no buffer, leaves
the stream alone, or reads no byte. -/
def StreamCondition (walk : Walk StreamState) : RouteAction → Prop
  | .sniff action =>
      walk.io.buffers = [] ∨ streamSniffSkipped action walk.metadata = true ∨ Quiet walk.io.conn
  | _ => True

theorem faithful_sniff {router : Router} {action : RuleActionSniff}
    (condition : StreamCondition walk (.sniff action)) (faithful : Faithful sent walk) :
    Faithful sent (walk.perform router (router.actionSniffStream capacity) (.sniff action)) := by
  by_cases skipped : streamSniffSkipped action walk.metadata = true
  · simp only [Walk.perform, Router.actionSniffStream, if_pos skipped]
    exact ⟨faithful.conserved, faithful.single⟩
  · simp only [Walk.perform, Router.actionSniffStream, if_neg skipped]
    generalize (if action.streamSniffers.isEmpty then router.defaultStreamSniffers
      else action.streamSniffers) = sniffers
    have conserved := peekStream_conserves capacity sniffers walk.metadata walk.io
    by_cases empty : (peekStream capacity sniffers walk.metadata walk.io).buffer = []
    · rw [empty, List.nil_append] at conserved
      constructor
      · simpa [empty, conserved] using faithful.conserved
      · simpa [empty] using faithful.single
    · -- bytes were read, so no buffer was held before
      have unheld : walk.io.buffers = [] := by
        rcases condition with unheld | skip | quiet
        · exact unheld
        · exact absurd skip skipped
        · exact absurd (peekStream_quiet quiet) empty
      have before := faithful.conserved
      constructor
      · simpa [empty, unheld, conserved] using before
      · simp [empty, unheld]

theorem faithful_perform {router : Router} {action : RouteAction}
    (condition : StreamCondition walk action) (faithful : Faithful sent walk) :
    Faithful sent (walk.perform router (router.actionSniffStream capacity) action) := by
  have same (metadata : RouteContext) (status : WalkStatus) :
      Faithful sent ⟨metadata, walk.io, status⟩ :=
    ⟨faithful.conserved, faithful.single⟩
  cases action with
  | sniff action => exact faithful_sniff condition faithful
  | resolve action =>
      simp only [Walk.perform]
      cases router.actionResolve walk.metadata action <;> exact same _ _
  | bypass outbound options =>
      simp only [Walk.perform]
      split <;> exact same _ _
  | route outbound options | routeOptions options | reject action | hijackDNS | direct =>
      exact same _ _

def StreamWalkMeets (router : Router) (capacity : Nat) (metadata : RouteContext) (conn : List Arrival) :
    Prop :=
  ∀ prepared, router.prepareMatchMetadata metadata = .ok prepared →
    (Walk.machine router (router.actionSniffStream capacity)).Meets
      (fun before rule => before.status = .walking →
        rule.isMatch false before.metadata.resetRuleCache = true →
          StreamCondition { before with metadata := before.metadata.resetRuleCache } rule.action)
      ⟨prepared, ⟨conn, []⟩, .walking⟩ router.rules

/-- **Sniffing is transparent** as long as no second sniff action reads bytes of
its own: whatever the rules are and however the bytes arrive, the outbound or
the hijacker reads what the client sent. -/
theorem sniffed_stream_transparent (router : Router) (capacity : Nat) (metadata : RouteContext)
    (conn : List Arrival) (meets : StreamWalkMeets router capacity metadata conn) :
    (router.matchRule (router.actionSniffStream capacity) metadata ⟨conn, []⟩).io.delivered =
      pending conn := by
  unfold Router.matchRule
  cases prepared : router.prepareMatchMetadata metadata with
  | error problem => rfl
  | ok ready =>
      apply Faithful.delivered_eq_sent
      exact Walk.foldl_invariant (fun walk faithful => ⟨faithful.conserved, faithful.single⟩)
        (fun walk action _ condition faithful => faithful_perform condition faithful)
        (meets ready prepared) ⟨rfl, by simp⟩

/-! ### Two sniff actions -/

def chunk (first : UInt8) (rest : List UInt8) : Arrival := ⟨first :: rest, false, .inl (by simp)⟩

def always (action : RouteAction) : RouteRule := ⟨fun _ _ => true, action⟩

def blindSniff (name : String) : RuleActionSniff :=
  ⟨[name], [fun metadata _ => (metadata.unsniffed, some .other)],
    [fun metadata _ => (metadata.unsniffed, some .other)], false⟩

def plainRouter (rules : List RouteRule) : Router where
  rules := rules
  isDomainName _ := true
  isDomain address := address.fqdn ≠ ""
  fakeIPContains _ := false
  fakeIPLookup _ := none
  reverseMapping _ := none
  hasTransport _ := false
  lookup _ _ := .error "no server"
  defaultStreamSniffers := []
  defaultPacketSniffers := []
  quicClientHello metadata _ := (metadata.unsniffed, some .other)
  outbound _ := none
  defaultOutbound := ⟨"direct", ["tcp", "udp"], none, none⟩

theorem sniffed_stream_transparent_once :
    let router := plainRouter [always (.sniff (blindSniff "bittorrent"))]
    StreamWalkMeets router 16 .zero [chunk 1 [2], chunk 3 []] ∧
      (router.matchRule (router.actionSniffStream 16) .zero ⟨[chunk 1 [2], chunk 3 []], []⟩).io.delivered =
        [1, 2, 3] := by
  intro router
  have meets : StreamWalkMeets router 16 .zero [chunk 1 [2], chunk 3 []] :=
    fun _ _ => ⟨fun _ _ => .inl rfl, trivial⟩
  exact ⟨meets, sniffed_stream_transparent _ _ _ _ meets⟩

/-- Two sniff actions read a chunk each: the second chunk is delivered first. -/
theorem sniffed_stream_reordered :
    let router := plainRouter [always (.sniff (blindSniff "bittorrent")), always (.sniff (blindSniff "ssh"))]
    (router.matchRule (router.actionSniffStream 16) .zero ⟨[chunk 1 [2], chunk 3 []], []⟩).io.delivered =
        [3, 1, 2] ∧
      pending [chunk 1 [2], chunk 3 []] = [1, 2, 3] := by
  decide +kernel

end SideraCore.Route
