import SideraCore.Sniff.Initial
import SideraCore.Sniff.Reassembly

/-!
Owns `QUICClientHello` as a whole: the frames of a packet, the reassembly with the
pieces kept from earlier packets, the parser, and the guess of the client. Errors
are part of its result; a panic and a search without end are not.

Owns the exact conditions under which a call does not panic, and under which it
terminates.
-/

namespace SideraCore.Sniff

open Control Control.Checked Route

def hostname (name : List UInt8) : String := String.ofList (name.map fun byte => Char.ofNat byte.toNat)

def isZero (bytes : List UInt8) : Bool := bytes.all (· == 0)

def isQUICGo (fingerprint : ClientHello) : Bool :=
  fingerprint.ellipticCurves.contains 0x11EC || fingerprint.extensions.contains 0xFF01

def greased (numbers : List Nat) : Bool := numbers.head?.any fun number => number &&& 0x0F0F == 0x0A0A

def isSafari (fingerprint : ClientHello) : Bool :=
  (fingerprint.versions.length == 2 && greased fingerprint.versions &&
    fingerprint.ellipticCurves.length == 5 && greased fingerprint.ellipticCurves) ||
  (fingerprint.cipherSuites == [0x1302] && fingerprint.ellipticCurves == [29] &&
    fingerprint.signatureAlgorithms == [0x0403])

def detectClient (client : String) (frameTypeList : List UInt8) (fingerprint : ClientHello) :
    Checked Empty String :=
  if client ≠ "" then return client
  else if frameTypeList.length = 1 then return "firefox"
  else do
    let first ← index frameTypeList 0
    let others ← slice frameTypeList 1 frameTypeList.length
    if first = 0x06 ∧ isZero others ∧ isSafari fingerprint then return "safari"
    else do
      let last ← index frameTypeList (frameTypeList.length - 1)
      let before ← slice frameTypeList 0 (frameTypeList.length - 1)
      if last = 0x06 ∧ isZero before then return "quic-go"
      else if 1 < frameTypeList.count 0x06 ∨ 0 < frameTypeList.count 0x01 then
        return if isQUICGo fingerprint then "quic-go" else "chromium"
      else return "unknown"

abbrev Answer := RouteContext.Sniffed × Option SniffError

variable (protection : Protection) (metadata : RouteContext)

/-- `QUICClientHello` from the assembled bytes on. What does not parse is kept for the
next packet. -/
def answer (frameTypeList : List UInt8) (fragments : List CryptoFragment) (body : List UInt8) :
    Checked Empty Answer := do
  match ← attempt (compute (record fragments body)) with
  | .error _ =>
      return ({ metadata.unsniffed with protocol := "quic", sniffContext := fragments },
        some .needMoreData)
  | .ok fingerprint =>
      let client ← detectClient metadata.client frameTypeList fingerprint
      return (⟨"quic", hostname fingerprint.serverName, client, []⟩, none)

/-- The second half of `QUICClientHello`, from the frames on. -/
def sniffHello (turns : Nat) (metadata : RouteContext) (frameTypeList : List UInt8)
    (fragments : List CryptoFragment) : Checked Empty Answer := do
  let body ← assemble turns fragments
  answer metadata frameTypeList fragments body

def quicClientHello (turns : Nat) (metadata : RouteContext) (packet : List UInt8) :
    Checked Empty Answer := do
  match ← attempt (initialFrames protection packet) with
  | .error _ => return (metadata.unsniffed, some .other)
  | .ok frames => sniffHello turns metadata frames.1 (frames.2 ++ metadata.sniffContext)

theorem detectClient_returns {client : String} {frameTypeList : List UInt8}
    (framed : frameTypeList ≠ []) (fingerprint : ClientHello) :
    Returns (detectClient client frameTypeList fingerprint) fun _ => True := by
  have positive := List.length_pos_iff.2 framed
  unfold detectClient
  split
  · exact returns_pure trivial
  split
  · exact returns_pure trivial
  apply returns_bind (returns_index positive)
  intro first _
  apply returns_bind (returns_slice positive (Nat.le_refl _))
  intro others _
  split
  · exact returns_pure trivial
  apply returns_bind (returns_index (by omega))
  intro last _
  apply returns_bind (returns_slice (Nat.zero_le _) (by omega))
  intro before _
  split
  · exact returns_pure trivial
  split
  · exact returns_pure trivial
  · exact returns_pure trivial

theorem detectClient_ne_unfinished (client : String) (frameTypeList : List UInt8)
    (fingerprint : ClientHello) :
    detectClient client frameTypeList fingerprint ≠ .error .unfinished := by
  by_cases framed : frameTypeList = []
  · unfold detectClient
    split
    · exact nofun
    · -- without frames the first access panics
      simp only [framed, List.length_nil, Nat.zero_ne_one, if_false]
      exact nofun
  · exact (detectClient_returns framed fingerprint).ne_unfinished

/-! ### What a call does -/

section Call

variable {protection : Protection} {turns : Nat} {metadata : RouteContext} {packet : List UInt8}

theorem quicClientHello_of_frames {frames : List UInt8 × List CryptoFragment}
    (framed : initialFrames protection packet = .ok frames) :
    quicClientHello protection turns metadata packet =
      sniffHello turns metadata frames.1 (frames.2 ++ metadata.sniffContext) := by
  simp only [quicClientHello, framed, attempt]
  rfl

theorem quicClientHello_of_error {problem : QuicError}
    (failed : initialFrames protection packet = .error (.error problem)) :
    quicClientHello protection turns metadata packet = .ok (metadata.unsniffed, some .other) := by
  simp only [quicClientHello, failed, attempt]
  rfl

theorem quicClientHello_of_panic (panicked : initialFrames protection packet = .error .panic) :
    quicClientHello protection turns metadata packet = .error .panic := by
  simp only [quicClientHello, panicked, attempt]
  rfl

variable {frameTypeList : List UInt8} {fragments : List CryptoFragment} {body : List UInt8}

theorem answer_of_error {problem : ParseError}
    (failed : compute (record fragments body) = .error (.error problem)) :
    answer metadata frameTypeList fragments body =
      .ok ({ metadata.unsniffed with protocol := "quic", sniffContext := fragments },
        some .needMoreData) := by
  simp only [answer, failed, attempt]
  rfl

theorem answer_of_fingerprint {fingerprint : ClientHello}
    (parsed : compute (record fragments body) = .ok fingerprint) :
    answer metadata frameTypeList fragments body = do
      let client ← detectClient metadata.client frameTypeList fingerprint
      return (⟨"quic", hostname fingerprint.serverName, client, []⟩, none) := by
  simp only [answer, parsed, attempt]
  rfl

theorem answer_of_panic (panicked : compute (record fragments body) = .error .panic) :
    answer metadata frameTypeList fragments body = .error .panic := by
  simp only [answer, panicked, attempt]
  rfl

theorem sniffHello_of_body (assembled : assemble turns fragments = .ok body) :
    sniffHello turns metadata frameTypeList fragments =
      answer metadata frameTypeList fragments body := by
  simp only [sniffHello, assembled]
  rfl

theorem answer_returns (framed : frameTypeList ≠ []) (fits : HelloFits (record fragments body)) :
    Returns (answer metadata frameTypeList fragments body) fun _ => True := by
  obtain ⟨finishes, panics⟩ := compute_stops (record fragments body)
  cases parsed : compute (record fragments body) with
  | ok fingerprint =>
      rw [answer_of_fingerprint parsed]
      apply returns_bind (detectClient_returns framed fingerprint)
      intro client _
      exact returns_pure trivial
  | error stop =>
      cases stop with
      | error problem =>
          rw [answer_of_error parsed]
          trivial
      | panic => exact absurd fits (panics.1 parsed)
      | unfinished => exact absurd parsed finishes

theorem answer_ne_unfinished :
    answer metadata frameTypeList fragments body ≠ .error .unfinished := by
  cases parsed : compute (record fragments body) with
  | ok fingerprint =>
      rw [answer_of_fingerprint parsed, ne_eq, bind_eq_error_iff]
      rintro (unfinished | ⟨client, -, unfinished⟩)
      · exact detectClient_ne_unfinished _ _ _ unfinished
      · cases unfinished
  | error stop =>
      cases stop with
      | error problem => simp [answer_of_error parsed]
      | panic => simp [answer_of_panic parsed]
      | unfinished => exact absurd parsed (compute_stops _).1

end Call

/-! ### What a flow keeps -/

/-- The pieces that earlier packets of a flow can leave behind. -/
inductive Kept (protection : Protection) : List CryptoFragment → Prop where
  | nothing : Kept protection []
  | packet {turns : Nat} {metadata : RouteContext} {packet : List UInt8} {result : Answer} :
      Kept protection metadata.sniffContext →
      quicClientHello protection turns metadata packet = .ok result →
      Kept protection result.1.sniffContext

def Incomplete (fragments : List CryptoFragment) : Prop :=
  ∃ turns body problem, assemble turns fragments = .ok body ∧
    compute (record fragments body) = .error (.error problem)

theorem incomplete_nil : Incomplete [] := ⟨1, [], .length 3, rfl, by decide⟩

variable {fragments : List CryptoFragment}

theorem Kept.incomplete {protection : Protection} (kept : Kept protection fragments) :
    Incomplete fragments := by
  induction kept with
  | nothing => exact incomplete_nil
  | @packet turns metadata packet result _ called ih =>
      cases framed : initialFrames protection packet with
      | error stop =>
          cases stop with
          | error problem =>
              rw [quicClientHello_of_error framed] at called
              cases called
              exact ih
          | panic =>
              rw [quicClientHello_of_panic framed] at called
              cases called
          | unfinished => exact absurd framed (initialFrames_stops protection packet).1
      | ok frames =>
          rw [quicClientHello_of_frames framed] at called
          obtain ⟨body, assembled, answered⟩ := Control.bind_eq_ok_iff.1 called
          cases parsed : compute (record (frames.2 ++ metadata.sniffContext) body) with
          | ok fingerprint =>
              rw [answer_of_fingerprint parsed, Control.bind_eq_ok_iff] at answered
              obtain ⟨client, -, same⟩ := answered
              cases same
              exact incomplete_nil
          | error stop =>
              cases stop with
              | error problem =>
                  rw [answer_of_error parsed] at answered
                  cases answered
                  exact ⟨turns, body, problem, assembled, parsed⟩
              | panic =>
                  rw [answer_of_panic parsed] at answered
                  cases answered
              | unfinished => exact absurd parsed (compute_stops _).1

theorem Incomplete.not_fingerprint (incomplete : Incomplete fragments) {turns : Nat} {body : List UInt8}
    (assembled : assemble turns fragments = .ok body) :
    ∃ problem, compute (record fragments body) = .error (.error problem) := by
  obtain ⟨other, otherBody, problem, otherAssembled, failed⟩ := incomplete
  have same : assemble turns fragments = assemble other fragments :=
    iterate_unique (show assemble turns fragments ≠ _ by simp [assembled])
      (show assemble other fragments ≠ _ by simp [otherAssembled])
  rw [assembled, otherAssembled] at same
  cases same
  exact ⟨problem, failed⟩

/-- The lists in what the packet and the kept pieces assemble to fit. -/
def AssembledFits (packet : List UInt8) (kept : List CryptoFragment) : Prop :=
  ∀ frames turns body, initialFrames protection packet = .ok frames →
    assemble turns (frames.2 ++ kept) = .ok body → HelloFits (record (frames.2 ++ kept) body)

/-- In every state of a flow, a call does not panic exactly when the CRYPTO frames of
its packet end within the buffer and the lists in the assembled hello end within their
extensions. -/
theorem quicClientHello_safe_iff (kept : Kept protection metadata.sniffContext) (packet : List UInt8) :
    (∀ turns, quicClientHello protection turns metadata packet ≠ .error .panic) ↔
      PacketFits protection packet ∧
        AssembledFits protection packet metadata.sniffContext := by
  constructor
  · intro safe
    refine ⟨?_, ?_⟩
    · by_contra overrun
      exact safe 0 (quicClientHello_of_panic ((initialFrames_stops protection packet).2.2 overrun))
    · intro frames turns body framed assembled
      by_contra overrun
      apply safe turns
      rw [quicClientHello_of_frames framed, sniffHello_of_body assembled]
      exact answer_of_panic ((compute_stops _).2.2 overrun)
  · rintro ⟨packetFits, assembledFits⟩ turns panicked
    cases framed : initialFrames protection packet with
    | error stop =>
        cases stop with
        | error problem =>
            rw [quicClientHello_of_error framed] at panicked
            cases panicked
        | panic => exact (initialFrames_stops protection packet).2.1 framed packetFits
        | unfinished => exact absurd framed (initialFrames_stops protection packet).1
    | ok frames =>
        rw [quicClientHello_of_frames framed] at panicked
        rcases bind_eq_error_iff.1 panicked with stopped | ⟨body, assembled, stopped⟩
        · cases stop_of_iterate_eq_error (assembleTurn_total _) stopped
        · by_cases bare : frames.1 = []
          · -- nothing was added to pieces that do not parse
            have same : frames.2 ++ metadata.sniffContext = metadata.sniffContext := by
              rw [(initialFrames_result framed).2 bare, List.nil_append]
            rw [same] at assembled stopped
            obtain ⟨problem, failed⟩ := kept.incomplete.not_fingerprint assembled
            rw [answer_of_error failed] at stopped
            cases stopped
          · have fits := assembledFits frames turns body framed assembled
            exact (answer_returns bare fits).ne_panic stopped

/-- A protection that hides nothing: an empty mask, and a tag that is cut off. -/
def transparent : Protection where
  mask _ _ _ := List.replicate 16 0
  openPayload _ _ _ _ data := if 16 ≤ data.length then some (data.take (data.length - 16)) else none
  length_mask _ _ _ := rfl
  length_openPayload _ _ _ _ data payload isOpened := by
    obtain ⟨long, same⟩ := Option.ite_none_right_eq_some.1 isOpened
    cases same
    rw [List.length_take]
    omega

/-- An Initial packet of version 1; a payload of 47 bytes or more has a length in two
bytes. -/
def initialPacket (payload : List UInt8) : List UInt8 :=
  [0xC0, 0, 0, 0, 1, 1, 0, 0, 0] ++
    (if payload.length < 47 then [UInt8.ofNat (payload.length + 17)]
      else [0x40, UInt8.ofNat (payload.length + 17)]) ++
    [0] ++ payload ++ List.replicate 16 0

def helloWithVersions (versions : List UInt8) : List UInt8 :=
  let length := UInt8.ofNat versions.length
  [1, 0, 0, 44 + length, 3, 3] ++ List.replicate 32 0 ++ [0, 0, 0, 0, 0, 4 + length, 0, 43, 0, length] ++
    versions

/-- A CRYPTO frame that announces 200 bytes and carries none, and a complete hello
whose list of versions announces 4 bytes and has none: both panic. -/
theorem quicClientHello_panics :
    quicClientHello transparent 1 .zero (initialPacket [0x06, 0, 0x40, 200]) = .error .panic ∧
      quicClientHello transparent 2 .zero
        (initialPacket ([0x06, 0, 49] ++ helloWithVersions [4])) = .error .panic := by
  decide +kernel

theorem overlong_crypto_does_not_fit :
    ¬(PacketFits transparent (initialPacket [0x06, 0, 0x40, 200]) ∧
      AssembledFits transparent (initialPacket [0x06, 0, 0x40, 200]) []) := by
  intro fits
  exact (quicClientHello_safe_iff transparent .zero .nothing _).2 fits 1 (by decide +kernel)

section Termination

variable {protection : Protection} {metadata : RouteContext} {packet : List UInt8}

/-- The search over the pieces of the packet and the kept ones moves on. -/
def PacketAdvances (protection : Protection) (packet : List UInt8) (kept : List CryptoFragment) : Prop :=
  ∀ frames, initialFrames protection packet = .ok frames → Advances (frames.2 ++ kept)

theorem quicClientHello_finishes
    (advances : PacketAdvances protection packet metadata.sniffContext) :
    quicClientHello protection (packet.length + metadata.sniffContext.length + 1) metadata packet ≠
      .error .unfinished := by
  cases framed : initialFrames protection packet with
  | error stop =>
      cases stop with
      | error problem => simp [quicClientHello_of_error framed]
      | panic => simp [quicClientHello_of_panic framed]
      | unfinished => exact absurd framed (initialFrames_stops protection packet).1
  | ok frames =>
      have few : (frames.2 ++ metadata.sniffContext).length <
          packet.length + metadata.sniffContext.length + 1 := by
        have bounded := (initialFrames_result framed).1
        rw [List.length_append]
        omega
      obtain ⟨body, assembled⟩ := assemble_finishes (advances frames framed) few
      rw [quicClientHello_of_frames framed, sniffHello_of_body assembled]
      exact answer_ne_unfinished

theorem quicClientHello_unfinished
    (stalls : ¬PacketAdvances protection packet metadata.sniffContext) (turns : Nat) :
    quicClientHello protection turns metadata packet = .error .unfinished := by
  simp only [PacketAdvances, not_forall] at stalls
  obtain ⟨frames, framed, stalls⟩ := stalls
  rw [quicClientHello_of_frames framed]
  exact bind_eq_error_iff.2 (.inl (assemble_unfinished stalls turns))

end Termination

/-- A call terminates exactly when the search, over the pieces of the packet and the
kept ones, comes to no empty piece; then within as many turns as the packet has bytes
and the list has pieces. -/
theorem quicClientHello_terminates_iff (packet : List UInt8) :
    ((∃ turns, quicClientHello protection turns metadata packet ≠ .error .unfinished) ↔
      PacketAdvances protection packet metadata.sniffContext) ∧
    (PacketAdvances protection packet metadata.sniffContext →
      quicClientHello protection (packet.length + metadata.sniffContext.length + 1) metadata packet ≠
        .error .unfinished) := by
  refine ⟨⟨?_, ?_⟩, quicClientHello_finishes⟩
  · rintro ⟨turns, finished⟩
    by_contra stalls
    exact finished (quicClientHello_unfinished stalls turns)
  · intro advances
    exact ⟨_, quicClientHello_finishes advances⟩

/-- An empty CRYPTO frame at the start of the hello: the first call of a flow with it
never ends. -/
theorem empty_crypto_never_ends :
    ¬∃ turns, quicClientHello transparent turns .zero (initialPacket [0x06, 0, 0]) ≠
      .error .unfinished := by
  rintro ⟨turns, finished⟩
  apply finished
  apply quicClientHello_unfinished
  intro advances
  have framed : initialFrames transparent (initialPacket [0x06, 0, 0]) = .ok ([0x06], [⟨0, 0, []⟩]) := by
    decide +kernel
  exact absurd (advances _ framed 0 .refl ⟨0, 0, []⟩ rfl) (Nat.lt_irrefl 0)

end SideraCore.Sniff
