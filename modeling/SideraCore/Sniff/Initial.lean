import SideraCore.Route.Walk
import SideraCore.Control.Checked

/-!
Owns the first half of `QUICClientHello`: the header of an Initial packet, the
removal of its protection, and the loop over the frames of its payload, which
collects the frame types and the pieces of the handshake.

The cryptography is a parameter, of which the lengths are used. This half always
finishes, and panics at a CRYPTO frame longer than what is left of the buffer.
-/

namespace SideraCore.Sniff

open Control Control.Checked Route

inductive QuicError where
  | eof
  | badTypeByte
  | badVersion
  | badPacketType
  | badDestinationConnectionIDLength
  | invalid
  | decrypt
deriving DecidableEq, Repr

/-- The header mask of a sample and the opening of the payload, under the keys of a
version and a connection id. -/
structure Protection where
  mask : Nat → List UInt8 → List UInt8 → List UInt8
  openPayload : Nat → List UInt8 → Nat → List UInt8 → List UInt8 → Option (List UInt8)
  length_mask : ∀ version destConnID sample, (mask version destConnID sample).length = 16
  length_openPayload : ∀ version destConnID packetNumber additional data payload,
    openPayload version destConnID packetNumber additional data = some payload →
      payload.length + 16 = data.length

def bigEndian (bytes : List UInt8) : Nat :=
  bytes.foldl (fun number byte => 256 * number + byte.toNat) 0

def readByte : List UInt8 → Checked QuicError (UInt8 × List UInt8)
  | [] => .error (.error .eof)
  | byte :: rest => .ok (byte, rest)

/-- `io.ReadFull`, and `io.CopyN` that discards. -/
def readFull (count : Nat) (bytes : List UInt8) : Checked QuicError (List UInt8 × List UInt8) := do
  failIf (bytes.length < count) .eof
  return (bytes.take count, bytes.drop count)

/-- `qtls.ReadUvarint`: the first two bits of the first byte encode the length. -/
def readUvarint (bytes : List UInt8) : Checked QuicError (Nat × List UInt8) := do
  let first ← readByte bytes
  let length := 1 <<< ((first.1 &&& 0xc0) >>> 6).toNat
  let others ← readFull (length - 1) first.2
  return (bigEndian ((first.1 &&& 0x3f) :: others.1), others.2)

theorem readByte_returns (bytes : List UInt8) :
    Returns (readByte bytes) fun read => read.2.length < bytes.length := by
  cases bytes with
  | nil => trivial
  | cons byte rest => exact Nat.lt_succ_self _

theorem readFull_returns (count : Nat) (bytes : List UInt8) :
    Returns (readFull count bytes) fun read =>
      read.1.length = count ∧ read.2.length + count = bytes.length := by
  unfold readFull
  apply returns_failIf
  intro enough
  apply returns_pure
  simp only [List.length_take, List.length_drop]
  omega

theorem readUvarint_returns (bytes : List UInt8) :
    Returns (readUvarint bytes) fun read => read.2.length < bytes.length := by
  unfold readUvarint
  apply returns_bind (readByte_returns bytes)
  intro first shorter
  apply returns_bind (readFull_returns _ first.2)
  intro others rest
  apply returns_pure
  dsimp only
  omega

structure Header where
  versionNumber : Nat
  destConnID : List UInt8
  hdrLen : Nat
  packetLen : Nat
  sample : List UInt8
deriving DecidableEq, Repr

def versionDraft29 : Nat := 0xff00001d
def version1 : Nat := 0x1
def version2 : Nat := 0x6b3343cf

def readHeader (packet : List UInt8) : Checked QuicError Header := do
  let typeByte ← readByte packet
  failIf (typeByte.1 &&& 0x40 = 0) .badTypeByte
  let version ← readFull 4 typeByte.2
  let versionNumber := bigEndian version.1
  failIf (versionNumber ≠ versionDraft29 ∧ versionNumber ≠ version1 ∧ versionNumber ≠ version2)
    .badVersion
  let packetType := (typeByte.1 &&& 0x30) >>> 4
  failIf (packetType = 0 ∧ versionNumber = version2 ∨ packetType = 2 ∧ versionNumber ≠ version2 ∨
    2 < packetType) .badPacketType
  let destConnIDLen ← readByte version.2
  failIf (destConnIDLen.1 = 0 ∨ 20 < destConnIDLen.1) .badDestinationConnectionIDLength
  let destConnID ← readFull destConnIDLen.1.toNat destConnIDLen.2
  let srcConnIDLen ← readByte destConnID.2
  let srcConnID ← readFull srcConnIDLen.1.toNat srcConnIDLen.2
  let tokenLen ← readUvarint srcConnID.2
  let token ← readFull tokenLen.1 tokenLen.2
  let packetLen ← readUvarint token.2
  let hdrLen := packet.length - packetLen.2.length
  failIf (packet.length < hdrLen + packetLen.1) .invalid
  let packetNumber ← readFull 4 packetLen.2
  let sample ← readFull 16 packetNumber.2
  return ⟨versionNumber, destConnID.1, hdrLen, packetLen.1, sample.1⟩

/-- The packet, the length of the header with the packet number, and the packet number. -/
structure Unmasked where
  newPacket : List UInt8
  extHdrLen : Nat
  packetNumber : List UInt8
deriving DecidableEq, Repr

def unmask (mask : List UInt8) (header : Header) (packet : List UInt8) :
    Checked QuicError Unmasked := do
  let typeByte ← index packet 0
  let typeMask ← index mask 0
  let typeByte := typeByte ^^^ (typeMask &&& 0xf)
  let maskedNumber ← slice packet header.hdrLen (header.hdrLen + 4)
  let numberMask ← slice mask 1 5
  let packetNumberLength := (typeByte &&& 0x3).toNat + 1
  failIf (header.packetLen + header.hdrLen < header.hdrLen + packetNumberLength) .invalid
  let packetNumber := (List.zipWith (· ^^^ ·) maskedNumber numberMask).take packetNumberLength
  let extHdrLen := header.hdrLen + packetNumberLength
  let middle ← slice packet 1 header.hdrLen
  -- the bytes behind the packet number are put back as they were
  let rest ← slice packet extHdrLen packet.length
  return ⟨typeByte :: middle ++ packetNumber ++ rest, extHdrLen, packetNumber⟩

/-- The payload, and what follows it in its buffer. A slice of the payload may extend
into the rest. -/
structure Opened where
  payload : List UInt8
  spare : List UInt8
deriving DecidableEq, Repr

variable (protection : Protection)

def openInitial (packet : List UInt8) : Checked QuicError Opened := do
  let header ← readHeader packet
  let unmasked ← unmask
    (protection.mask header.versionNumber header.destConnID header.sample) header packet
  let data ← slice unmasked.newPacket unmasked.extHdrLen (header.packetLen + header.hdrLen)
  let additional ← slice unmasked.newPacket 0 unmasked.extHdrLen
  match protection.openPayload header.versionNumber header.destConnID
    (bigEndian unmasked.packetNumber) additional data with
  | none => .error (.error .decrypt)
  | some payload =>
      return ⟨payload, unmasked.newPacket.drop (unmasked.extHdrLen + payload.length)⟩

theorem readHeader_returns (packet : List UInt8) :
    Returns (readHeader packet) fun header =>
      0 < header.hdrLen ∧ header.hdrLen + 20 ≤ packet.length ∧
        header.hdrLen + header.packetLen ≤ packet.length := by
  unfold readHeader
  apply returns_bind (readByte_returns packet)
  intro typeByte afterType
  apply returns_failIf
  intro _
  apply returns_bind (readFull_returns 4 typeByte.2)
  intro version afterVersion
  apply returns_failIf
  intro _
  apply returns_failIf
  intro _
  apply returns_bind (readByte_returns version.2)
  intro destConnIDLen afterDestLen
  apply returns_failIf
  intro _
  apply returns_bind (readFull_returns _ destConnIDLen.2)
  intro destConnID afterDest
  apply returns_bind (readByte_returns destConnID.2)
  intro srcConnIDLen afterSrcLen
  apply returns_bind (readFull_returns _ srcConnIDLen.2)
  intro srcConnID afterSrc
  apply returns_bind (readUvarint_returns srcConnID.2)
  intro tokenLen afterTokenLen
  apply returns_bind (readFull_returns _ tokenLen.2)
  intro token afterToken
  apply returns_bind (readUvarint_returns token.2)
  intro packetLen afterPacketLen
  apply returns_failIf
  intro complete
  apply returns_bind (readFull_returns 4 packetLen.2)
  intro packetNumber afterNumber
  apply returns_bind (readFull_returns 16 packetNumber.2)
  intro sample afterSample
  apply returns_pure
  dsimp only
  omega

theorem packetNumberLength_le (typeByte : UInt8) : (typeByte &&& 0x3).toNat + 1 ≤ 4 := by
  exact Nat.succ_le_succ Nat.and_le_right

variable {packet spare bytes : List UInt8}

theorem unmask_returns {mask : List UInt8} {header : Header} (masked : mask.length = 16)
    (positive : 0 < header.hdrLen) (sampled : header.hdrLen + 20 ≤ packet.length) :
    Returns (unmask mask header packet) fun unmasked =>
      unmasked.newPacket.length = packet.length ∧ header.hdrLen < unmasked.extHdrLen ∧
        unmasked.extHdrLen ≤ header.packetLen + header.hdrLen := by
  unfold unmask
  apply returns_bind (returns_index (by omega))
  intro typeByte _
  apply returns_bind (returns_index (by omega))
  intro typeMask _
  apply returns_bind (returns_slice (by omega) (by omega))
  intro maskedNumber isNumber
  apply returns_bind (returns_slice (by omega) (by omega))
  intro numberMask isMask
  have short := packetNumberLength_le (typeByte ^^^ (typeMask &&& 0xf))
  apply returns_failIf
  intro numbered
  apply returns_bind (returns_slice (by omega) (by omega))
  intro middle isMiddle
  apply returns_bind (returns_slice (by omega) (Nat.le_refl _))
  intro rest isRest
  apply returns_pure
  simp only [isNumber, isMask, isRest, isMiddle, List.length_append, List.length_cons,
    List.length_take, List.length_drop, List.length_zipWith]
  omega

theorem openInitial_returns (packet : List UInt8) :
    Returns (openInitial protection packet) fun opened =>
      opened.payload.length < packet.length := by
  unfold openInitial
  apply returns_bind (readHeader_returns packet)
  intro header bounds
  apply returns_bind (unmask_returns (protection.length_mask _ _ _) bounds.1 bounds.2.1)
  intro unmasked sizes
  apply returns_bind (returns_slice (by omega) (by omega))
  intro data isData
  apply returns_bind (returns_slice (by omega) (by omega))
  intro additional _
  split
  · trivial
  · rename_i payload isOpened
    have tagged := protection.length_openPayload _ _ _ _ _ _ isOpened
    apply returns_pure
    simp only [isData, List.length_take, List.length_drop] at tagged
    dsimp only
    omega

/-- The acknowledged ranges: how many are left, and the bytes behind. -/
def ackRangeTurn (state : Nat × List UInt8) :
    Checked QuicError ((Nat × List UInt8) ⊕ List UInt8) :=
  if state.1 = 0 then return .inr state.2
  else do
    let gap ← readUvarint state.2
    let ackRangeLength ← readUvarint gap.2
    return .inl (state.1 - 1, ackRangeLength.2)

def readAck (bytes : List UInt8) : Checked QuicError (List UInt8) := do
  let largestAcknowledged ← readUvarint bytes
  let ackDelay ← readUvarint largestAcknowledged.2
  let ackRangeCount ← readUvarint ackDelay.2
  let firstAckRange ← readUvarint ackRangeCount.2
  iterate ackRangeTurn (firstAckRange.2.length + 1) (ackRangeCount.1, firstAckRange.2)

/-- A frame behind its type: its piece of the handshake, and the bytes behind it. The
payload is sliced from the buffer, and the reader may be moved behind its end. -/
def readFrame (spare : List UInt8) (frameType : UInt8) (bytes : List UInt8) :
    Checked QuicError (List CryptoFragment × List UInt8) :=
  match frameType.toNat with
  | 0x00 => return ([], bytes)
  | 0x01 => return ([], bytes)
  | 0x02 => do
      let rest ← readAck bytes
      return ([], rest)
  | 0x03 => do
      let rest ← readAck bytes
      let ect0Count ← readUvarint rest
      let ect1Count ← readUvarint ect0Count.2
      let ecnCECount ← readUvarint ect1Count.2
      return ([], ecnCECount.2)
  | 0x06 => do
      let offset ← readUvarint bytes
      let length ← readUvarint offset.2
      let payload ← slice (length.2 ++ spare) 0 length.1
      return ([⟨offset.1, length.1, payload⟩], length.2.drop length.1)
  | 0x1c => do
      let errorCode ← readUvarint bytes
      let frameType ← readUvarint errorCode.2
      let length ← readUvarint frameType.2
      return ([], length.2.drop length.1)
  | _ => .error (.error .invalid)

/-- The bytes that are left, the frame types and the pieces so far. -/
structure Frames where
  bytes : List UInt8
  frameTypeList : List UInt8
  fragments : List CryptoFragment
deriving DecidableEq, Repr

def frameTurn (spare : List UInt8) (state : Frames) :
    Checked QuicError (Frames ⊕ (List UInt8 × List CryptoFragment)) :=
  match state.bytes with
  | [] => return .inr (state.frameTypeList, state.fragments)
  | frameType :: bytes => do
      let frame ← readFrame spare frameType bytes
      return .inl ⟨frame.2, state.frameTypeList ++ [frameType], state.fragments ++ frame.1⟩

def initialFrames (packet : List UInt8) :
    Checked QuicError (List UInt8 × List CryptoFragment) := do
  let opened ← openInitial protection packet
  iterate (frameTurn opened.spare) (opened.payload.length + 1) ⟨opened.payload, [], []⟩

theorem readAck_returns (bytes : List UInt8) :
    Returns (readAck bytes) fun rest => rest.length ≤ bytes.length := by
  unfold readAck
  apply returns_bind (readUvarint_returns bytes)
  intro largestAcknowledged afterLargest
  apply returns_bind (readUvarint_returns largestAcknowledged.2)
  intro ackDelay afterDelay
  apply returns_bind (readUvarint_returns ackDelay.2)
  intro ackRangeCount afterCount
  apply returns_bind (readUvarint_returns ackRangeCount.2)
  intro firstAckRange afterFirst
  -- every range takes bytes, however many are announced
  apply returns_iterate (fun state => state.2.length ≤ bytes.length) (fun state => state.2.length)
  · intro state within
    unfold ackRangeTurn
    split
    · exact returns_pure within
    · apply returns_bind (readUvarint_returns state.2)
      intro gap afterGap
      apply returns_bind (readUvarint_returns gap.2)
      intro ackRangeLength afterLength
      apply returns_pure
      dsimp only [Sum.elim_inl]
      omega
  · dsimp only
    omega
  · exact Nat.lt_succ_self _

/-- A CRYPTO frame, behind its type, ends within the buffer. -/
def cryptoFits (spare bytes : List UInt8) : Prop :=
  ∀ offset length, readUvarint bytes = .ok offset → readUvarint offset.2 = .ok length →
    length.1 ≤ length.2.length + spare.length

/-- A frame carries at most one piece, and does not put bytes back. -/
def Behind (bytes : List UInt8) (frame : List CryptoFragment × List UInt8) : Prop :=
  frame.1.length ≤ 1 ∧ frame.2.length ≤ bytes.length

theorem readFrame_returns {frameType : UInt8} (fits : frameType.toNat = 0x06 → cryptoFits spare bytes) :
    Returns (readFrame spare frameType bytes) (Behind bytes) := by
  unfold readFrame
  split
  · exact returns_pure ⟨Nat.zero_le _, Nat.le_refl _⟩
  · exact returns_pure ⟨Nat.zero_le _, Nat.le_refl _⟩
  · apply returns_bind (readAck_returns bytes)
    intro rest afterAck
    exact returns_pure ⟨Nat.zero_le _, afterAck⟩
  · apply returns_bind (readAck_returns bytes)
    intro rest afterAck
    apply returns_bind (readUvarint_returns rest)
    intro ect0Count afterFirst
    apply returns_bind (readUvarint_returns ect0Count.2)
    intro ect1Count afterSecond
    apply returns_bind (readUvarint_returns ect1Count.2)
    intro ecnCECount afterThird
    apply returns_pure
    exact ⟨Nat.zero_le _, by dsimp only; omega⟩
  · rename_i isCrypto
    apply returns_bind (readUvarint_returns bytes).and_eq
    intro offset readOffset
    apply returns_bind (readUvarint_returns offset.2).and_eq
    intro length readLength
    have inside := fits isCrypto offset length readOffset.1 readLength.1
    apply returns_bind (returns_slice (Nat.zero_le _) (by simpa using inside))
    intro payload _
    apply returns_pure
    refine ⟨Nat.le_refl _, ?_⟩
    simp only [List.length_drop]
    omega
  · apply returns_bind (readUvarint_returns bytes)
    intro errorCode afterCode
    apply returns_bind (readUvarint_returns errorCode.2)
    intro frameType afterType
    apply returns_bind (readUvarint_returns frameType.2)
    intro length afterLength
    apply returns_pure
    refine ⟨Nat.zero_le _, ?_⟩
    simp only [List.length_drop]
    omega
  · trivial

theorem readFrame_eq_panic {frameType : UInt8} (isCrypto : frameType.toNat = 0x06)
    (overrun : ¬cryptoFits spare bytes) :
    readFrame spare frameType bytes = .error .panic := by
  simp only [cryptoFits, not_forall] at overrun
  obtain ⟨offset, length, readOffset, readLength, outside⟩ := overrun
  unfold readFrame
  rw [isCrypto]
  refine bind_eq_error_iff.2 (.inr ⟨offset, readOffset, ?_⟩)
  refine bind_eq_error_iff.2 (.inr ⟨length, readLength, ?_⟩)
  refine bind_eq_error_iff.2 (.inl (slice_eq_panic ?_))
  rw [List.length_append]
  omega

/-- The next frame, if it is a CRYPTO frame, ends within the buffer. -/
def NextFrameFits (spare : List UInt8) (state : Frames) : Prop :=
  ∀ bytes, state.bytes = 0x06 :: bytes → cryptoFits spare bytes

section Turn

variable {spare : List UInt8} {state next : Frames}

theorem readFrame_returns_of_fits {frameType : UInt8} {bytes : List UInt8}
    (front : state.bytes = frameType :: bytes) (fits : NextFrameFits spare state) :
    Returns (readFrame spare frameType bytes) (Behind bytes) := by
  apply readFrame_returns
  intro isCrypto
  have same : frameType = 0x06 := UInt8.toNat_inj.1 isCrypto
  exact fits bytes (by rw [front, same])

theorem frameTurn_returns (fits : NextFrameFits spare state) :
    Returns (frameTurn spare state) fun _ => True := by
  unfold frameTurn
  split
  · exact returns_pure trivial
  · rename_i frameType bytes front
    apply returns_bind (readFrame_returns_of_fits front fits)
    intro frame _
    exact returns_pure trivial

theorem frameTurn_eq_panic (overrun : ¬NextFrameFits spare state) :
    frameTurn spare state = .error .panic := by
  simp only [NextFrameFits, not_forall] at overrun
  obtain ⟨bytes, front, overrun⟩ := overrun
  unfold frameTurn
  rw [front]
  exact bind_eq_error_iff.2 (.inl (readFrame_eq_panic rfl overrun))

theorem frame_of_frameTurn (turned : frameTurn spare state = .ok (.inl next)) :
    ∃ frameType bytes frame, state.bytes = frameType :: bytes ∧ Behind bytes frame ∧
      next = ⟨frame.2, state.frameTypeList ++ [frameType], state.fragments ++ frame.1⟩ := by
  have fits : NextFrameFits spare state := by
    by_contra overrun
    rw [frameTurn_eq_panic overrun] at turned
    cases turned
  unfold frameTurn at turned
  split at turned
  · cases turned
  rename_i frameType bytes front
  rw [Control.bind_eq_ok_iff] at turned
  obtain ⟨frame, read, same⟩ := turned
  cases same
  exact ⟨frameType, bytes, frame, front, (readFrame_returns_of_fits front fits).of_eq_ok read, rfl⟩

theorem length_of_frameTurn (turned : frameTurn spare state = .ok (.inl next)) :
    next.bytes.length < state.bytes.length := by
  obtain ⟨frameType, bytes, frame, front, behind, rfl⟩ := frame_of_frameTurn turned
  rw [front, List.length_cons]
  exact Nat.lt_succ_of_le behind.2

end Turn

/-- Every CRYPTO frame that the loop comes to ends within the buffer. -/
def FramesFit (opened : Opened) : Prop :=
  ∀ state, Reaches (frameTurn opened.spare) ⟨opened.payload, [], []⟩ state →
    NextFrameFits opened.spare state

def PacketFits (packet : List UInt8) : Prop :=
  ∀ opened, openInitial protection packet = .ok opened → FramesFit opened

/-- The first half finishes, and panics exactly at a CRYPTO frame longer than the rest
of the buffer. -/
theorem initialFrames_stops (packet : List UInt8) :
    initialFrames protection packet ≠ .error .unfinished ∧
      (initialFrames protection packet = .error .panic ↔ ¬PacketFits protection packet) := by
  have loop : ∀ opened : Opened, _ := fun opened =>
    @iterate_stops _ _ _ (frameTurn opened.spare) ⟨opened.payload, [], []⟩
      (opened.payload.length + 1) (NextFrameFits opened.spare) (fun state => state.bytes.length)
      (fun _ _ fits => frameTurn_returns fits) (fun _ overrun => frameTurn_eq_panic overrun)
      (fun _ _ _ turned => length_of_frameTurn turned) (Nat.lt_succ_self _)
  have returns := openInitial_returns protection packet
  unfold initialFrames
  rw [ne_eq, returns.bind_eq_error_iff Stop.fatal_unfinished,
    returns.bind_eq_error_iff Stop.fatal_panic]
  constructor
  · rintro ⟨opened, -, unfinished⟩
    exact (loop opened).1 unfinished
  · simp only [PacketFits, not_forall, exists_prop]
    apply exists_congr
    intro opened
    apply and_congr_right
    intro _
    exact (loop opened).2

theorem initialFrames_result {protection : Protection} {frames : List UInt8 × List CryptoFragment}
    (returned : initialFrames protection packet = .ok frames) :
    frames.2.length ≤ packet.length ∧ (frames.1 = [] → frames.2 = []) := by
  obtain ⟨opened, isOpened, looped⟩ := Control.bind_eq_ok_iff.1 returned
  have size := (openInitial_returns protection packet).of_eq_ok isOpened
  obtain ⟨state, reached, last⟩ := reaches_of_iterate_eq_ok looped
  have counted : state.fragments.length + state.bytes.length ≤ opened.payload.length ∧
      (state.frameTypeList = [] → state.fragments = []) := by
    apply reached.invariant (fun state => state.fragments.length + state.bytes.length ≤
      opened.payload.length ∧ (state.frameTypeList = [] → state.fragments = []))
    · exact ⟨by simp, fun _ => rfl⟩
    · intro state next holds turned
      obtain ⟨frameType, bytes, frame, front, behind, rfl⟩ := frame_of_frameTurn turned
      have counted := holds.1
      obtain ⟨single, shorter⟩ := behind
      simp only [front, List.length_cons, List.length_append] at counted ⊢
      refine ⟨by omega, ?_⟩
      intro none
      simp at none
  have result : frames = (state.frameTypeList, state.fragments) := by
    unfold frameTurn at last
    split at last
    · cases last
      rfl
    · obtain ⟨frame, -, same⟩ := Control.bind_eq_ok_iff.1 last
      cases same
  rw [result]
  exact ⟨by dsimp only; omega, counted.2⟩

end SideraCore.Sniff
