import SideraCore.Data.Keystream

/-!
Owns the record headers of the encrypted connection (`EncodeHeader`,
`DecodeHeader`) and the connection that masks them (`xor.go`): the loop over what
is written, the loop over what is read, and that what is read is what was
written.

Both loops are compared with one that takes a single byte at a time, for which the ends
of the calls make no difference.
-/

namespace SideraCore.Vless

open Data

def maxRecordSize : Nat := 16640

def encodeHeader (length : Nat) : List UInt8 :=
  [23, 3, 3, .ofNat (length / 256), .ofNat length]

/-- `DecodeHeader`. The error shows the header. -/
def decodeHeader (header : List UInt8) : Except (List UInt8) Nat :=
  match header with
  | type :: major :: minor :: high :: low :: _ =>
      let length := 256 * high.toNat + low.toNat
      if type ≠ 23 ∨ major ≠ 3 ∨ minor ≠ 3 ∨ length < 17 ∨ maxRecordSize < length then
        .error (header.take 5)
      else .ok length
  | _ => .error header

/-- What is masked while it is sent and what is unmasked when it is received. -/
inductive Direction where
  | outbound
  | inbound
deriving DecidableEq, Repr

namespace Direction

/-- The readable one of the bytes that a loop is given and of the same bytes masked. -/
def clear {α : Type} : Direction → α → α → α
  | outbound, given, _ => given
  | inbound, _, masked => masked

theorem clear_self {α : Type} (direction : Direction) (same : α) : direction.clear same same = same := by
  cases direction <;> rfl

theorem length_clear (direction : Direction) (ctr : Keystream) (given : List UInt8) :
    (direction.clear given (ctr.xor given)).length = given.length := by
  cases direction with
  | outbound => rfl
  | inbound => exact ctr.length_xor given

end Direction

open Direction

/-- The skip count and the part of a header that an `XorConn` keeps for a direction. -/
structure Side where
  skip : Nat
  header : List UInt8
  short : header.length < 5

/-- A side with its stream. -/
structure Cursor extends Side where
  ctr : Keystream

structure XorConn where
  ctr : Option Keystream
  peerCTR : Option Keystream
  out : Side
  inward : Side

def newXorConn (ctr peerCTR : Option Keystream) (outSkip inSkip : Nat) : XorConn where
  ctr := ctr
  peerCTR := peerCTR
  out := ⟨outSkip, [], by decide⟩
  inward := ⟨inSkip, [], by decide⟩

/-- The skip count after a header; a header that cannot be decoded skips nothing. -/
def skipAfter (header : List UInt8) : Nat := (decodeHeader header).toOption.getD 0

namespace Cursor

/-- The loop of `Write` and of `Read`: what it leaves of the fields, and what becomes of
the bytes. -/
def loop (direction : Direction) (cursor : Cursor) (remaining : List UInt8) : Cursor × List UInt8 :=
  if remaining.length ≤ cursor.skip then
    ({ cursor with skip := cursor.skip - remaining.length }, remaining)
  else
    let rest := remaining.drop cursor.skip
    let need := 5 - cursor.header.length
    if few : rest.length < need then
      let masked := cursor.ctr.xor rest
      (⟨⟨0, cursor.header ++ direction.clear rest masked, by
          rw [List.length_append, length_clear]; omega⟩, cursor.ctr.advance rest.length⟩,
        remaining.take cursor.skip ++ masked)
    else
      let masked := cursor.ctr.xor (rest.take need)
      let next := ⟨⟨skipAfter (cursor.header ++ direction.clear (rest.take need) masked), [], by decide⟩,
        cursor.ctr.advance need⟩
      let (after, passed) := loop direction next (rest.drop need)
      (after, remaining.take cursor.skip ++ (masked ++ passed))
termination_by remaining.length
decreasing_by
  have := cursor.short
  simp only [List.length_drop]
  omega

end Cursor

namespace XorConn

def write (conn : XorConn) (b : List UInt8) : Except String (XorConn × List UInt8) :=
  if b = [] then .ok (conn, [])
  else
    match conn.ctr with
    | none => .error "xray encryption: missing outbound XOR stream"
    | some ctr =>
        let (after, sent) := Cursor.loop .outbound { conn.out with ctr } b
        .ok ({ conn with ctr := after.ctr, out := after.toSide }, sent)

/-- `Read`, when the underlying connection has read some bytes. Without a stream the
loop can only skip. -/
def read (conn : XorConn) (b : List UInt8) : Except String (XorConn × List UInt8) :=
  match conn.peerCTR with
  | some ctr =>
      let (after, received) := Cursor.loop .inbound { conn.inward with ctr } b
      .ok ({ conn with peerCTR := after.ctr, inward := after.toSide }, received)
  | none =>
      if b.length ≤ conn.inward.skip then
        let inward := { conn.inward with skip := conn.inward.skip - b.length }
        .ok ({ conn with inward }, b)
      else .error "xray encryption: missing inbound XOR stream"

def calls (call : XorConn → List UInt8 → Except String (XorConn × List UInt8)) :
    XorConn → List (List UInt8) → Except String (XorConn × List UInt8)
  | conn, [] => .ok (conn, [])
  | conn, b :: later => do
      let (next, first) ← call conn b
      let (last, rest) ← calls call next later
      return (last, first ++ rest)

end XorConn

/-- What calls of some sizes read of a stream, each at most its size. -/
def segments : List Nat → List UInt8 → List (List UInt8)
  | [], _ => []
  | size :: later, stream => stream.take size :: segments later (stream.drop size)

theorem flatten_segments (sizes : List Nat) (stream : List UInt8) :
    (segments sizes stream).flatten = stream.take sizes.sum := by
  induction sizes generalizing stream with
  | nil => simp [segments]
  | cons size later ih =>
      rw [segments, List.flatten_cons, ih, List.sum_cons, List.take_add]

/-- The stream of some payloads, each after its header. -/
def records (payloads : List (List UInt8)) : List UInt8 :=
  payloads.flatMap fun payload => encodeHeader payload.length ++ payload

/-- The stream on the wire, with the records numbered from `start`: the header of record
`n` is masked from position `5 * n` on. -/
def maskedRecords (ctr : Keystream) (payloads : List (List UInt8)) (start : Nat) : List UInt8 :=
  (payloads.zipIdx start).flatMap fun record =>
    (ctr.advance (5 * record.2)).xor (encodeHeader record.1.length) ++ record.1

/-! ### One byte at a time -/

namespace Cursor

/-- The fields after bytes of a header, of which the readable form is given. -/
def fill (cursor : Cursor) (clear : List UInt8) : Cursor :=
  if few : cursor.header.length + clear.length < 5 then
    ⟨⟨0, cursor.header ++ clear, by simpa using few⟩, cursor.ctr.advance clear.length⟩
  else ⟨⟨skipAfter (cursor.header ++ clear), [], by decide⟩, cursor.ctr.advance clear.length⟩

def pass (direction : Direction) (cursor : Cursor) (byte : UInt8) : Cursor × UInt8 :=
  if 0 < cursor.skip then ({ cursor with skip := cursor.skip - 1 }, byte)
  else
    let masked := byte ^^^ cursor.ctr.byte cursor.ctr.position
    (cursor.fill [direction.clear byte masked], masked)

def passAll (direction : Direction) : Cursor → List UInt8 → Cursor × List UInt8
  | cursor, [] => (cursor, [])
  | cursor, byte :: rest =>
      let (next, first) := cursor.pass direction byte
      let (last, others) := passAll direction next rest
      (last, first :: others)

variable {direction : Direction}

theorem passAll_append (cursor : Cursor) (first second : List UInt8) :
    cursor.passAll direction (first ++ second) =
      let (next, passed) := cursor.passAll direction first
      let (last, others) := next.passAll direction second
      (last, passed ++ others) := by
  induction first generalizing cursor with
  | nil => rfl
  | cons byte rest ih =>
      simp only [List.cons_append, passAll, ih]

/-- The receiver undoes what the sender did, and ends in the same place. -/
theorem passAll_passAll (cursor : Cursor) (bytes : List UInt8) :
    cursor.passAll .inbound (cursor.passAll .outbound bytes).2 =
      ((cursor.passAll .outbound bytes).1, bytes) := by
  induction bytes generalizing cursor with
  | nil => rfl
  | cons byte rest ih =>
      by_cases skipping : 0 < cursor.skip
      · simp only [passAll, pass, if_pos skipping, ih]
      · simp only [passAll, pass, if_neg skipping, clear, UInt8.xor_assoc, UInt8.xor_self,
          UInt8.xor_zero, ih]

variable {cursor : Cursor} {bytes : List UInt8}

theorem passAll_of_skip (skipped : bytes.length ≤ cursor.skip) :
    cursor.passAll direction bytes = ({ cursor with skip := cursor.skip - bytes.length }, bytes) := by
  induction bytes generalizing cursor with
  | nil => rfl
  | cons byte rest ih =>
      rw [List.length_cons] at skipped
      have positive : 0 < cursor.skip := by omega
      have fewer : rest.length ≤ cursor.skip - 1 := by omega
      rw [passAll, pass, if_pos positive]
      simp only [@ih { cursor with skip := cursor.skip - 1 } fewer, List.length_cons]
      rw [Nat.sub_sub, Nat.add_comm 1]

theorem fill_append {first : List UInt8} (few : cursor.header.length + first.length < 5)
    (second : List UInt8) :
    cursor.fill (first ++ second) = (cursor.fill first).fill second := by
  simp only [fill, dif_pos few, List.length_append, List.append_assoc, Keystream.advance_advance,
    Nat.add_assoc]

theorem passAll_of_header {cursor : Cursor} {bytes : List UInt8} (unskipped : cursor.skip = 0)
    (fits : cursor.header.length + bytes.length ≤ 5) :
    cursor.passAll direction bytes =
      (cursor.fill (direction.clear bytes (cursor.ctr.xor bytes)), cursor.ctr.xor bytes) := by
  induction bytes generalizing cursor with
  | nil =>
      have few : cursor.header.length + ([] : List UInt8).length < 5 := cursor.short
      rw [Keystream.xor, clear_self, fill, dif_pos few, passAll]
      simp only [List.append_nil, ← unskipped]
      rfl
  | cons byte rest ih =>
      rw [List.length_cons] at fits
      rw [passAll, pass, if_neg (Nat.not_lt.2 (Nat.le_of_eq unskipped)), Keystream.xor]
      set masked := byte ^^^ cursor.ctr.byte cursor.ctr.position
      set first := direction.clear byte masked
      have split : direction.clear (byte :: rest) (masked :: (cursor.ctr.advance 1).xor rest) =
          [first] ++ direction.clear rest ((cursor.ctr.advance 1).xor rest) := by
        cases direction <;> rfl
      rw [split]
      cases rest with
      | nil =>
          rw [Keystream.xor, clear_self, List.append_nil]
          rfl
      | cons next others =>
          rw [List.length_cons] at fits
          have few : cursor.header.length + [first].length < 5 := by
            rw [List.length_singleton]
            omega
          have filled : cursor.fill [first] =
              ⟨⟨0, cursor.header ++ [first], by simpa using few⟩, cursor.ctr.advance 1⟩ := dif_pos few
          have later := @ih (cursor.fill [first]) (by rw [filled]) (by
            rw [filled]
            simp only [List.length_append, List.length_cons, List.length_nil]
            omega)
          have advanced : (cursor.fill [first]).ctr = cursor.ctr.advance 1 := by rw [filled]
          rw [advanced] at later
          rw [fill_append few]
          exact congrArg (fun result => (result.1, masked :: result.2)) later

theorem passAll_of_more (more : cursor.skip ≤ bytes.length) :
    cursor.passAll direction bytes =
      let (last, passed) := passAll direction { cursor with skip := 0 } (bytes.drop cursor.skip)
      (last, bytes.take cursor.skip ++ passed) := by
  have skipped : (bytes.take cursor.skip).length ≤ cursor.skip := List.length_take_le _ _
  conv_lhs => rw [← List.take_append_drop cursor.skip bytes, passAll_append, passAll_of_skip skipped]
  rw [List.length_take_of_le more, Nat.sub_self]

/-- The loop over the bytes of a call does what one byte after the other does. -/
theorem loop_eq_passAll (cursor : Cursor) (remaining : List UInt8) :
    cursor.loop direction remaining = cursor.passAll direction remaining := by
  induction cursor, remaining using loop.induct direction with
  | case1 cursor remaining skipped => rw [loop, if_pos skipped, passAll_of_skip skipped]
  | case2 cursor remaining more rest need few =>
      have header : cursor.header.length + rest.length < 5 := by omega
      have passed := @passAll_of_header direction { cursor with skip := 0 } rest rfl (Nat.le_of_lt header)
      rw [fill, dif_pos (by rw [length_clear]; exact header)] at passed
      rw [passAll_of_more (Nat.le_of_not_le more), passed, loop, if_neg more, dif_pos few]
      simp only [length_clear]
      rfl
  | case3 cursor remaining more rest need few masked next _ _ _ ih =>
      have enough : need ≤ rest.length := Nat.le_of_not_lt few
      have taken : (rest.take need).length = need := List.length_take_of_le enough
      have whole : cursor.header.length + (rest.take need).length = 5 := by
        have := cursor.short
        omega
      have passed := @passAll_of_header direction { cursor with skip := 0 } (rest.take need) rfl
        (Nat.le_of_eq whole)
      rw [fill, dif_neg (by rw [length_clear]; exact Nat.not_lt.2 (Nat.le_of_eq whole.symm))]
        at passed
      have parts := @passAll_append direction { cursor with skip := 0 } (rest.take need) (rest.drop need)
      rw [List.take_append_drop, passed] at parts
      rw [passAll_of_more (Nat.le_of_not_le more), parts, loop, if_neg more, dif_neg few]
      simp only [length_clear, taken]
      exact congrArg (fun result => (result.1, remaining.take cursor.skip ++ (masked ++ result.2)))
        ih

theorem length_passAll (cursor : Cursor) (bytes : List UInt8) :
    (cursor.passAll direction bytes).2.length = bytes.length := by
  induction bytes generalizing cursor with
  | nil => rfl
  | cons byte rest ih => simp only [passAll, List.length_cons, ih]

theorem take_passAll (cursor : Cursor) (bytes : List UInt8) (count : Nat) :
    (cursor.passAll direction bytes).2.take count = (cursor.passAll direction (bytes.take count)).2 := by
  induction bytes generalizing cursor count with
  | nil => simp [passAll]
  | cons byte rest ih =>
      cases count with
      | zero => rfl
      | succ count => simp only [passAll, List.take_succ_cons, ih]

theorem decodeHeader_encodeHeader {length : Nat} (least : 17 ≤ length) (most : length ≤ maxRecordSize) :
    decodeHeader (encodeHeader length) = .ok length := by
  unfold maxRecordSize at most
  have high : (UInt8.ofNat (length / 256)).toNat = length / 256 :=
    UInt8.toNat_ofNat_of_lt (by simp only [UInt8.size]; omega)
  have low : (UInt8.ofNat length).toNat = length % 256 := UInt8.toNat_ofNat'
  have whole : 256 * (length / 256) + length % 256 = length := Nat.div_add_mod length 256
  simp only [encodeHeader, decodeHeader, high, low, whole, ne_eq, not_true_eq_false, false_or, maxRecordSize]
  rw [if_neg (by omega)]

/-- Each header is masked with the next five bytes of the stream, and the payloads are
skipped. -/
theorem passAll_records {ctr : Keystream} (payloads : List (List UInt8))
    (sized : ∀ payload ∈ payloads, 17 ≤ payload.length ∧ payload.length ≤ maxRecordSize) (start : Nat) :
    (passAll .outbound ⟨⟨0, [], by decide⟩, ctr.advance (5 * start)⟩ (records payloads)).2 =
      maskedRecords ctr payloads start := by
  induction payloads generalizing start with
  | nil => rfl
  | cons payload rest ih =>
      obtain ⟨⟨least, most⟩, sizedRest⟩ := List.forall_mem_cons.1 sized
      have header := @passAll_of_header .outbound ⟨⟨0, [], by decide⟩, ctr.advance (5 * start)⟩
        (encodeHeader payload.length) rfl (Nat.le_refl 5)
      have skips : skipAfter (encodeHeader payload.length) = payload.length := by
        rw [skipAfter, decodeHeader_encodeHeader least most]
        rfl
      have filled : fill ⟨⟨0, [], by decide⟩, ctr.advance (5 * start)⟩ (encodeHeader payload.length) =
          ⟨⟨payload.length, [], by decide⟩, ctr.advance (5 * (start + 1))⟩ := by
        rw [fill, dif_neg (by simp [encodeHeader]), List.nil_append, skips, Keystream.advance_advance]
        rfl
      rw [clear, filled] at header
      have skipped := @passAll_of_skip .outbound ⟨⟨payload.length, [], by decide⟩, ctr.advance (5 * (start + 1))⟩
        payload (Nat.le_refl _)
      rw [Nat.sub_self] at skipped
      rw [records, List.flatMap_cons, passAll_append, passAll_append, header]
      simp only [skipped]
      exact congrArg _ (ih sizedRest (start + 1))

end Cursor

namespace XorConn

/-- Calls that each take their bytes one at a time take all bytes one at a time. -/
theorem calls_eq {call : XorConn → List UInt8 → Except String (XorConn × List UInt8)}
    {direction : Direction} {place : Cursor → XorConn}
    (single : ∀ cursor b, call (place cursor) b =
      .ok (place (cursor.passAll direction b).1, (cursor.passAll direction b).2))
    (cursor : Cursor) (parts : List (List UInt8)) :
    calls call (place cursor) parts =
      .ok (place (cursor.passAll direction parts.flatten).1, (cursor.passAll direction parts.flatten).2) := by
  induction parts generalizing cursor with
  | nil => rfl
  | cons b later ih =>
      rw [calls, single]
      simp only [bind, Except.bind, ih, List.flatten_cons, Cursor.passAll_append]
      rfl

theorem write_eq (peerCTR : Option Keystream) (inward : Side) (cursor : Cursor) (b : List UInt8) :
    write ⟨some cursor.ctr, peerCTR, cursor.toSide, inward⟩ b =
      .ok (⟨some (cursor.passAll .outbound b).1.ctr, peerCTR, (cursor.passAll .outbound b).1.toSide,
        inward⟩, (cursor.passAll .outbound b).2) := by
  by_cases empty : b = []
  · rw [empty]
    rfl
  · rw [write, if_neg empty]
    simp only [Cursor.loop_eq_passAll]

theorem read_eq (ctr : Option Keystream) (out : Side) (cursor : Cursor) (b : List UInt8) :
    read ⟨ctr, some cursor.ctr, out, cursor.toSide⟩ b =
      .ok (⟨ctr, some (cursor.passAll .inbound b).1.ctr, out, (cursor.passAll .inbound b).1.toSide⟩,
        (cursor.passAll .inbound b).2) := by
  simp only [read, Cursor.loop_eq_passAll]

/-- In whatever parts it is written and read: as much as has been read is what was
written, and a receiver that has read all of it stands where the sender stands. Of
records after the bytes to skip, exactly the headers are masked, each with five bytes of
its own. -/
theorem masking_transparent (keystream : Keystream) (skip : Nat) (ctr peerCTR : Option Keystream)
    (inSkip outSkip : Nat) (writes : List (List UInt8)) (sizes : List Nat) :
    ∃ sender wire receiver,
      calls write (newXorConn keystream peerCTR skip inSkip) writes = .ok (sender, wire) ∧
        wire.length = writes.flatten.length ∧
        calls read (newXorConn ctr keystream outSkip skip) (segments sizes wire) =
          .ok (receiver, writes.flatten.take sizes.sum) ∧
        (wire.length ≤ sizes.sum → receiver.peerCTR = sender.ctr ∧ receiver.inward = sender.out) ∧
        ∀ lead payloads, lead.length = skip →
          (∀ payload ∈ payloads, 17 ≤ payload.length ∧ payload.length ≤ maxRecordSize) →
          writes.flatten = lead ++ records payloads → wire = lead ++ maskedRecords keystream payloads 0 := by
  let start : Cursor := ⟨⟨skip, [], by decide⟩, keystream⟩
  have sent := calls_eq (write_eq peerCTR ⟨inSkip, [], by decide⟩) start writes
  have received := calls_eq (read_eq ctr ⟨outSkip, [], by decide⟩) start
    (segments sizes (start.passAll .outbound writes.flatten).2)
  rw [flatten_segments, Cursor.take_passAll, Cursor.passAll_passAll] at received
  refine ⟨_, _, _, sent, Cursor.length_passAll _ _, received, fun all => ?_, ?_⟩
  · rw [Cursor.length_passAll] at all
    rw [List.take_of_length_le all]
    exact ⟨rfl, rfl⟩
  · rintro lead payloads rfl sized whole
    have leads := @Cursor.passAll_of_skip .outbound start lead (Nat.le_refl _)
    rw [whole, Cursor.passAll_append, leads]
    simp only [start, Nat.sub_self]
    exact congrArg (lead ++ ·) (Cursor.passAll_records payloads sized 0)

/-- A byte to skip and one record, whose header is cut in two. -/
theorem masking_transparent_record :
    let keystream : Keystream := ⟨.ofNat, 7⟩
    let payload := List.replicate 17 (1 : UInt8)
    ∃ sender wire, calls write (newXorConn keystream none 1 0) [[9, 23, 3], [3, 0, 17] ++ payload] =
        .ok (sender, wire) ∧
      wire = 9 :: (keystream.xor (encodeHeader 17) ++ payload) := by
  intro keystream payload
  obtain ⟨sender, wire, -, sent, -, -, -, masked⟩ :=
    masking_transparent keystream 1 none none 0 0 [[9, 23, 3], [3, 0, 17] ++ payload] []
  exact ⟨sender, wire, sent, masked [9] [payload] rfl (by decide) (by decide)⟩

/-- However a stream is cut into calls, also within a header, they leave what one call for
all of it leaves, and pass the same bytes. -/
theorem calls_as_one (cursor : Cursor) (ctr : Option Keystream) (side : Side) (parts : List (List UInt8)) :
    calls write ⟨cursor.ctr, ctr, cursor.toSide, side⟩ parts =
        write ⟨cursor.ctr, ctr, cursor.toSide, side⟩ parts.flatten ∧
      calls read ⟨ctr, cursor.ctr, side, cursor.toSide⟩ parts =
        read ⟨ctr, cursor.ctr, side, cursor.toSide⟩ parts.flatten := by
  rw [write_eq, read_eq]
  exact ⟨calls_eq (write_eq ctr side) cursor parts, calls_eq (read_eq ctr side) cursor parts⟩

end XorConn

end SideraCore.Vless
