import Mathlib

/-!
Owns the repair of the checksums of a packet that comes back through the bridge
(`fixReturnChecksum`): which packets it survives, and which bytes it writes.

The header library slices without a check. A slice may reach beyond the packet, up to
the end of the buffer that it was read into.
-/

namespace SideraCore.Bridge

structure Packet where
  cells : List UInt8
  length : Nat
  fits : length ≤ cells.length

structure Checksums where
  checksum : List UInt8 → UInt16 → UInt16
  combine : UInt16 → UInt16 → UInt16
  pseudoHeaderChecksum : (protocol : Nat) → (source destination : List UInt8) → UInt16 → UInt16

variable (cells : List UInt8) (position : Nat)

def byteAt : Nat := (cells.getD position 0).toNat

def wordAt : Nat :=
  byteAt cells position * 256 + byteAt cells (position + 1)

def setWord (value : UInt16) : List UInt8 :=
  (cells.set position (value >>> 8).toUInt8).set (position + 1) value.toUInt8

def range (low high : Nat) : List UInt8 := (cells.drop low).take (high - low)

def dataOffset (start : Nat) : Nat := byteAt cells (start + 12) / 16 * 4

def checksumOffset : (protocol : Nat) → Option Nat
  | 6 => some 16
  | 17 => some 6
  | 1 => some 2
  | 58 => some 2
  | _ => none

section Repair

variable (sums : Checksums)

def recomputeTransportChecksum (protocol start length : Nat) (source destination cells : List UInt8) :
    Option (List UInt8) :=
  let pseudo := sums.pseudoHeaderChecksum protocol source destination
  match protocol with
  | 6 =>
      if length < 20 then some cells
      else
        let cleared := setWord cells (start + 16) 0
        let offset := dataOffset cleared start
        if length < offset then none
        else
          let payload := sums.checksum (range cleared (start + offset) (start + length)) 0
          let partly := sums.combine (pseudo (.ofNat length)) payload
          some (setWord cleared (start + 16) (~~~sums.checksum (range cleared start (start + offset)) partly))
  | 17 =>
      if length < 8 then some cells
      else
        let cleared := setWord cells (start + 6) 0
        let payload := sums.checksum (range cleared (start + 8) (start + length)) 0
        let partly := sums.combine (pseudo (.ofNat (wordAt cleared (start + 4)))) payload
        let sum := ~~~sums.checksum (range cleared start (start + 8)) partly
        some (setWord cleared (start + 6) (if sum = 0 then 0xffff else sum))
  | 1 =>
      if length < 8 then some cells
      else
        let first := sums.checksum (range cells start (start + 2)) 0
        some (setWord cells (start + 2) (~~~sums.checksum (range cells (start + 4) (start + length)) first))
  | 58 =>
      if length < 8 then some cells
      else
        let first := sums.checksum (range cells start (start + 2)) (sums.combine (pseudo (.ofNat length)) 0)
        some (setWord cells (start + 2) (~~~sums.checksum (range cells (start + 4) (start + length)) first))
  | _ => some cells

variable (packet : Packet)

def Packet.version : Nat := if packet.length = 0 then 0 else byteAt packet.cells 0 / 16

/-- The protocol, start and length of the transport part of a packet that passes the
checks. -/
def Packet.transport : Option (Nat × Nat × Nat) :=
  match packet.version with
  | 4 =>
      let headerLength := byteAt packet.cells 0 % 16 * 4
      let totalLength := wordAt packet.cells 2
      let flags := wordAt packet.cells 6
      if packet.length < 20 then none
      -- `IsValid`
      else if headerLength < 20 ∨ totalLength < headerLength ∨ packet.length < totalLength then none
      else if flags / 2 ^ 13 % 2 = 1 ∨ flags * 8 % 2 ^ 16 ≠ 0 then none
      else some (byteAt packet.cells 9, headerLength, totalLength - headerLength)
  | 6 =>
      if packet.length < 40 then none else some (byteAt packet.cells 6, 40, wordAt packet.cells 4)
  | _ => none

def Packet.addresses : List UInt8 × List UInt8 :=
  if packet.version = 4 then (range packet.cells 12 16, range packet.cells 16 20)
  else (range packet.cells 8 24, range packet.cells 24 40)

def Packet.headed (start : Nat) : List UInt8 :=
  let cleared := setWord packet.cells 10 0
  if packet.version = 4 then setWord cleared 10 (~~~sums.checksum (range cleared 0 start) 0)
  else packet.cells

def fixReturnChecksum : Option (List UInt8) :=
  match packet.transport with
  | none => some packet.cells
  | some (protocol, start, length) =>
      -- `Payload` slices up to the end of the buffer.
      if packet.cells.length < start + length then none
      else
        recomputeTransportChecksum sums protocol start length packet.addresses.1 packet.addresses.2
          (packet.headed sums start)

end Repair

/-! ### What is survived and what is written -/

/-- The length fields stay inside the buffer and, for TCP, inside the transport part. -/
def Packet.LengthsFit (packet : Packet) : Prop :=
  ∀ protocol start length, packet.transport = some (protocol, start, length) →
    start + length ≤ packet.cells.length ∧
      (protocol = 6 → 20 ≤ length → dataOffset packet.cells start ≤ length)

def Packet.IsChecksum (packet : Packet) (position : Nat) : Prop :=
  (packet.version = 4 ∧ (position = 10 ∨ position = 11)) ∨
    ∃ protocol start length offset, packet.transport = some (protocol, start, length) ∧
      checksumOffset protocol = some offset ∧ (position = start + offset ∨ position = start + offset + 1)

section Proofs

variable {sums : Checksums} {cells source destination : List UInt8} {protocol start length position : Nat}

theorem getElem?_setWord {place : Nat} (value : UInt16) (first : position ≠ place) (second : position ≠ place + 1) :
    (setWord cells place value)[position]? = cells[position]? := by
  rw [setWord, List.getElem?_set_ne second.symm, List.getElem?_set_ne first.symm]

theorem dataOffset_congr {other : List UInt8} (same : other[start + 12]? = cells[start + 12]?) :
    dataOffset other start = dataOffset cells start := by
  simp only [dataOffset, byteAt, List.getD_eq_getElem?_getD, same]

theorem recomputeTransportChecksum_eq_none_iff :
    recomputeTransportChecksum sums protocol start length source destination cells = none ↔
      protocol = 6 ∧ 20 ≤ length ∧ length < dataOffset cells start := by
  have unmoved : dataOffset (setWord cells (start + 16) 0) start = dataOffset cells start :=
    dataOffset_congr (getElem?_setWord 0 (by omega) (by omega))
  unfold recomputeTransportChecksum
  split
  · by_cases short : length < 20
    · simp [short]
    · by_cases beyond : length < dataOffset cells start
      · simp [unmoved, short, beyond]
        omega
      · simp [unmoved, short, beyond]
  · split <;> simp
  · split <;> simp
  · split <;> simp
  · refine iff_of_false (Option.some_ne_none _) ?_
    rintro ⟨rfl, -, -⟩
    contradiction

theorem recomputeTransportChecksum_frame {fixed : List UInt8}
    (recomputed : recomputeTransportChecksum sums protocol start length source destination cells = some fixed)
    (other : ∀ offset, checksumOffset protocol = some offset →
      position ≠ start + offset ∧ position ≠ start + offset + 1) : fixed[position]? = cells[position]? := by
  unfold recomputeTransportChecksum at recomputed
  split at recomputed
  · obtain ⟨first, second⟩ := other 16 rfl
    simp only at recomputed
    split_ifs at recomputed <;> cases recomputed <;> simp [getElem?_setWord, first, second]
  · obtain ⟨first, second⟩ := other 6 rfl
    split_ifs at recomputed <;> cases recomputed <;> simp [getElem?_setWord, first, second]
  · obtain ⟨first, second⟩ := other 2 rfl
    split_ifs at recomputed <;> cases recomputed <;> simp [getElem?_setWord, first, second]
  · obtain ⟨first, second⟩ := other 2 rfl
    split_ifs at recomputed <;> cases recomputed <;> simp [getElem?_setWord, first, second]
  · cases recomputed
    rfl

variable {packet : Packet}

theorem Packet.headed_frame (other : packet.version = 4 → position ≠ 10 ∧ position ≠ 11) :
    (packet.headed sums start)[position]? = packet.cells[position]? := by
  unfold Packet.headed
  split_ifs with isFour
  · obtain ⟨first, second⟩ := other isFour
    rw [getElem?_setWord _ first second, getElem?_setWord _ first second]
  · rfl

/-- A packet is repaired, and only in its checksums, exactly if its lengths fit. -/
theorem fixReturnChecksum_returns_iff (sums : Checksums) (packet : Packet) :
    (∃ fixed, fixReturnChecksum sums packet = some fixed ∧
      ∀ position, ¬packet.IsChecksum position → fixed[position]? = packet.cells[position]?) ↔
    packet.LengthsFit := by
  unfold fixReturnChecksum Packet.LengthsFit
  cases found : packet.transport with
  | none => simp
  | some part =>
      obtain ⟨protocol, start, length⟩ := part
      have unmoved : dataOffset (packet.headed sums start) start = dataOffset packet.cells start :=
        dataOffset_congr (packet.headed_frame fun _ => by omega)
      have panics := @recomputeTransportChecksum_eq_none_iff sums (packet.headed sums start)
        packet.addresses.1 packet.addresses.2 protocol start length
      rw [unmoved] at panics
      dsimp only
      constructor
      · rintro ⟨fixed, repaired, -⟩ _ _ _ ⟨⟩
        split_ifs at repaired with outside
        refine ⟨by omega, fun isTcp long => ?_⟩
        by_contra beyond
        rw [panics.2 ⟨isTcp, long, by omega⟩] at repaired
        cases repaired
      · intro fits
        obtain ⟨inside, offset⟩ := fits protocol start length rfl
        have returns : ¬(protocol = 6 ∧ 20 ≤ length ∧ length < dataOffset packet.cells start) :=
          fun ⟨isTcp, long, beyond⟩ => Nat.not_lt.2 (offset isTcp long) beyond
        obtain ⟨fixed, repaired⟩ := Option.ne_none_iff_exists'.1 (mt panics.1 returns)
        rw [if_neg (by omega)]
        refine ⟨fixed, repaired, fun position other => ?_⟩
        obtain ⟨outsideHeader, outsideTransport⟩ := not_or.1 other
        rw [recomputeTransportChecksum_frame repaired, packet.headed_frame]
        · exact fun isFour => not_or.1 fun either => outsideHeader ⟨isFour, either⟩
        · exact fun place isField => not_or.1 fun either =>
            outsideTransport ⟨protocol, start, length, place, found, isField, either⟩

def shortTcp : Packet where
  cells := [0x45, 0, 0, 40, 0, 0, 0, 0, 64, 6] ++ List.replicate 22 0 ++ [0xf0] ++ List.replicate 7 0
  length := 40
  fits := by decide

theorem shortTcp_panics :
    fixReturnChecksum ⟨fun _ sum => sum, (· + ·), fun _ _ _ length => length⟩ shortTcp = none := by
  decide +kernel

end Proofs

end SideraCore.Bridge
