import SideraCore.Concurrency.Machine

/-!
Owns the reading side of a gRPC-lite connection (`GunConn.read`): the messages of a
peer that chooses their lengths, and which lengths the reader survives.

An `int` has 64 bits. The buffered reader is the list of the bytes to come; how many
of them arrive during a call is up to the transport.
-/

namespace SideraCore.Transport

structure GunConn where
  /-- The error of `setup`; a connection without one has its reader. -/
  err : Option String
  reader : List UInt8
  readRemaining : Int
deriving DecidableEq

/-- The length of the buffer, and how many bytes arrive before the transport ends, fails
or leaves it at that. -/
structure ReadCall where
  size : Nat
  arrives : Nat

/-- A transport that fails behind the header shows as `data` without bytes. -/
inductive ReadOutcome where
  | data (bytes : List UInt8)
  | error
  | panic
deriving DecidableEq

def maxVarintLen64 : Nat := 10

/-- `binary.ReadUvarint`, with `turns` bytes left to take: nothing if the number is cut
off or overflows. -/
def readUvarint : (turns : Nat) → (value shift : UInt64) → List UInt8 → Option UInt64 × List UInt8
  | 0, _, _, rest => (none, rest)
  | _ + 1, _, _, [] => (none, [])
  | turns + 1, value, shift, byte :: rest =>
      if byte < 0x80 then
        if turns = 0 ∧ 1 < byte then (none, rest) else (some (value ||| byte.toUInt64 <<< shift), rest)
      else readUvarint turns (value ||| (byte &&& 0x7f).toUInt64 <<< shift) (shift + 7) rest

/-- `Discard(6)` and the length: the length, if both succeed, and the bytes behind. -/
def readHeader (arrived : List UInt8) : Option UInt64 × List UInt8 :=
  if arrived.length < 6 then (none, []) else readUvarint maxVarintLen64 0 0 (arrived.drop 6)

namespace GunConn

/-- A connection with a reader for the stream, or one whose `setup` has failed. -/
def connect (err : Option String) (stream : List UInt8) : GunConn := ⟨err, stream, 0⟩

/-- How both branches of `read` end: the buffer is cut to what remains of the message
and filled. -/
def fill (conn : GunConn) (size : Nat) (arrived later : List UInt8) : ReadOutcome × GunConn :=
  if conn.readRemaining < size ∧ conn.readRemaining < 0 then
    (.panic, { conn with reader := arrived ++ later })
  else
    let data := arrived.take (min size conn.readRemaining.toNat)
    (.data data, { conn with
      reader := arrived.drop data.length ++ later, readRemaining := conn.readRemaining - data.length })

def read (conn : GunConn) (call : ReadCall) : ReadOutcome × GunConn :=
  let arrived := conn.reader.take call.arrives
  let later := conn.reader.drop call.arrives
  if conn.err.isSome then (.error, conn)
  else if 0 < conn.readRemaining then conn.fill call.size arrived later
  else
    match readHeader arrived with
    | (none, rest) => (.error, { conn with reader := rest ++ later })
    | (some dataLen, rest) =>
        { conn with readRemaining := dataLen.toInt64.toInt }.fill call.size rest later

/-- Calls of `Read` one after the other; nothing follows a panic. -/
def machine : Concurrency.Machine GunConn ReadCall where
  step conn call := if (conn.read call).1 = .panic then none else some (conn.read call).2

/-! ### Messages and their ends -/

/-- The length of the message that the call begins. -/
def announced (conn : GunConn) (call : ReadCall) : Option UInt64 :=
  if conn.err.isSome ∨ 0 < conn.readRemaining then none
  else (readHeader (conn.reader.take call.arrives)).1

/-- How much is left of the message that the call reads from. -/
def messageLeft (conn : GunConn) (call : ReadCall) : Nat :=
  match conn.announced call with
  | some length => length.toNat
  | none => conn.readRemaining.toNat

/-- The call returns bytes of its message only, and what remains is what it has not
returned. -/
def ReadsInside (conn : GunConn) (call : ReadCall) : Prop :=
  match conn.read call with
  | (.panic, _) => False
  | (.error, after) => 0 ≤ after.readRemaining
  | (.data bytes, after) =>
      bytes.length ≤ conn.messageLeft call ∧ after.readRemaining = conn.messageLeft call - bytes.length

/-- The message that the call begins is no longer than an `int` can say. -/
def LengthFits (conn : GunConn) (call : ReadCall) : Prop :=
  ∀ length, conn.announced call = some length → length.toNat < 2 ^ 63

variable {conn : GunConn} {call : ReadCall} {size : Nat} {arrived later : List UInt8}

theorem toInt_toInt64 (length : UInt64) :
    length.toInt64.toInt = if length.toNat < 2 ^ 63 then (length.toNat : Int) else length.toNat - 2 ^ 64 := by
  have value : length.toInt64.toInt = length.toBitVec.toInt := rfl
  rw [value, BitVec.toInt_eq_toNat_cond, UInt64.toNat_toBitVec]
  split_ifs <;> omega

theorem fill_of_nonneg (nonneg : 0 ≤ conn.readRemaining) :
    ∃ data rest, conn.fill size arrived later =
      (.data data, ⟨conn.err, rest, conn.readRemaining - data.length⟩) ∧
        (data.length : Int) ≤ conn.readRemaining := by
  refine ⟨_, _, if_neg (by omega), ?_⟩
  rw [List.length_take]
  omega

theorem fill_of_neg (negative : conn.readRemaining < 0) :
    conn.fill size arrived later = (.panic, { conn with reader := arrived ++ later }) :=
  if_pos ⟨by omega, negative⟩

theorem readsInside_iff (nonneg : 0 ≤ conn.readRemaining) : conn.ReadsInside call ↔ conn.LengthFits call := by
  unfold ReadsInside LengthFits messageLeft announced read
  by_cases failed : conn.err.isSome
  · simp [failed, nonneg]
  by_cases inside : 0 < conn.readRemaining
  · obtain ⟨data, rest, filled, short⟩ :=
      @fill_of_nonneg conn call.size (conn.reader.take call.arrives) (conn.reader.drop call.arrives) nonneg
    simp [failed, inside, filled, nonneg]
    omega
  cases found : readHeader (conn.reader.take call.arrives) with
  | mk announced rest =>
      cases announced with
      | none => simp [failed, inside, found, nonneg]
      | some length =>
          simp only [failed, inside, found, Bool.false_eq_true, if_false, or_self, Option.some.injEq,
            forall_eq']
          by_cases fits : length.toNat < 2 ^ 63
          · have value := toInt_toInt64 length
            obtain ⟨data, next, filled, short⟩ := @fill_of_nonneg
              { conn with readRemaining := length.toInt64.toInt } call.size rest
              (conn.reader.drop call.arrives) (by simp only; omega)
            rw [filled]
            simp only [value, fits, iff_true] at short ⊢
            omega
          · have negative : length.toInt64.toInt < 0 := by
              have below := length.toNat_lt
              rw [toInt_toInt64, if_neg fits]
              omega
            rw [@fill_of_neg { conn with readRemaining := length.toInt64.toInt } _ _ _ negative]
            exact iff_of_false id fits

theorem ReadsInside.nonneg {after : GunConn} (inside : conn.ReadsInside call)
    (stepped : machine.step conn call = some after) : 0 ≤ after.readRemaining := by
  obtain ⟨-, same⟩ := Option.ite_none_left_eq_some.1 stepped
  cases same
  unfold ReadsInside at inside
  generalize conn.read call = result at inside
  obtain ⟨outcome, after⟩ := result
  cases outcome with
  | panic => exact inside.elim
  | error => exact inside
  | data bytes =>
      simp only
      omega

/-- All calls of `Read` return without a panic, with bytes of their message only,
exactly if none of them begins a message of `2 ^ 63` bytes or more. -/
theorem reads_inside_iff (err : Option String) (stream : List UInt8) (calls : List ReadCall) :
    machine.Meets ReadsInside (connect err stream) calls ↔
      machine.Meets LengthFits (connect err stream) calls := by
  refine Concurrency.Machine.meets_iff (fun conn call => readsInside_iff) ?_ (le_refl (0 : Int))
  intro before call after stepped fits nonneg
  exact ((readsInside_iff nonneg).2 fits).nonneg stepped

/-- A length of ten bytes, and a `Read` into an empty buffer. -/
theorem oversized_read_panics :
    (connect none (List.replicate 15 0xff ++ [1])).read ⟨0, 16⟩ = (.panic, ⟨none, [], -1⟩) := by
  decide +kernel

end GunConn

end SideraCore.Transport
