import Mathlib

/-!
Owns stream ciphers: a keystream that is read from one position on, and the bytes
that are masked with it.
-/

namespace SideraCore.Data

/-- A keystream, and how much of it has been used. -/
structure Keystream where
  byte : Nat → UInt8
  position : Nat

namespace Keystream

def advance (stream : Keystream) (count : Nat) : Keystream :=
  { stream with position := stream.position + count }

def xor (stream : Keystream) : List UInt8 → List UInt8
  | [] => []
  | byte :: rest => (byte ^^^ stream.byte stream.position) :: xor (stream.advance 1) rest

variable (stream : Keystream)

theorem advance_advance (first second : Nat) :
    (stream.advance first).advance second = stream.advance (first + second) := by
  simp only [advance, Nat.add_assoc]

@[simp] theorem length_xor (bytes : List UInt8) : (stream.xor bytes).length = bytes.length := by
  induction bytes generalizing stream with
  | nil => rfl
  | cons byte rest ih => simp only [xor, List.length_cons, ih]

end Keystream

end SideraCore.Data
