import Mathlib

/-!
# 32-bit words

Unsigned words are natural numbers below `2 ^ 32` and signed ones integers; the operations that can
wrap say so.
-/

namespace Word

/-- Unsigned subtraction on 32-bit words. -/
def sub32 (a b : Nat) : Nat := (a + 2 ^ 32 - b) % 2 ^ 32

/-- Unsigned addition on 32-bit words. -/
def add32 (a b : Nat) : Nat := (a + b) % 2 ^ 32

/-- Reading of an unsigned word as a signed one. -/
def toSigned (a : Nat) : Int := if a < 2 ^ 31 then a else a - 2 ^ 32

/-- Reading of a signed word as an unsigned one. -/
def toUnsigned (a : Int) : Nat := (a % 2 ^ 32).toNat

theorem sub32_of_le {a b : Nat} (le : b ≤ a) (bound : a < 2 ^ 32) : sub32 a b = a - b := by
  rw [sub32, show a + 2 ^ 32 - b = (a - b) + 2 ^ 32 by omega, Nat.add_mod_right]
  exact Nat.mod_eq_of_lt (by omega)

theorem add32_of_lt {a b : Nat} (bound : a + b < 2 ^ 32) : add32 a b = a + b :=
  Nat.mod_eq_of_lt bound

theorem toSigned_of_lt {a : Nat} (bound : a < 2 ^ 31) : toSigned a = a := by
  rw [toSigned, if_pos bound]

theorem toSigned_le (a : Nat) : toSigned a ≤ a := by
  rw [toSigned]
  split <;> omega

theorem toUnsigned_natCast {a : Nat} (bound : a < 2 ^ 32) : toUnsigned a = a := by
  simp only [toUnsigned]
  omega

/-- Little-endian word at the head of four bytes. -/
def littleEndian (b0 b1 b2 b3 : UInt8) : Nat :=
  b0.toNat + 2 ^ 8 * b1.toNat + 2 ^ 16 * b2.toNat + 2 ^ 24 * b3.toNat

theorem littleEndian_lt (b0 b1 b2 b3 : UInt8) : littleEndian b0 b1 b2 b3 < 2 ^ 32 := by
  have := b0.toNat_lt
  have := b1.toNat_lt
  have := b2.toNat_lt
  have := b3.toNat_lt
  simp only [littleEndian]
  omega

/-- Replace byte `k` of a word. -/
def setByte (a k : Nat) (byte : UInt8) : Nat :=
  a / 256 ^ (k + 1) * 256 ^ (k + 1) + byte.toNat * 256 ^ k + a % 256 ^ k

theorem setByte_zero_of_lt {a : Nat} (small : a < 256) (byte : UInt8) :
    setByte a 0 byte = byte.toNat := by
  simp [setByte, Nat.div_eq_of_lt small, Nat.mod_one]

end Word
