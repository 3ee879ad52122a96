import Mathlib.Algebra.Group.Nat.Defs

/-!
# Natural numbers as 32-bit words

Unsigned 32-bit arithmetic of the source on naturals: a result that may leave
the word is wrapped by `u32`.
-/

namespace OpenXbox.Lib

/-- The word a natural number wraps to. -/
def u32 (n : Nat) : Nat := n % 2 ^ 32

theorem u32_of_lt {n : Nat} (h : n < 2 ^ 32) : u32 n = n := Nat.mod_eq_of_lt h

/-- Subtraction of two words, wrapping below zero. -/
def sub32 (a b : Nat) : Nat := u32 (a + (2 ^ 32 - b))

theorem sub32_of_le {a b : Nat} (h : b ≤ a) (ha : a < 2 ^ 32) : sub32 a b = a - b := by
  unfold sub32 u32
  omega

end OpenXbox.Lib
