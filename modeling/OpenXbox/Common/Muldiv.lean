import OpenXbox.Nv2a.PtimerClock
import OpenXbox.Ohci.FrameRemaining

/-!
# The two copies of `Muldiv64`

The host controller and the timer of the graphics chip have the same function. Every product and sum
of it is the one of the numbers, so that the two halves put together are the quotient.
-/

namespace OpenXbox.Common.Muldiv

open OpenXbox.Lib.MulDiv

/-- `rl`, as a number. -/
def rl (a b : Nat) : Nat := a % 2 ^ 32 * b

/-- `rh`, with what `rl` carries over. -/
def rh (a b : Nat) : Nat := a / 2 ^ 32 * b + rl a b / 2 ^ 32

/-- What the lower half of the result is divided from. -/
def rest (a b c : Nat) : Nat := rh a b % c * 2 ^ 32 + rl a b % 2 ^ 32

/-- No product and no sum leaves 64 bits, and the second quotient is one half of the result. -/
structure Fits (a b c : Nat) : Prop where
  rl : rl a b < 2 ^ 64
  product : a / 2 ^ 32 * b < 2 ^ 64
  rh : rh a b < 2 ^ 64
  shifted : Muldiv.rh a b % c * 2 ^ 32 < 2 ^ 64
  rest : rest a b c < 2 ^ 64
  low : Muldiv.rest a b c / c < 2 ^ 32

section Words

variable (a : BitVec 64) (b : BitVec 32)

theorem toNat_lower_eq_rl : (lower a b).toNat = rl a.toNat b.toNat := toNat_lower a b

theorem toNat_upper_eq_rh : (upper a b).toNat = rh a.toNat b.toNat := by
  rw [toNat_upper, toNat_lower_eq_rl, rh]

theorem toNat_second_eq_rest {c : BitVec 32} (hc : c ≠ 0) :
    (second a b c).toNat = rest a.toNat b.toNat c.toNat := by
  rw [toNat_second a b hc, toNat_upper_eq_rh, toNat_lower_eq_rl, rest]

/-- The numbers are those of words. -/
theorem fits {c : BitVec 32} (hc : c ≠ 0) : Fits a.toNat b.toNat c.toNat := by
  have hrh : rh a.toNat b.toNat < 2 ^ 64 := by
    rw [← toNat_upper_eq_rh]
    exact (upper a b).isLt
  have hrest : rest a.toNat b.toNat c.toNat < 2 ^ 64 := by
    rw [← toNat_second_eq_rest a b hc]
    exact (second a b c).isLt
  refine ⟨?_, ?_, hrh, ?_, hrest, ?_⟩
  · rw [← toNat_lower_eq_rl]
    exact (lower a b).isLt
  · exact Nat.lt_of_le_of_lt (Nat.le_add_right _ _) hrh
  · exact Nat.lt_of_le_of_lt (Nat.le_add_right _ _) hrest
  · rw [← toNat_second_eq_rest a b hc]
    exact second_div_lt a b hc

end Words

/-- Both copies give the quotient modulo 2^64, and nothing overflows on the way. -/
theorem muldiv64_exact (a : BitVec 64) (b c : BitVec 32) (hc : c ≠ 0) :
    (Ohci.FrameTimer.muldiv64 a b c).toNat = a.toNat * b.toNat / c.toNat % 2 ^ 64 ∧
      Nv2a.Mmio.muldiv64 a b c = .ok (Ohci.FrameTimer.muldiv64 a b c) ∧
      Fits a.toNat b.toNat c.toNat := by
  refine ⟨?_, ?_, fits a b hc⟩
  · rw [Ohci.FrameRemaining.muldiv64_eq_mulDiv, toNat_mulDiv a b hc]
  · rw [Ohci.FrameRemaining.muldiv64_eq_mulDiv, Nv2a.PtimerClock.muldiv64_ok hc]

/-- All bits set: the quotient has 64 bits and those of the product 96. -/
theorem muldiv64_exact_max :
    (Ohci.FrameTimer.muldiv64 (BitVec.allOnes 64) (BitVec.allOnes 32) (BitVec.allOnes 32)).toNat =
      2 ^ 64 - 1 :=
  (muldiv64_exact (BitVec.allOnes 64) (BitVec.allOnes 32) (BitVec.allOnes 32) (by decide)).1

end OpenXbox.Common.Muldiv
