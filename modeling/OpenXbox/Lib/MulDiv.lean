import Mathlib.Data.BitVec
import Mathlib.Tactic.Ring

/-!
# A product divided in two steps

The product of a word of 64 bits and one of 32 has 96 bits. It is divided by a word of 32 bits
in two steps, the upper part first. No sum on the way leaves 64 bits, and the result is the
quotient modulo 2^64.
-/

namespace OpenXbox.Lib.MulDiv

/-- The product of the lower half. -/
def lower (a : BitVec 64) (b : BitVec 32) : BitVec 64 := (a.setWidth 32).setWidth 64 * b.setWidth 64

/-- The product of the upper half, with what the lower one carries over. -/
def upper (a : BitVec 64) (b : BitVec 32) : BitVec 64 := (a >>> 32) * b.setWidth 64 + (lower a b >>> 32)

/-- What is divided in the second step: the rest of the first and the lower half. -/
def second (a : BitVec 64) (b c : BitVec 32) : BitVec 64 :=
  ((upper a b % c.setWidth 64) <<< 32) + (lower a b &&& 0xFFFFFFFF)

def mulDiv (a : BitVec 64) (b c : BitVec 32) : BitVec 64 :=
  (upper a b / c.setWidth 64).setWidth 32 ++ (second a b c / c.setWidth 64).setWidth 32

/-- Long division with two digits. -/
theorem div_two_digits (base high low : Nat) {c : Nat} (hc : 0 < c) :
    (high * base + low) / c = high / c * base + (high % c * base + low) / c := by
  have hsplit : high * base + low = c * (high / c * base) + (high % c * base + low) := by
    calc high * base + low = (c * (high / c) + high % c) * base + low := by rw [Nat.div_add_mod]
      _ = c * (high / c * base) + (high % c * base + low) := by ring
  rw [hsplit, Nat.mul_add_div hc]

/-- The upper digit loses what is beyond 64 bits. -/
theorem mod_two_digits {high low : Nat} (hlow : low < 2 ^ 32) :
    high % 2 ^ 32 * 2 ^ 32 + low = (high * 2 ^ 32 + low) % 2 ^ 64 := by
  omega

section Words

variable (a : BitVec 64) (b c : BitVec 32)

theorem toNat_wide : (b.setWidth 64).toNat = b.toNat := by
  rw [BitVec.toNat_setWidth, Nat.mod_eq_of_lt (b.isLt.trans (by decide))]

theorem toNat_lower : (lower a b).toNat = a.toNat % 2 ^ 32 * b.toNat := by
  have hlt : a.toNat % 2 ^ 32 * b.toNat < 2 ^ 64 :=
    calc a.toNat % 2 ^ 32 * b.toNat ≤ 2 ^ 32 * b.toNat :=
          Nat.mul_le_mul_right _ (Nat.mod_lt _ (by decide)).le
      _ < 2 ^ 32 * 2 ^ 32 := Nat.mul_lt_mul_of_pos_left b.isLt (by decide)
  rw [lower, BitVec.toNat_mul, toNat_wide, toNat_wide, BitVec.toNat_setWidth, Nat.mod_eq_of_lt hlt]

/-- The sum does not leave 64 bits. -/
theorem upper_fits : a.toNat / 2 ^ 32 * b.toNat + (lower a b).toNat / 2 ^ 32 < 2 ^ 64 := by
  have ha : a.toNat / 2 ^ 32 ≤ 2 ^ 32 - 1 := by have := a.isLt; omega
  have hprod : a.toNat / 2 ^ 32 * b.toNat ≤ (2 ^ 32 - 1) * (2 ^ 32 - 1) :=
    Nat.mul_le_mul ha (by have := b.isLt; omega)
  have hcarry := (lower a b).isLt
  omega

theorem toNat_upper :
    (upper a b).toNat = a.toNat / 2 ^ 32 * b.toNat + (lower a b).toNat / 2 ^ 32 := by
  have hfits := upper_fits a b
  rw [upper, BitVec.toNat_add, BitVec.toNat_mul, toNat_wide, BitVec.toNat_ushiftRight,
    BitVec.toNat_ushiftRight, Nat.shiftRight_eq_div_pow, Nat.shiftRight_eq_div_pow, Nat.mod_add_mod,
    Nat.mod_eq_of_lt hfits]

/-- The two halves are the digits of the product. -/
theorem digits : (upper a b).toNat * 2 ^ 32 + (lower a b).toNat % 2 ^ 32 = a.toNat * b.toNat := by
  rw [toNat_upper, Nat.add_mul, Nat.add_assoc, Nat.div_add_mod', toNat_lower]
  calc a.toNat / 2 ^ 32 * b.toNat * 2 ^ 32 + a.toNat % 2 ^ 32 * b.toNat
      = (a.toNat / 2 ^ 32 * 2 ^ 32 + a.toNat % 2 ^ 32) * b.toNat := by ring
    _ = a.toNat * b.toNat := by rw [Nat.div_add_mod']

variable {c} (hc : c ≠ 0)

include hc in
theorem toNat_pos : 0 < c.toNat := Nat.pos_of_ne_zero fun h => hc (BitVec.eq_of_toNat_eq h)

include hc in
/-- Neither does what is divided in the second step. -/
theorem toNat_second :
    (second a b c).toNat = (upper a b).toNat % c.toNat * 2 ^ 32 + (lower a b).toNat % 2 ^ 32 := by
  have hrest : (upper a b).toNat % c.toNat < 2 ^ 32 := (Nat.mod_lt _ (toNat_pos hc)).trans c.isLt
  rw [second, BitVec.toNat_add, BitVec.toNat_shiftLeft, BitVec.toNat_umod, toNat_wide, BitVec.toNat_and,
    show (0xFFFFFFFF : BitVec 64).toNat = 2 ^ 32 - 1 from rfl, Nat.and_two_pow_sub_one_eq_mod,
      Nat.shiftLeft_eq]
  omega

include hc in
/-- The second quotient is one digit. -/
theorem second_div_lt : (second a b c).toNat / c.toNat < 2 ^ 32 := by
  have hrest := Nat.mod_lt (upper a b).toNat (toNat_pos hc)
  have hlow := Nat.mod_lt (lower a b).toNat (show 0 < 2 ^ 32 by decide)
  rw [Nat.div_lt_iff_lt_mul (toNat_pos hc), toNat_second a b hc]
  calc (upper a b).toNat % c.toNat * 2 ^ 32 + (lower a b).toNat % 2 ^ 32
      < ((upper a b).toNat % c.toNat + 1) * 2 ^ 32 := by omega
    _ ≤ c.toNat * 2 ^ 32 := Nat.mul_le_mul_right _ hrest
    _ = 2 ^ 32 * c.toNat := Nat.mul_comm _ _

include hc in
theorem toNat_mulDiv : (mulDiv a b c).toNat = a.toNat * b.toNat / c.toNat % 2 ^ 64 := by
  have hdigit := second_div_lt a b hc
  have hquotient : a.toNat * b.toNat / c.toNat =
      (upper a b).toNat / c.toNat * 2 ^ 32 + (second a b c).toNat / c.toNat := by
    rw [← digits, div_two_digits _ _ _ (toNat_pos hc), toNat_second a b hc]
  rw [mulDiv, BitVec.toNat_append, BitVec.toNat_setWidth, BitVec.toNat_setWidth, BitVec.toNat_udiv,
    BitVec.toNat_udiv, toNat_wide, Nat.mod_eq_of_lt hdigit, hquotient,
    ← Nat.shiftLeft_add_eq_or_of_lt hdigit,
    Nat.shiftLeft_eq, mod_two_digits hdigit]

end Words

end OpenXbox.Lib.MulDiv
