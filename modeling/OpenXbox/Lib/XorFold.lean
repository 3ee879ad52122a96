import Mathlib.Data.BitVec

/-!
# Folding a word by exclusive or

A word is cut into parts of one width, which are combined by exclusive or. A bit of the fold
is the parity of the bits of the word at its distance from the start of each part.
-/

namespace OpenXbox.Lib.XorFold

variable {w : Nat}

/-- The fold of the first parts. -/
def fold (width : Nat) : Nat → BitVec w → BitVec w
  | 0, _ => 0#w
  | parts + 1, v => (v.setWidth width).setWidth w ^^^ fold width parts (v >>> width)

/-- The parity of the bits at a place of the first parts. -/
def column (width : Nat) : Nat → BitVec w → Nat → Bool
  | 0, _, _ => false
  | parts + 1, v, j => v.getLsbD j ^^ column width parts v (j + width)

theorem column_ushiftRight (width parts : Nat) (v : BitVec w) (j : Nat) :
    column width parts (v >>> width) j = column width parts v (j + width) := by
  induction parts generalizing j with
  | zero => rfl
  | succ parts ih => rw [column, column, ih, BitVec.getLsbD_ushiftRight, Nat.add_comm width j]

theorem getLsbD_fold {j : Nat} (hj : j < w) (width parts : Nat) (v : BitVec w) :
    (fold width parts v).getLsbD j = (decide (j < width) && column width parts v j) := by
  induction parts generalizing v with
  | zero => rw [fold, column, BitVec.getLsbD_zero, Bool.and_false]
  | succ parts ih =>
    rw [fold, BitVec.getLsbD_xor, BitVec.getLsbD_setWidth, BitVec.getLsbD_setWidth, ih,
      column_ushiftRight, column, Bool.and_xor_distrib_left, decide_eq_true hj, Bool.true_and]

@[simp] theorem fold_zero (width parts : Nat) : fold width parts (0#w) = 0#w := by
  induction parts with
  | zero => rfl
  | succ parts ih => simp [fold, ih]

/-- A word of one part is its fold. -/
theorem fold_of_lt {width : Nat} {v : BitVec w} (h : v.toNat < 2 ^ width) (parts : Nat) :
    fold width (parts + 1) v = v := by
  have hrest : v >>> width = 0#w := by
    apply BitVec.eq_of_toNat_eq
    rw [BitVec.toNat_ushiftRight, Nat.shiftRight_eq_div_pow, Nat.div_eq_of_lt h, BitVec.toNat_ofNat,
      Nat.zero_mod]
  rw [fold, hrest, fold_zero, BitVec.xor_zero]
  apply BitVec.eq_of_toNat_eq
  rw [BitVec.toNat_setWidth, BitVec.toNat_setWidth, Nat.mod_eq_of_lt h, Nat.mod_eq_of_lt v.isLt]

/-- A part is cut out by the mask of its bits. -/
theorem and_mask {width : Nat} (h : width < w) (v : BitVec w) :
    v &&& ((1#w <<< width) - 1#w) = (v.setWidth width).setWidth w := by
  have hpow : 2 ^ width < 2 ^ w := Nat.pow_lt_pow_right (by decide) h
  have hone : 1 % 2 ^ w = 1 := Nat.mod_eq_of_lt (by have := Nat.two_pow_pos width; omega)
  have hbit : (1#w <<< width).toNat = 2 ^ width := by
    rw [BitVec.toNat_shiftLeft, BitVec.toNat_ofNat, hone, Nat.one_shiftLeft, Nat.mod_eq_of_lt hpow]
  have hmask : ((1#w <<< width) - 1#w).toNat = 2 ^ width - 1 := by
    have hpos := Nat.two_pow_pos width
    rw [BitVec.toNat_sub, hbit, BitVec.toNat_ofNat, hone,
      show 2 ^ w - 1 + 2 ^ width = 2 ^ width - 1 + 2 ^ w by omega,
      Nat.add_mod_right, Nat.mod_eq_of_lt (by omega)]
  apply BitVec.eq_of_toNat_eq
  rw [BitVec.toNat_and, hmask, Nat.and_two_pow_sub_one_eq_mod, BitVec.toNat_setWidth,
    BitVec.toNat_setWidth]
  exact (Nat.mod_eq_of_lt ((Nat.mod_lt _ (Nat.two_pow_pos _)).trans hpow)).symm

end OpenXbox.Lib.XorFold
