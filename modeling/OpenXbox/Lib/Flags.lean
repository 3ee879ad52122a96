import OpenXbox.Lib.Bits

/-!
# Flags of a register

A register is tested, set and cleared by masks.
-/

namespace OpenXbox.Lib.Flags

open OpenXbox.Lib.Bits

variable {w : Nat} {x y m k : BitVec w}

/-- Some bit of the mask is set. -/
def has (reg mask : BitVec w) : Bool := reg &&& mask != 0#w

theorem has_iff : has x m ↔ x &&& m ≠ 0#w := bne_iff_ne

theorem has_eq_false : has x m = false ↔ x &&& m = 0#w := by
  rw [← Bool.not_eq_true, has_iff, not_not]

@[simp] theorem has_zero : has 0#w m = false := has_eq_false.mpr BitVec.zero_and

theorem has_or (x y m : BitVec w) : has (x ||| y) m = (has x m || has y m) := by
  rw [Bool.eq_iff_iff, Bool.or_eq_true, has_iff, has_iff, has_iff, BitVec.and_or_distrib_right, Ne,
    BitVec.or_eq_zero_iff, not_and_or]

/-- Setting other flags does not matter. -/
theorem has_or_of_apart (h : y &&& m = 0#w) : has (x ||| y) m = has x m := by
  rw [has, has, or_and_of_apart h]

theorem has_or_of_has (h : has y m) : has (x ||| y) m := by
  rw [has_or, h, Bool.or_true]

/-- Neither does clearing others. -/
theorem has_clear_of_apart (h : y &&& m = 0#w) : has (x &&& ~~~y) m = has x m := by
  rw [has, has, and_not_and_of_apart h]

theorem has_clear_of_covered (h : ~~~y &&& m = 0#w) : has (x &&& ~~~y) m = false := by
  rw [has_eq_false, BitVec.and_assoc, h, BitVec.and_zero]

/-- A flag among those that a word is masked to. -/
theorem has_and_of_covered (h : k &&& m = m) : has (x &&& k) m = has x m := by
  rw [has, has, BitVec.and_assoc, h]

/-- A mask of one bit is kept whole or not at all. -/
theorem and_twoPow_of_has {i : Nat} (h : has x (BitVec.twoPow w i)) :
    x &&& BitVec.twoPow w i = BitVec.twoPow w i := by
  rw [has_iff, BitVec.and_twoPow] at h
  rw [BitVec.and_twoPow]
  split
  · rfl
  · next hno => exact absurd (if_neg hno) h

/-- A mask of one bit tests that bit. -/
theorem has_twoPow (x : BitVec w) (i : Nat) : has x (BitVec.twoPow w i) = x.getLsbD i := by
  rw [Bool.eq_iff_iff, has_iff, BitVec.and_twoPow]
  constructor
  · intro h
    by_contra hno
    exact h (if_neg hno)
  · intro h
    rw [if_pos h]
    intro hzero
    have hbit := congrArg (BitVec.getLsbD · i) hzero
    simp [BitVec.lt_of_getLsbD h] at hbit

/-- Clearing one flag or others. -/
theorem has_clear_twoPow (x y : BitVec w) (i : Nat) : has (x &&& ~~~y) (BitVec.twoPow w i) =
    (has x (BitVec.twoPow w i) && !has y (BitVec.twoPow w i)) := by
  rw [has_twoPow, has_twoPow, has_twoPow, BitVec.getLsbD_and, BitVec.getLsbD_not]
  cases hx : x.getLsbD i with
  | false => rfl
  | true => simp [BitVec.lt_of_getLsbD hx]

/-- Some flags have been set, and none of `k`. -/
def Raised (k x y : BitVec w) : Prop := ∃ m, m &&& k = 0#w ∧ y = x ||| m

theorem Raised.refl (k x : BitVec w) : Raised k x x := ⟨0#w, BitVec.zero_and, by simp⟩

theorem Raised.of_or (x : BitVec w) (h : m &&& k = 0#w) : Raised k x (x ||| m) := ⟨m, h, rfl⟩

theorem Raised.trans {z : BitVec w} (h : Raised k x y) (h' : Raised k y z) : Raised k x z := by
  rcases h with ⟨m, hm, rfl⟩
  rcases h' with ⟨n, hn, rfl⟩
  refine ⟨m ||| n, ?_, by rw [BitVec.or_assoc]⟩
  rw [BitVec.and_or_distrib_right, hm, hn, BitVec.or_zero]

theorem Raised.any (h : Raised k x y) : Raised 0#w x y := by
  rcases h with ⟨m, -, rfl⟩
  exact .of_or x BitVec.and_zero

theorem Raised.has_eq (h : Raised k x y) : has y k = has x k := by
  rcases h with ⟨m, hm, rfl⟩
  exact has_or_of_apart hm

theorem Raised.getLsbD (h : Raised k x y) {i : Nat} (hi : x.getLsbD i = true) : y.getLsbD i = true := by
  rcases h with ⟨m, -, rfl⟩
  rw [BitVec.getLsbD_or, hi, Bool.true_or]

theorem and_apart (h : k &&& m = 0#w) : (x &&& k) &&& m = 0#w := by
  rw [BitVec.and_assoc, h, BitVec.and_zero]

end OpenXbox.Lib.Flags
