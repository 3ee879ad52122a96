import Mathlib.Data.BitVec

/-!
# Words bit by bit

A 32-bit word is compared bit by bit. The masks and shifts of the modelled code
are described by the positions they keep.
-/

namespace OpenXbox.Lib.Bits

/-- The word of four bytes, least significant first. -/
def le32 (b0 b1 b2 b3 : BitVec 8) : BitVec 32 := b3 ++ b2 ++ b1 ++ b0

/-- The bytes of a list of words, least significant first. -/
def leBytes (words : List (BitVec 32)) (i : Nat) : BitVec 8 :=
  (words.getD (i / 4) 0 >>> (8 * (i % 4))).setWidth 8

/-- Equality of words from equality of their 32 bits. -/
theorem ext32 {x y : BitVec 32} (h : ∀ i, i < 32 → x.getLsbD i = y.getLsbD i) : x = y :=
  BitVec.eq_of_getLsbD_eq h

/-- The four bytes of a word make up the word. -/
theorem le32_leBytes (words : List (BitVec 32)) (k : Nat) :
    le32 (leBytes words (4 * k)) (leBytes words (4 * k + 1)) (leBytes words (4 * k + 2))
      (leBytes words (4 * k + 3)) = words.getD k 0 := by
  have hbyte (j : Nat) (hj : j < 4) :
      leBytes words (4 * k + j) = (words.getD k 0 >>> (8 * j)).setWidth 8 := by
    rw [leBytes, show (4 * k + j) / 4 = k by omega, show (4 * k + j) % 4 = j by omega]
  have h0 := hbyte 0 (by decide)
  rw [Nat.add_zero] at h0
  rw [h0, hbyte 1 (by decide), hbyte 2 (by decide), hbyte 3 (by decide)]
  apply ext32
  intro i hi
  simp only [le32, BitVec.getLsbD_append, BitVec.getLsbD_setWidth, BitVec.getLsbD_ushiftRight]
  split
  · next h => simp [show i < 8 by omega]
  split
  · next h => simp [show i - 8 < 8 by omega, show 8 + (i - 8) = i by omega]
  split
  · next h => simp [show i - 8 - 8 < 8 by omega, show 16 + (i - 8 - 8) = i by omega]
  · next h => simp [show i - 8 - 8 - 8 < 8 by omega, show 24 + (i - 8 - 8 - 8) = i by omega]

/-- The mask of the `k` low bits. -/
def lowMask (k : Nat) : BitVec 32 := BitVec.ofNat 32 (2 ^ k - 1)

theorem getLsbD_lowMask {k i : Nat} (hi : i < 32) : (lowMask k).getLsbD i = decide (i < k) := by
  rw [lowMask, BitVec.getLsbD_ofNat, Nat.testBit_two_pow_sub_one]
  simp only [hi, decide_true, Bool.true_and]

theorem and_lowMask_eq_zero_iff {x : BitVec 32} {k : Nat} (hk : k ≤ 32) :
    x &&& lowMask k = 0 ↔ ∀ i, i < k → x.getLsbD i = false := by
  refine ⟨fun h i hi => ?_, fun h => ext32 fun i hi => ?_⟩
  · have hb := congrArg (fun y => y.getLsbD i) h
    simp only [BitVec.getLsbD_and, getLsbD_lowMask (show i < 32 by omega), hi, decide_true,
      Bool.and_true] at hb
    rw [hb]
    exact BitVec.getLsbD_zero
  · rw [BitVec.getLsbD_and, getLsbD_lowMask hi]
    by_cases hik : i < k
    · rw [h i hik, Bool.false_and]
      exact BitVec.getLsbD_zero.symm
    · rw [decide_eq_false hik, Bool.and_false]
      exact BitVec.getLsbD_zero.symm

/-- Words with no set bit in common add without a carry. -/
theorem add_eq_or_of_disjoint {x y : BitVec 32}
    (h : ∀ i, i < 32 → x.getLsbD i = true → y.getLsbD i = false) : x + y = x ||| y := by
  apply BitVec.add_eq_or_of_and_eq_zero
  apply ext32
  intro i hi
  rw [BitVec.getLsbD_and]
  cases hx : x.getLsbD i with
  | false => simp
  | true => simp [h i hi hx]

/-- The low bits of a word, as a number. -/
theorem toNat_and_lowMask (x : BitVec 32) {k : Nat} (hk : k ≤ 32) :
    (x &&& lowMask k).toNat = x.toNat % 2 ^ k := by
  have hmask : (lowMask k).toNat = 2 ^ k - 1 := by
    rw [lowMask, BitVec.toNat_ofNat, Nat.mod_eq_of_lt]
    have hle : 2 ^ k ≤ 2 ^ 32 := Nat.pow_le_pow_right (by decide) hk
    have hpos := Nat.two_pow_pos k
    omega
  rw [BitVec.toNat_and, hmask, Nat.and_two_pow_sub_one_eq_mod]

/-- The other bits of a word, as a number. -/
theorem toNat_and_not_lowMask (x : BitVec 32) (k : Nat) :
    (x &&& ~~~lowMask k).toNat = x.toNat / 2 ^ k * 2 ^ k := by
  have hshift : x &&& ~~~lowMask k = (x >>> k) <<< k := by
    apply ext32
    intro i hi
    rw [BitVec.getLsbD_and, BitVec.getLsbD_not, getLsbD_lowMask hi, BitVec.getLsbD_shiftLeft,
      BitVec.getLsbD_ushiftRight]
    by_cases hik : i < k
    · simp [hik]
    · simp [hik, hi, show k + (i - k) = i by omega]
  rw [hshift, BitVec.toNat_shiftLeft, BitVec.toNat_ushiftRight, Nat.shiftRight_eq_div_pow,
    Nat.shiftLeft_eq, Nat.mod_eq_of_lt]
  exact (Nat.div_mul_le_self _ _).trans_lt x.isLt

theorem and_not_lowMask_eq_iff (x y : BitVec 32) (k : Nat) :
    x &&& ~~~lowMask k = y &&& ~~~lowMask k ↔ x.toNat / 2 ^ k = y.toNat / 2 ^ k := by
  rw [← BitVec.toNat_inj, toNat_and_not_lowMask, toNat_and_not_lowMask]
  exact ⟨Nat.eq_of_mul_eq_mul_right (Nat.two_pow_pos k), fun h => by rw [h]⟩

/-- The upper bits of one word with the lower bits of another. -/
theorem toNat_or_lowMask (x y : BitVec 32) {k : Nat} (hk : k ≤ 32) :
    ((x &&& ~~~lowMask k) ||| (y &&& lowMask k)).toNat =
      x.toNat / 2 ^ k * 2 ^ k + y.toNat % 2 ^ k := by
  have hsum : (x &&& ~~~lowMask k) + (y &&& lowMask k) = (x &&& ~~~lowMask k) ||| (y &&& lowMask k) := by
    apply add_eq_or_of_disjoint
    intro i hi hx
    rw [BitVec.getLsbD_and, BitVec.getLsbD_not, getLsbD_lowMask hi] at hx
    rw [BitVec.getLsbD_and, getLsbD_lowMask hi]
    by_cases hik : i < k
    · simp [hik] at hx
    · simp [hik]
  rw [← hsum, BitVec.toNat_add, toNat_and_not_lowMask, toNat_and_lowMask y hk, Nat.mod_eq_of_lt]
  have hpow : 2 ^ (32 - k) * 2 ^ k = 2 ^ 32 := by rw [← Nat.pow_add, Nat.sub_add_cancel hk]
  have hdiv : x.toNat / 2 ^ k + 1 ≤ 2 ^ (32 - k) := by
    rw [Nat.add_one_le_iff, Nat.div_lt_iff_lt_mul (Nat.two_pow_pos k), hpow]
    exact x.isLt
  have hmod := Nat.mod_lt y.toNat (Nat.two_pow_pos k)
  calc x.toNat / 2 ^ k * 2 ^ k + y.toNat % 2 ^ k
      < (x.toNat / 2 ^ k + 1) * 2 ^ k := by rw [Nat.add_mul, Nat.one_mul]; omega
    _ ≤ 2 ^ (32 - k) * 2 ^ k := Nat.mul_le_mul_right _ hdiv
    _ = 2 ^ 32 := hpow

/-- The mask of the bits from `lo` up to `hi`. -/
def midMask (w lo hi : Nat) : BitVec w := BitVec.ofNat w (2 ^ hi - 2 ^ lo)

theorem getLsbD_midMask {w lo hi i : Nat} (hlo : lo ≤ hi) (hi' : i < w) :
    (midMask w lo hi).getLsbD i = (decide (i < hi) && !decide (i < lo)) := by
  have hpos := Nat.two_pow_pos lo
  have hlt : 2 ^ lo - 1 < 2 ^ hi := by
    have hle : 2 ^ lo ≤ 2 ^ hi := Nat.pow_le_pow_right (by decide) hlo
    omega
  have hsucc : 2 ^ hi - 2 ^ lo = 2 ^ hi - (2 ^ lo - 1 + 1) := by rw [Nat.sub_add_cancel hpos]
  rw [midMask, BitVec.getLsbD_ofNat, hsucc, Nat.testBit_two_pow_sub_succ hlt,
    Nat.testBit_two_pow_sub_one, decide_eq_true hi', Bool.true_and]

/-- A word that the mask leaves alone is a multiple of one power and below another. -/
theorem and_midMask_eq_self_iff {w : Nat} (lo hi : Nat) {x : BitVec w} (hlo : lo ≤ hi) :
    x &&& midMask w lo hi = x ↔ x.toNat < 2 ^ hi ∧ 2 ^ lo ∣ x.toNat := by
  have hbits : x &&& midMask w lo hi = x ↔ ∀ i, x.getLsbD i = true → i < hi ∧ lo ≤ i := by
    constructor
    · intro h i hx
      have hbit := congrArg (fun y => y.getLsbD i) h
      have hlt : i < w := BitVec.lt_of_getLsbD hx
      rw [BitVec.getLsbD_and, hx, getLsbD_midMask hlo hlt] at hbit
      simpa using hbit
    · intro h
      apply BitVec.eq_of_getLsbD_eq
      intro i hlt
      rw [BitVec.getLsbD_and, getLsbD_midMask hlo hlt]
      cases hx : x.getLsbD i with
      | false => rfl
      | true => simp [h i hx]
  rw [hbits]
  constructor
  · intro h
    refine ⟨Nat.lt_pow_two_of_testBit _ fun i hi' => ?_, Nat.dvd_of_mod_eq_zero ?_⟩
    · rw [BitVec.testBit_toNat, Bool.eq_false_iff]
      exact fun hx => Nat.not_lt.mpr hi' (h i hx).1
    · refine Nat.eq_of_testBit_eq fun i => ?_
      rw [Nat.testBit_mod_two_pow, BitVec.testBit_toNat, Nat.zero_testBit]
      by_cases hlt : i < lo
      · rw [Bool.eq_false_iff.mpr fun hx => Nat.not_lt.mpr (h i hx).2 hlt, Bool.and_false]
      · rw [decide_eq_false hlt, Bool.false_and]
  · rintro ⟨hbound, hdvd⟩ i hx
    rw [← BitVec.testBit_toNat] at hx
    constructor
    · by_contra hge
      rw [Nat.testBit_lt_two_pow (hbound.trans_le (Nat.pow_le_pow_right (by decide) (Nat.le_of_not_lt hge)))]
        at hx
      cases hx
    · by_contra hlt
      obtain ⟨q, hq⟩ := hdvd
      rw [hq, Nat.testBit_two_pow_mul, decide_eq_false (by omega), Bool.false_and] at hx
      cases hx

/-! ## Fields that do not overlap -/

section Apart

variable {w : Nat} {x y m : BitVec w}

theorem getLsbD_apart (h : y &&& m = 0#w) (i : Nat) : y.getLsbD i = false ∨ m.getLsbD i = false := by
  have hbit := congrArg (fun z => z.getLsbD i) h
  rw [BitVec.getLsbD_and, BitVec.getLsbD_zero, Bool.and_eq_false_iff] at hbit
  exact hbit

/-- Setting bits outside a field leaves the field as it is. -/
theorem or_and_of_apart (h : y &&& m = 0#w) : (x ||| y) &&& m = x &&& m := by
  apply BitVec.eq_of_getLsbD_eq
  intro i _
  rw [BitVec.getLsbD_and, BitVec.getLsbD_or, BitVec.getLsbD_and]
  obtain hy | hm := getLsbD_apart h i
  · rw [hy, Bool.or_false]
  · rw [hm, Bool.and_false, Bool.and_false]

theorem or_and_cancel (x m : BitVec w) : (x ||| m) &&& m = m := by
  apply BitVec.eq_of_getLsbD_eq
  intro i _
  rw [BitVec.getLsbD_and, BitVec.getLsbD_or, Bool.and_comm, Bool.and_or_distrib_left, Bool.and_self]
  cases m.getLsbD i with
  | false => rw [Bool.false_and, Bool.or_self]
  | true => rw [Bool.or_true]

/-- Toggling bits outside a field leaves the field as it is. -/
theorem xor_and_of_apart (h : y &&& m = 0#w) : (x ^^^ y) &&& m = x &&& m := by
  apply BitVec.eq_of_getLsbD_eq
  intro i _
  rw [BitVec.getLsbD_and, BitVec.getLsbD_xor, BitVec.getLsbD_and]
  obtain hy | hm := getLsbD_apart h i
  · rw [hy, Bool.xor_false]
  · rw [hm, Bool.and_false, Bool.and_false]

/-- Clearing bits outside a field leaves the field as it is. -/
theorem and_not_and_of_apart (h : y &&& m = 0#w) : x &&& ~~~y &&& m = x &&& m := by
  apply BitVec.eq_of_getLsbD_eq
  intro i hi
  rw [BitVec.getLsbD_and, BitVec.getLsbD_and, BitVec.getLsbD_not, BitVec.getLsbD_and]
  obtain hy | hm := getLsbD_apart h i
  · simp only [hy, hi, decide_true, Bool.not_false, Bool.and_true]
  · rw [hm, Bool.and_false, Bool.and_false]

/-- A field replaced by that of another word is the field of that word. -/
theorem and_not_or_and (x y m : BitVec w) : (x &&& ~~~m ||| y &&& m) &&& m = y &&& m := by
  apply BitVec.eq_of_getLsbD_eq
  intro i hi
  simp only [BitVec.getLsbD_and, BitVec.getLsbD_or, BitVec.getLsbD_not, hi, decide_true,
    Bool.true_and]
  cases m.getLsbD i with
  | false => rw [Bool.and_false, Bool.and_false]
  | true => simp

end Apart

end OpenXbox.Lib.Bits
