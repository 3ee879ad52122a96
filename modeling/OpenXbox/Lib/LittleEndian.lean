import Mathlib.Data.BitVec

/-!
# Little-endian words in an array of bytes

A word is stored from its lowest byte on. Its bits are found again at eight bits a byte.
-/

namespace OpenXbox.Lib.LittleEndian

variable {w : Nat}

/-- A byte of a word, counted from the lowest. -/
def byteAt (v : BitVec w) (k : Nat) : BitVec 8 := (v >>> (8 * k)).setWidth 8

/-- The word of `n` bytes from `i` on. -/
def load (w : Nat) (mem : Nat → BitVec 8) (i : Nat) : Nat → BitVec w
  | 0 => 0
  | n + 1 => (mem i).setWidth w ||| (load w mem (i + 1) n <<< 8)

/-- The array with the low `n` bytes of a word stored from `i` on. -/
def store (mem : Nat → BitVec 8) (i : Nat) (v : BitVec w) (n : Nat) (k : Nat) : BitVec 8 :=
  if i ≤ k ∧ k < i + n then byteAt v (k - i) else mem k

theorem getLsbD_byteAt (v : BitVec w) (k : Nat) {j : Nat} (hj : j < 8) :
    (byteAt v k).getLsbD j = v.getLsbD (8 * k + j) := by
  simp [byteAt, hj]

theorem getLsbD_load (mem : Nat → BitVec 8) (i n j : Nat) :
    (load w mem i n).getLsbD j =
      (decide (j < w) && decide (j < 8 * n) && (mem (i + j / 8)).getLsbD (j % 8)) := by
  induction n generalizing i j with
  | zero => simp [load]
  | succ n ih =>
    rw [load, BitVec.getLsbD_or, BitVec.getLsbD_setWidth, BitVec.getLsbD_shiftLeft, ih]
    by_cases hj : j < 8
    · simp [hj, show j < 8 * (n + 1) by omega, show j / 8 = 0 by omega, show j % 8 = j by omega]
    · rw [BitVec.getLsbD_of_ge (mem i) j (Nat.le_of_not_lt hj), show i + 1 + (j - 8) / 8 = i + j / 8 by omega,
        show (j - 8) % 8 = j % 8 by omega]
      by_cases hw : j < w
      · simp [hw, hj, show j - 8 < w by omega, show j - 8 < 8 * n ↔ j < 8 * (n + 1) by omega]
      · simp [hw]

theorem store_of_out {mem : Nat → BitVec 8} {i n k : Nat} (h : ¬ (i ≤ k ∧ k < i + n)) (v : BitVec w) :
    store mem i v n k = mem k := if_neg h

theorem store_at {mem : Nat → BitVec 8} {i n k : Nat} (hk : k < n) (v : BitVec w) :
    store mem i v n (i + k) = byteAt v k := by
  rw [store, if_pos ⟨Nat.le_add_right i k, Nat.add_lt_add_left hk i⟩, Nat.add_sub_cancel_left]

/-- Only the bytes of the word matter. -/
theorem load_congr {mem mem' : Nat → BitVec 8} {i n : Nat} (h : ∀ k < n, mem (i + k) = mem' (i + k)) :
    load w mem i n = load w mem' i n := by
  apply BitVec.eq_of_getLsbD_eq
  intro j _
  rw [getLsbD_load, getLsbD_load]
  by_cases hj : j < 8 * n
  · rw [h (j / 8) (by omega)]
  · simp [hj]

/-- A stored word is loaded again. -/
theorem load_store (mem : Nat → BitVec 8) (i : Nat) {n : Nat} (hn : 8 * n = w) (v : BitVec w) :
    load w (store mem i v n) i n = v := by
  apply BitVec.eq_of_getLsbD_eq
  intro j hj
  rw [getLsbD_load, store_at (by omega), getLsbD_byteAt _ _ (Nat.mod_lt j (by decide)),
    show 8 * (j / 8) + j % 8 = j by omega]
  simp [hj, hn]

theorem byteAt_load (mem : Nat → BitVec 8) (i : Nat) {n k : Nat} (hn : 8 * n ≤ w) (hk : k < n) :
    byteAt (load w mem i n) k = mem (i + k) := by
  apply BitVec.eq_of_getLsbD_eq
  intro j hj
  rw [getLsbD_byteAt _ _ hj, getLsbD_load, show i + (8 * k + j) / 8 = i + k by omega,
    show (8 * k + j) % 8 = j by omega]
  simp [show 8 * k + j < w by omega, show 8 * k + j < 8 * n by omega]

/-- The bytes above the word are zero. -/
theorem byteAt_load_of_ge (mem : Nat → BitVec 8) (i : Nat) {n k : Nat} (hk : n ≤ k) :
    byteAt (load w mem i n) k = 0 := by
  apply BitVec.eq_of_getLsbD_eq
  intro j hj
  rw [getLsbD_byteAt _ _ hj, getLsbD_load, decide_eq_false (show ¬ 8 * k + j < 8 * n by omega)]
  simp

/-! ## As numbers -/

/-- A word of two parts. -/
theorem toNat_or_shiftLeft {x y : BitVec w} {k : Nat} (hx : x.toNat < 2 ^ k)
    (hy : y.toNat * 2 ^ k < 2 ^ w) : (x ||| y <<< k).toNat = x.toNat + y.toNat * 2 ^ k := by
  rw [BitVec.toNat_or, BitVec.toNat_shiftLeft, Nat.shiftLeft_eq, Nat.mod_eq_of_lt hy,
    ← Nat.shiftLeft_eq, Nat.or_comm, ← Nat.shiftLeft_add_eq_or_of_lt hx, Nat.shiftLeft_eq, Nat.add_comm]

theorem toNat_load_lt (mem : Nat → BitVec 8) (i n : Nat) : (load w mem i n).toNat < 2 ^ (8 * n) := by
  refine Nat.lt_pow_two_of_testBit _ fun j hj => ?_
  rw [BitVec.testBit_toNat, getLsbD_load, decide_eq_false (Nat.not_lt.mpr hj)]
  simp

theorem toNat_load_succ (mem : Nat → BitVec 8) (i : Nat) {n : Nat} (hn : 8 * (n + 1) ≤ w) :
    (load w mem i (n + 1)).toNat = (mem i).toNat + 0x100 * (load w mem (i + 1) n).toNat := by
  have hbyte : (mem i).toNat < 2 ^ 8 := (mem i).isLt
  have hrest := toNat_load_lt (w := w) mem (i + 1) n
  have hfit : (load w mem (i + 1) n).toNat * 2 ^ 8 < 2 ^ w := by
    calc (load w mem (i + 1) n).toNat * 2 ^ 8 < 2 ^ (8 * n) * 2 ^ 8 := by omega
      _ = 2 ^ (8 * (n + 1)) := by rw [← Nat.pow_add, Nat.mul_succ]
      _ ≤ 2 ^ w := Nat.pow_le_pow_right (by decide) hn
  have hwidth : ((mem i).setWidth w).toNat = (mem i).toNat :=
    (BitVec.toNat_setWidth _ _).trans
      (Nat.mod_eq_of_lt (hbyte.trans_le (Nat.pow_le_pow_right (by decide) (by omega))))
  rw [load, toNat_or_shiftLeft (by rwa [hwidth]) hfit, hwidth, Nat.mul_comm]
  rfl

end OpenXbox.Lib.LittleEndian
