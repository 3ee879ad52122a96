import Mathlib.Data.BitVec

/-!
# Stores of blocks that overlap

Blocks of one length are stored one after the other, each at its own place. What is read
afterwards comes from the last block that covers the address, or was there before.
Addresses are words and wrap around.
-/

namespace OpenXbox.Lib.Stores

variable {w : Nat} {β : Type*}

/-- The block `value` stored at `place`. -/
def store (len : Nat) (place : BitVec w) (value : Nat → β) (m : BitVec w → β) : BitVec w → β :=
  fun a => if (a - place).toNat < len then value (a - place).toNat else m a

/-- The first `n` stores. -/
def stores (len : Nat) (place : Nat → BitVec w) (value : Nat → Nat → β) (m : BitVec w → β) :
    Nat → BitVec w → β
  | 0 => m
  | n + 1 => store len (place n) (value n) (stores len place value m n)

section Cover

variable {len n k : Nat} {place : Nat → BitVec w} {value : Nat → Nat → β} {m : BitVec w → β}
  {a : BitVec w}

theorem stores_of_not_covered (h : ∀ j, j < n → ¬ (a - place j).toNat < len) :
    stores len place value m n a = m a := by
  induction n with
  | zero => rfl
  | succ n ih =>
    rw [stores, store, if_neg (h n (Nat.lt_succ_self n))]
    exact ih fun j hj => h j (Nat.lt_succ_of_lt hj)

/-- A byte comes from the store that covers it and is followed by none that does. -/
theorem stores_last (hk : k < n) (hcover : (a - place k).toNat < len)
    (hlater : ∀ j, k < j → j < n → ¬ (a - place j).toNat < len) :
    stores len place value m n a = value k (a - place k).toNat := by
  induction n with
  | zero => cases hk
  | succ n ih =>
    rw [stores, store]
    rcases Nat.lt_succ_iff_lt_or_eq.mp hk with hlt | rfl
    · rw [if_neg (hlater n hlt (Nat.lt_succ_self n))]
      exact ih hlt fun j hkj hj => hlater j hkj (Nat.lt_succ_of_lt hj)
    · exact if_pos hcover

/-- Only the places of the stores that are made matter. -/
theorem stores_congr {place' : Nat → BitVec w} (h : ∀ j, j < n → place j = place' j) :
    stores len place value m n = stores len place' value m n := by
  induction n with
  | zero => rfl
  | succ n ih =>
    rw [stores, stores, h n (Nat.lt_succ_self n), ih fun j hj => h j (Nat.lt_succ_of_lt hj)]

end Cover

/-! ## Places at an offset from a base -/

/-- How far an address lies behind another one, with the same base. -/
theorem toNat_sub_offset {base : BitVec w} {off d : Nat} (hoff : off < 2 ^ w) (hd : d < 2 ^ w) :
    (base + BitVec.ofNat w d - (base + BitVec.ofNat w off)).toNat =
      if off ≤ d then d - off else 2 ^ w + d - off := by
  have hsub : base + BitVec.ofNat w d - (base + BitVec.ofNat w off) =
      BitVec.ofNat w d - BitVec.ofNat w off := by
    rw [BitVec.sub_eq_iff_eq_add, BitVec.add_comm base (BitVec.ofNat w off), ← BitVec.add_assoc,
      BitVec.sub_add_cancel, BitVec.add_comm]
  rw [hsub, BitVec.toNat_sub, BitVec.toNat_ofNat, BitVec.toNat_ofNat, Nat.mod_eq_of_lt hoff,
    Nat.mod_eq_of_lt hd]
  split
  · rw [show 2 ^ w - off + d = d - off + 2 ^ w by omega, Nat.add_mod_right, Nat.mod_eq_of_lt (by omega)]
  · rw [Nat.mod_eq_of_lt (by omega)]
    omega

theorem covers_iff {base : BitVec w} {len off d : Nat} (hfit : off + len ≤ 2 ^ w) (hd : d < 2 ^ w) :
    (base + BitVec.ofNat w d - (base + BitVec.ofNat w off)).toNat < len ↔
      off ≤ d ∧ d < off + len := by
  rcases Nat.eq_zero_or_pos len with rfl | hpos
  · omega
  · rw [toNat_sub_offset (by omega) hd]
    split
    · omega
    · omega

theorem toNat_add_sub {base : BitVec w} {d : Nat} (hd : d < 2 ^ w) :
    (base + BitVec.ofNat w d - base).toNat = d := by
  rw [BitVec.add_comm, BitVec.add_sub_cancel, BitVec.toNat_ofNat, Nat.mod_eq_of_lt hd]

theorem exists_offset (base a : BitVec w) :
    a = base + BitVec.ofNat w (a - base).toNat ∧ (a - base).toNat < 2 ^ w := by
  refine ⟨?_, (a - base).isLt⟩
  rw [BitVec.ofNat_toNat, BitVec.setWidth_eq, BitVec.add_comm, BitVec.sub_add_cancel]

end OpenXbox.Lib.Stores
