import OpenXbox.Lib.Loop
import OpenXbox.Lib.XorFold
import OpenXbox.Nv2a.Puller

/-!
# The hash of a handle

The width of the fold is taken from the size of the table in bytes, and is two bits more than
the number of its entries has. The bits of the hash are told by those of the handle and of the
channel, and from them when it is the number of an entry, and when it is the fold by the
number of entries.
-/

namespace OpenXbox.Nv2a.RamhtHash

open OpenXbox.Lib.BitField OpenXbox.Lib.Loop OpenXbox.Lib.XorFold OpenXbox.Nv2a.Memory
  OpenXbox.Nv2a.Mmio OpenXbox.Nv2a.Pusher OpenXbox.Nv2a.Registers OpenXbox.Nv2a.Puller

/-! ## The loop -/

/-- A turn of the loop over the handle, with the hash. -/
def foldTurn (bits : Nat) (s : Word × Word) : Turn (Word × Word) :=
  if s.1 = 0 then .exit s
  else .next (s.1 >>> bits, s.2 ^^^ (s.1 &&& (((1 : Word) <<< bits) - 1)))

/-- As many turns as there are parts empty the handle. -/
theorem foldTurn_loop {bits turns : Nat} {handle : Word} (hturns : handle.toNat < 2 ^ (turns * bits))
    (hash : Word) :
    loop (foldTurn bits) (turns + 1) (handle, hash) = some (0, foldHandle bits turns handle hash) := by
  induction turns generalizing handle hash with
  | zero =>
    obtain rfl : handle = 0 := BitVec.eq_of_toNat_eq (by simpa using hturns)
    rfl
  | succ turns ih =>
    by_cases hzero : handle = 0
    · subst hzero
      rfl
    · have hrest : (handle >>> bits).toNat < 2 ^ (turns * bits) := by
        rw [BitVec.toNat_ushiftRight, Nat.shiftRight_eq_div_pow,
          Nat.div_lt_iff_lt_mul (Nat.two_pow_pos _),
          ← Nat.pow_add, ← Nat.succ_mul]
        exact hturns
      rw [loop_next (by rw [foldTurn, if_neg hzero]), ih hrest, foldHandle, if_neg hzero]

theorem foldHandle_eq {bits : Nat} (hbits : bits < 32) (turns : Nat) (handle hash : Word) :
    foldHandle bits turns handle hash = hash ^^^ fold bits turns handle := by
  induction turns generalizing handle hash with
  | zero => rw [foldHandle, fold, BitVec.xor_zero]
  | succ turns ih =>
    by_cases hzero : handle = 0
    · rw [foldHandle, if_pos hzero, hzero, show (0 : Word) = 0#32 from rfl, fold_zero, BitVec.xor_zero]
    · rw [foldHandle, if_neg hzero, ih, fold, show (1 : Word) = 1#32 from rfl, and_mask hbits,
        BitVec.xor_assoc]

/-! ## The hash -/

/-- The handle folded by a width, with the channel in the upper bits. -/
def mix (width parts : Nat) (channel : Nat) (handle : Word) : Word :=
  fold width parts handle ^^^ (BitVec.ofNat 32 channel <<< (width - 4))

/-- The setting of the size of the table. -/
def sizeSetting (n : NV2ADevice) : Nat :=
  (NV_PFIFO_RAMHT_SIZE.get (n.machine.device.pfifoRegs NV_PFIFO_RAMHT)).toNat

def channelId (n : NV2ADevice) : Nat := n.machine.device.cache1.channelId

/-- The size of the table in bytes. -/
def ramhtSize (n : NV2ADevice) : Nat := 2 ^ (sizeSetting n + 12)

/-- The number of bits of the number of an entry; four parts of so many hold a handle. -/
def entryBits (n : NV2ADevice) : Nat := sizeSetting n + 9

theorem sizeSetting_le (n : NV2ADevice) : sizeSetting n ≤ 3 := by
  have hmask : ((n.machine.device.pfifoRegs NV_PFIFO_RAMHT) &&& 0x30000).toNat ≤ 0x30000 := by
    rw [BitVec.toNat_and]
    exact Nat.and_le_right
  rw [sizeSetting, Field.get, BitVec.toNat_ushiftRight, Nat.shiftRight_eq_div_pow]
  exact Nat.div_le_div_right hmask

theorem ramhtHash_eq (n : NV2ADevice) (handle : Word) :
    ramhtHash n handle = mix (entryBits n + 2) 3 (channelId n) handle := by
  have hle := sizeSetting_le n
  rw [ramhtHash, ← sizeSetting, show sizeSetting n + 12 + 1 - 2 = entryBits n + 2 from rfl,
    foldHandle_eq (by rw [entryBits]; omega), show (0 : Word) = 0#32 from rfl, BitVec.zero_xor]
  rfl

/-- The bit of the shifted channel at a place. -/
def channelBit (width channel j : Nat) : Bool :=
  decide (width - 4 ≤ j) && channel.testBit (j - (width - 4))

theorem getLsbD_mix {j : Nat} (hj : j < 32) (width parts channel : Nat) (handle : Word) :
    (mix width parts channel handle).getLsbD j =
      ((decide (j < width) && column width parts handle j) ^^ channelBit width channel j) := by
  rw [mix, BitVec.getLsbD_xor, getLsbD_fold hj, BitVec.getLsbD_shiftLeft, BitVec.getLsbD_ofNat,
    channelBit]
  congr 1
  by_cases hlow : width - 4 ≤ j
  · simp [hj, hlow, show j - (width - 4) < 32 by omega]
  · simp [hlow, show j < width - 4 by omega]

theorem toNat_lt_two_pow_iff {x : Word} {k : Nat} :
    x.toNat < 2 ^ k ↔ ∀ j, k ≤ j → j < 32 → x.getLsbD j = false := by
  constructor
  · intro h j hkj _
    rw [← BitVec.testBit_toNat]
    exact Nat.testBit_lt_two_pow (h.trans_le (Nat.pow_le_pow_right (by decide) hkj))
  · intro h
    refine Nat.lt_pow_two_of_testBit _ fun j hj => ?_
    rw [BitVec.testBit_toNat]
    by_cases hlt : j < 32
    · exact h j hj hlt
    · exact BitVec.getLsbD_of_ge _ _ (Nat.le_of_not_lt hlt)

/-! ## When the hash is right -/

/-- What is expected of the hash of a handle: the loop ends with it, it is the number of an entry of
the table, so that the lookup reads inside the table, and it is the fold by the number of entries. -/
structure Correct (n : NV2ADevice) (handle : Word) : Prop where
  ends : ∃ s, Ends (foldTurn (sizeSetting n + 11)) (handle, 0) s ∧
    ramhtHash n handle = s.2 ^^^ (BitVec.ofNat 32 (channelId n) <<< (sizeSetting n + 7))
  inside : 8 * (ramhtHash n handle).toNat < ramhtSize n
  found : (ramhtLookup n handle).isSome = true
  folded : ramhtHash n handle = mix (entryBits n) 4 (channelId n) handle

/-- The condition on the bits of the handle and of the channel. -/
structure Alike (n : NV2ADevice) (handle : Word) : Prop where
  channel : channelId n < 16
  /-- The two bits above the number of an entry cancel. -/
  upper : ∀ j < 2, column (entryBits n + 2) 3 handle (entryBits n + j) = (channelId n).testBit (2 + j)
  /-- The bits below are the same for parts of either width. -/
  lower : ∀ j < entryBits n,
    (column (entryBits n + 2) 3 handle j ^^ channelBit (entryBits n + 2) (channelId n) j) =
      (column (entryBits n) 4 handle j ^^ channelBit (entryBits n) (channelId n) j)

section Hash

variable {n : NV2ADevice} {handle : Word}

theorem ends_ramhtHash (n : NV2ADevice) (handle : Word) :
    ∃ s, Ends (foldTurn (sizeSetting n + 11)) (handle, 0) s ∧
      ramhtHash n handle = s.2 ^^^ (BitVec.ofNat 32 (channelId n) <<< (sizeSetting n + 7)) := by
  have hturns : handle.toNat < 2 ^ (3 * (sizeSetting n + 11)) :=
    handle.isLt.trans_le (Nat.pow_le_pow_right (by decide) (by omega))
  exact ⟨_, ⟨4, foldTurn_loop hturns 0⟩, rfl⟩

theorem entryBits_ge (n : NV2ADevice) : 9 ≤ entryBits n := Nat.le_add_left 9 _

theorem entryBits_le (n : NV2ADevice) : entryBits n ≤ 12 := Nat.add_le_add_right (sizeSetting_le n) 9

theorem getLsbD_hash_entry {j : Nat} (hj : j < entryBits n) :
    (ramhtHash n handle).getLsbD j =
      (column (entryBits n + 2) 3 handle j ^^ channelBit (entryBits n + 2) (channelId n) j) := by
  have hle := entryBits_le n
  rw [ramhtHash_eq, getLsbD_mix (by omega), decide_eq_true (by omega), Bool.true_and]

/-- The bits of the hash from the number of an entry on: two of the fold and the channel, then the
channel alone. -/
theorem getLsbD_hash_upper {j : Nat} (hj : j < 2) :
    (ramhtHash n handle).getLsbD (entryBits n + j) =
      (column (entryBits n + 2) 3 handle (entryBits n + j) ^^ (channelId n).testBit (2 + j)) := by
  have hge := entryBits_ge n
  have hle := entryBits_le n
  rw [ramhtHash_eq, getLsbD_mix (by omega), decide_eq_true (by omega), Bool.true_and, channelBit,
    decide_eq_true (by omega), Bool.true_and,
    show entryBits n + j - (entryBits n + 2 - 4) = 2 + j by omega]

theorem getLsbD_hash_top {j : Nat} (hj : entryBits n + 2 + j < 32) :
    (ramhtHash n handle).getLsbD (entryBits n + 2 + j) = (channelId n).testBit (4 + j) := by
  have hge := entryBits_ge n
  rw [ramhtHash_eq, getLsbD_mix hj, decide_eq_false (by omega), Bool.false_and, Bool.false_xor,
    channelBit, decide_eq_true (by omega), Bool.true_and,
    show entryBits n + 2 + j - (entryBits n + 2 - 4) = 4 + j by omega]

theorem testBit_channel_of_lt {k channel j : Nat} (h : channel < 2 ^ k) (hj : k ≤ j) :
    channel.testBit j = false :=
  Nat.testBit_lt_two_pow (h.trans_le (Nat.pow_le_pow_right (by decide) hj))

theorem hash_lt_iff (hch : channelId n < 32) :
    (ramhtHash n handle).toNat < 2 ^ entryBits n ↔
      channelId n < 16 ∧
        ∀ j < 2,
          column (entryBits n + 2) 3 handle (entryBits n + j) = (channelId n).testBit (2 + j) := by
  have hle := entryBits_le n
  rw [toNat_lt_two_pow_iff]
  constructor
  · intro h
    constructor
    · have hbit := h (entryBits n + 2 + 0) (by omega) (by omega)
      rw [getLsbD_hash_top (by omega)] at hbit
      by_contra hge
      have hset : (channelId n).testBit 4 = true := by
        rw [Nat.testBit_eq_decide_div_mod_eq, decide_eq_true_iff]
        omega
      exact Bool.false_ne_true (hbit.symm.trans hset)
    · intro j hj
      have hbit := h (entryBits n + j) (by omega) (by omega)
      rw [getLsbD_hash_upper hj] at hbit
      simpa using hbit
  · rintro ⟨hlow, hupper⟩ j hj hlt
    obtain ⟨i, rfl⟩ := Nat.exists_eq_add_of_le hj
    by_cases hi : i < 2
    · rw [getLsbD_hash_upper hi, hupper i hi, Bool.xor_self]
    · obtain ⟨k, rfl⟩ := Nat.exists_eq_add_of_le (Nat.le_of_not_lt hi)
      rw [← Nat.add_assoc] at hlt ⊢
      rw [getLsbD_hash_top hlt, testBit_channel_of_lt hlow (Nat.le_add_right 4 k)]

theorem inside_iff :
    8 * (ramhtHash n handle).toNat < ramhtSize n ↔ (ramhtHash n handle).toNat < 2 ^ entryBits n := by
  rw [ramhtSize, entryBits, show sizeSetting n + 12 = 3 + (sizeSetting n + 9) by omega, Nat.pow_add]
  exact Nat.mul_lt_mul_left (by decide)

theorem isSome_ramhtLookup (h : (ramhtHash n handle).toNat < 2 ^ entryBits n) :
    (ramhtLookup n handle).isSome = true := by
  have hsetting := sizeSetting_le n
  have hinside := inside_iff.mpr h
  have hpow : ramhtSize n < 2 ^ 32 := Nat.pow_lt_pow_right (by decide) (by omega)
  have hlt : ramhtHash n handle * 8 < (1 : Word) <<< (sizeSetting n + 12) := by
    rw [BitVec.lt_def, BitVec.toNat_mul, BitVec.toNat_shiftLeft, show (8 : Word).toNat = 8 from rfl,
      show (1 : Word).toNat = 1 from rfl, Nat.one_shiftLeft, Nat.mul_comm,
      Nat.mod_eq_of_lt (hinside.trans hpow),
      Nat.mod_eq_of_lt (show 2 ^ (sizeSetting n + 12) < 2 ^ 32 from hpow)]
    exact hinside
  rw [ramhtLookup]
  dsimp only
  rw [← sizeSetting, if_pos hlt, Option.isSome_some]

theorem correct_iff_alike (hch : channelId n < 32) : Correct n handle ↔ Alike n handle := by
  have hle := entryBits_le n
  constructor
  · intro h
    obtain ⟨hlow, hupper⟩ := (hash_lt_iff hch).mp (inside_iff.mp h.inside)
    refine ⟨hlow, hupper, fun j hj => ?_⟩
    have hbit := congrArg (fun x => x.getLsbD j) h.folded
    rwa [getLsbD_hash_entry hj, getLsbD_mix (by omega), decide_eq_true hj, Bool.true_and] at hbit
  · intro h
    have hlt := (hash_lt_iff hch).mpr ⟨h.channel, h.upper⟩
    refine ⟨ends_ramhtHash n handle, inside_iff.mpr hlt, isSome_ramhtLookup hlt, ?_⟩
    apply BitVec.eq_of_getLsbD_eq
    intro j hj
    by_cases hentry : j < entryBits n
    · rw [getLsbD_hash_entry hentry, h.lower j hentry, getLsbD_mix hj, decide_eq_true hentry,
        Bool.true_and]
    · have hge := entryBits_ge n
      have hchannel := testBit_channel_of_lt (k := 4) (j := j - (entryBits n - 4)) h.channel (by omega)
      rw [toNat_lt_two_pow_iff.mp hlt j (by omega) hj, getLsbD_mix hj, decide_eq_false hentry,
        channelBit, hchannel, Bool.and_false, Bool.false_and, Bool.xor_false]

/-- On the first channel the numbers of entries are their own hashes. -/
theorem alike_of_lt (hch : channelId n = 0) (h : handle.toNat < 2 ^ entryBits n) : Alike n handle := by
  have hle := entryBits_le n
  have hmix (width parts : Nat) (hwidth : entryBits n ≤ width) :
      mix width (parts + 1) (channelId n) handle = handle := by
    rw [mix, fold_of_lt (h.trans_le (Nat.pow_le_pow_right (by decide) hwidth)), hch,
      BitVec.zero_shiftLeft, BitVec.xor_zero]
  have hhash : ramhtHash n handle = handle :=
    (ramhtHash_eq n handle).trans (hmix _ 2 (Nat.le_add_right _ 2))
  refine (correct_iff_alike (by omega)).mp ⟨ends_ramhtHash n handle, inside_iff.mpr (by rwa [hhash]),
    isSome_ramhtLookup (by rwa [hhash]), ?_⟩
  rw [hhash, hmix _ 3 (Nat.le_refl _)]

/-- The hash is right exactly for the handles and channels that meet the condition. -/
theorem ramht_hash_correct_iff (hch : channelId n < 32) : Correct n handle ↔ Alike n handle :=
  correct_iff_alike hch

end Hash

/-- The device after a reset: the smallest table and the first channel. -/
def resetTable : NV2ADevice :=
  NV2ADevice.reset (fun _ => 0) 0x4000000 1000000 0 ⟨0, 0, 0, fun _ _ => 0, fun _ => 0, 0⟩

theorem correct_reset : Correct resetTable 0x1ff :=
  (ramht_hash_correct_iff (by decide)).mpr ⟨by decide, by decide, by decide⟩

/-- A handle with the bit above the number of an entry set: the assertion of the lookup fails. -/
theorem not_correct_reset : ¬ Correct resetTable 0x200 ∧ ramhtLookup resetTable 0x200 = none :=
  ⟨fun h => absurd h.inside (by decide), by decide⟩

end OpenXbox.Nv2a.RamhtHash
