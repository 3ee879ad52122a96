import OpenXbox.Nv2a.Division

/-!
# Reads over a stale variable

A read is handed the variable that it stores to. Some registers are put together by
setting their fields in that variable, and for some nothing is stored: there the guest
reads bits that the device never held.
-/

namespace OpenXbox.Nv2a.StaleReads

open OpenXbox.Lib.Run OpenXbox.Lib.BitField OpenXbox.Nv2a.Memory OpenXbox.Nv2a.Pusher
  OpenXbox.Nv2a.Registers OpenXbox.Nv2a.Mmio OpenXbox.Nv2a.Puller
open OpenXbox.Nv2a.Machine hiding Op step
open OpenXbox.Nv2a.Division (resetDevice)

/-- What a read of 32 bits stores to a variable that holds a value. -/
def stored (n : NV2ADevice) (nanoseconds : BitVec 64) (barIndex : Nat) (addr value : Word) :
    Except Fault Word :=
  (pciMMIORead n nanoseconds barIndex addr value .four).map Prod.fst

/-- The registers that are put together in the variable. -/
def BuiltInPlace (block : NV2ABlockInfo) (register : Nat) : Prop :=
  (block.offset = pfifo.offset ∧
    register ∈ [NV_PFIFO_CACHE1_PUSH1, NV_PFIFO_CACHE1_STATUS, NV_PFIFO_CACHE1_DMA_PUSH,
      NV_PFIFO_CACHE1_DMA_STATE, NV_PFIFO_CACHE1_DMA_INSTANCE, NV_PFIFO_CACHE1_ENGINE]) ∨
  (block.offset = pgraph.offset ∧
    register ∈ [NV_PGRAPH_CTX_USER, NV_PGRAPH_TRAPPED_ADDR, NV_PGRAPH_FIFO])

/-- The registers for which nothing is stored; those of a channel in PIO mode fail an assertion. -/
def NothingStored (n : NV2ADevice) (block : NV2ABlockInfo) (register : Nat) : Prop :=
  (block.offset = prmcio.offset ∧
    register ∉ [VGA_CRT_IM, VGA_CRT_IC, VGA_IS1_RC, VGA_IS1_RM, VGA_CRT_DM, VGA_CRT_DC]) ∨
  (block.offset = user.offset ∧ register / 0x10000 < NV2A_NUM_CHANNELS ∧
    n.machine.device.pfifoRegs NV_PFIFO_MODE &&& (1 <<< (register / 0x10000)) ≠ 0 ∧
    register % 0x10000 ∉ [NV_USER_DMA_PUT, NV_USER_DMA_GET, NV_USER_REF])

/-- An address where a read keeps some of what the variable held. -/
def Stale (n : NV2ADevice) (barIndex : Nat) (addr : Word) : Prop :=
  barIndex ≠ 1 ∧ ∃ block, findBlock addr = some block ∧
    (BuiltInPlace block (addr.toNat - block.offset) ∨
      NothingStored n block (addr.toNat - block.offset))

/-! ## Bits that are kept -/

/-- A register that keeps a bit of the variable tells two of its values apart. -/
theorem depends_of_kept {f : Word → Word} {i : Nat} (hi : i < 32)
    (hkept : ∀ value, (f value).getLsbD i = value.getLsbD i) : ¬ ∀ value value', f value = f value' := by
  intro h
  have hbit := congrArg (fun x => x.getLsbD i) (h 0 (BitVec.allOnes 32))
  rw [hkept, hkept, BitVec.getLsbD_allOnes] at hbit
  simp [hi] at hbit

theorem push1_kept (state : Cache1State) (value : Word) :
    (push1 state value).getLsbD 16 = value.getLsbD 16 := by
  unfold push1
  rw [getLsbD_set_of_out (by decide), getLsbD_set_of_out (by decide)]

theorem cacheStatus_kept (state : Cache1State) (value : Word) :
    (cacheStatus state value).getLsbD 16 = value.getLsbD 16 := by
  have hmark : NV_PFIFO_CACHE1_STATUS_LOW_MARK.getLsbD 16 = false := by decide
  unfold cacheStatus
  split
  · rw [BitVec.getLsbD_or, hmark, Bool.or_false]
  · rfl

theorem dmaPushRegister_kept (state : Cache1State) (value : Word) :
    (dmaPushRegister state value).getLsbD 16 = value.getLsbD 16 := by
  unfold dmaPushRegister
  rw [getLsbD_set_of_out (by decide), getLsbD_set_of_out (by decide), getLsbD_set_of_out (by decide)]

theorem dmaStateRegister_kept (state : Cache1State) (value : Word) :
    (dmaStateRegister state value).getLsbD 16 = value.getLsbD 16 := by
  unfold dmaStateRegister
  rw [getLsbD_set_of_out (by decide), getLsbD_set_of_out (by decide), getLsbD_set_of_out (by decide),
    getLsbD_set_of_out (by decide), getLsbD_set_of_out (by decide)]

theorem dmaInstanceRegister_kept (state : Cache1State) (value : Word) :
    (dmaInstanceRegister state value).getLsbD 16 = value.getLsbD 16 :=
  getLsbD_set_of_out (by decide) _ _

/-- The eight engines take the low 16 bits. -/
theorem engineRegister_kept (boundEngines : BitVec 3 → FIFOEngine) (value : Word) :
    (engineRegister boundEngines value).getLsbD 16 = value.getLsbD 16 := by
  have hturns (turns : List Nat) (hturns : ∀ i ∈ turns, i < 8) (value : Word) :
      (turns.foldl (fun value i =>
        value ||| (boundEngines (BitVec.ofNat 3 i)).setWidth 32 <<< (i * 2)) value).getLsbD 16 =
        value.getLsbD 16 := by
    induction turns generalizing value with
    | nil => rfl
    | cons i turns ih =>
      have hi : i < 8 := hturns i List.mem_cons_self
      have hout : (boundEngines (BitVec.ofNat 3 i)).getLsbD (16 - i * 2) = false :=
        BitVec.getLsbD_of_ge _ _ (by omega)
      rw [List.foldl_cons, ih fun j hj => hturns j (List.mem_cons_of_mem i hj)]
      simp [hout]
  exact hturns (List.range 8) (fun i hi => List.mem_range.mp hi) value

theorem ctxUserRegister_kept (g : PGRAPH) (value : Word) :
    (ctxUserRegister g value).getLsbD 16 = value.getLsbD 16 := by
  unfold ctxUserRegister
  rw [getLsbD_set_of_out (by decide), getLsbD_set_of_out (by decide), getLsbD_set_of_out (by decide),
    getLsbD_set_of_out (by decide)]

theorem trappedAddrRegister_kept (g : PGRAPH) (value : Word) :
    (trappedAddrRegister g value).getLsbD 13 = value.getLsbD 13 := by
  unfold trappedAddrRegister
  rw [getLsbD_set_of_out (by decide), getLsbD_set_of_out (by decide), getLsbD_set_of_out (by decide)]

/-! ## The blocks -/

theorem block_of_offset {a b : NV2ABlockInfo} (ha : a ∈ memoryRegions) (hb : b ∈ memoryRegions)
    (h : a.offset = b.offset) : a = b :=
  List.inj_on_of_nodup_map (by decide) ha hb h

/-- What a read of a register stores is the same over any two values of the variable. -/
def FromState (n : NV2ADevice) (nanoseconds : BitVec 64) (block : NV2ABlockInfo) (register : Nat) :
    Prop :=
  ∀ value value' : Word, (block.read n nanoseconds register value .four).map Prod.fst =
    (block.read n nanoseconds register value' .four).map Prod.fst

/-- Sixteen blocks do not look at the variable. -/
theorem fromState_of_other (n : NV2ADevice) (nanoseconds : BitVec 64) {block : NV2ABlockInfo}
    (hmem : block ∈ memoryRegions) (register : Nat) (hpfifo : block.offset ≠ pfifo.offset)
    (hpgraph : block.offset ≠ pgraph.offset) (hprmcio : block.offset ≠ prmcio.offset)
    (huser : block.offset ≠ user.offset) : FromState n nanoseconds block register := by
  intro value value'
  rcases mem_memoryRegions hmem with ⟨hread, -⟩ | rfl | rfl | rfl | rfl | rfl | rfl | rfl | rfl |
    rfl | rfl | rfl | rfl
  · rw [hread]
    rfl
  · rfl
  · rfl
  · exact absurd rfl hpfifo
  · rfl
  · rfl
  · rfl
  · exact absurd rfl hpgraph
  · rfl
  · exact absurd rfl hprmcio
  · rfl
  · rfl
  · exact absurd rfl huser

theorem fromState_pfifo_iff (n : NV2ADevice) (nanoseconds : BitVec 64) (register : Nat) :
    FromState n nanoseconds pfifo register ↔ ¬ BuiltInPlace pfifo register := by
  have hbuilt : BuiltInPlace pfifo register ↔ register ∈ [NV_PFIFO_CACHE1_PUSH1, NV_PFIFO_CACHE1_STATUS,
      NV_PFIFO_CACHE1_DMA_PUSH, NV_PFIFO_CACHE1_DMA_STATE, NV_PFIFO_CACHE1_DMA_INSTANCE,
      NV_PFIFO_CACHE1_ENGINE] :=
    ⟨fun h => h.elim And.right fun h => absurd h.1 (by decide), fun h => .inl ⟨rfl, h⟩⟩
  have hread (value : Word) : (pfifo.read n nanoseconds register value .four).map Prod.fst =
      .ok (pfifoRegister n register value) := rfl
  have hiff : FromState n nanoseconds pfifo register ↔
      ∀ value value', pfifoRegister n register value = pfifoRegister n register value' := by
    unfold FromState
    simp only [hread, Except.ok.injEq]
  rw [hbuilt, hiff]
  constructor
  · intro h hmem
    simp only [List.mem_cons, List.not_mem_nil, or_false] at hmem
    rcases hmem with rfl | rfl | rfl | rfl | rfl | rfl
    · exact depends_of_kept (by decide) (push1_kept n.machine.device.cache1) h
    · exact depends_of_kept (by decide) (cacheStatus_kept n.machine.device.cache1) h
    · exact depends_of_kept (by decide) (dmaPushRegister_kept n.machine.device.cache1) h
    · exact depends_of_kept (by decide) (dmaStateRegister_kept n.machine.device.cache1) h
    · exact depends_of_kept (by decide) (dmaInstanceRegister_kept n.machine.device.cache1) h
    · exact depends_of_kept (by decide) (engineRegister_kept n.puller.boundEngines) h
  · intro hmem value value'
    simp only [List.mem_cons, List.not_mem_nil, or_false, not_or] at hmem
    obtain ⟨h1, h2, h3, h4, h5, h6⟩ := hmem
    simp only [pfifoRegister, if_neg h1, if_neg h2, if_neg h3, if_neg h4, if_neg h5, if_neg h6]

theorem fromState_pgraph_iff (n : NV2ADevice) (nanoseconds : BitVec 64) (register : Nat) :
    FromState n nanoseconds pgraph register ↔ ¬ BuiltInPlace pgraph register := by
  have hbuilt : BuiltInPlace pgraph register ↔
      register ∈ [NV_PGRAPH_CTX_USER, NV_PGRAPH_TRAPPED_ADDR, NV_PGRAPH_FIFO] :=
    ⟨fun h => h.elim (fun h => absurd h.1 (by decide)) And.right, fun h => .inr ⟨rfl, h⟩⟩
  have hread (value : Word) : (pgraph.read n nanoseconds register value .four).map Prod.fst =
      .ok (pgraphRegister n.pgraph register value) := rfl
  have hiff : FromState n nanoseconds pgraph register ↔
      ∀ value value', pgraphRegister n.pgraph register value = pgraphRegister n.pgraph register value' := by
    unfold FromState
    simp only [hread, Except.ok.injEq]
  rw [hbuilt, hiff]
  constructor
  · intro h hmem
    simp only [List.mem_cons, List.not_mem_nil, or_false] at hmem
    rcases hmem with rfl | rfl | rfl
    · exact depends_of_kept (by decide) (ctxUserRegister_kept n.pgraph) h
    · exact depends_of_kept (by decide) (trappedAddrRegister_kept n.pgraph) h
    · have hkept (value : Word) :
          (NV_PGRAPH_FIFO_ACCESS.set value (flag n.pgraph.fifoAccess)).getLsbD 16 = value.getLsbD 16 :=
        getLsbD_set_of_out (by decide) _ _
      exact depends_of_kept (by decide) hkept h
  · intro hmem value value'
    simp only [List.mem_cons, List.not_mem_nil, or_false, not_or] at hmem
    obtain ⟨h1, h2, h3⟩ := hmem
    simp only [pgraphRegister, if_neg h1, if_neg h2, if_neg h3]

/-- What is left as it was tells the values apart. -/
theorem depends_of_unchanged {f : Word → Except Fault Word} (h : ∀ value, f value = .ok value) :
    ¬ ∀ value value', f value = f value' := by
  intro hsame
  have h01 := hsame 0 1
  rw [h, h] at h01
  cases h01

theorem fromState_prmcio_iff (n : NV2ADevice) (nanoseconds : BitVec 64) (register : Nat) :
    FromState n nanoseconds prmcio register ↔ ¬ NothingStored n prmcio register := by
  have hnothing : NothingStored n prmcio register ↔ register ∉ [VGA_CRT_IM, VGA_CRT_IC, VGA_IS1_RC,
      VGA_IS1_RM, VGA_CRT_DM, VGA_CRT_DC] :=
    ⟨fun h => h.elim And.right fun h => absurd h.1 (by decide), fun h => .inl ⟨rfl, h⟩⟩
  rw [hnothing, not_not]
  have hread (value : Word) : prmcio.read n nanoseconds register value .four =
      prmcioRead n nanoseconds register value .four := rfl
  unfold FromState
  simp only [hread]
  by_cases hmem : register ∈ [VGA_CRT_IM, VGA_CRT_IC, VGA_IS1_RC, VGA_IS1_RM, VGA_CRT_DM, VGA_CRT_DC]
  · refine iff_of_true (fun value value' => ?_) hmem
    simp only [List.mem_cons, List.not_mem_nil, or_false] at hmem
    rcases hmem with rfl | rfl | rfl | rfl | rfl | rfl <;> rfl
  · refine iff_of_false (depends_of_unchanged fun value => ?_) hmem
    simp only [List.mem_cons, List.not_mem_nil, or_false, not_or] at hmem
    obtain ⟨h1, h2, h3, h4, h5, h6⟩ := hmem
    simp only [prmcioRead, h1, h2, h3, h4, h5, h6, or_false, if_false]
    rfl

theorem fromState_user_iff (n : NV2ADevice) (nanoseconds : BitVec 64) (register : Nat) :
    FromState n nanoseconds user register ↔ ¬ NothingStored n user register := by
  have hnothing : NothingStored n user register ↔ register / 0x10000 < NV2A_NUM_CHANNELS ∧
      n.machine.device.pfifoRegs NV_PFIFO_MODE &&& (1 <<< (register / 0x10000)) ≠ 0 ∧
      register % 0x10000 ∉ [NV_USER_DMA_PUT, NV_USER_DMA_GET, NV_USER_REF] :=
    ⟨fun h => h.elim (fun h => absurd h.1 (by decide)) And.right, fun h => .inr ⟨rfl, h⟩⟩
  rw [hnothing]
  have hread (value : Word) : user.read n nanoseconds register value .four =
      userRead n nanoseconds register value .four := rfl
  unfold FromState
  simp only [hread, userRead]
  by_cases hchannel : register / 0x10000 ≥ NV2A_NUM_CHANNELS
  · refine iff_of_true (fun value value' => ?_) fun h => absurd h.1 (Nat.not_lt.mpr hchannel)
    simp only [if_pos hchannel]
  by_cases hmode : n.machine.device.pfifoRegs NV_PFIFO_MODE &&& (1 <<< (register / 0x10000)) = 0
  · refine iff_of_true (fun value value' => ?_) fun h => h.2.1 hmode
    simp only [if_pos hmode]
  by_cases hmem : register % 0x10000 ∈ [NV_USER_DMA_PUT, NV_USER_DMA_GET, NV_USER_REF]
  · refine iff_of_true (fun value value' => ?_) fun h => h.2.2 hmem
    simp only [List.mem_cons, List.not_mem_nil, or_false] at hmem
    rcases hmem with h | h | h <;> simp [h, NV_USER_DMA_PUT, NV_USER_DMA_GET, NV_USER_REF]
  · refine iff_of_false (depends_of_unchanged fun value => ?_) fun h =>
      h ⟨Nat.not_le.mp hchannel, hmode, hmem⟩
    simp only [List.mem_cons, List.not_mem_nil, or_false, not_or] at hmem
    obtain ⟨h1, h2, h3⟩ := hmem
    simp only [ne_eq, not_true_eq_false, if_false, if_neg hchannel, if_neg hmode, if_neg h1, if_neg h2,
      if_neg h3]
    rfl

/-- The registers of each block. -/
theorem fromState_iff (n : NV2ADevice) (nanoseconds : BitVec 64) {block : NV2ABlockInfo}
    (hmem : block ∈ memoryRegions) (register : Nat) :
    FromState n nanoseconds block register ↔
      ¬ (BuiltInPlace block register ∨ NothingStored n block register) := by
  by_cases hpfifo : block.offset = pfifo.offset
  · obtain rfl := block_of_offset hmem (by simp [memoryRegions]) hpfifo
    have hstored : ¬ NothingStored n pfifo register := fun h =>
      h.elim (fun h => absurd h.1 (by decide)) fun h => absurd h.1 (by decide)
    rw [fromState_pfifo_iff, or_iff_left hstored]
  by_cases hpgraph : block.offset = pgraph.offset
  · obtain rfl := block_of_offset hmem (by simp [memoryRegions]) hpgraph
    have hstored : ¬ NothingStored n pgraph register := fun h =>
      h.elim (fun h => absurd h.1 (by decide)) fun h => absurd h.1 (by decide)
    rw [fromState_pgraph_iff, or_iff_left hstored]
  have hbuilt : ¬ BuiltInPlace block register := fun h => h.elim (hpfifo ·.1) (hpgraph ·.1)
  by_cases hprmcio : block.offset = prmcio.offset
  · obtain rfl := block_of_offset hmem (by simp [memoryRegions]) hprmcio
    rw [fromState_prmcio_iff, or_iff_right hbuilt]
  by_cases huser : block.offset = user.offset
  · obtain rfl := block_of_offset hmem (by simp [memoryRegions]) huser
    rw [fromState_user_iff, or_iff_right hbuilt]
  · refine iff_of_true (fromState_of_other n nanoseconds hmem register hpfifo hpgraph hprmcio huser) ?_
    exact fun h => h.elim hbuilt fun h => h.elim (hprmcio ·.1) (huser ·.1)

/-- In every state, what a read stores does not depend on what the variable held exactly when the
register is neither put together in the variable nor left out. -/
theorem stored_from_state_iff (n : NV2ADevice) (nanoseconds : BitVec 64) (barIndex : Nat) (addr : Word) :
    (∀ value value', stored n nanoseconds barIndex addr value =
      stored n nanoseconds barIndex addr value') ↔ ¬ Stale n barIndex addr := by
  unfold stored pciMMIORead Stale
  by_cases hbar : barIndex = 1
  · refine iff_of_true (fun value value' => ?_) fun h => h.1 hbar
    simp only [if_pos hbar]
  simp only [if_neg hbar]
  cases hfind : findBlock addr with
  | none =>
    refine iff_of_true (fun _ _ => rfl) fun h => ?_
    obtain ⟨-, block, hblock, -⟩ := h
    cases hblock
  | some block =>
    have hblocks := fromState_iff n nanoseconds (findBlock_mem hfind) (addr.toNat - block.offset)
    unfold FromState at hblocks
    simp only [hblocks, Option.some.injEq, exists_eq_left', ne_eq, hbar, not_false_eq_true, true_and]

/-- The status of the cache, right after a reset, is read with the bits of the variable. -/
theorem status_keeps_variable :
    ¬ ∀ (ops : List Op) (n : NV2ADevice), exec step resetDevice ops = some n →
      ∀ (nanoseconds : BitVec 64) (addr : Word), (findBlock addr).isSome →
        ∀ value value', stored n nanoseconds 0 addr value = stored n nanoseconds 0 addr value' := by
  intro h
  have hsame : (.ok 0x10 : Except Fault Word) = .ok 0x11 := h [] resetDevice rfl 0 0x3214 rfl 0 1
  cases hsame

end OpenXbox.Nv2a.StaleReads
