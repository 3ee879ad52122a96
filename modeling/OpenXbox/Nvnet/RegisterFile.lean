import OpenXbox.Lib.Run
import OpenXbox.Nvnet.Device

/-!
# What the registers of the network controller hold

The controller is followed with what has been written to it. No access has a size that the register
functions know, so that nothing is stored by one and zero is read. The accesses that a write of
`TxRxControl` and the PHY make by themselves have a size in bytes, and most of them are beyond the
end of the array.
-/

namespace OpenXbox.Nvnet.RegisterFile

open OpenXbox.Lib OpenXbox.Lib.Run OpenXbox.Nvnet.Device

inductive AccessSize
  | byte
  | word
  | dword
  deriving DecidableEq

def AccessSize.bytes : AccessSize → Nat
  | .byte => 1
  | .word => 2
  | .dword => 4

inductive Access
  | read (addr : Word) (size : AccessSize)
  | write (addr value : Word) (size : AccessSize)

/-- The register that holds the byte at an offset of the BAR. -/
def register (addr : Word) : Nat := addr.toNat / 4 * 4

/-- The registers whose reads or writes do more than to read or write them. -/
def HasSideEffects (addr : Word) : Prop :=
  register addr = NvRegTxRxControl.toNat ∨ register addr = NvRegMIIStatus.toNat ∨
    register addr = NvRegMIIControl.toNat ∨ register addr = NvRegMIIData.toNat

instance (addr : Word) : Decidable (HasSideEffects addr) :=
  inferInstanceAs (Decidable (_ ∨ _))

/-- The controller, the last byte written at each offset and the last value of `RingSizes`. -/
structure History where
  nic : NvNetState
  written : Nat → Byte
  ringSizes : Option Word

def History.initial : History := ⟨.initial, fun _ => 0, none⟩

/-- What a write leaves in the bytes it is made to: in `IrqStatus` the ones of the value are cleared. -/
def stored (written : Nat → Byte) (addr value : Word) (size : Nat) : Word :=
  if register addr = NvRegIrqStatus.toNat then
    LittleEndian.load 32 written (element addr size) size &&& ~~~value
  else value

def History.note (h : History) (addr value : Word) (size : Nat) (nic : NvNetState) : History :=
  { nic
    written := LittleEndian.store h.written (element addr size) (stored h.written addr value size) size
    ringSizes := if addr = NvRegRingSizes then some value else h.ringSizes }

/-- `none` when the access leaves the register array. -/
def step (h : History) : Access → Option History
  | .read addr size => (mmioRead h.nic addr size.bytes).map fun _ => h
  | .write addr value size =>
    (mmioWrite h.nic addr value size.bytes).map (h.note addr value size.bytes)

/-- The ring sizes are those of the last write of `RingSizes`. -/
def RingsOk (h : History) : Prop :=
  ∀ value, h.ringSizes = some value →
    h.nic.rx_ring_size.toNat = (ringField value NVREG_RINGSZ_RXSHIFT).toNat + 1 ∧
      h.nic.tx_ring_size.toNat = (ringField value NVREG_RINGSZ_TXSHIFT).toNat + 1

/-- The access stays inside the array, a register without side effects is read as it was last
written, and the ring sizes are right afterwards. -/
structure StepOk (h : History) (a : Access) : Prop where
  inBounds : ∃ h', step h a = some h'
  readsBack : ∀ addr size, a = .read addr size → ¬ HasSideEffects addr →
    mmioRead h.nic addr size.bytes =
      some (LittleEndian.load 32 h.written (element addr size.bytes) size.bytes)
  rings : ∀ h', step h a = some h' → RingsOk h'

/-- The condition on an access and on what was written before it: what is read is zero, the ring
sizes fit eight bits, and nothing is done that looks at or sets a register from inside. -/
def Fits (h : History) : Access → Prop
  | .read addr size => addr ≠ NvRegMIIData ∧
    (¬ HasSideEffects addr →
      LittleEndian.load 32 h.written (element addr size.bytes) size.bytes = 0)
  | .write addr value _ => addr ≠ NvRegMIIData ∧
    (addr = NvRegTxRxControl → value &&& NVREG_TXRXCTL_BIT2 = 0 ∧ value ≠ 0) ∧
    (addr = NvRegRingSizes → (ringField value NVREG_RINGSZ_RXSHIFT).toNat + 1 < 256 ∧
      (ringField value NVREG_RINGSZ_TXSHIFT).toNat + 1 < 256)

section Registers

variable {s : NvNetState}

theorem not_isSize (size : AccessSize) : ¬ IsSize (size.bytes * 8) := by
  cases size <;> decide

/-- The entry points ask the register functions for sizes that they do not know. -/
theorem getRegister_bits (s : NvNetState) (addr : Word) (size : AccessSize) :
    getRegister s addr (size.bytes * 8) = some 0 :=
  if_neg (not_isSize size)

theorem setRegister_bits (s : NvNetState) (addr value : Word) (size : AccessSize) :
    setRegister s addr value (size.bytes * 8) = some s :=
  if_neg (not_isSize size)

/-- A register in the upper part of the BAR is not in the array. -/
theorem getRegister_out {addr : Word} (h : ¬ element addr 4 + 4 ≤ REGS_SIZE) :
    getRegister s addr 4 = none := by
  rw [getRegister, if_pos (by decide), if_neg h]

theorem setRegister_out {addr value : Word} (h : ¬ element addr 4 + 4 ≤ REGS_SIZE) :
    setRegister s addr value 4 = none := by
  rw [setRegister, if_pos (by decide), if_neg h]

theorem miiReadWrite_out (s : NvNetState) : miiReadWrite s = none := by
  rw [miiReadWrite, getRegister_out (by decide)]
  rfl

theorem updateIRQ_in (s : NvNetState) : ∃ asserted, updateIRQ s = some asserted := by
  have hin (addr : Word) (h : element addr 4 + 4 ≤ REGS_SIZE) :
      ∃ value, getRegister s addr 4 = some value := by
    rw [getRegister, if_pos (by decide), if_pos h]
    exact ⟨_, rfl⟩
  obtain ⟨mask, hmask⟩ := hin NvRegIrqMask (by decide)
  obtain ⟨status, hstatus⟩ := hin NvRegIrqStatus (by decide)
  rw [updateIRQ, hmask, hstatus, Option.bind_some, Option.map_some]
  split
  · exact ⟨_, rfl⟩
  · exact ⟨_, rfl⟩

theorem mmioRead_mii (s : NvNetState) (size : AccessSize) :
    mmioRead s NvRegMIIData size.bytes = none := by
  rw [mmioRead, nvNetRead, if_pos rfl]
  exact miiReadWrite_out s

/-- Every other read gives zero. -/
theorem mmioRead_eq (s : NvNetState) {addr : Word} (h : addr ≠ NvRegMIIData) (size : AccessSize) :
    mmioRead s addr size.bytes = some 0 := by
  rw [mmioRead, nvNetRead, if_neg h, getRegister_bits]
  split_ifs <;> rfl

/-- A write that makes no access outside of the array. -/
def Inside (addr value : Word) : Prop :=
  addr ≠ NvRegMIIData ∧
    (addr = NvRegTxRxControl → value &&& NVREG_TXRXCTL_BIT2 = 0 ∧ value ≠ 0)

/-- What a write changes. -/
def withRings (s : NvNetState) (addr value : Word) : NvNetState :=
  if addr = NvRegRingSizes then
    { s with
      rx_ring_size := (ringField value NVREG_RINGSZ_RXSHIFT + 1).setWidth 8
      tx_ring_size := (ringField value NVREG_RINGSZ_TXSHIFT + 1).setWidth 8 }
  else s

theorem store_zero (i n : Nat) :
    LittleEndian.store (fun _ => 0) i (0 : Word) n = fun _ => (0 : Byte) := by
  funext k
  simp [LittleEndian.store, LittleEndian.byteAt]

/-- Clearing the interrupt status leaves registers of zeros as they are. -/
theorem setRegister_irqStatus (quiet : s.regs = fun _ => 0) :
    setRegister s NvRegIrqStatus 0 4 = some s := by
  rw [setRegister, if_pos (by decide), if_pos (by decide), quiet, store_zero, ← quiet]

theorem writeTxRxControl_in (quiet : s.regs = fun _ => 0) {value : Word}
    (bit2 : value &&& NVREG_TXRXCTL_BIT2 = 0) (nonzero : value ≠ 0) (size : AccessSize) :
    writeTxRxControl s value (size.bytes * 8) = some s := by
  rw [writeTxRxControl, if_neg (not_not.mpr bit2), setRegister_irqStatus quiet, if_neg nonzero,
    setRegister_bits, ite_self]

theorem writeTxRxControl_out (s : NvNetState) {value : Word}
    (h : ¬ (value &&& NVREG_TXRXCTL_BIT2 = 0 ∧ value ≠ 0)) (size : Nat) :
    writeTxRxControl s value size = none := by
  rw [writeTxRxControl]
  by_cases hbit : value &&& NVREG_TXRXCTL_BIT2 = 0
  · obtain rfl : value = 0 := not_not.mp fun hne => h ⟨hbit, hne⟩
    rw [if_neg (by decide), if_neg (by decide), if_pos rfl, getRegister_out (by decide)]
    rfl
  · rw [if_pos hbit]
    exact setRegister_out (by decide)

theorem mmioWrite_in (quiet : s.regs = fun _ => 0) {addr value : Word} (inside : Inside addr value)
    (size : AccessSize) : mmioWrite s addr value size.bytes = some (withRings s addr value) := by
  obtain ⟨asserted, hirq⟩ := updateIRQ_in s
  rw [mmioWrite, nvNetWrite, withRings]
  by_cases hring : addr = NvRegRingSizes
  · rw [if_pos hring, if_pos hring, writeRingSizes, setRegister_bits]
    rfl
  · rw [if_neg hring, if_neg hring, if_neg inside.1]
    by_cases htx : addr = NvRegTxRxControl
    · obtain ⟨bit2, nonzero⟩ := inside.2 htx
      rw [if_pos htx, writeTxRxControl_in quiet bit2 nonzero]
    · rw [if_neg htx, getRegister_bits, Option.bind_some, setRegister_bits, setRegister_bits,
        Option.bind_some, hirq, Option.map_some]
      split_ifs <;> rfl

theorem mmioWrite_out (s : NvNetState) {addr value : Word} (outside : ¬ Inside addr value)
    (size : AccessSize) : mmioWrite s addr value size.bytes = none := by
  rw [mmioWrite, nvNetWrite]
  by_cases hmii : addr = NvRegMIIData
  · rw [if_neg (by rw [hmii]; decide), if_pos hmii, miiReadWrite_out]
    rfl
  · have htx : addr = NvRegTxRxControl ∧ ¬ (value &&& NVREG_TXRXCTL_BIT2 = 0 ∧ value ≠ 0) := by
      by_contra hno
      exact outside ⟨hmii, fun htx => not_not.mp fun hbad => hno ⟨htx, hbad⟩⟩
    rw [if_neg (by rw [htx.1]; decide), if_neg hmii, if_pos htx.1]
    exact writeTxRxControl_out s htx.2 _

end Registers

section Rings

/-- A size is right when the field is, with one added, still below 256. -/
theorem ringSize_iff (value : Word) (shift : Nat) :
    ((ringField value shift + 1).setWidth 8).toNat = (ringField value shift).toNat + 1 ↔
      (ringField value shift).toNat + 1 < 256 := by
  have hfield : (ringField value shift).toNat ≤ 0xFFFF := by
    rw [ringField, BitVec.toNat_and]
    exact Nat.and_le_right
  rw [BitVec.toNat_setWidth, BitVec.toNat_add, show (1 : Word).toNat = 1 from rfl]
  omega

theorem ringsOk_note_iff {h : History} (rings : RingsOk h) (addr value : Word) (size : Nat) :
    RingsOk (h.note addr value size (withRings h.nic addr value)) ↔
      (addr = NvRegRingSizes → (ringField value NVREG_RINGSZ_RXSHIFT).toNat + 1 < 256 ∧
        (ringField value NVREG_RINGSZ_TXSHIFT).toNat + 1 < 256) := by
  rw [RingsOk, History.note, withRings]
  by_cases hring : addr = NvRegRingSizes
  · simp only [if_pos hring, Option.some.injEq, forall_eq', ringSize_iff]
    exact ⟨fun h _ => h, fun h => h hring⟩
  · simp only [if_neg hring]
    exact iff_of_true rings fun h => absurd h hring

end Rings

section Step

variable {h h' : History} {a : Access}

/-- The array holds zeros, and the ring sizes are right. -/
structure Quiet (h : History) : Prop where
  regs : h.nic.regs = fun _ => 0
  rings : RingsOk h

theorem quiet_initial : Quiet .initial := ⟨rfl, fun _ hno => by cases hno⟩

theorem step_write_in (quiet : Quiet h) {addr value : Word} (inside : Inside addr value)
    (size : AccessSize) :
    step h (.write addr value size) =
      some (h.note addr value size.bytes (withRings h.nic addr value)) := by
  rw [step, mmioWrite_in quiet.regs inside]
  rfl

theorem stepOk_read_iff (quiet : Quiet h) (addr : Word) (size : AccessSize) :
    StepOk h (.read addr size) ↔ Fits h (.read addr size) := by
  by_cases hmii : addr = NvRegMIIData
  · refine iff_of_false (fun hok => ?_) fun hfits => hfits.1 hmii
    obtain ⟨h', hstep⟩ := hok.inBounds
    rw [step, hmii, mmioRead_mii] at hstep
    cases hstep
  · have hread := mmioRead_eq h.nic hmii size
    have hstep : step h (.read addr size) = some h := by rw [step, hread]; rfl
    constructor
    · intro hok
      refine ⟨hmii, fun hplain => ?_⟩
      exact (Option.some.inj (hread.symm.trans (hok.readsBack addr size rfl hplain))).symm
    · intro hfits
      refine ⟨⟨h, hstep⟩, fun addr' size' heq hplain => ?_, fun h' hs => ?_⟩
      · cases heq
        rw [hread, hfits.2 hplain]
      · cases hstep.symm.trans hs
        exact quiet.rings

theorem stepOk_write_iff (quiet : Quiet h) (addr value : Word) (size : AccessSize) :
    StepOk h (.write addr value size) ↔ Fits h (.write addr value size) := by
  by_cases inside : Inside addr value
  · have hstep := step_write_in quiet inside size
    have hrings := ringsOk_note_iff quiet.rings addr value size.bytes
    constructor
    · intro hok
      exact ⟨inside.1, inside.2, hrings.mp (hok.rings _ hstep)⟩
    · intro hfits
      refine ⟨⟨_, hstep⟩, fun _ _ heq => (by cases heq), fun h' hs => ?_⟩
      cases hstep.symm.trans hs
      exact hrings.mpr hfits.2.2
  · refine iff_of_false (fun hok => ?_) fun hfits => inside ⟨hfits.1, hfits.2.1⟩
    obtain ⟨h', hstep⟩ := hok.inBounds
    rw [step, mmioWrite_out h.nic inside] at hstep
    cases hstep

theorem stepOk_iff (quiet : Quiet h) (a : Access) : StepOk h a ↔ Fits h a := by
  cases a with
  | read addr size => exact stepOk_read_iff quiet addr size
  | write addr value size => exact stepOk_write_iff quiet addr value size

/-- No access stores anything in the array. -/
theorem quiet_step (quiet : Quiet h) (hfits : Fits h a) (hstep : step h a = some h') : Quiet h' := by
  refine ⟨?_, ((stepOk_iff quiet a).mpr hfits).rings h' hstep⟩
  cases a with
  | read addr size =>
    rw [step, Option.map_eq_some_iff] at hstep
    obtain ⟨value, -, rfl⟩ := hstep
    exact quiet.regs
  | write addr value size =>
    cases (step_write_in quiet ⟨hfits.1, hfits.2.1⟩ size).symm.trans hstep
    rw [History.note, withRings]
    dsimp only
    split
    · exact quiet.regs
    · exact quiet.regs

end Step

/-- A run of accesses keeps to the contract exactly when it reads no register that something other
than zeros has been written to, sets no ring size over 255, does not touch the PHY data, and resets
nothing through `TxRxControl`. -/
theorem register_file_ok_iff (accesses : List Access) :
    Guarded step StepOk .initial accesses ↔ Guarded step Fits .initial accesses :=
  guarded_congr (I := Quiet) (fun _ a quiet => stepOk_iff quiet a)
    (fun _ _ _ quiet hfits hstep => quiet_step quiet hfits hstep) quiet_initial

/-- The MAC address that was written is read as zero. -/
theorem macAddr_reads_zero :
    ¬ Guarded step StepOk .initial
      [.write 0xA8 0x12345678 .dword, .read 0xA8 .dword] := by
  intro h
  have hread := (h.2 _ rfl).1.readsBack 0xA8 .dword rfl (by decide)
  exact absurd hread (by decide)

end OpenXbox.Nvnet.RegisterFile
