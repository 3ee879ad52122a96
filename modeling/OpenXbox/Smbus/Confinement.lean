import OpenXbox.Smbus.Bus

/-!
# Accesses of SMBus transactions

The index of the block buffer wraps before its end, so the guest's accesses to it stay
inside. A word transfer at the last byte of an EEPROM and a block write longer than what is
left of one of the two arrays do not.
-/

namespace OpenXbox.Smbus.Confinement

open OpenXbox.Smbus.Devices OpenXbox.Smbus.Bus OpenXbox.Lib.Run

/-- An access to the block buffer or to an EEPROM is inside its array. -/
def Confined (a : Access) : Prop := a.buffer = .blockData ∨ a.buffer = .eeprom → a.Inside

instance (a : Access) : Decidable (Confined a) := inferInstanceAs (Decidable (_ → _))

/-- Every byte that a call touches is one it may touch. -/
def AllConfined {α : Type} (call : Touching α) : Prop := ∀ a ∈ call.accesses, Confined a

section Calls

variable {α β : Type}

@[simp] theorem confined_blockData {i : Nat} : Confined ⟨.blockData, i⟩ ↔ i < 32 := by
  simp [Confined, Access.Inside, Buffer.size]

@[simp] theorem confined_eeprom {i : Nat} : Confined ⟨.eeprom, i⟩ ↔ i < 256 := by
  simp [Confined, Access.Inside, Buffer.size, EEPROM_SIZE]

@[simp] theorem confined_smcRegisters {i : Nat} : Confined ⟨.smcRegisters, i⟩ := by
  simp [Confined]

@[simp] theorem confined_encoderRegisters {i : Nat} : Confined ⟨.encoderRegisters, i⟩ := by
  simp [Confined]

@[simp] theorem allConfined_pure (a : α) : AllConfined (pure a : Touching α) := by
  intro a ha
  cases ha

@[simp] theorem allConfined_bind {x : Touching α} {f : α → Touching β} :
    AllConfined (x >>= f) ↔ AllConfined x ∧ AllConfined (f x.result) := by
  simp only [AllConfined, accesses_bind, List.mem_append]
  exact ⟨fun h => ⟨fun a ha => h a (.inl ha), fun a ha => h a (.inr ha)⟩,
    fun h a ha => ha.elim (h.1 a) (h.2 a)⟩

@[simp] theorem allConfined_touch {b : Buffer} {i : Nat} :
    AllConfined (touch b i) ↔ Confined ⟨b, i⟩ := by
  simp [AllConfined]

@[simp] theorem allConfined_touchRange {b : Buffer} {i n : Nat} :
    AllConfined (touchRange b i n) ↔ ∀ k, k < n → Confined ⟨b, i + k⟩ := by
  simp only [AllConfined, mem_accesses_touchRange]
  constructor
  · intro h k hk
    exact h _ ⟨k, hk, rfl⟩
  · intro h a ha
    obtain ⟨k, hk, rfl⟩ := ha
    exact h k hk

end Calls

/-! ## The calls on a device -/

section Devices

variable {mem : Nat → Byte} {command : Byte}

theorem range_confined_iff {i n size : Nat} (hi : i < size) :
    (∀ k, k < n → i + k < size) ↔ i + n ≤ size := by
  constructor
  · intro h
    by_contra hlt
    have hlast := h (size - i) (by omega)
    omega
  · intro h k hk
    omega

theorem eeprom_word_confined : AllConfined (touchRange .eeprom command.toNat 2) ↔ command ≠ 0xFF := by
  have hc := command.isLt
  have heq : command = 0xFF ↔ command.toNat = 255 := by rw [← BitVec.toNat_inj]; rfl
  simp only [allConfined_touchRange, confined_eeprom]
  rw [range_confined_iff hc, ne_eq, heq]
  omega

theorem block_source_confined {n : Nat} : AllConfined (touchRange .blockData 0 n) ↔ n ≤ 32 := by
  simp only [allConfined_touchRange, confined_blockData]
  rw [range_confined_iff (by decide), Nat.zero_add]

theorem eeprom_block_confined {n : Nat} :
    AllConfined (touchRange .eeprom command.toNat n) ↔ command.toNat + n ≤ 256 := by
  simp only [allConfined_touchRange, confined_eeprom]
  exact range_confined_iff command.isLt

theorem encoder_confined {i n : Nat} : AllConfined (touchRange .encoderRegisters i n) := by
  simp

theorem smc_readByte_confined (d : SMCDevice) : AllConfined (d.readByte command) := by
  unfold SMCDevice.readByte
  split
  all_goals simp

theorem smc_writeByte_confined (d : SMCDevice) (value : Byte) :
    AllConfined (d.writeByte command value) := by
  unfold SMCDevice.writeByte
  split
  case h_4 => split <;> simp [SMCDevice.store]
  all_goals simp [SMCDevice.store]

theorem readByte_confined (d : SMDevice) : AllConfined (d.readByte command) := by
  cases d with
  | eeprom mem => simp [SMDevice.readByte, Devices.readByte, command.isLt]
  | smc d => simp [SMDevice.readByte, smc_readByte_confined]
  | encoder regs => simp [SMDevice.readByte, Devices.readByte]

theorem writeByte_confined (d : SMDevice) (value : Byte) :
    AllConfined (d.writeByte command value) := by
  cases d with
  | eeprom mem => simp [SMDevice.writeByte, Devices.writeByte, command.isLt]
  | smc d => simp [SMDevice.writeByte, smc_writeByte_confined]
  | encoder regs => simp [SMDevice.writeByte, Devices.writeByte]

/-- A word fits in the device. -/
def WordFits (command : Byte) : SMDevice → Prop
  | .eeprom _ => command ≠ 0xFF
  | _ => True

/-- A block fits in the device and is no longer than the block buffer it is copied from. -/
def BlockFits (command : Byte) (length : Nat) : SMDevice → Prop
  | .eeprom _ => length ≤ 32 ∧ command.toNat + length ≤ 256
  | .smc _ => True
  | .encoder _ => length ≤ 32

theorem readWord_confined_iff (d : SMDevice) :
    AllConfined (d.readWord command) ↔ WordFits command d := by
  cases d with
  | eeprom mem =>
    simp only [SMDevice.readWord, Devices.readWord, allConfined_bind, allConfined_pure, and_true,
      eeprom_word_confined, WordFits]
  | smc d => simp [SMDevice.readWord, WordFits]
  | encoder regs => simp [SMDevice.readWord, Devices.readWord, WordFits]

theorem writeWord_confined_iff (d : SMDevice) (value : BitVec 16) :
    AllConfined (d.writeWord command value) ↔ WordFits command d := by
  cases d with
  | eeprom mem =>
    simp only [SMDevice.writeWord, Devices.writeWord, allConfined_bind, allConfined_pure, and_true,
      eeprom_word_confined, WordFits]
  | smc d => simp [SMDevice.writeWord, WordFits]
  | encoder regs => simp [SMDevice.writeWord, Devices.writeWord, WordFits]

theorem writeBlock_confined_iff (d : SMDevice) (data : Nat → Byte) (n : Nat) :
    AllConfined (d.writeBlock command data n) ↔ BlockFits command n d := by
  cases d with
  | eeprom mem =>
    simp only [SMDevice.writeBlock, Devices.writeBlock, allConfined_bind, allConfined_pure,
      and_true, eeprom_block_confined, block_source_confined, BlockFits]
  | smc d => simp [SMDevice.writeBlock, BlockFits]
  | encoder regs =>
    simp only [SMDevice.writeBlock, Devices.writeBlock, allConfined_bind, allConfined_pure,
      and_true, block_source_confined, encoder_confined, BlockFits]

end Devices

/-! ## Transactions -/

/-- The transaction passes the end of neither array: a word does not start at the last byte
of an EEPROM, and a block that is written fits. -/
def TransferFits (s : SMBus) (d : SMDevice) : Prop :=
  (s.prot = AMD756_WORD_DATA → WordFits s.command d) ∧
    (s.prot = AMD756_BLOCK_DATA → s.isRead = false → BlockFits s.command s.data0.toNat d)

def TransactionFits (s : SMBus) : Prop := ∀ d ∈ s.devices s.deviceAddress, TransferFits s d

theorem transferFits_of_ne {s : SMBus} (d : SMDevice) (hw : s.prot ≠ AMD756_WORD_DATA)
    (hb : s.prot ≠ AMD756_BLOCK_DATA) : TransferFits s d :=
  ⟨fun h => absurd h hw, fun h => absurd h hb⟩

theorem transferFits_word {s : SMBus} (d : SMDevice) (h : s.prot = AMD756_WORD_DATA) :
    TransferFits s d ↔ WordFits s.command d := by
  have hb : s.prot ≠ AMD756_BLOCK_DATA := by rw [h]; decide
  exact ⟨fun hfits => hfits.1 h, fun hword => ⟨fun _ => hword, fun hblock => absurd hblock hb⟩⟩

theorem transferFits_block {s : SMBus} (d : SMDevice) (h : s.prot = AMD756_BLOCK_DATA) :
    TransferFits s d ↔ (s.isRead = false → BlockFits s.command s.data0.toNat d) := by
  have hw : s.prot ≠ AMD756_WORD_DATA := by rw [h]; decide
  exact ⟨fun hfits => hfits.2 h, fun hblock => ⟨fun hword => absurd hword hw, fun _ => hblock⟩⟩

theorem forall_call_iff {call : Touching SMBus} {P : Prop} (h : AllConfined call ↔ P) :
    (∀ c ∈ some call, AllConfined c) ↔ P := by
  rw [← h]
  simp only [Option.mem_some_iff, forall_eq']

theorem transfer_confined_iff (s : SMBus) (d : SMDevice) :
    (∀ call ∈ s.transfer d, AllConfined call) ↔ TransferFits s d := by
  rw [SMBus.transfer]
  by_cases hquick : s.prot = AMD756_QUICK
  · rw [if_pos hquick]
    refine forall_call_iff (iff_of_true (allConfined_pure _) (transferFits_of_ne d ?_ ?_))
    · rw [hquick]; decide
    · rw [hquick]; decide
  rw [if_neg hquick]
  by_cases hbyte : s.prot = AMD756_BYTE
  · have hfits : TransferFits s d :=
      transferFits_of_ne d (by rw [hbyte]; decide) (by rw [hbyte]; decide)
    rw [if_pos hbyte]
    split
    · exact forall_call_iff (iff_of_true (allConfined_pure _) hfits)
    · exact forall_call_iff (iff_of_true (allConfined_pure _) hfits)
  rw [if_neg hbyte]
  by_cases hdata : s.prot = AMD756_BYTE_DATA
  · have hfits : TransferFits s d :=
      transferFits_of_ne d (by rw [hdata]; decide) (by rw [hdata]; decide)
    rw [if_pos hdata]
    split
    · refine forall_call_iff (iff_of_true ?_ hfits)
      exact allConfined_bind.mpr ⟨readByte_confined d, allConfined_pure _⟩
    · refine forall_call_iff (iff_of_true ?_ hfits)
      exact allConfined_bind.mpr ⟨writeByte_confined d _, allConfined_pure _⟩
  rw [if_neg hdata]
  by_cases hword : s.prot = AMD756_WORD_DATA
  · rw [if_pos hword, transferFits_word d hword]
    split
    · refine forall_call_iff ?_
      rw [allConfined_bind, readWord_confined_iff]
      exact and_iff_left (allConfined_pure _)
    · refine forall_call_iff ?_
      rw [allConfined_bind, writeWord_confined_iff]
      exact and_iff_left (allConfined_pure _)
  rw [if_neg hword]
  by_cases hblock : s.prot = AMD756_BLOCK_DATA
  · rw [if_pos hblock, transferFits_block d hblock]
    cases hread : s.isRead with
    | true => exact forall_call_iff (iff_of_true (allConfined_pure _) fun h => absurd h (by decide))
    | false =>
      rw [if_neg Bool.false_ne_true]
      refine forall_call_iff ?_
      rw [allConfined_bind, writeBlock_confined_iff, forall_prop_of_true rfl]
      exact and_iff_left (allConfined_pure _)
  · rw [if_neg hblock]
    exact iff_of_true (fun call hcall => (by cases hcall)) (transferFits_of_ne d hword hblock)

theorem executeTransaction_confined_iff (s : SMBus) :
    AllConfined s.executeTransaction ↔ TransactionFits s := by
  unfold SMBus.executeTransaction TransactionFits
  cases hd : s.devices s.deviceAddress with
  | none => simp
  | some d =>
    have hone := transfer_confined_iff s d
    cases ht : s.transfer d with
    | none => simpa [ht] using hone
    | some call => simpa [ht] using hone

/-- What a register access must meet: a transaction that it starts fits. -/
def Fits (s : SMBus) : Op → Prop
  | .write barIndex port value _ =>
    barIndex = 1 → register port = SMB_GLOBAL_ENABLE → has (value.setWidth 8) GE_HOST_STC →
      TransactionFits (s.writeControl (value.setWidth 8))
  | _ => True

/-- The index of the block buffer is one of its offsets. -/
def IndexInside (s : SMBus) : Prop := s.index.toNat < 32

theorem advance_indexInside (s : SMBus) : IndexInside s.advance := by
  unfold IndexInside SMBus.advance
  dsimp only
  split
  · decide
  · next h => simpa [BitVec.lt_def, Nat.lt_succ_iff] using h

theorem pciIORead_confined {s : SMBus} (hi : IndexInside s) (barIndex : Nat) (port : Word)
    (size : Nat) : AllConfined (s.pciIORead barIndex port size) := by
  have hblock : Confined ⟨.blockData, s.index.toNat⟩ := confined_blockData.mpr hi
  refine s.pciIORead_cases (motive := AllConfined) barIndex port size (fun _ => allConfined_pure _) ?_
  exact allConfined_bind.mpr ⟨allConfined_touch.mpr hblock, allConfined_pure _⟩

theorem writeEnable_confined_iff (s : SMBus) (value : Byte) :
    AllConfined (s.writeEnable value) ↔
      (has value GE_HOST_STC → TransactionFits (s.writeControl value)) := by
  unfold SMBus.writeEnable
  cases has value GE_HOST_STC with
  | true => simp [executeTransaction_confined_iff]
  | false => simp

theorem pciIOWrite_confined {s : SMBus} (hi : IndexInside s) {barIndex : Nat} {port : Word}
    (value : Word) (size : Nat) (h : ¬ (barIndex = 1 ∧ register port = SMB_GLOBAL_ENABLE)) :
    AllConfined (s.pciIOWrite barIndex port value size) := by
  have hblock : Confined ⟨.blockData, s.index.toNat⟩ := confined_blockData.mpr hi
  refine s.pciIOWrite_cases (motive := AllConfined) barIndex port value size
    (fun _ _ => allConfined_pure _) (fun hbar henable => absurd ⟨hbar, henable⟩ h)
    (fun _ _ _ _ => allConfined_pure _) fun _ => ?_
  exact allConfined_bind.mpr ⟨allConfined_touch.mpr hblock, allConfined_pure _⟩

/-- An access to a register is confined exactly when a transaction that it starts fits. -/
theorem apply_confined_iff {s : SMBus} (hi : IndexInside s) (op : Op) :
    AllConfined (op.apply s) ↔ Fits s op := by
  cases op with
  | connect addr d => simp [Op.apply, Fits]
  | reset => simp [Op.apply, Fits]
  | read barIndex port size => simp [Op.apply, Fits, pciIORead_confined hi]
  | write barIndex port value size =>
    rw [Op.apply, Fits]
    by_cases h : barIndex = 1 ∧ register port = SMB_GLOBAL_ENABLE
    · obtain ⟨rfl, henable⟩ := h
      simp [henable, writeEnable_confined_iff]
    · simp only [pciIOWrite_confined hi value size h, true_iff]
      intro hbar henable
      exact absurd ⟨hbar, henable⟩ h

/-! ## The index over a run -/

theorem indexInside_zero {s : SMBus} (h : s.index = 0) : IndexInside s := by
  rw [IndexInside, h]
  decide

theorem writeStatus_indexInside (s : SMBus) (value : Byte) : IndexInside (s.writeStatus value) := by
  apply indexInside_zero
  unfold SMBus.writeStatus
  dsimp only
  repeat' split
  all_goals rfl

theorem writeControl_index (s : SMBus) (value : Byte) : (s.writeControl value).index = s.index := by
  unfold SMBus.writeControl
  split
  all_goals rfl

theorem signal_index (s : SMBus) (value : Byte) : (s.signal value).index = s.index := by
  unfold SMBus.signal
  split
  all_goals rfl

theorem writeEnable_index (s : SMBus) (value : Byte) :
    (s.writeEnable value).result.index = s.index := by
  unfold SMBus.writeEnable
  dsimp only
  split
  · obtain ⟨bits, t, -, hsame, heq⟩ := executeTransaction_spec (s.writeControl value)
    simp only [result_bind, result_pure, signal_index, heq]
    exact hsame.index.trans (writeControl_index s value)
  · exact writeControl_index s value

theorem pciIORead_indexInside {s : SMBus} (hi : IndexInside s) (barIndex : Nat) (port : Word)
    (size : Nat) : IndexInside (s.pciIORead barIndex port size).result.2 :=
  s.pciIORead_cases (motive := fun x => IndexInside x.result.2) barIndex port size (fun _ => hi)
    (advance_indexInside s)

theorem pciIOWrite_indexInside {s : SMBus} (hi : IndexInside s) (barIndex : Nat)
    (port value : Word) (size : Nat) :
    IndexInside (s.pciIOWrite barIndex port value size).result := by
  refine s.pciIOWrite_cases (motive := fun x => IndexInside x.result) barIndex port value size
    (fun _ _ => writeStatus_indexInside s _) (fun _ _ => ?_) (fun _ _ _ _ => hi)
    fun _ => advance_indexInside _
  rw [IndexInside, writeEnable_index]
  exact hi

theorem step_indexInside {s s' : SMBus} {op : Op} (hi : IndexInside s) (h : step s op = some s') :
    IndexInside s' := by
  cases h
  cases op with
  | connect addr d =>
    simp only [Op.apply, result_pure, SMBus.connectDevice]
    split
    all_goals exact hi
  | reset => exact hi
  | read barIndex port size => exact pciIORead_indexInside hi barIndex port size
  | write barIndex port value size => exact pciIOWrite_indexInside hi barIndex port value size

/-- Every access of a run is confined exactly when every transaction that it starts fits. -/
theorem accesses_confined_iff (behind : Nat → Byte) (ops : List Op) :
    Guarded step (fun s op => ∀ a ∈ (op.apply s).accesses, Confined a) (.new behind) ops ↔
      Guarded step Fits (.new behind) ops :=
  guarded_congr (I := IndexInside) (fun _ op hi => apply_confined_iff hi op)
    (fun _ _ _ hi _ h => step_indexInside hi h) (indexInside_zero rfl)

/-- A word read at the last byte of an EEPROM. -/
theorem word_read_past_end :
    ¬ ∀ (behind : Nat → Byte) (ops : List Op),
      Guarded step (fun s op => ∀ a ∈ (op.apply s).accesses, Confined a) (.new behind) ops := by
  intro h
  have hrun := h (fun _ => 0) [.connect 0xA8 (.eeprom fun _ => 0), .write 1 4 0xA9 1,
    .write 1 8 0xFF 1, .write 1 2 0x0B 1]
  exact absurd hrun (by decide)

end OpenXbox.Smbus.Confinement
