import OpenXbox.Lib.Run
import OpenXbox.Pci.Device

/-!
# Accesses to the configuration space

The guest selects a device and a register with the address port, and reads and writes the
register through the four ports of the data. The ports are added to the number of the
register, so that an access can start or end past the last byte.
-/

namespace OpenXbox.Pci.ConfigSpace

open OpenXbox.Lib.Run OpenXbox.Lib.BitField OpenXbox.Lib.LittleEndian OpenXbox.Pci.Device

/-! ## The masks of a device -/

/-- The devices that the constructor and `RegisterBAR` make. -/
inductive Built : PCIDevice → Prop where
  | new (c : Identity) : Built (PCIDevice.new c)
  | registerBAR {d d' : PCIDevice} {index : Int} {size type : Word} {accepted : Bool} (h : Built d)
      (hcall : d.registerBAR index size type = .ok (d', accepted)) : Built d'

/-- No bit is both writable and cleared by a 1. -/
def Apart (d : PCIDevice) : Prop := ∀ k, d.writeMask k &&& d.write1ToClearMask k = 0

/-- An index that `RegisterBAR` accepts is in range, and was free. -/
theorem registerBAR_cases {d d' : PCIDevice} {index : Int} {size type : Word} {accepted : Bool}
    (h : d.registerBAR index size type = .ok (d', accepted)) :
    (accepted = false ∧ d' = d) ∨
      ∃ i count, accepted = true ∧ index = ((i : Nat) : Int) ∧ d.numBARs = some count ∧ i < count ∧
        d.barSizes i = 0 ∧
        d' = { d with
          barSizes := Function.update d.barSizes i size
          configSpace := d.configSpace.write32 (barOffset i) type
          writeMask := d.writeMask.write32 (barOffset i) (~~~(size - 1)) } := by
  unfold PCIDevice.registerBAR at h
  cases hcount : d.numBARs with
  | none =>
    rw [hcount] at h
    cases h
    exact .inl ⟨rfl, rfl⟩
  | some count =>
    simp only [hcount] at h
    split_ifs at h with hge hneg hused
    · cases h
      exact .inl ⟨rfl, rfl⟩
    · cases h
      exact .inl ⟨rfl, rfl⟩
    · cases h
      exact .inr ⟨index.toNat, count, rfl, by omega, rfl, by omega, not_not.mp hused, rfl⟩

theorem numBARs_le {headerType : Byte} {count : Nat} (h : numBARs headerType = some count) :
    count ≤ 6 := by
  unfold numBARs at h
  split_ifs at h <;> cases h <;> decide

/-- The bytes of the base address registers. -/
def InBars (k : Nat) : Prop := 0x10 ≤ k ∧ k < 0x28

theorem headerClearMask_of_out {k : Nat} (hk : ¬ (PCI_STATUS ≤ k ∧ k < PCI_STATUS + 2)) :
    headerClearMask k = 0 := by
  unfold headerClearMask Bytes.write16
  exact store_of_out hk statusErrors

/-- Only the two bytes of the status have bits that a 1 clears. -/
theorem and_headerClearMask {mask : Bytes} (hlow : mask 6 &&& headerClearMask 6 = 0)
    (hhigh : mask 7 &&& headerClearMask 7 = 0) (k : Nat) : mask k &&& headerClearMask k = 0 := by
  by_cases hstatus : PCI_STATUS ≤ k ∧ k < PCI_STATUS + 2
  · obtain rfl | rfl : k = 6 ∨ k = 7 := by
      simp only [PCI_STATUS] at hstatus
      omega
    · exact hlow
    · exact hhigh
  · rw [headerClearMask_of_out hstatus]
    exact BitVec.and_zero

theorem new_apart (c : Identity) : Apart (PCIDevice.new c) := by
  intro k
  unfold PCIDevice.new
  dsimp only
  split
  · by_cases hbridge : 0x3e ≤ k ∧ k < 0x40
    · obtain rfl | rfl : k = 0x3e ∨ k = 0x3f := by omega
      · decide
      · decide
    have hclear : headerClearMask.write16 PCI_BRIDGE_CONTROL PCI_BRIDGE_CTL_DISCARD_STATUS k =
        headerClearMask k := store_of_out (i := PCI_BRIDGE_CONTROL) hbridge _
    rw [hclear]
    exact and_headerClearMask (by decide) (by decide) k
  · exact and_headerClearMask (by decide) (by decide) k

theorem new_clear_bars (c : Identity) {k : Nat} (hk : InBars k) :
    (PCIDevice.new c).write1ToClearMask k = 0 := by
  obtain ⟨hlow, hhigh⟩ := hk
  have hheader : headerClearMask k = 0 := headerClearMask_of_out fun h => by
    simp only [PCI_STATUS] at h
    omega
  unfold PCIDevice.new
  dsimp only
  split
  · have hbridge : ¬ (PCI_BRIDGE_CONTROL ≤ k ∧ k < PCI_BRIDGE_CONTROL + 2) := fun h => by
      simp only [PCI_BRIDGE_CONTROL] at h
      omega
    exact (store_of_out hbridge _).trans hheader
  · exact hheader

theorem barOffset_inBars {i count k : Nat} {headerType : Byte} (hcount : numBARs headerType = some count)
    (hi : i < count) (hk : barOffset i ≤ k ∧ k < barOffset i + 4) : InBars k := by
  have hle := numBARs_le hcount
  simp only [barOffset, PCI_BASE_ADDRESS_0] at hk
  unfold InBars
  omega

/-- The mask of a BAR goes where no bit is cleared by a 1. -/
theorem Apart.registered {d : PCIDevice} (hapart : Apart d)
    (hbars : ∀ k, InBars k → d.write1ToClearMask k = 0) {i count : Nat} (hcount : d.numBARs = some count)
    (hi : i < count) (value : Word) (k : Nat) :
    d.writeMask.write32 (barOffset i) value k &&& d.write1ToClearMask k = 0 := by
  by_cases hk : barOffset i ≤ k ∧ k < barOffset i + 4
  · rw [hbars k (barOffset_inBars hcount hi hk)]
    exact BitVec.and_zero
  · rw [Bytes.write32, store_of_out hk]
    exact hapart k

/-- The masks of a device that has been built are apart, and no bit of its base address registers
is cleared by a 1. -/
theorem built_masks {d : PCIDevice} (h : Built d) :
    Apart d ∧ ∀ k, InBars k → d.write1ToClearMask k = 0 := by
  induction h with
  | new c => exact ⟨new_apart c, fun k => new_clear_bars c⟩
  | registerBAR hbuilt hcall ih =>
    obtain ⟨hapart, hbars⟩ := ih
    rcases registerBAR_cases hcall with ⟨-, rfl⟩ | ⟨i, count, -, -, hcount, hi, -, rfl⟩
    · exact ⟨hapart, hbars⟩
    · exact ⟨hapart.registered hbars hcount hi _, hbars⟩

/-! ## A write to the space -/

/-- A bit of the space after a write. -/
def writtenBit (d : PCIDevice) (reg : Nat) (value : Word) (size k j : Nat) : Bool :=
  let old := (d.configSpace k).getLsbD j
  if reg ≤ k ∧ k < reg + size then
    let new := value.getLsbD (8 * (k - reg) + j)
    if (d.writeMask k).getLsbD j then new
    else if (d.write1ToClearMask k).getLsbD j then old && !new
    else old
  else old

structure Written (d d' : PCIDevice) (reg : Nat) (value : Word) (size : Nat) : Prop where
  bits : ∀ k j, j < 8 → (d'.configSpace k).getLsbD j = writtenBit d reg value size k j
  rest : d' = { d with configSpace := d'.configSpace }

/-- A write that stays inside the space is made, bit by bit. -/
theorem writeConfig_written {d : PCIDevice} (hapart : Apart d) {reg size : Nat} (value : Word)
    (hin : reg + size ≤ 256) :
    ∃ d', d.writeConfig reg value size = .ok d' ∧ Written d d' reg value size := by
  induction size generalizing d reg value with
  | zero =>
    refine ⟨d, rfl, fun k j _ => ?_, rfl⟩
    rw [writtenBit, if_neg (by omega)]
  | succ size ih =>
    have hin' : reg + 1 + size ≤ 256 := by omega
    have hapart1 : Apart (d.writeByte reg (value.setWidth 8)) := hapart
    obtain ⟨d', hok, hbits, hrest⟩ := ih hapart1 (value >>> 8) hin'
    refine ⟨d', ?_, fun k j hj => ?_, hrest⟩
    · rw [PCIDevice.writeConfig, if_neg (by omega), if_neg (not_not.mpr (hapart reg))]
      exact hok
    rw [hbits k j hj]
    by_cases hk : k = reg
    · subst hk
      have hfirst : (d.writeByte k (value.setWidth 8)).configSpace k = maskedWrite (d.writeMask k)
          (d.write1ToClearMask k) (d.configSpace k) (value.setWidth 8) := Function.update_self _ _ _
      unfold writtenBit
      dsimp only
      rw [if_neg (show ¬ (k + 1 ≤ k ∧ k < k + 1 + size) by omega),
        if_pos (show k ≤ k ∧ k < k + (size + 1) by omega), hfirst, getLsbD_maskedWrite (hapart k),
        Nat.sub_self, Nat.mul_zero, Nat.zero_add, BitVec.getLsbD_setWidth, decide_eq_true hj,
        Bool.true_and]
    · have hother : (d.writeByte reg (value.setWidth 8)).configSpace k = d.configSpace k :=
        Function.update_of_ne hk _ _
      unfold writtenBit
      rw [hother]
      dsimp only
      by_cases hrange : reg + 1 ≤ k ∧ k < reg + 1 + size
      · rw [if_pos hrange, if_pos (show reg ≤ k ∧ k < reg + (size + 1) by omega),
          BitVec.getLsbD_ushiftRight,
          show 8 + (8 * (k - (reg + 1)) + j) = 8 * (k - reg) + j by omega]
        rfl
      · rw [if_neg hrange, if_neg (show ¬ (reg ≤ k ∧ k < reg + (size + 1)) by omega)]

/-- Other writes get past the last byte. -/
theorem writeConfig_outside {d : PCIDevice} (hapart : Apart d) {reg size : Nat} (value : Word)
    (hsize : 0 < size) (hout : ¬ reg + size ≤ 256) :
    d.writeConfig reg value size = .error .outOfBounds := by
  induction size generalizing d reg value with
  | zero => cases hsize
  | succ size ih =>
    rw [PCIDevice.writeConfig]
    split
    · rfl
    · next hlt =>
      rw [if_neg (not_not.mpr (hapart reg))]
      have hapart1 : Apart (d.writeByte reg (value.setWidth 8)) := hapart
      exact ih hapart1 (value >>> 8) (by omega) (by omega)

/-! ## The bus -/

/-- The devices by their numbers, and the register of the address port. -/
structure PCIBus where
  devices : Word → Option PCIDevice
  configAddress : Word

def PCI_CONFIG_REGISTER_MASK : Word := 0xFC

/-- The fields of `PCIConfigAddressRegister`. -/
def registerNumber (address : Word) : Word := address &&& 0xFF
def functionNumber (address : Word) : Word := (address >>> 8) &&& 7
def deviceNumber (address : Word) : Word := (address >>> 11) &&& 0x1F
def busNumber (address : Word) : Word := (address >>> 16) &&& 0xFF

def PCI_DEVFN (slot function : Word) : Word := ((slot &&& 0x1f) <<< 3) ||| (function &&& 7)
def PCI_DEVID (bus devfn : Word) : Word := (bus <<< 8) ||| devfn

/-- The number of the device that is selected. -/
def PCIBus.selected (b : PCIBus) : Word :=
  PCI_DEVID (busNumber b.configAddress)
    (PCI_DEVFN (deviceNumber b.configAddress) (functionNumber b.configAddress))

/-- The first byte of an access through a port of the data. -/
def PCIBus.register (b : PCIBus) (regOffset : Nat) : Nat :=
  (registerNumber b.configAddress &&& PCI_CONFIG_REGISTER_MASK).toNat + regOffset

def PCIBus.ioReadConfigData (b : PCIBus) (size regOffset : Nat) : Except Fault Word :=
  match b.devices b.selected with
  | some d => d.readConfig (b.register regOffset) size
  | none => .ok 0xFFFFFFFF

def PCIBus.ioWriteConfigData (b : PCIBus) (value : Word) (size regOffset : Nat) : Except Fault PCIBus :=
  match b.devices b.selected with
  | some d =>
    (d.writeConfig (b.register regOffset) value size).map fun d =>
      { b with devices := Function.update b.devices b.selected (some d) }
  | none => .ok b

/-- An access of 1, 2 or 4 bytes to the address port, or to one of those of the data. -/
inductive ConfigAccess where
  | address (value : Word) (size : Nat) (allowed : size = 1 ∨ size = 2 ∨ size = 4)
  | read (port : Fin 4) (size : Nat) (allowed : size = 1 ∨ size = 2 ∨ size = 4)
  | write (port : Fin 4) (value : Word) (size : Nat) (allowed : size = 1 ∨ size = 2 ∨ size = 4)

/-- `IORead` and `IOWrite` at these ports; `none` for a fault. -/
def step (b : PCIBus) : ConfigAccess → Option PCIBus
  | .address value _ _ => some { b with configAddress := value }
  | .read port size _ => ((b.ioReadConfigData size port).map fun _ => b).toOption
  | .write port value size _ => (b.ioWriteConfigData value size port).toOption

/-- The access does what it is to do with the space of the device that is selected. -/
def Correct (b : PCIBus) : ConfigAccess → Prop
  | .address _ _ _ => True
  | .read port size _ => ∀ d, b.devices b.selected = some d →
      ∃ value, b.ioReadConfigData size port = .ok value ∧ ∀ k < 4,
        byteAt value k = if k < size then d.configSpace (b.register port + k) else 0
  | .write port value size _ => ∀ d, b.devices b.selected = some d → Apart d ∧
      ∃ d', b.ioWriteConfigData value size port =
          .ok { b with devices := Function.update b.devices b.selected (some d') } ∧
        Written d d' (b.register port) value size

/-- Its bytes are in the space. -/
def Inside (b : PCIBus) : ConfigAccess → Prop
  | .address _ _ _ => True
  | .read port size _ => (b.devices b.selected).isSome → b.register port + size ≤ 256
  | .write port _ size _ => (b.devices b.selected).isSome → b.register port + size ≤ 256

theorem correct_iff {b : PCIBus} (hapart : ∀ id d, b.devices id = some d → Apart d) (a : ConfigAccess) :
    Correct b a ↔ Inside b a := by
  cases a with
  | address value size allowed => exact Iff.rfl
  | read port size allowed =>
    unfold Correct Inside PCIBus.ioReadConfigData PCIDevice.readConfig
    dsimp only
    cases hd : b.devices b.selected with
    | none => simp
    | some d =>
      simp only [Option.some.injEq, forall_eq', Option.isSome_some, forall_const]
      constructor
      · intro h
        obtain ⟨value, hvalue, -⟩ := h
        split at hvalue
        · assumption
        · cases hvalue
      · intro hin
        refine ⟨_, if_pos hin, fun k hk => ?_⟩
        by_cases hlt : k < size
        · rw [if_pos hlt]
          exact byteAt_load _ _ (by omega) hlt
        · rw [if_neg hlt]
          exact byteAt_load_of_ge _ _ (Nat.le_of_not_lt hlt)
  | write port value size allowed =>
    unfold Correct Inside PCIBus.ioWriteConfigData
    dsimp only
    cases hd : b.devices b.selected with
    | none => simp
    | some d =>
      have hd' := hapart _ d hd
      simp only [Option.some.injEq, forall_eq', Option.isSome_some, forall_const]
      constructor
      · intro h
        obtain ⟨-, d', hok, -⟩ := h
        by_contra hout
        rw [writeConfig_outside hd' value (by omega) hout] at hok
        cases hok
      · intro hin
        obtain ⟨d', hok, hwritten⟩ := writeConfig_written hd' value hin
        refine ⟨hd', d', ?_, hwritten⟩
        rw [hok]
        rfl

/-- A write leaves the masks as they are. -/
theorem step_apart {b b' : PCIBus} {a : ConfigAccess} (hapart : ∀ id d, b.devices id = some d → Apart d)
    (hin : Inside b a) (hstep : step b a = some b') : ∀ id d, b'.devices id = some d → Apart d := by
  cases a with
  | address value size allowed =>
    cases hstep
    exact hapart
  | read port size allowed =>
    unfold step at hstep
    dsimp only at hstep
    cases hread : b.ioReadConfigData size port with
    | error fault =>
      rw [hread] at hstep
      cases hstep
    | ok value =>
      rw [hread] at hstep
      cases hstep
      exact hapart
  | write port value size allowed =>
    have hcorrect := (correct_iff hapart (.write port value size allowed)).mpr hin
    unfold step at hstep
    dsimp only at hstep
    cases hd : b.devices b.selected with
    | none =>
      unfold PCIBus.ioWriteConfigData at hstep
      rw [hd] at hstep
      cases hstep
      exact hapart
    | some d =>
      obtain ⟨hd', d', hok, hwritten⟩ := hcorrect d hd
      rw [hok] at hstep
      cases hstep
      intro id e he
      dsimp only at he
      by_cases hid : id = b.selected
      · subst hid
        rw [Function.update_self] at he
        cases he
        rw [hwritten.rest]
        exact hd'
      · rw [Function.update_of_ne hid] at he
        exact hapart id e he

/-- Over devices that have been built, every access of a run is correct exactly when every access
stays inside the space. -/
theorem config_accesses_iff {b : PCIBus} (hbuilt : ∀ id d, b.devices id = some d → Built d)
    (accesses : List ConfigAccess) :
    Guarded step Correct b accesses ↔ Guarded step Inside b accesses := by
  have hapart : ∀ id d, b.devices id = some d → Apart d := fun id d h => (built_masks (hbuilt id d h)).1
  have hagree (s : PCIBus) (a : ConfigAccess) (hs : ∀ id d, s.devices id = some d → Apart d) :
      Correct s a ↔ Inside s a := correct_iff hs a
  exact guarded_congr hagree (fun s a s' hs hin hstep => step_apart hs hin hstep) hapart

instance (b : PCIBus) (a : ConfigAccess) : Decidable (Inside b a) :=
  match a with
  | .address _ _ _ => isTrue trivial
  | .read port size _ => inferInstanceAs (Decidable (_ → b.register port + size ≤ 256))
  | .write port _ size _ => inferInstanceAs (Decidable (_ → b.register port + size ≤ 256))

/-- The SMBus controller, before its registers are set up. -/
def smbus : PCIDevice :=
  PCIDevice.new ⟨PCI_HEADER_TYPE_NORMAL, 0x10DE, 0x01B4, 0xD1, 0x0C, 0x05, 0x00, 0, 0⟩

/-- It is connected as function 1 of device 1. -/
def smbusOnly : PCIBus := ⟨fun id => if id = 9 then some smbus else none, 0⟩

theorem smbusOnly_built (id : Word) (d : PCIDevice) (h : smbusOnly.devices id = some d) : Built d := by
  unfold smbusOnly at h
  dsimp only at h
  split at h
  · cases h
    exact .new _
  · cases h

/-- I/O is enabled in the command register, and the register is read again. -/
theorem smbusOnly_correct :
    Guarded step Correct smbusOnly
      [.address 0x80000904 4 (by decide), .write 0 1 2 (by decide), .read 0 4 (by decide)] :=
  (config_accesses_iff smbusOnly_built _).mpr (by decide)

/-- Two bytes are written from the last byte of the last register on. -/
theorem last_register_outside :
    ¬ ∀ (b : PCIBus) (accesses : List ConfigAccess), (∀ id d, b.devices id = some d → Built d) →
      Guarded step Correct b accesses := by
  intro h
  have hguarded := h smbusOnly [.address 0x800009FC 4 (by decide), .write 3 0 2 (by decide)] smbusOnly_built
  have hwrite := (hguarded.2 _ rfl).1 smbus rfl
  obtain ⟨-, d', hok, -⟩ := hwrite
  cases hok

end OpenXbox.Pci.ConfigSpace
