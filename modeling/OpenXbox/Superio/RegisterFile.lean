import OpenXbox.Lib.Run
import OpenXbox.Superio.Device

/-!
# The register files of the Super I/O chip

A device register is selected by two earlier writes, of its number and of its logical device. The
chip is followed with what has last been written to each of the registers.
-/

namespace OpenXbox.Superio.RegisterFile

open OpenXbox.Lib.Run OpenXbox.Superio.Device

inductive Op where
  | read (port : Word)
  | write (port value : Word)

/-- A chip with the last value written to each device register. -/
structure History where
  chip : SuperIO
  written : LogicalDevice → DeviceReg → Byte

/-- The device register that a data access selects. -/
def selected (s : SuperIO) : Option (LogicalDevice × DeviceReg) :=
  if s.selectedReg.toNat < MAX_CONFIG_REG then none else s.element

/-- The device register that an operation writes. -/
def target (s : SuperIO) : Op → Option (LogicalDevice × DeviceReg)
  | .read _ => none
  | .write port _ => if port = PORT_SUPERIO_DATA then selected s else none

/-- The register value of an operation. -/
def stored : Op → Byte
  | .read _ => 0
  | .write _ value => value.setWidth 8

/-- `none` when the operation leaves the arrays. -/
def access (debug : Bool) (s : SuperIO) : Op → Option SuperIO
  | .read port => (ioRead s port).map fun _ => s
  | .write port value => ioWrite debug s port value

def History.note (h : History) (op : Op) : LogicalDevice → DeviceReg → Byte :=
  fun d r => if target h.chip op = some (d, r) then stored op else h.written d r

def step (debug : Bool) (h : History) (op : Op) : Option History :=
  (access debug h.chip op).map fun s => ⟨s, h.note op⟩

def History.initial : History := ⟨.initial, fun _ _ => 0⟩

/-- All accesses are in bounds, only the register written changes, and a register that is read has
the value last written to it. -/
structure StepOk (debug : Bool) (h : History) (op : Op) : Prop where
  inBounds : ∃ s, access debug h.chip op = some s
  only : ∀ s d r, access debug h.chip op = some s → target h.chip op ≠ some (d, r) →
    s.deviceRegs d r = h.chip.deviceRegs d r
  others : ∀ s, access debug h.chip op = some s → target h.chip op ≠ none →
    s.configRegs = h.chip.configRegs ∧ s.selectedReg = h.chip.selectedReg
  readsBack : ∀ d r, op = .read PORT_SUPERIO_DATA → selected h.chip = some (d, r) →
    ioRead h.chip PORT_SUPERIO_DATA = some (some (h.written d r))

/-- A device register that is accessed is one of the array. The device number of a read is checked,
and so is that of a write in a `_DEBUG` build. -/
def Fits (debug : Bool) (h : History) : Op → Prop
  | .read port => port = PORT_SUPERIO_DATA → MAX_CONFIG_REG ≤ h.chip.selectedReg.toNat →
    h.chip.deviceNumber < MAX_DEVICE → h.chip.selectedReg.toNat < MAX_DEVICE_REGS
  | .write port _ => port = PORT_SUPERIO_DATA → MAX_CONFIG_REG ≤ h.chip.selectedReg.toNat →
    (debug = true ∧ MAX_DEVICE ≤ h.chip.deviceNumber) ∨
      (h.chip.deviceNumber < MAX_DEVICE ∧ h.chip.selectedReg.toNat < MAX_DEVICE_REGS)

section Access

variable {s s' : SuperIO} {debug : Bool}

theorem elementAt_isSome_iff (device reg : Nat) :
    (∃ p, elementAt device reg = some p) ↔ device < MAX_DEVICE ∧ reg < MAX_DEVICE_REGS := by
  rw [elementAt]
  split
  · next h => exact iff_of_true ⟨_, rfl⟩ h
  · next h =>
    refine iff_of_false ?_ h
    intro hsome
    obtain ⟨p, hp⟩ := hsome
    cases hp

theorem selected_of_ge (h : MAX_CONFIG_REG ≤ s.selectedReg.toNat) : selected s = s.element :=
  if_neg (Nat.not_lt.mpr h)

theorem selected_of_lt (h : s.selectedReg.toNat < MAX_CONFIG_REG) : selected s = none := if_pos h

theorem ioRead_config (h : s.selectedReg.toNat < MAX_CONFIG_REG) :
    ioRead s PORT_SUPERIO_DATA = some (some (s.configRegs ⟨s.selectedReg.toNat, h⟩)) := dif_pos h

theorem ioRead_device (h : MAX_CONFIG_REG ≤ s.selectedReg.toNat)
    (hdev : s.deviceNumber < MAX_DEVICE) :
    ioRead s PORT_SUPERIO_DATA = s.element.map fun p => some (s.deviceRegs p.1 p.2) :=
  (dif_neg (Nat.not_lt.mpr h)).trans (if_neg (Nat.not_le.mpr hdev))

theorem ioRead_none (h : MAX_CONFIG_REG ≤ s.selectedReg.toNat)
    (hdev : MAX_DEVICE ≤ s.deviceNumber) : ioRead s PORT_SUPERIO_DATA = some (some 0) :=
  (dif_neg (Nat.not_lt.mpr h)).trans (if_pos hdev)

theorem ioWrite_config (h : s.selectedReg.toNat < MAX_CONFIG_REG) (value : Word) :
    ioWrite debug s PORT_SUPERIO_DATA value =
      some (s.setConfig ⟨s.selectedReg.toNat, h⟩ (value.setWidth 8)) := dif_pos h

theorem ioWrite_device (h : MAX_CONFIG_REG ≤ s.selectedReg.toNat)
    (hdev : ¬ (debug = true ∧ s.deviceNumber ≥ MAX_DEVICE)) (value : Word) :
    ioWrite debug s PORT_SUPERIO_DATA value =
      s.element.map fun p => s.setDevice p (value.setWidth 8) :=
  (dif_neg (Nat.not_lt.mpr h)).trans (if_neg hdev)

theorem ioWrite_ignored (h : MAX_CONFIG_REG ≤ s.selectedReg.toNat)
    (hdev : debug = true ∧ s.deviceNumber ≥ MAX_DEVICE) (value : Word) :
    ioWrite debug s PORT_SUPERIO_DATA value = some s :=
  (dif_neg (Nat.not_lt.mpr h)).trans (if_pos hdev)

theorem setDevice_of_ne {p : LogicalDevice × DeviceReg} {value : Byte} {d : LogicalDevice}
    {r : DeviceReg} (h : (d, r) ≠ p) : (s.setDevice p value).deviceRegs d r = s.deviceRegs d r :=
  if_neg h

end Access

section Step

variable {debug : Bool} {h : History} {op : Op}

/-- The registers hold what has been written to them. -/
def Holds (h : History) : Prop := h.chip.deviceRegs = h.written

/-- An operation that writes no device register has only to be in bounds. -/
theorem stepOk_of_no_target {s : SuperIO} (hs : access debug h.chip op = some s)
    (htarget : target h.chip op = none) (hregs : s.deviceRegs = h.chip.deviceRegs)
    (hread : ∀ d r, op = .read PORT_SUPERIO_DATA → selected h.chip = some (d, r) →
      ioRead h.chip PORT_SUPERIO_DATA = some (some (h.written d r))) : StepOk debug h op := by
  refine ⟨⟨s, hs⟩, fun t d r ht _ => ?_, fun t _ hne => absurd htarget hne, hread⟩
  obtain rfl := Option.some.inj (hs.symm.trans ht)
  exact congrFun (congrFun hregs d) r

theorem stepOk_read_iff (hholds : Holds h) (port : Word) :
    StepOk debug h (.read port) ↔ Fits debug h (.read port) := by
  by_cases hport : port = PORT_SUPERIO_DATA
  · subst hport
    by_cases hlt : h.chip.selectedReg.toNat < MAX_CONFIG_REG
    · refine iff_of_true (stepOk_of_no_target (s := h.chip) ?_ rfl rfl ?_) fun _ hge =>
        absurd hlt (Nat.not_lt.mpr hge)
      · rw [access, ioRead_config hlt]
        rfl
      · intro d r _ hsel
        rw [selected_of_lt hlt] at hsel
        cases hsel
    have hge := Nat.not_lt.mp hlt
    by_cases hdev : h.chip.deviceNumber < MAX_DEVICE
    · have hread := ioRead_device hge hdev
      constructor
      · intro hok _ _ _
        obtain ⟨s, hs⟩ := hok.inBounds
        rw [access, hread] at hs
        obtain ⟨v, hv, -⟩ := Option.map_eq_some_iff.mp hs
        obtain ⟨p, hp, -⟩ := Option.map_eq_some_iff.mp hv
        exact ((elementAt_isSome_iff _ _).mp ⟨p, hp⟩).2
      · intro hfits
        obtain ⟨p, hp⟩ := (elementAt_isSome_iff _ _).mpr ⟨hdev, hfits rfl hge hdev⟩
        have hvalue : ioRead h.chip PORT_SUPERIO_DATA = some (some (h.chip.deviceRegs p.1 p.2)) := by
          rw [hread, SuperIO.element, hp]
          rfl
        refine stepOk_of_no_target (s := h.chip) ?_ rfl rfl ?_
        · rw [access, hvalue]
          rfl
        · intro d r _ hsel
          rw [selected_of_ge hge, SuperIO.element, hp] at hsel
          obtain rfl := Option.some.inj hsel
          rw [hvalue, show h.chip.deviceRegs = h.written from hholds]
    · have hnone := ioRead_none hge (Nat.not_lt.mp hdev)
      refine iff_of_true (stepOk_of_no_target (s := h.chip) ?_ rfl rfl ?_) fun _ _ hlt =>
        absurd hlt hdev
      · rw [access, hnone]
        rfl
      · intro d r _ hsel
        rw [selected_of_ge hge] at hsel
        exact absurd ((elementAt_isSome_iff _ _).mp ⟨_, hsel⟩).1 hdev
  · refine iff_of_true (stepOk_of_no_target (s := h.chip) ?_ rfl rfl ?_) fun he => absurd he hport
    · rw [access, ioRead]
      split
      · rfl
      · rfl
    · intro d r he
      exact absurd (Op.read.inj he) hport

theorem target_data (value : Word) :
    target h.chip (.write PORT_SUPERIO_DATA value) = selected h.chip := by
  rw [target]
  exact if_pos rfl

theorem stepOk_data_iff (value : Word) :
    StepOk debug h (.write PORT_SUPERIO_DATA value) ↔ Fits debug h (.write PORT_SUPERIO_DATA value) := by
  have hnot (d : LogicalDevice) (r : DeviceReg)
      (he : Op.write PORT_SUPERIO_DATA value = .read PORT_SUPERIO_DATA) :
      selected h.chip = some (d, r) →
        ioRead h.chip PORT_SUPERIO_DATA = some (some (h.written d r)) := by cases he
  by_cases hlt : h.chip.selectedReg.toNat < MAX_CONFIG_REG
  · have htarget : target h.chip (.write PORT_SUPERIO_DATA value) = none :=
      (target_data value).trans (selected_of_lt hlt)
    exact iff_of_true (stepOk_of_no_target (ioWrite_config hlt value) htarget rfl hnot) fun _ hge =>
      absurd hlt (Nat.not_lt.mpr hge)
  have hge := Nat.not_lt.mp hlt
  have htarget : target h.chip (.write PORT_SUPERIO_DATA value) = h.chip.element :=
    (target_data value).trans (selected_of_ge hge)
  by_cases hdev : debug = true ∧ h.chip.deviceNumber ≥ MAX_DEVICE
  · have hnone : h.chip.element = none := by
      cases he : h.chip.element with
      | none => rfl
      | some p =>
        exact absurd ((elementAt_isSome_iff _ _).mp ⟨p, he⟩).1 (Nat.not_lt.mpr hdev.2)
    exact iff_of_true (stepOk_of_no_target (ioWrite_ignored hge hdev value) (htarget.trans hnone) rfl hnot)
      fun _ _ => .inl hdev
  · have hwrite := ioWrite_device hge hdev value
    constructor
    · intro hok _ _
      obtain ⟨s, hs⟩ := hok.inBounds
      rw [access, hwrite] at hs
      obtain ⟨p, hp, -⟩ := Option.map_eq_some_iff.mp hs
      exact .inr ((elementAt_isSome_iff _ _).mp ⟨p, hp⟩)
    · intro hfits
      have hin := (hfits rfl hge).resolve_left hdev
      obtain ⟨p, hp⟩ := (elementAt_isSome_iff _ _).mpr hin
      have helement : h.chip.element = some p := hp
      rw [helement] at hwrite htarget
      refine ⟨⟨_, hwrite⟩, fun s d r hs hne => ?_, fun s hs _ => ?_, hnot⟩
      · obtain rfl := Option.some.inj (hwrite.symm.trans hs)
        rw [htarget] at hne
        exact setDevice_of_ne fun he => hne (congrArg some he.symm)
      · obtain rfl := Option.some.inj (hwrite.symm.trans hs)
        exact ⟨rfl, rfl⟩

theorem stepOk_iff (hholds : Holds h) (op : Op) : StepOk debug h op ↔ Fits debug h op := by
  cases op with
  | read port => exact stepOk_read_iff hholds port
  | write port value =>
    by_cases hport : port = PORT_SUPERIO_DATA
    · rw [hport]
      exact stepOk_data_iff value
    · -- the configuration port leaves the registers alone
      refine iff_of_true ?_ fun he => absurd he hport
      have hconfig : ∃ s, ioWrite debug h.chip port value = some s ∧
          s.deviceRegs = h.chip.deviceRegs := by
        rw [ioWrite]
        split
        · split
          · exact ⟨_, rfl, rfl⟩
          split
          · exact ⟨_, rfl, rfl⟩
          · exact ⟨_, rfl, rfl⟩
        · exact ⟨_, rfl, rfl⟩
      obtain ⟨s, hs, hregs⟩ := hconfig
      exact stepOk_of_no_target hs (if_neg hport) hregs fun _ _ he => by cases he

/-- The registers go on to hold what has been written to them. -/
theorem step_holds {h' : History} (hholds : Holds h) (hok : StepOk debug h op)
    (hstep : step debug h op = some h') : Holds h' := by
  obtain ⟨s, hs, rfl⟩ := Option.map_eq_some_iff.mp hstep
  funext d r
  have hold : h.chip.deviceRegs d r = h.written d r := congrFun (congrFun hholds d) r
  show s.deviceRegs d r = h.note op d r
  rw [History.note]
  split
  · next htarget =>
    cases op with
    | read port => cases htarget
    | write port value =>
      have hport : port = PORT_SUPERIO_DATA := by
        by_contra hne
        rw [target, if_neg hne] at htarget
        cases htarget
      subst hport
      rw [target_data] at htarget
      by_cases hlt : h.chip.selectedReg.toNat < MAX_CONFIG_REG
      · rw [selected_of_lt hlt] at htarget
        cases htarget
      have hge := Nat.not_lt.mp hlt
      rw [selected_of_ge hge] at htarget
      have hdev : ¬ (debug = true ∧ h.chip.deviceNumber ≥ MAX_DEVICE) := fun hd =>
        absurd ((elementAt_isSome_iff _ _).mp ⟨_, htarget⟩).1 (Nat.not_lt.mpr hd.2)
      have hwrite := ioWrite_device hge hdev value
      rw [htarget] at hwrite
      obtain rfl := Option.some.inj (hwrite.symm.trans hs)
      exact if_pos rfl
  · next hne => exact (hok.only s d r hs hne).trans hold

end Step

/-- In a build of either kind, every access is in bounds, changes what it writes and reads what has
been written, exactly when every device register that is accessed is one of the array. -/
theorem registers_ok_iff (debug : Bool) (ops : List Op) :
    Guarded (step debug) (StepOk debug) .initial ops ↔
      Guarded (step debug) (Fits debug) .initial ops := by
  apply guarded_congr (I := Holds)
  · exact fun h op hholds => stepOk_iff hholds op
  · exact fun h op h' hholds hfits hstep => step_holds hholds ((stepOk_iff hholds op).mpr hfits) hstep
  · rfl

/-- Register 0xFF is selected and read, in a build of either kind; without `_DEBUG`, a register of
device 0x0C is written. -/
theorem out_of_bounds :
    (¬ Guarded (step true) (StepOk true) .initial [.write 0x2E 0xFF, .read 0x2F]) ∧
      ¬ Guarded (step false) (StepOk false) .initial
        [.write 0x2E 0x07, .write 0x2F 0x0C, .write 0x2E 0x30, .write 0x2F 0x01] := by
  constructor
  · intro h
    obtain ⟨s, hs⟩ := (h.2 _ rfl).1.inBounds
    cases hs
  · intro h
    obtain ⟨s, hs⟩ := ((((h.2 _ rfl).2 _ rfl).2 _ rfl).1).inBounds
    cases hs

end OpenXbox.Superio.RegisterFile
