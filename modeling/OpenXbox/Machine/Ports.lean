import OpenXbox.Common.IOMapper

/-!
# The ports of the machine

The devices ask for their ports one after the other when the hardware is set up. The Super I/O chip
and its serial ports are there when the settings enable them. The PCI bus is asked besides, for what
is not mapped.
-/

namespace OpenXbox.Machine.Ports

open OpenXbox.Common.IOMapper OpenXbox.Lib

inductive Device where
  | i8259
  | i8254
  | cmos
  | ata
  | pciBus
  | superio
  | serial (i : Fin 2)
  deriving DecidableEq

def PORT_PIC_MASTER_BASE : Nat := 0x20
def PORT_PIC_SLAVE_BASE : Nat := 0xA0
def PORT_PIC_ELCR_BASE : Nat := 0x4D0
def PORT_PIC_COUNT : Nat := 2
def PORT_PIT_BASE : Nat := 0x40
def PORT_PIT_COUNT : Nat := 4
def PORT_CMOS_BASE : Nat := 0x70
def PORT_CMOS_COUNT : Nat := 3
def kPrimaryCommandBasePort : Nat := 0x1F0
def kPrimaryCommandPortCount : Nat := 8
def kPrimaryControlPort : Nat := 0x3F6
def kSecondaryCommandBasePort : Nat := 0x170
def kSecondaryCommandPortCount : Nat := 8
def kSecondaryControlPort : Nat := 0x376
def PORT_PCI_CONFIG_ADDRESS : Nat := 0xCF8
def PORT_PCI_CONFIG_DATA : Nat := 0xCFC
def PORT_SUPERIO_BASE : Nat := 0x2E
def PORT_SUPERIO_COUNT : Nat := 2
def PORT_SERIAL_BASE_1 : Nat := 0x3F8
def PORT_SERIAL_BASE_2 : Nat := 0x2F8
def PORT_SERIAL_COUNT : Nat := 7

/-- A call of `MapIODevice`; `MapIO` comes back at the first one that fails. -/
structure Range where
  device : Device
  base : Nat
  count : Nat

/-- The calls of `MapIO` of a device. -/
def Device.ranges : Device → List Range
  | .i8259 => [⟨.i8259, PORT_PIC_MASTER_BASE, PORT_PIC_COUNT⟩,
      ⟨.i8259, PORT_PIC_SLAVE_BASE, PORT_PIC_COUNT⟩, ⟨.i8259, PORT_PIC_ELCR_BASE, PORT_PIC_COUNT⟩]
  | .i8254 => [⟨.i8254, PORT_PIT_BASE, PORT_PIT_COUNT⟩]
  | .cmos => [⟨.cmos, PORT_CMOS_BASE, PORT_CMOS_COUNT⟩]
  | .ata => [⟨.ata, kPrimaryCommandBasePort, kPrimaryCommandPortCount⟩, ⟨.ata, kPrimaryControlPort, 1⟩,
      ⟨.ata, kSecondaryCommandBasePort, kSecondaryCommandPortCount⟩, ⟨.ata, kSecondaryControlPort, 1⟩]
  | .pciBus => [⟨.pciBus, PORT_PCI_CONFIG_ADDRESS, 1⟩, ⟨.pciBus, PORT_PCI_CONFIG_DATA, 4⟩]
  | .superio => [⟨.superio, PORT_SUPERIO_BASE, PORT_SUPERIO_COUNT⟩,
      ⟨.serial ⟨0, by decide⟩, PORT_SERIAL_BASE_1, PORT_SERIAL_COUNT⟩,
      ⟨.serial ⟨1, by decide⟩, PORT_SERIAL_BASE_2, PORT_SERIAL_COUNT⟩]
  | .serial _ => []

/-- `MapIO`. -/
def mapPorts (s : Mapper Device) : List Range → Mapper Device × Bool
  | [] => (s, true)
  | r :: rs =>
    let (s, accepted) := mapIODevice s r.base r.count r.device
    if accepted then mapPorts s rs else (s, false)

/-- The devices that `InitHardware` maps, in order. -/
def mappedDevices (superIOEnabled : Bool) : List Device :=
  [.i8259, .i8254, .cmos, .ata, .pciBus] ++ if superIOEnabled then [.superio] else []

/-- The mapper after `InitHardware`, which does not look at what `MapIO` returns. -/
def ioMapper (superIOEnabled : Bool) : Mapper Device :=
  (mappedDevices superIOEnabled).foldl (fun s d => (mapPorts s d.ranges).1) Mapper.initial

/-- All that has been asked for. -/
def wanted (superIOEnabled : Bool) : List Range := (mappedDevices superIOEnabled).flatMap Device.ranges

def Range.Has (r : Range) (port : Nat) : Prop := r.base ≤ port ∧ port < r.base + r.count

/-! ## Looking up -/

/-- The entry is the one for a range. -/
def IsEntry (r : Range) (e : Nat × MappedDevice Device) : Prop :=
  e.1 = r.base ∧ e.2.baseAddress = r.base ∧ e.2.lastAddress + 1 = r.base + r.count ∧
    e.2.device = r.device

instance (r : Range) (e : Nat × MappedDevice Device) : Decidable (IsEntry r e) :=
  inferInstanceAs (Decidable (_ ∧ _ ∧ _ ∧ _))

/-- Every call is accepted. -/
theorem mapped_entries (superIOEnabled : Bool) :
    (∀ e ∈ (ioMapper superIOEnabled).mappedIODevices.entries,
      ∃ r ∈ wanted superIOEnabled, IsEntry r e) ∧
    ∀ r ∈ wanted superIOEnabled,
      ∃ e ∈ (ioMapper superIOEnabled).mappedIODevices.entries, IsEntry r e := by
  cases superIOEnabled <;> decide +kernel

theorem mapped_apart (superIOEnabled : Bool) :
    ∀ a ∈ (ioMapper superIOEnabled).mappedIODevices.entries,
      ∀ b ∈ (ioMapper superIOEnabled).mappedIODevices.entries,
        (a.1 ≤ a.2.lastAddress ∧ a.2.baseAddress = a.1) ∧ (a.1 < b.1 → a.2.lastAddress < b.1) := by
  cases superIOEnabled <;> decide +kernel

theorem ranges_ioMapper (superIOEnabled : Bool) : Ranges (ioMapper superIOEnabled).mappedIODevices where
  base_eq e he := (mapped_apart superIOEnabled e he e he).1.2
  ordered e he := (mapped_apart superIOEnabled e he e he).1.1
  disjoint a ha b hb := (mapped_apart superIOEnabled a ha b hb).2

theorem covers_iff {r : Range} {e : Nat × MappedDevice Device} (h : IsEntry r e) (port : Nat) :
    Covers e port ↔ r.Has port := by
  obtain ⟨hbase, -, hlast, -⟩ := h
  unfold Covers Range.Has
  omega

/-- A port belongs to the device that has asked for it. -/
theorem lookup_iff (superIOEnabled : Bool) (port : Nat) (d : Device) :
    lookupDevice (ioMapper superIOEnabled).mappedIODevices port = some d ↔
      ∃ r ∈ wanted superIOEnabled, r.device = d ∧ r.Has port := by
  constructor
  · intro h
    obtain ⟨e, he, hcovers, rfl⟩ := lookupDevice_eq_some h
    obtain ⟨r, hr, hentry⟩ := (mapped_entries superIOEnabled).1 e he
    exact ⟨r, hr, hentry.2.2.2.symm, (covers_iff hentry port).mp hcovers⟩
  · rintro ⟨r, hr, rfl, hhas⟩
    obtain ⟨e, he, hentry⟩ := (mapped_entries superIOEnabled).2 r hr
    rw [lookupDevice_of_covers (ranges_ioMapper superIOEnabled) he ((covers_iff hentry port).mpr hhas),
      hentry.2.2.2]

theorem lookup_none_iff (superIOEnabled : Bool) (port : Nat) :
    lookupDevice (ioMapper superIOEnabled).mappedIODevices port = none ↔
      ∀ r ∈ wanted superIOEnabled, ¬ r.Has port := by
  rw [Option.eq_none_iff_forall_ne_some]
  constructor
  · intro h r hr hhas
    exact h r.device ((lookup_iff superIOEnabled port r.device).mpr ⟨r, hr, rfl, hhas⟩)
  · intro h d hd
    obtain ⟨r, hr, -, hhas⟩ := (lookup_iff superIOEnabled port d).mp hd
    exact h r hr hhas

end OpenXbox.Machine.Ports
