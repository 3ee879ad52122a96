import OpenXbox.Lib.BitField
import OpenXbox.Lib.LittleEndian

/-!
# PCI devices

A device has 256 bytes of configuration space, with a mask of the bits that a write
changes and one of those that are cleared by writing a 1. The constructor sets the masks
by the header type, and `RegisterBAR` those of a base address register.
-/

namespace OpenXbox.Pci.Device

open OpenXbox.Lib.LittleEndian OpenXbox.Lib.BitField

abbrev Byte := BitVec 8
abbrev Word := BitVec 32

/-- What the code must not do. -/
inductive Fault where
  | outOfBounds
  | assertion
deriving DecidableEq

/-! ## Registers -/

def PCI_VENDOR_ID : Nat := 0x00
def PCI_DEVICE_ID : Nat := 0x02
def PCI_COMMAND : Nat := 0x04
def PCI_STATUS : Nat := 0x06
def PCI_REVISION_ID : Nat := 0x08
def PCI_CLASS_PROG : Nat := 0x09
def PCI_CLASS_DEVICE : Nat := 0x0a
def PCI_CACHE_LINE_SIZE : Nat := 0x0c
def PCI_HEADER_TYPE : Nat := 0x0e
def PCI_BASE_ADDRESS_0 : Nat := 0x10
def PCI_PRIMARY_BUS : Nat := 0x18
def PCI_IO_BASE : Nat := 0x1c
def PCI_IO_LIMIT : Nat := 0x1d
def PCI_MEMORY_BASE : Nat := 0x20
def PCI_MEMORY_LIMIT : Nat := 0x22
def PCI_PREF_MEMORY_BASE : Nat := 0x24
def PCI_PREF_MEMORY_LIMIT : Nat := 0x26
def PCI_PREF_BASE_UPPER32 : Nat := 0x28
def PCI_SUBSYSTEM_VENDOR_ID : Nat := 0x2c
def PCI_SUBSYSTEM_ID : Nat := 0x2e
def PCI_INTERRUPT_LINE : Nat := 0x3c
def PCI_BRIDGE_CONTROL : Nat := 0x3e
def PCI_CONFIG_HEADER_SIZE : Nat := 0x40

def PCI_HEADER_TYPE_NORMAL : Byte := 0
def PCI_HEADER_TYPE_BRIDGE : Byte := 1
def PCI_NUM_BARS_DEVICE : Nat := 6
def PCI_NUM_BARS_PCI_BRIDGE : Nat := 2

/-- I/O, memory, bus master and no INTx; SERR is set afterwards. -/
def commandMask : BitVec 16 := 0x407
def PCI_COMMAND_SERR : BitVec 16 := 0x100
/-- The parity and abort bits of the status. -/
def statusErrors : BitVec 16 := 0xF900
def PCI_IO_RANGE_MASK : Byte := 0xF0
def PCI_MEMORY_RANGE_MASK : BitVec 16 := 0xFFF0
def PCI_PREF_RANGE_MASK : BitVec 16 := 0xFFF0
def PCI_IO_RANGE_TYPE_16 : Byte := 0
def PCI_PREF_RANGE_TYPE_64 : BitVec 16 := 1
/-- The bits of the bridge control but for the status of the discard timer. -/
def bridgeControlMask : BitVec 16 := 0xBFF
def PCI_BRIDGE_CTL_DISCARD_STATUS : BitVec 16 := 0x400

/-! ## The device -/

/-- An array of 256 bytes. -/
abbrev Bytes := Nat → Byte

def Bytes.write8 (buf : Bytes) (reg : Nat) (value : Byte) : Bytes := store buf reg value 1
def Bytes.write16 (buf : Bytes) (reg : Nat) (value : BitVec 16) : Bytes := store buf reg value 2
def Bytes.write32 (buf : Bytes) (reg : Nat) (value : Word) : Bytes := store buf reg value 4
def Bytes.read8 (buf : Bytes) (reg : Nat) : Byte := buf reg
def Bytes.read16 (buf : Bytes) (reg : Nat) : BitVec 16 := load 16 buf reg 2
def Bytes.read32 (buf : Bytes) (reg : Nat) : Word := load 32 buf reg 4
def Bytes.testAndSet8 (buf : Bytes) (reg : Nat) (mask : Byte) : Bytes :=
  buf.write8 reg (buf.read8 reg ||| mask)
def Bytes.testAndSet16 (buf : Bytes) (reg : Nat) (mask : BitVec 16) : Bytes :=
  buf.write16 reg (buf.read16 reg ||| mask)

/-- `memset` of a part of the array. -/
def Bytes.fill (buf : Bytes) (start : Nat) (value : Byte) (count : Nat) : Bytes := fun k =>
  if start ≤ k ∧ k < start + count then value else buf k

/-- `PCIDevice` without its place on the bus, its interrupts and the mask of the checks, which
nothing reads. -/
structure PCIDevice where
  barSizes : Nat → Word
  configSpace : Bytes
  writeMask : Bytes
  write1ToClearMask : Bytes

/-- What the constructor is given. -/
structure Identity where
  type : Byte
  vendorID : BitVec 16
  deviceID : BitVec 16
  revisionID : Byte
  classID : Byte
  subclass : Byte
  progIF : Byte
  subsystemVendorID : BitVec 16
  subsystemID : BitVec 16

/-- The configuration space that the constructor writes. -/
def Identity.configSpace (c : Identity) : Bytes :=
  let space : Bytes := fun _ => 0
  let space := space.write8 PCI_HEADER_TYPE c.type
  let space := space.write16 PCI_VENDOR_ID c.vendorID
  let space := space.write16 PCI_DEVICE_ID c.deviceID
  let space := space.write8 PCI_REVISION_ID c.revisionID
  let space := space.write16 PCI_CLASS_DEVICE (c.classID.setWidth 16 ||| (c.subclass.setWidth 16 <<< 8))
  let space := space.write8 PCI_CLASS_PROG c.progIF
  if c.type = PCI_HEADER_TYPE_BRIDGE then
    let space := space.write16 PCI_SUBSYSTEM_VENDOR_ID c.subsystemVendorID
    let space := space.write16 PCI_SUBSYSTEM_ID c.subsystemID
    -- the types of the ranges
    let space := space.testAndSet8 PCI_IO_BASE PCI_IO_RANGE_TYPE_16
    let space := space.testAndSet8 PCI_IO_LIMIT PCI_IO_RANGE_TYPE_16
    let space := space.testAndSet16 PCI_PREF_MEMORY_BASE PCI_PREF_RANGE_TYPE_64
    space.testAndSet16 PCI_PREF_MEMORY_LIMIT PCI_PREF_RANGE_TYPE_64
  else space

def headerWriteMask : Bytes :=
  let mask : Bytes := fun _ => 0
  let mask := mask.write8 PCI_CACHE_LINE_SIZE 0xff
  let mask := mask.write8 PCI_INTERRUPT_LINE 0xff
  let mask := mask.write16 PCI_COMMAND commandMask
  let mask := mask.testAndSet16 PCI_COMMAND PCI_COMMAND_SERR
  mask.fill PCI_CONFIG_HEADER_SIZE 0xff (256 - PCI_CONFIG_HEADER_SIZE)

def bridgeWriteMask (mask : Bytes) : Bytes :=
  let mask := mask.fill PCI_PRIMARY_BUS 0xff 4
  let mask := mask.write8 PCI_IO_BASE PCI_IO_RANGE_MASK
  let mask := mask.write8 PCI_IO_LIMIT PCI_IO_RANGE_MASK
  let mask := mask.write16 PCI_MEMORY_BASE PCI_MEMORY_RANGE_MASK
  let mask := mask.write16 PCI_MEMORY_LIMIT PCI_MEMORY_RANGE_MASK
  let mask := mask.write16 PCI_PREF_MEMORY_BASE PCI_PREF_RANGE_MASK
  let mask := mask.write16 PCI_PREF_MEMORY_LIMIT PCI_PREF_RANGE_MASK
  let mask := mask.fill PCI_PREF_BASE_UPPER32 0xff 8
  mask.write16 PCI_BRIDGE_CONTROL bridgeControlMask

def headerClearMask : Bytes :=
  let mask : Bytes := fun _ => 0
  mask.write16 PCI_STATUS statusErrors

def PCIDevice.new (c : Identity) : PCIDevice :=
  { barSizes := fun _ => 0
    configSpace := c.configSpace
    writeMask := if c.type = PCI_HEADER_TYPE_BRIDGE then bridgeWriteMask headerWriteMask else headerWriteMask
    write1ToClearMask :=
      if c.type = PCI_HEADER_TYPE_BRIDGE then
        headerClearMask.write16 PCI_BRIDGE_CONTROL PCI_BRIDGE_CTL_DISCARD_STATUS
      else headerClearMask }

/-- The number of base address registers; `none` for an invalid header type. -/
def numBARs (headerType : Byte) : Option Nat :=
  if headerType = PCI_HEADER_TYPE_NORMAL then some PCI_NUM_BARS_DEVICE
  else if headerType = PCI_HEADER_TYPE_BRIDGE then some PCI_NUM_BARS_PCI_BRIDGE
  else none

def PCIDevice.numBARs (d : PCIDevice) : Option Nat := Device.numBARs (d.configSpace PCI_HEADER_TYPE)

/-- The offset of a base address register. -/
def barOffset (index : Nat) : Nat := index * 4 + PCI_BASE_ADDRESS_0

/-- `RegisterBAR`, with its result. A size that is not a power of two is only logged. -/
def PCIDevice.registerBAR (d : PCIDevice) (index : Int) (size type : Word) :
    Except Fault (PCIDevice × Bool) :=
  match d.numBARs with
  | none => .ok (d, false)
  | some count =>
    if index ≥ count then .ok (d, false)
    else if index < 0 then .error .outOfBounds
    else
      let i := index.toNat
      if d.barSizes i ≠ 0 then .ok (d, false)
      else
        .ok
          ({ d with
              barSizes := Function.update d.barSizes i size
              configSpace := d.configSpace.write32 (barOffset i) type
              writeMask := d.writeMask.write32 (barOffset i) (~~~(size - 1)) }, true)

/-- `ReadConfig` into a variable that holds 0. -/
def PCIDevice.readConfig (d : PCIDevice) (reg size : Nat) : Except Fault Word :=
  if reg + size ≤ 256 then .ok (load 32 d.configSpace reg size) else .error .outOfBounds

def PCIDevice.writeByte (d : PCIDevice) (reg : Nat) (value : Byte) : PCIDevice :=
  { d with
    configSpace := Function.update d.configSpace reg
      (maskedWrite (d.writeMask reg) (d.write1ToClearMask reg) (d.configSpace reg) value) }

/-- `WriteConfig`, byte by byte. -/
def PCIDevice.writeConfig (d : PCIDevice) (reg : Nat) (value : Word) : Nat → Except Fault PCIDevice
  | 0 => .ok d
  | size + 1 =>
    if reg ≥ 256 then .error .outOfBounds
    else if d.writeMask reg &&& d.write1ToClearMask reg ≠ 0 then .error .assertion
    else (d.writeByte reg (value.setWidth 8)).writeConfig (reg + 1) (value >>> 8) size

/-! ## Decoding of addresses -/

inductive BarType where
  | memory
  | io
deriving DecidableEq

def BarType.code : BarType → Word
  | .memory => 0
  | .io => 1

/-- The number of bits of a base address register below the address. -/
def BarType.flagBits : BarType → Nat
  | .memory => 4
  | .io => 2

/-- The base address of a register of the type whose size is not 0, when it claims the address. -/
def PCIDevice.barClaims (d : PCIDevice) (type : BarType) (addr : Word) (i : Nat) : Option Word :=
  if d.barSizes i = 0 then none
  else
    let barValue := d.configSpace.read32 (barOffset i)
    if barValue &&& 1 ≠ type.code then none
    else
      let barAddr := (barValue >>> type.flagBits) <<< type.flagBits
      if addr ≥ barAddr ∧ addr < barAddr + d.barSizes i then some barAddr else none

/-- The index and the base address of the first register that claims the address. -/
def PCIDevice.getBar (d : PCIDevice) (type : BarType) (addr : Word) : Option (Nat × Word) :=
  d.numBARs.bind fun count =>
    (List.range count).findSome? fun i => (d.barClaims type addr i).map fun base => (i, base)

def PCIDevice.getIOBar (d : PCIDevice) (port : Word) : Option (Nat × Word) := d.getBar .io port

def PCIDevice.getMMIOBar (d : PCIDevice) (addr : Word) : Option (Nat × Word) := d.getBar .memory addr

end OpenXbox.Pci.Device
