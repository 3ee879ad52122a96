import Mathlib.Data.BitVec
import Mathlib.Logic.Function.Basic

/-!
# The Super I/O chip

The configuration and data ports over the two register files. `none` stands for an access outside
of one of them. A `_DEBUG` build checks the device number of a write; both builds check it for a
read, and neither checks the register.
-/

namespace OpenXbox.Superio.Device

abbrev Byte := BitVec 8
abbrev Word := BitVec 32

def PORT_SUPERIO_CONFIG : Word := 0x2E
def PORT_SUPERIO_DATA : Word := 0x2F

def DEVICE_SERIAL_PORT_1 : Nat := 0x4
def MAX_DEVICE : Nat := 0xC

def ENTER_CONFIG_KEY : Word := 0x55
def EXIT_CONFIG_KEY : Word := 0xAA

def MAX_CONFIG_REG : Nat := 0x30
def MAX_DEVICE_REGS : Nat := 0xFF

abbrev ConfigReg := Fin MAX_CONFIG_REG
abbrev LogicalDevice := Fin MAX_DEVICE
abbrev DeviceReg := Fin MAX_DEVICE_REGS

def CONFIG_DEVICE_NUMBER : ConfigReg := ⟨0x07, by decide⟩
def CONFIG_PORT_LOW : ConfigReg := ⟨0x26, by decide⟩

def CONFIG_DEVICE_ACTIVATE : DeviceReg := ⟨0x30, by decide⟩
def CONFIG_DEVICE_INTERRUPT : DeviceReg := ⟨0x70, by decide⟩

/-- The serial ports are the logical devices from `DEVICE_SERIAL_PORT_1` on. -/
def serialDevice (i : Fin 2) : LogicalDevice :=
  ⟨DEVICE_SERIAL_PORT_1 + i, Nat.lt_of_lt_of_le (Nat.add_lt_add_left i.isLt _) (by decide)⟩

/-- What the chip sets in a serial port. -/
structure SerialPort where
  active : Bool
  irq : Byte

structure SuperIO where
  inConfigMode : Bool
  selectedReg : Word
  configRegs : ConfigReg → Byte
  deviceRegs : LogicalDevice → DeviceReg → Byte
  serialPorts : Fin 2 → SerialPort

def SuperIO.deviceNumber (s : SuperIO) : Nat := (s.configRegs CONFIG_DEVICE_NUMBER).toNat

/-- `m_deviceRegs[device][reg]`, where it is an element of the array. -/
def elementAt (device reg : Nat) : Option (LogicalDevice × DeviceReg) :=
  if h : device < MAX_DEVICE ∧ reg < MAX_DEVICE_REGS then some (⟨device, h.1⟩, ⟨reg, h.2⟩) else none

def SuperIO.element (s : SuperIO) : Option (LogicalDevice × DeviceReg) :=
  elementAt s.deviceNumber s.selectedReg.toNat

/-- `UpdateDevices`. -/
def updateDevices (s : SuperIO) : SuperIO :=
  { s with serialPorts := fun i =>
      let dev := s.deviceRegs (serialDevice i)
      if dev CONFIG_DEVICE_ACTIVATE ≠ 0 ∧ !(s.serialPorts i).active then
        ⟨true, dev CONFIG_DEVICE_INTERRUPT⟩
      else s.serialPorts i }

/-- The value of a read, if the port is one of the chip. -/
def ioRead (s : SuperIO) (port : Word) : Option (Option Byte) :=
  if port = PORT_SUPERIO_CONFIG then some (some 0)
  else if port = PORT_SUPERIO_DATA then
    if h : s.selectedReg.toNat < MAX_CONFIG_REG then
      some (some (s.configRegs ⟨s.selectedReg.toNat, h⟩))
    else if s.deviceNumber ≥ MAX_DEVICE then some (some 0)
    else s.element.map fun p => some (s.deviceRegs p.1 p.2)
  else some none

def SuperIO.setConfig (s : SuperIO) (reg : ConfigReg) (value : Byte) : SuperIO :=
  { s with configRegs := Function.update s.configRegs reg value }

def SuperIO.setDevice (s : SuperIO) (p : LogicalDevice × DeviceReg) (value : Byte) : SuperIO :=
  { s with deviceRegs := fun d r => if (d, r) = p then value else s.deviceRegs d r }

/-- A register takes the low byte of what is written. -/
def ioWrite (debug : Bool) (s : SuperIO) (port value : Word) : Option SuperIO :=
  if port = PORT_SUPERIO_CONFIG then
    if value = ENTER_CONFIG_KEY then some { s with inConfigMode := true }
    else if value = EXIT_CONFIG_KEY then some (updateDevices { s with inConfigMode := false })
    else some { s with selectedReg := value }
  else if port = PORT_SUPERIO_DATA then
    if h : s.selectedReg.toNat < MAX_CONFIG_REG then
      some (s.setConfig ⟨s.selectedReg.toNat, h⟩ (value.setWidth 8))
    else if debug ∧ s.deviceNumber ≥ MAX_DEVICE then some s
    else s.element.map fun p => s.setDevice p (value.setWidth 8)
  else some s

/-- As constructed. -/
def SuperIO.initial : SuperIO :=
  { inConfigMode := false
    selectedReg := 0
    configRegs := Function.update (fun _ => 0) CONFIG_PORT_LOW 0x2E
    deviceRegs := fun _ _ => 0
    serialPorts := fun _ => ⟨false, 0⟩ }

end OpenXbox.Superio.Device
