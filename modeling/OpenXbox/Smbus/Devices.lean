import Mathlib.Data.BitVec

/-!
# Devices on the System Management bus

The EEPROM, the system management controller and the Conexant encoder. Every call says
which bytes of which array it touches. An array is a function of the offset: the offsets
past its end are whatever the memory behind it holds.
-/

namespace OpenXbox.Smbus.Devices

abbrev Byte := BitVec 8

/-- The arrays that the bus and its devices index. -/
inductive Buffer where
  | blockData
  | eeprom
  | smcRegisters
  | encoderRegisters
deriving DecidableEq

def EEPROM_SIZE : Nat := 256

def Buffer.size : Buffer → Nat
  | .blockData => 32
  | .eeprom => EEPROM_SIZE
  | .smcRegisters => 256
  | .encoderRegisters => 256

structure Access where
  buffer : Buffer
  offset : Nat
deriving DecidableEq

/-- The byte touched belongs to the array. -/
def Access.Inside (a : Access) : Prop := a.offset < a.buffer.size

instance (a : Access) : Decidable a.Inside := inferInstanceAs (Decidable (_ < _))

/-- The result of a call with the bytes it touches. -/
structure Touching (α : Type) where
  accesses : List Access
  result : α

instance : Monad Touching where
  pure a := ⟨[], a⟩
  bind x f := ⟨x.accesses ++ (f x.result).accesses, (f x.result).result⟩

def touch (buffer : Buffer) (offset : Nat) : Touching Unit := ⟨[⟨buffer, offset⟩], ()⟩

/-- The first `length` bytes from an offset on. -/
def touchRange (buffer : Buffer) (offset length : Nat) : Touching Unit :=
  ⟨(List.range length).map fun i => ⟨buffer, offset + i⟩, ()⟩

section Touching

variable {α β : Type}

@[simp] theorem accesses_pure (a : α) : (pure a : Touching α).accesses = [] := rfl
@[simp] theorem result_pure (a : α) : (pure a : Touching α).result = a := rfl

@[simp] theorem accesses_bind (x : Touching α) (f : α → Touching β) :
    (x >>= f).accesses = x.accesses ++ (f x.result).accesses := rfl

@[simp] theorem result_bind (x : Touching α) (f : α → Touching β) :
    (x >>= f).result = (f x.result).result := rfl

@[simp] theorem accesses_touch (b : Buffer) (i : Nat) : (touch b i).accesses = [⟨b, i⟩] := rfl

@[simp] theorem mem_accesses_touchRange {b : Buffer} {i n : Nat} {a : Access} :
    a ∈ (touchRange b i n).accesses ↔ ∃ k, k < n ∧ ⟨b, i + k⟩ = a := by
  simp [touchRange]

end Touching

/-- `memcpy` of `length` bytes to an offset of the array. -/
def memcpy (mem : Nat → Byte) (offset : Nat) (data : Nat → Byte) (length : Nat) : Nat → Byte :=
  fun k => if offset ≤ k ∧ k < offset + length then data (k - offset) else mem k

def load16 (mem : Nat → Byte) (offset : Nat) : BitVec 16 := mem (offset + 1) ++ mem offset

def store16 (mem : Nat → Byte) (offset : Nat) (value : BitVec 16) : Nat → Byte :=
  memcpy mem offset (fun i => (value >>> (8 * i)).setWidth 8) 2

/-! ## An array of bytes

The EEPROM and the Conexant encoder do the same with their arrays. -/

def readByte (buffer : Buffer) (mem : Nat → Byte) (command : Byte) : Touching Byte := do
  touch buffer command.toNat
  return mem command.toNat

def readWord (buffer : Buffer) (mem : Nat → Byte) (command : Byte) : Touching (BitVec 16) := do
  touchRange buffer command.toNat 2
  return load16 mem command.toNat

def writeByte (buffer : Buffer) (mem : Nat → Byte) (command value : Byte) :
    Touching (Nat → Byte) := do
  touch buffer command.toNat
  return memcpy mem command.toNat (fun _ => value) 1

def writeWord (buffer : Buffer) (mem : Nat → Byte) (command : Byte) (value : BitVec 16) :
    Touching (Nat → Byte) := do
  touchRange buffer command.toNat 2
  return store16 mem command.toNat value

/-- The data comes from the controller's block buffer. -/
def writeBlock (buffer : Buffer) (mem : Nat → Byte) (command : Byte) (data : Nat → Byte)
    (length : Nat) : Touching (Nat → Byte) := do
  touchRange .blockData 0 length
  touchRange buffer command.toNat length
  return memcpy mem command.toNat data length

/-! ## The system management controller -/

inductive SMCRevision where
  | P01 | P2L | D01 | D05
deriving DecidableEq

structure SMCDevice where
  revision : SMCRevision
  picVersionStringIndex : Nat
  buffer : Nat → Byte

/-- The characters of the PIC version string. -/
def SMCRevision.versionString : SMCRevision → List Byte
  | .P01 => [0x50, 0x30, 0x31]
  | .P2L => [0x50, 0x30, 0x35]
  | .D01 => [0x44, 0x58, 0x42]
  | .D05 => [0x44, 0x30, 0x35]

namespace SMCDevice

def kSMC_AVPack_HDTV : Byte := 1

def init (d : SMCDevice) : SMCDevice :=
  { d with
    picVersionStringIndex := 0
    buffer := fun reg => match reg with
      | 0x04 => kSMC_AVPack_HDTV
      | 0x08 => 0xF
      | _ => 0 }

def readByte (d : SMCDevice) (command : Byte) : Touching (Byte × SMCDevice) :=
  match command.toNat with
  | 0x01 =>
    let revByte := d.revision.versionString.getD d.picVersionStringIndex 0
    return (revByte, { d with picVersionStringIndex := (d.picVersionStringIndex + 1) % 3 })
  | 0x0F => do
    touch .smcRegisters 0x0E
    return (d.buffer 0x0E, d)
  | 0x1C => return (0x52, d)
  | 0x1D => return (0x72, d)
  | 0x1E => return (0xea, d)
  | 0x1F => return (0x46, d)
  | reg => do
    touch .smcRegisters reg
    return (d.buffer reg, d)

def store (d : SMCDevice) (reg : Nat) (value : Byte) : Touching SMCDevice := do
  touch .smcRegisters reg
  return { d with buffer := fun k => if k = reg then value else d.buffer k }

def writeByte (d : SMCDevice) (command value : Byte) : Touching SMCDevice :=
  match command.toNat with
  | 0x01 => return if value = 0 then { d with picVersionStringIndex := 0 } else d
  -- The case of the reset register has no break and goes on to that of the LED mode.
  | 0x02 => return d
  | 0x07 => return d
  | 0x1B =>
    if value = 0x01 ∨ value = 0x02 ∨ value = 0x04 ∨ value = 0x08 then return d
    else d.store 0x1B value
  | reg => d.store reg value

end SMCDevice

/-! ## Any device -/

inductive SMDevice where
  | eeprom (mem : Nat → Byte)
  | smc (d : SMCDevice)
  | encoder (registers : Nat → Byte)

namespace SMDevice

def init : SMDevice → SMDevice
  | .smc d => .smc d.init
  | d => d

/-- No device does anything on a reset yet. -/
def reset (d : SMDevice) : SMDevice := d

def quickCommand (d : SMDevice) (_read : Bool) : SMDevice := d

def receiveByte (_d : SMDevice) : Byte := 0

def sendByte (d : SMDevice) (_data : Byte) : SMDevice := d

def readByte (command : Byte) : SMDevice → Touching (Byte × SMDevice)
  | .eeprom mem => return (← Devices.readByte .eeprom mem command, .eeprom mem)
  | .smc d => do
    let (value, d) ← d.readByte command
    return (value, .smc d)
  | .encoder regs => return (← Devices.readByte .encoderRegisters regs command, .encoder regs)

def readWord (command : Byte) : SMDevice → Touching (BitVec 16)
  | .eeprom mem => Devices.readWord .eeprom mem command
  | .smc _ => return 0
  | .encoder regs => Devices.readWord .encoderRegisters regs command

/-- No device implements it: the length is 0 and the buffer is left as it is. -/
def readBlock (_d : SMDevice) (_command : Byte) : Nat := 0

def writeByte (command value : Byte) : SMDevice → Touching SMDevice
  | .eeprom mem => return .eeprom (← Devices.writeByte .eeprom mem command value)
  | .smc d => return .smc (← d.writeByte command value)
  | .encoder regs => return .encoder (← Devices.writeByte .encoderRegisters regs command value)

def writeWord (command : Byte) (value : BitVec 16) : SMDevice → Touching SMDevice
  | .eeprom mem => return .eeprom (← Devices.writeWord .eeprom mem command value)
  | .smc d => return .smc d
  | .encoder regs => return .encoder (← Devices.writeWord .encoderRegisters regs command value)

def writeBlock (command : Byte) (data : Nat → Byte) (length : Nat) : SMDevice → Touching SMDevice
  | .eeprom mem => return .eeprom (← Devices.writeBlock .eeprom mem command data length)
  | .smc d => return .smc d
  | .encoder regs =>
    return .encoder (← Devices.writeBlock .encoderRegisters regs command data length)

end SMDevice

end OpenXbox.Smbus.Devices
