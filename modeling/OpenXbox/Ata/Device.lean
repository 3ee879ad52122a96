import OpenXbox.Lib.Flags
import OpenXbox.Lib.LittleEndian

/-!
# An ATA device

The command handlers of one of the two devices of a channel. They work on the registers of the
channel, and return whether the command succeeded. What a driver does is a parameter.
-/

namespace OpenXbox.Ata.Device

open OpenXbox.Lib OpenXbox.Lib.Flags

abbrev Byte := BitVec 8
abbrev Word := BitVec 32

def StBusy : Byte := 0x80
def StReady : Byte := 0x40
def StBit5 : Byte := 0x20
def StDataRequest : Byte := 0x08
def StError : Byte := 0x01

def ErrAbort : Byte := 0x04

def kDevSelectorBit : Nat := 4

def kMaximumPIOTransferMode : Byte := 4
def kMaximumMultiwordDMATransferMode : Byte := 2
def kMaximumUltraDMATransferMode : Byte := 4

def SFCmdSetTransferMode : Byte := 0x03

/-- `sizeof(IdentifyDeviceData)`. -/
def identifyDeviceDataSize : Nat := 512

inductive PIOTransferType
  | default
  | flowCtl
  deriving DecidableEq

/-- The default type has two modes, with and without IORDY. -/
def PIOTransferType.maximumMode : PIOTransferType → Byte
  | .default => 1
  | .flowCtl => kMaximumPIOTransferMode

inductive DMATransferType
  | multiWord
  | ultra
  deriving DecidableEq

def DMATransferType.maximumMode : DMATransferType → Byte
  | .multiWord => kMaximumMultiwordDMATransferMode
  | .ultra => kMaximumUltraDMATransferMode

structure ATARegisters where
  status : Byte
  error : Byte
  features : Byte
  sectorCount : Byte
  sectorNumber : Byte
  cylinder : BitVec 16
  deviceHead : Byte
  control : Byte
  deriving DecidableEq

def ATARegisters.initial : ATARegisters := ⟨StReady, 0, 0, 0, 0, 0, 0, 0⟩

def ATARegisters.setStatus (regs : ATARegisters) (status : Byte) : ATARegisters :=
  { regs with status := status }

/-- `IATADeviceDriver`: whether a device is there, and the data it identifies itself with. -/
structure ATADeviceDriver where
  isAttached : Bool
  identifyDevice : Fin identifyDeviceDataSize → Byte

/-- The driver of a device that none has been set for. It says that it is attached. -/
def nullATADeviceDriver : ATADeviceDriver := ⟨true, fun _ => 0⟩

/-- The data buffer is its `m_dataBufferSize` bytes. -/
structure ATADevice where
  devIndex : Fin 2
  driver : ATADeviceDriver
  pioTransferType : PIOTransferType
  pioTransferMode : Byte
  dmaTransferType : DMATransferType
  dmaTransferMode : Byte
  dataBuffer : List Byte
  dataBufferPos : Nat

def ATADevice.initial (driver : ATADeviceDriver) (devIndex : Fin 2) : ATADevice :=
  { devIndex, driver
    pioTransferType := .default, pioTransferMode := 0
    dmaTransferType := .multiWord, dmaTransferMode := 0
    dataBuffer := [], dataBufferPos := 0 }

def ATADevice.getRemainingBufferLength (dev : ATADevice) : Nat :=
  dev.dataBuffer.length - dev.dataBufferPos

/-- The bytes copied out, as many as there are left of the `length` asked for. -/
def ATADevice.readBuffer (dev : ATADevice) (length : Nat) : List Byte × ATADevice :=
  let lenToRead :=
    if dev.dataBufferPos + length > dev.dataBuffer.length then dev.getRemainingBufferLength
    else length
  ((dev.dataBuffer.drop dev.dataBufferPos).take lenToRead,
    { dev with dataBufferPos := dev.dataBufferPos + lenToRead })

/-- What a command handler returns: success, the device and the registers. -/
structure Outcome where
  succeeded : Bool
  dev : ATADevice
  regs : ATARegisters

/-- `DEV` of the Device/Head register names the device. -/
def ATADevice.select (dev : ATADevice) (regs : ATARegisters) : ATARegisters :=
  { regs with
    deviceHead := (regs.deviceHead &&& ~~~(1#8 <<< kDevSelectorBit)) |||
      (BitVec.ofNat 8 dev.devIndex <<< kDevSelectorBit) }

/-- `__doIdentifyDevice`. The buffer is set up for the data and then filled by the driver. -/
def ATADevice.doIdentifyDevice (dev : ATADevice) (regs : ATARegisters) : Outcome :=
  if regs.status &&& StReady = 0 then ⟨false, dev, regs⟩
  else ⟨true, { dev with dataBuffer := List.ofFn dev.driver.identifyDevice, dataBufferPos := 0 }, regs⟩

def ATADevice.identifyDevice (dev : ATADevice) (regs : ATARegisters) : Outcome :=
  let r := dev.doIdentifyDevice regs
  if r.succeeded then
    let regs := r.dev.select r.regs
    let regs := regs.setStatus (regs.status ||| StReady)
    ⟨true, r.dev, regs.setStatus (regs.status &&& ~~~(StBit5 ||| StDataRequest ||| StError))⟩
  else r

/-- A transfer mode beyond the highest one aborts the command. -/
def ATADevice.setPIOTransferMode (dev : ATADevice) (regs : ATARegisters) (type : PIOTransferType)
    (mode : Byte) : Outcome :=
  if mode > type.maximumMode then ⟨false, dev, { regs with error := regs.error ||| ErrAbort }⟩
  else ⟨true, { dev with pioTransferType := type, pioTransferMode := mode }, regs⟩

def ATADevice.setDMATransferMode (dev : ATADevice) (regs : ATARegisters) (type : DMATransferType)
    (mode : Byte) : Outcome :=
  if mode > type.maximumMode then ⟨false, dev, { regs with error := regs.error ||| ErrAbort }⟩
  else ⟨true, { dev with dmaTransferType := type, dmaTransferMode := mode }, regs⟩

/-- The transfer mode is in the Sector Count register: five bits of type, three of mode. -/
def ATADevice.setTransferMode (dev : ATADevice) (regs : ATARegisters) : Outcome :=
  let transferType := (regs.sectorCount >>> 3) &&& 0b11111
  let transferMode := regs.sectorCount &&& 0b111
  if transferType = 0b00000 then dev.setPIOTransferMode regs .default transferMode
  else if transferType = 0b00001 then dev.setPIOTransferMode regs .flowCtl transferMode
  else if transferType = 0b00100 then dev.setDMATransferMode regs .multiWord transferMode
  else if transferType = 0b01000 then dev.setDMATransferMode regs .ultra transferMode
  else ⟨false, dev, regs⟩

/-- `__doSetFeatures`. -/
def ATADevice.doSetFeatures (dev : ATADevice) (regs : ATARegisters) : Outcome :=
  if regs.features = SFCmdSetTransferMode then dev.setTransferMode regs else ⟨false, dev, regs⟩

def ATADevice.setFeatures (dev : ATADevice) (regs : ATARegisters) : Outcome :=
  let r := dev.doSetFeatures regs
  if r.succeeded then r
  else
    let regs := r.dev.select r.regs
    let regs := regs.setStatus (regs.status ||| StReady)
    let regs := regs.setStatus (regs.status &&& ~~~StDataRequest)
    ⟨false, r.dev, if regs.error ≠ 0 then regs.setStatus (regs.status ||| StError) else regs⟩

/-- The handlers do not touch the control register. -/
@[simp] theorem identifyDevice_control (dev : ATADevice) (regs : ATARegisters) :
    (dev.identifyDevice regs).regs.control = regs.control := by
  rw [ATADevice.identifyDevice, ATADevice.doIdentifyDevice]
  by_cases hready : regs.status &&& StReady = 0
  · rw [if_pos hready]
    rfl
  · rw [if_neg hready]
    rfl

theorem setPIOTransferMode_control (dev : ATADevice) (regs : ATARegisters) (type : PIOTransferType)
    (mode : Byte) : (dev.setPIOTransferMode regs type mode).regs.control = regs.control := by
  rw [ATADevice.setPIOTransferMode]
  split <;> rfl

theorem setDMATransferMode_control (dev : ATADevice) (regs : ATARegisters) (type : DMATransferType)
    (mode : Byte) : (dev.setDMATransferMode regs type mode).regs.control = regs.control := by
  rw [ATADevice.setDMATransferMode]
  split <;> rfl

theorem doSetFeatures_control (dev : ATADevice) (regs : ATARegisters) :
    (dev.doSetFeatures regs).regs.control = regs.control := by
  rw [ATADevice.doSetFeatures, ATADevice.setTransferMode]
  split_ifs
  · exact setPIOTransferMode_control ..
  · exact setPIOTransferMode_control ..
  · exact setDMATransferMode_control ..
  · exact setDMATransferMode_control ..
  · rfl
  · rfl

@[simp] theorem setFeatures_control (dev : ATADevice) (regs : ATARegisters) :
    (dev.setFeatures regs).regs.control = regs.control := by
  rw [← doSetFeatures_control dev regs, ATADevice.setFeatures]
  dsimp only
  split_ifs <;> rfl

end OpenXbox.Ata.Device
