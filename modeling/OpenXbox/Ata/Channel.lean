import OpenXbox.Ata.Device
import Mathlib.Logic.Function.Basic

/-!
# An ATA channel

The command ports and the control port of a channel of two devices. The calls of the IRQ handler
are a log. The size of an access matters to the data register only: any other register is read
and written at any size, with a message in the debug log.
-/

namespace OpenXbox.Ata.Channel

open OpenXbox.Lib OpenXbox.Lib.Flags OpenXbox.Ata.Device

def RegData : Byte := 0
def RegError : Byte := 1
def RegFeatures : Byte := 1
def RegSectorCount : Byte := 2
def RegSectorNumber : Byte := 3
def RegCylinderLow : Byte := 4
def RegCylinderHigh : Byte := 5
def RegDeviceHead : Byte := 6
def RegStatus : Byte := 7
def RegCommand : Byte := 7

def DevCtlNegateInterruptEnable : Byte := 0x02

def CmdDeviceReset : Word := 0x08
def CmdIdentifyDevice : Byte := 0xEC
def CmdSetFeatures : Byte := 0xEF
def CmdSecurityUnlock : Byte := 0xF2

inductive CommandProtocol
  | pioDataIn
  | pioDataOut
  | nonData
  deriving DecidableEq

def kCmdProtocols (cmd : Byte) : Option CommandProtocol :=
  if cmd = CmdIdentifyDevice then some .pioDataIn
  else if cmd = CmdSetFeatures then some .nonData
  else if cmd = CmdSecurityUnlock then some .pioDataOut
  else none

structure ATAChannel where
  devs : Fin 2 → ATADevice
  regs : ATARegisters
  interrupt : Bool
  irqNum : Byte
  /-- The calls of `HandleIRQ` so far: the number and the level. -/
  irqs : List (Byte × Bool)

def ATAChannel.initial (drivers : Fin 2 → ATADeviceDriver) (irqNum : Byte) : ATAChannel :=
  { devs := fun i => .initial (drivers i) i
    regs := .initial
    interrupt := false
    irqNum
    irqs := [] }

def ATAChannel.selectedDeviceIndex (ch : ATAChannel) : Fin 2 :=
  if (ch.regs.deviceHead >>> kDevSelectorBit) &&& 1 = 0 then 0 else 1

def ATAChannel.selectedDevice (ch : ATAChannel) : ATADevice := ch.devs ch.selectedDeviceIndex

def ATAChannel.areInterruptsEnabled (ch : ATAChannel) : Bool :=
  !has ch.regs.control DevCtlNegateInterruptEnable

def ATAChannel.setRegs (ch : ATAChannel) (regs : ATARegisters) : ATAChannel := { ch with regs := regs }

def ATAChannel.setDevice (ch : ATAChannel) (i : Fin 2) (dev : ATADevice) : ATAChannel :=
  { ch with devs := Function.update ch.devs i dev }

def setInterrupt (ch : ATAChannel) (asserted : Bool) : ATAChannel :=
  if asserted ≠ ch.interrupt ∧ ch.areInterruptsEnabled then
    { ch with interrupt := asserted, irqs := ch.irqs ++ [(ch.irqNum, asserted)] }
  else ch

/-- What the caller of a port access sees. -/
structure Response where
  /-- `*value` after a read. -/
  value : Option Word
  /-- The result of the function. -/
  handled : Bool
  /-- `assert(0)` has been reached. -/
  asserts : Bool
  deriving DecidableEq

/-- The bytes that are there make up the value, the rest of it is zero. The port instructions
have sizes up to four. -/
def readData (ch : ATAChannel) (size : Nat) : Word × ATAChannel :=
  let i := ch.selectedDeviceIndex
  let r := (ch.devs i).readBuffer size
  let ch := ch.setDevice i r.2
  (LittleEndian.load 32 (fun k => r.1.getD k 0) 0 4,
    ch.setRegs (ch.regs.setStatus (ch.regs.status &&& ~~~StDataRequest)))

/-- Only the low byte of the value is written. -/
def readStatus (ch : ATAChannel) (value : Word) : Word × ATAChannel :=
  let ch := setInterrupt ch false
  ((value &&& ~~~0xFF) ||| ch.regs.status.setWidth 32, ch)

/-- The switch over the registers of `ReadCommandPort`. -/
def readRegister (ch : ATAChannel) (reg : Byte) (value : Word) (size : Nat) : Word × ATAChannel :=
  if reg = RegData then readData ch size
  else if reg = RegError then (ch.regs.error.setWidth 32, ch)
  else if reg = RegSectorCount then (ch.regs.sectorCount.setWidth 32, ch)
  else if reg = RegSectorNumber then (ch.regs.sectorNumber.setWidth 32, ch)
  else if reg = RegCylinderLow then ((ch.regs.cylinder &&& 0xFF).setWidth 32, ch)
  else if reg = RegCylinderHigh then (((ch.regs.cylinder >>> 8) &&& 0xFF).setWidth 32, ch)
  else if reg = RegDeviceHead then (ch.regs.deviceHead.setWidth 32, ch)
  else readStatus ch value

/-- `value` is what the variable of the caller holds. -/
def readCommandPort (ch : ATAChannel) (reg : Byte) (value : Word) (size : Nat) :
    ATAChannel × Response :=
  if reg > RegCommand then (ch, ⟨some 0, false, true⟩)
  else if !ch.selectedDevice.driver.isAttached ∧ reg ≠ RegStatus then (ch, ⟨some 0, true, false⟩)
  else
    let r := readRegister ch reg value size
    (r.2, ⟨some r.1, true, false⟩)

def readControlPort (ch : ATAChannel) (value : Word) : ATAChannel × Response :=
  let r := readStatus ch value
  (r.2, ⟨some r.1, true, false⟩)

/-- The command itself, between the setting of `BSY` and the handling of its result. -/
def runCommand (dev : ATADevice) (regs : ATARegisters) (cmd : Byte) : Outcome :=
  if cmd = CmdSetFeatures then dev.setFeatures regs
  else if cmd = CmdIdentifyDevice then dev.identifyDevice regs
  else ⟨false, dev, regs⟩

/-- The status after a command: `DRQ` on a PIO transfer, `ERR` on a failure, and `BSY` cleared. -/
def completeStatus (protocol : CommandProtocol) (succeeded : Bool) (status : Byte) : Byte :=
  let status :=
    if succeeded then
      if protocol = .pioDataIn ∨ protocol = .pioDataOut then status ||| StDataRequest else status
    else status ||| StError
  status &&& ~~~StBusy

def writeCommand (ch : ATAChannel) (cmd : Byte) : ATAChannel :=
  match kCmdProtocols cmd with
  | none => ch.setRegs (ch.regs.setStatus (ch.regs.status ||| StError))
  | some protocol =>
    let i := ch.selectedDeviceIndex
    let r := runCommand (ch.devs i) (ch.regs.setStatus (ch.regs.status ||| StBusy)) cmd
    let regs := r.regs.setStatus (completeStatus protocol r.succeeded r.regs.status)
    let ch := (ch.setDevice i r.dev).setRegs regs
    if ch.areInterruptsEnabled then setInterrupt ch true else ch

/-- The switch over the registers of `WriteCommandPort`. The data register takes no writes. -/
def writeRegister (ch : ATAChannel) (reg : Byte) (value : Word) : ATAChannel :=
  if reg = RegData then ch
  else if reg = RegFeatures then ch.setRegs { ch.regs with features := value.setWidth 8 }
  else if reg = RegSectorCount then ch.setRegs { ch.regs with sectorCount := value.setWidth 8 }
  else if reg = RegSectorNumber then ch.setRegs { ch.regs with sectorNumber := value.setWidth 8 }
  else if reg = RegCylinderLow then
    ch.setRegs { ch.regs with
      cylinder := (ch.regs.cylinder &&& 0xFF00) ||| (value &&& 0xFF).setWidth 16 }
  else if reg = RegCylinderHigh then
    ch.setRegs { ch.regs with
      cylinder := (ch.regs.cylinder &&& 0x00FF) ||| ((value &&& 0xFF) <<< 8).setWidth 16 }
  else if reg = RegDeviceHead then ch.setRegs { ch.regs with deviceHead := value.setWidth 8 }
  else writeCommand ch (value.setWidth 8)

/-- While the device is busy, all writes but the Device Reset command are ignored. -/
def writeCommandPort (ch : ATAChannel) (reg : Byte) (value : Word) : ATAChannel × Response :=
  if reg > RegCommand then (ch, ⟨none, false, true⟩)
  else if has ch.regs.status StBusy ∧ (reg ≠ RegCommand ∨ value ≠ CmdDeviceReset) then
    (ch, ⟨none, true, false⟩)
  else (writeRegister ch reg value, ⟨none, true, false⟩)

/-- The line is lowered before `nIEN` takes effect. -/
def writeControlPort (ch : ATAChannel) (value : Word) : ATAChannel × Response :=
  let ch := if has value (DevCtlNegateInterruptEnable.setWidth 32) then setInterrupt ch false else ch
  (ch.setRegs { ch.regs with control := value.setWidth 8 }, ⟨none, false, false⟩)

/-- An access to one of the ports of a channel. -/
inductive Access
  | readCommand (reg : Byte) (value : Word) (size : Nat)
  | writeCommand (reg : Byte) (value : Word) (size : Nat)
  | readControl (value : Word) (size : Nat)
  | writeControl (value : Word) (size : Nat)

def access (ch : ATAChannel) : Access → ATAChannel × Response
  | .readCommand reg value size => readCommandPort ch reg value size
  | .writeCommand reg value _ => writeCommandPort ch reg value
  | .readControl value _ => readControlPort ch value
  | .writeControl value _ => writeControlPort ch value

end OpenXbox.Ata.Channel
