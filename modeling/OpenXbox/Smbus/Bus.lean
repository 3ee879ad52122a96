import OpenXbox.Smbus.Devices
import OpenXbox.Lib.Run

/-!
# The System Management bus

The register block of the controller. A write to the enable register starts a transaction
with the device that the address register names. `line` is the level that the controller
gave its interrupt last.
-/

namespace OpenXbox.Smbus.Bus

open OpenXbox.Smbus.Devices OpenXbox.Lib.Run

abbrev Word := BitVec 32

def SMB_GLOBAL_STATUS : Nat := 0x0
def SMB_GLOBAL_ENABLE : Nat := 0x2
def SMB_HOST_ADDRESS : Nat := 0x4
def SMB_HOST_DATA : Nat := 0x6
def SMB_HOST_COMMAND : Nat := 0x8
def SMB_HOST_BLOCK_DATA : Nat := 0x9

def AMD756_QUICK : Nat := 0x00
def AMD756_BYTE : Nat := 0x01
def AMD756_BYTE_DATA : Nat := 0x02
def AMD756_WORD_DATA : Nat := 0x03
def AMD756_BLOCK_DATA : Nat := 0x05

def GS_ABRT_STS : Byte := 1 <<< 0
def GS_PRERR_STS : Byte := 1 <<< 2
def GS_HCYC_STS : Byte := 1 <<< 4
/-- Abort, collision, protocol error, cycle complete and timeout. -/
def GS_CLEAR_STS : Byte := 0x37

def GE_CYC_TYPE_MASK : Byte := 7
def GE_HOST_STC : Byte := 1 <<< 3
def GE_HCYC_EN : Byte := 1 <<< 4
def GE_ABORT : Byte := 1 <<< 5

structure SMBus where
  status : Byte
  control : Byte
  command : Byte
  address : Byte
  data0 : Byte
  data1 : Byte
  data : Nat → Byte
  index : Byte
  line : Bool
  devices : Byte → Option SMDevice

/-- `reg & mask` as a condition. -/
def has (reg mask : Byte) : Bool := reg &&& mask != 0

/-- The register that a port selects. -/
def register (port : Word) : Nat := (port &&& 0x3f).toNat

namespace SMBus

/-- As constructed; what lies behind the block buffer is not the constructor's. -/
def new (behind : Nat → Byte) : SMBus where
  status := 0
  control := 0
  command := 0
  address := 0
  data0 := 0
  data1 := 0
  data := fun i => if i < 32 then 0 else behind i
  index := 0
  line := false
  devices := fun _ => none

def reset (s : SMBus) : SMBus :=
  { s with status := 0, devices := fun a => (s.devices a).map SMDevice.reset }

def setDevice (s : SMBus) (addr : Byte) (d : SMDevice) : SMBus :=
  { s with devices := fun a => if a = addr then some d else s.devices a }

def connectDevice (s : SMBus) (addr : Byte) (d : SMDevice) : SMBus :=
  let devAddr := (addr >>> 1) &&& 0x7f
  match s.devices devAddr with
  | some _ => s
  | none => s.setDevice devAddr d.init

/-- `m_irq->Handle(level)`. -/
def handle (s : SMBus) (level : Bool) : SMBus := { s with line := level }

def setStatus (s : SMBus) (bits : Byte) : SMBus := { s with status := s.status ||| bits }

/-- The address without its read bit. -/
def deviceAddress (s : SMBus) : Byte := (s.address >>> 1) &&& 0x7f

def isRead (s : SMBus) : Bool := has s.address 0x01

/-- The type of the cycle. -/
def prot (s : SMBus) : Nat := (s.control &&& GE_CYC_TYPE_MASK).toNat

/-- The calls of one protocol on the device; `none` for a protocol that is not known. -/
def transfer (s : SMBus) (d : SMDevice) : Option (Touching SMBus) :=
  let put := s.setDevice s.deviceAddress
  if s.prot = AMD756_QUICK then some (return put (d.quickCommand s.isRead))
  else if s.prot = AMD756_BYTE then
    if s.isRead then some (return { s with data0 := d.receiveByte })
    else some (return put (d.sendByte s.command))
  else if s.prot = AMD756_BYTE_DATA then
    if s.isRead then some do
      let (value, d) ← d.readByte s.command
      return { put d with data0 := value }
    else some (return put (← d.writeByte s.command s.data0))
  else if s.prot = AMD756_WORD_DATA then
    if s.isRead then some do
      let val ← d.readWord s.command
      return { s with data0 := (val &&& 0xFF).setWidth 8, data1 := (val >>> 8).setWidth 8 }
    else some (return put (← d.writeWord s.command (s.data1 ++ s.data0)))
  else if s.prot = AMD756_BLOCK_DATA then
    if s.isRead then some (return { s with data0 := BitVec.ofNat 8 (d.readBlock s.command) })
    else some (return put (← d.writeBlock s.command s.data s.data0.toNat))
  else none

def executeTransaction (s : SMBus) : Touching SMBus :=
  match s.devices s.deviceAddress with
  | none => return s.setStatus GS_PRERR_STS
  | some d =>
    match s.transfer d with
    | none => return s.setStatus GS_PRERR_STS
    | some call => return (← call).setStatus GS_HCYC_STS

/-! ### Registers -/

/-- The index of the block buffer moved on. -/
def advance (s : SMBus) : SMBus :=
  { s with index := if s.index + 1 > 31 then 0 else s.index + 1 }

def readData (s : SMBus) (size : Nat) : Word :=
  if size = 2 then (s.data1 ++ s.data0).setWidth 32 else s.data0.setWidth 32

def writeData (s : SMBus) (value : Word) (size : Nat) : SMBus :=
  if size = 2 then
    { s with data0 := (value &&& 0xFF).setWidth 8, data1 := ((value >>> 8) &&& 0xFF).setWidth 8 }
  else { s with data0 := value.setWidth 8 }

def pciIORead (s : SMBus) (barIndex : Nat) (port : Word) (size : Nat) : Touching (Word × SMBus) :=
  if barIndex ≠ 1 then return (0, s)
  else
    let port := register port
    if port = SMB_GLOBAL_STATUS then return (s.status.setWidth 32, s)
    else if port = SMB_GLOBAL_ENABLE then return ((s.control &&& 0x1f).setWidth 32, s)
    else if port = SMB_HOST_COMMAND then return (s.command.setWidth 32, s)
    else if port = SMB_HOST_ADDRESS then return (s.address.setWidth 32, s)
    else if port = SMB_HOST_DATA then return (s.readData size, s)
    else if port = SMB_HOST_DATA + 1 then return (s.data1.setWidth 32, s)
    else if port = SMB_HOST_BLOCK_DATA then do
      touch .blockData s.index.toNat
      return ((s.data s.index.toNat).setWidth 32, s.advance)
    else return (0, s)

def writeStatus (s : SMBus) (value : Byte) : SMBus :=
  let s :=
    if has s.control GE_HCYC_EN &&
        (value &&& GS_CLEAR_STS) &&& ~~~(s.status &&& GS_CLEAR_STS) != 0 then
      s.handle true
    else s.handle false
  if has value GS_CLEAR_STS then { s with status := 0, index := 0 }
  else if has value GS_HCYC_STS then { s with status := GS_HCYC_STS, index := 0 }
  else { s with status := GS_HCYC_STS, index := 0 }

/-- The control register and the abort bit, before a transaction starts. -/
def writeControl (s : SMBus) (value : Byte) : SMBus :=
  let s := { s with control := value }
  if has value GE_ABORT then s.setStatus GS_ABRT_STS else s

/-- The interrupt after the transaction. -/
def signal (s : SMBus) (value : Byte) : SMBus :=
  if has value GE_HCYC_EN && has s.status GS_CLEAR_STS then s.handle true else s

def writeEnable (s : SMBus) (value : Byte) : Touching SMBus :=
  let s := s.writeControl value
  if has value GE_HOST_STC then return (← s.executeTransaction).signal value
  else return s

/-- The registers are 8 bits wide, and no flag that a write tests lies above them. -/
def pciIOWrite (s : SMBus) (barIndex : Nat) (port value : Word) (size : Nat) : Touching SMBus :=
  if barIndex ≠ 1 then return s
  else
    let port := register port
    let low : Byte := value.setWidth 8
    if port = SMB_GLOBAL_STATUS then return s.writeStatus low
    else if port = SMB_GLOBAL_ENABLE then s.writeEnable low
    else if port = SMB_HOST_COMMAND then return { s with command := low }
    else if port = SMB_HOST_ADDRESS then return { s with address := low }
    else if port = SMB_HOST_DATA then return s.writeData value size
    else if port = SMB_HOST_DATA + 1 then return { s with data1 := low }
    else if port = SMB_HOST_BLOCK_DATA then do
      touch .blockData s.index.toNat
      let index := s.index.toNat
      return { s with data := fun i => if i = index then low else s.data i }.advance
    else return s

@[simp] theorem pciIOWrite_status {s : SMBus} {port : Word} (value : Word) (size : Nat)
    (h : register port = SMB_GLOBAL_STATUS) :
    s.pciIOWrite 1 port value size = pure (s.writeStatus (value.setWidth 8)) := by
  simp [pciIOWrite, h]

@[simp] theorem pciIOWrite_enable {s : SMBus} {port : Word} (value : Word) (size : Nat)
    (h : register port = SMB_GLOBAL_ENABLE) :
    s.pciIOWrite 1 port value size = s.writeEnable (value.setWidth 8) := by
  simp [pciIOWrite, h, SMB_GLOBAL_ENABLE, SMB_GLOBAL_STATUS]

/-- A read changes nothing but the index of the block buffer. -/
theorem pciIORead_cases {motive : Touching (Word × SMBus) → Prop} (s : SMBus) (barIndex : Nat)
    (port : Word) (size : Nat) (same : ∀ value, motive (return (value, s)))
    (block : motive (do
      touch .blockData s.index.toNat
      return ((s.data s.index.toNat).setWidth 32, s.advance))) :
    motive (s.pciIORead barIndex port size) := by
  rw [pciIORead]
  by_cases hbar : barIndex ≠ 1
  · rw [if_pos hbar]
    exact same 0
  rw [if_neg hbar]
  by_cases hstatus : register port = SMB_GLOBAL_STATUS
  · rw [if_pos hstatus]
    exact same _
  rw [if_neg hstatus]
  by_cases henable : register port = SMB_GLOBAL_ENABLE
  · rw [if_pos henable]
    exact same _
  rw [if_neg henable]
  by_cases hcommand : register port = SMB_HOST_COMMAND
  · rw [if_pos hcommand]
    exact same _
  rw [if_neg hcommand]
  by_cases haddress : register port = SMB_HOST_ADDRESS
  · rw [if_pos haddress]
    exact same _
  rw [if_neg haddress]
  by_cases hdata : register port = SMB_HOST_DATA
  · rw [if_pos hdata]
    exact same _
  rw [if_neg hdata]
  by_cases hdata1 : register port = SMB_HOST_DATA + 1
  · rw [if_pos hdata1]
    exact same _
  rw [if_neg hdata1]
  by_cases hblock : register port = SMB_HOST_BLOCK_DATA
  · rw [if_pos hblock]
    exact block
  · rw [if_neg hblock]
    exact same 0

/-- A write goes to the status register, to the enable register, to the registers that only
keep it, or to the block buffer. -/
theorem pciIOWrite_cases {motive : Touching SMBus → Prop} (s : SMBus) (barIndex : Nat)
    (port value : Word) (size : Nat)
    (status : barIndex = 1 → register port = SMB_GLOBAL_STATUS →
      motive (return s.writeStatus (value.setWidth 8)))
    (enable : barIndex = 1 → register port = SMB_GLOBAL_ENABLE →
      motive (s.writeEnable (value.setWidth 8)))
    (kept : ∀ command address data0 data1, motive (return { s with
      command := command, address := address, data0 := data0, data1 := data1 }))
    (block : ∀ data, motive (do
      touch .blockData s.index.toNat
      return { s with data := data }.advance)) :
    motive (s.pciIOWrite barIndex port value size) := by
  rw [pciIOWrite]
  by_cases hbar : barIndex ≠ 1
  · rw [if_pos hbar]
    exact kept _ _ _ _
  rw [if_neg hbar]
  have hbar := not_not.mp hbar
  by_cases hstatus : register port = SMB_GLOBAL_STATUS
  · rw [if_pos hstatus]
    exact status hbar hstatus
  rw [if_neg hstatus]
  by_cases henable : register port = SMB_GLOBAL_ENABLE
  · rw [if_pos henable]
    exact enable hbar henable
  rw [if_neg henable]
  by_cases hcommand : register port = SMB_HOST_COMMAND
  · rw [if_pos hcommand]
    exact kept _ _ _ _
  rw [if_neg hcommand]
  by_cases haddress : register port = SMB_HOST_ADDRESS
  · rw [if_pos haddress]
    exact kept _ _ _ _
  rw [if_neg haddress]
  by_cases hdata : register port = SMB_HOST_DATA
  · rw [if_pos hdata, writeData]
    by_cases hsize : size = 2
    · rw [if_pos hsize]
      exact kept _ _ _ _
    · rw [if_neg hsize]
      exact kept _ _ _ _
  rw [if_neg hdata]
  by_cases hdata1 : register port = SMB_HOST_DATA + 1
  · rw [if_pos hdata1]
    exact kept _ _ _ _
  rw [if_neg hdata1]
  by_cases hblock : register port = SMB_HOST_BLOCK_DATA
  · rw [if_pos hblock]
    exact block _
  · rw [if_neg hblock]
    exact kept _ _ _ _

end SMBus

/-! ## What a transaction leaves alone -/

/-- The parts of the controller that no transfer with a device changes. -/
structure SameControl (s t : SMBus) : Prop where
  status : t.status = s.status
  control : t.control = s.control
  index : t.index = s.index
  line : t.line = s.line

theorem transfer_sameControl {s : SMBus} {d : SMDevice} {call : Touching SMBus}
    (h : s.transfer d = some call) : SameControl s call.result := by
  unfold SMBus.transfer at h
  dsimp only at h
  repeat' split at h
  all_goals
    cases h
    try exact ⟨rfl, rfl, rfl, rfl⟩

/-- A transaction ends with a protocol error or complete. -/
theorem executeTransaction_spec (s : SMBus) :
    ∃ bits t, (bits = GS_PRERR_STS ∨ bits = GS_HCYC_STS) ∧ SameControl s t ∧
      s.executeTransaction.result = t.setStatus bits := by
  unfold SMBus.executeTransaction
  split
  · exact ⟨_, s, .inl rfl, ⟨rfl, rfl, rfl, rfl⟩, rfl⟩
  · split
    · exact ⟨_, s, .inl rfl, ⟨rfl, rfl, rfl, rfl⟩, rfl⟩
    · next call h => exact ⟨_, call.result, .inr rfl, transfer_sameControl h, rfl⟩

/-! ## Runs -/

inductive Op where
  | connect (addr : Byte) (d : SMDevice)
  | reset
  | read (barIndex : Nat) (port : Word) (size : Nat)
  | write (barIndex : Nat) (port value : Word) (size : Nat)

def Op.apply (s : SMBus) : Op → Touching SMBus
  | .connect addr d => return s.connectDevice addr d
  | .reset => return s.reset
  | .read barIndex port size => return (← s.pciIORead barIndex port size).2
  | .write barIndex port value size => s.pciIOWrite barIndex port value size

def step (s : SMBus) (op : Op) : Option SMBus := some (op.apply s).result

end OpenXbox.Smbus.Bus
