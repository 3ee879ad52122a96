import OpenXbox.Lib.LittleEndian

/-!
# The network controller

The registers behind the memory BAR. The register functions take a size in bytes; the entry points
of the device hand them one in bits. `none` stands for an access outside of the register array.
-/

namespace OpenXbox.Nvnet.Device

open OpenXbox.Lib

abbrev Byte := BitVec 8
abbrev Word := BitVec 32

def NvRegIrqStatus : Word := 0x000
def NvRegIrqMask : Word := 0x004
def NvRegRingSizes : Word := 0x108
def NvRegUnknownSetupReg5 : Word := 0x130
def NvRegUnknownSetupReg3 : Word := 0x134
def NvRegTxRxControl : Word := 0x144
def NvRegMIIStatus : Word := 0x180
def NvRegMIIControl : Word := 0x190
def NvRegMIIData : Word := 0x194

def NVREG_RINGSZ_TXSHIFT : Nat := 0
def NVREG_RINGSZ_RXSHIFT : Nat := 16
def NVREG_UNKSETUP5_BIT31 : Word := 0x80000000
def NVREG_UNKSETUP3_VAL1 : Word := 0x200010
def NVREG_TXRXCTL_BIT1 : Word := 0x0002
def NVREG_TXRXCTL_BIT2 : Word := 0x0004
def NVREG_TXRXCTL_IDLE : Word := 0x0008
def NVREG_MIICTL_INUSE : Word := 0x10000
def NVREG_MIICTL_WRITE : Word := 0x08000
def NVREG_MIICTL_ADDRSHIFT : Nat := 5

def MMIO_SIZE : Nat := 0x400

/-- The size of `regs`. -/
def REGS_SIZE : Nat := MMIO_SIZE / 4

def MII_BMSR : Word := 0x01
def MII_ADVERTISE : Word := 0x04
def MII_LPA : Word := 0x05

def BMSR_ANEGCOMPLETE : Word := 0x0020
def BMSR_BIT2 : Word := 0x0004
def LPA_10HALF : Word := 0x0020
def LPA_10FULL : Word := 0x0040
def LPA_100HALF : Word := 0x0080
def LPA_100FULL : Word := 0x0100
def LPA_100BASE4 : Word := 0x0200

structure NvNetState where
  regs : Nat → Byte
  tx_ring_size : Byte
  rx_ring_size : Byte

/-- The state is a global variable. -/
def NvNetState.initial : NvNetState := ⟨fun _ => 0, 0, 0⟩

/-- The index of the first byte of the element that `addr` falls in, in the array taken as one of
elements of `size` bytes. -/
def element (addr : Word) (size : Nat) : Nat := addr.toNat / size * size

/-- The sizes of the cases of the register functions. -/
def IsSize (size : Nat) : Prop := size = 4 ∨ size = 2 ∨ size = 1

instance (size : Nat) : Decidable (IsSize size) :=
  inferInstanceAs (Decidable (size = 4 ∨ size = 2 ∨ size = 1))

def getRegister (s : NvNetState) (addr : Word) (size : Nat) : Option Word :=
  if IsSize size then
    if element addr size + size ≤ REGS_SIZE then
      some (LittleEndian.load 32 s.regs (element addr size) size)
    else none
  else some 0

def setRegister (s : NvNetState) (addr value : Word) (size : Nat) : Option NvNetState :=
  if IsSize size then
    if element addr size + size ≤ REGS_SIZE then
      some { s with regs := LittleEndian.store s.regs (element addr size) value size }
    else none
  else some s

/-- Whether the interrupt would be asserted. -/
def updateIRQ (s : NvNetState) : Option Bool :=
  (getRegister s NvRegIrqMask 4).bind fun mask =>
    if mask = 0 then some false
    else (getRegister s NvRegIrqStatus 4).map fun status => status ≠ 0

/-- The result of a read or a write of a PHY register, for the control register `mii_ctl`. -/
def miiResult (mii_ctl : Word) : Word :=
  let phy_addr := (mii_ctl >>> NVREG_MIICTL_ADDRSHIFT) &&& 0x1F
  let reg := mii_ctl &&& ((1 <<< NVREG_MIICTL_ADDRSHIFT) - 1)
  if phy_addr ≠ 1 then -1
  else if mii_ctl &&& NVREG_MIICTL_WRITE ≠ 0 then 0
  else if reg = MII_BMSR then BMSR_ANEGCOMPLETE ||| BMSR_BIT2
  else if reg = MII_ADVERTISE ∨ reg = MII_LPA then
    LPA_10HALF ||| LPA_10FULL ||| LPA_100HALF ||| LPA_100FULL ||| LPA_100BASE4
  else 0

/-- The value given to it is not used. -/
def miiReadWrite (s : NvNetState) : Option Word := (getRegister s NvRegMIIControl 4).map miiResult

/-- `EmuNVNet_Read`. -/
def nvNetRead (s : NvNetState) (addr : Word) (size : Nat) : Option Word :=
  if addr = NvRegMIIData then miiReadWrite s
  else if addr = NvRegMIIControl then (getRegister s addr size).map (· &&& ~~~NVREG_MIICTL_INUSE)
  else if addr = NvRegMIIStatus then some 0
  else getRegister s addr size

/-- The fields of a `RingSizes` value. -/
def ringField (value : Word) (shift : Nat) : Word := (value >>> shift) &&& 0xFFFF

/-- A write of `RingSizes`. Both sizes are kept in eight bits. -/
def writeRingSizes (s : NvNetState) (value : Word) (size : Nat) : Option NvNetState :=
  (setRegister s NvRegRingSizes value size).map fun s =>
    { s with
      rx_ring_size := (ringField value NVREG_RINGSZ_RXSHIFT + 1).setWidth 8
      tx_ring_size := (ringField value NVREG_RINGSZ_TXSHIFT + 1).setWidth 8 }

/-- A write of `TxRxControl`. Kicking the transmission is not implemented. -/
def writeTxRxControl (s : NvNetState) (value : Word) (size : Nat) : Option NvNetState :=
  if value &&& NVREG_TXRXCTL_BIT2 ≠ 0 then setRegister s NvRegTxRxControl NVREG_TXRXCTL_IDLE 4
  else if value &&& NVREG_TXRXCTL_BIT1 ≠ 0 then setRegister s NvRegIrqStatus 0 4
  else if value = 0 then
    (getRegister s NvRegUnknownSetupReg3 4).bind fun temp =>
      if temp = NVREG_UNKSETUP3_VAL1 then
        setRegister s NvRegUnknownSetupReg5 NVREG_UNKSETUP5_BIT31 4
      else setRegister s NvRegTxRxControl value size
  else setRegister s NvRegTxRxControl value size

/-- `EmuNVNet_Write`. -/
def nvNetWrite (s : NvNetState) (addr value : Word) (size : Nat) : Option NvNetState :=
  if addr = NvRegRingSizes then writeRingSizes s value size
  else if addr = NvRegMIIData then (miiReadWrite s).map fun _ => s
  else if addr = NvRegTxRxControl then writeTxRxControl s value size
  else if addr = NvRegIrqMask then
    (setRegister s addr value size).bind fun s => (updateIRQ s).map fun _ => s
  else if addr = NvRegIrqStatus then
    (getRegister s addr size).bind fun status =>
      (setRegister s addr (status &&& ~~~value) size).bind fun s => (updateIRQ s).map fun _ => s
  else setRegister s addr value size

/-- `PCIMMIORead` and `PCIMMIOWrite` of the memory BAR. -/
def mmioRead (s : NvNetState) (addr : Word) (size : Nat) : Option Word := nvNetRead s addr (size * 8)

def mmioWrite (s : NvNetState) (addr value : Word) (size : Nat) : Option NvNetState :=
  nvNetWrite s addr value (size * 8)

end OpenXbox.Nvnet.Device
