import OpenXbox.Nv2a.Registers

/-!
# The register blocks of the NV2A

The functions that a read and a write of BAR 0 get to. A read is given the contents
of the variable it stores to, since not all of them overwrite it. Registers with no
function are left out of the writes of their block.
-/

namespace OpenXbox.Nv2a.Mmio

open OpenXbox.Lib.BitField OpenXbox.Nv2a.Memory OpenXbox.Nv2a.Pusher OpenXbox.Nv2a.Machine
  OpenXbox.Nv2a.Registers

/-- What a read stores, and the device after it. -/
abbrev ReadResult := Except Fault (Word × NV2ADevice)

abbrev WriteResult := Except Fault NV2ADevice

def flag (b : Bool) : Word := if b then 1 else 0

/-- A little-endian load, zero-extended. -/
def loadBytes (mem : Nat → Byte) (i : Nat) : AccessSize → Word
  | .one => (mem i).setWidth 32
  | .two => (mem (i + 1) ++ mem i).setWidth 32
  | .four => ldlLeP mem i

/-- What the pusher or the objects make of a write. -/
def onMachine (n : NV2ADevice) : Option Machine.State → WriteResult
  | none => .error .assertion
  | some m => .ok { n with machine := m }

theorem onMachine_ok {n n' : NV2ADevice} {m : Option Machine.State} (h : onMachine n m = .ok n') :
    ∃ s, m = some s ∧ n' = { n with machine := s } := by
  cases m with
  | none => cases h
  | some s =>
    cases h
    exact ⟨s, rfl, rfl⟩

/-! ## Blocks without registers -/

/-- A read that is only logged. -/
def unknownRead (n : NV2ADevice) (_nanoseconds : BitVec 64) (_addr : Nat) (_value : Word)
    (_size : AccessSize) : ReadResult := .ok (0, n)

/-- A write that is only logged. -/
def unknownWrite (n : NV2ADevice) (_addr : Nat) (_value : Word) (_size : AccessSize) : WriteResult :=
  .ok n

def prmaRead := unknownRead
def prmaWrite := unknownWrite
def pcounterRead := unknownRead
def pcounterWrite := unknownWrite
def pvpeRead := unknownRead
def pvpeWrite := unknownWrite
def ptvRead := unknownRead
def ptvWrite := unknownWrite
def prmfbRead := unknownRead
def prmfbWrite := unknownWrite
def prmvioRead := unknownRead
def prmvioWrite := unknownWrite
def pstrapsRead := unknownRead
def pstrapsWrite := unknownWrite
def prmdioRead := unknownRead
def prmdioWrite := unknownWrite

/-! ## PMC and PBUS -/

def NV_PMC_BOOT_0 : Nat := 0
def NV_PMC_INTR_0 : Nat := 0x100
def NV_PMC_INTR_EN_0 : Nat := 0x140

def pmcRead (n : NV2ADevice) (_nanoseconds : BitVec 64) (addr : Nat) (_value : Word)
    (_size : AccessSize) : ReadResult :=
  if addr = NV_PMC_BOOT_0 then .ok (0x02A000A2, n)
  else if addr = NV_PMC_INTR_0 then .ok (n.pmc.pending, n)
  else if addr = NV_PMC_INTR_EN_0 then .ok (n.pmc.enabled, n)
  else .ok (0, n)

def pmcWrite (n : NV2ADevice) (addr : Nat) (value : Word) (size : AccessSize) : WriteResult :=
  if size ≠ .four then .error .assertion
  else if addr = NV_PMC_INTR_0 then
    .ok { n with pmc := n.pmc.acknowledge value }.updateIRQ
  else if addr = NV_PMC_INTR_EN_0 then
    .ok { n with pmc := n.pmc.enable value }.updateIRQ
  else .ok n

def NV_PBUS_PCI_NV_0 : Nat := 0x800
def NV_PBUS_PCI_NV_1 : Nat := 0x804
def NV_PBUS_PCI_NV_2 : Nat := 0x808
def PCI_VENDOR_ID_NVIDIA : Word := 0x10DE

def pbusRead (n : NV2ADevice) (_nanoseconds : BitVec 64) (addr : Nat) (_value : Word)
    (size : AccessSize) : ReadResult :=
  if size ≠ .four then .error .assertion
  else if addr = NV_PBUS_PCI_NV_0 then .ok (PCI_VENDOR_ID_NVIDIA, n)
  else if addr = NV_PBUS_PCI_NV_1 then .ok (1, n)
  else if addr = NV_PBUS_PCI_NV_2 then .ok ((2 <<< 24) ||| 161, n)
  else .ok (0, n)

def pbusWrite (n : NV2ADevice) (addr : Nat) (value : Word) (_size : AccessSize) : WriteResult :=
  if addr = NV_PBUS_PCI_NV_1 then .ok { n with pciCommand := value.setWidth 16 } else .ok n

/-! ## PFIFO -/

def NV_PFIFO_INTR_0 : Nat := 0x100
def NV_PFIFO_INTR_EN_0 : Nat := 0x140
def NV_PFIFO_RAMHT : Nat := 0x210
def NV_PFIFO_RAMFC : Nat := 0x214
def NV_PFIFO_RUNOUT_STATUS : Nat := 0x400
def NV_PFIFO_RUNOUT_STATUS_LOW_MARK : Word := 1 <<< 4
def NV_PFIFO_CACHE1_STATUS : Nat := 0x1214
def NV_PFIFO_CACHE1_STATUS_LOW_MARK : Word := 1 <<< 4
def NV_PFIFO_CACHE1_PULL0 : Nat := 0x1250
def NV_PFIFO_CACHE1_ENGINE : Nat := 0x1280

def NV_PFIFO_CACHE1_PUSH1_CHID : Field 32 := { mask := 0x1F, shift := 0 }
def NV_PFIFO_CACHE1_PUSH1_MODE : Field 32 := { mask := 0x100, shift := 8 }
def NV_PFIFO_CACHE1_DMA_PUSH_ACCESS : Field 32 := { mask := 1, shift := 0 }
def NV_PFIFO_CACHE1_DMA_PUSH_BUFFER : Field 32 := { mask := 0x100, shift := 8 }
def NV_PFIFO_CACHE1_DMA_PUSH_STATUS : Field 32 := { mask := 0x1000, shift := 12 }
def NV_PFIFO_CACHE1_DMA_STATE_METHOD_TYPE : Field 32 := { mask := 1, shift := 0 }
def NV_PFIFO_CACHE1_DMA_STATE_METHOD : Field 32 := { mask := 0x1FFC, shift := 2 }
def NV_PFIFO_CACHE1_DMA_STATE_SUBCHANNEL : Field 32 := { mask := 0xE000, shift := 13 }
def NV_PFIFO_CACHE1_DMA_STATE_METHOD_COUNT : Field 32 := { mask := 0x1FFC0000, shift := 18 }
def NV_PFIFO_CACHE1_DMA_STATE_ERROR : Field 32 := { mask := 0xE0000000, shift := 29 }
def NV_PFIFO_CACHE1_DMA_INSTANCE_ADDRESS : Field 32 := { mask := 0xFFFF, shift := 0 }

def FifoMode.code : FifoMode → Word
  | .pio => 0
  | .dma => 1

def push1 (state : Cache1State) (value : Word) : Word :=
  let value := NV_PFIFO_CACHE1_PUSH1_CHID.set value (BitVec.ofNat 32 state.channelId)
  NV_PFIFO_CACHE1_PUSH1_MODE.set value (FifoMode.code state.mode)

def cacheStatus (state : Cache1State) (value : Word) : Word :=
  if state.cache.isEmpty then value ||| NV_PFIFO_CACHE1_STATUS_LOW_MARK else value

def dmaPushRegister (state : Cache1State) (value : Word) : Word :=
  let value := NV_PFIFO_CACHE1_DMA_PUSH_ACCESS.set value (flag state.dmaPushEnabled)
  let value := NV_PFIFO_CACHE1_DMA_PUSH_STATUS.set value (flag state.dmaPushSuspended)
  NV_PFIFO_CACHE1_DMA_PUSH_BUFFER.set value 1

def dmaStateRegister (state : Cache1State) (value : Word) : Word :=
  let value := NV_PFIFO_CACHE1_DMA_STATE_METHOD_TYPE.set value (flag state.methodNonincreasing)
  let value := NV_PFIFO_CACHE1_DMA_STATE_METHOD.set value (state.method.setWidth 32 >>> 2)
  let value := NV_PFIFO_CACHE1_DMA_STATE_SUBCHANNEL.set value (state.subchannel.setWidth 32)
  let value := NV_PFIFO_CACHE1_DMA_STATE_METHOD_COUNT.set value (state.methodCount.setWidth 32)
  NV_PFIFO_CACHE1_DMA_STATE_ERROR.set value state.error

def dmaInstanceRegister (state : Cache1State) (value : Word) : Word :=
  NV_PFIFO_CACHE1_DMA_INSTANCE_ADDRESS.set value (state.dmaInstance >>> 4)

def engineRegister (boundEngines : BitVec 3 → FIFOEngine) (value : Word) : Word :=
  (List.range 8).foldl (fun value i =>
    value ||| (boundEngines (BitVec.ofNat 3 i)).setWidth 32 <<< (i * 2)) value

/-- The value of a PFIFO register over what the variable held. -/
def pfifoRegister (n : NV2ADevice) (addr : Nat) (value : Word) : Word :=
  let state := n.machine.device.cache1
  let control := n.machine.device.channelControl state.channelId
  if addr = NV_PFIFO_RAMHT then 0x03000100
  else if addr = NV_PFIFO_RAMFC then 0x00890110
  else if addr = NV_PFIFO_INTR_0 then n.pfifo.pending
  else if addr = NV_PFIFO_INTR_EN_0 then n.pfifo.enabled
  else if addr = NV_PFIFO_RUNOUT_STATUS then NV_PFIFO_RUNOUT_STATUS_LOW_MARK
  else if addr = NV_PFIFO_CACHE1_PUSH0 then flag state.pushEnabled
  else if addr = NV_PFIFO_CACHE1_PUSH1 then push1 state value
  else if addr = NV_PFIFO_CACHE1_STATUS then cacheStatus state value
  else if addr = NV_PFIFO_CACHE1_DMA_PUSH then dmaPushRegister state value
  else if addr = NV_PFIFO_CACHE1_DMA_STATE then dmaStateRegister state value
  else if addr = NV_PFIFO_CACHE1_DMA_INSTANCE then dmaInstanceRegister state value
  else if addr = NV_PFIFO_CACHE1_DMA_PUT then control.dmaPut
  else if addr = NV_PFIFO_CACHE1_DMA_GET then control.dmaGet
  else if addr = NV_PFIFO_CACHE1_DMA_SUBROUTINE then
    state.subroutineReturn ||| flag state.subroutineActive
  else if addr = NV_PFIFO_CACHE1_PULL0 then flag n.puller.pullEnabled
  else if addr = NV_PFIFO_CACHE1_ENGINE then engineRegister n.puller.boundEngines value
  else if addr = NV_PFIFO_CACHE1_DMA_DCOUNT then state.dcount
  else if addr = NV_PFIFO_CACHE1_DMA_GET_JMP_SHADOW then state.getJmpShadow
  else if addr = NV_PFIFO_CACHE1_DMA_RSVD_SHADOW then state.rsvdShadow
  else if addr = NV_PFIFO_CACHE1_DMA_DATA_SHADOW then state.dataShadow
  else n.machine.device.pfifoRegs addr

def pfifoRead (n : NV2ADevice) (_nanoseconds : BitVec 64) (addr : Nat) (value : Word)
    (_size : AccessSize) : ReadResult := .ok (pfifoRegister n addr value, n)

/-- `NV_PFIFO_CACHE1_PULL0`. -/
def pull0 (p : Puller) (value : Word) : Puller :=
  if value &&& 1 ≠ 0 ∧ !p.pullEnabled then { p with pullEnabled := true }
  else if value &&& 1 = 0 ∧ p.pullEnabled then { p with pullEnabled := false }
  else p

def pfifoWrite (n : NV2ADevice) (addr : Nat) (value : Word) (size : AccessSize) : WriteResult :=
  if size ≠ .four then .error .assertion
  else if addr = NV_PFIFO_INTR_0 then
    .ok { n with pfifo := n.pfifo.acknowledge value }.updateIRQ
  else if addr = NV_PFIFO_INTR_EN_0 then
    .ok { n with pfifo := n.pfifo.enable value }.updateIRQ
  else if addr = NV_PFIFO_CACHE1_PULL0 then .ok { n with puller := pull0 n.puller value }
  else if addr = NV_PFIFO_CACHE1_ENGINE then
    .ok { n with puller.boundEngines := fun i => (value >>> (i.toNat * 2)).setWidth 2 }
  else onMachine n (Machine.pfifoWrite n.machine addr value)

/-! ## PVIDEO -/

def NV_PVIDEO_BUFFER : Nat := 0x700
def NV_PVIDEO_STOP : Nat := 0x704

def pvideoRead (n : NV2ADevice) (_nanoseconds : BitVec 64) (addr : Nat) (_value : Word)
    (_size : AccessSize) : ReadResult :=
  if addr = NV_PVIDEO_STOP then .ok (0, n) else .ok (n.pvideo addr, n)

def pvideoWrite (n : NV2ADevice) (addr : Nat) (value : Word) (_size : AccessSize) : WriteResult :=
  if addr = NV_PVIDEO_BUFFER then .ok { n with pvideo := Function.update n.pvideo addr value }
  else if addr = NV_PVIDEO_STOP then
    .ok { n with pvideo := Function.update n.pvideo NV_PVIDEO_BUFFER 0 }
  else .ok { n with pvideo := Function.update n.pvideo addr (BitVec.ofNat 32 addr) }

/-! ## PTIMER -/

def NV_PTIMER_INTR_0 : Nat := 0x100
def NV_PTIMER_INTR_EN_0 : Nat := 0x140
def NV_PTIMER_NUMERATOR : Nat := 0x200
def NV_PTIMER_DENOMINATOR : Nat := 0x210
def NV_PTIMER_TIME_0 : Nat := 0x400
def NV_PTIMER_TIME_1 : Nat := 0x410
def NV_PTIMER_ALARM_0 : Nat := 0x420

/-- `a * b / c` in two steps of 32 bits. -/
def muldiv64 (a : BitVec 64) (b c : Word) : Except Fault (BitVec 64) := do
  let rl : BitVec 64 := (a.setWidth 32).setWidth 64 * b.setWidth 64
  let rh : BitVec 64 := (a >>> 32) * b.setWidth 64 + (rl >>> 32)
  let high ← divide rh (c.setWidth 64)
  let rest ← remainder rh (c.setWidth 64)
  let low ← divide ((rest <<< 32) + (rl &&& 0xFFFFFFFF)) (c.setWidth 64)
  return high.setWidth 32 ++ low.setWidth 32

/-- `ptimer_get_clock` at a time of the host. -/
def ptimerGetClock (n : NV2ADevice) (nanoseconds : BitVec 64) : Except Fault Word := do
  let clock ← muldiv64 nanoseconds
    ((n.pramdac.coreClockFreq * n.ptimer.numerator.setWidth 64).setWidth 32)
    (n.clocksPerSec * n.ptimer.denominator)
  return clock.setWidth 32

def ptimerRead (n : NV2ADevice) (nanoseconds : BitVec 64) (addr : Nat) (_value : Word)
    (_size : AccessSize) : ReadResult :=
  if addr = NV_PTIMER_INTR_0 then .ok (n.ptimer.interrupts.pending, n)
  else if addr = NV_PTIMER_INTR_EN_0 then .ok (n.ptimer.interrupts.enabled, n)
  else if addr = NV_PTIMER_NUMERATOR then .ok (n.ptimer.numerator, n)
  else if addr = NV_PTIMER_DENOMINATOR then .ok (n.ptimer.denominator, n)
  else if addr = NV_PTIMER_TIME_0 then
    (ptimerGetClock n nanoseconds).map fun clock : Word => ((clock &&& 0x7ffffff) <<< 5, n)
  else if addr = NV_PTIMER_TIME_1 then
    (ptimerGetClock n nanoseconds).map fun clock : Word => ((clock >>> 27) &&& 0x1fffffff, n)
  else .ok (0, n)

def ptimerWrite (n : NV2ADevice) (addr : Nat) (value : Word) (_size : AccessSize) : WriteResult :=
  if addr = NV_PTIMER_INTR_0 then
    .ok { n with ptimer.interrupts := n.ptimer.interrupts.acknowledge value }.updateIRQ
  else if addr = NV_PTIMER_INTR_EN_0 then
    .ok { n with ptimer.interrupts := n.ptimer.interrupts.enable value }.updateIRQ
  else if addr = NV_PTIMER_DENOMINATOR then .ok { n with ptimer.denominator := value }
  else if addr = NV_PTIMER_NUMERATOR then .ok { n with ptimer.numerator := value }
  else if addr = NV_PTIMER_ALARM_0 then .ok { n with ptimer.alarmTime := value }
  else .ok n

/-! ## PFB -/

def NV_PFB_CFG0 : Nat := 0x200
def NV_PFB_CSTATUS : Nat := 0x20C
def NV_PFB_WBC : Nat := 0x410

def pfbRead (n : NV2ADevice) (_nanoseconds : BitVec 64) (addr : Nat) (_value : Word)
    (size : AccessSize) : ReadResult :=
  if size ≠ .four then .error .assertion
  else if addr = NV_PFB_CFG0 then .ok (3, n)
  else if addr = NV_PFB_CSTATUS then .ok (n.systemRAMSize, n)
  else if addr = NV_PFB_WBC then .ok (0, n)
  else .ok (n.pfb addr, n)

def pfbWrite (n : NV2ADevice) (addr : Nat) (value : Word) (size : AccessSize) : WriteResult :=
  if size ≠ .four then .error .assertion else .ok { n with pfb := Function.update n.pfb addr value }

/-! ## PGRAPH -/

def NV_PGRAPH_INTR : Nat := 0x100
def NV_PGRAPH_INTR_CONTEXT_SWITCH : Word := 1 <<< 12
def NV_PGRAPH_NSOURCE : Nat := 0x108
def NV_PGRAPH_INTR_EN : Nat := 0x140
def NV_PGRAPH_CTX_CONTROL : Nat := 0x144
def NV_PGRAPH_CTX_CONTROL_CHID : Word := 1 <<< 16
def NV_PGRAPH_CTX_USER : Nat := 0x148
def NV_PGRAPH_CTX_USER_CHANNEL_3D : Field 32 := { mask := 1, shift := 0 }
def NV_PGRAPH_CTX_USER_CHANNEL_3D_VALID : Field 32 := { mask := 0x10, shift := 4 }
def NV_PGRAPH_CTX_USER_SUBCH : Field 32 := { mask := 0xE000, shift := 13 }
def NV_PGRAPH_CTX_USER_CHID : Field 32 := { mask := 0x1F000000, shift := 24 }
def NV_PGRAPH_TRAPPED_ADDR : Nat := 0x704
def NV_PGRAPH_TRAPPED_ADDR_MTHD : Field 32 := { mask := 0x1FFF, shift := 0 }
def NV_PGRAPH_TRAPPED_ADDR_SUBCH : Field 32 := { mask := 0x70000, shift := 16 }
def NV_PGRAPH_TRAPPED_ADDR_CHID : Field 32 := { mask := 0x1F00000, shift := 20 }
def NV_PGRAPH_TRAPPED_DATA_LOW : Nat := 0x708
def NV_PGRAPH_SURFACE : Nat := 0x710
def NV_PGRAPH_SURFACE_READ_3D : Field 32 := { mask := 0x07000000, shift := 24 }
def NV_PGRAPH_SURFACE_MODULO_3D : Field 32 := { mask := 0x70000000, shift := 28 }
def NV_PGRAPH_INCREMENT : Nat := 0x71C
def NV_PGRAPH_INCREMENT_READ_3D : Word := 1 <<< 1
def NV_PGRAPH_FIFO : Nat := 0x720
def NV_PGRAPH_FIFO_ACCESS : Field 32 := { mask := 1, shift := 0 }
def NV_PGRAPH_CHANNEL_CTX_TABLE : Nat := 0x780
def NV_PGRAPH_CHANNEL_CTX_TABLE_INST : Word := 0xFFFF
def NV_PGRAPH_CHANNEL_CTX_POINTER : Nat := 0x784
def NV_PGRAPH_CHANNEL_CTX_POINTER_INST : Word := 0xFFFF
def NV_PGRAPH_CHANNEL_CTX_TRIGGER : Nat := 0x788
def NV_PGRAPH_CHANNEL_CTX_TRIGGER_READ_IN : Word := 1

/-- `NV_PGRAPH_CTX_USER`; the subchannel is shifted into its field twice. -/
def ctxUserRegister (g : PGRAPH) (value : Word) : Word :=
  let context := g.context g.channelId
  let value := NV_PGRAPH_CTX_USER_CHANNEL_3D.set value (flag context.channel3d)
  let value := NV_PGRAPH_CTX_USER_CHANNEL_3D_VALID.set value 1
  let value := NV_PGRAPH_CTX_USER_SUBCH.set value (context.subchannel <<< 13)
  NV_PGRAPH_CTX_USER_CHID.set value g.channelId

def trappedAddrRegister (g : PGRAPH) (value : Word) : Word :=
  let value := NV_PGRAPH_TRAPPED_ADDR_CHID.set value g.trappedChannelId
  let value := NV_PGRAPH_TRAPPED_ADDR_SUBCH.set value g.trappedSubchannel
  NV_PGRAPH_TRAPPED_ADDR_MTHD.set value g.trappedMethod

/-- The value of a PGRAPH register over what the variable held. -/
def pgraphRegister (g : PGRAPH) (addr : Nat) (value : Word) : Word :=
  if addr = NV_PGRAPH_INTR then g.interrupts.pending
  else if addr = NV_PGRAPH_INTR_EN then g.interrupts.enabled
  else if addr = NV_PGRAPH_NSOURCE then g.notifySource
  else if addr = NV_PGRAPH_CTX_USER then ctxUserRegister g value
  else if addr = NV_PGRAPH_TRAPPED_ADDR then trappedAddrRegister g value
  else if addr = NV_PGRAPH_TRAPPED_DATA_LOW then g.trappedDataLow
  else if addr = NV_PGRAPH_FIFO then NV_PGRAPH_FIFO_ACCESS.set value (flag g.fifoAccess)
  else if addr = NV_PGRAPH_CHANNEL_CTX_TABLE then g.contextTable >>> 4
  else if addr = NV_PGRAPH_CHANNEL_CTX_POINTER then g.contextAddress >>> 4
  else g.regs addr

def pgraphRead (n : NV2ADevice) (_nanoseconds : BitVec 64) (addr : Nat) (value : Word)
    (size : AccessSize) : ReadResult :=
  if size ≠ .four then .error .assertion else .ok (pgraphRegister n.pgraph addr value, n)

def pgraphSetContextUser (g : PGRAPH) (value : Word) : PGRAPH :=
  let channelId := NV_PGRAPH_CTX_USER_CHID.get value
  { g with
    channelId := channelId
    context := Function.update g.context channelId
      ⟨NV_PGRAPH_CTX_USER_CHANNEL_3D.get value ≠ 0, NV_PGRAPH_CTX_USER_SUBCH.get value⟩ }

/-- `NV_PGRAPH_INCREMENT`: the next buffer to be read. -/
def pgraphIncrement (g : PGRAPH) : Except Fault PGRAPH := do
  let surface := g.regs NV_PGRAPH_SURFACE
  let next ← remainder (NV_PGRAPH_SURFACE_READ_3D.get surface + 1)
    (NV_PGRAPH_SURFACE_MODULO_3D.get surface)
  return { g with
    regs := Function.update g.regs NV_PGRAPH_SURFACE (NV_PGRAPH_SURFACE_READ_3D.set surface next) }

def pgraphWrite (n : NV2ADevice) (addr : Nat) (value : Word) (_size : AccessSize) : WriteResult :=
  let g := n.pgraph
  if addr = NV_PGRAPH_INTR then .ok { n with pgraph.interrupts := g.interrupts.acknowledge value }
  else if addr = NV_PGRAPH_INTR_EN then .ok { n with pgraph.interrupts := g.interrupts.enable value }
  else if addr = NV_PGRAPH_CTX_CONTROL then
    .ok { n with machine.pgraph.channelValid := value &&& NV_PGRAPH_CTX_CONTROL_CHID ≠ 0 }
  else if addr = NV_PGRAPH_CTX_USER then .ok { n with pgraph := pgraphSetContextUser g value }
  else if addr = NV_PGRAPH_INCREMENT then
    if value &&& NV_PGRAPH_INCREMENT_READ_3D ≠ 0 then
      (pgraphIncrement g).map fun g => { n with pgraph := g }
    else .ok n
  else if addr = NV_PGRAPH_FIFO then
    .ok { n with pgraph.fifoAccess := NV_PGRAPH_FIFO_ACCESS.get value ≠ 0 }
  else if addr = NV_PGRAPH_CHANNEL_CTX_TABLE then
    .ok { n with pgraph.contextTable := (value &&& NV_PGRAPH_CHANNEL_CTX_TABLE_INST) <<< 4 }
  else if addr = NV_PGRAPH_CHANNEL_CTX_POINTER then
    .ok { n with pgraph.contextAddress := (value &&& NV_PGRAPH_CHANNEL_CTX_POINTER_INST) <<< 4 }
  else if addr = NV_PGRAPH_CHANNEL_CTX_TRIGGER then
    if value &&& NV_PGRAPH_CHANNEL_CTX_TRIGGER_READ_IN ≠ 0 then
      let contextUser := ldlLeP n.machine.device.ramin g.contextAddress.toNat
      .ok { n with pgraph := pgraphSetContextUser g contextUser }
    else .ok n
  else .ok { n with pgraph.regs := Function.update g.regs addr value }

theorem pgraphIncrement_keeps {g g' : PGRAPH} (h : pgraphIncrement g = .ok g') :
    g'.interrupts = g.interrupts ∧
      NV_PGRAPH_SURFACE_MODULO_3D.get (g'.regs NV_PGRAPH_SURFACE) =
        NV_PGRAPH_SURFACE_MODULO_3D.get (g.regs NV_PGRAPH_SURFACE) := by
  unfold pgraphIncrement at h
  dsimp only at h
  cases hr : remainder (NV_PGRAPH_SURFACE_READ_3D.get (g.regs NV_PGRAPH_SURFACE) + 1)
      (NV_PGRAPH_SURFACE_MODULO_3D.get (g.regs NV_PGRAPH_SURFACE)) with
  | error fault =>
    rw [hr] at h
    cases h
  | ok next =>
    rw [hr] at h
    cases h
    refine ⟨rfl, ?_⟩
    dsimp only
    rw [Function.update_self]
    exact get_set_of_apart (by decide) _ _

/-- The interrupts of PGRAPH after a write. -/
def pgraphInterrupts (i : Interrupts) (addr : Nat) (value : Word) : Interrupts :=
  if addr = NV_PGRAPH_INTR then i.acknowledge value
  else if addr = NV_PGRAPH_INTR_EN then i.enable value
  else i

/-- The number of buffers, in the surface register after a write. -/
def surfaceModulo (g : PGRAPH) (addr : Nat) (value : Word) : Word :=
  NV_PGRAPH_SURFACE_MODULO_3D.get (if addr = NV_PGRAPH_SURFACE then value else g.regs NV_PGRAPH_SURFACE)

/-- What a write to PGRAPH does to its interrupts and to the number of buffers. -/
theorem pgraphWrite_cases {n n' : NV2ADevice} {addr : Nat} {value : Word} {size : AccessSize}
    (h : pgraphWrite n addr value size = .ok n') :
    ∃ valid g, n' = { n with machine.pgraph.channelValid := valid, pgraph := g } ∧
      g.interrupts = pgraphInterrupts n.pgraph.interrupts addr value ∧
      NV_PGRAPH_SURFACE_MODULO_3D.get (g.regs NV_PGRAPH_SURFACE) = surfaceModulo n.pgraph addr value := by
  have hkeep (g : PGRAPH) (valid : Bool)
      (hne : addr ≠ NV_PGRAPH_INTR ∧ addr ≠ NV_PGRAPH_INTR_EN ∧ addr ≠ NV_PGRAPH_SURFACE)
      (hi : g.interrupts = n.pgraph.interrupts)
      (hm : NV_PGRAPH_SURFACE_MODULO_3D.get (g.regs NV_PGRAPH_SURFACE) =
        NV_PGRAPH_SURFACE_MODULO_3D.get (n.pgraph.regs NV_PGRAPH_SURFACE)) :
      ∃ valid' g', ({ n with machine.pgraph.channelValid := valid, pgraph := g } : NV2ADevice) =
          { n with machine.pgraph.channelValid := valid', pgraph := g' } ∧
        g'.interrupts = pgraphInterrupts n.pgraph.interrupts addr value ∧
        NV_PGRAPH_SURFACE_MODULO_3D.get (g'.regs NV_PGRAPH_SURFACE) =
          surfaceModulo n.pgraph addr value := by
    obtain ⟨h1, h2, h3⟩ := hne
    refine ⟨valid, g, rfl, ?_, ?_⟩
    · rw [pgraphInterrupts, if_neg h1, if_neg h2, hi]
    · rw [surfaceModulo, if_neg h3, hm]
  unfold pgraphWrite at h
  dsimp only at h
  by_cases h1 : addr = NV_PGRAPH_INTR
  · subst h1
    cases h
    exact ⟨_, _, rfl, rfl, rfl⟩
  rw [if_neg h1] at h
  by_cases h2 : addr = NV_PGRAPH_INTR_EN
  · subst h2
    cases h
    exact ⟨_, _, rfl, rfl, rfl⟩
  rw [if_neg h2] at h
  by_cases h3 : addr = NV_PGRAPH_CTX_CONTROL
  · subst h3
    cases h
    exact hkeep n.pgraph _ (by decide) rfl rfl
  rw [if_neg h3] at h
  by_cases h4 : addr = NV_PGRAPH_CTX_USER
  · subst h4
    cases h
    exact hkeep _ _ (by decide) rfl rfl
  rw [if_neg h4] at h
  by_cases h5 : addr = NV_PGRAPH_INCREMENT
  · subst h5
    rw [if_pos rfl] at h
    split at h
    · cases hg : pgraphIncrement n.pgraph with
      | error fault =>
        rw [hg] at h
        cases h
      | ok g =>
        rw [hg] at h
        cases h
        obtain ⟨hi, hm⟩ := pgraphIncrement_keeps hg
        exact hkeep g _ (by decide) hi hm
    · cases h
      exact hkeep n.pgraph _ (by decide) rfl rfl
  rw [if_neg h5] at h
  by_cases h6 : addr = NV_PGRAPH_FIFO
  · subst h6
    cases h
    exact hkeep _ _ (by decide) rfl rfl
  rw [if_neg h6] at h
  by_cases h7 : addr = NV_PGRAPH_CHANNEL_CTX_TABLE
  · subst h7
    cases h
    exact hkeep _ _ (by decide) rfl rfl
  rw [if_neg h7] at h
  by_cases h8 : addr = NV_PGRAPH_CHANNEL_CTX_POINTER
  · subst h8
    cases h
    exact hkeep _ _ (by decide) rfl rfl
  rw [if_neg h8] at h
  by_cases h9 : addr = NV_PGRAPH_CHANNEL_CTX_TRIGGER
  · subst h9
    rw [if_pos rfl] at h
    split at h
    · cases h
      exact hkeep _ _ (by decide) rfl rfl
    · cases h
      exact hkeep n.pgraph _ (by decide) rfl rfl
  rw [if_neg h9] at h
  cases h
  refine ⟨_, _, rfl, ?_, ?_⟩
  · rw [pgraphInterrupts, if_neg h1, if_neg h2]
  · rw [surfaceModulo]
    dsimp only
    split
    · next hs =>
      rw [hs, Function.update_self]
    · next hs => rw [Function.update_of_ne (Ne.symm hs)]

/-! ## PCRTC and PRMCIO -/

def NV_PCRTC_INTR_0 : Nat := 0x100
def NV_PCRTC_INTR_0_VBLANK : Word := 1
def NV_PCRTC_INTR_EN_0 : Nat := 0x140
def NV_PCRTC_START : Nat := 0x800

def pcrtcRead (n : NV2ADevice) (_nanoseconds : BitVec 64) (addr : Nat) (_value : Word)
    (_size : AccessSize) : ReadResult :=
  if addr = NV_PCRTC_INTR_0 then .ok (n.pcrtc.interrupts.pending, n)
  else if addr = NV_PCRTC_INTR_EN_0 then .ok (n.pcrtc.interrupts.enabled, n)
  else if addr = NV_PCRTC_START then .ok (n.pcrtc.start, n)
  else .ok (0, n)

def pcrtcWrite (n : NV2ADevice) (addr : Nat) (value : Word) (_size : AccessSize) : WriteResult :=
  if addr = NV_PCRTC_INTR_0 then
    .ok { n with pcrtc.interrupts := n.pcrtc.interrupts.acknowledge value }.updateIRQ
  else if addr = NV_PCRTC_INTR_EN_0 then
    .ok { n with pcrtc.interrupts := n.pcrtc.interrupts.enable value }.updateIRQ
  else if addr = NV_PCRTC_START then .ok { n with pcrtc.start := value &&& 0x07FFFFFF }
  else .ok { n with pcrtc.regs := Function.update n.pcrtc.regs addr value }

def VGA_CRT_IM : Nat := 0x3B4
def VGA_CRT_DM : Nat := 0x3B5
def VGA_IS1_RM : Nat := 0x3BA
def VGA_CRT_IC : Nat := 0x3D4
def VGA_CRT_DC : Nat := 0x3D5
def VGA_IS1_RC : Nat := 0x3DA
def VGA_CRTC_OVERFLOW : Byte := 7
def VGA_CRTC_V_SYNC_END : Byte := 0x11
def VGA_CR11_LOCK_CR0_CR7 : Byte := 0x80

/-- The retrace bit is toggled by a read of the status; an unknown register stores nothing. -/
def prmcioRead (n : NV2ADevice) (_nanoseconds : BitVec 64) (addr : Nat) (value : Word)
    (_size : AccessSize) : ReadResult :=
  if addr = VGA_CRT_IM ∨ addr = VGA_CRT_IC then .ok (n.prmcio.crIndex.setWidth 32, n)
  else if addr = VGA_IS1_RC ∨ addr = VGA_IS1_RM then
    .ok (n.st01.setWidth 32, { n with st01 := n.st01 ^^^ (1 <<< 3) })
  else if addr = VGA_CRT_DM ∨ addr = VGA_CRT_DC then
    .ok ((n.prmcio.cr n.prmcio.crIndex).setWidth 32, n)
  else .ok (value, n)

/-- The data register; the first registers can be locked, but for a bit of the overflow. -/
def prmcioData (p : PRMCIO) (value : Byte) : PRMCIO :=
  if p.cr VGA_CRTC_V_SYNC_END &&& VGA_CR11_LOCK_CR0_CR7 ≠ 0 ∧ p.crIndex ≤ VGA_CRTC_OVERFLOW then
    if p.crIndex = VGA_CRTC_OVERFLOW then
      { p with cr := Function.update p.cr VGA_CRTC_OVERFLOW
                ((p.cr VGA_CRTC_OVERFLOW &&& ~~~0x10) ||| (value &&& 0x10)) }
    else p
  else { p with cr := Function.update p.cr p.crIndex value }

def prmcioWrite (n : NV2ADevice) (addr : Nat) (value : Word) (_size : AccessSize) : WriteResult :=
  if addr = VGA_CRT_IM ∨ addr = VGA_CRT_IC then
    .ok { n with prmcio.crIndex := value.setWidth 8 }
  else if addr = VGA_CRT_DM ∨ addr = VGA_CRT_DC then
    .ok { n with prmcio := prmcioData n.prmcio (value.setWidth 8) }
  else .ok n

/-! ## PRAMDAC -/

def NV_PRAMDAC_NVPLL_COEFF : Nat := 0x500
def NV_PRAMDAC_NVPLL_COEFF_MDIV : Word := 0xFF
def NV_PRAMDAC_NVPLL_COEFF_NDIV : Word := 0xFF00
def NV_PRAMDAC_NVPLL_COEFF_PDIV : Word := 0x70000
def NV_PRAMDAC_MPLL_COEFF : Nat := 0x504
def NV_PRAMDAC_VPLL_COEFF : Nat := 0x508
def NV_PRAMDAC_PLL_TEST_COUNTER : Nat := 0x514
def NV_PRAMDAC_PLL_TEST_COUNTER_VPLL2_LOCK : Word := 1 <<< 27
def NV_PRAMDAC_PLL_TEST_COUNTER_NVPLL_LOCK : Word := 1 <<< 29
def NV_PRAMDAC_PLL_TEST_COUNTER_MPLL_LOCK : Word := 1 <<< 30
def NV_PRAMDAC_PLL_TEST_COUNTER_VPLL_LOCK : Word := 1 <<< 31
def NV2A_CRYSTAL_FREQ : Word := 13500000

def pramdacRead (n : NV2ADevice) (_nanoseconds : BitVec 64) (addr : Nat) (_value : Word)
    (_size : AccessSize) : ReadResult :=
  if addr = NV_PRAMDAC_NVPLL_COEFF then .ok (n.pramdac.coreClockCoeff, n)
  else if addr = NV_PRAMDAC_MPLL_COEFF then .ok (n.pramdac.memoryClockCoeff, n)
  else if addr = NV_PRAMDAC_VPLL_COEFF then .ok (n.pramdac.videoClockCoeff, n)
  else if addr = NV_PRAMDAC_PLL_TEST_COUNTER then
    .ok (NV_PRAMDAC_PLL_TEST_COUNTER_VPLL2_LOCK ||| NV_PRAMDAC_PLL_TEST_COUNTER_NVPLL_LOCK |||
      NV_PRAMDAC_PLL_TEST_COUNTER_MPLL_LOCK ||| NV_PRAMDAC_PLL_TEST_COUNTER_VPLL_LOCK, n)
  else .ok (0, n)

/-- The core clock for a coefficient. -/
def coreClockFreq (value : Word) : Except Fault (BitVec 64) :=
  let m := value &&& NV_PRAMDAC_NVPLL_COEFF_MDIV
  let n := (value &&& NV_PRAMDAC_NVPLL_COEFF_NDIV) >>> 8
  let p := (value &&& NV_PRAMDAC_NVPLL_COEFF_PDIV) >>> 16
  if m = 0 then .ok 0
  else do
    let divided ← divide (NV2A_CRYSTAL_FREQ * n) ((1 : Word) <<< p.toNat)
    let freq ← divide divided m
    return freq.setWidth 64

def pramdacWrite (n : NV2ADevice) (addr : Nat) (value : Word) (_size : AccessSize) : WriteResult :=
  if addr = NV_PRAMDAC_NVPLL_COEFF then
    (coreClockFreq value).map fun freq =>
      { n with pramdac.coreClockCoeff := value, pramdac.coreClockFreq := freq }
  else if addr = NV_PRAMDAC_MPLL_COEFF then .ok { n with pramdac.memoryClockCoeff := value }
  else if addr = NV_PRAMDAC_VPLL_COEFF then .ok { n with pramdac.videoClockCoeff := value }
  else .ok n

/-! ## PRAMIN and USER -/

def praminRead (n : NV2ADevice) (_nanoseconds : BitVec 64) (addr : Nat) (_value : Word)
    (size : AccessSize) : ReadResult := .ok (loadBytes n.machine.device.ramin addr size, n)

def praminWrite (n : NV2ADevice) (addr : Nat) (value : Word) (size : AccessSize) : WriteResult :=
  .ok { n with machine.device.ramin := storeBytes n.machine.device.ramin addr value size }

/-- An unknown register stores nothing. -/
def userRead (n : NV2ADevice) (_nanoseconds : BitVec 64) (addr : Nat) (value : Word)
    (size : AccessSize) : ReadResult :=
  let channel := addr / 0x10000
  let control := n.machine.device.channelControl channel
  if size ≠ .four then .error .assertion
  else if channel ≥ NV2A_NUM_CHANNELS then .error .assertion
  else if n.machine.device.pfifoRegs NV_PFIFO_MODE &&& (1 <<< channel) = 0 then .error .assertion
  else if addr % 0x10000 = NV_USER_DMA_PUT then .ok (control.dmaPut, n)
  else if addr % 0x10000 = NV_USER_DMA_GET then .ok (control.dmaGet, n)
  else if addr % 0x10000 = NV_USER_REF then .ok (control.ref, n)
  else .ok (value, n)

def userWrite (n : NV2ADevice) (addr : Nat) (value : Word) (size : AccessSize) : WriteResult :=
  if size ≠ .four then .error .assertion
  else onMachine n (Machine.userWrite n.machine addr value)

/-! ## The blocks -/

structure NV2ABlockInfo where
  offset : Nat
  size : Nat
  read : NV2ADevice → BitVec 64 → Nat → Word → AccessSize → ReadResult
  write : NV2ADevice → Nat → Word → AccessSize → WriteResult

def pmc : NV2ABlockInfo := ⟨0x000000, 0x001000, pmcRead, pmcWrite⟩
def pbus : NV2ABlockInfo := ⟨0x001000, 0x001000, pbusRead, pbusWrite⟩
def pfifo : NV2ABlockInfo := ⟨0x002000, 0x002000, pfifoRead, pfifoWrite⟩
def prma : NV2ABlockInfo := ⟨0x007000, 0x001000, prmaRead, prmaWrite⟩
def pvideo : NV2ABlockInfo := ⟨0x008000, 0x001000, pvideoRead, pvideoWrite⟩
def ptimer : NV2ABlockInfo := ⟨0x009000, 0x001000, ptimerRead, ptimerWrite⟩
def pcounter : NV2ABlockInfo := ⟨0x00A000, 0x001000, pcounterRead, pcounterWrite⟩
def pvpe : NV2ABlockInfo := ⟨0x00B000, 0x001000, pvpeRead, pvpeWrite⟩
def ptv : NV2ABlockInfo := ⟨0x00D000, 0x001000, ptvRead, ptvWrite⟩
def prmfb : NV2ABlockInfo := ⟨0x0A0000, 0x020000, prmfbRead, prmfbWrite⟩
def prmvio : NV2ABlockInfo := ⟨0x0C0000, 0x001000, prmvioRead, prmvioWrite⟩
def pfb : NV2ABlockInfo := ⟨0x100000, 0x001000, pfbRead, pfbWrite⟩
def pstraps : NV2ABlockInfo := ⟨0x101000, 0x001000, pstrapsRead, pstrapsWrite⟩
def pgraph : NV2ABlockInfo := ⟨0x400000, 0x002000, pgraphRead, pgraphWrite⟩
def pcrtc : NV2ABlockInfo := ⟨0x600000, 0x001000, pcrtcRead, pcrtcWrite⟩
def prmcio : NV2ABlockInfo := ⟨0x601000, 0x001000, prmcioRead, prmcioWrite⟩
def pramdac : NV2ABlockInfo := ⟨0x680000, 0x001000, pramdacRead, pramdacWrite⟩
def prmdio : NV2ABlockInfo := ⟨0x681000, 0x001000, prmdioRead, prmdioWrite⟩
def pramin : NV2ABlockInfo := ⟨0x700000, 0x100000, praminRead, praminWrite⟩
def user : NV2ABlockInfo := ⟨0x800000, 0x800000, userRead, userWrite⟩

/-- `m_MemoryRegions`. -/
def memoryRegions : List NV2ABlockInfo :=
  [pmc, pbus, pfifo, prma, pvideo, ptimer, pcounter, pvpe, ptv, prmfb, prmvio, pfb, pstraps, pgraph,
    pcrtc, prmcio, pramdac, prmdio, pramin, user]

/-- A block has no registers or is one of twelve. -/
theorem mem_memoryRegions {block : NV2ABlockInfo} (h : block ∈ memoryRegions) :
    (block.read = unknownRead ∧ block.write = unknownWrite) ∨ block = pmc ∨ block = pbus ∨
      block = pfifo ∨ block = pvideo ∨ block = ptimer ∨ block = pfb ∨ block = pgraph ∨
      block = pcrtc ∨ block = prmcio ∨ block = pramdac ∨ block = pramin ∨ block = user := by
  simp only [memoryRegions, List.mem_cons, List.not_mem_nil, or_false] at h
  rcases h with rfl | rfl | rfl | rfl | rfl | rfl | rfl | rfl | rfl | rfl | rfl | rfl | rfl | rfl |
    rfl | rfl | rfl | rfl | rfl | rfl <;> simp [prma, pcounter, pvpe, ptv, prmfb, prmvio, pstraps, prmdio,
      prmaRead, prmaWrite, pcounterRead, pcounterWrite, pvpeRead, pvpeWrite, ptvRead, ptvWrite,
      prmfbRead, prmfbWrite, prmvioRead, prmvioWrite, pstrapsRead, pstrapsWrite, prmdioRead, prmdioWrite]

/-- What a write to a block other than PGRAPH makes of the device. -/
inductive BlockWrite (block : NV2ABlockInfo) (n : NV2ADevice) (addr : Nat) (value : Word) :
    NV2ADevice → Prop
  | pusher (m : Machine.State) (hm : Machine.pfifoWrite n.machine addr value = some m) :
    BlockWrite block n addr value { n with machine := m }
  | user (m : Machine.State) (hm : Machine.userWrite n.machine addr value = some m) :
    BlockWrite block n addr value { n with machine := m }
  | ramin (bytes : Nat → Byte) : BlockWrite block n addr value { n with machine.device.ramin := bytes }
  | puller (p : Puller) (hworking : p.workingCache = n.puller.workingCache)
      (hrunning : p.running = n.puller.running) : BlockWrite block n addr value { n with puller := p }
  /-- A register of interrupts is followed by `UpdateIRQ`. -/
  | interrupts (pmc pfifo ptimer pcrtc : Interrupts) :
    BlockWrite block n addr value
      { n with
        pmc := pmc
        pfifo := pfifo
        ptimer.interrupts := ptimer
        pcrtc.interrupts := pcrtc }.updateIRQ
  | timer (hblock : block = ptimer) (t : PTIMER) : BlockWrite block n addr value { n with ptimer := t }
  | registers (command : BitVec 16) (pvideo pfb : Nat → Word) (start : Word) (regs : Nat → Word)
      (prmcio : PRMCIO) (pramdac : PRAMDAC) :
    BlockWrite block n addr value
      { n with
        pciCommand := command
        pvideo := pvideo
        pfb := pfb
        pcrtc.start := start
        pcrtc.regs := regs
        prmcio := prmcio
        pramdac := pramdac }

theorem blockWrite_same (block : NV2ABlockInfo) (n : NV2ADevice) (addr : Nat) (value : Word) :
    BlockWrite block n addr value n :=
  .registers n.pciCommand n.pvideo n.pfb n.pcrtc.start n.pcrtc.regs n.prmcio n.pramdac

theorem blockWrite_cases {n n' : NV2ADevice} {block : NV2ABlockInfo} {addr : Nat} {value : Word}
    {size : AccessSize} (hmem : block ∈ memoryRegions) (hne : block ≠ pgraph)
    (h : block.write n addr value size = .ok n') : BlockWrite block n addr value n' := by
  have hsame (hn : (.ok n : WriteResult) = .ok n') : BlockWrite block n addr value n' := by
    cases hn
    exact blockWrite_same block n addr value
  rcases mem_memoryRegions hmem with ⟨-, hwrite⟩ | rfl | rfl | rfl | rfl | rfl | rfl | rfl | rfl |
    rfl | rfl | rfl | rfl
  · rw [hwrite] at h
    exact hsame h
  · simp only [pmc, pmcWrite] at h
    split_ifs at h
    · cases h
      exact .interrupts _ _ _ _
    · cases h
      exact .interrupts _ _ _ _
    · exact hsame h
  · simp only [pbus, pbusWrite] at h
    split_ifs at h
    · cases h
      exact .registers _ _ _ _ _ _ _
    · exact hsame h
  · simp only [pfifo, pfifoWrite] at h
    split_ifs at h
    · cases h
      exact .interrupts _ _ _ _
    · cases h
      exact .interrupts _ _ _ _
    · cases h
      unfold pull0
      refine .puller _ ?_ ?_
      · split_ifs <;> rfl
      · split_ifs <;> rfl
    · cases h
      exact .puller _ rfl rfl
    · obtain ⟨m, hm, rfl⟩ := onMachine_ok h
      exact .pusher m hm
  · simp only [pvideo, pvideoWrite] at h
    split_ifs at h
    all_goals
      cases h
      exact .registers _ _ _ _ _ _ _
  · simp only [ptimer, ptimerWrite] at h
    split_ifs at h
    · cases h
      exact .interrupts _ _ _ _
    · cases h
      exact .interrupts _ _ _ _
    · cases h
      exact .timer rfl _
    · cases h
      exact .timer rfl _
    · cases h
      exact .timer rfl _
    · exact hsame h
  · simp only [pfb, pfbWrite] at h
    split_ifs at h
    cases h
    exact .registers _ _ _ _ _ _ _
  · exact absurd rfl hne
  · simp only [pcrtc, pcrtcWrite] at h
    split_ifs at h
    · cases h
      exact .interrupts _ _ _ _
    · cases h
      exact .interrupts _ _ _ _
    · cases h
      exact .registers _ _ _ _ _ _ _
    · cases h
      exact .registers _ _ _ _ _ _ _
  · simp only [prmcio, prmcioWrite] at h
    split_ifs at h
    · cases h
      exact .registers _ _ _ _ _ _ _
    · cases h
      exact .registers _ _ _ _ _ _ _
    · exact hsame h
  · simp only [pramdac, pramdacWrite] at h
    split_ifs at h
    · cases hfreq : coreClockFreq value with
      | error fault =>
        rw [hfreq] at h
        cases h
      | ok freq =>
        rw [hfreq] at h
        cases h
        exact .registers _ _ _ _ _ _ _
    · cases h
      exact .registers _ _ _ _ _ _ _
    · cases h
      exact .registers _ _ _ _ _ _ _
    · exact hsame h
  · cases h
    exact .ramin _
  · simp only [user, userWrite] at h
    split_ifs at h
    obtain ⟨m, hm, rfl⟩ := onMachine_ok h
    exact .user m hm

def findBlock (addr : Word) : Option NV2ABlockInfo :=
  memoryRegions.find? fun block =>
    block.offset ≤ addr.toNat ∧ addr.toNat < block.offset + block.size

theorem findBlock_mem {addr : Word} {block : NV2ABlockInfo} (h : findBlock addr = some block) :
    block ∈ memoryRegions := List.mem_of_find?_eq_some h

/-- The address of a register in BAR 0. -/
def NV2ABlockInfo.address (block : NV2ABlockInfo) (register : Nat) : Word :=
  BitVec.ofNat 32 (block.offset + register)

theorem findBlock_bounds {addr : Word} {block : NV2ABlockInfo} (h : findBlock addr = some block) :
    block.offset ≤ addr.toNat ∧ addr.toNat < block.offset + block.size := by
  have hfound := List.find?_some h
  exact of_decide_eq_true hfound

theorem offset_eq_iff {addr : Word} {block : NV2ABlockInfo} (hfind : findBlock addr = some block)
    {register : Nat} (hregister : block.offset + register < 2 ^ 32) :
    addr.toNat - block.offset = register ↔ addr = block.address register := by
  obtain ⟨hle, -⟩ := findBlock_bounds hfind
  have hvalue : (block.address register).toNat = block.offset + register :=
    (BitVec.toNat_ofNat _ 32).trans (Nat.mod_eq_of_lt hregister)
  rw [← BitVec.toNat_inj, hvalue]
  omega

def pciMMIORead (n : NV2ADevice) (nanoseconds : BitVec 64) (barIndex : Nat) (addr value : Word)
    (size : AccessSize) : ReadResult :=
  if barIndex = 1 then .ok (loadBytes n.machine.device.vram addr.toNat size, n)
  else
    match findBlock addr with
    | some block => block.read n nanoseconds (addr.toNat - block.offset) value size
    | none => .ok (0, n)

/-- What is read leaves the device as it is, but for the retrace bit. -/
def ReadKeeps (n : NV2ADevice) (r : ReadResult) : Prop :=
  ∀ stored n', r = .ok (stored, n') → ∃ st01, n' = { n with st01 := st01 }

section ReadKeeps

variable {n : NV2ADevice}

theorem readKeeps_same (v : Word) : ReadKeeps n (.ok (v, n)) := by
  intro stored n' h
  cases h
  exact ⟨n.st01, rfl⟩

theorem readKeeps_error (fault : Fault) : ReadKeeps n (.error fault) := by
  intro stored n' h
  cases h

theorem ReadKeeps.ite {c : Prop} [Decidable c] {a b : ReadResult} (ha : ReadKeeps n a)
    (hb : ReadKeeps n b) : ReadKeeps n (if c then a else b) := by
  split
  · exact ha
  · exact hb

theorem readKeeps_clock (nanoseconds : BitVec 64) (f : Word → Word) :
    ReadKeeps n ((ptimerGetClock n nanoseconds).map fun clock => (f clock, n)) := by
  cases ptimerGetClock n nanoseconds with
  | error fault => exact readKeeps_error fault
  | ok clock => exact readKeeps_same (f clock)

theorem block_readKeeps {block : NV2ABlockInfo} (hmem : block ∈ memoryRegions) (nanoseconds : BitVec 64)
    (addr : Nat) (value : Word) (size : AccessSize) :
    ReadKeeps n (block.read n nanoseconds addr value size) := by
  rcases mem_memoryRegions hmem with ⟨hread, -⟩ | rfl | rfl | rfl | rfl | rfl | rfl | rfl | rfl | rfl |
    rfl | rfl | rfl
  · rw [hread]
    exact readKeeps_same 0
  · show ReadKeeps n (pmcRead n nanoseconds addr value size)
    unfold pmcRead
    repeat refine .ite (readKeeps_same _) ?_
    exact readKeeps_same 0
  · show ReadKeeps n (pbusRead n nanoseconds addr value size)
    unfold pbusRead
    refine .ite (readKeeps_error _) ?_
    repeat refine .ite (readKeeps_same _) ?_
    exact readKeeps_same 0
  · exact readKeeps_same (pfifoRegister n addr value)
  · exact .ite (readKeeps_same 0) (readKeeps_same (n.pvideo addr))
  · show ReadKeeps n (ptimerRead n nanoseconds addr value size)
    unfold ptimerRead
    iterate 4 refine .ite (readKeeps_same _) ?_
    exact .ite (readKeeps_clock nanoseconds _) (.ite (readKeeps_clock nanoseconds _) (readKeeps_same 0))
  · show ReadKeeps n (pfbRead n nanoseconds addr value size)
    unfold pfbRead
    refine .ite (readKeeps_error _) ?_
    repeat refine .ite (readKeeps_same _) ?_
    exact readKeeps_same (n.pfb addr)
  · exact .ite (readKeeps_error _) (readKeeps_same (pgraphRegister n.pgraph addr value))
  · show ReadKeeps n (pcrtcRead n nanoseconds addr value size)
    unfold pcrtcRead
    repeat refine .ite (readKeeps_same _) ?_
    exact readKeeps_same 0
  · show ReadKeeps n (prmcioRead n nanoseconds addr value size)
    unfold prmcioRead
    refine .ite (readKeeps_same _) (.ite ?_ (.ite (readKeeps_same _) (readKeeps_same value)))
    intro stored n' h
    cases h
    exact ⟨_, rfl⟩
  · show ReadKeeps n (pramdacRead n nanoseconds addr value size)
    unfold pramdacRead
    repeat refine .ite (readKeeps_same _) ?_
    exact readKeeps_same 0
  · exact readKeeps_same _
  · show ReadKeeps n (userRead n nanoseconds addr value size)
    unfold userRead
    iterate 3 refine .ite (readKeeps_error _) ?_
    repeat refine .ite (readKeeps_same _) ?_
    exact readKeeps_same value

end ReadKeeps

theorem pciMMIORead_device {n n' : NV2ADevice} {nanoseconds : BitVec 64} {barIndex : Nat}
    {addr value stored : Word} {size : AccessSize}
    (h : pciMMIORead n nanoseconds barIndex addr value size = .ok (stored, n')) :
    ∃ st01, n' = { n with st01 := st01 } := by
  have hkeeps : ReadKeeps n (pciMMIORead n nanoseconds barIndex addr value size) := by
    unfold pciMMIORead
    refine .ite (readKeeps_same _) ?_
    split
    · next block hfind =>
      exact block_readKeeps (findBlock_mem hfind) nanoseconds (addr.toNat - block.offset) value size
    · exact readKeeps_same 0
  exact hkeeps stored n' h

def pciMMIOWrite (n : NV2ADevice) (barIndex : Nat) (addr value : Word) (size : AccessSize) :
    WriteResult :=
  if barIndex = 1 then
    .ok { n with machine.device.vram := storeBytes n.machine.device.vram addr.toNat value size }
  else
    match findBlock addr with
    | some block => block.write n (addr.toNat - block.offset) value size
    | none => .ok n

end OpenXbox.Nv2a.Mmio
