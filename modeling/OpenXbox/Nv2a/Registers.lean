import OpenXbox.Lib.BitField
import OpenXbox.Nv2a.Machine

/-!
# The registers of the NV2A

What the register blocks hold beside the pusher, RAMIN and the 2D objects, and the
interrupt line. A register write is stopped by a failed assertion, and by the CPU on
a division by zero.
-/

namespace OpenXbox.Nv2a.Registers

open OpenXbox.Lib.BitField OpenXbox.Nv2a.Memory OpenXbox.Nv2a.Pusher OpenXbox.Nv2a.Machine

inductive Fault where
  | assertion
  | divideByZero
deriving DecidableEq

deriving instance DecidableEq for AccessSize

/-- The quotient and the remainder of unsigned words. -/
def divide {w : Nat} (a b : BitVec w) : Except Fault (BitVec w) :=
  if b = 0 then .error .divideByZero else .ok (a / b)

def remainder {w : Nat} (a b : BitVec w) : Except Fault (BitVec w) :=
  if b = 0 then .error .divideByZero else .ok (a % b)

/-- The interrupts an engine has, and those it passes on. -/
structure Interrupts where
  pending : Word
  enabled : Word

def Interrupts.none : Interrupts := ⟨0, 0⟩

def Interrupts.raised (i : Interrupts) : Bool := i.pending &&& i.enabled ≠ 0

/-- The bits written as ones are cleared. -/
def Interrupts.acknowledge (i : Interrupts) (value : Word) : Interrupts :=
  { i with pending := i.pending &&& ~~~value }

def Interrupts.enable (i : Interrupts) (value : Word) : Interrupts := { i with enabled := value }

def Interrupts.raise (i : Interrupts) (bit : Word) : Interrupts :=
  { i with pending := i.pending ||| bit }

structure PCRTC where
  interrupts : Interrupts
  start : Word
  regs : Nat → Word

structure PTIMER where
  interrupts : Interrupts
  numerator : Word
  denominator : Word
  alarmTime : Word

structure PRAMDAC where
  coreClockCoeff : Word
  coreClockFreq : BitVec 64
  memoryClockCoeff : Word
  videoClockCoeff : Word

structure PRMCIO where
  crIndex : Byte
  cr : Byte → Byte

structure GraphicsContext where
  channel3d : Bool
  subchannel : Word

/-- PGRAPH without its objects. -/
structure PGRAPH where
  interrupts : Interrupts
  contextTable : Word
  contextAddress : Word
  trappedMethod : Word
  trappedSubchannel : Word
  trappedChannelId : Word
  trappedDataLow : Word
  notifySource : Word
  fifoAccess : Bool
  channelId : Word
  context : Word → GraphicsContext
  regs : Nat → Word

/-- Two bits of a register are cast to it, so that it need not be one of the three. -/
abbrev FIFOEngine := BitVec 2

def ENGINE_SOFTWARE : FIFOEngine := 0
def ENGINE_GRAPHICS : FIFOEngine := 1

/-- An object named by a handle. -/
structure RAMHTEntry where
  handle : Word
  objectInstance : Word
  engine : FIFOEngine
  channelId : Word
  valid : Bool

/-- Where the puller thread is. -/
inductive PullerPhase where
  /-- At the head of its loop. -/
  | outer
  /-- Waiting for commands. -/
  | waiting
  /-- At the head of the loop over the working cache. -/
  | inner
  /-- Waiting for the guest to switch the context. -/
  | switching (command : CacheEntry) (entry : RAMHTEntry)
  /-- Waiting for the guest to let the FIFO at PGRAPH. -/
  | access (command : CacheEntry) (entry : Option RAMHTEntry) (parameter : Word)
  /-- At the call of `pgraph_method`. -/
  | method (command : CacheEntry) (entry : Option RAMHTEntry) (parameter : Word)
  /-- Back from it. -/
  | done (command : CacheEntry) (entry : Option RAMHTEntry)
  | ended

/-- The puller's part of `Cache1State`; `running` is `m_running`. -/
structure Puller where
  pullEnabled : Bool
  boundEngines : BitVec 3 → FIFOEngine
  lastEngine : FIFOEngine
  workingCache : List CacheEntry
  phase : PullerPhase
  running : Bool

structure NV2ADevice where
  /-- RAM, RAMIN, the pusher and the objects of PGRAPH. -/
  machine : Machine.State
  systemRAMSize : Word
  /-- `CLOCKS_PER_SEC` of the C library. -/
  clocksPerSec : Word
  /-- `PCI_COMMAND` of the configuration space. -/
  pciCommand : BitVec 16
  pmc : Interrupts
  pfifo : Interrupts
  puller : Puller
  pvideo : Nat → Word
  ptimer : PTIMER
  pfb : Nat → Word
  pgraph : PGRAPH
  pcrtc : PCRTC
  prmcio : PRMCIO
  /-- `m_VGAState.st01`. -/
  st01 : Byte
  pramdac : PRAMDAC
  /-- The last level sent to the IRQ handler; low before the first. -/
  irq : Bool

/-! ## The state after a reset -/

def PCRTC.init : PCRTC := ⟨.none, 0, fun _ => 0⟩

def PTIMER.init : PTIMER := ⟨.none, 0, 0, 0⟩

def PRAMDAC.init : PRAMDAC := ⟨0x00011c01, 189000000, 0, 0x0003C20D⟩

def PRMCIO.init : PRMCIO := ⟨0, fun _ => 0⟩

def PGRAPH.init : PGRAPH :=
  { interrupts := .none, contextTable := 0, contextAddress := 0, trappedMethod := 0
    trappedSubchannel := 0, trappedChannelId := 0, trappedDataLow := 0, notifySource := 0
    fifoAccess := false, channelId := 0, context := fun _ => ⟨false, 0⟩, regs := fun _ => 0 }

def Puller.init : Puller :=
  { pullEnabled := false, boundEngines := fun _ => ENGINE_SOFTWARE, lastEngine := ENGINE_SOFTWARE
    workingCache := [], phase := .outer, running := true }

/-- The fields of the constructor without an initial value are the caller's. -/
def Cache1State.init (method : BitVec 14) (subchannel : BitVec 3) (methodCount : BitVec 24) : Cache1State :=
  { channelId := 0, mode := .pio, pushEnabled := false, dmaPushEnabled := false
    dmaPushSuspended := false, dmaInstance := 0, methodNonincreasing := false, method := method
    subchannel := subchannel, methodCount := methodCount, dcount := 0, subroutineActive := false
    subroutineReturn := 0, getJmpShadow := 0, rsvdShadow := 0, dataShadow := 0
    error := ERROR_NONE, cache := [] }

/-- What is in memory that a reset does not initialise. -/
structure Uninitialised where
  method : BitVec 14
  subchannel : BitVec 3
  methodCount : BitVec 24
  objects : BitVec 3 → Nat → Word
  pvideo : Nat → Word
  st01 : Byte

/-- The device after its construction and `Reset`, over a system RAM. -/
def NV2ADevice.reset (ram : Nat → Byte) (systemRAMSize clocksPerSec : Word)
    (pciCommand : BitVec 16) (u : Uninitialised) : NV2ADevice :=
  { machine :=
      { device :=
          { vram := ram, ramin := fun _ => 0, pfifoRegs := fun _ => 0
            cache1 := Cache1State.init u.method u.subchannel u.methodCount
            channelControl := fun _ => ⟨0, 0, 0⟩, fetched := [] }
        pgraph :=
          { channelValid := false
            subchannelData := fun i => ⟨0, ⟨0, u.objects i⟩⟩ }
        call := none }
    systemRAMSize := systemRAMSize
    clocksPerSec := clocksPerSec
    pciCommand := pciCommand
    pmc := .none
    pfifo := .none
    puller := .init
    pvideo := u.pvideo
    ptimer := .init
    pfb := fun _ => 0
    pgraph := .init
    pcrtc := .init
    prmcio := .init
    st01 := u.st01
    pramdac := .init
    irq := false }

/-! ## The interrupt line -/

def NV_PMC_INTR_0_PFIFO : Word := 1 <<< 8
def NV_PMC_INTR_0_PGRAPH : Word := 1 <<< 12
def NV_PMC_INTR_0_PCRTC : Word := 1 <<< 24

/-- Sets or clears bits. -/
def putBits (bits : Word) (on : Bool) (word : Word) : Word :=
  if on then word ||| bits else word &&& ~~~bits

/-- `UpdateIRQ`. -/
def NV2ADevice.updateIRQ (n : NV2ADevice) : NV2ADevice :=
  let pending := putBits NV_PMC_INTR_0_PFIFO n.pfifo.raised n.pmc.pending
  let pending := putBits NV_PMC_INTR_0_PCRTC n.pcrtc.interrupts.raised pending
  let pending := putBits NV_PMC_INTR_0_PGRAPH n.pgraph.interrupts.raised pending
  { n with
    pmc.pending := pending
    irq := pending ≠ 0 ∧ n.pmc.enabled ≠ 0 }

end OpenXbox.Nv2a.Registers
