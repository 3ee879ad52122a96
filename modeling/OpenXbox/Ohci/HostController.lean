import OpenXbox.Ohci.RootHub

/-!
# The host controller

All of the controller: the registers, the ports, the timer of the frames and what the frame boundary
and the endpoint lists use. The guest reads and writes the registers while frames pass, packets
complete and devices come and go. What the devices answer and how far a list may be walked is given.
-/

namespace OpenXbox.Ohci.HostController

open OpenXbox.Lib.Flags OpenXbox.Ohci.Memory
open OpenXbox.Ohci.Service (Controller Answer UsbPacket OHCI_DPTR_MASK serviceEDlist)
open OpenXbox.Ohci.Frame (Hcca readHCCA nextFrame handOver countDown startFrame OHCI_INTR_UE OHCI_INTR_SF
  OHCI_INTR_MIE OHCI_FMI_FIT OHCI_FMR_FRT)
open OpenXbox.Ohci.FrameTimer (Time OHCI_CTL_HCFS Operational Resume Suspend Reset)
open OpenXbox.Ohci.RootHub (OHCIPort Speed OHCI_STATUS_HCR OHCI_STATUS_SOC OHCI_PORT_PPS)

def OHCI_CTL_PLE : Word := 1 <<< 2
def OHCI_CTL_CLE : Word := 1 <<< 4
def OHCI_CTL_BLE : Word := 1 <<< 5
def OHCI_STATUS_CLF : Word := 1 <<< 1
def OHCI_STATUS_BLF : Word := 1 <<< 2
def OHCI_HCCA_MASK : Word := 0xFFFFFF00
def OHCI_LS_THRESH : Word := 0x628
def OHCI_RHA_RW_MASK : Word := 0
def OHCI_RHA_NPS : Word := 1 <<< 9
def OHCI_RHA_NOCP : Word := 1 <<< 12

/-- What a run is given: a bound on the turns of a walk over a list, and the answers to packets. -/
structure Env where
  fuel : Nat
  answers : Nat → Answer

/-- The register at an address; an unaligned access is ignored. -/
def register (addr : Word) : Option Nat := if addr &&& 3 = 0 then some (addr >>> 2).toNat else none

/-- The port that a register is about. -/
def portOf (reg : Nat) : Option (Fin 4) :=
  if h : 21 ≤ reg ∧ reg < 25 then some ⟨reg - 21, by omega⟩ else none

structure OHCI extends Frame.OHCI where
  irqNum : Nat
  hcRevision : Word
  hcControl : Word
  /-- `m_OldHcControl`. -/
  oldHcControl : Word
  hcCommandStatus : Word
  hcPeriodCurrentED : Word
  hcControlHeadED : Word
  hcControlCurrentED : Word
  hcBulkHeadED : Word
  hcBulkCurrentED : Word
  hcPeriodicStart : Word
  hcLSThreshold : Word
  hcRhDescriptorA : Word
  hcRhDescriptorB : Word
  hcRhStatus : Word
  rhPort : Fin 4 → OHCIPort
  sofTime : Time
  /-- `m_pEOFtimer`: the number of a timer. -/
  eofTimer : Option Nat
  /-- The timers created and not told to exit. -/
  alive : List Nat
  created : Nat

namespace OHCI

/-! ## The parts -/

/-- What the functions of the root hub use. -/
def ports (hc : OHCI) : RootHub.OHCI where
  irqNum := hc.irqNum
  hcControl := hc.hcControl
  hcCommandStatus := hc.hcCommandStatus
  hcInterruptStatus := hc.hcInterruptStatus
  hcRhStatus := hc.hcRhStatus
  rhPort := hc.rhPort

/-- The controller after one of them. -/
def withPorts (hc : OHCI) (p : RootHub.OHCI) : OHCI :=
  { hc with
    irqNum := p.irqNum
    hcControl := p.hcControl
    hcCommandStatus := p.hcCommandStatus
    hcInterruptStatus := p.hcInterruptStatus
    hcRhStatus := p.hcRhStatus
    rhPort := p.rhPort }

/-- What the functions of the timer use. -/
def timer (hc : OHCI) : FrameTimer.OHCI where
  hcControl := hc.hcControl
  unrecoverable := has hc.hcInterruptStatus OHCI_INTR_UE
  hcFmInterval := hc.hcFmInterval
  hcFmRemaining := hc.hcFmRemaining
  sofTime := hc.sofTime
  eofTimer := hc.eofTimer
  alive := hc.alive
  created := hc.created

def state (hc : OHCI) : Word := hc.hcControl &&& OHCI_CTL_HCFS

/-- The registers that lists and devices leave alone. -/
structure Settings where
  hcRevision : Word
  hcInterrupt : Word
  hcHCCA : Word
  hcPeriodCurrentED : Word
  hcControlHeadED : Word
  hcBulkHeadED : Word
  hcFmInterval : Word
  hcPeriodicStart : Word
  hcLSThreshold : Word
  hcRhDescriptorA : Word
  hcRhDescriptorB : Word

def settings (hc : OHCI) : Settings where
  hcRevision := hc.hcRevision
  hcInterrupt := hc.hcInterrupt
  hcHCCA := hc.hcHCCA
  hcPeriodCurrentED := hc.hcPeriodCurrentED
  hcControlHeadED := hc.hcControlHeadED
  hcBulkHeadED := hc.hcBulkHeadED
  hcFmInterval := hc.hcFmInterval
  hcPeriodicStart := hc.hcPeriodicStart
  hcLSThreshold := hc.hcLSThreshold
  hcRhDescriptorA := hc.hcRhDescriptorA
  hcRhDescriptorB := hc.hcRhDescriptorB

/-- A write to one of the settings, or to a register that is none of them. -/
def Settings.write (s : Settings) (reg : Nat) (value : Word) : Settings :=
  match reg with
  | 4 => { s with hcInterrupt := s.hcInterrupt ||| value }
  | 5 => { s with hcInterrupt := s.hcInterrupt &&& ~~~value }
  | 6 => { s with hcHCCA := value &&& OHCI_HCCA_MASK }
  | 8 => { s with hcControlHeadED := value &&& OHCI_DPTR_MASK }
  | 10 => { s with hcBulkHeadED := value &&& OHCI_DPTR_MASK }
  | 13 => { s with hcFmInterval := value &&& ~~~0xC000 }
  | 16 => { s with hcPeriodicStart := value &&& 0x3FFF }
  | 17 => { s with hcLSThreshold := value &&& 0xFFF }
  | 18 => { s with
      hcRhDescriptorA := s.hcRhDescriptorA &&& ~~~OHCI_RHA_RW_MASK ||| value &&& OHCI_RHA_RW_MASK }
  | _ => s

/-- `OHCI_SetInterrupt`. -/
def setInterrupt (hc : OHCI) (value : Word) : OHCI :=
  { hc with hcInterruptStatus := hc.hcInterruptStatus ||| value }

/-! ## The functional states -/

/-- `OHCI_BusStop`. -/
def busStop (hc : OHCI) : OHCI :=
  { hc with
    alive := match hc.eofTimer with
      | some timer => hc.alive.erase timer
      | none => hc.alive
    eofTimer := none }

/-- `OHCI_SOF`, at a time of the timer. -/
def sof (hc : OHCI) (now : Time) : Option OHCI :=
  hc.eofTimer.map fun _ => setInterrupt { hc with sofTime := now } OHCI_INTR_SF

/-- `OHCI_BusStart`. -/
def busStart (hc : OHCI) (now : Time) : Option OHCI :=
  sof { hc with
    eofTimer := some hc.created
    alive := hc.alive ++ [hc.created]
    created := hc.created + 1 } now

/-- `OHCI_FatalError`. -/
def fatalError (hc : OHCI) : OHCI := (hc.setInterrupt OHCI_INTR_UE).busStop

/-- `OHCI_StateReset`. -/
def stateReset (hc : OHCI) : Option OHCI :=
  hc.ports.stateReset.map fun p =>
    { hc.busStop.withPorts p with
      oldHcControl := 0
      hcRevision := 0x10
      hcInterrupt := OHCI_INTR_MIE
      hcHCCA := 0
      hcPeriodCurrentED := 0
      hcControlHeadED := 0
      hcControlCurrentED := 0
      hcBulkHeadED := 0
      hcBulkCurrentED := 0
      hcDoneHead := 0
      hcFmInterval := 0x27782EDF
      hcFmRemaining := 0
      hcFmNumber := 0
      hcPeriodicStart := 0
      hcLSThreshold := OHCI_LS_THRESH
      hcRhDescriptorA := OHCI_RHA_NOCP ||| OHCI_RHA_NPS ||| 4
      hcRhDescriptorB := 0
      doneCount := 7
      asyncTD := 0 }

/-- `OHCI_ChangeState`. -/
def changeState (hc : OHCI) (value : Word) (now : Time) : Option OHCI :=
  let oldState := hc.state
  let hc := { hc with hcControl := value }
  let newState := hc.state
  if oldState = newState then some hc
  else if newState = Operational then hc.busStart now
  else if newState = Suspend then some hc.busStop
  else if newState = Resume then some hc
  else if newState = Reset then hc.stateReset
  else some hc

/-! ## Accesses of the guest -/

/-- `OHCI_GetFrameRemaining`. -/
def getFrameRemaining (hc : OHCI) (now : Time) : Option Word :=
  (hc.timer.getFrameRemaining now).toOption

/-- `OHCI_ReadRegister`. -/
def readRegister (hc : OHCI) (addr : Word) (now : Time) : Option Word :=
  match register addr with
  | none => some 0xFFFFFFFF
  | some reg =>
    match reg with
    | 0 => some hc.hcRevision
    | 1 => some hc.hcControl
    | 2 => some hc.hcCommandStatus
    | 3 => some hc.hcInterruptStatus
    | 4 | 5 => some hc.hcInterrupt
    | 6 => some hc.hcHCCA
    | 7 => some hc.hcPeriodCurrentED
    | 8 => some hc.hcControlHeadED
    | 9 => some hc.hcControlCurrentED
    | 10 => some hc.hcBulkHeadED
    | 11 => some hc.hcBulkCurrentED
    | 12 => some hc.hcDoneHead
    | 13 => some hc.hcFmInterval
    | 14 => hc.getFrameRemaining now
    | 15 => some hc.hcFmNumber
    | 16 => some hc.hcPeriodicStart
    | 17 => some hc.hcLSThreshold
    | 18 => some hc.hcRhDescriptorA
    | 19 => some hc.hcRhDescriptorB
    | 20 => some hc.hcRhStatus
    | reg =>
      match portOf reg with
      | some i => some ((hc.rhPort i).hcRhPortStatus ||| OHCI_PORT_PPS)
      | none => some 0xFFFFFFFF

/-- The write to HcCommandStatus. -/
def writeCommandStatus (hc : OHCI) (value : Word) : Option OHCI :=
  let hc := { hc with hcCommandStatus := hc.hcCommandStatus ||| (value &&& ~~~OHCI_STATUS_SOC) }
  if has hc.hcCommandStatus OHCI_STATUS_HCR then hc.stateReset else some hc

/-- `OHCI_SetHubStatus` and `OHCI_PortSetStatus`. -/
def writePorts (hc : OHCI) (op : RootHub.Op) : Option OHCI := (RootHub.step hc.ports op).map hc.withPorts

/-- `OHCI_WriteRegister`. -/
def writeRegister (hc : OHCI) (addr value : Word) (now : Time) : Option OHCI :=
  match register addr with
  | none => some hc
  | some reg =>
    match reg with
    | 1 => hc.changeState value now
    | 2 => hc.writeCommandStatus value
    | 3 => some { hc with hcInterruptStatus := hc.hcInterruptStatus &&& ~~~value }
    | 4 => some { hc with hcInterrupt := hc.hcInterrupt ||| value }
    | 5 => some { hc with hcInterrupt := hc.hcInterrupt &&& ~~~value }
    | 6 => some { hc with hcHCCA := value &&& OHCI_HCCA_MASK }
    | 8 => some { hc with hcControlHeadED := value &&& OHCI_DPTR_MASK }
    | 9 => some { hc with hcControlCurrentED := value &&& OHCI_DPTR_MASK }
    | 10 => some { hc with hcBulkHeadED := value &&& OHCI_DPTR_MASK }
    | 11 => some { hc with hcBulkCurrentED := value &&& OHCI_DPTR_MASK }
    | 13 => some { hc with hcFmInterval := value &&& ~~~0xC000 }
    | 16 => some { hc with hcPeriodicStart := value &&& 0x3FFF }
    | 17 => some { hc with hcLSThreshold := value &&& 0xFFF }
    | 18 => some { hc with
        hcRhDescriptorA := hc.hcRhDescriptorA &&& ~~~OHCI_RHA_RW_MASK ||| value &&& OHCI_RHA_RW_MASK }
    | 20 => hc.writePorts (.rhStatus value)
    | reg =>
      match portOf reg with
      | some i => hc.writePorts (.rhPortStatus i value)
      | none => some hc

/-! ## Frames -/

/-- `OHCI_ServiceEDlist`, with the descriptor that is on the stack. -/
def serviceList (hc : OHCI) (env : Env) (ed : EndpointDescriptor) (head : Word) (completion : Bool) :
    Option (Bool × OHCI) :=
  (serviceEDlist env.fuel env.answers { hc.toController with unrecoverable := false } ed head
    completion).map fun r =>
      let failed := r.2.unrecoverable
      let hc := { hc with toController := { r.2 with unrecoverable := hc.unrecoverable || failed } }
      (r.1, if failed then hc.fatalError else hc)

/-- The control list in `OHCI_ProcessLists`. -/
def processControlList (hc : OHCI) (env : Env) (ed : EndpointDescriptor) (completion : Bool) :
  Option OHCI :=
  if has hc.hcControl OHCI_CTL_CLE ∧ has hc.hcCommandStatus OHCI_STATUS_CLF then
    (hc.serviceList env ed hc.hcControlHeadED completion).map fun r =>
      if r.1 then r.2
      else { r.2 with
        hcControlCurrentED := 0
        hcCommandStatus := r.2.hcCommandStatus &&& ~~~OHCI_STATUS_CLF }
  else some hc

/-- The bulk list in `OHCI_ProcessLists`. -/
def processBulkList (hc : OHCI) (env : Env) (ed : EndpointDescriptor) (completion : Bool) :
  Option OHCI :=
  if has hc.hcControl OHCI_CTL_BLE ∧ has hc.hcCommandStatus OHCI_STATUS_BLF then
    (hc.serviceList env ed hc.hcBulkHeadED completion).map fun r =>
      if r.1 then r.2
      else { r.2 with
        hcBulkCurrentED := 0
        hcCommandStatus := r.2.hcCommandStatus &&& ~~~OHCI_STATUS_BLF }
  else some hc

/-- `OHCI_ProcessLists`. -/
def processLists (hc : OHCI) (env : Env) (ed : EndpointDescriptor) (completion : Bool) : Option OHCI :=
  (hc.processControlList env ed completion).bind fun hc => hc.processBulkList env ed completion

/-- The periodic list of a frame. -/
def processPeriodicList (hc : OHCI) (env : Env) (ed : EndpointDescriptor) (hcca : Hcca) : Option OHCI :=
  if has hc.hcControl OHCI_CTL_PLE then
    (hc.serviceList env ed (hcca.interruptTable (hc.hcFmNumber &&& 0x1F).toNat) false).map Prod.snd
  else some hc

/-- A packet that waits is cancelled when a list has been disabled. -/
def cancelDisabled (hc : OHCI) : OHCI :=
  if has (hc.oldHcControl &&& ~~~hc.hcControl) (OHCI_CTL_BLE ||| OHCI_CTL_CLE) then { hc with asyncTD :=
  0 }
  else hc

/-- The lists in `OHCI_FrameBoundaryWorker`. -/
def frameLists (hc : OHCI) (env : Env) (ed : EndpointDescriptor) (hcca : Hcca) : Option OHCI :=
  (hc.processPeriodicList env ed hcca).bind fun hc =>
    let hc := hc.cancelDisabled
    processLists { hc with oldHcControl := hc.hcControl } env ed false

/-- What comes after the lists. -/
def endFrame (hc : OHCI) (hcca : Hcca) (now : Time) : Option OHCI :=
  let f := nextFrame hc.toOHCI
  let r := handOver f { hcca with frameNumber := f.hcFmNumber.setWidth 16 }
  hc.eofTimer.map fun _ =>
    let hc' := { hc with
      toOHCI := startFrame { r.1 with doneCount := countDown r.1.doneCount } r.2
      sofTime := now }
    if hc.hcHCCA = 0 then hc'.busStop else hc'

/-- `OHCI_FrameBoundaryWorker`. -/
def frameBoundary (hc : OHCI) (env : Env) (ed : EndpointDescriptor) (now : Time) : Option OHCI :=
  if hc.hcHCCA = 0 then some hc.fatalError
  else
    let hcca := readHCCA hc.host hc.hcHCCA
    (frameLists { hc with unrecoverable := false } env ed hcca).bind fun hc =>
      if has hc.hcInterruptStatus OHCI_INTR_UE then some hc else hc.endFrame hcca now

/-- `OHCI_AsyncCompletePacket`, for a packet that the device has been at. -/
def asyncCompletePacket (hc : OHCI) (env : Env) (packet : UsbPacket) (data : Nat → Byte)
    (ed : EndpointDescriptor) : Option OHCI :=
  processLists { hc with
    unrecoverable := false, packet := packet, usbBuffer := data, asyncComplete := true } env ed true

/-- `OHCI_AsyncCancelDevice`; `waits` tells that the packet which waits is the device's. -/
def asyncCancelDevice (hc : OHCI) (waits : Bool) : OHCI :=
  if hc.asyncTD ≠ 0 ∧ waits then { hc with asyncTD := 0 } else hc

/-- As constructed, over some memory; the time of the last frame is not initialised. -/
def construct (irqNum : Nat) (sofTime : Time) (mem : GuestMemory) (host : Word → Byte) : OHCI where
  mem := mem
  host := host
  usbBuffer := fun _ => 0
  hcDoneHead := 0
  hcFmNumber := 0
  doneCount := 7
  asyncTD := 0
  asyncComplete := false
  packet := ⟨0, 0⟩
  unrecoverable := false
  events := []
  calls := 0
  hcHCCA := 0
  hcInterruptStatus := 0
  hcInterrupt := OHCI_INTR_MIE
  hcFmInterval := 0x27782EDF
  hcFmRemaining := 0
  frame := none
  irqNum := irqNum
  hcRevision := 0x10
  hcControl := 0
  oldHcControl := 0
  hcCommandStatus := 0
  hcPeriodCurrentED := 0
  hcControlHeadED := 0
  hcControlCurrentED := 0
  hcBulkHeadED := 0
  hcBulkCurrentED := 0
  hcPeriodicStart := 0
  hcLSThreshold := OHCI_LS_THRESH
  hcRhDescriptorA := OHCI_RHA_NOCP ||| OHCI_RHA_NPS ||| 4
  hcRhDescriptorB := 0
  hcRhStatus := 0
  rhPort _ := ⟨0, none⟩
  sofTime := sofTime
  eofTimer := none
  alive := []
  created := 0

end OHCI

/-! ## Runs -/

/-- What can happen next. -/
inductive Op where
  | read (addr : Word) (now : Time)
  | write (addr value : Word) (now : Time)
  | attach (i : Fin 4) (speed : Speed)
  /-- The packet that waits is of the device, or is not. -/
  | detach (i : Fin 4) (waits : Bool)
  | childDetach (waits : Bool)
  | wakeup (i : Fin 4)
  | frame (ed : EndpointDescriptor) (now : Time)
  | complete (packet : UsbPacket) (data : Nat → Byte) (ed : EndpointDescriptor)
  /-- The guest and the rest of the machine write to memory. -/
  | memory (mem : GuestMemory) (host : Word → Byte)

/-- `none` when a callback works on a port that there is not, when a list does not end within the
bound, or when a function of the timer is called without one. -/
def step (env : Env) (hc : OHCI) : Op → Option OHCI
  | .read addr now => (hc.readRegister addr now).map fun _ => hc
  | .write addr value now => hc.writeRegister addr value now
  | .attach i speed => hc.writePorts (.attach i speed)
  | .detach i waits => (hc.asyncCancelDevice waits).writePorts (.detach i)
  | .childDetach waits => some (hc.asyncCancelDevice waits)
  | .wakeup i => hc.writePorts (.wakeup i)
  | .frame ed now => if hc.alive = [] then some hc else hc.frameBoundary env ed now
  | .complete packet data ed => hc.asyncCompletePacket env packet data ed
  | .memory mem host => some { hc with mem := mem, host := host }

end OpenXbox.Ohci.HostController
