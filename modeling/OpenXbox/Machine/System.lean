import OpenXbox.Ata.Ports
import OpenXbox.Cpu.Interrupts
import OpenXbox.Machine.PciBus
import OpenXbox.Machine.Ports
import OpenXbox.Pic.DeliveryOrder
import OpenXbox.Superio.Device
import OpenXbox.Uart.Device

/-!
# The machine

The devices behind the I/O mapper, the interrupt controllers that their lines lead to, and the CPU
that takes the vectors. An operation is an access of the guest, something that a thread of a device
does, or a call of the thread that runs the CPU. A device calls the interrupt controllers in the
middle of what it does; no device looks at them, so these calls are made after it here.
-/

namespace OpenXbox.Machine.System

open OpenXbox.Lib.Run OpenXbox.Lib.Parts OpenXbox.Machine.PciBus OpenXbox.Machine.Ports
open OpenXbox.Pci.Device (Word PCIDevice Bytes)
open OpenXbox.Pci.ConfigSpace (PCIBus PCI_DEVFN PCI_DEVID)

/-! ## The devices -/

/-- The timer thread, when there is one, and the level that it sets next. -/
structure I8254 where
  running : Bool
  level : Bool

/-- What a serial port is called with. -/
structure SerialCall where
  op : Uart.Device.Op
  host : Uart.Device.Host

/-- What the interrupt controllers are called with. There is no line for a number from 16 on: then
the mask of the line is zero, as long as the shift makes one. -/
inductive PicCall where
  | access (op : Pic.Device.Op)
  | noLine (irqNum : Nat)

structure Xbox (φ : Type*) where
  i8259 : Pic.Device.State
  i8254 : I8254
  ata : Ata.Ports.ATA
  superio : Superio.Device.SuperIO
  serialPorts : Fin 2 → Uart.Device.Serial
  pciBus : Bus φ
  cpu : Cpu.Interrupts.Pending

/-- The settings and the build, the bound on the depth of `UpdateIRQ`, and the PCI functions. -/
structure Setup (φ : Type*) where
  superIOEnabled : Bool
  build : Cpu.Interrupts.Build
  depth : Nat
  serve : Handler φ

def Setup.debug {φ : Type*} (m : Setup φ) : Bool :=
  match m.build with
  | .debug => true
  | .release => false

def XBOX_NUM_PIC_IRQS : Nat := 16
def XBOX_LPC_ACPI_IRQ_ROUT : Nat := 0x64
def PCI_INTERRUPT_PIN : Nat := 0x3d

def LPC_DEVID : Word := PCI_DEVID 0 (PCI_DEVFN 1 0)
def SMBUS_DEVID : Word := PCI_DEVID 0 (PCI_DEVFN 1 1)
def NV2A_DEVID : Word := PCI_DEVID 1 (PCI_DEVFN 0 0)

/-- The second of the lines of the power management. -/
def SMBUS_ACPI_IRQ : Nat := 1

/-- The machine after `InitHardware`, with what the serial ports find outside. -/
def Xbox.initial {φ : Type*} (m : Setup φ)
    (drivers : Ata.Ports.Channel → Fin 2 → Ata.Device.ATADeviceDriver) (pciBus : Bus φ)
    (host : Uart.Device.Host) (recvData xmitData : Nat → Uart.Device.Byte) : Xbox φ where
  i8259 := .initial
  i8254 := ⟨false, true⟩
  ata := .initial drivers
  superio := .initial
  serialPorts _ := Uart.Device.construct host recvData xmitData
  pciBus := pciBus
  cpu := Cpu.Interrupts.initialized m.build

/-! ## The lines -/

/-- `LPCDevice::HandleIRQ`: the line that it routes to. -/
def lpcHandleIRQ (lpc : PCIDevice) (irqNum : Nat) : Option Nat :=
  let routing := lpc.configSpace.read32 XBOX_LPC_ACPI_IRQ_ROUT
  let irq := ((routing >>> (irqNum * 8)) &&& 0xff).toNat
  if irq = 0 ∨ irq ≥ XBOX_NUM_PIC_IRQS then none else some irq

/-- The line of a PCI function. The SMBus controller and the NV2A are the ones with a handler. -/
def pciLine (c : PCIBus) (id : Word) : Option Nat :=
  if id = SMBUS_DEVID then (c.devices LPC_DEVID).bind fun lpc => lpcHandleIRQ lpc SMBUS_ACPI_IRQ
  else if id = NV2A_DEVID then (c.devices id).map fun nv2a => (nv2a.configSpace PCI_INTERRUPT_PIN).toNat
  else none

/-- The call of `HandleIRQ`. -/
def handleIRQ (irqNum : Nat) (level : Bool) : PicCall :=
  if h : irqNum < 16 then .access (.handleIRQ ⟨irqNum, h⟩ level) else .noLine irqNum

/-- The calls that the ATA channels make between two states. -/
def ataCalls (a a' : Ata.Ports.ATA) : List PicCall :=
  [Ata.Ports.Channel.primary, .secondary].flatMap fun c =>
    ((a'.channels c).irqs.drop (a.channels c).irqs.length).map fun r => handleIRQ r.1.toNat r.2

def levelOf : Uart.Device.Output → Option Bool
  | .irq level => some level
  | _ => none

/-- Those of a serial port, on the line that the Super I/O chip has given it. -/
def serialCalls (irqNum : Nat) (s s' : Uart.Device.Serial) : List PicCall :=
  ((s'.log.drop s.log.length).filterMap levelOf).map (handleIRQ irqNum)

/-- Those of the PCI functions. -/
def pciCalls (c : PCIBus) (levels : List (Word × Bool)) : List PicCall :=
  levels.filterMap fun r => (pciLine c r.1).map fun irqNum => handleIRQ irqNum r.2

/-! ## The devices alone -/

def picStep (depth : Nat) (s : Pic.Device.State) : PicCall → Option Pic.Device.State
  | .access op => Pic.Device.perform depth s op
  | .noLine irqNum => if irqNum < 40 then Pic.Device.updateIRQ depth s .slave else none

/-- In a debug build the assertion stops the program. -/
def ataStep (debug : Bool) (a : Ata.Ports.ATA) (p : Ata.Ports.PortAccess) : Option Ata.Ports.ATA :=
  let r := Ata.Ports.io a p
  if debug ∧ r.2.asserts then none else some r.1

def superIOStep (debug : Bool) (s : Superio.Device.SuperIO) (a : Word × Transfer) :
    Option Superio.Device.SuperIO :=
  if a.2.write then Superio.Device.ioWrite debug s a.1 a.2.value
  else (Superio.Device.ioRead s a.1).map fun _ => s

def serialStep (s : Uart.Device.Serial) (c : SerialCall) : Option Uart.Device.Serial :=
  some (c.op.apply c.host s)

/-- `i8254::IOWrite`; the program ends when a thread is assigned to one that runs. -/
def i8254Write (t : I8254) (value : Word) : Option I8254 :=
  if value = 0x34 then if t.running then none else some ⟨true, true⟩ else some t

/-- The next turn of half of the loop of `i8254::Run`. -/
def i8254Turn (t : I8254) : Option I8254 := if t.running then some { t with level := !t.level } else none

/-! ## The guest -/

def ataAccess (port : Word) (t : Transfer) : Ata.Ports.PortAccess :=
  if t.write then .write port t.value t.size else .read port t.value t.size

def picAccess (port : Word) (t : Transfer) : Pic.Device.Op :=
  if t.write then .ioWrite port t.value else .ioRead port

def serialAccess (port : Word) (t : Transfer) (host : Uart.Device.Host) : SerialCall :=
  ⟨if t.write then .write port t.value else .read port, host⟩

variable {φ : Type*}

/-- What an operation makes of the devices, and what they call the interrupt controllers with. -/
structure Effect (φ : Type*) where
  answer : Answer
  xbox : Xbox φ
  calls : List PicCall

/-- The value and the result of a read of the interrupt controllers. -/
def picAnswer (depth : Nat) (s : Pic.Device.State) (port : Word) (t : Transfer) : Answer :=
  match (Pic.Device.access s (picAccess port t)).run (Pic.Device.updateIRQ depth) with
  | some (some value, _) => ⟨value.setWidth 32, true⟩
  | _ => ⟨t.value, t.write⟩

def ataAnswer (a : Ata.Ports.ATA) (p : Ata.Ports.PortAccess) : Answer :=
  let value := match p with
    | .read _ value _ | .write _ value _ => value
  let r := (Ata.Ports.io a p).2
  ⟨r.value.getD value, r.handled⟩

def superIOAnswer (s : Superio.Device.SuperIO) (a : Word × Transfer) : Answer :=
  let (port, t) := a
  match t.write, Superio.Device.ioRead s port with
  | false, some (some value) => ⟨value.setWidth 32, true⟩
  | false, _ => ⟨t.value, false⟩
  | true, _ => ⟨t.value, true⟩

/-- Only the guest gets an answer. -/
def serialAnswer (s : Uart.Device.Serial) (c : SerialCall) : Option Answer :=
  match c.op with
  | .read port => some ⟨(Uart.Device.ioRead c.host port s).1, true⟩
  | .write _ value => some ⟨value, true⟩
  | _ => none

/-- `IORead` and `IOWrite` of the PCI bus. -/
def pciAccess (m : Setup φ) (x : Xbox φ) (port : Word) (t : Transfer) : Option (Effect φ) :=
  (x.pciBus.io m.serve port t).map fun r =>
    ⟨r.answer, { x with pciBus := r.bus }, pciCalls x.pciBus.config r.levels⟩

/-- `IORead` and `IOWrite` of a device that is mapped. -/
def deviceAccess (m : Setup φ) (x : Xbox φ) (port : Word) (t : Transfer) (host : Uart.Device.Host) :
    Device → Option (Effect φ)
  | .i8259 => some ⟨picAnswer m.depth x.i8259 port t, x, [.access (picAccess port t)]⟩
  | .i8254 =>
    if t.write then
      (i8254Write x.i8254 t.value).map fun i8254 => ⟨⟨t.value, true⟩, { x with i8254 := i8254 }, []⟩
    else some ⟨⟨0, true⟩, x, []⟩
  | .cmos => some ⟨⟨if t.write then t.value else 0, false⟩, x, []⟩
  | .ata =>
    (ataStep m.debug x.ata (ataAccess port t)).map fun ata =>
      ⟨ataAnswer x.ata (ataAccess port t), { x with ata := ata }, ataCalls x.ata ata⟩
  | .pciBus => pciAccess m x port t
  | .superio =>
    (superIOStep m.debug x.superio (port, t)).map fun superio =>
      ⟨superIOAnswer x.superio (port, t), { x with superio := superio }, []⟩
  | .serial i =>
    (serialStep (x.serialPorts i) (serialAccess port t host)).map fun serial =>
      ⟨(serialAnswer (x.serialPorts i) (serialAccess port t host)).getD ⟨t.value, false⟩,
        { x with serialPorts := Function.update x.serialPorts i serial },
        serialCalls (x.superio.serialPorts i).irq.toNat (x.serialPorts i) serial⟩

/-- What a read finds where nothing handles it. -/
def unhandled (t : Transfer) (a : Answer) : Answer :=
  if a.handled then a else ⟨if t.write then t.value else 0, false⟩

/-- `IOMapper::IORead` and `IOMapper::IOWrite`. The PCI bus is the one dynamic device. -/
def ioMapperAccess (m : Setup φ) (x : Xbox φ) (port : Word) (t : Transfer) (host : Uart.Device.Host) :
    Option (Effect φ) :=
  match Common.IOMapper.lookupDevice (ioMapper m.superIOEnabled).mappedIODevices port.toNat with
  | some d => deviceAccess m x port t host d
  | none => (pciAccess m x port t).map fun e => { e with answer := unhandled t e.answer }

/-- `IOMapper::MMIORead` and `IOMapper::MMIOWrite`. -/
def mmioMapperAccess (m : Setup φ) (x : Xbox φ) (addr : Word) (t : Transfer) : Option (Effect φ) :=
  if addr &&& BitVec.ofNat 32 (t.size - 1) ≠ 0 then some ⟨⟨t.value, false⟩, x, []⟩
  else (x.pciBus.mmio m.serve addr t).map fun r =>
    ⟨unhandled t r.answer, { x with pciBus := r.bus }, pciCalls x.pciBus.config r.levels⟩

/-! ## Operations -/

/-- What the back-end and the timers do with a serial port. -/
inductive SerialEvent where
  | receive (buf : List Uart.Device.Byte)
  | event (isBreak : Bool)
  | transmit
  | fifoTimeoutTimer
  | modemStatusPoll

def SerialEvent.op : SerialEvent → Uart.Device.Op
  | .receive buf => .receive buf
  | .event isBreak => .event isBreak
  | .transmit => .transmit
  | .fifoTimeoutTimer => .fifoTimeoutTimer
  | .modemStatusPoll => .modemStatusPoll

/-- What the thread that runs the CPU calls. -/
inductive CpuCall where
  | run
  | step
  | advance (canInjectInterrupt : Bool)

def CpuCall.input : CpuCall → Cpu.Interrupts.Input
  | .run => .run
  | .step => .step
  | .advance canInjectInterrupt => .advance canInjectInterrupt

inductive Op (φ : Type*) where
  /-- A port instruction of the guest, with what a serial port finds outside. -/
  | io (port : Word) (t : Transfer) (host : Uart.Device.Host)
  | mmio (addr : Word) (t : Transfer)
  | serial (i : Fin 2) (event : SerialEvent) (host : Uart.Device.Host)
  /-- A turn of the timer thread. -/
  | timer
  /-- The threads of a PCI function change it and set the levels of its line. -/
  | function (id : Word) (next : φ) (levels : List Bool)
  | cpu (call : CpuCall)

/-- The operation, but for what the interrupt controllers make of it. Only the guest sees an answer. -/
def act (m : Setup φ) (x : Xbox φ) : Op φ → Option (Effect φ)
  | .io port t host => ioMapperAccess m x port t host
  | .mmio addr t => mmioMapperAccess m x addr t
  | .serial i event host =>
    (serialStep (x.serialPorts i) ⟨event.op, host⟩).map fun serial =>
      ⟨⟨0, false⟩, { x with serialPorts := Function.update x.serialPorts i serial },
        serialCalls (x.superio.serialPorts i).irq.toNat (x.serialPorts i) serial⟩
  | .timer =>
    (i8254Turn x.i8254).map fun i8254 =>
      ⟨⟨0, false⟩, { x with i8254 := i8254 }, [handleIRQ 0 x.i8254.level]⟩
  | .function id next levels =>
    some ⟨⟨0, false⟩,
      { x with pciBus := { x.pciBus with function := Function.update x.pciBus.function id next } },
      pciCalls x.pciBus.config (levels.map fun level => (id, level))⟩
  | .cpu call =>
    (Cpu.Interrupts.step m.build x.cpu call.input).map fun cpu => ⟨⟨0, false⟩, { x with cpu := cpu }, []⟩

/-- The vectors that `Cpu::Interrupt` is called with between two states. -/
def interrupts (s s' : Pic.Device.State) : List Cpu.Interrupts.Vector :=
  (Pic.DeliveryOrder.passed (Pic.DeliveryOrder.logged s s')).map fun v => BitVec.ofNat 8 v.number

/-- One operation, with the calls of the interrupt controllers and theirs of the CPU. -/
def step (m : Setup φ) (x : Xbox φ) (op : Op φ) : Option (Xbox φ) :=
  (act m x op).bind fun e =>
    (exec (picStep m.depth) e.xbox.i8259 e.calls).bind fun i8259 =>
      (exec (Cpu.Interrupts.step m.build) e.xbox.cpu
        ((interrupts x.i8259 i8259).map .interrupt)).map fun cpu =>
          { e.xbox with i8259 := i8259, cpu := cpu }

/-! ## What is for a device -/

/-- The device has asked for the port. -/
def Setup.Maps (m : Setup φ) (d : Device) (port : Word) : Prop :=
  ∃ r ∈ wanted m.superIOEnabled, r.device = d ∧ r.Has port.toNat

instance (r : Range) (port : Nat) : Decidable (r.Has port) := inferInstanceAs (Decidable (_ ∧ _))

instance (m : Setup φ) (d : Device) (port : Word) : Decidable (m.Maps d port) :=
  inferInstanceAs (Decidable (∃ r ∈ _, _))

/-- The access of the guest, when it is at a port of the device. -/
def atPort (m : Setup φ) (d : Device) : Op φ → List (Word × Transfer × Uart.Device.Host)
  | .io port t host => if m.Maps d port then [(port, t, host)] else []
  | _ => []

def i8254Share (m : Setup φ) (op : Op φ) : List (Option Word) :=
  match op with
  | .timer => [none]
  | op => (atPort m .i8254 op).flatMap fun a => if a.2.1.write then [some a.2.1.value] else []

/-- The timer alone: a turn of its thread, or a write. -/
def i8254Step (t : I8254) : Option Word → Option I8254
  | none => i8254Turn t
  | some value => i8254Write t value

def ataShare (m : Setup φ) (op : Op φ) : List Ata.Ports.PortAccess :=
  (atPort m .ata op).map fun a => ataAccess a.1 a.2.1

def superIOShare (m : Setup φ) (op : Op φ) : List (Word × Transfer) :=
  (atPort m .superio op).map fun a => (a.1, a.2.1)

def serialShare (m : Setup φ) (i : Fin 2) (op : Op φ) : List SerialCall :=
  match op with
  | .serial j event host => if j = i then [⟨event.op, host⟩] else []
  | op => (atPort m (.serial i) op).map fun a => serialAccess a.1 a.2.1 a.2.2

/-- What a PCI bus is called with: an access, or what the threads of a function do. -/
inductive PciCall (φ : Type*) where
  | access (op : PciBus.Op)
  | function (id : Word) (next : φ) (levels : List Bool)

def pciStep (serve : Handler φ) (b : Bus φ) : PciCall φ → Option (Bus φ)
  | .access op => PciBus.step serve b op
  | .function id next _ => some { b with function := Function.update b.function id next }

/-- The bus has its own ports and those that no device has asked for, and all of the memory. -/
def pciShare (m : Setup φ) : Op φ → List (PciCall φ)
  | .io port t _ =>
    if m.Maps .pciBus port ∨ ∀ r ∈ wanted m.superIOEnabled, ¬ r.Has port.toNat then
      [.access (.io port t)]
    else []
  | .mmio addr t =>
    if addr &&& BitVec.ofNat 32 (t.size - 1) = 0 then [.access (.mmio addr t)] else []
  | .function id next levels => [.function id next levels]
  | _ => []

/-! ## What the devices give out -/

def i8254Calls (t : I8254) : Option Word → List PicCall
  | none => [handleIRQ 0 t.level]
  | some _ => []

/-- The levels that the functions of the bus set in a call. -/
def pciLevels (serve : Handler φ) (b : Bus φ) : PciCall φ → List (Word × Bool)
  | .access op => (PciBus.access serve b op).elim [] Result.levels
  | .function id _ levels => levels.map fun level => (id, level)

/-- What the interrupt controllers get: the accesses of the guest to their ports, and the levels of
the lines of all devices. -/
def picShare (m : Setup φ) (x : Xbox φ) (op : Op φ) : List PicCall :=
  ((atPort m .i8259 op).map fun a => .access (picAccess a.1 a.2.1)) ++
  (i8254Share m op).flatMap (i8254Calls x.i8254) ++
  ((ataShare m op).flatMap fun p => ataCalls x.ata (Ata.Ports.io x.ata p).1) ++
  ((List.finRange 2).flatMap fun i => (serialShare m i op).flatMap fun c =>
    serialCalls (x.superio.serialPorts i).irq.toNat (x.serialPorts i)
      (c.op.apply c.host (x.serialPorts i))) ++
  ((pciShare m op).flatMap fun c => pciCalls x.pciBus.config (pciLevels m.serve x.pciBus c))

def cpuCalls : Op φ → List Cpu.Interrupts.Input
  | .cpu call => [call.input]
  | _ => []

/-- What the CPU gets: the calls of its thread, and the vectors of the interrupt controllers. -/
def cpuShare (m : Setup φ) (x : Xbox φ) (op : Op φ) : List Cpu.Interrupts.Input :=
  cpuCalls op ++ (exec (picStep m.depth) x.i8259 (picShare m x op)).elim [] fun i8259 =>
    (interrupts x.i8259 i8259).map .interrupt

/-- The answers at the ports of a device. -/
def answersAt (m : Setup φ) (d : Device) (x : Xbox φ) (op : Op φ) : List Answer :=
  (atPort m d op).flatMap fun _ => ((act m x op).map Effect.answer).toList

/-! ## Ports -/

section Ports

variable {m : Setup φ} {d d' : Device} {port : Word}

theorem maps_iff : m.Maps d port ↔
    Common.IOMapper.lookupDevice (ioMapper m.superIOEnabled).mappedIODevices port.toNat = some d :=
  (lookup_iff m.superIOEnabled port.toNat d).symm

/-- No port belongs to two devices. -/
theorem maps_unique (h : m.Maps d port) (h' : m.Maps d' port) : d = d' :=
  Option.some.inj ((maps_iff.mp h).symm.trans (maps_iff.mp h'))

theorem atPort_io {t : Transfer} {host : Uart.Device.Host} (h : m.Maps d port) (d' : Device) :
    atPort m d' (.io port t host) = if d' = d then [(port, t, host)] else [] := by
  rw [atPort]
  by_cases hd : d' = d
  · rw [if_pos hd, if_pos (hd ▸ h)]
  · rw [if_neg hd, if_neg fun h' => hd (maps_unique h' h)]

theorem atPort_none {t : Transfer} {host : Uart.Device.Host}
    (h : ∀ r ∈ wanted m.superIOEnabled, ¬ r.Has port.toNat) (d : Device) :
    atPort m d (.io port t host) = [] := by
  rw [atPort, if_neg]
  rintro ⟨r, hr, -, hhas⟩
  exact h r hr hhas

end Ports

/-! ## Operations, case by case -/

section Acts

variable {m : Setup φ} {x x' : Xbox φ} {op : Op φ} {e : Effect φ}

/-- What an operation can be, and what it does. -/
inductive Acts (m : Setup φ) (x : Xbox φ) : Op φ → Effect φ → Prop
  | i8259 {port t host} (hmaps : m.Maps .i8259 port) :
    Acts m x (.io port t host) ⟨picAnswer m.depth x.i8259 port t, x, [.access (picAccess port t)]⟩
  | i8254Write {port t host i8254} (hmaps : m.Maps .i8254 port) (hwrite : t.write = true)
      (hstep : i8254Write x.i8254 t.value = some i8254) :
    Acts m x (.io port t host) ⟨⟨t.value, true⟩, { x with i8254 := i8254 }, []⟩
  | i8254Read {port t host} (hmaps : m.Maps .i8254 port) (hread : t.write = false) :
    Acts m x (.io port t host) ⟨⟨0, true⟩, x, []⟩
  | cmos {port t host} (hmaps : m.Maps .cmos port) :
    Acts m x (.io port t host) ⟨⟨if t.write then t.value else 0, false⟩, x, []⟩
  | ata {port t host ata} (hmaps : m.Maps .ata port)
      (hstep : ataStep m.debug x.ata (ataAccess port t) = some ata) :
    Acts m x (.io port t host)
      ⟨ataAnswer x.ata (ataAccess port t), { x with ata := ata }, ataCalls x.ata ata⟩
  | superio {port t host superio} (hmaps : m.Maps .superio port)
      (hstep : superIOStep m.debug x.superio (port, t) = some superio) :
    Acts m x (.io port t host)
      ⟨superIOAnswer x.superio (port, t), { x with superio := superio }, []⟩
  | serialPort {port t host i serial} (hmaps : m.Maps (.serial i) port)
      (hstep : serialStep (x.serialPorts i) (serialAccess port t host) = some serial) :
    Acts m x (.io port t host)
      ⟨(serialAnswer (x.serialPorts i) (serialAccess port t host)).getD ⟨t.value, false⟩,
        { x with serialPorts := Function.update x.serialPorts i serial },
        serialCalls (x.superio.serialPorts i).irq.toNat (x.serialPorts i) serial⟩
  | pciPort {port t host r answer}
      (hmaps : m.Maps .pciBus port ∨ ∀ r ∈ wanted m.superIOEnabled, ¬ r.Has port.toNat)
      (hr : x.pciBus.io m.serve port t = some r) :
    Acts m x (.io port t host) ⟨answer, { x with pciBus := r.bus }, pciCalls x.pciBus.config r.levels⟩
  | unaligned {addr t} (haligned : addr &&& BitVec.ofNat 32 (t.size - 1) ≠ 0) :
    Acts m x (.mmio addr t) ⟨⟨t.value, false⟩, x, []⟩
  | mmio {addr t r answer} (haligned : addr &&& BitVec.ofNat 32 (t.size - 1) = 0)
      (hr : x.pciBus.mmio m.serve addr t = some r) :
    Acts m x (.mmio addr t) ⟨answer, { x with pciBus := r.bus }, pciCalls x.pciBus.config r.levels⟩
  | serial {i event host serial}
      (hstep : serialStep (x.serialPorts i) ⟨SerialEvent.op event, host⟩ = some serial) :
    Acts m x (.serial i event host)
      ⟨⟨0, false⟩, { x with serialPorts := Function.update x.serialPorts i serial },
        serialCalls (x.superio.serialPorts i).irq.toNat (x.serialPorts i) serial⟩
  | timer {i8254} (hstep : i8254Turn x.i8254 = some i8254) :
    Acts m x .timer ⟨⟨0, false⟩, { x with i8254 := i8254 }, [handleIRQ 0 x.i8254.level]⟩
  | function (id next levels) :
    Acts m x (.function id next levels) ⟨⟨0, false⟩,
      { x with pciBus := { x.pciBus with function := Function.update x.pciBus.function id next } },
      pciCalls x.pciBus.config (levels.map fun level => (id, level))⟩
  | cpu {call cpu} (hstep : Cpu.Interrupts.step m.build x.cpu call.input = some cpu) :
    Acts m x (.cpu call) ⟨⟨0, false⟩, { x with cpu := cpu }, []⟩

theorem deviceAccess_acts {port : Word} {t : Transfer} {host : Uart.Device.Host} {d : Device}
    (hmaps : m.Maps d port) (h : deviceAccess m x port t host d = some e) :
    Acts m x (.io port t host) e := by
  cases d with
  | i8259 =>
    cases h
    exact .i8259 hmaps
  | i8254 =>
    rw [deviceAccess] at h
    split at h
    · next hwrite =>
      obtain ⟨i8254, hstep, rfl⟩ := Option.map_eq_some_iff.mp h
      exact .i8254Write hmaps hwrite hstep
    · next hread =>
      cases h
      exact .i8254Read hmaps (Bool.eq_false_iff.mpr hread)
  | cmos =>
    cases h
    exact .cmos hmaps
  | ata =>
    obtain ⟨ata, hstep, rfl⟩ := Option.map_eq_some_iff.mp h
    exact .ata hmaps hstep
  | pciBus =>
    obtain ⟨r, hr, rfl⟩ := Option.map_eq_some_iff.mp h
    exact .pciPort (.inl hmaps) hr
  | superio =>
    obtain ⟨superio, hstep, rfl⟩ := Option.map_eq_some_iff.mp h
    exact .superio hmaps hstep
  | serial i =>
    cases h
    exact .serialPort hmaps rfl

theorem act_acts (h : act m x op = some e) : Acts m x op e := by
  cases op with
  | io port t host =>
    rw [act, ioMapperAccess] at h
    split at h
    · next d hd => exact deviceAccess_acts (maps_iff.mpr hd) h
    · next hnone =>
      obtain ⟨e', he, rfl⟩ := Option.map_eq_some_iff.mp h
      obtain ⟨r, hr, rfl⟩ := Option.map_eq_some_iff.mp he
      exact .pciPort (.inr ((lookup_none_iff m.superIOEnabled port.toNat).mp hnone)) hr
  | mmio addr t =>
    rw [act, mmioMapperAccess] at h
    split at h
    · next haligned =>
      cases h
      exact .unaligned haligned
    · next haligned =>
      obtain ⟨r, hr, rfl⟩ := Option.map_eq_some_iff.mp h
      exact .mmio (not_not.mp haligned) hr
  | serial i event host =>
    cases h
    exact .serial rfl
  | timer =>
    obtain ⟨i8254, hstep, rfl⟩ := Option.map_eq_some_iff.mp h
    exact .timer hstep
  | function id next levels =>
    cases h
    exact .function id next levels
  | cpu call =>
    obtain ⟨cpu, hstep, rfl⟩ := Option.map_eq_some_iff.mp h
    exact .cpu hstep

theorem step_spec (h : step m x op = some x') : ∃ e, act m x op = some e ∧
    exec (picStep m.depth) e.xbox.i8259 e.calls = some x'.i8259 ∧
    exec (Cpu.Interrupts.step m.build) e.xbox.cpu
      ((interrupts x.i8259 x'.i8259).map .interrupt) = some x'.cpu ∧
    x' = { e.xbox with i8259 := x'.i8259, cpu := x'.cpu } := by
  obtain ⟨e, he, h⟩ := Option.bind_eq_some_iff.mp h
  obtain ⟨i8259, hpic, h⟩ := Option.bind_eq_some_iff.mp h
  obtain ⟨cpu, hcpu, rfl⟩ := Option.map_eq_some_iff.mp h
  exact ⟨e, he, hpic, hcpu, rfl⟩

/-! ## Each device gets its share -/

/-- A port of the bus, or of none, is that of no other device. -/
theorem atPort_pci {port : Word} {t : Transfer} {host : Uart.Device.Host}
    (h : m.Maps .pciBus port ∨ ∀ r ∈ wanted m.superIOEnabled, ¬ r.Has port.toNat) {d : Device}
    (hd : d ≠ .pciBus) : atPort m d (.io port t host) = [] := by
  rcases h with h | h
  · rw [atPort_io h, if_neg hd]
  · exact atPort_none h d

/-- A port of another device is not one of the bus. -/
theorem pciShare_io {port : Word} {t : Transfer} {host : Uart.Device.Host} {d : Device}
    (h : m.Maps d port) (hd : d ≠ .pciBus) : pciShare m (.io port t host) = [] := by
  rw [pciShare, if_neg]
  rintro (hpci | hnone)
  · exact hd (maps_unique h hpci)
  · obtain ⟨r, hr, -, hhas⟩ := h
    exact hnone r hr hhas

theorem ata_share (h : Acts m x op e) :
    exec (ataStep m.debug) x.ata (ataShare m op) = some e.xbox.ata := by
  cases h with
  | ata hmaps hstep => simp [ataShare, atPort_io hmaps, exec_cons, hstep]
  | i8259 hmaps | i8254Write hmaps | i8254Read hmaps | cmos hmaps | superio hmaps | serialPort hmaps =>
    simp [ataShare, atPort_io hmaps]
  | pciPort hmaps => simp [ataShare, atPort_pci hmaps]
  | unaligned | mmio | serial | timer | function | cpu => rfl

theorem superIO_share (h : Acts m x op e) :
    exec (superIOStep m.debug) x.superio (superIOShare m op) = some e.xbox.superio := by
  cases h with
  | superio hmaps hstep => simp [superIOShare, atPort_io hmaps, exec_cons, hstep]
  | i8259 hmaps | i8254Write hmaps | i8254Read hmaps | cmos hmaps | ata hmaps | serialPort hmaps =>
    simp [superIOShare, atPort_io hmaps]
  | pciPort hmaps => simp [superIOShare, atPort_pci hmaps]
  | unaligned | mmio | serial | timer | function | cpu => rfl

theorem i8254_share (h : Acts m x op e) :
    exec i8254Step x.i8254 (i8254Share m op) = some e.xbox.i8254 := by
  cases h with
  | i8254Write hmaps hwrite hstep =>
    simp [i8254Share, atPort_io hmaps, hwrite, exec_cons, i8254Step, hstep]
  | i8254Read hmaps hread => simp [i8254Share, atPort_io hmaps, hread]
  | timer hstep => simp [i8254Share, exec_cons, i8254Step, hstep]
  | i8259 hmaps | ata hmaps | cmos hmaps | superio hmaps | serialPort hmaps =>
    simp [i8254Share, atPort_io hmaps]
  | pciPort hmaps => simp [i8254Share, atPort_pci hmaps]
  | unaligned | mmio | serial | function | cpu => rfl

theorem serial_share (h : Acts m x op e) (i : Fin 2) :
    exec serialStep (x.serialPorts i) (serialShare m i op) = some (e.xbox.serialPorts i) := by
  cases h with
  | @serialPort port t host j serial hmaps hstep =>
    by_cases hij : i = j
    · subst hij
      simp [serialShare, atPort_io hmaps, exec_cons, hstep]
    · simp [serialShare, atPort_io hmaps, hij]
  | @serial j event host serial hstep =>
    by_cases hij : j = i
    · subst hij
      simp [serialShare, exec_cons, hstep]
    · simp [serialShare, hij, Function.update_of_ne (Ne.symm hij)]
  | i8259 hmaps | i8254Write hmaps | i8254Read hmaps | cmos hmaps | ata hmaps | superio hmaps =>
    simp [serialShare, atPort_io hmaps]
  | pciPort hmaps => simp [serialShare, atPort_pci hmaps]
  | unaligned | mmio | timer | function | cpu => rfl

theorem pci_share (h : Acts m x op e) :
    exec (pciStep m.serve) x.pciBus (pciShare m op) = some e.xbox.pciBus := by
  cases h with
  | pciPort hmaps hr =>
    rw [pciShare, if_pos hmaps]
    simp [exec_cons, pciStep, PciBus.step, PciBus.access, hr]
  | mmio haligned hr =>
    rw [pciShare, if_pos haligned]
    simp [exec_cons, pciStep, PciBus.step, PciBus.access, hr]
  | unaligned haligned => rw [pciShare, if_neg haligned, exec_nil]
  | i8259 hmaps | i8254Write hmaps | i8254Read hmaps | cmos hmaps | ata hmaps | superio hmaps
  | serialPort hmaps =>
    rw [pciShare_io hmaps (by simp), exec_nil]
  | function | serial | timer | cpu => rfl

theorem i8259_kept (h : Acts m x op e) : e.xbox.i8259 = x.i8259 := by
  cases h <;> rfl

theorem cpu_share (h : Acts m x op e) :
    exec (Cpu.Interrupts.step m.build) x.cpu (cpuCalls op) = some e.xbox.cpu := by
  cases h with
  | cpu hstep => simp [cpuCalls, exec_cons, hstep]
  | _ => rfl

theorem ataStep_eq {debug : Bool} {a a' : Ata.Ports.ATA} {p : Ata.Ports.PortAccess}
    (h : ataStep debug a p = some a') : (Ata.Ports.io a p).1 = a' := by
  unfold ataStep at h
  dsimp only at h
  split at h
  · cases h
  · exact Option.some.inj h

/-- What the devices call the interrupt controllers with. -/
theorem calls_share (h : Acts m x op e) : picShare m x op = e.calls := by
  cases h with
  | ata hmaps hstep =>
    simp [picShare, atPort_io hmaps, pciShare_io hmaps, i8254Share, ataShare, serialShare,
      ataStep_eq hstep]
  | @serialPort port t host j serial hmaps hstep =>
    obtain rfl := Option.some.inj hstep
    obtain rfl | rfl : j = 0 ∨ j = 1 := by omega
    all_goals
      simp [picShare, atPort_io hmaps, pciShare_io hmaps, i8254Share, ataShare, serialShare,
        List.finRange_succ]
  | @serial j event host serial hstep =>
    obtain rfl := Option.some.inj hstep
    obtain rfl | rfl : j = 0 ∨ j = 1 := by omega
    all_goals
      simp [picShare, atPort, pciShare, i8254Share, ataShare, serialShare, List.finRange_succ]
  | i8254Write hmaps hwrite hstep =>
    simp [picShare, atPort_io hmaps, pciShare_io hmaps, i8254Share, ataShare, serialShare, hwrite,
      i8254Calls]
  | i8254Read hmaps hread =>
    simp [picShare, atPort_io hmaps, pciShare_io hmaps, i8254Share, ataShare, serialShare, hread]
  | i8259 hmaps | cmos hmaps | superio hmaps =>
    simp [picShare, atPort_io hmaps, pciShare_io hmaps, i8254Share, ataShare, serialShare]
  | pciPort hmaps hr =>
    rw [picShare, pciShare, if_pos hmaps]
    simp [atPort_pci hmaps, i8254Share, ataShare, serialShare, pciLevels, PciBus.access, hr]
  | mmio haligned hr =>
    rw [picShare, pciShare, if_pos haligned]
    simp [atPort, i8254Share, ataShare, serialShare, pciLevels, PciBus.access, hr]
  | unaligned haligned =>
    rw [picShare, pciShare, if_neg haligned]
    rfl
  | timer hstep => simp [picShare, atPort, pciShare, i8254Share, ataShare, serialShare, i8254Calls]
  | function => simp [picShare, atPort, pciShare, i8254Share, ataShare, serialShare, pciLevels]
  | cpu hstep => rfl

/-- The answers of the ATA channels in the machine are those that they give alone. -/
theorem ata_answers (h : act m x op = some e) : answersAt m .ata x op =
    outputs (ataStep m.debug) (fun a p => [ataAnswer a p]) x.ata (ataShare m op) := by
  rw [answersAt, h]
  cases act_acts h with
  | ata hmaps hstep => simp [ataShare, atPort_io hmaps, outputs_singleton]
  | i8259 hmaps | i8254Write hmaps | i8254Read hmaps | cmos hmaps | superio hmaps | serialPort hmaps =>
    simp [ataShare, atPort_io hmaps, outputs]
  | pciPort hmaps => simp [ataShare, atPort_pci hmaps, outputs]
  | unaligned | mmio | serial | timer | function | cpu => rfl

theorem superIO_answers (h : act m x op = some e) : answersAt m .superio x op =
    outputs (superIOStep m.debug) (fun s a => [superIOAnswer s a]) x.superio (superIOShare m op) := by
  rw [answersAt, h]
  cases act_acts h with
  | superio hmaps hstep => simp [superIOShare, atPort_io hmaps, outputs_singleton]
  | i8259 hmaps | i8254Write hmaps | i8254Read hmaps | cmos hmaps | ata hmaps | serialPort hmaps =>
    simp [superIOShare, atPort_io hmaps, outputs]
  | pciPort hmaps => simp [superIOShare, atPort_pci hmaps, outputs]
  | unaligned | mmio | serial | timer | function | cpu => rfl

theorem serial_answers (h : act m x op = some e) (i : Fin 2) : answersAt m (.serial i) x op =
    outputs serialStep (fun s c => (serialAnswer s c).toList) (x.serialPorts i)
      (serialShare m i op) := by
  rw [answersAt, h]
  cases act_acts h with
  | @serialPort port t host j serial hmaps hstep =>
    by_cases hij : i = j
    · subst hij
      cases hw : t.write <;>
        simp [serialShare, atPort_io hmaps, outputs_singleton, serialAccess, serialAnswer, hw]
    · simp [serialShare, atPort_io hmaps, hij, outputs]
  | @serial j event host serial hstep =>
    by_cases hij : j = i
    · subst hij
      cases event <;> simp [serialShare, atPort, outputs_singleton, serialAnswer, SerialEvent.op]
    · simp [serialShare, atPort, hij, outputs]
  | i8259 hmaps | i8254Write hmaps | i8254Read hmaps | cmos hmaps | ata hmaps | superio hmaps =>
    simp [serialShare, atPort_io hmaps, outputs]
  | pciPort hmaps => simp [serialShare, atPort_pci hmaps, outputs]
  | unaligned | mmio | timer | function | cpu => rfl

end Acts

/-! ## The vectors -/

section Vectors

open Pic.Device Pic.Cascade Pic.Operations

variable {depth : Nat} {s t u : State}

/-- The events of the interrupt controllers are added to. -/
theorem updateIRQ_events {chip : Chip} (h : updateIRQ depth s chip = some t) :
    s.events <+: t.events := by
  have hset (v : State) (chip : Chip) (c : Controller) (hv : s.events <+: v.events) :
      s.events <+: (v.set chip c).events := by rwa [set_events]
  have hlog (v : State) (e : Event) (hv : s.events <+: v.events) : s.events <+: (v.log e).events :=
    hv.trans (List.prefix_append _ _)
  have hack (v : State) (chip : Chip) (irq : Line) (hv : s.events <+: v.events) :
      s.events <+: (acknowledged v chip irq).events := hlog _ _ (hset v chip _ hv)
  have hlink (v : State) (hv : s.events <+: v.events) : s.events <+: (cascaded v).events :=
    hset _ .master _ (hset v .slave _ hv)
  exact updateIRQ_invariant (fun v chip hv => hset v chip _ hv) hlog hack hlink h (List.prefix_refl _)

theorem picStep_events {call : PicCall} (h : picStep depth s call = some t) : s.events <+: t.events := by
  cases call with
  | noLine irqNum =>
    rw [picStep] at h
    split at h
    · exact updateIRQ_events h
    · cases h
  | access op =>
    obtain ⟨r, hr, rfl⟩ := Option.map_eq_some_iff.mp h
    have hperforms := access_performs (s := s) op
    generalize access s op = a at hr hperforms
    cases hperforms with
    | settings result chip hop hlines hmask =>
      obtain rfl := Option.some.inj hr
      dsimp only
      rw [set_events]
    | update chip after hcause hafter =>
      obtain ⟨v, hv, rfl⟩ := Option.map_eq_some_iff.mp hr
      rw [(hafter v).events]
      refine List.IsPrefix.trans ?_ (updateIRQ_events hv)
      rw [recorded, set_events]
      exact List.prefix_append _ _

theorem pic_events {calls : List PicCall} (h : exec (picStep depth) s calls = some t) :
    s.events <+: t.events :=
  exec_invariant (I := fun v => s.events <+: v.events)
    (fun _ _ _ hv hstep => hv.trans (picStep_events hstep)) (List.prefix_refl _) h

theorem interrupts_trans (h : s.events <+: t.events) (h' : t.events <+: u.events) :
    interrupts s u = interrupts s t ++ interrupts t u := by
  obtain ⟨es, hes⟩ := h
  obtain ⟨fs, hfs⟩ := h'
  have hdrop : u.events = s.events ++ (es ++ fs) := by rw [← hfs, ← hes, List.append_assoc]
  rw [interrupts, interrupts, interrupts, ← List.map_append, ← Pic.DeliveryOrder.passed_append]
  simp only [Pic.DeliveryOrder.logged, hdrop, ← hes, List.drop_left]
  rw [← List.append_assoc, List.drop_left]

end Vectors

/-- The vectors of the CPU that have been injected or wait. -/
def taken (cpu : Cpu.Interrupts.Pending) : List Cpu.Interrupts.Vector :=
  cpu.injected ++ cpu.pendingInterrupts

theorem taken_exec {build : Cpu.Interrupts.Build} {cpu cpu' : Cpu.Interrupts.Pending}
    {is : List Cpu.Interrupts.Input} (h : exec (Cpu.Interrupts.step build) cpu is = some cpu') :
    taken cpu' = taken cpu ++ is.flatMap Cpu.Interrupts.Input.enqueued :=
  exec_append_flatMap (fun _ _ _ hstep => Cpu.Interrupts.step_queue hstep) h

/-! ## Runs -/

/-- What holds after a run. -/
structure Composed (m : Setup φ) (start : Xbox φ) (ops : List (Op φ)) (x : Xbox φ) : Prop where
  /-- Each device does what it does alone with what is for it. -/
  i8254 : exec i8254Step start.i8254 (ops.flatMap (i8254Share m)) = some x.i8254
  ata : exec (ataStep m.debug) start.ata (ops.flatMap (ataShare m)) = some x.ata
  superio : exec (superIOStep m.debug) start.superio (ops.flatMap (superIOShare m)) = some x.superio
  serialPorts : ∀ i,
    exec serialStep (start.serialPorts i) (ops.flatMap (serialShare m i)) = some (x.serialPorts i)
  pciBus : exec (pciStep m.serve) start.pciBus (ops.flatMap (pciShare m)) = some x.pciBus
  /-- The guest gets the answers that they give alone. -/
  ataAnswers : outputs (step m) (answersAt m .ata) start ops =
    outputs (ataStep m.debug) (fun a p => [ataAnswer a p]) start.ata (ops.flatMap (ataShare m))
  superIOAnswers : outputs (step m) (answersAt m .superio) start ops =
    outputs (superIOStep m.debug) (fun s a => [superIOAnswer s a]) start.superio
      (ops.flatMap (superIOShare m))
  serialAnswers : ∀ i, outputs (step m) (answersAt m (.serial i)) start ops =
    outputs serialStep (fun s c => (serialAnswer s c).toList) (start.serialPorts i)
      (ops.flatMap (serialShare m i))
  /-- The interrupt controllers get the accesses to them and the levels of the lines. -/
  i8259 : exec (picStep m.depth) start.i8259 (outputs (step m) (picShare m) start ops) = some x.i8259
  cpu : exec (Cpu.Interrupts.step m.build) start.cpu (outputs (step m) (cpuShare m) start ops) =
    some x.cpu
  /-- The CPU has taken the vectors that they have passed to it, in order. -/
  vectors : taken x.cpu = taken start.cpu ++ interrupts start.i8259 x.i8259

section Runs

variable {m : Setup φ} {start x x' : Xbox φ} {op : Op φ} {ops : List (Op φ)}

theorem step_pic (h : step m x op = some x') :
    exec (picStep m.depth) x.i8259 (picShare m x op) = some x'.i8259 := by
  obtain ⟨e, he, hpic, -, -⟩ := step_spec h
  rw [calls_share (act_acts he), ← i8259_kept (act_acts he)]
  exact hpic

theorem step_cpu (h : step m x op = some x') :
    exec (Cpu.Interrupts.step m.build) x.cpu (cpuShare m x op) = some x'.cpu := by
  obtain ⟨e, he, -, hcpu, -⟩ := step_spec h
  rw [cpuShare, step_pic h, Option.elim_some]
  exact exec_append_some (cpu_share (act_acts he)) hcpu

/-- A step passes on what the interrupt controllers pass to the CPU. -/
theorem step_vectors (h : step m x op = some x') :
    taken x'.cpu = taken x.cpu ++ interrupts x.i8259 x'.i8259 := by
  have htaken := taken_exec (step_cpu h)
  rw [cpuShare, step_pic h, Option.elim_some, List.flatMap_append] at htaken
  have hcall : (cpuCalls op).flatMap Cpu.Interrupts.Input.enqueued = [] := by
    cases op with
    | cpu call => cases call <;> rfl
    | _ => rfl
  have hvectors (vs : List Cpu.Interrupts.Vector) :
      (vs.map Cpu.Interrupts.Input.interrupt).flatMap Cpu.Interrupts.Input.enqueued = vs := by
    induction vs with
    | nil => rfl
    | cons v vs ih => simp [Cpu.Interrupts.Input.enqueued, ih]
  rw [hcall, hvectors, List.nil_append] at htaken
  exact htaken

theorem step_act (h : step m x op = some x') :
    ∃ e, act m x op = some e ∧ x' = { e.xbox with i8259 := x'.i8259, cpu := x'.cpu } := by
  obtain ⟨e, he, -, -, hx'⟩ := step_spec h
  exact ⟨e, he, hx'⟩

/-- The machine is its devices: each one does in it what it does alone, and the CPU takes what the
interrupt controllers pass to it. -/
theorem machine_composed (hrun : exec (step m) start ops = some x) : Composed m start ops x := by
  have hata (s : Xbox φ) (op : Op φ) (s' : Xbox φ) (h : step m s op = some s') :
      exec (ataStep m.debug) s.ata (ataShare m op) = some s'.ata := by
    obtain ⟨e, he, hs'⟩ := step_act h
    rw [hs']
    exact ata_share (act_acts he)
  have hsuper (s : Xbox φ) (op : Op φ) (s' : Xbox φ) (h : step m s op = some s') :
      exec (superIOStep m.debug) s.superio (superIOShare m op) = some s'.superio := by
    obtain ⟨e, he, hs'⟩ := step_act h
    rw [hs']
    exact superIO_share (act_acts he)
  have hserial (i : Fin 2) (s : Xbox φ) (op : Op φ) (s' : Xbox φ) (h : step m s op = some s') :
      exec serialStep (s.serialPorts i) (serialShare m i op) = some (s'.serialPorts i) := by
    obtain ⟨e, he, hs'⟩ := step_act h
    rw [hs']
    exact serial_share (act_acts he) i
  have htimer (s : Xbox φ) (op : Op φ) (s' : Xbox φ) (h : step m s op = some s') :
      exec i8254Step s.i8254 (i8254Share m op) = some s'.i8254 := by
    obtain ⟨e, he, hs'⟩ := step_act h
    rw [hs']
    exact i8254_share (act_acts he)
  have hpci (s : Xbox φ) (op : Op φ) (s' : Xbox φ) (h : step m s op = some s') :
      exec (pciStep m.serve) s.pciBus (pciShare m op) = some s'.pciBus := by
    obtain ⟨e, he, hs'⟩ := step_act h
    rw [hs']
    exact pci_share (act_acts he)
  have hvectors : start.i8259.events <+: x.i8259.events ∧
      taken x.cpu = taken start.cpu ++ interrupts start.i8259 x.i8259 := by
    refine exec_invariant (I := fun s => start.i8259.events <+: s.i8259.events ∧
      taken s.cpu = taken start.cpu ++ interrupts start.i8259 s.i8259) ?_ ?_ hrun
    · rintro s op s' ⟨hevents, htaken⟩ h
      have hnext := pic_events (step_pic h)
      refine ⟨hevents.trans hnext, ?_⟩
      rw [step_vectors h, htaken, interrupts_trans hevents hnext, List.append_assoc]
    · refine ⟨List.prefix_refl _, ?_⟩
      simp [interrupts, Pic.DeliveryOrder.logged, Pic.DeliveryOrder.passed]
  exact {
    i8254 := exec_share htimer hrun
    ata := exec_share hata hrun
    superio := exec_share hsuper hrun
    serialPorts := fun i => exec_share (hserial i) hrun
    pciBus := exec_share hpci hrun
    ataAnswers := outputs_share hata (fun _ _ _ h => ata_answers (step_act h).choose_spec.1) hrun
    superIOAnswers := outputs_share hsuper
      (fun _ _ _ h => superIO_answers (step_act h).choose_spec.1) hrun
    serialAnswers := fun i => outputs_share (hserial i)
      (fun _ _ _ h => serial_answers (step_act h).choose_spec.1 i) hrun
    i8259 := exec_part (I := fun _ => True) (fun _ _ _ _ _ => trivial)
      (fun _ _ _ _ h => step_pic h) trivial hrun
    cpu := exec_part (I := fun _ => True) (fun _ _ _ _ _ => trivial)
      (fun _ _ _ _ h => step_cpu h) trivial hrun
    vectors := hvectors.2 }

end Runs

def setup : Setup Nat := ⟨true, .release, Pic.Termination.callDepth, counted⟩

def host : Uart.Device.Host := ⟨0, true⟩

/-- The machine with a USB controller. -/
def started : Xbox Nat :=
  .initial setup (fun _ _ => Ata.Device.nullATADeviceDriver) usbOnly host (fun _ => 0) fun _ => 0

/-- A write of a byte to a port. -/
def outb (port value : Word) : Op Nat := .io port ⟨true, value, 1, .inl rfl⟩ host

/-- The guest sets the interrupt controllers and the timer up, and the timer interrupts the CPU. -/
def timerInterrupt : List (Op Nat) :=
  [outb 0x20 0x11, outb 0x21 0x30, outb 0x21 0x04, outb 0x21 0x01, outb 0x43 0x34, .timer, .cpu .run,
    .cpu (.advance true), .cpu (.advance true), .cpu (.advance true)]

theorem timer_interrupt_composed : ∃ x, exec (step setup) started timerInterrupt = some x ∧
    x.cpu.injected = [0x30] ∧ Composed setup started timerInterrupt x := by
  have hrun : ((exec (step setup) started timerInterrupt).map fun x => x.cpu.injected) =
      some [0x30] := by decide +kernel
  obtain ⟨x, hx, hinjected⟩ := Option.map_eq_some_iff.mp hrun
  exact ⟨x, hx, hinjected, machine_composed hx⟩

end OpenXbox.Machine.System
