import Mathlib.Data.BitVec

/-!
# The pair of i8259 interrupt controllers

The registers of both controllers, the functions that call each other while an
interrupt is delivered, and the accesses from outside. All of them call `UpdateIRQ`
once at most, so each is a change of registers, that call and what it does after it.
`UpdateIRQ` comes back to itself through `GetCurrentIRQ`, `AcknowledgeIRQ` and
`SetIRQ`; it is given a bound on the depth of its calls.
-/

namespace OpenXbox.Pic.Device

abbrev Byte := BitVec 8
abbrev Word := BitVec 32

/-- A line of one controller. -/
abbrev Line := Fin 8

instance lines_neZero : NeZero 8 := ⟨by decide⟩

instance irqNums_neZero : NeZero 16 := ⟨by decide⟩

local instance initStates_neZero : NeZero 4 := ⟨by decide⟩

/-- `PIC_MASTER` and `PIC_SLAVE`. -/
inductive Chip where
  | master
  | slave
deriving DecidableEq

/-- What each of the two has of the registers. `PriorityAdd` is kept below eight, and
`InitState` below four, wherever they are set. -/
structure Controller where
  previousIRR : Byte
  irr : Byte
  imr : Byte
  isr : Byte
  base : Byte
  elcr : Byte
  priorityAdd : Line
  initState : Fin 4
  readRegisterSelect : Bool
  specialMask : Bool
  poll : Bool
  rotateOnAutoEOI : Bool
  is4ByteInit : Bool
  interruptOutput : Bool
  autoEOI : Bool
  isSpecialFullyNestedMode : Bool

/-- What `GetCurrentIRQ` returns, with where it comes from: `number` is the result. -/
structure Vector where
  chip : Chip
  irq : Line
  base : Byte
  /-- There is no request; the line is 7. -/
  spurious : Bool
deriving DecidableEq

def Vector.number (v : Vector) : Nat := v.base.toNat + v.irq

/-- What happens to requests, in order. -/
inductive Event where
  | acknowledge (chip : Chip) (irq : Line)
  /-- `Cpu::Interrupt`. -/
  | interrupt (v : Vector)
  /-- A poll resolves to the line. -/
  | polled (chip : Chip) (irq : Line)
  /-- The in-service bit is cleared by a command. -/
  | ended (chip : Chip) (irq : Line)
  /-- The controller is initialised. -/
  | reset (chip : Chip)
deriving DecidableEq

structure State where
  master : Controller
  slave : Controller
  events : List Event

def State.get (s : State) : Chip → Controller
  | .master => s.master
  | .slave => s.slave

def State.set (s : State) (chip : Chip) (c : Controller) : State :=
  match chip with
  | .master => { s with master := c }
  | .slave => { s with slave := c }

def State.log (s : State) (e : Event) : State := { s with events := s.events ++ [e] }

/-! ## Requests -/

/-- `1 << index`. -/
def bit (n : Line) : Byte := 1 <<< n.val

/-- `(n + add) & 7`. -/
def lineOf (n : Nat) (add : Line) : Line := Fin.ofNat 8 (n + add)

/-- The loop of `GetPriority`; eight turns are enough for a mask that is not zero. -/
def priorityLoop (add : Line) (mask : Byte) : Nat → Nat → Nat
  | 0, priority => priority
  | turns + 1, priority =>
    if mask &&& bit (lineOf priority add) = 0 then priorityLoop add mask turns (priority + 1)
    else priority

def getPriority (add : Line) (mask : Byte) : Nat :=
  if mask = 0 then 8 else priorityLoop add mask 8 0

/-- The requests that are not masked. -/
def Controller.pending (c : Controller) : Byte := c.irr &&& ~~~c.imr

/-- The lines in service that hold others back. -/
def Controller.holding (c : Controller) (chip : Chip) : Byte :=
  let mask := if c.specialMask then c.isr &&& ~~~c.imr else c.isr
  if c.isSpecialFullyNestedMode ∧ chip = .master then mask &&& ~~~bit 2 else mask

def getIRQ (chip : Chip) (c : Controller) : Option Line :=
  let priority := getPriority c.priorityAdd c.pending
  if priority = 8 then none
  else if priority < getPriority c.priorityAdd (c.holding chip) then
    some (lineOf priority c.priorityAdd)
  else none

def State.getIRQ (s : State) (chip : Chip) : Option Line := Device.getIRQ chip (s.get chip)

/-- The registers of `SetIRQ`. -/
def Controller.latch (c : Controller) (index : Line) (asserted : Bool) : Controller :=
  let mask := bit index
  if c.elcr &&& mask ≠ 0 then
    if asserted then { c with irr := c.irr ||| mask, previousIRR := c.previousIRR ||| mask }
    else { c with irr := c.irr &&& ~~~mask, previousIRR := c.previousIRR &&& ~~~mask }
  else if asserted then
    { c with
      irr := if c.previousIRR &&& mask = 0 then c.irr ||| mask else c.irr
      previousIRR := c.previousIRR ||| mask }
  else { c with irr := c.irr &&& ~~~mask, previousIRR := c.previousIRR &&& ~~~mask }

/-- The registers of `AcknowledgeIRQ`. -/
def Controller.acknowledge (c : Controller) (index : Line) : Controller :=
  let c :=
    if c.autoEOI then
      if c.rotateOnAutoEOI then { c with priorityAdd := lineOf (index + 1) 0 } else c
    else { c with isr := c.isr ||| bit index }
  if c.elcr &&& bit index = 0 then { c with irr := c.irr &&& ~~~bit index } else c

/-- A function that calls `UpdateIRQ` once at most: the state it calls it with, and its
result and what it does to the state after that. -/
inductive Access (α : Type) where
  | done (result : α) (s : State)
  | update (s : State) (chip : Chip) (after : State → α × State)

/-- The function, when `UpdateIRQ` is `update`. -/
def Access.run {α : Type} (update : State → Chip → Option State) : Access α → Option (α × State)
  | .done result s => some (result, s)
  | .update s chip after => (update s chip).map after

def Access.andThen {α β : Type} (f : α → State → β × State) : Access α → Access β
  | .done result s => let r := f result s; .done r.1 r.2
  | .update s chip after => .update s chip fun t => f (after t).1 (after t).2

/-! ## Delivery -/

def setIRQ (s : State) (chip : Chip) (index : Line) (asserted : Bool) : Access Unit :=
  .update (s.set chip ((s.get chip).latch index asserted)) chip fun t => ((), t)

def acknowledgeIRQ (s : State) (chip : Chip) (index : Line) : Access Unit :=
  .update ((s.set chip ((s.get chip).acknowledge index)).log (.acknowledge chip index)) chip
    fun t => ((), t)

def getCurrentIRQ (s : State) : Access Vector :=
  match s.getIRQ .master with
  | none => .done ⟨.master, 7, s.master.base, true⟩ s
  | some masterIrq =>
    if masterIrq ≠ 2 then
      (acknowledgeIRQ s .master masterIrq).andThen fun _ t =>
        (⟨.master, masterIrq, t.master.base, false⟩, t)
    else
      match s.getIRQ .slave with
      | none => .done ⟨.slave, 7, s.slave.base, true⟩ s
      | some slaveIrq =>
        (acknowledgeIRQ s .slave slaveIrq).andThen fun _ t =>
          (⟨.slave, slaveIrq, t.slave.base, false⟩, t)

/-- `m_InterruptOutput` is set. -/
def State.output (s : State) (chip : Chip) : State :=
  s.set chip { s.get chip with interruptOutput := (s.getIRQ chip).isSome }

/-- `UpdateIRQ` with a bound on the depth of the calls; `none` when it is reached. -/
def updateIRQ : Nat → State → Chip → Option State
  | 0, _, _ => none
  | depth + 1, s, .slave =>
    ((setIRQ (s.output .slave) .master 2 (s.getIRQ .slave).isSome).run (updateIRQ depth)).map
      fun r => r.2
  | depth + 1, s, .master =>
    if (s.getIRQ .master).isSome then
      ((getCurrentIRQ (s.output .master)).run (updateIRQ depth)).map
        fun r => r.2.log (.interrupt r.1)
    else some (s.output .master)

/-! ## Accesses -/

/-- The registers of a controller that is reset; its trigger modes stay. -/
def Controller.cleared (elcr : Byte) : Controller :=
  { previousIRR := 0, irr := 0, imr := 0, isr := 0, base := 0, elcr := elcr, priorityAdd := 0
    initState := 0, readRegisterSelect := false, specialMask := false, poll := false
    rotateOnAutoEOI := false, is4ByteInit := false, interruptOutput := false, autoEOI := false
    isSpecialFullyNestedMode := false }

/-- `Reset(int pic)`. -/
def resetChip (s : State) (chip : Chip) : Access Unit :=
  .update ((s.set chip (.cleared (s.get chip).elcr)).log (.reset chip)) chip fun t => ((), t)

/-- The result is the line with bit 7, or zero. -/
def poll (s : State) (chip : Chip) : Access Byte :=
  let s := s.set chip { s.get chip with poll := false }
  match s.getIRQ chip with
  | some irq =>
    (acknowledgeIRQ (s.log (.polled chip irq)) chip irq).andThen fun _ t =>
      (BitVec.ofNat 8 irq ||| 0x80, t)
  | none => .done 0 s

/-- The test of the read select is one of the array, not of its element, so the
in-service register is what is read. -/
def commandRead (s : State) (chip : Chip) : Access Byte :=
  if (s.get chip).poll then poll s chip else .done (s.get chip).isr s

def dataRead (s : State) (chip : Chip) : Access Byte :=
  if (s.get chip).poll then poll s chip else .done (s.get chip).imr s

/-- OCW3: poll, register select and special mask. -/
def Controller.ocw3 (c : Controller) (value : Word) : Controller :=
  { c with
    poll := if value &&& 0x04 ≠ 0 then true else c.poll
    readRegisterSelect :=
      if value &&& 0x02 ≠ 0 then value &&& 1 ≠ 0 else c.readRegisterSelect
    specialMask := if value &&& 0x40 ≠ 0 then (value >>> 5) &&& 1 ≠ 0 else c.specialMask }

/-- A line is no longer in service. -/
def State.endService (s : State) (chip : Chip) (irq : Line) : State :=
  (s.set chip { s.get chip with isr := (s.get chip).isr &&& ~~~bit irq }).log (.ended chip irq)

def State.rotate (s : State) (chip : Chip) (add : Line) : State :=
  s.set chip { s.get chip with priorityAdd := add }

/-- OCW2, for a command `value >> 5`. -/
def ocw2 (s : State) (chip : Chip) (value : Word) (command : Nat) : Access Unit :=
  let c := s.get chip
  let irq := lineOf (value &&& 7).toNat 0
  match command with
  | 0 => .done () (s.set chip { c with rotateOnAutoEOI := false })
  | 4 => .done () (s.set chip { c with rotateOnAutoEOI := true })
  | 1 =>
    let priority := getPriority c.priorityAdd c.isr
    if priority = 8 then .done () s
    else .update (s.endService chip (lineOf priority c.priorityAdd)) chip fun t => ((), t)
  | 5 =>
    let priority := getPriority c.priorityAdd c.isr
    if priority = 8 then .done () s
    else
      let irq := lineOf priority c.priorityAdd
      .update ((s.endService chip irq).rotate chip (lineOf (irq + 1) 0)) chip fun t => ((), t)
  | 3 => .update (s.endService chip irq) chip fun t => ((), t)
  | 6 => .update (s.rotate chip (lineOf (value + 1).toNat 0)) chip fun t => ((), t)
  | 7 =>
    .update ((s.endService chip irq).rotate chip (lineOf (irq + 1) 0)) chip fun t => ((), t)
  | _ => .done () s

def commandWrite (s : State) (chip : Chip) (value : Word) : Access Unit :=
  if value &&& 0x10 ≠ 0 then
    (resetChip s chip).andThen fun _ t =>
      ((), t.set chip { t.get chip with initState := 1, is4ByteInit := value &&& 1 ≠ 0 })
  else if value &&& 0x08 ≠ 0 then .done () (s.set chip ((s.get chip).ocw3 value))
  else ocw2 s chip value (value >>> 5).toNat

/-- OCW1, or the next of ICW2 to ICW4. -/
def dataWrite (s : State) (chip : Chip) (value : Word) : Access Unit :=
  let c := s.get chip
  match c.initState with
  | 0 => .update (s.set chip { c with imr := value.setWidth 8 }) chip fun t => ((), t)
  | 1 => .done () (s.set chip { c with base := (value &&& 0xF8).setWidth 8, initState := 2 })
  | 2 => .done () (s.set chip { c with initState := if c.is4ByteInit then 3 else 0 })
  | 3 =>
    .done () (s.set chip
      { c with
        isSpecialFullyNestedMode := (value >>> 4) &&& 1 ≠ 0
        autoEOI := (value >>> 1) &&& 1 ≠ 0
        initState := 0 })

/-- `m_ELCRMask`. -/
def elcrMask : Chip → Word
  | .master => 0xF8
  | .slave => 0xDE

def elcrWrite (s : State) (chip : Chip) (value : Word) : State :=
  s.set chip { s.get chip with elcr := (value &&& elcrMask chip).setWidth 8 }

/-- The value is `none` for an address that is not one of the controllers. -/
def ioRead (s : State) (port : Word) : Access (Option Byte) :=
  if port = 0x20 then (commandRead s .master).andThen fun v t => (some v, t)
  else if port = 0xA0 then (commandRead s .slave).andThen fun v t => (some v, t)
  else if port = 0x21 then (dataRead s .master).andThen fun v t => (some v, t)
  else if port = 0xA1 then (dataRead s .slave).andThen fun v t => (some v, t)
  else if port = 0x4D0 then .done (some s.master.elcr) s
  else if port = 0x4D1 then .done (some s.slave.elcr) s
  else .done none s

def ioWrite (s : State) (port value : Word) : Access Unit :=
  if port = 0x20 then commandWrite s .master value
  else if port = 0xA0 then commandWrite s .slave value
  else if port = 0x21 then dataWrite s .master value
  else if port = 0xA1 then dataWrite s .slave value
  else if port = 0x4D0 then .done () (elcrWrite s .master value)
  else if port = 0x4D1 then .done () (elcrWrite s .slave value)
  else .done () s

/-- `RaiseIRQ` and `LowerIRQ`. -/
def handleIRQ (s : State) (irqNum : Fin 16) (level : Bool) : Access Unit :=
  if irqNum.val ≤ 7 then setIRQ s .master (lineOf irqNum 0) level
  else setIRQ s .slave (lineOf (irqNum - 8) 0) level

inductive Op where
  | handleIRQ (irqNum : Fin 16) (level : Bool)
  | ioRead (port : Word)
  | ioWrite (port value : Word)

/-- An operation; a read has a value. -/
def access (s : State) : Op → Access (Option Byte)
  | .handleIRQ irqNum level => (handleIRQ s irqNum level).andThen fun _ t => (none, t)
  | .ioRead port => ioRead s port
  | .ioWrite port value => (ioWrite s port value).andThen fun _ t => (none, t)

/-- An operation, with a bound on the depth of the calls of `UpdateIRQ`. -/
def perform (depth : Nat) (s : State) (op : Op) : Option State :=
  ((access s op).run (updateIRQ depth)).map fun r => r.2

/-- `Reset()`; the trigger modes are cleared after both controllers. -/
def reset (depth : Nat) (s : State) : Option State :=
  ((resetChip s .master).run (updateIRQ depth)).bind fun r =>
    ((resetChip r.2 .slave).run (updateIRQ depth)).map fun r =>
      (r.2.set .master { r.2.master with elcr := 0 }).set .slave { r.2.slave with elcr := 0 }

/-- The controllers after `Reset()`. -/
def State.initial : State := ⟨.cleared 0, .cleared 0, []⟩

end OpenXbox.Pic.Device
