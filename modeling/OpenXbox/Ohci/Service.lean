import OpenXbox.Lib.Loop
import OpenXbox.Ohci.Memory

/-!
# Service of endpoint lists

`OHCI_ServiceEDlist` with the two functions that service one transfer descriptor.
What the device answers to a packet, and what is on the stack where a descriptor is
read to or written from, comes in a sequence of answers, one for each call.
-/

namespace OpenXbox.Ohci.Service

open OpenXbox.Lib.Loop OpenXbox.Lib.Bits OpenXbox.Ohci.Memory

/-- `OHCI_BM`: a field of a word. -/
def bm {w : Nat} (val mask : BitVec w) (shift : Nat) : BitVec w := (val &&& mask) >>> shift

/-- `OHCI_SET_BM`. -/
def setBm {w : Nat} (val mask : BitVec w) (shift : Nat) (newval : BitVec w) : BitVec w :=
  (val &&& ~~~mask) ||| ((newval <<< shift) &&& mask)

def OHCI_DPTR_MASK : Word := 0xFFFFFFF0
def OHCI_PAGE_MASK : Word := 0xFFFFF000
def OHCI_OFFSET_MASK : Word := 0xFFF

def OHCI_ED_D_MASK : Word := 0x1800
def OHCI_ED_K : Word := 0x4000
def OHCI_ED_F : Word := 0x8000
def OHCI_ED_MPS_MASK : Word := 0x7FF0000
def OHCI_ED_H : Word := 1
def OHCI_ED_C : Word := 2

def OHCI_TD_R : Word := 0x40000
def OHCI_TD_DP_MASK : Word := 0x180000
def OHCI_TD_DI_MASK : Word := 0xE00000
def OHCI_TD_T0 : Word := 0x1000000
def OHCI_TD_T1 : Word := 0x2000000
def OHCI_TD_EC_MASK : Word := 0xC000000
def OHCI_TD_CC_MASK : Word := 0xF0000000
def OHCI_TD_SF_MASK : Word := 0xFFFF
def OHCI_TD_FC_MASK : Word := 0x7000000
def OHCI_TD_PSW_CC_MASK : BitVec 16 := 0xF000
def OHCI_TD_PSW_SIZE_MASK : BitVec 16 := 0xFFF

def OHCI_TD_DIR_OUT : Word := 1
def OHCI_TD_DIR_IN : Word := 2
def OHCI_TD_DIR_RESERVED : Word := 3

def OHCI_CC_NOERROR : Word := 0
def OHCI_CC_STALL : Word := 4
def OHCI_CC_DEVICENOTRESPONDING : Word := 5
def OHCI_CC_UNDEXPETEDPID : Word := 7
def OHCI_CC_DATAOVERRUN : Word := 8
def OHCI_CC_DATAUNDERRUN : Word := 9

def USB_RET_SUCCESS : Word := 0
def USB_RET_NODEV : Word := -1
def USB_RET_NAK : Word := -2
def USB_RET_STALL : Word := -3
def USB_RET_BABBLE : Word := -4
def USB_RET_IOERROR : Word := -5
def USB_RET_ASYNC : Word := -6

def XBOX_MEMORY_SIZE : Word := 0x4000000
def CONTIGUOUS_MEMORY_BASE : Word := 0x80000000

/-- What the controller looks at in `m_UsbPacket`; both are an `int`. -/
structure UsbPacket where
  status : Word
  actualLength : Word

/-- The result the controller uses. -/
def UsbPacket.ret (p : UsbPacket) : Word :=
  if p.status = USB_RET_SUCCESS then p.actualLength else p.status

/-- `ret >= 0`. -/
def nonneg (ret : Word) : Bool := !ret.msb

/-- What one call finds: the stack its descriptor is read to, the packet and the buffer
after the device has handled it, and the word behind an endpoint descriptor. -/
structure Answer where
  stack : Nat → Byte
  packet : UsbPacket
  data : Nat → Byte
  behind : Word

/-- A length handed to a copy or to the packet, or an offset read from a descriptor. -/
inductive Event where
  | copyTD (length : Nat)
  | copyIsoTD (length : Nat)
  | addBuffer (length : Nat)
  | readOffset (index : Nat)
deriving DecidableEq

structure Controller where
  mem : GuestMemory
  /-- What the host has at the 32-bit addresses that `OHCI_FindAndCopyTD` goes to. The RAM of
  the guest is allocated where the host likes, and is not there. -/
  host : Word → Byte
  usbBuffer : Nat → Byte
  hcDoneHead : Word
  hcFmNumber : Word
  doneCount : Nat
  asyncTD : Word
  asyncComplete : Bool
  packet : UsbPacket
  /-- `OHCI_FatalError` has been called. -/
  unrecoverable : Bool
  events : List Event
  /-- The answers used up. -/
  calls : Nat

def Controller.fatalError (hc : Controller) : Controller := { hc with unrecoverable := true }

def Controller.log (hc : Controller) (e : Event) : Controller := { hc with events := hc.events ++ [e] }

/-! ## Data copies -/

/-- `OHCI_FindAndCopyTD` at a position of the buffer; the flag is the error. -/
def findAndCopyTD (hc : Controller) (paddr : Word) (pos length : Nat) (isWrite : Bool) : Controller × Bool :=
  if paddr = 0 then (hc, true)
  else
    let base := if paddr < XBOX_MEMORY_SIZE then paddr + CONTIGUOUS_MEMORY_BASE else paddr
    if isWrite then
      ({ hc with host := fun a =>
          let i := (a - base).toNat
          if i < length then hc.usbBuffer (pos + i) else hc.host a }, false)
    else
      ({ hc with usbBuffer := fun j =>
          if pos ≤ j ∧ j < pos + length then hc.host (base + BitVec.ofNat 32 (j - pos))
          else hc.usbBuffer j }, false)

/-- The copy of `OHCI_CopyTD` and `OHCI_CopyIsoTD`, in one page or in two. -/
def copyPages (hc : Controller) (ptr last : Word) (length : Nat) (isWrite : Bool) : Controller × Bool :=
  let n := min (0x1000 - (ptr &&& 0xFFF).toNat) length
  match findAndCopyTD hc ptr 0 n isWrite with
  | (hc, true) => (hc, true)
  | (hc, false) =>
    if n = length then (hc, false)
    else findAndCopyTD hc (last &&& ~~~0xFFF) n (length - n) isWrite

def copyTD (hc : Controller) (td : TransferDescriptor) (length : Nat) (isWrite : Bool) : Controller × Bool :=
  copyPages (hc.log (.copyTD length)) td.currentBufferPointer td.bufferEnd length isWrite

def copyIsoTD (hc : Controller) (startAddr endAddr : Word) (length : Nat) (isWrite : Bool) :
    Controller × Bool :=
  copyPages (hc.log (.copyIsoTD length)) startAddr endAddr length isWrite

/-- A failed copy of a general descriptor only raises the fatal error. -/
def copyOrFatal (r : Controller × Bool) : Controller := if r.2 then r.1.fatalError else r.1

/-- The packet is set up over `length` bytes of the buffer, and the device handles it. -/
def submit (hc : Controller) (a : Answer) (length : Nat) : Controller :=
  { hc.log (.addBuffer length) with packet := a.packet, usbBuffer := a.data }

/-! ## General transfer descriptors -/

def direction (ed : EndpointDescriptor) (td : TransferDescriptor) : Word :=
  let d := bm ed.flags OHCI_ED_D_MASK 11
  if d = OHCI_TD_DIR_OUT ∨ d = OHCI_TD_DIR_IN then d else bm td.flags OHCI_TD_DP_MASK 19

/-- `length`: the bytes of the buffer, 0 without one. -/
def bufferLength (td : TransferDescriptor) : Nat :=
  if td.currentBufferPointer ≠ 0 ∧ td.bufferEnd ≠ 0 then
    if td.currentBufferPointer &&& OHCI_PAGE_MASK ≠ td.bufferEnd &&& OHCI_PAGE_MASK then
      ((td.bufferEnd &&& 0xFFF) + 0x1001 - (td.currentBufferPointer &&& 0xFFF)).toNat
    else (td.bufferEnd - td.currentBufferPointer + 1).toNat
  else 0

def maxPacketSize (ed : EndpointDescriptor) : Nat := (bm ed.flags OHCI_ED_MPS_MASK 16).toNat

/-- `packetlen`: what the endpoint can send of it now; all of it for IN. -/
def packetLength (ed : EndpointDescriptor) (td : TransferDescriptor) (dir : Word) : Nat :=
  if bufferLength td ≠ 0 ∧ dir ≠ OHCI_TD_DIR_IN then min (maxPacketSize ed) (bufferLength td)
  else bufferLength td

/-- CurrentBufferPointer after `ret` bytes. -/
def advance (td : TransferDescriptor) (ret : Word) : Word :=
  if (td.currentBufferPointer &&& 0xFFF) + ret > 0xFFF then
    (td.bufferEnd &&& ~~~0xFFF) + ((td.currentBufferPointer + ret) &&& 0xFFF)
  else td.currentBufferPointer + ret

/-- What a service function comes back with; `stop` is its result. -/
structure Serviced where
  stop : Bool
  hc : Controller
  ed : EndpointDescriptor

/-- The descriptor is written back; the result is whether it has an error code. -/
def writeBackTD (hc : Controller) (ed : EndpointDescriptor) (td : TransferDescriptor) (addr : Word) :
    Serviced :=
  ⟨bm td.flags OHCI_TD_CC_MASK 28 ≠ OHCI_CC_NOERROR, { hc with mem := writeTD hc.mem addr td }, ed⟩

/-- Moves HeadP on to the next descriptor, keeping the low bits. -/
def nextHead (ed : EndpointDescriptor) (next : Word) : EndpointDescriptor :=
  { ed with headP := (ed.headP &&& ~~~OHCI_DPTR_MASK) ||| (next &&& OHCI_DPTR_MASK) }

/-- The descriptor at `addr` becomes the head of the done queue. -/
def enqueueDone (hc : Controller) (addr flags : Word) : Controller :=
  let i := (bm flags OHCI_TD_DI_MASK 21).toNat
  { hc with hcDoneHead := addr, doneCount := if i < hc.doneCount then i else hc.doneCount }

def retireTD (hc : Controller) (ed : EndpointDescriptor) (td : TransferDescriptor) (addr : Word) :
    Serviced :=
  let done := enqueueDone hc addr td.flags
  let done := if bm td.flags OHCI_TD_CC_MASK 28 ≠ OHCI_CC_NOERROR then { done with doneCount := 0 }
    else done
  writeBackTD done (nextHead ed td.nextTD) { td with nextTD := hc.hcDoneHead } addr

/-- The flags after a packet has been transmitted. -/
def transmittedFlags (flags : Word) : Word :=
  setBm (setBm ((flags ||| OHCI_TD_T1) ^^^ OHCI_TD_T0) OHCI_TD_CC_MASK 28 OHCI_CC_NOERROR)
    OHCI_TD_EC_MASK 26 0

/-- The flags after a packet has failed with `ret`; not for a NAK. -/
def failedFlags (flags ret : Word) : Word :=
  let cc (code : Word) : Word := setBm flags OHCI_TD_CC_MASK 28 code
  if nonneg ret then cc OHCI_CC_DATAUNDERRUN
  else if ret = USB_RET_IOERROR ∨ ret = USB_RET_NODEV then cc OHCI_CC_DEVICENOTRESPONDING
  else if ret = USB_RET_STALL then cc OHCI_CC_STALL
  else if ret = USB_RET_BABBLE then cc OHCI_CC_DATAOVERRUN
  else setBm (cc OHCI_CC_UNDEXPETEDPID) OHCI_TD_EC_MASK 26 3

/-- ED_C takes the data toggle of the descriptor that retires. -/
def toggleCarry (ed : EndpointDescriptor) (flags : Word) : EndpointDescriptor :=
  let headP := ed.headP &&& ~~~OHCI_ED_C
  { ed with headP := if flags &&& OHCI_TD_T0 ≠ 0 then headP ||| OHCI_ED_C else headP }

/-- The descriptor after the transmission of `ret` bytes. -/
def transmittedTD (td : TransferDescriptor) (length : Nat) (ret : Word) : TransferDescriptor :=
  { td with
    currentBufferPointer := if ret.toNat = length then 0 else td.currentBufferPointer
    flags := transmittedFlags td.flags }

/-- The data of an IN packet is copied to memory. -/
def returnData (hc : Controller) (td : TransferDescriptor) (dir : Word) : Controller :=
  if nonneg hc.packet.ret ∧ dir = OHCI_TD_DIR_IN then
    copyOrFatal (copyTD hc td hc.packet.ret.toNat true)
  else hc

/-- `ret` from there on: an OUT packet that succeeds has sent all of its bytes. -/
def transferred (hc : Controller) (ed : EndpointDescriptor) (td : TransferDescriptor)
    (dir : Word) : Word :=
  if nonneg hc.packet.ret ∧ dir ≠ OHCI_TD_DIR_IN then BitVec.ofNat 32 (packetLength ed td dir)
  else hc.packet.ret

/-- The pointer of the descriptor is moved over `ret` bytes. -/
def moved (td : TransferDescriptor) (ret : Word) : TransferDescriptor :=
  if nonneg ret then { td with currentBufferPointer := advance td ret } else td

/-- All of the packet has been transmitted, or as much as the device has. -/
def transmitted (ed : EndpointDescriptor) (td : TransferDescriptor) (dir ret : Word) : Bool :=
  ret.toNat = packetLength ed td dir ||
    (dir = OHCI_TD_DIR_IN && nonneg ret && td.flags &&& OHCI_TD_R ≠ 0)

/-- The write-back, and the retirement of a descriptor that is done or has failed. -/
def settleTD (hc : Controller) (ed : EndpointDescriptor) (td : TransferDescriptor)
    (addr dir ret : Word) : Serviced :=
  if transmitted ed td dir ret then
    let sent := transmittedTD (moved td ret) (bufferLength td) ret
    if dir ≠ OHCI_TD_DIR_IN ∧ ret.toNat ≠ bufferLength td then writeBackTD hc ed sent addr
    else retireTD hc (toggleCarry ed sent.flags) sent addr
  else if ret = USB_RET_NAK then ⟨true, hc, ed⟩
  else
    retireTD hc { ed with headP := ed.headP ||| OHCI_ED_H }
      { moved td ret with flags := failedFlags td.flags ret } addr

/-- From the result of the packet on; `td` is the descriptor as it was read. -/
def finishTD (hc : Controller) (ed : EndpointDescriptor) (td : TransferDescriptor)
    (addr dir : Word) : Serviced :=
  settleTD (returnData hc td dir) ed td addr dir (transferred hc ed td dir)

/-- The data of an OUT or SETUP packet is fetched, unless the packet has been sent already. -/
def fetchTD (hc : Controller) (ed : EndpointDescriptor) (td : TransferDescriptor) (dir : Word)
    (completion : Bool) : Controller :=
  if bufferLength td ≠ 0 ∧ dir ≠ OHCI_TD_DIR_IN ∧ !completion then
    copyOrFatal (copyTD hc td (packetLength ed td dir) false)
  else hc

/-- From the descriptor that has been read on. -/
def transferTD (a : Answer) (hc : Controller) (ed : EndpointDescriptor) (td : TransferDescriptor)
    (addr : Word) (completion : Bool) : Serviced :=
  let dir := direction ed td
  if dir = OHCI_TD_DIR_RESERVED then ⟨true, hc, ed⟩
  else
    let hc := fetchTD hc ed td dir completion
    if completion then
      finishTD { hc with asyncTD := 0, asyncComplete := false } ed td addr dir
    else if hc.asyncTD ≠ 0 then ⟨true, hc, ed⟩
    else
      let hc := submit hc a (packetLength ed td dir)
      if hc.packet.status = USB_RET_ASYNC then ⟨true, { hc with asyncTD := addr }, ed⟩
      else finishTD hc ed td addr dir

/-- The answer to the next call. -/
def Controller.answer (hc : Controller) (env : Nat → Answer) : Answer := env hc.calls

def Controller.called (hc : Controller) : Controller := { hc with calls := hc.calls + 1 }

def serviceTD (env : Nat → Answer) (hc : Controller) (ed : EndpointDescriptor) : Serviced :=
  let addr := ed.headP &&& OHCI_DPTR_MASK
  let completion : Bool := addr = hc.asyncTD
  let a := hc.answer env
  if completion && !hc.asyncComplete then ⟨true, hc.called, ed⟩
  else if addr = 0 then ⟨false, hc.called.fatalError, ed⟩
  else transferTD a hc.called ed (readTD hc.mem addr a.stack) addr completion

/-! ## Isochronous transfer descriptors -/

/-- `USUB` of the frame number and the starting frame. -/
def relativeFrame (hc : Controller) (td : IsoDescriptor) : Int :=
  (hc.hcFmNumber.setWidth 16 - (bm td.flags OHCI_TD_SF_MASK 0).setWidth 16 : BitVec 16).toInt

def frameCount (td : IsoDescriptor) : Nat := (bm td.flags OHCI_TD_FC_MASK 24).toNat

/-- Bit 12 of an offset selects the page. -/
def isoAddress (td : IsoDescriptor) (offset : Word) : Word :=
  if offset &&& 0x1000 = 0 then (td.bufferPage0 &&& OHCI_PAGE_MASK) ||| (offset &&& OHCI_OFFSET_MASK)
  else (td.bufferEnd &&& OHCI_PAGE_MASK) ||| (offset &&& OHCI_OFFSET_MASK)

def isoStart (td : IsoDescriptor) (r : Nat) : Word := isoAddress td ((td.offset r).setWidth 32)

/-- The last byte of packet `r`. -/
def isoEnd (td : IsoDescriptor) (r : Nat) : Word :=
  if r < frameCount td then isoAddress td ((td.offset (r + 1)).setWidth 32 - 1)
  else td.bufferEnd

/-- `len` of a packet from `startAddr` to `endAddr`. -/
def isoLength (startAddr endAddr : Word) : Nat :=
  if startAddr &&& OHCI_PAGE_MASK ≠ endAddr &&& OHCI_PAGE_MASK then
    ((endAddr &&& OHCI_OFFSET_MASK) + 0x1001 - (startAddr &&& OHCI_OFFSET_MASK)).toNat
  else (endAddr - startAddr + 1).toNat

/-- The packet status word of packet `r` is set. -/
def setStatus (td : IsoDescriptor) (r : Nat) (cc : Word) (size : Option Nat) : IsoDescriptor :=
  let word := setBm (td.offset r) OHCI_TD_PSW_CC_MASK 12 (cc.setWidth 16)
  let word := match size with
    | some n => setBm word OHCI_TD_PSW_SIZE_MASK 0 (BitVec.ofNat 16 n)
    | none => word
  { td with offset := fun i => if i = r then word else td.offset i }

def writeBackIsoTD (hc : Controller) (td : IsoDescriptor) (addr : Word) : Controller :=
  { hc with mem := writeIsoTD hc.mem addr td }

/-- The status of a packet that has not been transferred. -/
def failedStatus (td : IsoDescriptor) (r len : Nat) (ret : Word) : IsoDescriptor :=
  if ret.toInt > len then setStatus td r OHCI_CC_DATAOVERRUN (some len)
  else if nonneg ret then setStatus td r OHCI_CC_DATAUNDERRUN none
  else if ret = USB_RET_IOERROR ∨ ret = USB_RET_NODEV then
    setStatus td r OHCI_CC_DEVICENOTRESPONDING (some 0)
  else if ret = USB_RET_NAK ∨ ret = USB_RET_STALL then setStatus td r OHCI_CC_STALL (some 0)
  else setStatus td r OHCI_CC_UNDEXPETEDPID none

/-- The end of `OHCI_ServiceIsoTD`: the last packet retires the descriptor. -/
def retireIfLast (hc : Controller) (ed : EndpointDescriptor) (td : IsoDescriptor) (addr : Word) (r : Nat) :
    Serviced :=
  if r = frameCount td then
    let flags := setBm td.flags OHCI_TD_CC_MASK 28 OHCI_CC_NOERROR
    ⟨true, writeBackIsoTD (enqueueDone hc addr flags)
      { td with flags := flags, nextTD := hc.hcDoneHead } addr, nextHead ed td.nextTD⟩
  else ⟨true, writeBackIsoTD hc td addr, ed⟩

def finishIsoTD (hc : Controller) (ed : EndpointDescriptor) (td : IsoDescriptor) (addr dir : Word)
    (r len : Nat) : Serviced :=
  let ret := hc.packet.ret
  if dir = OHCI_TD_DIR_IN ∧ nonneg ret ∧ ret.toNat ≤ len then
    match copyIsoTD hc (isoStart td r) (isoEnd td r) ret.toNat true with
    | (hc, true) => ⟨true, hc.fatalError, ed⟩
    | (hc, false) => retireIfLast hc ed (setStatus td r OHCI_CC_NOERROR (some ret.toNat)) addr r
  else if dir = OHCI_TD_DIR_OUT ∧ ret.toNat = len then
    retireIfLast hc ed (setStatus td r OHCI_CC_NOERROR (some 0)) addr r
  else retireIfLast hc ed (failedStatus td r len ret) addr r

/-- The data of an OUT or SETUP packet is fetched; the flag is the error. -/
def fetchIsoTD (hc : Controller) (td : IsoDescriptor) (dir : Word) (r len : Nat) :
    Controller × Bool :=
  if len ≠ 0 ∧ dir ≠ OHCI_TD_DIR_IN then copyIsoTD hc (isoStart td r) (isoEnd td r) len false
  else (hc, false)

/-- From the packet of frame `r` on, when its length is `len`. -/
def transferIsoTD (a : Answer) (hc : Controller) (ed : EndpointDescriptor) (td : IsoDescriptor)
    (addr dir : Word) (r len : Nat) (completion : Bool) : Serviced :=
  let fetched := fetchIsoTD hc td dir r len
  if fetched.2 then ⟨true, fetched.1.fatalError, ed⟩
  else if completion then finishIsoTD fetched.1 ed td addr dir r len
  else
    let hc := submit fetched.1 a len
    if hc.packet.status = USB_RET_ASYNC then ⟨true, hc, ed⟩
    else finishIsoTD hc ed td addr dir r len

/-- The condition code of an offset is (nearly) NOT ACCESSED. -/
def notAccessed (offset : BitVec 16) : Bool := bm offset OHCI_TD_PSW_CC_MASK 12 &&& 0xE ≠ 0

/-- The tests of the offsets of frame `r`. -/
def offsetsRejected (td : IsoDescriptor) (r : Nat) : Bool :=
  !notAccessed (td.offset r) || (r < frameCount td && !notAccessed (td.offset (r + 1))) ||
    (r < frameCount td && td.offset r > td.offset (r + 1))

/-- Frame `r` of the descriptor is due. -/
def frameIsoTD (a : Answer) (hc : Controller) (ed : EndpointDescriptor) (td : IsoDescriptor)
    (addr : Word) (r : Nat) (completion : Bool) : Serviced :=
  let dir := bm ed.flags OHCI_ED_D_MASK 11
  if dir = OHCI_TD_DIR_RESERVED then ⟨true, hc, ed⟩
  else if td.bufferPage0 = 0 ∨ td.bufferEnd = 0 then ⟨true, hc, ed⟩
  else
    let hc := (hc.log (.readOffset r)).log (.readOffset (r + 1))
    if offsetsRejected td r then ⟨true, hc, ed⟩
    else transferIsoTD a hc ed td addr dir r (isoLength (isoStart td r) (isoEnd td r)) completion

/-- A descriptor whose last frame has passed is retired with an error. -/
def expireIsoTD (hc : Controller) (ed : EndpointDescriptor) (td : IsoDescriptor) (addr : Word) :
    Serviced :=
  let flags := setBm td.flags OHCI_TD_CC_MASK 28 OHCI_CC_DATAOVERRUN
  ⟨false, writeBackIsoTD (enqueueDone hc addr flags)
    { td with flags := flags, nextTD := hc.hcDoneHead } addr, nextHead ed td.nextTD⟩

def serviceIsoTD (env : Nat → Answer) (hc : Controller) (ed : EndpointDescriptor) (completion : Bool) :
    Serviced :=
  let addr := ed.headP &&& OHCI_DPTR_MASK
  let a := hc.answer env
  if addr = 0 then ⟨false, hc.called.fatalError, ed⟩
  else
    let td := readIsoTD hc.mem addr a.stack
    if relativeFrame hc td < 0 then ⟨true, hc.called, ed⟩
    else if relativeFrame hc td > frameCount td then expireIsoTD hc.called ed td addr
    else frameIsoTD a hc.called ed td addr (relativeFrame hc td).toNat completion

/-! ## The list -/

/-- Where the walk is: at the head of the list loop, or of the loop over the queue of
the descriptor at `current`. -/
inductive Position where
  | list (current : Word)
  | queue (current nextED : Word)

structure Walk where
  hc : Controller
  /-- The local descriptor. -/
  ed : EndpointDescriptor
  active : Bool
  position : Position

/-- A halted or skipped endpoint: its pending packet is cancelled. -/
def cancelPending (hc : Controller) (ed : EndpointDescriptor) : Controller :=
  if hc.asyncTD ≠ 0 ∧ ed.headP &&& OHCI_DPTR_MASK = hc.asyncTD then { hc with asyncTD := 0 } else hc

/-- The start of one turn of the list loop. -/
def enterED (w : Walk) (current : Word) : Walk :=
  let ed := readED w.hc.mem current w.ed
  let next := ed.nextED &&& OHCI_DPTR_MASK
  if ed.headP &&& OHCI_ED_H ≠ 0 ∨ ed.flags &&& OHCI_ED_K ≠ 0 then
    { w with hc := cancelPending w.hc ed, ed := ed, position := .list next }
  else { w with ed := ed, position := .queue current next }

/-- The end of one turn of the list loop. -/
def leaveED (env : Nat → Answer) (w : Walk) (current nextED : Word) : Walk :=
  { w with
    hc := { w.hc.called with mem := writeED w.hc.mem current (w.hc.answer env).behind }
    position := .list nextED }

/-- One descriptor of the queue of the endpoint is serviced. -/
def serviceHead (env : Nat → Answer) (w : Walk) (completion : Bool) : Serviced :=
  if w.ed.flags &&& OHCI_ED_F = 0 then serviceTD env w.hc w.ed
  else serviceIsoTD env w.hc w.ed completion

/-- The two nested loops, one turn of either at a time. -/
def walkBody (env : Nat → Answer) (completion : Bool) (w : Walk) : Turn Walk :=
  match w.position with
  | .list current => if current = 0 then .exit w else .next (enterED w current)
  | .queue current nextED =>
    if w.ed.headP &&& OHCI_DPTR_MASK = w.ed.tailP then .next (leaveED env w current nextED)
    else
      let s := serviceHead env w completion
      let w := { w with hc := s.hc, ed := s.ed, active := true }
      if s.stop then .next (leaveED env w current nextED) else .next w

/-- `OHCI_ServiceEDlist` with a bound on the turns of its loops; `ed` is the content of
the local descriptor before the first one is read. -/
def serviceEDlist (fuel : Nat) (env : Nat → Answer) (hc : Controller) (ed : EndpointDescriptor)
    (head : Word) (completion : Bool) : Option (Bool × Controller) :=
  (loop (walkBody env completion) fuel ⟨hc, ed, false, .list head⟩).map fun w => (w.active, w.hc)

/-! ## A controller to try things on -/

/-- 64 MiB of RAM with these words at 0x100, of which the first 4 MiB are mapped to themselves
by the directory entry at 0. -/
def memoryOver (words : List Word) : GuestMemory where
  paging := ⟨0, 0, 0⟩
  map := [⟨0, 0x3ffffff, 0⟩]
  host := fun x => if x < 0x100 then if x = 0 then 0x81 else 0 else leBytes words (x - 0x100)
  aligned := by decide
  paged := by decide

/-- A controller in frame 0 over memory that has these words at 0x100. -/
def controllerOver (words : List Word) : Controller :=
  { mem := memoryOver words
    host := fun _ => 0, usbBuffer := fun _ => 0, hcDoneHead := 0, hcFmNumber := 0, doneCount := 7
    asyncTD := 0, asyncComplete := false, packet := ⟨0, 0⟩, unrecoverable := false
    events := [], calls := 0 }

/-- A device that takes or delivers eight bytes. -/
def eightBytes : Nat → Answer := fun _ => ⟨fun _ => 0, ⟨USB_RET_SUCCESS, 8⟩, fun _ => 0, 0⟩

/-! ## What the copies change -/

/-- `hc'` is `hc` after copies between host memory and the buffer, with events logged. -/
def Copied (es : List Event) (hc hc' : Controller) : Prop :=
  ∃ host usbBuffer unrecoverable, hc' =
    { hc with
      host := host, usbBuffer := usbBuffer, unrecoverable := unrecoverable
      events := hc.events ++ es }

theorem Copied.refl (hc : Controller) : Copied [] hc hc := by
  refine ⟨hc.host, hc.usbBuffer, hc.unrecoverable, ?_⟩
  rw [List.append_nil]

theorem Copied.trans {es es' : List Event} {hc hc' hc'' : Controller} (h : Copied es hc hc')
    (h' : Copied es' hc' hc'') : Copied (es ++ es') hc hc'' := by
  obtain ⟨host, usbBuffer, unrecoverable, rfl⟩ := h
  obtain ⟨host', usbBuffer', unrecoverable', rfl⟩ := h'
  exact ⟨host', usbBuffer', unrecoverable', by rw [List.append_assoc]⟩

theorem Copied.packet_eq {es : List Event} {hc hc' : Controller} (h : Copied es hc hc') :
    hc'.packet = hc.packet := by
  obtain ⟨host, usbBuffer, unrecoverable, rfl⟩ := h
  rfl

theorem findAndCopyTD_copied (hc : Controller) (paddr : Word) (pos length : Nat) (w : Bool) :
    Copied [] hc (findAndCopyTD hc paddr pos length w).1 := by
  rw [findAndCopyTD]
  split
  · exact .refl hc
  · cases w with
    | true => exact ⟨_, _, _, by rw [List.append_nil]; rfl⟩
    | false => exact ⟨_, _, _, by rw [List.append_nil]; rfl⟩

theorem copyPages_copied (hc : Controller) (ptr last : Word) (length : Nat) (w : Bool) :
    Copied [] hc (copyPages hc ptr last length w).1 := by
  rw [copyPages]
  have hfirst := findAndCopyTD_copied hc ptr 0 (min (0x1000 - (ptr &&& 0xFFF).toNat) length) w
  split
  · next h =>
    rw [h] at hfirst
    exact hfirst
  · next h =>
    rw [h] at hfirst
    split
    · exact hfirst
    · exact hfirst.trans (findAndCopyTD_copied _ _ _ _ _)

theorem findAndCopyTD_error (hc : Controller) (paddr : Word) (pos length : Nat) (w : Bool) :
    (findAndCopyTD hc paddr pos length w).2 = decide (paddr = 0) := by
  rw [findAndCopyTD]
  split
  · next h => exact (decide_eq_true h).symm
  · next h =>
    cases w with
    | true => exact (decide_eq_false h).symm
    | false => exact (decide_eq_false h).symm

/-- Whether a copy fails is told by the addresses. -/
theorem copyPages_error (hc hc' : Controller) (ptr last : Word) (length : Nat) (w : Bool) :
    (copyPages hc' ptr last length w).2 = (copyPages hc ptr last length w).2 := by
  have hpages (hc : Controller) : (copyPages hc ptr last length w).2 =
      (decide (ptr = 0) || !decide (min (0x1000 - (ptr &&& 0xFFF).toNat) length = length) &&
        decide (last &&& ~~~0xFFF = 0)) := by
    have hfirst := findAndCopyTD_error hc ptr 0 (min (0x1000 - (ptr &&& 0xFFF).toNat) length) w
    rw [copyPages]
    split
    · next h =>
      rw [h] at hfirst
      rw [← hfirst, Bool.true_or]
    · next h =>
      rw [h] at hfirst
      rw [← hfirst, Bool.false_or]
      split
      · next hlen => rw [decide_eq_true hlen, Bool.not_true, Bool.false_and]
      · next hlen => rw [findAndCopyTD_error, decide_eq_false hlen, Bool.not_false, Bool.true_and]
  rw [hpages, hpages]

theorem copyOrFatal_copied {es : List Event} {hc : Controller} {r : Controller × Bool}
    (h : Copied es hc r.1) : Copied es hc (copyOrFatal r) := by
  obtain ⟨host, usbBuffer, unrecoverable, hr⟩ := h
  rw [copyOrFatal, hr]
  split
  · exact ⟨_, _, true, rfl⟩
  · exact ⟨_, _, _, rfl⟩

theorem log_copied (hc : Controller) (e : Event) : Copied [e] hc (hc.log e) := ⟨_, _, _, rfl⟩

theorem copyTD_copied (hc : Controller) (td : TransferDescriptor) (length : Nat) (w : Bool) :
    Copied [.copyTD length] hc (copyOrFatal (copyTD hc td length w)) :=
  copyOrFatal_copied ((log_copied hc _).trans (copyPages_copied _ _ _ _ _))

theorem copyIsoTD_copied (hc : Controller) (startAddr endAddr : Word) (length : Nat) (w : Bool) :
    Copied [.copyIsoTD length] hc (copyIsoTD hc startAddr endAddr length w).1 :=
  (log_copied hc _).trans (copyPages_copied _ _ _ _ _)

end OpenXbox.Ohci.Service
