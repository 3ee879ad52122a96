import OpenXbox.Lib.Word
import Mathlib.Data.BitVec

/-!
# The control endpoint of a USB device

The four functions that process a packet on endpoint 0. The control handler of
the device is a parameter of each packet. An `Effect` is recorded for every copy
at `DataBuffer` and for every call of the handler; a failed assertion ends the
processing with the effects so far.
-/

namespace OpenXbox.Usb.Control

open OpenXbox.Lib

abbrev Byte := BitVec 8

def USB_TOKEN_SETUP : Nat := 0x2D
def USB_TOKEN_IN : Nat := 0x69
def USB_TOKEN_OUT : Nat := 0xE1
def USB_DIR_IN : Byte := 0x80

def USB_RET_SUCCESS : Int := 0
def USB_RET_STALL : Int := -3
def USB_RET_ASYNC : Int := -6

/-- `sizeof(DataBuffer)`. -/
def dataBufferSize : Nat := 4096

inductive SetupState where
  | idle
  | setup
  | data
  | ack
  | param
deriving DecidableEq

/-- The fields of `XboxDeviceState` that control transfers use. Buffers are the
bytes from their first address on. -/
structure XboxDeviceState where
  setupBuffer : Nat → Byte
  dataBuffer : Nat → Byte
  setupState : SetupState
  setupLength : Nat
  setupIndex : Nat

/-- A packet; `ioVec` is the concatenation of its segments. -/
structure USBPacket where
  pid : Nat
  ioVec : List Byte
  parameter : BitVec 64
  status : Int
  actualLength : Nat

inductive Effect where
  | copy (offset len : Nat)
  | control (length : Nat)
deriving DecidableEq

/-- What a control handler leaves in the packet and the data buffer. -/
structure Reply where
  status : Int
  actualLength : Nat
  data : Nat → Byte

/-- `klass->handle_control(dev, p, request, value, index, length, data)`. -/
abbrev Handler := USBPacket → (request value index length : Nat) → (data : Nat → Byte) → Reply

structure Frame where
  dev : XboxDeviceState
  pkt : USBPacket
  log : List Effect

abbrev Result := Except (List Effect) Frame

def Frame.stall (f : Frame) : Frame := { f with pkt.status := USB_RET_STALL }

def Frame.setState (f : Frame) (st : SetupState) : Frame := { f with dev.setupState := st }

def Frame.setActualLength (f : Frame) (n : Nat) : Frame := { f with pkt.actualLength := n }

/-- The cut of `SetupLength` to what the handler produced. -/
def Frame.limitLength (f : Frame) : Frame :=
  if f.pkt.actualLength < f.dev.setupLength then
    { f with dev.setupLength := f.pkt.actualLength }
  else f

/-- `(hi << 8) | lo`. -/
def word16 (hi lo : Byte) : Nat := (hi.toNat <<< 8) ||| lo.toNat

def XboxDeviceState.request (s : XboxDeviceState) : Nat := word16 (s.setupBuffer 0) (s.setupBuffer 1)
def XboxDeviceState.value (s : XboxDeviceState) : Nat := word16 (s.setupBuffer 3) (s.setupBuffer 2)
def XboxDeviceState.index (s : XboxDeviceState) : Nat := word16 (s.setupBuffer 5) (s.setupBuffer 4)
def XboxDeviceState.length (s : XboxDeviceState) : Nat := word16 (s.setupBuffer 7) (s.setupBuffer 6)

def XboxDeviceState.dirIn (s : XboxDeviceState) : Bool := s.setupBuffer 0 &&& USB_DIR_IN != 0

/-- `USB_PacketCopy`: the packet and the bytes at `ptr` afterwards; `none` when
its assertion fails. -/
def usbPacketCopy (p : USBPacket) (ptr : Nat → Byte) (bytes : Nat) :
    Option (USBPacket × (Nat → Byte)) :=
  if p.actualLength + bytes ≤ p.ioVec.length then
    let q := { p with actualLength := u32 (p.actualLength + bytes) }
    if p.pid = USB_TOKEN_SETUP ∨ p.pid = USB_TOKEN_OUT then
      some (q, fun i => if i < bytes then p.ioVec.getD (p.actualLength + i) 0 else ptr i)
    else if p.pid = USB_TOKEN_IN then
      let before := p.ioVec.take p.actualLength
      let after := p.ioVec.drop (p.actualLength + bytes)
      some ({ q with ioVec := before ++ (List.range bytes).map ptr ++ after }, ptr)
    else some (q, ptr)
  else none

/-- `USB_PacketCopy(p, s->DataBuffer + offset, bytes)`. -/
def Frame.copyData (f : Frame) (offset bytes : Nat) : Result :=
  match usbPacketCopy f.pkt (fun i => f.dev.dataBuffer (offset + i)) bytes with
  | none => .error f.log
  | some (p, ptr) => .ok
    { dev := { f.dev with
        dataBuffer := fun j => if offset ≤ j then ptr (j - offset) else f.dev.dataBuffer j }
      pkt := p
      log := f.log ++ [.copy offset bytes] }

/-- `USB_DeviceHandleControl(s, p, request, value, index, s->SetupLength, s->DataBuffer)`. -/
def Frame.handleControl (f : Frame) (h : Handler) : Frame :=
  let r := h f.pkt f.dev.request f.dev.value f.dev.index f.dev.setupLength f.dev.dataBuffer
  { dev := { f.dev with dataBuffer := r.data }
    pkt := { f.pkt with status := r.status, actualLength := u32 r.actualLength }
    log := f.log ++ [.control f.dev.setupLength] }

/-- `SetupBuffer` and the fields read from it, filled from the packet's parameter. -/
def Frame.storeParameter (f : Frame) : Frame :=
  let buf := fun i : Nat => (f.pkt.parameter >>> (i * 8)).setWidth 8
  let dev := { f.dev with
    setupBuffer := fun i => if i < 8 then buf i else f.dev.setupBuffer i
    setupState := .param
    setupIndex := 0 }
  { f with dev := { dev with setupLength := dev.length } }

/-- The copy from the packet that only an OUT packet makes. -/
def Frame.copyOut (f : Frame) : Result :=
  if f.pkt.pid = USB_TOKEN_OUT then f.copyData 0 f.dev.setupLength else .ok f

def usbDoParameter (h : Handler) (f : Frame) : Result :=
  let f := f.storeParameter
  if f.dev.setupLength > dataBufferSize then .ok f.stall
  else do
    let f ← f.copyOut
    let f := f.handleControl h
    if f.pkt.status = USB_RET_ASYNC then .ok f
    else
      let f := f.limitLength
      if f.pkt.pid = USB_TOKEN_IN then (f.setActualLength 0).copyData 0 f.dev.setupLength
      else .ok f

def usbDoTokenSetup (h : Handler) (f : Frame) : Result :=
  if f.pkt.ioVec.length ≠ 8 then .ok f.stall
  else
    match usbPacketCopy f.pkt f.dev.setupBuffer f.pkt.ioVec.length with
    | none => .error f.log
    | some (p, buf) =>
      let dev := { f.dev with setupBuffer := buf, setupIndex := 0 }
      let f := { f with
        dev := { dev with setupLength := dev.length }
        pkt := { p with actualLength := 0 } }
      if f.dev.dirIn then
        let f := f.handleControl h
        let f := if f.pkt.status = USB_RET_ASYNC then f.setState .setup else f
        if f.pkt.status ≠ USB_RET_SUCCESS then .ok f
        else .ok ((f.limitLength.setState .data).setActualLength 8)
      else if f.dev.setupLength > dataBufferSize then .ok f.stall
      else if f.dev.setupLength = 0 then .ok ((f.setState .ack).setActualLength 8)
      else .ok ((f.setState .data).setActualLength 8)

/-- The rest of the data stage, cut to the size of the packet. -/
def Frame.stageLen (f : Frame) : Nat :=
  let len := sub32 f.dev.setupLength f.dev.setupIndex
  if len > f.pkt.ioVec.length then f.pkt.ioVec.length else len

/-- The copy of a data stage, in both directions. -/
def dataStage (f : Frame) : Result := do
  let len := f.stageLen
  let f ← f.copyData f.dev.setupIndex len
  let f := { f with dev.setupIndex := u32 (f.dev.setupIndex + len) }
  if f.dev.setupIndex ≥ f.dev.setupLength then .ok (f.setState .ack) else .ok f

def doTokenIn (h : Handler) (f : Frame) : Result :=
  match f.dev.setupState with
  | .ack =>
    if !f.dev.dirIn then
      let f := f.handleControl h
      if f.pkt.status = USB_RET_ASYNC then .ok f
      else .ok ((f.setState .idle).setActualLength 0)
    else .ok f
  | .data =>
    if f.dev.dirIn then dataStage f else .ok (f.setState .idle).stall
  | _ => .ok f.stall

def doTokenOut (f : Frame) : Result :=
  match f.dev.setupState with
  | .ack => if f.dev.dirIn then .ok (f.setState .idle) else .ok f
  | .data => if !f.dev.dirIn then dataStage f else .ok (f.setState .idle).stall
  | _ => .ok f.stall

/-- `USB_ProcessOne` for endpoint 0. -/
def usbProcessOne (h : Handler) (f : Frame) : Result :=
  let f := { f with pkt.status := USB_RET_SUCCESS }
  if f.pkt.parameter ≠ 0 then usbDoParameter h f
  else if f.pkt.pid = USB_TOKEN_SETUP then usbDoTokenSetup h f
  else if f.pkt.pid = USB_TOKEN_IN then doTokenIn h f
  else if f.pkt.pid = USB_TOKEN_OUT then doTokenOut f
  else .ok f.stall

end OpenXbox.Usb.Control
