import OpenXbox.Common.Fifo
import Mathlib.Data.BitVec

/-!
# The 16550A UART

Register accesses, received bytes and breaks, timer callbacks, transmission and
reset. What the device sends out (interrupt levels, bytes to the back-end and its
settings) is a log; the host clock and the back-end's answer to a write are
inputs. Modem polling always finds that the back-end does not support it.
-/

namespace OpenXbox.Uart.Device

open OpenXbox.Common

abbrev Byte := BitVec 8
abbrev Word := BitVec 32

def UART_LCR_DLAB : Byte := 0x80

def UART_IER_MSI : Byte := 0x08
def UART_IER_RLSI : Byte := 0x04
def UART_IER_THRI : Byte := 0x02
def UART_IER_RDI : Byte := 0x01

def UART_IIR_NO_INT : Byte := 0x01
def UART_IIR_ID : Byte := 0x06
def UART_IIR_MSI : Byte := 0x00
def UART_IIR_THRI : Byte := 0x02
def UART_IIR_RDI : Byte := 0x04
def UART_IIR_RLSI : Byte := 0x06
def UART_IIR_CTI : Byte := 0x0C
def UART_IIR_FE : Byte := 0xC0

def UART_MCR_LOOP : Byte := 0x10
def UART_MCR_OUT2 : Byte := 0x08

def UART_MSR_DCD : Byte := 0x80
def UART_MSR_DSR : Byte := 0x20
def UART_MSR_CTS : Byte := 0x10
def UART_MSR_ANY_DELTA : Byte := 0x0F

def UART_LSR_TEMT : Byte := 0x40
def UART_LSR_THRE : Byte := 0x20
def UART_LSR_BI : Byte := 0x10
def UART_LSR_OE : Byte := 0x02
def UART_LSR_DR : Byte := 0x01
def UART_LSR_INT_ANY : Byte := 0x1E

def UART_FCR_XFR : Byte := 0x04
def UART_FCR_RFR : Byte := 0x02
def UART_FCR_FE : Byte := 0x01

def UART_FIFO_LENGTH : Nat := 16
def MAX_XMIT_RETRY : Nat := 4
def SEC_TO_NANO : Nat := 1000000000

structure SerialParams where
  parity : Char
  stopBits : Nat
  dataBits : Nat
  baudRate : Nat
  divider : BitVec 16

/-- What the device tells the interrupt handler and the character back-end. -/
inductive Output where
  | irq (level : Bool)
  | write (byte : Byte) (accepted : Bool)
  | acceptInput
  | breakEnable (on : Bool)
  | serialParams (params : SerialParams)

/-- What one operation finds outside the device. -/
structure Host where
  now : Nat
  writeAccepted : Bool

structure Serial where
  divider : BitVec 16
  rbr : Byte
  thr : Byte
  tsr : Byte
  ier : Byte
  iir : Byte
  lcr : Byte
  mcr : Byte
  lsr : Byte
  msr : Byte
  scr : Byte
  fcr : Byte
  thrIpending : Bool
  lastBreakEnable : Bool
  baudbase : Nat
  tsrRetry : Nat
  lastXmitTs : Nat
  recvFifo : Fifo Byte
  xmitFifo : Fifo Byte
  recvFifoITL : Nat
  timeoutIpending : Bool
  charTransmitTime : Nat
  pollMsl : Int
  fifoTimeoutTimer : Option Nat
  modemStatusPoll : Option Nat
  log : List Output

/-- `reg & mask` as a condition. -/
def has (reg mask : Byte) : Bool := reg &&& mask != 0

def Serial.emit (s : Serial) (o : Output) : Serial := { s with log := s.log ++ [o] }

def Serial.setLsr (s : Serial) (mask : Byte) : Serial := { s with lsr := s.lsr ||| mask }

def Serial.clearLsr (s : Serial) (mask : Byte) : Serial := { s with lsr := s.lsr &&& ~~~mask }

def reset (host : Host) (s : Serial) : Serial :=
  { s with
    rbr := 0
    ier := 0
    iir := UART_IIR_NO_INT
    lcr := 0
    lsr := UART_LSR_TEMT ||| UART_LSR_THRE
    msr := UART_MSR_DCD ||| UART_MSR_DSR ||| UART_MSR_CTS
    divider := 0x0C
    mcr := UART_MCR_OUT2
    scr := 0
    tsrRetry := 0
    charTransmitTime := (SEC_TO_NANO / 9600) * 10
    pollMsl := 0
    recvFifo := s.recvFifo.clear
    xmitFifo := s.xmitFifo.clear
    lastXmitTs := host.now
    thrIpending := false
    lastBreakEnable := false }

/-- The identification that `UpdateIRQ` computes before it stores it. -/
def pendingIir (s : Serial) : Byte :=
  if has s.ier UART_IER_RLSI && has s.lsr UART_LSR_INT_ANY then UART_IIR_RLSI
  else if has s.ier UART_IER_RDI && s.timeoutIpending then UART_IIR_CTI
  else if has s.ier UART_IER_RDI && has s.lsr UART_LSR_DR &&
      (!has s.fcr UART_FCR_FE || decide (s.recvFifo.count ≥ s.recvFifoITL)) then UART_IIR_RDI
  else if has s.ier UART_IER_THRI && s.thrIpending then UART_IIR_THRI
  else if has s.ier UART_IER_MSI && has s.msr UART_MSR_ANY_DELTA then UART_IIR_MSI
  else UART_IIR_NO_INT

def updateIRQ (s : Serial) : Serial :=
  let tmp := pendingIir s
  let s := { s with iir := tmp ||| (s.iir &&& 0xF0) }
  if tmp ≠ UART_IIR_NO_INT then s.emit (.irq true) else s.emit (.irq false)

def updateMSL (s : Serial) : Serial := { s with modemStatusPoll := none, pollMsl := -1 }

/-- The parameters that LCR and the divisor latch select. -/
def serialParams (s : Serial) : SerialParams where
  parity := if has s.lcr 0x08 then (if has s.lcr 0x10 then 'E' else 'O') else 'N'
  stopBits := if has s.lcr 0x04 then 2 else 1
  dataBits := (s.lcr &&& 0x03).toNat + 5
  baudRate := s.baudbase
  divider := s.divider

def frameSize (s : Serial) : Nat :=
  (if has s.lcr 0x08 then 2 else 1) + (serialParams s).dataBits + (serialParams s).stopBits

def updateParameters (host : Host) (s : Serial) : Serial :=
  if s.divider = 0 then s
  else
    let time := (host.now / s.baudbase / s.divider.toNat) * frameSize s % 2 ^ 64
    { s with charTransmitTime := time }.emit (.serialParams (serialParams s))

def recvFifoPut (chr : Byte) (s : Serial) : Serial :=
  if !s.recvFifo.isFull then { s with recvFifo := (s.recvFifo.push chr).1 }
  else s.setLsr UART_LSR_OE

def receive (host : Host) (buf : List Byte) (s : Serial) : Serial :=
  if has s.fcr UART_FCR_FE then
    let s := buf.foldl (fun s b => recvFifoPut b s) s
    let s := s.setLsr UART_LSR_DR
    updateIRQ { s with fifoTimeoutTimer := some (host.now + s.charTransmitTime * 4) }
  else
    let s := if has s.lsr UART_LSR_DR then s.setLsr UART_LSR_OE else s
    let s := { s with rbr := buf.headD 0 }
    updateIRQ (s.setLsr UART_LSR_DR)

def receiveBreak (s : Serial) : Serial :=
  let s := recvFifoPut 0 { s with rbr := 0 }
  updateIRQ (s.setLsr (UART_LSR_BI ||| UART_LSR_DR))

def fifoTimeoutInterrupt (s : Serial) : Serial :=
  if s.recvFifo.count ≠ 0 then updateIRQ { s with timeoutIpending := true } else s

/-- The next byte of the transmit fifo in the shift register. -/
def loadFifo (s : Serial) : Serial :=
  if s.xmitFifo.isFull then { s with tsr := 0 }
  else { s with xmitFifo := s.xmitFifo.pop.1, tsr := s.xmitFifo.pop.2.getD s.tsr }

/-- The first part of `Transmit`: the next byte in the shift register, or `none`
when there is nothing to send. -/
def loadTsr (s : Serial) : Option Serial :=
  if s.tsrRetry = 0 then
    if has s.fcr UART_FCR_FE then
      if (loadFifo s).xmitFifo.isEmpty then some ((loadFifo s).setLsr UART_LSR_THRE)
      else some (loadFifo s)
    else if has s.lsr UART_LSR_THRE then none
    else some (({ s with tsr := s.thr }.setLsr UART_LSR_THRE).clearLsr UART_LSR_TEMT)
  else some s

/-- The last part of `Transmit`, once the byte has left the shift register. -/
def transmitted (host : Host) (s : Serial) : Serial :=
  let s := { s with lastXmitTs := host.now }
  if has s.lsr UART_LSR_THRE then
    updateIRQ { s.setLsr UART_LSR_TEMT with thrIpending := true }
  else s

def transmit (host : Host) (s : Serial) : Serial :=
  match loadTsr s with
  | none => s
  | some s =>
    if has s.mcr UART_MCR_LOOP then transmitted host (receive host [s.tsr] s)
    else
      let s := s.emit (.write s.tsr host.writeAccepted)
      if !host.writeAccepted then
        if s.tsrRetry < MAX_XMIT_RETRY then { s with tsrRetry := s.tsrRetry + 1 }
        else transmitted host { s with tsrRetry := 0 }
      else transmitted host { s with tsrRetry := 0 }

def byteOf (b : Byte) : Word := b.setWidth 32

/-- The modem status read when it is polled. -/
def readMsl (s : Serial) : Serial := if s.pollMsl ≥ 0 then updateMSL s else s

/-- The byte read from RBR, before the interrupt is recomputed. -/
def readRbr (host : Host) (s : Serial) : Word × Serial :=
  if has s.fcr UART_FCR_FE then
    let value := byteOf (s.recvFifo.pop.2.getD 0)
    let s := { s with recvFifo := s.recvFifo.pop.1 }
    let s :=
      if s.recvFifo.count = 0 then s.clearLsr (UART_LSR_DR ||| UART_LSR_BI)
      else { s with fifoTimeoutTimer := some (host.now + s.charTransmitTime * 4) }
    (value, { s with timeoutIpending := false })
  else (byteOf s.rbr, s.clearLsr (UART_LSR_DR ||| UART_LSR_BI))

/-- In loopback mode no data is asked for. -/
def acceptInput (s : Serial) : Serial :=
  if !has s.mcr UART_MCR_LOOP then s.emit .acceptInput else s

/-- `IORead`: the value stored for the guest and the device afterwards. -/
def ioRead (host : Host) (port : Word) (s : Serial) : Word × Serial :=
  match (port &&& 7).toNat with
  | 1 =>
    if has s.lcr UART_LCR_DLAB then (((s.divider >>> 8) &&& 0xff).setWidth 32, s)
    else (byteOf s.ier, s)
  | 2 =>
    if s.iir &&& UART_IIR_ID = UART_IIR_THRI then
      (byteOf s.iir, updateIRQ { s with thrIpending := false })
    else (byteOf s.iir, s)
  | 3 => (byteOf s.lcr, s)
  | 4 => (byteOf s.mcr, s)
  | 5 =>
    if has s.lsr (UART_LSR_BI ||| UART_LSR_OE) then
      (byteOf s.lsr, updateIRQ (s.clearLsr (UART_LSR_BI ||| UART_LSR_OE)))
    else (byteOf s.lsr, s)
  | 6 =>
    if has s.mcr UART_MCR_LOOP then
      ((byteOf (s.mcr &&& 0x0c)) <<< 4 ||| (byteOf (s.mcr &&& 0x02)) <<< 3 |||
        (byteOf (s.mcr &&& 0x01)) <<< 5, s)
    else if has (readMsl s).msr UART_MSR_ANY_DELTA then
      (byteOf (readMsl s).msr, updateIRQ { readMsl s with msr := (readMsl s).msr &&& 0xF0 })
    else (byteOf (readMsl s).msr, readMsl s)
  | 7 => (byteOf s.scr, s)
  | _ =>
    if has s.lcr UART_LCR_DLAB then ((s.divider &&& 0xff).setWidth 32, s)
    else ((readRbr host s).1, acceptInput (updateIRQ (readRbr host s).2))

theorem port_lt (port : Word) : (port &&& 7).toNat < 8 := by
  rw [BitVec.toNat_and]
  exact lt_of_le_of_lt Nat.and_le_right (by decide)

/-- The port that is left is that of THR and RBR. -/
theorem port_eq_zero {port : Word} (h1 : (port &&& 7).toNat ≠ 1) (h2 : (port &&& 7).toNat ≠ 2)
    (h3 : (port &&& 7).toNat ≠ 3) (h4 : (port &&& 7).toNat ≠ 4) (h5 : (port &&& 7).toNat ≠ 5)
    (h6 : (port &&& 7).toNat ≠ 6) (h7 : (port &&& 7).toNat ≠ 7) : port &&& 7 = 0 := by
  have hlt := port_lt port
  refine BitVec.eq_of_toNat_eq (show (port &&& 7).toNat = 0 from ?_)
  omega

/-- The read takes a byte from RBR. -/
def ReadsRbr (s : Serial) (port : Word) : Prop := port &&& 7 = 0 ∧ has s.lcr UART_LCR_DLAB = false

/-- What the reads of the registers leave. -/
theorem ioRead_cases {motive : Serial → Prop} (host : Host) (port : Word) (s : Serial)
    (same : ¬ ReadsRbr s port → motive s)
    (iir : ¬ ReadsRbr s port → motive (updateIRQ { s with thrIpending := false }))
    (lsr : ¬ ReadsRbr s port → motive (updateIRQ (s.clearLsr (UART_LSR_BI ||| UART_LSR_OE))))
    (msr : ¬ ReadsRbr s port → motive (readMsl s))
    (delta : ¬ ReadsRbr s port →
      motive (updateIRQ { readMsl s with msr := (readMsl s).msr &&& 0xF0 }))
    (rbr : ReadsRbr s port → motive (acceptInput (updateIRQ (readRbr host s).2))) :
    motive (ioRead host port s).2 := by
  have hother (hne : (port &&& 7).toNat ≠ 0) : ¬ ReadsRbr s port :=
    fun h => hne (congrArg BitVec.toNat h.1)
  unfold ioRead
  split
  · next h1 =>
    split
    · exact same (hother (by omega))
    · exact same (hother (by omega))
  · next h2 =>
    split
    · exact iir (hother (by omega))
    · exact same (hother (by omega))
  · next h3 => exact same (hother (by omega))
  · next h4 => exact same (hother (by omega))
  · next h5 =>
    split
    · exact lsr (hother (by omega))
    · exact same (hother (by omega))
  · next h6 =>
    split
    · exact same (hother (by omega))
    · split
      · exact delta (hother (by omega))
      · exact msr (hother (by omega))
  · next h7 => exact same (hother (by omega))
  · next h1 h2 h3 h4 h5 h6 h7 =>
    cases hd : has s.lcr UART_LCR_DLAB with
    | true =>
      rw [if_pos rfl]
      exact same fun h => absurd (hd.symm.trans h.2) (by decide)
    | false =>
      rw [if_neg Bool.false_ne_true]
      exact rbr ⟨port_eq_zero h1 h2 h3 h4 h5 h6 h7, hd⟩

/-- The write to THR. -/
def writeThr (host : Host) (value : Word) (s : Serial) : Serial :=
  let s := { s with thr := value.setWidth 8 }
  let s :=
    if has s.fcr UART_FCR_FE then
      let fifo := if s.xmitFifo.isFull then s.xmitFifo.discard.1 else s.xmitFifo
      { s with xmitFifo := (fifo.push s.thr).1 }.clearLsr UART_LSR_TEMT
    else s
  let s := { s with thrIpending := false }.clearLsr UART_LSR_THRE
  transmit host (updateIRQ s)

/-- Modem polling turned on or off by IER. -/
def pollModem (s : Serial) : Serial :=
  if s.pollMsl ≥ 0 then
    if has s.ier UART_IER_MSI then updateMSL { s with pollMsl := 1 }
    else { s with modemStatusPoll := none, pollMsl := 0 }
  else s

/-- The write to IER. -/
def writeIer (value : Word) (s : Serial) : Serial :=
  let s := pollModem { s with ier := (value &&& 0x0f).setWidth 8 }
  if has s.lsr UART_LSR_THRE then updateIRQ { s with thrIpending := true } else s

/-- The trigger level that the two high bits of FCR select. -/
def triggerLevel (value : Byte) : Nat :=
  if value &&& 0xC0 = 0x00 then 1
  else if value &&& 0xC0 = 0x40 then 4
  else if value &&& 0xC0 = 0x80 then 8
  else 14

/-- The write to FCR. -/
def writeFcr (value : Word) (s : Serial) : Serial :=
  let value : Byte := value.setWidth 8
  if s.fcr = value then s
  else
    let value :=
      if has (value ^^^ s.fcr) UART_FCR_FE then value ||| (UART_FCR_XFR ||| UART_FCR_RFR)
      else value
    let s :=
      if has value UART_FCR_RFR then
        { s with
          fifoTimeoutTimer := none
          timeoutIpending := false
          recvFifo := s.recvFifo.clear }
      else s
    let s := if has value UART_FCR_XFR then { s with xmitFifo := s.xmitFifo.clear } else s
    let s :=
      if has value UART_FCR_FE then
        { s with iir := s.iir ||| UART_IIR_FE, recvFifoITL := triggerLevel value }
      else { s with iir := s.iir &&& ~~~UART_IIR_FE }
    updateIRQ { s with fcr := value &&& 0xC9 }

/-- The write to LCR. -/
def writeLcr (host : Host) (value : Word) (s : Serial) : Serial :=
  let s := updateParameters host { s with lcr := value.setWidth 8 }
  let breakEnable := (value >>> 6) &&& 1 == 1
  if breakEnable ≠ s.lastBreakEnable then
    { s with lastBreakEnable := breakEnable }.emit (.breakEnable breakEnable)
  else s

/-- The write to MCR. -/
def writeMcr (host : Host) (value : Word) (s : Serial) : Serial :=
  let oldMcr := s.mcr
  let s := { s with mcr := (value &&& 0x1f).setWidth 8 }
  if has (value.setWidth 8) UART_MCR_LOOP then s
  else if s.pollMsl ≥ 0 ∧ oldMcr ≠ s.mcr then
    { s with modemStatusPoll := some (host.now + s.charTransmitTime) }
  else s

def ioWrite (host : Host) (port value : Word) (s : Serial) : Serial :=
  match (port &&& 7).toNat with
  | 1 =>
    if has s.lcr UART_LCR_DLAB then
      updateParameters host
        { s with divider := (s.divider &&& 0x00ff) ||| (value <<< 8).setWidth 16 }
    else writeIer value s
  | 2 => writeFcr value s
  | 3 => writeLcr host value s
  | 4 => writeMcr host value s
  | 5 => s
  | 6 => s
  | 7 => { s with scr := value.setWidth 8 }
  | _ =>
    if has s.lcr UART_LCR_DLAB then
      updateParameters host { s with divider := (s.divider &&& 0xff00) ||| value.setWidth 16 }
    else writeThr host value s

/-- `Event`: the only event handled is a break. -/
def event (isBreak : Bool) (s : Serial) : Serial := if isBreak then receiveBreak s else s

/-- The device as constructed, with the contents of the two new arrays. -/
def construct (host : Host) (recvData xmitData : Nat → Byte) : Serial :=
  reset host
    { divider := 0, rbr := 0, thr := 0, tsr := 0, ier := 0, iir := 0, lcr := 0, mcr := 0
      lsr := 0, msr := 0, scr := 0, fcr := 0, thrIpending := false, lastBreakEnable := false
      baudbase := 115200, tsrRetry := 0, lastXmitTs := 0
      recvFifo := Fifo.new recvData UART_FIFO_LENGTH
      xmitFifo := Fifo.new xmitData UART_FIFO_LENGTH
      recvFifoITL := 14, timeoutIpending := false, charTransmitTime := 0, pollMsl := 0
      fifoTimeoutTimer := none, modemStatusPoll := none, log := [] }

/-- One operation on the device. The callback of each timer is the one the
constructor gives it. -/
inductive Op where
  | read (port : Word)
  | write (port value : Word)
  | receive (buf : List Byte)
  | event (isBreak : Bool)
  | transmit
  | fifoTimeoutTimer
  | modemStatusPoll
  | reset

def Op.apply (op : Op) (host : Host) (s : Serial) : Serial :=
  match op with
  | .read port => (ioRead host port s).2
  | .write port value => ioWrite host port value s
  | .receive buf => Device.receive host buf s
  | .event isBreak => Device.event isBreak s
  | .transmit => Device.transmit host s
  | .fifoTimeoutTimer => updateMSL s
  | .modemStatusPoll => fifoTimeoutInterrupt s
  | .reset => Device.reset host s

end OpenXbox.Uart.Device
