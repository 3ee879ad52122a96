import OpenXbox.Uart.Transmission

/-!
# What the UART receives

In FIFO mode the back-end may deliver as many bytes as `CanReceive` says. Then the
receive FIFO never overflows, and what the guest reads while data is ready is what has
been delivered.
-/

namespace OpenXbox.Uart.Reception

open OpenXbox.Common OpenXbox.Lib.Run OpenXbox.Uart.Device OpenXbox.Uart.Coherence
  OpenXbox.Uart.Transmission

/-- `CanReceive`: how many bytes the device takes now. -/
def canReceive (s : Serial) : Nat :=
  if has s.fcr UART_FCR_FE then
    if s.recvFifo.count < UART_FIFO_LENGTH then
      if s.recvFifo.count ≤ s.recvFifoITL then s.recvFifoITL - s.recvFifo.count else 1
    else 0
  else if has s.lsr UART_LSR_DR then 0 else 1

/-- The byte that the guest reads from RBR while data is ready. -/
def readByte (s : Serial) (i : Op × Host) : Option Byte :=
  match i with
  | (.read port, host) =>
    if port &&& 7 = 0 ∧ has s.lcr UART_LCR_DLAB = false ∧ has s.lsr UART_LSR_DR = true then
      some ((ioRead host port s).1.setWidth 8)
    else none
  | _ => none

/-- The bytes that the guest reads from RBR in a run, while data is ready. -/
def readBytes : Serial → List (Op × Host) → List Byte
  | _, [] => []
  | s, i :: is => (readByte s i).toList ++ readBytes (i.1.apply i.2 s) is

/-- The bytes that the back-end delivers in a run. -/
def delivered : List (Op × Host) → List Byte
  | [] => []
  | (.receive buf, _) :: is => buf ++ delivered is
  | _ :: is => delivered is

/-- A delivery of at most what `CanReceive` says, and no break, loopback, reset or write to
FCR that clears the receive FIFO or turns FIFO mode off. -/
def Orderly (s : Serial) (i : Op × Host) : Prop :=
  match i.1 with
  | .receive buf => 1 ≤ buf.length ∧ buf.length ≤ canReceive s
  | .event isBreak => isBreak = false
  | .write port value =>
    (port &&& 7 = 4 → has (value.setWidth 8) UART_MCR_LOOP = false) ∧
      (port &&& 7 = 2 → has (value.setWidth 8) UART_FCR_FE = true ∧
        has (value.setWidth 8) UART_FCR_RFR = false)
  | .reset => False
  | _ => True

/-- The overrun bit is not set by the operation. -/
def KeepsOverrun (s : Serial) (i : Op × Host) : Prop :=
  has (i.1.apply i.2 s).lsr UART_LSR_OE = true → has s.lsr UART_LSR_OE = true

instance (s : Serial) (i : Op × Host) : Decidable (Orderly s i) :=
  match i with
  | (.receive buf, _) => inferInstanceAs (Decidable (1 ≤ buf.length ∧ buf.length ≤ canReceive s))
  | (.event isBreak, _) => inferInstanceAs (Decidable (isBreak = false))
  | (.write _ _, _) => inferInstanceAs (Decidable ((_ → _) ∧ (_ → _ ∧ _)))
  | (.reset, _) => inferInstanceAs (Decidable False)
  | (.read _, _) | (.transmit, _) | (.fifoTimeoutTimer, _) | (.modemStatusPoll, _) =>
    inferInstanceAs (Decidable True)

/-! ## The receive side -/

/-- What the receive side consists of. -/
structure Receiver where
  fifo : Fifo Byte
  itl : Nat
  ready : Bool
  overrun : Bool
  fifoMode : Bool
  loop : Bool

def receiver (s : Serial) : Receiver :=
  ⟨s.recvFifo, s.recvFifoITL, has s.lsr UART_LSR_DR, has s.lsr UART_LSR_OE,
    has s.fcr UART_FCR_FE, has s.mcr UART_MCR_LOOP⟩

section Same

variable (s : Serial) (host : Host)

theorem receiver_updateIRQ : receiver (updateIRQ s) = receiver s := by
  rw [updateIRQ_eq]
  rfl

theorem receiver_setLsr {mask : Byte} (hdr : mask &&& UART_LSR_DR = 0#8)
    (hoe : mask &&& UART_LSR_OE = 0#8) : receiver (s.setLsr mask) = receiver s := by
  simp only [receiver, Serial.setLsr, has_or hdr, has_or hoe]

theorem receiver_clearLsr {mask : Byte} (hdr : ~~~mask &&& UART_LSR_DR = UART_LSR_DR)
    (hoe : ~~~mask &&& UART_LSR_OE = UART_LSR_OE) :
    receiver (s.clearLsr mask) = receiver s := by
  simp only [receiver, Serial.clearLsr, has_clear hdr, has_clear hoe]

theorem receiver_readMsl : receiver (readMsl s) = receiver s := by
  rw [readMsl]
  split <;> rfl

theorem receiver_acceptInput : receiver (acceptInput s) = receiver s := by
  rw [acceptInput]
  split <;> rfl

theorem receiver_updateParameters : receiver (updateParameters host s) = receiver s := by
  rw [updateParameters]
  split <;> rfl

theorem receiver_writeIer (value : Word) : receiver (writeIer value s) = receiver s := by
  have hpoll : receiver (pollModem { s with ier := (value &&& 0x0f).setWidth 8 }) = receiver s := by
    rw [pollModem]
    split
    · split <;> rfl
    · rfl
  rw [writeIer]
  split
  · exact (receiver_updateIRQ _).trans hpoll
  · exact hpoll

theorem receiver_writeLcr (value : Word) : receiver (writeLcr host value s) = receiver s := by
  have hparams := receiver_updateParameters { s with lcr := value.setWidth 8 } host
  rw [writeLcr]
  split
  · exact hparams
  · exact hparams

theorem receiver_writeMcr (value : Word) : receiver (writeMcr host value s) =
    { receiver s with loop := has ((value &&& 0x1f).setWidth 8) UART_MCR_LOOP } := by
  rw [writeMcr]
  split
  · rfl
  · split <;> rfl

theorem receiver_transmitted : receiver (transmitted host s) = receiver s := by
  rw [transmitted]
  dsimp only
  split
  · exact (receiver_updateIRQ _).trans (receiver_setLsr s (by decide) (by decide))
  · rfl

theorem receiver_loadTsr {u : Serial} (h : loadTsr s = some u) : receiver u = receiver s := by
  have hset (x : Serial) : receiver (x.setLsr UART_LSR_THRE) = receiver x :=
    receiver_setLsr x (by decide) (by decide)
  have hfifo : receiver (loadFifo s) = receiver s := by
    rw [loadFifo]
    split <;> rfl
  rw [loadTsr] at h
  split at h
  · split at h
    · split at h
      · obtain rfl := Option.some.inj h
        exact (hset _).trans hfifo
      · obtain rfl := Option.some.inj h
        exact hfifo
    · split at h
      · cases h
      · obtain rfl := Option.some.inj h
        exact (receiver_clearLsr _ (by decide) (by decide)).trans (hset _)
  · obtain rfl := Option.some.inj h
    rfl

theorem receiver_transmit (hloop : has s.mcr UART_MCR_LOOP = false) :
    receiver (transmit host s) = receiver s := by
  rw [transmit]
  cases hl : loadTsr s with
  | none => rfl
  | some u =>
    have hu := receiver_loadTsr s hl
    have hoff : has u.mcr UART_MCR_LOOP = false := (congrArg Receiver.loop hu).trans hloop
    dsimp only
    rw [hoff, if_neg Bool.false_ne_true]
    split
    · split
      · exact hu
      · exact (receiver_transmitted _ host).trans hu
    · exact (receiver_transmitted _ host).trans hu

/-- There is a byte to send while THR is not empty. -/
theorem loadTsr_isSome {s : Serial} (h : has s.lsr UART_LSR_THRE = false) :
    (loadTsr s).isSome = true := by
  rw [loadTsr, h, if_neg Bool.false_ne_true]
  split
  · split
    · split <;> rfl
    · rfl
  · rfl

/-- The write to THR comes down to `Transmit`, which has a byte to send. -/
theorem writeThr_transmit (value : Word) : ∃ u, writeThr host value s = transmit host u ∧
    receiver u = receiver s ∧ u.mcr = s.mcr ∧ (loadTsr u).isSome = true := by
  have hthre (x : Serial) : receiver (x.clearLsr UART_LSR_THRE) = receiver x :=
    receiver_clearLsr x (by decide) (by decide)
  have htemt (x : Serial) : receiver (x.clearLsr UART_LSR_TEMT) = receiver x :=
    receiver_clearLsr x (by decide) (by decide)
  have hempty (x : Serial) : has (updateIRQ (x.clearLsr UART_LSR_THRE)).lsr UART_LSR_THRE = false := by
    rw [updateIRQ_eq]
    dsimp only [Serial.clearLsr]
    rw [has, BitVec.and_assoc, show ~~~UART_LSR_THRE &&& UART_LSR_THRE = 0#8 by decide,
      BitVec.and_zero]
    rfl
  refine ⟨_, rfl, (receiver_updateIRQ _).trans ((hthre _).trans ?_), ?_, loadTsr_isSome (hempty _)⟩
  · dsimp only
    split
    · let pushed : Serial :=
        { s with
          thr := value.setWidth 8
          xmitFifo := ((if s.xmitFifo.isFull then s.xmitFifo.discard.1 else s.xmitFifo).push
            (value.setWidth 8)).1 }
      exact htemt pushed
    · rfl
  · rw [updateIRQ_eq]
    dsimp only
    split <;> rfl

theorem receiver_writeThr (value : Word) (hloop : has s.mcr UART_MCR_LOOP = false) :
    receiver (writeThr host value s) = receiver s := by
  obtain ⟨u, hu, hsame, hmcr, -⟩ := writeThr_transmit s host value
  rw [hu, receiver_transmit u host (hmcr ▸ hloop), hsame]

end Same

/-! ## Bytes in and out -/

/-- The receive FIFO has its size, and the trigger level is below it. -/
structure Receiver.Sound (x : Receiver) : Prop where
  fifo : x.fifo.WellFormed
  capacity : x.fifo.capacity = UART_FIFO_LENGTH
  itl : x.itl < UART_FIFO_LENGTH

section Bytes

variable {s : Serial}

/-- What is advertised fits in the FIFO. -/
theorem canReceive_le (hfe : has s.fcr UART_FCR_FE = true) (hs : (receiver s).Sound) :
    canReceive s ≤ UART_FIFO_LENGTH - s.recvFifo.count := by
  have hitl : s.recvFifoITL < UART_FIFO_LENGTH := hs.itl
  rw [canReceive, if_pos hfe]
  split
  · split <;> omega
  · exact Nat.zero_le _

theorem recvFifoPut_room (hroom : s.recvFifo.num < s.recvFifo.capacity) (b : Byte) :
    receiver (recvFifoPut b s) = { receiver s with fifo := (s.recvFifo.push b).1 } := by
  have hnot : (!s.recvFifo.isFull) = true := by
    rw [Bool.not_eq_true', Fifo.isFull, beq_eq_false_iff_ne]
    exact hroom.ne
  rw [recvFifoPut, if_pos hnot]
  rfl

/-- Bytes for which there is room go to the end of the FIFO. -/
theorem recvFifo_foldl {buf : List Byte} (hwf : s.recvFifo.WellFormed)
    (hroom : s.recvFifo.num + buf.length ≤ s.recvFifo.capacity) :
    ∃ f : Fifo Byte, receiver (buf.foldl (fun s b => recvFifoPut b s) s) =
        { receiver s with fifo := f } ∧
      f.WellFormed ∧ f.capacity = s.recvFifo.capacity ∧
      f.contents = s.recvFifo.contents ++ buf := by
  induction buf generalizing s with
  | nil => exact ⟨s.recvFifo, rfl, hwf, rfl, (List.append_nil _).symm⟩
  | cons b buf ih =>
    rw [List.length_cons] at hroom
    have hlt : s.recvFifo.num < s.recvFifo.capacity := by omega
    have hput := recvFifoPut_room hlt b
    have hpush : (recvFifoPut b s).recvFifo = (s.recvFifo.push b).1 := congrArg Receiver.fifo hput
    have heq := Fifo.push_eq hwf hlt b
    have hnum : (s.recvFifo.push b).1.num = s.recvFifo.num + 1 := by rw [heq]
    have hcap : (s.recvFifo.push b).1.capacity = s.recvFifo.capacity := by rw [heq]
    obtain ⟨f, hf, hfwf, hfcap, hfcont⟩ := ih (s := recvFifoPut b s)
      (hpush ▸ Fifo.wellFormed_push hwf b) (by rw [hpush, hnum, hcap]; omega)
    refine ⟨f, ?_, hfwf, by rw [hfcap, hpush, hcap], ?_⟩
    · rw [List.foldl_cons, hf, hput]
    · rw [hfcont, hpush, Fifo.contents_push hwf hlt, List.append_assoc]
      rfl

theorem receive_fifo (host : Host) {buf : List Byte} (hfe : has s.fcr UART_FCR_FE = true)
    (hwf : s.recvFifo.WellFormed) (hroom : s.recvFifo.num + buf.length ≤ s.recvFifo.capacity) :
    ∃ f : Fifo Byte, receiver (receive host buf s) = { receiver s with fifo := f, ready := true } ∧
      f.WellFormed ∧ f.capacity = s.recvFifo.capacity ∧
      f.contents = s.recvFifo.contents ++ buf := by
  obtain ⟨f, hf, hrest⟩ := recvFifo_foldl hwf hroom
  refine ⟨f, ?_, hrest⟩
  have hready (x : Serial) : receiver (x.setLsr UART_LSR_DR) = { receiver x with ready := true } := by
    have hset : has (x.lsr ||| UART_LSR_DR) UART_LSR_DR = true := by
      generalize x.lsr = lsr
      revert lsr
      decide
    have hoe : UART_LSR_DR &&& UART_LSR_OE = 0#8 := by decide
    simp only [receiver, Serial.setLsr, hset, has_or hoe]
  rw [receive, if_pos hfe]
  refine (receiver_updateIRQ _).trans ?_
  exact (hready _).trans (congrArg (fun x : Receiver => { x with ready := true }) hf)

end Bytes

/-! ## Every operation keeps the sizes -/

section Sizes

variable {s : Serial} {host : Host}

theorem triggerLevel_lt (value : Byte) : triggerLevel value < UART_FIFO_LENGTH := by
  rw [triggerLevel]
  split
  · decide
  · split
    · decide
    · split <;> decide

theorem sound_recvFifoPut (h : (receiver s).Sound) (b : Byte) :
    (receiver (recvFifoPut b s)).Sound := by
  have hwf : s.recvFifo.WellFormed := h.fifo
  by_cases hfull : s.recvFifo.num = s.recvFifo.capacity
  · have hset : (!s.recvFifo.isFull) = false := by
      rw [Fifo.isFull, hfull, beq_self_eq_true]
      rfl
    rw [recvFifoPut, hset]
    exact ⟨hwf, h.capacity, h.itl⟩
  · have hroom : s.recvFifo.num < s.recvFifo.capacity := lt_of_le_of_ne hwf.num_le hfull
    rw [recvFifoPut_room hroom]
    refine ⟨Fifo.wellFormed_push hwf b, ?_, h.itl⟩
    dsimp only
    rw [Fifo.push_eq hwf hroom]
    exact h.capacity

theorem sound_foldl (h : (receiver s).Sound) (buf : List Byte) :
    (receiver (buf.foldl (fun s b => recvFifoPut b s) s)).Sound := by
  induction buf generalizing s with
  | nil => exact h
  | cons b buf ih => exact ih (sound_recvFifoPut h b)

theorem sound_receive (h : (receiver s).Sound) (buf : List Byte) :
    (receiver (receive host buf s)).Sound := by
  rw [receive]
  split
  · have hput := sound_foldl h buf
    dsimp only
    rw [receiver_updateIRQ]
    exact ⟨hput.fifo, hput.capacity, hput.itl⟩
  · dsimp only
    rw [receiver_updateIRQ]
    split
    · exact ⟨h.fifo, h.capacity, h.itl⟩
    · exact ⟨h.fifo, h.capacity, h.itl⟩

theorem sound_transmit (h : (receiver s).Sound) : (receiver (transmit host s)).Sound := by
  rw [transmit]
  cases hl : loadTsr s with
  | none => exact h
  | some u =>
    have hu : (receiver u).Sound := receiver_loadTsr s hl ▸ h
    have hsent (x : Serial) (hx : (receiver x).Sound) : (receiver (transmitted host x)).Sound :=
      (receiver_transmitted x host).symm ▸ hx
    dsimp only
    split
    · exact hsent _ (sound_receive hu _)
    · split
      · split
        · exact hu
        · exact hsent _ hu
      · exact hsent _ hu

theorem sound_writeThr (h : (receiver s).Sound) (value : Word) :
    (receiver (writeThr host value s)).Sound := by
  obtain ⟨u, hu, hsame, -, -⟩ := writeThr_transmit s host value
  rw [hu]
  exact sound_transmit (hsame.symm ▸ h)

theorem sound_writeFcr (h : (receiver s).Sound) (value : Word) :
    (receiver (writeFcr value s)).Sound := by
  by_cases hsame : s.fcr = value.setWidth 8
  · have hnop : writeFcr value s = s := if_pos hsame
    rw [hnop]
    exact h
  · generalize hbits : fcrValue s (value.setWidth 8) = bits
    have hrecv : (receiver (clearRecv s bits)).Sound := by
      rw [clearRecv]
      split
      · exact ⟨Fifo.wellFormed_clear h.fifo, h.capacity, h.itl⟩
      · exact h
    have hxmit : (receiver (clearXmit (clearRecv s bits) bits)).Sound := by
      rw [clearXmit]
      split <;> exact hrecv
    have htrigger : (receiver (setTrigger (clearXmit (clearRecv s bits) bits) bits)).Sound := by
      rw [setTrigger]
      split
      · exact ⟨hxmit.fifo, hxmit.capacity, triggerLevel_lt _⟩
      · exact hxmit
    rw [writeFcr_eq hsame, hbits, receiver_updateIRQ]
    exact ⟨htrigger.fifo, htrigger.capacity, htrigger.itl⟩

theorem sound_readRbr (h : (receiver s).Sound) : (receiver (readRbr host s).2).Sound := by
  have hwf : s.recvFifo.WellFormed := h.fifo
  have hcap : s.recvFifo.pop.1.capacity = UART_FIFO_LENGTH := by
    rw [Fifo.pop]
    split
    · exact h.capacity
    · exact h.capacity
  rw [readRbr]
  split
  · dsimp only
    split
    · exact ⟨Fifo.wellFormed_pop hwf, hcap, h.itl⟩
    · exact ⟨Fifo.wellFormed_pop hwf, hcap, h.itl⟩
  · exact ⟨hwf, h.capacity, h.itl⟩

theorem sound_ioRead (h : (receiver s).Sound) (port : Word) :
    (receiver (ioRead host port s).2).Sound := by
  have hkeep {u : Serial} (hu : receiver u = receiver s) : (receiver u).Sound := hu.symm ▸ h
  refine ioRead_cases (motive := fun t => (receiver t).Sound) host port s (fun _ => h)
    (fun _ => hkeep (receiver_updateIRQ _)) (fun _ => ?_) (fun _ => hkeep (receiver_readMsl s))
    (fun _ => hkeep ((receiver_updateIRQ _).trans (receiver_readMsl s))) fun _ => ?_
  · rw [receiver_updateIRQ]
    exact ⟨h.fifo, h.capacity, h.itl⟩
  · rw [receiver_acceptInput, receiver_updateIRQ]
    exact sound_readRbr h

theorem sound_ioWrite (h : (receiver s).Sound) (port value : Word) :
    (receiver (ioWrite host port value s)).Sound := by
  have hkeep {u : Serial} (hu : receiver u = receiver s) : (receiver u).Sound := hu.symm ▸ h
  unfold ioWrite
  split
  · split
    · exact hkeep (receiver_updateParameters _ host)
    · exact hkeep (receiver_writeIer s value)
  · exact sound_writeFcr h value
  · exact hkeep (receiver_writeLcr s host value)
  · rw [receiver_writeMcr]
    exact ⟨h.fifo, h.capacity, h.itl⟩
  · exact h
  · exact h
  · exact h
  · split
    · exact hkeep (receiver_updateParameters _ host)
    · exact sound_writeThr h value

theorem sound_apply (h : (receiver s).Sound) (op : Op) : (receiver (op.apply host s)).Sound := by
  cases op with
  | read port => exact sound_ioRead h port
  | write port value => exact sound_ioWrite h port value
  | receive buf => exact sound_receive h buf
  | event isBreak =>
    cases isBreak with
    | true =>
      have hput := sound_recvFifoPut (s := { s with rbr := 0 }) h 0
      rw [Op.apply, event, if_pos rfl, receiveBreak, receiver_updateIRQ]
      exact ⟨hput.fifo, hput.capacity, hput.itl⟩
    | false => exact h
  | transmit => exact sound_transmit h
  | fifoTimeoutTimer => exact h
  | modemStatusPoll =>
    rw [Op.apply, fifoTimeoutInterrupt]
    split
    · exact (receiver_updateIRQ _).symm ▸ h
    · exact h
  | reset => exact ⟨Fifo.wellFormed_clear h.fifo, h.capacity, h.itl⟩

end Sizes

/-! ## The operations -/

/-- In FIFO mode without loopback, data is ready while the FIFO is not empty, and what has
been read comes before what is in the FIFO. -/
structure Receiver.Receives (x : Receiver) (read delivered : List Byte) : Prop where
  sound : x.Sound
  fifoMode : x.fifoMode = true
  loop : x.loop = false
  ready : x.ready = true ↔ x.fifo.contents ≠ []
  bytes : read ++ x.fifo.contents = delivered

section Ops

variable {s : Serial} {read sent : List Byte} {host : Host}

/-- A delivery that fits does not set the overrun bit. -/
theorem receives_receive (host : Host) {buf : List Byte} (h : (receiver s).Receives read sent)
    (hpos : 1 ≤ buf.length) (hle : buf.length ≤ canReceive s) :
    (receiver (receive host buf s)).Receives read (sent ++ buf) ∧
      (receiver (receive host buf s)).overrun = (receiver s).overrun := by
  have hcan := canReceive_le h.fifoMode h.sound
  have hwf : s.recvFifo.WellFormed := h.sound.fifo
  have hcap : s.recvFifo.capacity = UART_FIFO_LENGTH := h.sound.capacity
  have hroom : s.recvFifo.num + buf.length ≤ s.recvFifo.capacity := by
    have hnum := hwf.num_le
    rw [Fifo.count] at hcan
    omega
  obtain ⟨f, hf, hfwf, hfcap, hcont⟩ := receive_fifo host h.fifoMode hwf hroom
  have hne : f.contents ≠ [] := by
    rw [hcont]
    intro hnil
    rw [(List.append_eq_nil_iff.mp hnil).2] at hpos
    exact absurd hpos (by decide)
  rw [hf]
  refine ⟨⟨⟨hfwf, hfcap.trans hcap, h.sound.itl⟩, h.fifoMode, h.loop, iff_of_true rfl hne, ?_⟩, rfl⟩
  have hbytes : read ++ s.recvFifo.contents = sent := h.bytes
  rw [hcont, ← List.append_assoc, hbytes]

theorem readRbr_fifo (host : Host) (hfe : has s.fcr UART_FCR_FE = true) :
    receiver (readRbr host s).2 = { receiver s with
        fifo := s.recvFifo.pop.1
        ready := if s.recvFifo.pop.1.num = 0 then false else has s.lsr UART_LSR_DR } ∧
      (readRbr host s).1 = byteOf (s.recvFifo.pop.2.getD 0) := by
  have hclear : has (s.lsr &&& ~~~(UART_LSR_DR ||| UART_LSR_BI)) UART_LSR_DR = false := by
    rw [has, BitVec.and_assoc,
      show ~~~(UART_LSR_DR ||| UART_LSR_BI) &&& UART_LSR_DR = 0#8 by decide, BitVec.and_zero]
    rfl
  have hoe : ~~~(UART_LSR_DR ||| UART_LSR_BI) &&& UART_LSR_OE = UART_LSR_OE := by decide
  rw [readRbr, if_pos hfe]
  refine ⟨?_, rfl⟩
  by_cases hz : s.recvFifo.pop.1.num = 0
  · have hcount : ({ s with recvFifo := s.recvFifo.pop.1 } : Serial).recvFifo.count = 0 := hz
    rw [if_pos hz]
    dsimp only
    rw [if_pos hcount]
    simp only [receiver, Serial.clearLsr, hclear, has_clear hoe]
  · have hcount : ¬ ({ s with recvFifo := s.recvFifo.pop.1 } : Serial).recvFifo.count = 0 := hz
    rw [if_neg hz]
    dsimp only
    rw [if_neg hcount]
    rfl

/-- A read of RBR while data is ready takes the first byte; one of an empty FIFO nothing. -/
theorem receives_readRbr (host : Host) (h : (receiver s).Receives read sent) :
    (receiver (readRbr host s).2).Receives
        (read ++ if has s.lsr UART_LSR_DR then [(readRbr host s).1.setWidth 8] else []) sent ∧
      (receiver (readRbr host s).2).overrun = (receiver s).overrun := by
  obtain ⟨hrecv, hvalue⟩ := readRbr_fifo host h.fifoMode
  have hwf : s.recvFifo.WellFormed := h.sound.fifo
  have hready : has s.lsr UART_LSR_DR = true ↔ s.recvFifo.contents ≠ [] := h.ready
  have hbytes : read ++ s.recvFifo.contents = sent := h.bytes
  rw [hrecv, hvalue]
  refine ⟨?_, rfl⟩
  by_cases hz : s.recvFifo.num = 0
  · have hnil := (Fifo.contents_eq_nil_iff _).mpr hz
    have hpop : s.recvFifo.pop.1 = s.recvFifo := by rw [Fifo.pop, if_pos hz]
    have hnot : has s.lsr UART_LSR_DR = false :=
      Bool.eq_false_iff.mpr fun hdr => hready.mp hdr hnil
    rw [hpop, if_pos hz, hnot, if_neg Bool.false_ne_true, List.append_nil]
    exact ⟨⟨hwf, h.sound.capacity, h.sound.itl⟩, h.fifoMode, h.loop,
      iff_of_false Bool.false_ne_true (not_not.mpr hnil), hbytes⟩
  · obtain ⟨x, hx, hcont⟩ := Fifo.contents_pop hwf hz
    have hdr : has s.lsr UART_LSR_DR = true := hready.mpr (by rw [hcont]; exact List.cons_ne_nil _ _)
    have hcap : s.recvFifo.pop.1.capacity = UART_FIFO_LENGTH := by
      rw [Fifo.pop_eq hwf hz]
      exact h.sound.capacity
    have hbyte : (byteOf ((some x).getD 0)).setWidth 8 = x := by
      rw [byteOf, BitVec.setWidth_setWidth_of_le _ (by decide)]
      exact BitVec.setWidth_eq x
    rw [hx, hdr, if_pos rfl, hbyte]
    refine ⟨⟨Fifo.wellFormed_pop hwf, hcap, h.sound.itl⟩, h.fifoMode, h.loop, ?_, ?_⟩
    · dsimp only
      rw [ne_eq, Fifo.contents_eq_nil_iff]
      split
      · next hz' => exact iff_of_false Bool.false_ne_true (not_not.mpr hz')
      · next hz' => exact iff_of_true rfl hz'
    · rw [hcont] at hbytes
      rw [List.append_assoc]
      exact hbytes

theorem Receiver.Receives.congr {x y : Receiver} (h : x.Receives read sent) (he : y = x) :
    y.Receives read sent := he ▸ h

theorem ioRead_rbr {port : Word} (hport : port &&& 7 = 0) (hd : has s.lcr UART_LCR_DLAB = false) :
    (ioRead host port s).1 = (readRbr host s).1 := by
  rw [ioRead, hport]
  dsimp only
  rw [hd]
  rfl

/-- A read of LSR clears the overrun bit. -/
theorem receiver_clearOverrun (s : Serial) :
    receiver (s.clearLsr (UART_LSR_BI ||| UART_LSR_OE)) = { receiver s with overrun := false } := by
  have hdr : ~~~(UART_LSR_BI ||| UART_LSR_OE) &&& UART_LSR_DR = UART_LSR_DR := by decide
  have hoe : has (s.lsr &&& ~~~(UART_LSR_BI ||| UART_LSR_OE)) UART_LSR_OE = false := by
    rw [has, BitVec.and_assoc,
      show ~~~(UART_LSR_BI ||| UART_LSR_OE) &&& UART_LSR_OE = 0#8 by decide, BitVec.and_zero]
    rfl
  simp only [receiver, Serial.clearLsr, has_clear hdr, hoe]

/-- The byte of a read of RBR, if there is one. -/
theorem readByte_rbr {port : Word} (host : Host) (hport : port &&& 7 = 0)
    (hd : has s.lcr UART_LCR_DLAB = false) : (readByte s (.read port, host)).toList =
      if has s.lsr UART_LSR_DR then [(readRbr host s).1.setWidth 8] else [] := by
  rw [readByte]
  cases hdr : has s.lsr UART_LSR_DR with
  | true =>
    rw [if_pos ⟨hport, hd, rfl⟩, if_pos rfl, ioRead_rbr hport hd]
    rfl
  | false =>
    rw [if_neg fun hb => Bool.false_ne_true hb.2.2, if_neg Bool.false_ne_true]
    rfl

/-- Reads keep the bytes in order, and do not set the overrun bit. -/
theorem receives_ioRead (host : Host) (port : Word) (h : (receiver s).Receives read sent) :
    (receiver (ioRead host port s).2).Receives
        (read ++ (readByte s (.read port, host)).toList) sent ∧
      ((receiver (ioRead host port s).2).overrun = true → (receiver s).overrun = true) := by
  have hother (hno : ¬ ReadsRbr s port) : read ++ (readByte s (.read port, host)).toList = read := by
    have hnone : readByte s (.read port, host) = none := by
      rw [readByte, if_neg fun hb => hno ⟨hb.1, hb.2.1⟩]
    rw [hnone, Option.toList_none, List.append_nil]
  have hsame (hno : ¬ ReadsRbr s port) {u : Serial} (hu : receiver u = receiver s) :
      (receiver u).Receives (read ++ (readByte s (.read port, host)).toList) sent ∧
        ((receiver u).overrun = true → (receiver s).overrun = true) := by
    rw [hother hno, hu]
    exact ⟨h, id⟩
  refine ioRead_cases (motive := fun t =>
    (receiver t).Receives (read ++ (readByte s (.read port, host)).toList) sent ∧
      ((receiver t).overrun = true → (receiver s).overrun = true)) host port s
    (fun hno => hsame hno rfl) (fun hno => hsame hno (receiver_updateIRQ _)) (fun hno => ?_)
    (fun hno => hsame hno (receiver_readMsl s))
    (fun hno => hsame hno ((receiver_updateIRQ _).trans (receiver_readMsl s))) fun hrbr => ?_
  · rw [receiver_updateIRQ, receiver_clearOverrun, hother hno]
    exact ⟨⟨⟨h.sound.fifo, h.sound.capacity, h.sound.itl⟩, h.fifoMode, h.loop, h.ready, h.bytes⟩,
      fun hf => absurd hf Bool.false_ne_true⟩
  · obtain ⟨hrecv, hover⟩ := receives_readRbr host h
    rw [receiver_acceptInput, receiver_updateIRQ, readByte_rbr host hrbr.1 hrbr.2]
    exact ⟨hrecv, fun ho => hover.symm.trans ho⟩

/-- The write to FCR that leaves FIFO mode on and does not ask for a clear. -/
theorem receiver_writeFcr {value : Word} (hne : s.fcr ≠ value.setWidth 8)
    (hon : has s.fcr UART_FCR_FE = true) (hfe : has (value.setWidth 8) UART_FCR_FE = true)
    (hrfr : has (value.setWidth 8) UART_FCR_RFR = false) :
    receiver (writeFcr value s) = { receiver s with itl := triggerLevel (value.setWidth 8) } := by
  have hsame : has (value.setWidth 8 ^^^ s.fcr) UART_FCR_FE = false := by
    rw [has_fe] at hon hfe ⊢
    rw [BitVec.getLsbD_xor, hon, hfe]
    rfl
  have hbits : fcrValue s (value.setWidth 8) = value.setWidth 8 := by
    rw [fcrValue, hsame]
    rfl
  have hrecv : clearRecv s (value.setWidth 8) = s := by
    rw [clearRecv, hrfr]
    rfl
  have hxmit (bits : Byte) : receiver (clearXmit s bits) = receiver s := by
    rw [clearXmit]
    split <;> rfl
  have htrigger (u : Serial) : receiver (setTrigger u (value.setWidth 8)) =
      { receiver u with itl := triggerLevel (value.setWidth 8) } := by
    rw [setTrigger, if_pos hfe]
    rfl
  have hmode : has (value.setWidth 8 &&& 0xC9) UART_FCR_FE = has s.fcr UART_FCR_FE := by
    rw [has_fe] at hfe hon ⊢
    rw [has_fe, BitVec.getLsbD_and, hfe, hon]
    rfl
  have hall := (htrigger (clearXmit s (value.setWidth 8))).trans
    (congrArg (fun x : Receiver => { x with itl := triggerLevel (value.setWidth 8) }) (hxmit _))
  have hfcr (u : Serial) : receiver { u with fcr := value.setWidth 8 &&& 0xC9 } =
      { receiver u with fifoMode := has (value.setWidth 8 &&& 0xC9) UART_FCR_FE } := rfl
  rw [writeFcr_eq hne, hbits, hrecv, receiver_updateIRQ, hfcr, hall, hmode]
  rfl

/-- A change of the trigger level leaves the FIFO as it is. -/
theorem receives_writeFcr {value : Word} (h : (receiver s).Receives read sent)
    (hfe : has (value.setWidth 8) UART_FCR_FE = true)
    (hrfr : has (value.setWidth 8) UART_FCR_RFR = false) :
    (receiver (writeFcr value s)).Receives read sent ∧
      (receiver (writeFcr value s)).overrun = (receiver s).overrun := by
  by_cases hsame : s.fcr = value.setWidth 8
  · have hnop : writeFcr value s = s := if_pos hsame
    rw [hnop]
    exact ⟨h, rfl⟩
  · rw [receiver_writeFcr hsame h.fifoMode hfe hrfr]
    exact ⟨⟨⟨h.sound.fifo, h.sound.capacity, triggerLevel_lt _⟩, h.fifoMode, h.loop, h.ready, h.bytes⟩,
      rfl⟩

theorem receives_ioWrite {port value : Word} (h : (receiver s).Receives read sent)
    (horder : Orderly s (.write port value, host)) :
    (receiver (ioWrite host port value s)).Receives read sent ∧
      (receiver (ioWrite host port value s)).overrun = (receiver s).overrun := by
  have hsame {u : Serial} (hu : receiver u = receiver s) :
      (receiver u).Receives read sent ∧ (receiver u).overrun = (receiver s).overrun := by
    rw [hu]
    exact ⟨h, rfl⟩
  unfold ioWrite
  split
  · split
    · exact hsame (receiver_updateParameters _ host)
    · exact hsame (receiver_writeIer s value)
  · next h2 =>
    obtain ⟨hfe, hrfr⟩ := horder.2 (BitVec.eq_of_toNat_eq h2)
    exact receives_writeFcr h hfe hrfr
  · exact hsame (receiver_writeLcr s host value)
  · next h4 =>
    have hoff := has_loop value (horder.1 (BitVec.eq_of_toNat_eq h4))
    have hloop : (receiver s).loop = false := h.loop
    refine hsame ?_
    rw [receiver_writeMcr, hoff, ← hloop]
  · exact hsame rfl
  · exact hsame rfl
  · exact hsame rfl
  · split
    · exact hsame (receiver_updateParameters _ host)
    · exact hsame (receiver_writeThr s host value h.loop)

/-- One operation. -/
theorem receives_apply {i : Op × Host} (h : (receiver s).Receives read sent)
    (horder : Orderly s i) :
    (receiver (i.1.apply i.2 s)).Receives (read ++ (readByte s i).toList)
        (sent ++ delivered [i]) ∧
      ((receiver (i.1.apply i.2 s)).overrun = true → (receiver s).overrun = true) := by
  have hquiet {u : Serial}
      (hu : (receiver u).Receives read sent ∧ (receiver u).overrun = (receiver s).overrun) :
      (receiver u).Receives (read ++ []) (sent ++ []) ∧
        ((receiver u).overrun = true → (receiver s).overrun = true) := by
    rw [List.append_nil, List.append_nil]
    exact ⟨hu.1, fun ho => hu.2.symm.trans ho⟩
  obtain ⟨op, host⟩ := i
  cases op with
  | read port =>
    obtain ⟨hread, hover⟩ := receives_ioRead host port h
    refine ⟨?_, hover⟩
    rw [show delivered [(Op.read port, host)] = [] from rfl, List.append_nil]
    exact hread
  | write port value => exact hquiet (receives_ioWrite h horder)
  | receive buf =>
    obtain ⟨hrecv, hover⟩ := receives_receive host h horder.1 horder.2
    rw [delivered, delivered, List.append_nil]
    refine ⟨?_, fun ho => hover.symm.trans ho⟩
    rw [show readByte s (Op.receive buf, host) = none from rfl, Option.toList_none, List.append_nil]
    exact hrecv
  | event isBreak =>
    obtain rfl : isBreak = false := horder
    exact hquiet ⟨h, rfl⟩
  | transmit =>
    have hsend := receiver_transmit s host h.loop
    exact hquiet ⟨hsend.symm ▸ h, congrArg Receiver.overrun hsend⟩
  | fifoTimeoutTimer => exact hquiet ⟨h, rfl⟩
  | modemStatusPoll =>
    have htimeout : receiver (fifoTimeoutInterrupt s) = receiver s := by
      rw [fifoTimeoutInterrupt]
      split
      · exact receiver_updateIRQ _
      · rfl
    exact hquiet ⟨htimeout.symm ▸ h, congrArg Receiver.overrun htimeout⟩
  | reset => exact absurd horder id

end Ops

/-! ## Runs -/

theorem delivered_cons (i : Op × Host) (is : List (Op × Host)) :
    delivered (i :: is) = delivered [i] ++ delivered is := by
  obtain ⟨op, host⟩ := i
  cases op <;> simp [delivered]

theorem receives_run {s t : Serial} {read sent : List Byte} {is : List (Op × Host)}
    (h : (receiver s).Receives read sent) (horder : Guarded step Orderly s is)
    (ht : exec step s is = some t) :
    (receiver t).Receives (read ++ readBytes s is) (sent ++ delivered is) ∧
      Guarded step KeepsOverrun s is := by
  induction is generalizing s read sent with
  | nil =>
    obtain rfl : s = t := by simpa using ht
    rw [readBytes, delivered, List.append_nil, List.append_nil]
    exact ⟨h, trivial⟩
  | cons i is ih =>
    obtain ⟨hstep, hover⟩ := receives_apply h horder.1
    obtain ⟨hrun, hrest⟩ := ih hstep (horder.2 _ rfl) ht
    rw [List.append_assoc, List.append_assoc, ← delivered_cons] at hrun
    refine ⟨hrun, hover, fun u hu => ?_⟩
    obtain rfl := Option.some.inj hu
    exact hrest

theorem sound_construct (host : Host) (recvData xmitData : Nat → Byte) :
    (receiver (construct host recvData xmitData)).Sound := by
  have hwf : (Fifo.new recvData UART_FIFO_LENGTH).WellFormed :=
    Fifo.wellFormed_new recvData (by decide) (by decide)
  have hitl : 14 < UART_FIFO_LENGTH := by decide
  exact ⟨Fifo.wellFormed_clear hwf, rfl, hitl⟩

/-- From any state that the device can reach, in FIFO mode without loopback and with
nothing received: the overrun bit is never set, what the guest reads and what is left in
the FIFO is what has been delivered, and no more is asked for than there is room for. -/
theorem reads_delivered {host : Host} {recvData xmitData : Nat → Byte}
    (before : List (Op × Host)) {is : List (Op × Host)} {s t : Serial}
    (hs : exec step (construct host recvData xmitData) before = some s)
    (hfe : has s.fcr UART_FCR_FE = true) (hloop : has s.mcr UART_MCR_LOOP = false)
    (hempty : s.recvFifo.contents = []) (hdr : has s.lsr UART_LSR_DR = false)
    (horder : Guarded step Orderly s is) (ht : exec step s is = some t) :
    Guarded step KeepsOverrun s is ∧
      readBytes s is ++ t.recvFifo.contents = delivered is ∧
      canReceive t ≤ UART_FIFO_LENGTH - t.recvFifo.contents.length := by
  have hsound : (receiver s).Sound := by
    refine exec_invariant (I := fun u => (receiver u).Sound) ?_
      (sound_construct host recvData xmitData) hs
    intro u i v hu hv
    obtain rfl := Option.some.inj hv
    exact sound_apply hu i.1
  have hidle : (receiver s).Receives [] [] :=
    ⟨hsound, hfe, hloop, iff_of_false (Bool.eq_false_iff.mp hdr) (not_not.mpr hempty), hempty⟩
  obtain ⟨hrun, hover⟩ := receives_run hidle horder ht
  have hcan := canReceive_le hrun.fifoMode hrun.sound
  rw [Fifo.count, ← Fifo.length_contents] at hcan
  exact ⟨hover, hrun.bytes, hcan⟩

/-- FIFO mode, and two bytes of which the guest reads one. -/
theorem reads_first_of_two : ∃ s t,
    exec step (construct ⟨0, true⟩ (fun _ => 0) fun _ => 0) [(.write 2 0x41, ⟨0, true⟩)] = some s ∧
      exec step s [(.receive [0x41, 0x42], ⟨0, true⟩), (.read 0, ⟨0, true⟩)] = some t ∧
      readBytes s [(.receive [0x41, 0x42], ⟨0, true⟩), (.read 0, ⟨0, true⟩)] ++
        t.recvFifo.contents = [0x41, 0x42] :=
  ⟨_, _, rfl, rfl, (reads_delivered
    [(.write 2 0x41, ⟨0, true⟩)] rfl (by decide) (by decide) (by decide) (by decide)
    (by decide) rfl).2.1⟩

end OpenXbox.Uart.Reception
