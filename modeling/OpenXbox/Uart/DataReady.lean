import OpenXbox.Uart.Reception

/-!
# The data-ready bit of the UART

The bit is kept apart from the receive FIFO. A write to FCR that empties the FIFO does not
clear it; every other operation keeps the two in step.
-/

namespace OpenXbox.Uart.DataReady

open OpenXbox.Common OpenXbox.Lib.Run OpenXbox.Uart.Device OpenXbox.Uart.Coherence
  OpenXbox.Uart.Transmission OpenXbox.Uart.Reception

/-- The device, and whether a byte has been received that the guest has not read. The device
itself does not keep the latter: outside FIFO mode it is what the data-ready bit is for. -/
structure Watched where
  device : Serial
  unread : Bool

/-- The operation delivers a byte: the back-end's, that of a break, or the device's own in
loopback mode. -/
def delivers (s : Serial) (op : Op) : Bool :=
  match op with
  | .receive buf => !buf.isEmpty
  | .event isBreak => isBreak
  | .transmit => has s.mcr UART_MCR_LOOP && (loadTsr s).isSome
  | .write port _ => port &&& 7 == 0 && !has s.lcr UART_LCR_DLAB && has s.mcr UART_MCR_LOOP
  | _ => false

/-- The write to FCR changes the mode of the FIFOs. -/
def switchesMode (s : Serial) (value : Word) : Bool :=
  has (value.setWidth 8 ^^^ s.fcr) UART_FCR_FE

/-- The operation reads RBR, or throws away what has been received. -/
def takes (s : Serial) (op : Op) : Bool :=
  match op with
  | .read port => port &&& 7 == 0 && !has s.lcr UART_LCR_DLAB
  | .write port value => port &&& 7 == 2 && switchesMode s value
  | .reset => true
  | _ => false

def unreadAfter (s : Serial) (op : Op) (unread : Bool) : Bool :=
  delivers s op || (!takes s op && unread)

def watch (w : Watched) (i : Op × Host) : Option Watched :=
  some ⟨i.1.apply i.2 w.device, unreadAfter w.device i.1 w.unread⟩

/-- There is data for the guest to read. -/
def Watched.waiting (w : Watched) : Bool :=
  if has w.device.fcr UART_FCR_FE then !w.device.recvFifo.isEmpty else w.unread

/-- The data-ready bit says whether there is. -/
def InStep (w : Watched) : Prop := has w.device.lsr UART_LSR_DR = w.waiting

/-- The value has the receive FIFO emptied and FIFO mode on afterwards, or ends FIFO mode. -/
def Empties (s : Serial) (value : Word) : Prop :=
  s.fcr ≠ value.setWidth 8 ∧ (switchesMode s value = true ∨
    (has (value.setWidth 8) UART_FCR_FE = true ∧ has (value.setWidth 8) UART_FCR_RFR = true))

/-- A write to FCR that empties the receive FIFO, and a delivery of no bytes, meet the bit as
they leave it. -/
def Fits (w : Watched) (i : Op × Host) : Prop :=
  match i.1 with
  | .write port value =>
    port &&& 7 = 2 → Empties w.device value → has w.device.lsr UART_LSR_DR = false
  | .receive buf => buf = [] → has w.device.lsr UART_LSR_DR = true
  | _ => True

instance (w : Watched) : Decidable (InStep w) := inferInstanceAs (Decidable (_ = _))

instance (s : Serial) (value : Word) : Decidable (Empties s value) :=
  inferInstanceAs (Decidable (_ ∧ (_ ∨ _ ∧ _)))

instance (w : Watched) (i : Op × Host) : Decidable (Fits w i) :=
  match i with
  | (.write _ _, _) => inferInstanceAs (Decidable (_ → _ → _))
  | (.receive _, _) => inferInstanceAs (Decidable (_ → _))
  | (.read _, _) | (.event _, _) | (.transmit, _) | (.fifoTimeoutTimer, _) | (.modemStatusPoll, _)
  | (.reset, _) => inferInstanceAs (Decidable True)

/-! ## What the bit depends on -/

/-- The receive FIFO, the data-ready bit and the mode. -/
structure Input where
  fifo : Fifo Byte
  ready : Bool
  fifoMode : Bool

def input (s : Serial) : Input := ⟨s.recvFifo, has s.lsr UART_LSR_DR, has s.fcr UART_FCR_FE⟩

def Input.InStep (x : Input) (unread : Bool) : Prop :=
  x.ready = if x.fifoMode then !x.fifo.isEmpty else unread

section Operations

variable {s u : Serial} {host : Host} {unread : Bool}

theorem input_of_receiver (h : receiver u = receiver s) : input u = input s :=
  congrArg (fun x : Receiver => Input.mk x.fifo x.ready x.fifoMode) h

theorem input_updateIRQ (s : Serial) : input (updateIRQ s) = input s :=
  input_of_receiver (receiver_updateIRQ s)

theorem has_setDr (lsr : Byte) : has (lsr ||| UART_LSR_DR) UART_LSR_DR = true := by
  revert lsr
  decide

theorem input_recvFifoPut (b : Byte) (s : Serial) :
    input (recvFifoPut b s) = { input s with fifo := (recvFifoPut b s).recvFifo } := by
  have hdr : UART_LSR_OE &&& UART_LSR_DR = 0#8 := by decide
  rw [recvFifoPut]
  split
  · rfl
  · simp only [input, Serial.setLsr, has_or hdr]

/-- A FIFO that has been put a byte into is not empty, whether there was room or not. -/
theorem num_recvFifoPut (h : (receiver s).Sound) (b : Byte) : (recvFifoPut b s).recvFifo.num ≠ 0 := by
  have hwf : s.recvFifo.WellFormed := h.fifo
  have hcap : s.recvFifo.capacity = UART_FIFO_LENGTH := h.capacity
  by_cases hfull : s.recvFifo.num = s.recvFifo.capacity
  · have hset : (!s.recvFifo.isFull) = false := by
      rw [Fifo.isFull, hfull, beq_self_eq_true]
      rfl
    have hsame : (recvFifoPut b s).recvFifo = s.recvFifo := by
      rw [recvFifoPut, hset]
      rfl
    rw [hsame, hfull, hcap]
    decide
  · have hroom : s.recvFifo.num < s.recvFifo.capacity := lt_of_le_of_ne hwf.num_le hfull
    have hput : (recvFifoPut b s).recvFifo = (s.recvFifo.push b).1 :=
      congrArg Receiver.fifo (recvFifoPut_room hroom b)
    rw [hput, Fifo.push_eq hwf hroom]
    exact Nat.succ_ne_zero _

theorem input_foldl (buf : List Byte) (s : Serial) :
    input (buf.foldl (fun s b => recvFifoPut b s) s) =
      { input s with fifo := (buf.foldl (fun s b => recvFifoPut b s) s).recvFifo } := by
  induction buf generalizing s with
  | nil => rfl
  | cons b buf ih =>
    rw [List.foldl_cons, ih, input_recvFifoPut]

theorem num_foldl (h : (receiver s).Sound) {buf : List Byte} (hbuf : buf ≠ [] ∨ s.recvFifo.num ≠ 0) :
    (buf.foldl (fun s b => recvFifoPut b s) s).recvFifo.num ≠ 0 := by
  induction buf generalizing s with
  | nil => exact hbuf.resolve_left fun hne => hne rfl
  | cons b buf ih => exact ih (sound_recvFifoPut h b) (.inr (num_recvFifoPut h b))

/-- A delivery sets the bit. -/
theorem inStep_receive (hs : (receiver s).Sound) (h : (input s).InStep unread) (buf : List Byte) :
    (input (receive host buf s)).InStep (!buf.isEmpty || unread) ↔
      (buf = [] → has s.lsr UART_LSR_DR = true) := by
  cases hfe : has s.fcr UART_FCR_FE with
  | true =>
    have hnum : has s.lsr UART_LSR_DR = !(s.recvFifo.num == 0) := by
      have hin := h
      rw [Input.InStep, input, hfe, if_pos rfl] at hin
      exact hin
    have hput := input_foldl buf s
    have hrecv : input (receive host buf s) =
        ⟨(buf.foldl (fun s b => recvFifoPut b s) s).recvFifo, true, true⟩ := by
      rw [receive, if_pos hfe]
      refine (input_updateIRQ _).trans ?_
      have hmode := (congrArg Input.fifoMode hput).trans hfe
      rw [input, Input.mk.injEq]
      exact ⟨rfl, has_setDr _, hmode⟩
    rw [hrecv, Input.InStep, if_pos rfl, Fifo.isEmpty, hnum]
    cases buf with
    | nil => exact ⟨fun hall _ => hall.symm, fun hall => (hall rfl).symm⟩
    | cons b buf =>
      have hne : ((b :: buf).foldl (fun s b => recvFifoPut b s) s).recvFifo.num ≠ 0 :=
        num_foldl hs (.inl (List.cons_ne_nil _ _))
      exact iff_of_true (by rw [beq_false_of_ne hne]; rfl) fun hnil => absurd hnil (List.cons_ne_nil _ _)
  | false =>
    have hready : has s.lsr UART_LSR_DR = unread := by
      have hin := h
      rw [Input.InStep, input, hfe, if_neg Bool.false_ne_true] at hin
      exact hin
    have hrecv : input (receive host buf s) = ⟨s.recvFifo, true, false⟩ := by
      rw [receive, hfe, if_neg Bool.false_ne_true]
      refine (input_updateIRQ _).trans ?_
      rw [input, Input.mk.injEq]
      refine ⟨?_, has_setDr _, ?_⟩
      · split <;> rfl
      · split <;> exact hfe
    rw [hrecv, Input.InStep, if_neg Bool.false_ne_true, hready]
    cases buf with
    | nil => exact ⟨fun hall _ => hall.symm, fun hall => (hall rfl).symm⟩
    | cons b buf => exact iff_of_true rfl fun hnil => absurd hnil (List.cons_ne_nil _ _)

theorem inStep_receiveBreak (hs : (receiver s).Sound) :
    (input (receiveBreak s)).InStep true := by
  have hput := input_recvFifoPut 0 { s with rbr := 0 }
  have hne := num_recvFifoPut (s := { s with rbr := 0 }) hs 0
  have hbreak : input (receiveBreak s) =
      ⟨(recvFifoPut 0 { s with rbr := 0 }).recvFifo, true, has s.fcr UART_FCR_FE⟩ := by
    have hset (lsr : Byte) : has (lsr ||| (UART_LSR_BI ||| UART_LSR_DR)) UART_LSR_DR = true := by
      revert lsr
      decide
    rw [receiveBreak, input_updateIRQ, input, Input.mk.injEq]
    exact ⟨rfl, hset _, congrArg Input.fifoMode hput⟩
  rw [hbreak, Input.InStep, Fifo.isEmpty, beq_false_of_ne hne]
  dsimp only
  split <;> rfl

theorem Input.InStep.of_eq {x y : Input} (h : x.InStep unread) (he : y = x) : y.InStep unread :=
  he ▸ h

/-- A read of RBR takes the last byte and clears the bit, or leaves others in the FIFO. -/
theorem inStep_readRbr (host : Host) (h : (input s).InStep unread) :
    (input (readRbr host s).2).InStep false := by
  cases hfe : has s.fcr UART_FCR_FE with
  | true =>
    have hnum : has s.lsr UART_LSR_DR = !(s.recvFifo.num == 0) := by
      rw [Input.InStep, input, hfe, if_pos rfl] at h
      exact h
    have hread : input (readRbr host s).2 = ⟨s.recvFifo.pop.1,
        if s.recvFifo.pop.1.num = 0 then false else has s.lsr UART_LSR_DR, true⟩ := by
      rw [← hfe]
      exact congrArg (fun x : Receiver => Input.mk x.fifo x.ready x.fifoMode) (readRbr_fifo host hfe).1
    rw [hread, Input.InStep, if_pos rfl, Fifo.isEmpty]
    by_cases hz : s.recvFifo.pop.1.num = 0
    · rw [if_pos hz, hz]
      rfl
    · have hne : s.recvFifo.num ≠ 0 := by
        intro hnum0
        rw [Fifo.pop, if_pos hnum0] at hz
        exact hz hnum0
      rw [if_neg hz, hnum, beq_false_of_ne hne, beq_false_of_ne hz]
  | false =>
    have hclear (lsr : Byte) : has (lsr &&& ~~~(UART_LSR_DR ||| UART_LSR_BI)) UART_LSR_DR = false := by
      revert lsr
      decide
    have hread : input (readRbr host s).2 = ⟨s.recvFifo, false, false⟩ := by
      rw [readRbr, hfe, if_neg Bool.false_ne_true, input, Input.mk.injEq]
      exact ⟨rfl, hclear _, hfe⟩
    rw [hread, Input.InStep, if_neg Bool.false_ne_true]

theorem unreadAfter_read (s : Serial) (port : Word) (unread : Bool) :
    unreadAfter s (.read port) unread =
      (!(port &&& 7 == 0 && !has s.lcr UART_LCR_DLAB) && unread) := rfl

theorem unreadAfter_write (s : Serial) (port value : Word) (unread : Bool) :
    unreadAfter s (.write port value) unread =
      ((port &&& 7 == 0 && !has s.lcr UART_LCR_DLAB && has s.mcr UART_MCR_LOOP) ||
        (!(port &&& 7 == 2 && switchesMode s value) && unread)) := rfl

theorem inStep_ioRead (host : Host) (port : Word) (h : (input s).InStep unread) :
    (input (ioRead host port s).2).InStep (unreadAfter s (.read port) unread) := by
  have hother (hno : ¬ ReadsRbr s port) {t : Serial} (ht : input t = input s) :
      (input t).InStep (unreadAfter s (.read port) unread) := by
    have htaken : (port &&& 7 == 0 && !has s.lcr UART_LCR_DLAB) = false := by
      rw [← Bool.not_eq_true, Bool.and_eq_true, beq_iff_eq, Bool.not_eq_true']
      exact hno
    rw [unreadAfter_read, htaken]
    exact h.of_eq ht
  have hmsl : input (readMsl s) = input s := input_of_receiver (receiver_readMsl s)
  refine ioRead_cases (motive := fun t => (input t).InStep (unreadAfter s (.read port) unread)) host
    port s (fun hno => hother hno rfl) (fun hno => hother hno (input_updateIRQ _))
    (fun hno => hother hno ?_) (fun hno => hother hno hmsl)
    (fun hno => hother hno ((input_updateIRQ _).trans hmsl)) fun hrbr => ?_
  · have hdr : ~~~(UART_LSR_BI ||| UART_LSR_OE) &&& UART_LSR_DR = UART_LSR_DR := by decide
    rw [input_updateIRQ]
    simp only [input, Serial.clearLsr, has_clear hdr]
  · have htaken : unreadAfter s (.read port) unread = false := by
      rw [unreadAfter_read, hrbr.1, hrbr.2]
      rfl
    have hrest : input (acceptInput (updateIRQ (readRbr host s).2)) = input (readRbr host s).2 :=
      (input_of_receiver (receiver_acceptInput _)).trans (input_updateIRQ _)
    rw [htaken]
    exact (inStep_readRbr host h).of_eq hrest

/-- In loopback mode the byte that is sent is received. -/
theorem inStep_transmit (host : Host) (hs : (receiver s).Sound) (h : (input s).InStep unread) :
    (input (transmit host s)).InStep
      (has s.mcr UART_MCR_LOOP && (loadTsr s).isSome || unread) := by
  cases hloop : has s.mcr UART_MCR_LOOP with
  | false => exact h.of_eq (input_of_receiver (receiver_transmit s host hloop))
  | true =>
    cases hl : loadTsr s with
    | none =>
      have hsame : transmit host s = s := by rw [transmit, hl]
      rw [hsame]
      exact h
    | some u =>
      have hu := receiver_loadTsr s hl
      have hon : has u.mcr UART_MCR_LOOP = true := (congrArg Receiver.loop hu).trans hloop
      have hsound : (receiver u).Sound := hu.symm ▸ hs
      have hin : (input u).InStep unread := h.of_eq (input_of_receiver hu)
      have hsend : transmit host s = transmitted host (receive host [u.tsr] u) := by
        rw [transmit, hl]
        exact if_pos hon
      rw [hsend, input_of_receiver (receiver_transmitted _ host)]
      exact (inStep_receive hsound hin [u.tsr]).mpr fun hnil => absurd hnil (List.cons_ne_nil _ _)

theorem inStep_writeThr (host : Host) (value : Word) (hs : (receiver s).Sound)
    (h : (input s).InStep unread) :
    (input (writeThr host value s)).InStep (has s.mcr UART_MCR_LOOP || unread) := by
  obtain ⟨u, hu, hsame, hmcr, hsome⟩ := writeThr_transmit s host value
  have hsend := inStep_transmit host (hsame.symm ▸ hs) (h.of_eq (input_of_receiver hsame))
  rw [hmcr, hsome, Bool.and_true] at hsend
  rw [hu]
  exact hsend

theorem has_rfr (x : Byte) : has x UART_FCR_RFR = x.getLsbD 1 := by
  revert x
  decide

/-- The value asks for the receive FIFO to be emptied, or the change of the mode does. -/
theorem fcrValue_rfr (s : Serial) (value : Word) : has (fcrValue s (value.setWidth 8)) UART_FCR_RFR =
    (switchesMode s value || has (value.setWidth 8) UART_FCR_RFR) := by
  rw [fcrValue, switchesMode]
  cases has (value.setWidth 8 ^^^ s.fcr) UART_FCR_FE with
  | true =>
    rw [if_pos rfl, has_rfr, BitVec.getLsbD_or,
      show (UART_FCR_XFR ||| UART_FCR_RFR).getLsbD 1 = true by decide, Bool.or_true, Bool.true_or]
  | false => rw [if_neg Bool.false_ne_true, Bool.false_or]

theorem fcrValue_fe (s : Serial) (value : Byte) :
    has (fcrValue s value &&& 0xC9) UART_FCR_FE = has value UART_FCR_FE := by
  have hand (x : Byte) : has (x &&& 0xC9) UART_FCR_FE = has x UART_FCR_FE := by
    revert x
    decide
  rw [hand, fcrValue]
  split
  · exact has_or (by decide)
  · rfl

theorem input_writeFcr {value : Word} (hne : s.fcr ≠ value.setWidth 8) :
    input (writeFcr value s) =
      ⟨if switchesMode s value || has (value.setWidth 8) UART_FCR_RFR then s.recvFifo.clear
        else s.recvFifo, has s.lsr UART_LSR_DR, has (value.setWidth 8) UART_FCR_FE⟩ := by
  have hmode := fcrValue_fe s (value.setWidth 8)
  have hclear := fcrValue_rfr s value
  generalize hbits : fcrValue s (value.setWidth 8) = bits at hmode hclear
  have hrecv : input (clearRecv s bits) =
      { input s with fifo := if has bits UART_FCR_RFR then s.recvFifo.clear else s.recvFifo } := by
    rw [clearRecv]
    split <;> rfl
  have hxmit (t : Serial) : input (clearXmit t bits) = input t := by
    rw [clearXmit]
    split <;> rfl
  have htrigger (t : Serial) : input (setTrigger t bits) = input t := by
    rw [setTrigger]
    split <;> rfl
  have hfcr (t : Serial) : input { t with fcr := bits &&& 0xC9 } =
      { input t with fifoMode := has (bits &&& 0xC9) UART_FCR_FE } := rfl
  rw [writeFcr_eq hne, hbits, input_updateIRQ, hfcr, htrigger, hxmit, hrecv, hmode, hclear]
  rfl

/-- Apart from the write that empties the FIFO or ends FIFO mode, the bit stays in step. -/
theorem inStep_writeFcr {value : Word} (h : (input s).InStep unread) :
    (input (writeFcr value s)).InStep (!switchesMode s value && unread) ↔
      (Empties s value → has s.lsr UART_LSR_DR = false) := by
  by_cases hsame : s.fcr = value.setWidth 8
  · have hnop : writeFcr value s = s := if_pos hsame
    have hstays : switchesMode s value = false := by
      rw [switchesMode, hsame, BitVec.xor_self]
      rfl
    rw [hnop, hstays]
    exact iff_of_true h fun hempties => absurd hsame hempties.1
  · rw [input_writeFcr hsame, Empties, and_iff_right hsame]
    have hmode : has (value.setWidth 8) UART_FCR_FE =
        (switchesMode s value ^^ has s.fcr UART_FCR_FE) := by
      rw [switchesMode, has_fe, has_fe, has_fe, BitVec.getLsbD_xor, Bool.xor_assoc, Bool.xor_self,
        Bool.xor_false]
    cases hsw : switchesMode s value with
    | true =>
      rw [Bool.true_or, if_pos rfl, Input.InStep]
      have hnone : (if has (value.setWidth 8) UART_FCR_FE = true then !s.recvFifo.clear.isEmpty
          else !true && unread) = false := by
        split <;> rfl
      rw [hnone]
      exact ⟨fun hready _ => hready, fun hall => hall (.inl rfl)⟩
    | false =>
      rw [hsw, Bool.false_xor] at hmode
      rw [Bool.false_or, hmode]
      cases hrfr : has (value.setWidth 8) UART_FCR_RFR with
      | false =>
        refine iff_of_true ?_ fun hempties => ?_
        · exact h
        · rcases hempties with hfalse | ⟨-, hfalse⟩
          · exact absurd hfalse Bool.false_ne_true
          · exact absurd hfalse Bool.false_ne_true
      | true =>
        cases hfe : has s.fcr UART_FCR_FE with
        | true =>
          rw [if_pos rfl, Input.InStep]
          exact ⟨fun hready _ => hready, fun hall => hall (.inr ⟨rfl, rfl⟩)⟩
        | false =>
          refine iff_of_true ?_ fun hempties => ?_
          · rw [Input.InStep, input, hfe] at h
            exact h
          · rcases hempties with hfalse | ⟨hfalse, -⟩
            · exact absurd hfalse Bool.false_ne_true
            · exact absurd hfalse Bool.false_ne_true

theorem inStep_ioWrite {port value : Word} (hs : (receiver s).Sound) (h : (input s).InStep unread) :
    (input (ioWrite host port value s)).InStep (unreadAfter s (.write port value) unread) ↔
      (port &&& 7 = 2 → Empties s value → has s.lsr UART_LSR_DR = false) := by
  have hnot (h2 : (port &&& 7).toNat ≠ 2) :
      port &&& 7 = 2 → Empties s value → has s.lsr UART_LSR_DR = false :=
    fun hport => absurd (congrArg BitVec.toNat hport) h2
  have hother (h0 : (port &&& 7).toNat ≠ 0) (h2 : (port &&& 7).toNat ≠ 2) {t : Serial}
      (ht : input t = input s) :
      (input t).InStep (unreadAfter s (.write port value) unread) ↔
        (port &&& 7 = 2 → Empties s value → has s.lsr UART_LSR_DR = false) := by
    have hport0 : (port &&& 7 == 0) = false := beq_false_of_ne fun hz => h0 (by rw [hz]; rfl)
    have hport2 : (port &&& 7 == 2) = false := beq_false_of_ne fun hz => h2 (by rw [hz]; rfl)
    have hkeep : unreadAfter s (.write port value) unread = unread := by
      rw [unreadAfter_write, hport0, hport2]
      rfl
    rw [hkeep]
    exact iff_of_true (h.of_eq ht) (hnot h2)
  unfold ioWrite
  split
  · split
    · exact hother (by omega) (by omega) (input_of_receiver (receiver_updateParameters _ host))
    · exact hother (by omega) (by omega) (input_of_receiver (receiver_writeIer s value))
  · next h2 =>
    have hport : port &&& 7 = 2 := BitVec.eq_of_toNat_eq h2
    have hunread : unreadAfter s (.write port value) unread = (!switchesMode s value && unread) := by
      rw [unreadAfter_write, hport]
      rfl
    rw [hunread, inStep_writeFcr h]
    exact ⟨fun hall _ => hall, fun hall => hall hport⟩
  · exact hother (by omega) (by omega) (input_of_receiver (receiver_writeLcr s host value))
  · have hmcr := congrArg (fun x : Receiver => Input.mk x.fifo x.ready x.fifoMode)
      (receiver_writeMcr s host value)
    exact hother (by omega) (by omega) hmcr
  · exact hother (by omega) (by omega) rfl
  · exact hother (by omega) (by omega) rfl
  · exact hother (by omega) (by omega) rfl
  · next h1 h2 h3 h4 h5 h6 h7 =>
    have hport : port &&& 7 = 0 := port_eq_zero h1 h2 h3 h4 h5 h6 h7
    refine iff_of_true ?_ (hnot h2)
    cases hd : has s.lcr UART_LCR_DLAB with
    | true =>
      have hkeep : unreadAfter s (.write port value) unread = unread := by
        rw [unreadAfter_write, hport, hd]
        rfl
      rw [if_pos rfl, hkeep]
      exact h.of_eq (input_of_receiver (receiver_updateParameters _ host))
    | false =>
      have hunread : unreadAfter s (.write port value) unread =
          (has s.mcr UART_MCR_LOOP || unread) := by
        rw [unreadAfter_write, hport, hd]
        rfl
      rw [if_neg Bool.false_ne_true, hunread]
      exact inStep_writeThr host value hs h

/-- What one operation does to the bit. -/
theorem inStep_apply_iff {i : Op × Host} (hs : (receiver s).Sound) (h : InStep ⟨s, unread⟩) :
    InStep ⟨i.1.apply i.2 s, unreadAfter s i.1 unread⟩ ↔ Fits ⟨s, unread⟩ i := by
  have hin : (input s).InStep unread := h
  obtain ⟨op, host⟩ := i
  cases op with
  | read port => exact iff_of_true (inStep_ioRead host port hin) trivial
  | write port value => exact inStep_ioWrite hs hin
  | receive buf =>
    have hunread : unreadAfter s (.receive buf) unread = (!buf.isEmpty || unread) := rfl
    rw [hunread]
    exact inStep_receive hs hin buf
  | event isBreak =>
    refine iff_of_true ?_ trivial
    cases isBreak with
    | true => exact inStep_receiveBreak hs
    | false => exact hin
  | transmit => exact iff_of_true (inStep_transmit host hs hin) trivial
  | fifoTimeoutTimer => exact iff_of_true hin trivial
  | modemStatusPoll =>
    refine iff_of_true ?_ trivial
    have hkeep : input (fifoTimeoutInterrupt s) = input s := by
      rw [fifoTimeoutInterrupt]
      split
      · exact input_updateIRQ _
      · rfl
    exact hin.of_eq hkeep
  | reset =>
    refine iff_of_true ?_ trivial
    have hclear : has (UART_LSR_TEMT ||| UART_LSR_THRE) UART_LSR_DR = false := by decide
    have hreset : input (Device.reset host s) = ⟨s.recvFifo.clear, false, has s.fcr UART_FCR_FE⟩ :=
      congrArg (fun ready => Input.mk s.recvFifo.clear ready (has s.fcr UART_FCR_FE)) hclear
    have hin' : (input (Device.reset host s)).InStep false := by
      rw [hreset, Input.InStep]
      split <;> rfl
    exact hin'

end Operations

/-! ## Runs -/

/-- The device as constructed: nothing has been received. -/
def start (host : Host) (recvData xmitData : Nat → Byte) : Watched :=
  ⟨construct host recvData xmitData, false⟩

/-- In a run the data-ready bit says in every state whether there is data to read, exactly
when no write to FCR empties the FIFO while the bit is set and no delivery is of no bytes
while it is clear. -/
theorem inStep_iff_fits (host : Host) (recvData xmitData : Nat → Byte) (is : List (Op × Host)) :
    Always watch InStep (start host recvData xmitData) is ↔
      Guarded watch Fits (start host recvData xmitData) is := by
  refine always_iff_guarded_of (J := fun w => (receiver w.device).Sound) ?_ ?_ ?_ ?_
  · intro w i w' hw hstep
    obtain rfl := Option.some.inj hstep
    exact sound_apply hw i.1
  · intro w i hw hin
    have hone : (∀ w', watch w i = some w' → InStep w') ↔
        InStep ⟨i.1.apply i.2 w.device, unreadAfter w.device i.1 w.unread⟩ :=
      ⟨fun hall => hall _ rfl, fun hnext w' hw' => Option.some.inj hw' ▸ hnext⟩
    exact hone.trans (inStep_apply_iff hw hin)
  · exact sound_construct host recvData xmitData
  · have hoff : ¬ has (0 : Byte) UART_FCR_FE = true := by decide
    have hclear : has (UART_LSR_TEMT ||| UART_LSR_THRE) UART_LSR_DR = false := by decide
    exact hclear.trans (if_neg hoff).symm

/-- FIFO mode, a byte that is received, and a write to FCR that empties the receive FIFO. -/
def receiveThenClear : List (Op × Host) :=
  [(.write 2 0x01, ⟨0, true⟩), (.receive [0x41], ⟨0, true⟩), (.write 2 0x03, ⟨0, true⟩)]

/-- The bit is left set with the FIFO empty. -/
theorem clear_leaves_ready :
    ¬ Always watch InStep (start ⟨0, true⟩ (fun _ => 0) fun _ => 0) receiveThenClear := by
  intro h
  have hin : InStep _ := (h.2 _ rfl).2 _ rfl |>.2 _ rfl
  exact absurd hin (by decide)

end OpenXbox.Uart.DataReady
