import OpenXbox.Common.FifoContents
import OpenXbox.Uart.Coherence

/-!
# What the UART sends

A byte that is written to THR is in the transmit FIFO, then in the shift register while
the back-end refuses it. `Transmit` takes zero instead of a byte when it finds the FIFO
full; while it does not come to that, what the back-end accepts is part of what was
written.
-/

namespace OpenXbox.Uart.Transmission

open OpenXbox.Common OpenXbox.Lib.Run OpenXbox.Uart.Device OpenXbox.Uart.Coherence

/-- The byte of a write that the back-end has accepted. -/
def acceptedByte : Output → Option Byte
  | .write byte true => some byte
  | _ => none

/-- The bytes that the back-end has accepted. -/
def accepted (log : List Output) : List Byte := log.filterMap acceptedByte

/-- The byte that an operation writes to THR. -/
def thrByte (s : Serial) : Op → Option Byte
  | .write port value =>
    if port &&& 7 = 0 ∧ has s.lcr UART_LCR_DLAB = false then some (value.setWidth 8) else none
  | _ => none

/-- The bytes that a run writes to THR. -/
def written : Serial → List (Op × Host) → List Byte
  | _, [] => []
  | s, (op, host) :: is => (thrByte s op).toList ++ written (op.apply host s) is

/-- Any operation but a write to MCR that turns loopback on; `Transmit` is called by
writes to THR only. -/
def NoLoopback (_ : Serial) (i : Op × Host) : Prop :=
  match i.1 with
  | .write port value => port &&& 7 = 4 → has (value.setWidth 8) UART_MCR_LOOP = false
  | .transmit => False
  | _ => True

/-- A write to THR in FIFO mode leaves a free place, when `Transmit` takes the next byte. -/
def HasRoom (s : Serial) (i : Op × Host) : Prop :=
  (thrByte s i.1).isSome = true → has s.fcr UART_FCR_FE = true → s.tsrRetry = 0 →
    s.xmitFifo.count + 1 < UART_FIFO_LENGTH

instance (s : Serial) (i : Op × Host) : Decidable (NoLoopback s i) :=
  match i with
  | (.write port value, _) =>
    inferInstanceAs (Decidable (port &&& 7 = 4 → has (value.setWidth 8) UART_MCR_LOOP = false))
  | (.transmit, _) => inferInstanceAs (Decidable False)
  | (.read _, _) | (.receive _, _) | (.event _, _) | (.fifoTimeoutTimer, _)
  | (.modemStatusPoll, _) | (.reset, _) => inferInstanceAs (Decidable True)

instance (s : Serial) (i : Op × Host) : Decidable (HasRoom s i) :=
  inferInstanceAs (Decidable (_ → _ → _ → _))

/-! ## Operations that send nothing -/

theorem accepted_append (log log' : List Output) :
    accepted (log ++ log') = accepted log ++ accepted log' := List.filterMap_append

/-- What there is to be sent, and how. -/
structure Sender where
  accepted : List Byte
  tsr : Byte
  tsrRetry : Nat
  xmitFifo : Fifo Byte
  fcr : Byte
  mcr : Byte

def sender (s : Serial) : Sender := ⟨accepted s.log, s.tsr, s.tsrRetry, s.xmitFifo, s.fcr, s.mcr⟩

section Same

variable (s : Serial) (host : Host)

theorem sender_emit {o : Output} (ho : acceptedByte o = none) : sender (s.emit o) = sender s := by
  have hlog : accepted (s.log ++ [o]) = accepted s.log := by
    rw [accepted_append, accepted, accepted, List.filterMap_cons_none ho]
    exact List.append_nil _
  rw [sender, Serial.emit, hlog]
  rfl

theorem sender_updateIRQ : sender (updateIRQ s) = sender s := by
  rw [updateIRQ_eq]
  exact sender_emit s rfl

theorem sender_readMsl : sender (readMsl s) = sender s := by
  rw [readMsl]
  split <;> rfl

theorem sender_updateParameters : sender (updateParameters host s) = sender s := by
  rw [updateParameters]
  split
  · rfl
  · exact sender_emit _ rfl

theorem sender_recvFifoPut (chr : Byte) : sender (recvFifoPut chr s) = sender s := by
  rw [recvFifoPut]
  split <;> rfl

theorem sender_receive (buf : List Byte) : sender (receive host buf s) = sender s := by
  have hput : sender (buf.foldl (fun s b => recvFifoPut b s) s) = sender s := by
    induction buf generalizing s with
    | nil => rfl
    | cons b buf ih => exact (ih _).trans (sender_recvFifoPut s b)
  rw [receive]
  split
  · exact (sender_updateIRQ _).trans hput
  · refine (sender_updateIRQ _).trans ?_
    split <;> rfl

theorem sender_receiveBreak : sender (receiveBreak s) = sender s :=
  (sender_updateIRQ _).trans (sender_recvFifoPut _ 0)

theorem sender_fifoTimeoutInterrupt : sender (fifoTimeoutInterrupt s) = sender s := by
  rw [fifoTimeoutInterrupt]
  split
  · exact sender_updateIRQ _
  · rfl

theorem sender_readRbr : sender (readRbr host s).2 = sender s := by
  rw [readRbr]
  split
  · dsimp only
    split <;> rfl
  · rfl

theorem sender_acceptInput : sender (acceptInput s) = sender s := by
  rw [acceptInput]
  split
  · exact sender_emit s rfl
  · rfl

theorem sender_ioRead (port : Word) : sender (ioRead host port s).2 = sender s :=
  ioRead_cases (motive := fun t => sender t = sender s) host port s (fun _ => rfl)
    (fun _ => sender_updateIRQ _) (fun _ => sender_updateIRQ _) (fun _ => sender_readMsl s)
    (fun _ => (sender_updateIRQ _).trans (sender_readMsl s))
    fun _ => ((sender_acceptInput _).trans (sender_updateIRQ _)).trans (sender_readRbr s host)

theorem sender_writeIer (value : Word) : sender (writeIer value s) = sender s := by
  have hpoll : sender (pollModem { s with ier := (value &&& 0x0f).setWidth 8 }) = sender s := by
    rw [pollModem]
    split
    · split <;> rfl
    · rfl
  rw [writeIer]
  split
  · exact (sender_updateIRQ _).trans hpoll
  · exact hpoll

theorem sender_writeLcr (value : Word) : sender (writeLcr host value s) = sender s := by
  have hparams := sender_updateParameters { s with lcr := value.setWidth 8 } host
  rw [writeLcr]
  split
  · exact (sender_emit _ rfl).trans hparams
  · exact hparams

theorem sender_writeMcr (value : Word) : sender (writeMcr host value s) =
    { sender s with mcr := (value &&& 0x1f).setWidth 8 } := by
  rw [writeMcr]
  split
  · rfl
  · split <;> rfl

end Same

/-! ## The byte in the shift register -/

/-- The bytes that are still to be sent: one that is retried, and the transmit FIFO. -/
def Sender.held (x : Sender) : List Byte :=
  (if x.tsrRetry = 0 then [] else [x.tsr]) ++ x.xmitFifo.contents

theorem Sender.held_of_idle {x : Sender} (h : x.tsrRetry = 0) : x.held = x.xmitFifo.contents := by
  rw [Sender.held, if_pos h, List.nil_append]

theorem Sender.held_of_retry {x : Sender} (h : x.tsrRetry ≠ 0) :
    x.held = x.tsr :: x.xmitFifo.contents := by
  rw [Sender.held, if_neg h, List.singleton_append]

/-- The shift register once the back-end has accepted the byte or not. -/
def Sender.sent (x : Sender) (writeAccepted : Bool) : Sender :=
  if writeAccepted then { x with accepted := x.accepted ++ [x.tsr], tsrRetry := 0 }
  else if x.tsrRetry < MAX_XMIT_RETRY then { x with tsrRetry := x.tsrRetry + 1 }
  else { x with tsrRetry := 0 }

/-- The byte is accepted, kept or dropped. -/
theorem Sender.sent_sublist (x : Sender) (writeAccepted : Bool) :
    ((x.sent writeAccepted).accepted ++ (x.sent writeAccepted).held).Sublist
      (x.accepted ++ x.tsr :: x.xmitFifo.contents) := by
  rw [Sender.sent]
  cases writeAccepted with
  | true => simp [Sender.held]
  | false =>
    by_cases hlt : x.tsrRetry < MAX_XMIT_RETRY
    · simp [Sender.held, hlt]
    · simp [Sender.held, hlt]

section Transmit

variable {s u : Serial} {host : Host}

theorem sender_transmitted (host : Host) (s : Serial) : sender (transmitted host s) = sender s := by
  rw [transmitted]
  dsimp only
  split
  · exact sender_updateIRQ _
  · rfl

theorem loadTsr_cases (h : loadTsr s = some u) :
    (s.tsrRetry = 0 ∧ has s.fcr UART_FCR_FE = true ∧ sender u = sender (loadFifo s)) ∨
      (s.tsrRetry = 0 ∧ has s.fcr UART_FCR_FE = false ∧ sender u = { sender s with tsr := s.thr }) ∨
      (s.tsrRetry ≠ 0 ∧ sender u = sender s) := by
  rw [loadTsr] at h
  by_cases hr : s.tsrRetry = 0
  · rw [if_pos hr] at h
    cases hfe : has s.fcr UART_FCR_FE with
    | true =>
      rw [hfe, if_pos rfl] at h
      refine .inl ⟨hr, rfl, ?_⟩
      split at h <;> obtain rfl := Option.some.inj h <;> rfl
    | false =>
      rw [hfe, if_neg Bool.false_ne_true] at h
      refine .inr (.inl ⟨hr, rfl, ?_⟩)
      split at h
      · cases h
      · obtain rfl := Option.some.inj h
        rfl
  · rw [if_neg hr] at h
    obtain rfl := Option.some.inj h
    exact .inr (.inr ⟨hr, rfl⟩)

theorem sender_emit_write (u : Serial) (writeAccepted : Bool) :
    sender (u.emit (.write u.tsr writeAccepted)) =
      { sender u with accepted := accepted u.log ++ if writeAccepted then [u.tsr] else [] } := by
  rw [sender, Serial.emit, accepted_append]
  cases writeAccepted <;> rfl

theorem sender_transmit (h : loadTsr s = some u) (hloop : has u.mcr UART_MCR_LOOP = false) :
    sender (transmit host s) = (sender u).sent host.writeAccepted := by
  have hwrite := sender_emit_write u host.writeAccepted
  rw [transmit, h]
  dsimp only
  rw [hloop, if_neg Bool.false_ne_true, Sender.sent]
  cases ha : host.writeAccepted with
  | true =>
    rw [ha] at hwrite
    rw [if_neg (by simp), if_pos rfl, sender_transmitted]
    exact congrArg (fun x : Sender => { x with tsrRetry := 0 }) hwrite
  | false =>
    rw [ha, if_neg Bool.false_ne_true, List.append_nil] at hwrite
    rw [if_pos (by simp), if_neg Bool.false_ne_true]
    by_cases hlt : u.tsrRetry < MAX_XMIT_RETRY
    · have hkept : (u.emit (.write u.tsr false)).tsrRetry < MAX_XMIT_RETRY := hlt
      have hsame : (sender u).tsrRetry < MAX_XMIT_RETRY := hlt
      rw [if_pos hkept, if_pos hsame]
      exact congrArg (fun x : Sender => { x with tsrRetry := u.tsrRetry + 1 }) hwrite
    · have hkept : ¬ (u.emit (.write u.tsr false)).tsrRetry < MAX_XMIT_RETRY := hlt
      have hsame : ¬ (sender u).tsrRetry < MAX_XMIT_RETRY := hlt
      rw [if_neg hkept, if_neg hsame, sender_transmitted]
      exact congrArg (fun x : Sender => { x with tsrRetry := 0 }) hwrite

end Transmit

/-! ## Writes -/

/-- Loopback is off, and the FIFO is in use in FIFO mode only. -/
structure Sender.Sound (x : Sender) : Prop where
  loop : has x.mcr UART_MCR_LOOP = false
  fifo : x.xmitFifo.WellFormed
  capacity : x.xmitFifo.capacity = UART_FIFO_LENGTH
  empty : has x.fcr UART_FCR_FE = false → x.xmitFifo.contents = []

theorem Sender.Sound.sent {x : Sender} (h : x.Sound) (writeAccepted : Bool) :
    (x.sent writeAccepted).Sound := by
  rw [Sender.sent]
  split
  · exact ⟨h.loop, h.fifo, h.capacity, h.empty⟩
  · split
    · exact ⟨h.loop, h.fifo, h.capacity, h.empty⟩
    · exact ⟨h.loop, h.fifo, h.capacity, h.empty⟩

/-- What has been accepted and what is held is part of what has been written. -/
structure Sender.Sends (x : Sender) (written : List Byte) : Prop where
  sound : x.Sound
  sublist : (x.accepted ++ x.held).Sublist written

/-- The transmit FIFO after a write to THR. -/
def filled (s : Serial) (byte : Byte) : Fifo Byte :=
  if has s.fcr UART_FCR_FE then
    ((if s.xmitFifo.isFull then s.xmitFifo.discard.1 else s.xmitFifo).push byte).1
  else s.xmitFifo

section Thr

variable {s : Serial} {written : List Byte}

theorem writeThr_eq (host : Host) (value : Word) (s : Serial) :
    ∃ u, writeThr host value s = transmit host u ∧
      sender u = { sender s with xmitFifo := filled s (value.setWidth 8) } ∧
      u.thr = value.setWidth 8 := by
  refine ⟨_, rfl, (sender_updateIRQ _).trans ?_, ?_⟩
  · dsimp only
    rw [filled]
    split <;> rfl
  · rw [updateIRQ_eq]
    dsimp only
    split <;> rfl

/-- In FIFO mode the byte is the last one in the FIFO; a full FIFO loses its first one. -/
theorem filled_fifo (hs : (sender s).Sound) (hfe : has s.fcr UART_FCR_FE = true) (byte : Byte) :
    (filled s byte).WellFormed ∧ (filled s byte).capacity = UART_FIFO_LENGTH ∧
      (filled s byte).num ≤ s.xmitFifo.num + 1 ∧
      ∃ rest, (filled s byte).contents = rest ++ [byte] ∧ rest.Sublist s.xmitFifo.contents := by
  have hwf : s.xmitFifo.WellFormed := hs.fifo
  have hcap : s.xmitFifo.capacity = UART_FIFO_LENGTH := hs.capacity
  rw [filled, if_pos hfe]
  by_cases hfull : s.xmitFifo.num = s.xmitFifo.capacity
  · have hne : s.xmitFifo.num ≠ 0 := by
      rw [hfull, hcap]
      decide
    obtain ⟨x, -, hx⟩ := Fifo.contents_pop hwf hne
    have hpop := Fifo.wellFormed_pop hwf
    have heq := Fifo.pop_eq hwf hne
    have hroom : s.xmitFifo.pop.1.num < s.xmitFifo.pop.1.capacity := by
      rw [heq]
      exact hfull ▸ Nat.sub_one_lt hne
    have hyes : s.xmitFifo.isFull = true := beq_iff_eq.mpr hfull
    rw [if_pos hyes, Fifo.discard_eq_pop]
    refine ⟨Fifo.wellFormed_push hpop byte, ?_, ?_, s.xmitFifo.pop.1.contents,
      Fifo.contents_push hpop hroom byte, ?_⟩
    · rw [Fifo.push_eq hpop hroom, heq]
      exact hcap
    · rw [Fifo.push_eq hpop hroom, heq]
      exact Nat.add_le_add_right (Nat.sub_le _ _) 1
    · rw [hx]
      exact List.sublist_cons_self x _
  · have hroom : s.xmitFifo.num < s.xmitFifo.capacity := lt_of_le_of_ne hwf.num_le hfull
    have hnot : ¬ s.xmitFifo.isFull = true := fun h => hfull (beq_iff_eq.mp h)
    rw [if_neg hnot]
    refine ⟨Fifo.wellFormed_push hwf byte, ?_, ?_, _, Fifo.contents_push hwf hroom byte, .refl _⟩
    · rw [Fifo.push_eq hwf hroom]
      exact hcap
    · rw [Fifo.push_eq hwf hroom]

/-- A byte that is loaded is the first of those to be sent. -/
theorem sends_transmit {u : Serial} {host : Host} (hs : (sender u).Sound) {next : Byte}
    (hload : ∀ v, loadTsr u = some v → (sender v).Sound ∧
      ((sender v).accepted ++ (sender v).tsr :: (sender v).xmitFifo.contents).Sublist
        (written ++ [next]))
    (hheld : ((sender u).accepted ++ (sender u).held).Sublist (written ++ [next])) :
    (sender (transmit host u)).Sends (written ++ [next]) := by
  cases hl : loadTsr u with
  | none =>
    have hsame : transmit host u = u := by rw [transmit, hl]
    rw [hsame]
    exact ⟨hs, hheld⟩
  | some v =>
    obtain ⟨hsound, hsub⟩ := hload v hl
    rw [sender_transmit hl hsound.loop]
    exact ⟨hsound.sent _, ((sender v).sent_sublist _).trans hsub⟩

/-- In FIFO mode the first byte is loaded, when the FIFO is neither full nor empty. -/
theorem loads_fifo {u v : Serial} (hs : (sender u).Sound) (hfe : has u.fcr UART_FCR_FE = true)
    (hne : u.xmitFifo.num ≠ 0)
    (hroom : u.tsrRetry = 0 → u.xmitFifo.num < UART_FIFO_LENGTH) (h : loadTsr u = some v) :
    (sender v).Sound ∧ (sender v).accepted ++ (sender v).tsr :: (sender v).xmitFifo.contents =
      (sender u).accepted ++ (sender u).held := by
  have hwf : u.xmitFifo.WellFormed := hs.fifo
  have hcap : u.xmitFifo.capacity = UART_FIFO_LENGTH := hs.capacity
  rcases loadTsr_cases h with ⟨hz, -, hload⟩ | ⟨-, hoff, -⟩ | ⟨hnz, hload⟩
  · have hlt := hroom hz
    have hnot : ¬ u.xmitFifo.isFull = true := fun hfull => by
      rw [← hcap] at hlt
      exact hlt.ne (beq_iff_eq.mp hfull)
    obtain ⟨x, hx, hpop⟩ := Fifo.contents_pop hwf hne
    have hv : sender v = { sender u with tsr := x, xmitFifo := u.xmitFifo.pop.1 } := by
      rw [hload, loadFifo, if_neg hnot, hx]
      rfl
    have hcap' : u.xmitFifo.pop.1.capacity = UART_FIFO_LENGTH := by
      rw [Fifo.pop_eq hwf hne]
      exact hcap
    rw [hv, Sender.held_of_idle (show (sender u).tsrRetry = 0 from hz)]
    refine ⟨⟨hs.loop, Fifo.wellFormed_pop hwf, hcap', fun hoff => ?_⟩, ?_⟩
    · exact absurd (hfe.symm.trans hoff) (by decide)
    · exact congrArg (fun l => (sender u).accepted ++ l) hpop.symm
  · exact absurd (hfe.symm.trans hoff) (by decide)
  · rw [hload, Sender.held_of_retry (show (sender u).tsrRetry ≠ 0 from hnz)]
    exact ⟨hs, rfl⟩

/-- A write to THR in FIFO mode that leaves a free place for the byte that is sent next. -/
theorem sends_writeThr_fifo {host : Host} {value : Word} (h : (sender s).Sends written)
    (hfe : has s.fcr UART_FCR_FE = true)
    (hroom : s.tsrRetry = 0 → s.xmitFifo.num + 1 < UART_FIFO_LENGTH) :
    (sender (writeThr host value s)).Sends (written ++ [value.setWidth 8]) := by
  obtain ⟨u, hu, hsender, -⟩ := writeThr_eq host value s
  obtain ⟨hsound, hsub⟩ := h
  obtain ⟨hwf, hcap, hnum, rest, hcont, hrest⟩ := filled_fifo hsound hfe (value.setWidth 8)
  have hfcr : u.fcr = s.fcr := congrArg Sender.fcr hsender
  have hretry : u.tsrRetry = s.tsrRetry := congrArg Sender.tsrRetry hsender
  have hfifo : u.xmitFifo = filled s (value.setWidth 8) := congrArg Sender.xmitFifo hsender
  have hused : has u.fcr UART_FCR_FE = true := by rw [hfcr, hfe]
  have husound : (sender u).Sound := by
    rw [hsender]
    exact ⟨hsound.loop, hwf, hcap, fun hoff => absurd (hfe.symm.trans hoff) (by decide)⟩
  have hheld : ((sender u).accepted ++ (sender u).held).Sublist (written ++ [value.setWidth 8]) := by
    have hall : ((sender s).accepted ++ (if s.tsrRetry = 0 then [] else [s.tsr]) ++ rest).Sublist
        written := by
      refine List.Sublist.trans ?_ hsub
      rw [List.append_assoc]
      exact (hrest.append_left _).append_left _
    rw [hsender, Sender.held]
    dsimp only
    rw [hcont, ← List.append_assoc, ← List.append_assoc]
    exact hall.append_right _
  have hne : u.xmitFifo.num ≠ 0 := by
    rw [hfifo, ← Fifo.length_contents, hcont]
    simp
  have hlt : u.tsrRetry = 0 → u.xmitFifo.num < UART_FIFO_LENGTH := by
    intro hz
    rw [hfifo]
    exact hnum.trans_lt (hroom (hretry ▸ hz))
  rw [hu]
  refine sends_transmit husound (fun v hv => ?_) hheld
  obtain ⟨hvsound, hveq⟩ := loads_fifo husound hused hne hlt hv
  exact ⟨hvsound, hveq ▸ hheld⟩

/-- Without the FIFO the byte is sent at once, or it is lost. -/
theorem sends_writeThr_single {host : Host} {value : Word} (h : (sender s).Sends written)
    (hfe : has s.fcr UART_FCR_FE = false) :
    (sender (writeThr host value s)).Sends (written ++ [value.setWidth 8]) := by
  obtain ⟨u, hu, hsender, hthr⟩ := writeThr_eq host value s
  obtain ⟨hsound, hsub⟩ := h
  have hsame : sender u = sender s := by
    rw [hsender, filled, hfe]
    rfl
  have hfcr : u.fcr = s.fcr := congrArg Sender.fcr hsender
  have hheld : ((sender u).accepted ++ (sender u).held).Sublist (written ++ [value.setWidth 8]) := by
    rw [hsame]
    exact hsub.trans (List.sublist_append_left _ _)
  have husound : (sender u).Sound := hsame ▸ hsound
  rw [hu]
  refine sends_transmit husound (fun v hv => ?_) hheld
  rcases loadTsr_cases hv with ⟨-, hon, -⟩ | ⟨-, -, hload⟩ | ⟨hnz, hload⟩
  · exact absurd ((hfcr ▸ hon).symm.trans hfe) (by decide)
  · rw [hload, hsame, hthr]
    refine ⟨⟨hsound.loop, hsound.fifo, hsound.capacity, hsound.empty⟩, ?_⟩
    have hempty : (sender s).xmitFifo.contents = [] := hsound.empty hfe
    have hacc : (sender s).accepted.Sublist written := (List.sublist_append_left _ _).trans hsub
    dsimp only
    rw [hempty]
    exact hacc.append_right _
  · rw [Sender.held_of_retry (show (sender u).tsrRetry ≠ 0 from hnz)] at hheld
    rw [hload]
    exact ⟨husound, hheld⟩

end Thr

theorem has_fe (x : Byte) : has x UART_FCR_FE = x.getLsbD 0 := by
  revert x
  decide

theorem has_xfr (x : Byte) : has x UART_FCR_XFR = x.getLsbD 2 := by
  revert x
  decide

section Fcr

variable {s : Serial} {written : List Byte}

/-- The value whose bits `writeFcr` acts on. -/
def fcrValue (s : Serial) (value : Byte) : Byte :=
  if has (value ^^^ s.fcr) UART_FCR_FE then value ||| (UART_FCR_XFR ||| UART_FCR_RFR) else value

/-- The receive FIFO is cleared by a bit of FCR. -/
def clearRecv (s : Serial) (bits : Byte) : Serial :=
  if has bits UART_FCR_RFR then
    { s with fifoTimeoutTimer := none, timeoutIpending := false, recvFifo := s.recvFifo.clear }
  else s

def clearXmit (s : Serial) (bits : Byte) : Serial :=
  if has bits UART_FCR_XFR then { s with xmitFifo := s.xmitFifo.clear } else s

def setTrigger (s : Serial) (bits : Byte) : Serial :=
  if has bits UART_FCR_FE then
    { s with iir := s.iir ||| UART_IIR_FE, recvFifoITL := triggerLevel bits }
  else { s with iir := s.iir &&& ~~~UART_IIR_FE }

theorem writeFcr_eq {value : Word} (hne : s.fcr ≠ value.setWidth 8) : writeFcr value s =
    updateIRQ
      { setTrigger (clearXmit (clearRecv s (fcrValue s (value.setWidth 8)))
          (fcrValue s (value.setWidth 8))) (fcrValue s (value.setWidth 8)) with
        fcr := fcrValue s (value.setWidth 8) &&& 0xC9 } := if_neg hne

theorem sender_writeFcr {value : Word} (hne : s.fcr ≠ value.setWidth 8) :
    sender (writeFcr value s) = { sender s with
      xmitFifo :=
        if has (fcrValue s (value.setWidth 8)) UART_FCR_XFR then s.xmitFifo.clear else s.xmitFifo
      fcr := fcrValue s (value.setWidth 8) &&& 0xC9 } := by
  have hrecv (bits : Byte) : sender (clearRecv s bits) = sender s := by
    rw [clearRecv]
    split <;> rfl
  have hxmit (u : Serial) (bits : Byte) : sender (clearXmit u bits) = { sender u with
      xmitFifo := if has bits UART_FCR_XFR then u.xmitFifo.clear else u.xmitFifo } := by
    rw [clearXmit]
    split <;> rfl
  have htrigger (u : Serial) (bits : Byte) : sender (setTrigger u bits) = sender u := by
    rw [setTrigger]
    split <;> rfl
  generalize hbits : fcrValue s (value.setWidth 8) = bits
  have hall : sender (setTrigger (clearXmit (clearRecv s bits) bits) bits) = { sender s with
      xmitFifo := if has bits UART_FCR_XFR then s.xmitFifo.clear else s.xmitFifo } := by
    rw [htrigger, hxmit, hrecv]
    have hfifo : (clearRecv s bits).xmitFifo = s.xmitFifo :=
      congrArg Sender.xmitFifo (hrecv bits)
    rw [hfifo]
  rw [writeFcr_eq hne, hbits, sender_updateIRQ]
  exact congrArg (fun x : Sender => { x with fcr := bits &&& 0xC9 }) hall

/-- When FIFO mode is turned off the transmit FIFO is cleared. -/
theorem fcrValue_off {value : Byte} (hoff : has (fcrValue s value &&& 0xC9) UART_FCR_FE = false)
    (hon : has s.fcr UART_FCR_FE = true) : has (fcrValue s value) UART_FCR_XFR = true := by
  have hsame : (fcrValue s value).getLsbD 0 = value.getLsbD 0 := by
    rw [fcrValue]
    split
    · rw [BitVec.getLsbD_or, show (UART_FCR_XFR ||| UART_FCR_RFR).getLsbD 0 = false by decide,
        Bool.or_false]
    · rfl
  have hclear : value.getLsbD 0 = false := by
    rw [has_fe, BitVec.getLsbD_and, hsame, show (0xC9 : Byte).getLsbD 0 = true by decide,
      Bool.and_true] at hoff
    exact hoff
  have hchanged : has (value ^^^ s.fcr) UART_FCR_FE = true := by
    rw [has_fe] at hon
    rw [has_fe, BitVec.getLsbD_xor, hclear, hon]
    rfl
  rw [has_xfr, fcrValue, if_pos hchanged, BitVec.getLsbD_or,
    show (UART_FCR_XFR ||| UART_FCR_RFR).getLsbD 2 = true by decide, Bool.or_true]

/-- A write to FCR may clear the FIFO, and does when FIFO mode is turned off. -/
theorem sends_writeFcr {value : Word} (h : (sender s).Sends written) :
    (sender (writeFcr value s)).Sends written := by
  obtain ⟨hsound, hsub⟩ := h
  by_cases hsame : s.fcr = value.setWidth 8
  · rw [writeFcr]
    dsimp only
    rw [if_pos hsame]
    exact ⟨hsound, hsub⟩
  · rw [sender_writeFcr hsame]
    by_cases hxfr : has (fcrValue s (value.setWidth 8)) UART_FCR_XFR = true
    · rw [if_pos hxfr]
      refine ⟨⟨hsound.loop, Fifo.wellFormed_clear hsound.fifo, hsound.capacity,
        fun _ => Fifo.contents_clear _⟩, List.Sublist.trans ?_ hsub⟩
      exact ((List.nil_sublist _).append_left _).append_left _
    · rw [if_neg hxfr]
      refine ⟨⟨hsound.loop, hsound.fifo, hsound.capacity, fun hoff => ?_⟩, hsub⟩
      cases hfe : has s.fcr UART_FCR_FE with
      | true => exact absurd (fcrValue_off hoff hfe) hxfr
      | false => exact hsound.empty hfe

end Fcr

/-! ## Runs -/

section Step

variable {s : Serial} {written : List Byte}

theorem Sender.Sends.more {x : Sender} (h : x.Sends written) (l : List Byte) :
    x.Sends (written ++ l) :=
  ⟨h.sound, h.sublist.trans (List.sublist_append_left _ _)⟩

/-- The bits of MCR that are kept include the one for loopback. -/
theorem has_loop (value : Word) (h : has (value.setWidth 8) UART_MCR_LOOP = false) :
    has ((value &&& 0x1f).setWidth 8) UART_MCR_LOOP = false := by
  have hand : (value &&& 0x1f).setWidth 8 = value.setWidth 8 &&& (0x1f : Byte) := by
    rw [BitVec.setWidth_and]
    rfl
  rw [hand, has, BitVec.and_assoc]
  exact h

theorem sends_ioWrite {host : Host} {port value : Word} (h : (sender s).Sends written)
    (hloop : NoLoopback s (.write port value, host)) (hroom : HasRoom s (.write port value, host)) :
    (sender (ioWrite host port value s)).Sends (written ++ (thrByte s (.write port value)).toList) := by
  unfold ioWrite
  split
  · split
    · exact (sender_updateParameters _ host).symm ▸ h.more _
    · exact (sender_writeIer s value).symm ▸ h.more _
  · exact (sends_writeFcr h).more _
  · exact (sender_writeLcr s host value).symm ▸ h.more _
  · next h4 =>
    have hmcr : port &&& 7 = 4 := BitVec.eq_of_toNat_eq h4
    have hkeep : Sender.Sends { sender s with mcr := (value &&& 0x1f).setWidth 8 } written :=
      ⟨⟨has_loop value (hloop hmcr), h.sound.fifo, h.sound.capacity, h.sound.empty⟩, h.sublist⟩
    rw [sender_writeMcr]
    exact hkeep.more _
  · exact h.more _
  · exact h.more _
  · exact Sender.Sends.more (x := sender s) h _
  · next h1 h2 h3 h4 h5 h6 h7 =>
    have hport : port &&& 7 = 0 := port_eq_zero h1 h2 h3 h4 h5 h6 h7
    cases hd : has s.lcr UART_LCR_DLAB with
    | true =>
      rw [if_pos rfl]
      exact (sender_updateParameters _ host).symm ▸ h.more _
    | false =>
      have hthr : thrByte s (.write port value) = some (value.setWidth 8) := if_pos ⟨hport, hd⟩
      rw [if_neg Bool.false_ne_true, hthr]
      have hfree : has s.fcr UART_FCR_FE = true → s.tsrRetry = 0 →
          s.xmitFifo.num + 1 < UART_FIFO_LENGTH :=
        hroom (show (thrByte s (.write port value)).isSome = true by rw [hthr]; rfl)
      cases hfe : has s.fcr UART_FCR_FE with
      | true => exact sends_writeThr_fifo h hfe (hfree hfe)
      | false => exact sends_writeThr_single h hfe

/-- Every operation keeps the bytes in order. -/
theorem sends_apply {i : Op × Host} (h : (sender s).Sends written) (hloop : NoLoopback s i)
    (hroom : HasRoom s i) :
    (sender (i.1.apply i.2 s)).Sends (written ++ (thrByte s i.1).toList) := by
  obtain ⟨op, host⟩ := i
  cases op with
  | read port => exact (sender_ioRead s host port).symm ▸ h.more _
  | write port value => exact sends_ioWrite h hloop hroom
  | receive buf => exact (sender_receive s host buf).symm ▸ h.more _
  | event isBreak =>
    cases isBreak with
    | true => exact (sender_receiveBreak s).symm ▸ h.more _
    | false => exact h.more _
  | transmit => exact absurd hloop id
  | fifoTimeoutTimer => exact Sender.Sends.more (x := sender s) h _
  | modemStatusPoll => exact (sender_fifoTimeoutInterrupt s).symm ▸ h.more _
  | reset =>
    have hloop : has UART_MCR_OUT2 UART_MCR_LOOP = false := by decide
    have hsub : ((sender (reset host s)).accepted ++ (sender (reset host s)).held).Sublist written := by
      rw [Sender.held_of_idle rfl]
      exact ((List.nil_sublist _).append_left _).trans h.sublist
    have hkeep : (sender (reset host s)).Sends written :=
      ⟨⟨hloop, Fifo.wellFormed_clear h.sound.fifo, h.sound.capacity, fun _ => rfl⟩, hsub⟩
    exact hkeep.more _

end Step

theorem sends_run {s t : Serial} {bytes : List Byte} {is : List (Op × Host)}
    (h : (sender s).Sends bytes) (hloop : Guarded step NoLoopback s is)
    (hroom : Guarded step HasRoom s is) (ht : exec step s is = some t) :
    (sender t).Sends (bytes ++ written s is) := by
  induction is generalizing s bytes with
  | nil =>
    obtain rfl : s = t := by simpa using ht
    rw [written, List.append_nil]
    exact h
  | cons i is ih =>
    have hnext := ih (sends_apply h hloop.1 hroom.1) (hloop.2 _ rfl) (hroom.2 _ rfl) ht
    rw [List.append_assoc] at hnext
    exact hnext

/-- While no write to THR in FIFO mode takes the last free place, the bytes that the
back-end accepts are bytes written to THR, in the order in which they were written, and
none of them twice. -/
theorem accepted_sublist_written {host : Host} {recvData xmitData : Nat → Byte}
    {is : List (Op × Host)} {t : Serial}
    (hloop : Guarded step NoLoopback (construct host recvData xmitData) is)
    (hroom : Guarded step HasRoom (construct host recvData xmitData) is)
    (ht : exec step (construct host recvData xmitData) is = some t) :
    (accepted t.log).Sublist (written (construct host recvData xmitData) is) := by
  have hoff : has UART_MCR_OUT2 UART_MCR_LOOP = false := by decide
  have hfifo : (Fifo.new xmitData UART_FIFO_LENGTH).clear.WellFormed :=
    Fifo.wellFormed_clear (Fifo.wellFormed_new xmitData (by decide) (by decide))
  have hnew : (sender (construct host recvData xmitData)).Sends [] :=
    ⟨⟨hoff, hfifo, rfl, fun _ => rfl⟩, .refl _⟩
  have hrun := (sends_run hnew hloop hroom ht).sublist
  rw [List.nil_append] at hrun
  exact (List.sublist_append_left _ _).trans hrun

/-- FIFO mode, and as many writes to THR that the back-end refuses as it takes to fill the
FIFO. -/
def refusedWrites : List (Op × Host) :=
  (.write 2 0x01, ⟨0, false⟩) :: List.replicate 20 (.write 0 0x41, ⟨0, false⟩)

/-- Two bytes without the FIFO: the first one is refused and retried. -/
theorem retried_sublist_written : ∃ t,
    exec step (construct ⟨0, true⟩ (fun _ => 0) fun _ => 0)
        [(.write 0 0x41, ⟨0, false⟩), (.write 0 0x42, ⟨0, true⟩)] = some t ∧
      (accepted t.log).Sublist (written (construct ⟨0, true⟩ (fun _ => 0) fun _ => 0)
        [(.write 0 0x41, ⟨0, false⟩), (.write 0 0x42, ⟨0, true⟩)]) :=
  ⟨_, rfl, accepted_sublist_written (by decide) (by decide) rfl⟩

/-- The next write sends a zero that was never written. -/
theorem full_fifo_sends_zero :
    Guarded step NoLoopback (construct ⟨0, true⟩ (fun _ => 0) fun _ => 0)
        (refusedWrites ++ [(.write 0 0x41, ⟨0, true⟩)]) ∧
      ∃ t, exec step (construct ⟨0, true⟩ (fun _ => 0) fun _ => 0)
          (refusedWrites ++ [(.write 0 0x41, ⟨0, true⟩)]) = some t ∧
        ¬ (accepted t.log).Sublist (written (construct ⟨0, true⟩ (fun _ => 0) fun _ => 0)
          (refusedWrites ++ [(.write 0 0x41, ⟨0, true⟩)])) := by
  refine ⟨by decide, _, rfl, ?_⟩
  decide +kernel

end OpenXbox.Uart.Transmission
