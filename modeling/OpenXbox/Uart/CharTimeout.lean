import OpenXbox.Uart.LineSettings

/-!
# The character timeout of the UART

Both timers fire once after each time that they are set, at the earliest when they are due. The
constructor gives each of them the callback of the other one.
-/

namespace OpenXbox.Uart.CharTimeout

open OpenXbox.Common OpenXbox.Lib.Run OpenXbox.Uart.Device OpenXbox.Uart.Coherence
  OpenXbox.Uart.LineSettings

/-- The device, and whether its FIFO timer runs since a reception or a read of RBR with no other
read or clear since. -/
structure Watched where
  device : Serial
  live : Bool

/-- The operation receives in FIFO mode, in loopback mode from the device itself. -/
def receives (s : Serial) (op : Op) : Bool :=
  has s.fcr UART_FCR_FE && match op with
    | .receive _ => true
    | .transmit => has s.mcr UART_MCR_LOOP
    | .write port _ => port &&& 7 == 0 && !has s.lcr UART_LCR_DLAB && has s.mcr UART_MCR_LOOP
    | _ => false

def readsRbr (s : Serial) (op : Op) : Bool :=
  match op with
  | .read port => port &&& 7 == 0 && !has s.lcr UART_LCR_DLAB
  | _ => false

/-- The operation throws away what has been received, or is the expiry of the timer. -/
def ends (s : Serial) (op : Op) : Bool :=
  match op with
  | .write port value => port &&& 7 == 2 && s.fcr != value.setWidth 8 &&
      (has (value.setWidth 8 ^^^ s.fcr) UART_FCR_FE || has (value.setWidth 8) UART_FCR_RFR)
  | .fifoTimeoutTimer => true
  | .reset => true
  | _ => false

/-- A read of RBR sets the timer again when it leaves bytes in the FIFO. -/
def liveAfter (s : Serial) (op : Op) (s' : Serial) (live : Bool) : Bool :=
  if receives s op then true
  else if readsRbr s op then decide (s'.recvFifo.count ≠ 0)
  else if ends s op then false
  else live

/-- A timer can expire from the time on that it has been set to. -/
def due (s : Serial) (i : Op × Host) : Bool :=
  match i.1 with
  | .fifoTimeoutTimer => s.fifoTimeoutTimer.any fun target => decide (target ≤ i.2.now)
  | .modemStatusPoll => s.modemStatusPoll.any fun target => decide (target ≤ i.2.now)
  | _ => true

/-- A timer that expires is no longer set. -/
def elapse (s : Serial) (op : Op) : Serial :=
  match op with
  | .fifoTimeoutTimer => { s with fifoTimeoutTimer := none }
  | .modemStatusPoll => { s with modemStatusPoll := none }
  | _ => s

def step (w : Watched) (i : Op × Host) : Option Watched :=
  if due w.device i then
    let device := i.1.apply i.2 (elapse w.device i.1)
    some ⟨device, liveAfter w.device i.1 device w.live⟩
  else none

def start (host : Host) (recvData xmitData : Nat → Byte) : Watched :=
  ⟨construct host recvData xmitData, false⟩

/-- Bytes wait in the FIFO for the guest, with their timer set and their interrupt enabled. -/
def Watched.Waiting (w : Watched) : Prop :=
  w.live = true ∧ has w.device.fcr UART_FCR_FE = true ∧ has w.device.ier UART_IER_RDI = true ∧
    w.device.recvFifo.count ≠ 0

/-- The timeout is pending, and IIR says so unless a line status interrupt comes first. -/
def Reported (s : Serial) : Prop :=
  s.timeoutIpending = true ∧
    (Cause.lineStatus.raised s = false → s.iir &&& 0x0F = UART_IIR_CTI)

/-- The expiry of the FIFO timer reports a timeout, and that of the other timer causes none. -/
def StepOk (w : Watched) (i : Op × Host) : Prop :=
  ∀ w', step w i = some w' →
    (i.1 = .fifoTimeoutTimer → w.Waiting → Reported w'.device) ∧
      (i.1 = .modemStatusPoll → w'.device.timeoutIpending = true →
        w.device.timeoutIpending = true)

/-- No FIFO timer expires while it matters, and the other timer only with an empty FIFO. -/
def Avoids (w : Watched) (i : Op × Host) : Prop :=
  due w.device i = true → match i.1 with
    | .fifoTimeoutTimer => ¬ w.Waiting
    | .modemStatusPoll => w.device.recvFifo.count = 0
    | _ => True

/-! ## Runs -/

/-- The callback that the other timer has would report the timeout. -/
theorem fifoTimeoutInterrupt_reported {s : Serial} (hrdi : has s.ier UART_IER_RDI = true)
    (hcount : s.recvFifo.count ≠ 0) : Reported (fifoTimeoutInterrupt s) := by
  rw [fifoTimeoutInterrupt, if_pos hcount]
  refine ⟨congrArg Settings.timeoutIpending (settings_updateIRQ _), fun hline => ?_⟩
  have hraised : Cause.lineStatus.raised { s with timeoutIpending := true } = false := by
    rw [updateIRQ_eq] at hline
    exact hline
  have htimeout : Cause.charTimeout.raised { s with timeoutIpending := true } = true := by
    simp [Cause.raised, hrdi]
  have hfirst : priority { s with timeoutIpending := true } = some .charTimeout := by
    rw [priority, Cause.order, List.find?_cons_of_neg (by simp [hraised]),
      List.find?_cons_of_pos htimeout]
  have hsame : priority (updateIRQ { s with timeoutIpending := true }) = some .charTimeout := by
    rw [← hfirst, updateIRQ_eq]
    exact priority_congr fun c => by cases c <;> rfl
  rw [(coherent_updateIRQ _).iir_eq, hsame]
  rfl

section Step

variable {w w' : Watched} {i : Op × Host}

theorem step_due (h : due w.device i = true) : step w i =
    some ⟨i.1.apply i.2 (elapse w.device i.1),
      liveAfter w.device i.1 (i.1.apply i.2 (elapse w.device i.1)) w.live⟩ := if_pos h

theorem step_not_due (h : due w.device i ≠ true) : step w i = none := if_neg h

theorem pending_elapse (s : Serial) (op : Op) : (elapse s op).timeoutIpending = s.timeoutIpending := by
  cases op <;> rfl

/-- The callback of the FIFO timer leaves the pending state alone, and that of the other timer
sets it. -/
theorem stepOk_iff (h : w.device.timeoutIpending = false) : StepOk w i ↔ Avoids w i := by
  obtain ⟨op, host⟩ := i
  by_cases hdue : due w.device (op, host) = true
  · have hone : StepOk w (op, host) ↔
        (op = .fifoTimeoutTimer → w.Waiting → Reported (op.apply host (elapse w.device op))) ∧
          (op = .modemStatusPoll → (op.apply host (elapse w.device op)).timeoutIpending = true →
            w.device.timeoutIpending = true) := by
      rw [StepOk, step_due hdue]
      exact ⟨fun hs => hs _ rfl, fun hs w' hw => Option.some.inj hw ▸ hs⟩
    rw [hone, Avoids]
    cases op with
    | fifoTimeoutTimer =>
      constructor
      · intro hok _ hwaiting
        exact absurd ((hok.1 rfl hwaiting).1.symm.trans h) (by decide)
      · intro havoid
        refine ⟨fun _ hwaiting => absurd hwaiting (havoid hdue), fun hne => ?_⟩
        cases hne
    | modemStatusPoll =>
      have hset : (fifoTimeoutInterrupt (elapse w.device .modemStatusPoll)).timeoutIpending =
          decide (w.device.recvFifo.count ≠ 0) := by
        rw [fifoTimeoutInterrupt]
        split
        · rename_i hcount
          have hwaiting : decide (w.device.recvFifo.count ≠ 0) = true := decide_eq_true hcount
          rw [hwaiting]
          exact congrArg Settings.timeoutIpending (settings_updateIRQ _)
        · rename_i hcount
          rw [pending_elapse, h]
          exact (decide_eq_false hcount).symm
      constructor
      · intro hok _
        by_contra hcount
        have hpending := hok.2 rfl (hset.trans (decide_eq_true hcount))
        exact absurd (hpending.symm.trans h) (by decide)
      · intro havoid
        refine ⟨fun hne => (by cases hne), fun _ hpending => ?_⟩
        rw [Op.apply, hset, decide_eq_true_eq] at hpending
        exact absurd (havoid hdue) hpending
    | _ =>
      refine ⟨fun _ _ => trivial, fun _ => ⟨fun hne => ?_, fun hne => ?_⟩⟩
      · cases hne
      · cases hne
  · refine iff_of_true (fun w' hw => ?_) fun hnow => absurd hnow hdue
    rw [step_not_due hdue] at hw
    cases hw

/-- No timeout is pending after a step that meets the condition. -/
theorem step_pending (h : w.device.timeoutIpending = false) (ha : Avoids w i)
    (hs : step w i = some w') : w'.device.timeoutIpending = false := by
  obtain ⟨op, host⟩ := i
  by_cases hdue : due w.device (op, host) = true
  · rw [Bool.eq_false_iff]
    intro hpending
    have hok := (stepOk_iff h).mpr ha w' hs
    rw [step_due hdue] at hs
    obtain rfl := Option.some.inj hs
    by_cases hop : op = .modemStatusPoll
    · exact absurd ((hok.2 hop hpending).symm.trans h) (by decide)
    · have hbefore := timeout_apply (elapse w.device op) host hop hpending
      rw [pending_elapse] at hbefore
      exact absurd (hbefore.symm.trans h) (by decide)
  · rw [step_not_due hdue] at hs
    cases hs

end Step

/-- Along a run the timers do what they are for exactly when the one for the FIFO never expires
while it matters, and the one for the modem status only with an empty FIFO. -/
theorem timers_ok_iff (host : Host) (recvData xmitData : Nat → Byte) (is : List (Op × Host)) :
    Guarded step StepOk (start host recvData xmitData) is ↔
      Guarded step Avoids (start host recvData xmitData) is := by
  apply guarded_congr (I := fun w => w.device.timeoutIpending = false)
  · intro w i h
    exact stepOk_iff h
  · intro w i w' h ha hs
    exact step_pending h ha hs
  · rfl

/-- FIFO mode and the receive interrupt are turned on, a byte comes in and its timer expires. -/
def receiveAndWait : List (Op × Host) :=
  [(.write 2 0x81, ⟨0, true⟩), (.write 1 0x01, ⟨0, true⟩), (.receive [0x41], ⟨0, true⟩),
    (.fifoTimeoutTimer, ⟨SEC_TO_NANO, true⟩)]

theorem timeout_not_reported :
    ¬ ∀ (host : Host) (recvData xmitData : Nat → Byte) (is : List (Op × Host)),
      Guarded step StepOk (start host recvData xmitData) is := by
  intro h
  have hrun := (h ⟨0, true⟩ (fun _ => 0) (fun _ => 0) receiveAndWait).2 _ rfl
  have hexpiry := ((hrun.2 _ rfl).2 _ rfl).1 _ rfl
  have hreported := hexpiry.1 rfl ⟨rfl, rfl, rfl, by decide⟩
  exact absurd hreported.1 (by decide)

end OpenXbox.Uart.CharTimeout
