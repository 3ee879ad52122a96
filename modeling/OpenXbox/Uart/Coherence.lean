import OpenXbox.Uart.Device
import OpenXbox.Lib.Run
import Mathlib.Data.List.Find

/-!
# Coherence of the UART interrupt

`priority` is the 16550 order of the interrupt causes. A state is coherent when
the low nibble of IIR names the first raised cause and the last level sent agrees
with it. Two operations can leave it stale: a write to IER with THR full, and a
reset. `Recomputed` is the exact condition under which an operation does not.
-/

namespace OpenXbox.Uart.Coherence

open OpenXbox.Lib.Run OpenXbox.Uart.Device

inductive Cause where
  | lineStatus
  | charTimeout
  | receivedData
  | thrEmpty
  | modemStatus
deriving DecidableEq

/-- The cause is present and enabled. -/
def Cause.raised (s : Serial) : Cause → Bool
  | .lineStatus => has s.ier UART_IER_RLSI && has s.lsr UART_LSR_INT_ANY
  | .charTimeout => has s.ier UART_IER_RDI && s.timeoutIpending
  | .receivedData => has s.ier UART_IER_RDI && has s.lsr UART_LSR_DR &&
      (!has s.fcr UART_FCR_FE || decide (s.recvFifo.count ≥ s.recvFifoITL))
  | .thrEmpty => has s.ier UART_IER_THRI && s.thrIpending
  | .modemStatus => has s.ier UART_IER_MSI && has s.msr UART_MSR_ANY_DELTA

/-- The causes, the one served first in front. -/
def Cause.order : List Cause := [.lineStatus, .charTimeout, .receivedData, .thrEmpty, .modemStatus]

/-- The raised cause that is served first. -/
def priority (s : Serial) : Option Cause := Cause.order.find? (Cause.raised s)

/-- The low nibble of IIR for a cause, and for none. -/
def identification : Option Cause → Byte
  | none => 0x01
  | some .lineStatus => 0x06
  | some .charTimeout => 0x0C
  | some .receivedData => 0x04
  | some .thrEmpty => 0x02
  | some .modemStatus => 0x00

def nextLevel (level : Bool) : Output → Bool
  | .irq l => l
  | _ => level

/-- The last level sent to the interrupt handler; low before the first one. -/
def lastLevel (log : List Output) : Bool := log.foldl nextLevel false

structure Coherent (s : Serial) : Prop where
  iir_eq : s.iir &&& 0x0F = identification (priority s)
  level_eq : lastLevel s.log = decide (s.iir &&& 0x0F ≠ UART_IIR_NO_INT)

def step (s : Serial) (i : Op × Host) : Option Serial := some (i.1.apply i.2 s)

/-- The device is coherent after the operation. -/
def StepOk (s : Serial) (i : Op × Host) : Prop := ∀ s', step s i = some s' → Coherent s'

/-- A write to IER with THR full keeps the first raised cause, and a reset finds
none. -/
def Recomputed (s : Serial) (i : Op × Host) : Prop :=
  match i.1 with
  | .write port value =>
    port &&& 7 = 1 → has s.lcr UART_LCR_DLAB = false → has s.lsr UART_LSR_THRE = false →
      priority { s with ier := (value &&& 0x0f).setWidth 8 } = priority s
  | .reset => priority s = none
  | _ => True

theorem identification_injective : Function.Injective identification := by
  intro a b h
  match a, b, h with
  | none, none, _ => rfl
  | none, some c, h => cases c <;> exact absurd h (by decide)
  | some c, none, h => cases c <;> exact absurd h (by decide)
  | some c, some d, h => cases c <;> cases d <;> first | rfl | exact absurd h (by decide)

theorem pendingIir_eq (s : Serial) : pendingIir s = identification (priority s) := by
  unfold pendingIir priority Cause.order
  simp only [List.find?_cons, List.find?_nil, Cause.raised]
  cases has s.ier UART_IER_RLSI && has s.lsr UART_LSR_INT_ANY with
  | true => rfl
  | false =>
    cases has s.ier UART_IER_RDI && s.timeoutIpending with
    | true => rfl
    | false =>
      cases has s.ier UART_IER_RDI && has s.lsr UART_LSR_DR &&
          (!has s.fcr UART_FCR_FE || decide (s.recvFifo.count ≥ s.recvFifoITL)) with
      | true => rfl
      | false =>
        cases has s.ier UART_IER_THRI && s.thrIpending with
        | true => rfl
        | false => cases has s.ier UART_IER_MSI && has s.msr UART_MSR_ANY_DELTA <;> rfl

theorem lastLevel_snoc (log : List Output) (o : Output) :
    lastLevel (log ++ [o]) = nextLevel (lastLevel log) o := by
  rw [lastLevel, List.foldl_append]
  rfl

/-! ## Recomputing the interrupt -/

theorem updateIRQ_eq (s : Serial) : updateIRQ s =
    { s with
      iir := pendingIir s ||| (s.iir &&& 0xF0)
      log := s.log ++ [.irq (decide (pendingIir s ≠ UART_IIR_NO_INT))] } := by
  rw [updateIRQ]
  by_cases h : pendingIir s ≠ UART_IIR_NO_INT
  · rw [decide_eq_true h]
    exact if_pos h
  · rw [decide_eq_false h]
    exact if_neg h

theorem identification_and (c : Option Cause) :
    identification c &&& 0x0F = identification c := by
  cases c with
  | none => rfl
  | some c => cases c <;> rfl

theorem nibble_or (x : Byte) {t : Byte} (ht : t &&& 0x0F = t) :
    (t ||| (x &&& 0xF0)) &&& 0x0F = t := by
  rw [BitVec.and_or_distrib_right, ht, BitVec.and_assoc,
    show (0xF0 : Byte) &&& 0x0F = 0#8 from rfl, BitVec.and_zero, BitVec.or_zero]

theorem coherent_updateIRQ (s : Serial) : Coherent (updateIRQ s) := by
  have hp : pendingIir s = identification (priority s) := pendingIir_eq s
  have hn : (pendingIir s ||| (s.iir &&& 0xF0)) &&& 0x0F = pendingIir s :=
    nibble_or s.iir (by rw [hp]; exact identification_and _)
  rw [updateIRQ_eq]
  refine ⟨hn.trans hp, ?_⟩
  simp only [lastLevel_snoc, nextLevel, hn]

/-- Nothing that the interrupt depends on differs between the two states. -/
structure Quiet (s t : Serial) : Prop where
  priority_eq : priority t = priority s
  iir_eq : t.iir = s.iir
  level_eq : lastLevel t.log = lastLevel s.log

theorem Quiet.trans {s t u : Serial} (hst : Quiet s t) (htu : Quiet t u) : Quiet s u :=
  ⟨htu.priority_eq.trans hst.priority_eq, htu.iir_eq.trans hst.iir_eq,
    htu.level_eq.trans hst.level_eq⟩

theorem Coherent.of_quiet {s t : Serial} (h : Coherent s) (hq : Quiet s t) : Coherent t := by
  refine ⟨?_, ?_⟩
  · rw [hq.iir_eq, hq.priority_eq]
    exact h.iir_eq
  · rw [hq.iir_eq, hq.level_eq]
    exact h.level_eq

theorem quiet_emit (s : Serial) {o : Output} (ho : ∀ l, nextLevel l o = l) : Quiet s (s.emit o) :=
  ⟨rfl, rfl, (lastLevel_snoc _ _).trans (ho _)⟩

theorem has_or {x m k : Byte} (h : m &&& k = 0#8) : has (x ||| m) k = has x k := by
  rw [has, has, BitVec.and_or_distrib_right, h, BitVec.or_zero]

theorem has_clear {x m k : Byte} (h : ~~~m &&& k = k) : has (x &&& ~~~m) k = has x k := by
  rw [has, has, BitVec.and_assoc, h]

theorem priority_congr {s t : Serial} (h : ∀ c : Cause, c.raised t = c.raised s) :
    priority t = priority s := List.find?_congr fun c _ => h c

/-- The two bits of LSR about transmission do not matter to the interrupt. -/
theorem quiet_setLsr (s : Serial) {m : Byte} (h1 : m &&& UART_LSR_INT_ANY = 0)
    (h2 : m &&& UART_LSR_DR = 0) : Quiet s (s.setLsr m) := by
  refine ⟨priority_congr fun c => ?_, rfl, rfl⟩
  cases c with
  | lineStatus => simp only [Cause.raised, Serial.setLsr, has_or h1]
  | receivedData => simp only [Cause.raised, Serial.setLsr, has_or h2]; rfl
  | charTimeout => rfl
  | thrEmpty => rfl
  | modemStatus => rfl

theorem quiet_clearLsr (s : Serial) {m : Byte} (h1 : ~~~m &&& UART_LSR_INT_ANY = UART_LSR_INT_ANY)
    (h2 : ~~~m &&& UART_LSR_DR = UART_LSR_DR) : Quiet s (s.clearLsr m) := by
  refine ⟨priority_congr fun c => ?_, rfl, rfl⟩
  cases c with
  | lineStatus => simp only [Cause.raised, Serial.clearLsr, has_clear h1]
  | receivedData => simp only [Cause.raised, Serial.clearLsr, has_clear h2]; rfl
  | charTimeout => rfl
  | thrEmpty => rfl
  | modemStatus => rfl

/-! ## Transmission -/

theorem quiet_setThre (s : Serial) : Quiet s (s.setLsr UART_LSR_THRE) :=
  quiet_setLsr s (by decide) (by decide)

theorem quiet_loadFifo (s : Serial) : Quiet s (loadFifo s) := by
  rw [loadFifo]
  split
  · exact ⟨rfl, rfl, rfl⟩
  · exact ⟨rfl, rfl, rfl⟩

theorem quiet_loadTsr {s t : Serial} (h : loadTsr s = some t) : Quiet s t := by
  unfold loadTsr at h
  split at h
  · split at h
    · split at h
      · obtain rfl := Option.some.inj h
        exact (quiet_loadFifo s).trans (quiet_setThre _)
      · obtain rfl := Option.some.inj h
        exact quiet_loadFifo s
    · split at h
      · cases h
      · obtain rfl := Option.some.inj h
        have htsr : Quiet s { s with tsr := s.thr } := ⟨rfl, rfl, rfl⟩
        exact (htsr.trans (quiet_setThre _)).trans (quiet_clearLsr _ (by decide) (by decide))
  · obtain rfl := Option.some.inj h
    exact ⟨rfl, rfl, rfl⟩

theorem coherent_transmitted (host : Host) {s : Serial} (h : Coherent s) :
    Coherent (transmitted host s) := by
  rw [transmitted]
  dsimp only
  split
  · exact coherent_updateIRQ _
  · exact h.of_quiet ⟨rfl, rfl, rfl⟩

theorem coherent_receive (host : Host) (buf : List Byte) (s : Serial) :
    Coherent (receive host buf s) := by
  rw [receive]
  split
  · exact coherent_updateIRQ _
  · exact coherent_updateIRQ _

theorem coherent_transmit (host : Host) {s : Serial} (h : Coherent s) :
    Coherent (transmit host s) := by
  rw [transmit]
  cases hl : loadTsr s with
  | none => exact h
  | some t =>
    have ht : Coherent t := h.of_quiet (quiet_loadTsr hl)
    dsimp only
    split
    · exact coherent_transmitted host (coherent_receive host _ t)
    · have hw : Quiet t (t.emit (.write t.tsr host.writeAccepted)) := quiet_emit t fun _ => rfl
      have hretry : ∀ n, Coherent { t.emit (.write t.tsr host.writeAccepted) with tsrRetry := n } :=
        fun n => ht.of_quiet (hw.trans ⟨rfl, rfl, rfl⟩)
      split
      · split
        · exact hretry _
        · exact coherent_transmitted host (hretry 0)
      · exact coherent_transmitted host (hretry 0)

/-! ## Register accesses -/

theorem quiet_updateParameters (host : Host) (s : Serial) :
    Quiet s (updateParameters host s) := by
  rw [updateParameters]
  split
  · exact ⟨rfl, rfl, rfl⟩
  · dsimp only
    refine Quiet.trans ?_ (quiet_emit _ fun _ => rfl)
    exact ⟨rfl, rfl, rfl⟩

theorem quiet_readMsl (s : Serial) : Quiet s (readMsl s) := by
  rw [readMsl]
  split
  · exact ⟨rfl, rfl, rfl⟩
  · exact ⟨rfl, rfl, rfl⟩

theorem quiet_acceptInput (s : Serial) : Quiet s (acceptInput s) := by
  rw [acceptInput]
  split
  · exact quiet_emit s fun _ => rfl
  · exact ⟨rfl, rfl, rfl⟩

theorem coherent_ioRead (host : Host) (port : Word) {s : Serial} (h : Coherent s) :
    Coherent (ioRead host port s).2 :=
  ioRead_cases (motive := Coherent) host port s (fun _ => h) (fun _ => coherent_updateIRQ _)
    (fun _ => coherent_updateIRQ _) (fun _ => h.of_quiet (quiet_readMsl s))
    (fun _ => coherent_updateIRQ _) fun _ => (coherent_updateIRQ _).of_quiet (quiet_acceptInput _)

theorem coherent_writeFcr (value : Word) {s : Serial} (h : Coherent s) :
    Coherent (writeFcr value s) := by
  rw [writeFcr]
  dsimp only
  split
  · exact h
  · exact coherent_updateIRQ _

theorem coherent_writeLcr (host : Host) (value : Word) {s : Serial} (h : Coherent s) :
    Coherent (writeLcr host value s) := by
  have hl : Quiet s { s with lcr := value.setWidth 8 } := ⟨rfl, rfl, rfl⟩
  have hp := hl.trans (quiet_updateParameters host _)
  rw [writeLcr]
  split
  · refine h.of_quiet (hp.trans (Quiet.trans ?_ (quiet_emit _ fun _ => rfl)))
    exact ⟨rfl, rfl, rfl⟩
  · exact h.of_quiet hp

theorem coherent_writeMcr (host : Host) (value : Word) {s : Serial} (h : Coherent s) :
    Coherent (writeMcr host value s) := by
  rw [writeMcr]
  dsimp only
  split
  · exact h.of_quiet ⟨rfl, rfl, rfl⟩
  · split
    · exact h.of_quiet ⟨rfl, rfl, rfl⟩
    · exact h.of_quiet ⟨rfl, rfl, rfl⟩

theorem coherent_writeThr (host : Host) (value : Word) (s : Serial) :
    Coherent (writeThr host value s) := by
  rw [writeThr]
  exact coherent_transmit host (coherent_updateIRQ _)

theorem quiet_pollModem (s : Serial) : Quiet s (pollModem s) := by
  rw [pollModem]
  split
  · split
    · exact ⟨rfl, rfl, rfl⟩
    · exact ⟨rfl, rfl, rfl⟩
  · exact ⟨rfl, rfl, rfl⟩

theorem pollModem_lsr (s : Serial) : (pollModem s).lsr = s.lsr := by
  rw [pollModem]
  split
  · split
    · rfl
    · rfl
  · rfl

/-- Without the empty bit of THR, a write to IER is coherent exactly when the cause
served first stays the same. -/
theorem coherent_writeIer_iff {value : Word} {s : Serial} (h : Coherent s) :
    Coherent (writeIer value s) ↔ (has s.lsr UART_LSR_THRE = false →
      priority { s with ier := (value &&& 0x0f).setWidth 8 } = priority s) := by
  have hq := quiet_pollModem { s with ier := (value &&& 0x0f).setWidth 8 }
  rw [writeIer]
  simp only [pollModem_lsr]
  cases ht : has s.lsr UART_LSR_THRE with
  | true =>
    rw [if_pos rfl]
    exact iff_of_true (coherent_updateIRQ _) nofun
  | false =>
    rw [if_neg Bool.false_ne_true]
    constructor
    · intro hc _
      apply identification_injective
      rw [← hq.priority_eq, ← hc.iir_eq, ← h.iir_eq, hq.iir_eq]
    · intro hp
      refine ⟨?_, ?_⟩
      · rw [hq.iir_eq, hq.priority_eq, hp rfl]
        exact h.iir_eq
      · rw [hq.iir_eq, hq.level_eq]
        exact h.level_eq

theorem priority_reset (host : Host) (s : Serial) : priority (reset host s) = none := by
  rw [priority, List.find?_eq_none]
  intro c _
  have h0 : ∀ m : Byte, has 0#8 m = false := fun m => by simp [has]
  cases c <;> simp [Cause.raised, reset, h0]

theorem iir_reset (host : Host) (s : Serial) :
    (reset host s).iir &&& 0x0F = identification none :=
  show UART_IIR_NO_INT &&& 0x0F = 0x01 by decide

/-- A reset is coherent exactly when no interrupt is pending before it. -/
theorem coherent_reset_iff {host : Host} {s : Serial} (h : Coherent s) :
    Coherent (reset host s) ↔ priority s = none := by
  have hlevel : lastLevel (reset host s).log = decide (identification (priority s) ≠ 0x01) := by
    rw [← h.iir_eq]
    exact h.level_eq
  have hne : identification (priority s) ≠ 0x01 ↔ priority s ≠ none :=
    (identification_injective.ne_iff (y := none))
  constructor
  · intro hc
    have hl := hc.level_eq
    rw [hlevel, iir_reset] at hl
    by_contra hp
    rw [decide_eq_true (hne.mpr hp)] at hl
    exact absurd hl (by decide)
  · intro hp
    refine ⟨?_, ?_⟩
    · rw [priority_reset, iir_reset]
    · rw [hlevel, hp, iir_reset]
      decide

/-- A divisor latch write leaves the interrupt as it is. -/
theorem coherent_writeDivider (host : Host) (d : BitVec 16) {s : Serial} (h : Coherent s) :
    Coherent (updateParameters host { s with divider := d }) := by
  have hd : Quiet s { s with divider := d } := ⟨rfl, rfl, rfl⟩
  exact h.of_quiet (hd.trans (quiet_updateParameters host _))

/-- A write to a register other than IER and the high divisor byte. -/
theorem coherent_ioWrite_of_ne (host : Host) {port : Word} (hport : (port &&& 7).toNat ≠ 1)
    (value : Word) {s : Serial} (h : Coherent s) : Coherent (ioWrite host port value s) := by
  unfold ioWrite
  split
  · next h1 => exact absurd h1 hport
  · exact coherent_writeFcr value h
  · exact coherent_writeLcr host value h
  · exact coherent_writeMcr host value h
  · exact h
  · exact h
  · exact h.of_quiet ⟨rfl, rfl, rfl⟩
  · split
    · exact coherent_writeDivider host _ h
    · exact coherent_writeThr host value s

theorem coherent_ioWrite_iff {host : Host} {port value : Word} {s : Serial} (h : Coherent s) :
    Coherent (ioWrite host port value s) ↔
      (port &&& 7 = 1 → has s.lcr UART_LCR_DLAB = false → has s.lsr UART_LSR_THRE = false →
        priority { s with ier := (value &&& 0x0f).setWidth 8 } = priority s) := by
  by_cases hport : port &&& 7 = 1
  · have hw : ioWrite host port value s = if has s.lcr UART_LCR_DLAB then
        updateParameters host
          { s with divider := (s.divider &&& 0x00ff) ||| (value <<< 8).setWidth 16 }
        else writeIer value s := by
      rw [ioWrite, hport]
      rfl
    rw [hw]
    cases hd : has s.lcr UART_LCR_DLAB with
    | true => exact iff_of_true (coherent_writeDivider host _ h) nofun
    | false =>
      rw [if_neg Bool.false_ne_true, coherent_writeIer_iff h]
      exact ⟨fun hw _ _ => hw, fun hw => hw hport rfl⟩
  · have hne : (port &&& 7).toNat ≠ 1 := fun h1 => hport (BitVec.eq_of_toNat_eq h1)
    exact iff_of_true (coherent_ioWrite_of_ne host hne value h) fun hp => absurd hp hport

/-! ## Runs -/


theorem stepOk_iff {s : Serial} (h : Coherent s) (i : Op × Host) :
    StepOk s i ↔ Recomputed s i := by
  obtain ⟨op, host⟩ := i
  have hstep : StepOk s (op, host) ↔ Coherent (op.apply host s) :=
    ⟨fun hs => hs _ rfl, fun hc s' hs => Option.some.inj hs ▸ hc⟩
  rw [hstep]
  cases op with
  | read port => exact iff_of_true (coherent_ioRead host port h) trivial
  | receive buf => exact iff_of_true (coherent_receive host buf s) trivial
  | event isBreak =>
    refine iff_of_true ?_ trivial
    cases isBreak with
    | true => exact coherent_updateIRQ _
    | false => exact h
  | transmit => exact iff_of_true (coherent_transmit host h) trivial
  | fifoTimeoutTimer => exact iff_of_true (h.of_quiet ⟨rfl, rfl, rfl⟩) trivial
  | modemStatusPoll =>
    refine iff_of_true ?_ trivial
    simp only [Op.apply, fifoTimeoutInterrupt]
    split
    · exact coherent_updateIRQ _
    · exact h
  | reset => exact coherent_reset_iff h
  | write port value => exact coherent_ioWrite_iff h

/-- Along a run every operation leaves the interrupt coherent, exactly when each one
recomputes it where that matters. -/
theorem coherent_iff_recomputed (host : Host) (recvData xmitData : Nat → Byte)
    (ops : List (Op × Host)) :
    Guarded step StepOk (construct host recvData xmitData) ops ↔
      Guarded step Recomputed (construct host recvData xmitData) ops := by
  apply guarded_congr (I := Coherent)
  · intro s i h
    exact stepOk_iff h i
  · intro s i s' h hr hs
    exact (stepOk_iff h i).mpr hr s' hs
  · refine ⟨?_, ?_⟩
    · rw [construct, priority_reset, iir_reset]
    · rw [construct, iir_reset]
      rfl

def host : Host := ⟨0, true⟩

/-- The transmit interrupt is enabled, which raises the line, and the device is reset. -/
def enableThenReset : List (Op × Host) := [(.write 1 0x02, host), (.reset, host)]

/-- The reset leaves the interrupt line high with no cause. -/
theorem reset_leaves_line_high :
    ¬ Guarded step StepOk (construct host (fun _ => 0) fun _ => 0) enableThenReset := by
  intro h
  have hl := ((h.2 _ rfl).1 _ rfl).level_eq
  exact absurd hl (by decide)

end OpenXbox.Uart.Coherence
