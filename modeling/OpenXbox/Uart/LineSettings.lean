import OpenXbox.Uart.Transmission

/-!
# Line settings of the UART

The line settings and the pending character timeout, with what each operation does to them. The
settings change by writes to LCR and to the divisor latch and by a reset only.
-/

namespace OpenXbox.Uart.LineSettings

open OpenXbox.Common OpenXbox.Uart.Device OpenXbox.Uart.Coherence OpenXbox.Uart.Transmission

structure Line where
  lcr : Byte
  divider : BitVec 16
  baudbase : Nat

structure Settings where
  line : Line
  timeoutIpending : Bool

def line (s : Serial) : Line := ⟨s.lcr, s.divider, s.baudbase⟩

def settings (s : Serial) : Settings := ⟨line s, s.timeoutIpending⟩

/-- The divisor latch is written in place of THR and IER. -/
def Line.latch (x : Line) : Bool := has x.lcr UART_LCR_DLAB

/-- The line settings after a write. -/
def Line.write (x : Line) (port value : Word) : Line :=
  match (port &&& 7).toNat with
  | 1 =>
    if x.latch then { x with divider := (x.divider &&& 0x00ff) ||| (value <<< 8).setWidth 16 } else x
  | 2 | 4 | 5 | 6 | 7 => x
  | 3 => { x with lcr := value.setWidth 8 }
  | _ => if x.latch then { x with divider := (x.divider &&& 0xff00) ||| value.setWidth 16 } else x

/-- The line settings after an operation. -/
def Line.after (x : Line) (op : Op) : Line :=
  match op with
  | .write port value => x.write port value
  | .reset => { x with lcr := 0, divider := 0x0C }
  | _ => x

/-- The line is the same and no timeout is pending that was not. -/
structure Settings.Quieter (x y : Settings) : Prop where
  line : y.line = x.line
  timeout : y.timeoutIpending = true → x.timeoutIpending = true

theorem Settings.Quieter.refl (x : Settings) : x.Quieter x := ⟨rfl, id⟩

theorem Settings.Quieter.of_eq {x y : Settings} (h : y = x) : x.Quieter y := h ▸ .refl x

section Kept

variable (s : Serial) (host : Host)

@[simp] theorem settings_updateIRQ : settings (updateIRQ s) = settings s := by
  rw [updateIRQ_eq]
  rfl

@[simp] theorem settings_setLsr (m : Byte) : settings (s.setLsr m) = settings s := rfl

@[simp] theorem settings_clearLsr (m : Byte) : settings (s.clearLsr m) = settings s := rfl

@[simp] theorem settings_recvFifoPut (b : Byte) : settings (recvFifoPut b s) = settings s := by
  rw [recvFifoPut]
  split <;> rfl

@[simp] theorem settings_foldl (buf : List Byte) :
    settings (buf.foldl (fun s b => recvFifoPut b s) s) = settings s := by
  induction buf generalizing s with
  | nil => rfl
  | cons b buf ih => simp [ih]

@[simp] theorem settings_receive (buf : List Byte) : settings (receive host buf s) = settings s := by
  unfold receive
  split
  · rw [settings_updateIRQ]
    exact settings_foldl s buf
  · rw [settings_updateIRQ, settings_setLsr]
    split <;> rfl

@[simp] theorem settings_receiveBreak : settings (receiveBreak s) = settings s := by
  rw [receiveBreak, settings_updateIRQ, settings_setLsr, settings_recvFifoPut]
  rfl

theorem settings_loadTsr {u : Serial} (h : loadTsr s = some u) : settings u = settings s := by
  have hfifo : settings (loadFifo s) = settings s := by
    rw [loadFifo]
    split <;> rfl
  unfold loadTsr at h
  split at h
  · split at h
    · split at h
      · exact Option.some.inj h ▸ hfifo
      · exact Option.some.inj h ▸ hfifo
    · split at h
      · cases h
      · exact Option.some.inj h ▸ rfl
  · exact Option.some.inj h ▸ rfl

@[simp] theorem settings_transmitted : settings (transmitted host s) = settings s := by
  rw [transmitted]
  dsimp only
  split
  · exact settings_updateIRQ _
  · rfl

@[simp] theorem settings_transmit : settings (transmit host s) = settings s := by
  unfold transmit
  split
  · rfl
  · rename_i u hu
    rw [← settings_loadTsr s hu]
    split
    · simp
    · dsimp only
      split
      · split
        · rfl
        · exact settings_transmitted _ host
      · exact settings_transmitted _ host

@[simp] theorem settings_updateParameters : settings (updateParameters host s) = settings s := by
  rw [updateParameters]
  split <;> rfl

@[simp] theorem settings_readMsl : settings (readMsl s) = settings s := by
  rw [readMsl]
  split <;> rfl

@[simp] theorem settings_acceptInput : settings (acceptInput s) = settings s := by
  rw [acceptInput]
  split <;> rfl

theorem settings_readRbr : (settings s).Quieter (settings (readRbr host s).2) := by
  rw [readRbr]
  split
  · refine ⟨?_, fun h => by cases h⟩
    dsimp only
    split <;> rfl
  · exact .refl _

theorem settings_ioRead (port : Word) : (settings s).Quieter (settings (ioRead host port s).2) := by
  refine ioRead_cases (motive := fun t => (settings s).Quieter (settings t)) host port s
    (fun _ => .refl _) (fun _ => .of_eq (settings_updateIRQ _)) (fun _ => .of_eq (settings_updateIRQ _))
    (fun _ => .of_eq (settings_readMsl s)) (fun _ => ?_) fun _ => ?_
  · exact .of_eq ((settings_updateIRQ _).trans (settings_readMsl s))
  · rw [settings_acceptInput, settings_updateIRQ]
    exact settings_readRbr s host

theorem settings_writeFcr (value : Word) : (settings s).Quieter (settings (writeFcr value s)) := by
  by_cases hne : s.fcr = value.setWidth 8
  · have hsame : writeFcr value s = s := if_pos hne
    rw [hsame]
    exact .refl _
  · have hrest (t : Serial) (bits fcr : Byte) :
        settings { setTrigger (clearXmit t bits) bits with fcr := fcr } = settings t := by
      rw [setTrigger, clearXmit]
      split <;> split <;> rfl
    rw [writeFcr_eq hne, settings_updateIRQ, hrest, clearRecv]
    split
    · exact ⟨rfl, fun h => by cases h⟩
    · exact .refl _

@[simp] theorem settings_writeThr (value : Word) :
    settings (writeThr host value s) = settings s := by
  rw [writeThr]
  simp only [settings_transmit, settings_updateIRQ, settings_clearLsr]
  split <;> rfl

@[simp] theorem settings_writeIer (value : Word) : settings (writeIer value s) = settings s := by
  have hpoll : settings (pollModem { s with ier := (value &&& 0x0f).setWidth 8 }) = settings s := by
    rw [pollModem]
    split
    · split <;> rfl
    · rfl
  rw [writeIer]
  split
  · exact (settings_updateIRQ _).trans hpoll
  · exact hpoll

theorem settings_writeLcr (value : Word) :
    settings (writeLcr host value s) =
      ⟨{ line s with lcr := value.setWidth 8 }, s.timeoutIpending⟩ := by
  have hparameters := settings_updateParameters { s with lcr := value.setWidth 8 } host
  rw [writeLcr]
  split
  · exact hparameters
  · exact hparameters

@[simp] theorem settings_writeMcr (value : Word) :
    settings (writeMcr host value s) = settings s := by
  rw [writeMcr]
  split
  · rfl
  · split <;> rfl

theorem settings_ioWrite (port value : Word) :
    Settings.Quieter ⟨(line s).write port value, s.timeoutIpending⟩
      (settings (ioWrite host port value s)) := by
  have hlatch : (line s).latch = has s.lcr UART_LCR_DLAB := rfl
  unfold ioWrite Line.write
  rw [hlatch]
  generalize (port &&& 7).toNat = register
  cases has s.lcr UART_LCR_DLAB with
  | true =>
    simp only [if_true]
    rcases register with _ | _ | _ | _ | _ | _ | _ | _ | register
    · exact .of_eq (settings_updateParameters _ host)
    · exact .of_eq (settings_updateParameters _ host)
    · exact settings_writeFcr s value
    · exact .of_eq (settings_writeLcr s host value)
    · exact .of_eq (settings_writeMcr s host value)
    · exact .refl _
    · exact .refl _
    · exact .refl _
    · exact .of_eq (settings_updateParameters _ host)
  | false =>
    simp only [Bool.false_eq_true, if_false]
    rcases register with _ | _ | _ | _ | _ | _ | _ | _ | register
    · exact .of_eq (settings_writeThr s host value)
    · exact .of_eq (settings_writeIer s value)
    · exact settings_writeFcr s value
    · exact .of_eq (settings_writeLcr s host value)
    · exact .of_eq (settings_writeMcr s host value)
    · exact .refl _
    · exact .refl _
    · exact .refl _
    · exact .of_eq (settings_writeThr s host value)

theorem settings_apply {op : Op} (hop : op ≠ .modemStatusPoll) :
    Settings.Quieter ⟨(line s).after op, s.timeoutIpending⟩ (settings (op.apply host s)) := by
  cases op with
  | read port => exact settings_ioRead s host port
  | write port value => exact settings_ioWrite s host port value
  | receive buf => exact .of_eq (settings_receive s host buf)
  | event isBreak =>
    cases isBreak with
    | true => exact .of_eq (settings_receiveBreak s)
    | false => exact .refl _
  | transmit => exact .of_eq (settings_transmit s host)
  | fifoTimeoutTimer => exact .refl _
  | modemStatusPoll => exact absurd rfl hop
  | reset => exact .refl _

/-- Only the expiry of the timer for the modem status makes a timeout pending. -/
theorem timeout_apply {op : Op} (hop : op ≠ .modemStatusPoll)
    (h : (op.apply host s).timeoutIpending = true) : s.timeoutIpending = true :=
  (settings_apply s host hop).timeout h

/-- What an operation does to LCR and to the divisor latch. -/
theorem line_apply (op : Op) : line (op.apply host s) = (line s).after op := by
  by_cases hop : op = .modemStatusPoll
  · subst hop
    change line (fifoTimeoutInterrupt s) = line s
    rw [fifoTimeoutInterrupt]
    split
    · exact congrArg Settings.line (settings_updateIRQ _)
    · rfl
  · exact (settings_apply s host hop).line

end Kept

end OpenXbox.Uart.LineSettings
