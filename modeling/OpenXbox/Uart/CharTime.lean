import OpenXbox.Lib.Run
import OpenXbox.Uart.LineSettings

/-!
# The character time of the UART

`UpdateParameters` against the time that a frame takes on the line, and two runs of the same
operations at different times. The time per bit is computed from what the clock reads.
-/

namespace OpenXbox.Uart.CharTime

open OpenXbox.Lib.Run OpenXbox.Uart.Device OpenXbox.Uart.LineSettings

/-- A start bit, the data bits, a parity bit and the stop bits. -/
def frameBits (lcr : Byte) : Nat :=
  1 + ((lcr &&& 0x03).toNat + 5) + (if has lcr 0x08 then 1 else 0) + (if has lcr 0x04 then 2 else 1)

/-- `a` and `b` differ by at most `tolerance`. -/
def Within (tolerance a b : Nat) : Prop := a ≤ b + tolerance ∧ b ≤ a + tolerance

instance (tolerance a b : Nat) : Decidable (Within tolerance a b) := inferInstanceAs (Decidable (_ ∧ _))

/-- The time is that of a frame whose bits take `divider / baudbase` seconds each, up to a
nanosecond a bit. Both sides are multiplied by `baudbase`. -/
def Accurate (x : Line) (time : Nat) : Prop :=
  Within (frameBits x.lcr * x.baudbase) (time * x.baudbase)
    (frameBits x.lcr * (SEC_TO_NANO * x.divider.toNat))

/-- The nanoseconds of a bit as they are taken from the clock. -/
def bitTicks (x : Line) (now : Nat) : Nat := now / (x.baudbase * x.divider.toNat)

/-- The clock happens to read so much that they are those of the line, up to one. -/
def ClockFits (x : Line) (now : Nat) : Prop :=
  Within x.baudbase (bitTicks x now * x.baudbase) (SEC_TO_NANO * x.divider.toNat)

instance (x : Line) (now : Nat) : Decidable (ClockFits x now) :=
  inferInstanceAs (Decidable (Within _ _ _))

/-- The write calls `UpdateParameters`. -/
def updates (x : Line) (op : Op) : Bool :=
  match op with
  | .write port _ => port &&& 7 == 3 || (x.latch && (port &&& 7 == 0 || port &&& 7 == 1))
  | _ => false

/-! ## One call -/

section Update

variable {s : Serial} {host : Host}

theorem frameSize_eq (s : Serial) : frameSize s = frameBits s.lcr := by
  unfold frameSize frameBits serialParams
  dsimp only
  split <;> omega

theorem frameBits_pos (lcr : Byte) : 0 < frameBits lcr := by
  rw [frameBits]
  omega

theorem frameBits_le (lcr : Byte) : frameBits lcr ≤ 12 := by
  have hdata : (lcr &&& 0x03).toNat ≤ 3 := by
    rw [BitVec.toNat_and]
    exact Nat.and_le_right
  unfold frameBits
  split <;> split <;> omega

theorem time_updateParameters (hdivider : s.divider ≠ 0) :
    (updateParameters host s).charTransmitTime =
      bitTicks (line s) host.now * frameBits s.lcr % 2 ^ 64 := by
  rw [updateParameters, if_neg hdivider]
  change host.now / s.baudbase / s.divider.toNat * frameSize s % 2 ^ 64 = _
  rw [frameSize_eq, Nat.div_div_eq_div_mul]
  rfl

/-- The time comes from the settings that the write leaves. -/
theorem ioWrite_updates (host : Host) {port value : Word}
    (h : updates (line s) (.write port value) = true) :
    ∃ u, line u = (line s).write port value ∧
      (ioWrite host port value s).charTransmitTime = (updateParameters host u).charTransmitTime := by
  simp only [updates, Bool.or_eq_true, Bool.and_eq_true, beq_iff_eq] at h
  unfold Line.write ioWrite
  rcases h with hport | ⟨hlatch, hport | hport⟩
  · refine ⟨{ s with lcr := value.setWidth 8 }, ?_, ?_⟩
    · rw [hport]
      rfl
    · rw [hport]
      change (writeLcr host value s).charTransmitTime = _
      rw [writeLcr]
      split <;> rfl
  · have hdlab : has s.lcr UART_LCR_DLAB = true := hlatch
    rw [hport, hlatch, hdlab]
    exact ⟨_, rfl, rfl⟩
  · have hdlab : has s.lcr UART_LCR_DLAB = true := hlatch
    rw [hport, hlatch, hdlab]
    exact ⟨_, rfl, rfl⟩

/-- The time that is in force after the parameters have been updated. -/
theorem time_apply {op : Op} (h : updates (line s) op = true)
    (hdivider : ((line s).after op).divider ≠ 0) :
    (op.apply host s).charTransmitTime =
      bitTicks ((line s).after op) host.now * frameBits ((line s).after op).lcr % 2 ^ 64 := by
  cases op with
  | write port value =>
    obtain ⟨u, hline, htime⟩ := ioWrite_updates host h
    change ((line s).write port value).divider ≠ 0 at hdivider
    change (ioWrite host port value s).charTransmitTime =
      bitTicks ((line s).write port value) host.now *
        frameBits ((line s).write port value).lcr % 2 ^ 64
    rw [← hline] at hdivider ⊢
    rw [htime]
    exact time_updateParameters hdivider
  | _ => cases h

section Ticks

variable {x : Line} {now now' : Nat}

/-- The product of the ticks and the bits does not wrap around. -/
theorem frame_fits (hbaud : x.baudbase = 115200) (hnow : now < 2 ^ 64) :
    bitTicks x now * frameBits x.lcr < 2 ^ 64 := by
  have hticks : bitTicks x now ≤ now / 115200 := by
    rw [bitTicks, ← Nat.div_div_eq_div_mul, hbaud]
    exact Nat.div_le_self _ _
  have hprod := Nat.mul_le_mul hticks (frameBits_le x.lcr)
  omega

/-- The time of a frame is accurate exactly when that of a bit is. -/
theorem accurate_iff (hbaud : x.baudbase = 115200) (hnow : now < 2 ^ 64) :
    Accurate x (bitTicks x now * frameBits x.lcr % 2 ^ 64) ↔ ClockFits x now := by
  have hpos := frameBits_pos x.lcr
  have hswap : bitTicks x now * frameBits x.lcr * x.baudbase =
      frameBits x.lcr * (bitTicks x now * x.baudbase) := by
    rw [Nat.mul_comm (bitTicks x now), Nat.mul_assoc]
  rw [Nat.mod_eq_of_lt (frame_fits hbaud hnow), Accurate, ClockFits, Within, Within, hswap,
    ← Nat.mul_add, ← Nat.mul_add, Nat.mul_le_mul_left_iff hpos, Nat.mul_le_mul_left_iff hpos]

theorem same_frame_iff (hbaud : x.baudbase = 115200) (hnow : now < 2 ^ 64) (hnow' : now' < 2 ^ 64) :
    bitTicks x now * frameBits x.lcr % 2 ^ 64 = bitTicks x now' * frameBits x.lcr % 2 ^ 64 ↔
      bitTicks x now = bitTicks x now' := by
  rw [Nat.mod_eq_of_lt (frame_fits hbaud hnow), Nat.mod_eq_of_lt (frame_fits hbaud hnow'),
    Nat.mul_left_inj (frameBits_pos x.lcr).ne']

end Ticks

end Update

/-! ## Two runs -/

/-- What one operation finds outside the device; the clock counts in 64 bits. -/
structure Moment where
  now : BitVec 64
  writeAccepted : Bool

def Moment.host (m : Moment) : Host := ⟨m.now.toNat, m.writeAccepted⟩

/-- An operation, at one time in the first run and at another in the second. -/
structure Input where
  op : Op
  first : Moment
  second : Moment

/-- The two runs of a device. -/
structure Runs where
  first : Serial
  second : Serial

def step (r : Runs) (i : Input) : Option Runs :=
  some ⟨i.op.apply i.first.host r.first, i.op.apply i.second.host r.second⟩

/-- An update leaves the time of a frame in force, and the same one in both runs. -/
def StepOk (r : Runs) (i : Input) : Prop :=
  updates (line r.first) i.op = true → ∀ r', step r i = some r' → r'.first.divider ≠ 0 →
    Accurate (line r'.first) r'.first.charTransmitTime ∧
      Accurate (line r'.second) r'.second.charTransmitTime ∧
      r'.first.charTransmitTime = r'.second.charTransmitTime

/-- The clocks of both runs read what an update needs, and the same for a bit. -/
def ClocksFit (r : Runs) (i : Input) : Prop :=
  updates (line r.first) i.op = true → ((line r.first).after i.op).divider ≠ 0 →
    ClockFits ((line r.first).after i.op) i.first.now.toNat ∧
      ClockFits ((line r.first).after i.op) i.second.now.toNat ∧
      bitTicks ((line r.first).after i.op) i.first.now.toNat =
        bitTicks ((line r.first).after i.op) i.second.now.toNat

/-- Both runs have the same line settings, at the baud base of the device. -/
structure SameLine (r : Runs) : Prop where
  line : line r.second = line r.first
  baudbase : r.first.baudbase = 115200

theorem baudbase_after (x : Line) (op : Op) : (x.after op).baudbase = x.baudbase := by
  cases op with
  | write port value =>
    change (x.write port value).baudbase = x.baudbase
    unfold Line.write
    split
    · split <;> rfl
    · rfl
    · rfl
    · rfl
    · rfl
    · rfl
    · rfl
    · split <;> rfl
  | _ => rfl

section Step

variable {r r' : Runs} {i : Input}

theorem sameLine_step (h : SameLine r) (hs : step r i = some r') : SameLine r' := by
  obtain rfl := Option.some.inj hs
  have hfirst := line_apply r.first i.first.host i.op
  have hsecond := line_apply r.second i.second.host i.op
  refine ⟨?_, ?_⟩
  · rw [hsecond, hfirst, h.line]
  · have hbaud := congrArg Line.baudbase hfirst
    rw [baudbase_after] at hbaud
    exact hbaud.trans h.baudbase

theorem stepOk_iff (h : SameLine r) (i : Input) : StepOk r i ↔ ClocksFit r i := by
  have hfirst := line_apply r.first i.first.host i.op
  have hsecond := line_apply r.second i.second.host i.op
  rw [h.line] at hsecond
  have hbaud : ((line r.first).after i.op).baudbase = 115200 :=
    (baudbase_after _ _).trans h.baudbase
  have hone : StepOk r i ↔ (updates (line r.first) i.op = true →
      (line (i.op.apply i.first.host r.first)).divider ≠ 0 →
      Accurate (line (i.op.apply i.first.host r.first))
          (i.op.apply i.first.host r.first).charTransmitTime ∧
        Accurate (line (i.op.apply i.second.host r.second))
          (i.op.apply i.second.host r.second).charTransmitTime ∧
        (i.op.apply i.first.host r.first).charTransmitTime =
          (i.op.apply i.second.host r.second).charTransmitTime) :=
    ⟨fun hs hup => hs hup _ rfl, fun hs hup r' hr => Option.some.inj hr ▸ hs hup⟩
  rw [hone, hfirst, hsecond, ClocksFit]
  refine forall_congr' fun hup => forall_congr' fun hdivider => ?_
  have hup' : updates (line r.second) i.op = true := by rw [h.line, hup]
  have hdivider' : ((line r.second).after i.op).divider ≠ 0 := by rwa [h.line]
  have htime : (i.op.apply i.second.host r.second).charTransmitTime = _ := time_apply hup' hdivider'
  rw [h.line] at htime
  rw [time_apply hup hdivider, htime]
  exact and_congr (accurate_iff hbaud i.first.now.isLt)
    (and_congr (accurate_iff hbaud i.second.now.isLt)
      (same_frame_iff hbaud i.first.now.isLt i.second.now.isLt))

end Step

/-- Two runs of the same operations have the time of a frame in force after each update, and the
same one, exactly when the clock of both happens to fit at each of them. -/
theorem char_time_iff (first second : Host) (recvData xmitData : Nat → Byte) (is : List Input) :
    Guarded step StepOk
        ⟨construct first recvData xmitData, construct second recvData xmitData⟩ is ↔
      Guarded step ClocksFit
        ⟨construct first recvData xmitData, construct second recvData xmitData⟩ is := by
  apply guarded_congr (I := SameLine)
  · intro r i h
    exact stepOk_iff h i
  · intro r i r' h _ hs
    exact sameLine_step h hs
  · exact ⟨rfl, rfl⟩

/-- LCR is set to eight data bits, in the year 2001 and a year later. -/
def configureLine : List Input :=
  [⟨.write 3 0x03, ⟨1000000000000000000, true⟩, ⟨1031536000000000000, true⟩⟩]

/-- The divisor latch holds 12, so that a frame should take about a millisecond. -/
theorem clock_sets_time :
    ¬ ∀ (first second : Host) (recvData xmitData : Nat → Byte) (is : List Input),
      Guarded step StepOk
        ⟨construct first recvData xmitData, construct second recvData xmitData⟩ is := by
  intro h
  have hrun := h ⟨0, true⟩ ⟨0, true⟩ (fun _ => 0) (fun _ => 0) configureLine
  have hfit := ((stepOk_iff ⟨rfl, rfl⟩ _).mp hrun.1) rfl (by decide)
  revert hfit
  decide

end OpenXbox.Uart.CharTime
