import OpenXbox.Usb.Control
import OpenXbox.Lib.Run

/-!
# The data buffer of the control endpoint

`Bounded` relates `SetupIndex`, `SetupLength` and the buffer in the two states of
a data stage. A rejected SETUP packet can leave its length behind in such a
state, and an IN request passes any length to the handler; `Fits` is the exact
condition on a packet under which neither happens.
-/

namespace OpenXbox.Usb.ControlBound

open OpenXbox.Lib OpenXbox.Lib.Run OpenXbox.Usb.Control

/-- The buffer range of a copy, or the length given to a handler, fits the buffer. -/
def InBounds : Effect → Prop
  | .copy offset len => offset + len ≤ dataBufferSize
  | .control length => length ≤ dataBufferSize

def LogOk (log : List Effect) : Prop := ∀ e ∈ log, InBounds e

def Bounded (s : XboxDeviceState) : Prop :=
  s.setupState = .data ∨ s.setupState = .ack →
    s.setupIndex ≤ s.setupLength ∧ s.setupLength ≤ dataBufferSize

/-- A packet handed to endpoint 0, with the handler that answers it. -/
structure Op where
  pid : Nat
  ioVec : List Byte
  parameter : BitVec 64
  handler : Handler

/-- The packet as `USB_PacketSetup` leaves it. -/
def Op.frame (op : Op) (s : XboxDeviceState) : Frame :=
  ⟨s, ⟨op.pid, op.ioVec, op.parameter, USB_RET_SUCCESS, 0⟩, []⟩

def process (s : XboxDeviceState) (op : Op) : Result := usbProcessOne op.handler (op.frame s)

def step (s : XboxDeviceState) (op : Op) : Option XboxDeviceState :=
  match process s op with
  | .ok f => some f.dev
  | .error _ => none

/-- The effects of a packet, up to a failed assertion. -/
def Result.effects (r : Result) : List Effect :=
  match r with
  | .ok f => f.log
  | .error log => log

/-- One packet: every copy and every handler length fits, and so does what is left. -/
structure StepOk (s : XboxDeviceState) (op : Op) : Prop where
  effects : LogOk (Result.effects (process s op))
  bounded : ∀ s', step s op = some s' → Bounded s'

/-- A device that has not processed a packet. -/
def initial (setupBuffer dataBuffer : Nat → Byte) : XboxDeviceState :=
  ⟨setupBuffer, dataBuffer, .idle, 0, 0⟩

/-! ## SETUP packets -/

def Op.isSetup (op : Op) : Prop :=
  op.parameter = 0 ∧ op.pid = USB_TOKEN_SETUP ∧ op.ioVec.length = 8

def Op.dirIn (op : Op) : Bool := op.ioVec.getD 0 0 &&& USB_DIR_IN != 0

def Op.wLength (op : Op) : Nat := word16 (op.ioVec.getD 7 0) (op.ioVec.getD 6 0)

/-- A SETUP packet asks for a length that fits the buffer, or it is an OUT request
met outside a data stage. -/
def Fits (s : XboxDeviceState) (op : Op) : Prop :=
  op.isSetup → op.wLength ≤ dataBufferSize ∨
    (op.dirIn = false ∧ s.setupState ≠ .data ∧ s.setupState ≠ .ack)

/-- The device with the request of a SETUP packet stored. -/
def Op.stored (op : Op) (s : XboxDeviceState) : XboxDeviceState :=
  { s with
    setupBuffer := fun i => if i < 8 then op.ioVec.getD i 0 else s.setupBuffer i
    setupLength := op.wLength
    setupIndex := 0 }

/-! ## Results of the model functions -/

/-- A result with a good log, and with `Q` when no assertion failed. -/
def Sat (r : Result) (Q : Frame → Prop) : Prop :=
  match r with
  | .ok f => LogOk f.log ∧ Q f
  | .error log => LogOk log

theorem Sat.bind {r : Result} {k : Frame → Result} {Q R : Frame → Prop} (hr : Sat r Q)
    (hk : ∀ f, LogOk f.log → Q f → Sat (k f) R) : Sat (r >>= k) R := by
  cases r with
  | error log => exact hr
  | ok f => exact hk f hr.1 hr.2

theorem Sat.mono {r : Result} {Q R : Frame → Prop} (hr : Sat r Q) (h : ∀ f, Q f → R f) :
    Sat r R := by
  cases r with
  | error log => exact hr
  | ok f => exact ⟨hr.1, h f hr.2⟩

theorem stepOk_iff_sat {s : XboxDeviceState} {op : Op} :
    StepOk s op ↔ Sat (process s op) fun f => Bounded f.dev := by
  cases hp : process s op with
  | error log =>
    refine ⟨fun h => ?_, fun h => ⟨?_, ?_⟩⟩
    · have he := h.effects
      rw [hp] at he
      exact he
    · rw [hp]
      exact h
    · rw [step, hp]
      nofun
  | ok f =>
    refine ⟨fun h => ⟨?_, ?_⟩, fun h => ⟨?_, ?_⟩⟩
    · have he := h.effects
      rw [hp] at he
      exact he
    · exact h.bounded f.dev (by rw [step, hp])
    · rw [hp]
      exact h.1
    · rw [step, hp]
      intro s' hs
      obtain rfl := Option.some.inj hs
      exact h.2

theorem logOk_nil : LogOk [] := fun _ he => nomatch he

theorem logOk_snoc {log : List Effect} {e : Effect} :
    LogOk (log ++ [e]) ↔ LogOk log ∧ InBounds e := by
  unfold LogOk
  rw [List.forall_mem_append, List.forall_mem_singleton]

/-- The control fields of two devices agree. -/
structure SameControl (s t : XboxDeviceState) : Prop where
  state : t.setupState = s.setupState
  length : t.setupLength = s.setupLength
  index : t.setupIndex = s.setupIndex

theorem copyData_sat (f : Frame) (offset bytes : Nat) (hl : LogOk f.log)
    (hb : offset + bytes ≤ dataBufferSize) :
    Sat (f.copyData offset bytes) fun g => SameControl f.dev g.dev ∧ g.pkt.pid = f.pkt.pid := by
  unfold Frame.copyData
  cases hc : usbPacketCopy f.pkt (fun i => f.dev.dataBuffer (offset + i)) bytes with
  | none => exact hl
  | some r =>
    refine ⟨logOk_snoc.mpr ⟨hl, hb⟩, ⟨rfl, rfl, rfl⟩, ?_⟩
    unfold usbPacketCopy at hc
    split at hc
    · split at hc
      · obtain rfl := Option.some.inj hc
        rfl
      · split at hc
        · obtain rfl := Option.some.inj hc
          rfl
        · obtain rfl := Option.some.inj hc
          rfl
    · cases hc

theorem handleControl_log {f : Frame} (h : Handler) (hl : LogOk f.log)
    (hb : f.dev.setupLength ≤ dataBufferSize) : LogOk (f.handleControl h).log :=
  logOk_snoc.mpr ⟨hl, hb⟩

theorem limitLength_eq (f : Frame) : f.limitLength =
    { f with dev.setupLength := min f.dev.setupLength f.pkt.actualLength } := by
  rw [Frame.limitLength]
  split
  · next hlt => rw [Nat.min_eq_right hlt.le]
  · next hle => rw [Nat.min_eq_left (Nat.le_of_not_lt hle)]

theorem limitLength_le (f : Frame) : f.limitLength.dev.setupLength ≤ f.dev.setupLength := by
  rw [limitLength_eq]
  exact Nat.min_le_left _ _

@[simp] theorem limitLength_log (f : Frame) : f.limitLength.log = f.log := by rw [limitLength_eq]

@[simp] theorem limitLength_state (f : Frame) :
    f.limitLength.dev.setupState = f.dev.setupState := by rw [limitLength_eq]

@[simp] theorem limitLength_index (f : Frame) :
    f.limitLength.dev.setupIndex = f.dev.setupIndex := by rw [limitLength_eq]

/-! ## One packet -/

theorem bounded_of_state {s : XboxDeviceState} (hd : s.setupState ≠ .data)
    (ha : s.setupState ≠ .ack) : Bounded s := fun h => absurd h (not_or.mpr ⟨hd, ha⟩)

theorem bounded_of_idle {s : XboxDeviceState} (h : s.setupState = .idle) : Bounded s :=
  bounded_of_state (by rw [h]; decide) (by rw [h]; decide)

theorem bounded_of_param {s : XboxDeviceState} (h : s.setupState = .param) : Bounded s :=
  bounded_of_state (by rw [h]; decide) (by rw [h]; decide)

theorem usbDoParameter_sat {f : Frame} (h : Handler) (hl : LogOk f.log) :
    Sat (usbDoParameter h f) fun g => Bounded g.dev := by
  rw [usbDoParameter]
  split
  · exact ⟨hl, bounded_of_param rfl⟩
  · next hlen =>
    have hle : f.storeParameter.dev.setupLength ≤ dataBufferSize := Nat.le_of_not_lt hlen
    have hout : Sat f.storeParameter.copyOut fun g =>
        g.dev.setupState = .param ∧ g.dev.setupLength ≤ dataBufferSize := by
      rw [Frame.copyOut]
      split
      · have hcopy := copyData_sat f.storeParameter 0 f.storeParameter.dev.setupLength hl
          (by rwa [Nat.zero_add])
        refine hcopy.mono fun g hs => ⟨hs.1.state, ?_⟩
        rw [hs.1.length]
        exact hle
      · exact ⟨hl, rfl, hle⟩
    refine Sat.bind hout fun g hg hsame => ?_
    have hlog : LogOk (g.handleControl h).log := handleControl_log h hg hsame.2
    dsimp only
    split
    · exact ⟨hlog, bounded_of_param hsame.1⟩
    · have hlim := limitLength_le (g.handleControl h)
      split
      · refine (copyData_sat ((g.handleControl h).limitLength.setActualLength 0) 0 _ ?_ ?_).mono
          fun t ht => bounded_of_param ?_
        · rw [← limitLength_log] at hlog
          exact hlog
        · rw [Nat.zero_add]
          exact hlim.trans hsame.2
        · rw [ht.1.state]
          exact (limitLength_state _).trans hsame.1
      · exact ⟨by rw [limitLength_log]; exact hlog,
          bounded_of_param ((limitLength_state _).trans hsame.1)⟩

theorem stageLen_le {f : Frame} (hi : f.dev.setupIndex ≤ f.dev.setupLength)
    (hb : f.dev.setupLength ≤ dataBufferSize) :
    f.dev.setupIndex + f.stageLen ≤ f.dev.setupLength := by
  have hsub : sub32 f.dev.setupLength f.dev.setupIndex = f.dev.setupLength - f.dev.setupIndex :=
    sub32_of_le hi (hb.trans_lt (by decide))
  rw [Frame.stageLen, hsub]
  split <;> omega

theorem dataStage_sat {f : Frame} (hl : LogOk f.log) (hi : f.dev.setupIndex ≤ f.dev.setupLength)
    (hb : f.dev.setupLength ≤ dataBufferSize) : Sat (dataStage f) fun g => Bounded g.dev := by
  have hlen := stageLen_le hi hb
  rw [dataStage]
  refine Sat.bind (copyData_sat _ _ _ hl (hlen.trans hb)) fun g hg hs => ?_
  have hidx : u32 (g.dev.setupIndex + f.stageLen) = f.dev.setupIndex + f.stageLen := by
    rw [hs.1.index]
    exact u32_of_lt ((hlen.trans hb).trans_lt (by decide))
  have hbound : u32 (g.dev.setupIndex + f.stageLen) ≤ g.dev.setupLength ∧
      g.dev.setupLength ≤ dataBufferSize := by
    rw [hidx, hs.1.length]
    exact ⟨hlen, hb⟩
  dsimp only
  split
  · exact ⟨hg, fun _ => hbound⟩
  · exact ⟨hg, fun _ => hbound⟩

theorem doTokenIn_sat {f : Frame} (h : Handler) (hl : LogOk f.log) (hb : Bounded f.dev) :
    Sat (doTokenIn h f) fun g => Bounded g.dev := by
  cases hs : f.dev.setupState with
  | ack =>
    simp only [doTokenIn, hs]
    have hack := hb (.inr hs)
    split
    · split
      · exact ⟨handleControl_log h hl hack.2, fun _ => hack⟩
      · exact ⟨handleControl_log h hl hack.2, bounded_of_idle rfl⟩
    · exact ⟨hl, hb⟩
  | data =>
    simp only [doTokenIn, hs]
    have hdata := hb (.inl hs)
    split
    · exact dataStage_sat hl hdata.1 hdata.2
    · exact ⟨hl, bounded_of_idle rfl⟩
  | idle => simp only [doTokenIn, hs]; exact ⟨hl, hb⟩
  | setup => simp only [doTokenIn, hs]; exact ⟨hl, hb⟩
  | param => simp only [doTokenIn, hs]; exact ⟨hl, hb⟩

theorem doTokenOut_sat {f : Frame} (hl : LogOk f.log) (hb : Bounded f.dev) :
    Sat (doTokenOut f) fun g => Bounded g.dev := by
  cases hs : f.dev.setupState with
  | ack =>
    simp only [doTokenOut, hs]
    split
    · exact ⟨hl, bounded_of_idle rfl⟩
    · exact ⟨hl, hb⟩
  | data =>
    simp only [doTokenOut, hs]
    have hdata := hb (.inl hs)
    split
    · exact dataStage_sat hl hdata.1 hdata.2
    · exact ⟨hl, bounded_of_idle rfl⟩
  | idle => simp only [doTokenOut, hs]; exact ⟨hl, hb⟩
  | setup => simp only [doTokenOut, hs]; exact ⟨hl, hb⟩
  | param => simp only [doTokenOut, hs]; exact ⟨hl, hb⟩

/-! ## SETUP -/

/-- The frame after a SETUP packet has stored its request. -/
def Op.request (op : Op) (s : XboxDeviceState) : Frame :=
  ⟨op.stored s, ⟨op.pid, op.ioVec, op.parameter, USB_RET_SUCCESS, 0⟩, []⟩

/-- What follows the stored request. -/
def setupStage (h : Handler) (f : Frame) : Result :=
  if f.dev.dirIn then
    let f := f.handleControl h
    let f := if f.pkt.status = USB_RET_ASYNC then f.setState .setup else f
    if f.pkt.status ≠ USB_RET_SUCCESS then .ok f
    else .ok ((f.limitLength.setState .data).setActualLength 8)
  else if f.dev.setupLength > dataBufferSize then .ok f.stall
  else if f.dev.setupLength = 0 then .ok ((f.setState .ack).setActualLength 8)
  else .ok ((f.setState .data).setActualLength 8)

theorem process_setup {op : Op} (hs : op.isSetup) (s : XboxDeviceState) :
    process s op = setupStage op.handler (op.request s) := by
  obtain ⟨hp, hpid, hlen⟩ := hs
  have hcopy : usbPacketCopy (op.frame s).pkt s.setupBuffer op.ioVec.length =
      some ({ (op.frame s).pkt with actualLength := 8 }, (op.stored s).setupBuffer) := by
    simp only [usbPacketCopy, Op.frame, hpid, hlen, Op.stored, Nat.zero_add, le_refl, if_true,
      true_or, u32_of_lt (show 8 < 2 ^ 32 by decide)]
  have hone : process s op = usbDoTokenSetup op.handler (op.frame s) := by
    simp only [process, usbProcessOne, Op.frame, hp, hpid, ne_eq, not_true_eq_false, if_false,
      if_true]
  rw [hone, usbDoTokenSetup, if_neg (by simpa [Op.frame] using hlen)]
  simp only [Op.frame] at hcopy ⊢
  rw [hcopy]
  rfl

/-- The stage is right exactly when the length fits or an OUT request is rejected
outside a data stage. -/
theorem setupStage_sat_iff {h : Handler} {f : Frame} (hl : LogOk f.log)
    (hi : f.dev.setupIndex = 0) :
    Sat (setupStage h f) (fun g => Bounded g.dev) ↔
      f.dev.setupLength ≤ dataBufferSize ∨
        (f.dev.dirIn = false ∧ f.dev.setupState ≠ .data ∧ f.dev.setupState ≠ .ack) := by
  have hidx : f.dev.setupIndex ≤ f.dev.setupLength := by omega
  rw [setupStage]
  cases hdir : f.dev.dirIn with
  | true =>
    -- the handler is called with the length before it is compared with the buffer
    have hlim := limitLength_le (f.handleControl h)
    simp only [if_true, Bool.true_eq_false, false_and, or_false]
    refine ⟨fun hsat => ?_, fun hle => ?_⟩
    · have hlog : LogOk (f.handleControl h).log := by
        by_cases ha : (f.handleControl h).pkt.status = USB_RET_ASYNC
        · rw [if_pos ha] at hsat
          split at hsat
          · exact hsat.1
          · next hok => exact absurd (ha.symm.trans (not_not.mp hok)) (by decide)
        · rw [if_neg ha] at hsat
          split at hsat
          · exact hsat.1
          · exact limitLength_log (f.handleControl h) ▸ hsat.1
      exact (logOk_snoc.mp hlog).2
    · have hlog : LogOk (f.handleControl h).log := handleControl_log h hl hle
      have hkeep : Bounded (f.handleControl h).dev := fun _ => ⟨hidx, hle⟩
      by_cases ha : (f.handleControl h).pkt.status = USB_RET_ASYNC
      · rw [if_pos ha]
        split
        · exact ⟨hlog, bounded_of_state nofun nofun⟩
        · next hok => exact absurd (ha.symm.trans (not_not.mp hok)) (by decide)
      · rw [if_neg ha]
        split
        · exact ⟨hlog, hkeep⟩
        · refine ⟨(limitLength_log _).symm ▸ hlog, fun _ => ⟨?_, hlim.trans hle⟩⟩
          have h0 : (f.handleControl h).limitLength.dev.setupIndex = 0 :=
            (limitLength_index _).trans hi
          exact h0.trans_le (Nat.zero_le _)
  | false =>
    simp only [Bool.false_eq_true, if_false, true_and]
    by_cases hle : f.dev.setupLength > dataBufferSize
    · rw [if_pos hle]
      refine ⟨fun hsat => .inr ⟨fun hd => ?_, fun ha => ?_⟩, fun h => ⟨hl, fun hst => ?_⟩⟩
      · exact absurd (hsat.2 (.inl hd)).2 (Nat.not_le_of_lt hle)
      · exact absurd (hsat.2 (.inr ha)).2 (Nat.not_le_of_lt hle)
      · obtain hno | ⟨hd, ha⟩ := h
        · exact absurd hno (Nat.not_le_of_lt hle)
        · exact absurd hst (not_or.mpr ⟨hd, ha⟩)
    · have hfit := Nat.le_of_not_lt hle
      rw [if_neg hle]
      refine iff_of_true ?_ (.inl hfit)
      split
      · exact ⟨hl, fun _ => ⟨hidx, hfit⟩⟩
      · exact ⟨hl, fun _ => ⟨hidx, hfit⟩⟩

theorem stepOk_of_not_setup {s : XboxDeviceState} {op : Op} (hb : Bounded s)
    (hs : ¬ op.isSetup) : StepOk s op := by
  rw [stepOk_iff_sat, process, usbProcessOne]
  dsimp only
  split
  · exact usbDoParameter_sat _ logOk_nil
  · next hp =>
    split
    · next hpid =>
      have hne : op.ioVec.length ≠ 8 := fun hlen => hs ⟨not_not.mp hp, hpid, hlen⟩
      have hstall : usbDoTokenSetup op.handler (op.frame s) = .ok (op.frame s).stall := if_pos hne
      exact hstall ▸ ⟨logOk_nil, hb⟩
    · split
      · exact doTokenIn_sat _ logOk_nil hb
      · split
        · exact doTokenOut_sat logOk_nil hb
        · exact ⟨logOk_nil, hb⟩

theorem stepOk_iff {s : XboxDeviceState} (hb : Bounded s) (op : Op) :
    StepOk s op ↔ Fits s op := by
  by_cases hs : op.isSetup
  · rw [stepOk_iff_sat, process_setup hs, setupStage_sat_iff logOk_nil rfl]
    exact ⟨fun h _ => h, fun h => h hs⟩
  · exact iff_of_true (stepOk_of_not_setup hb hs) fun h => absurd h hs

/-! ## Runs -/

/-- Along a run every packet keeps to the data buffer, exactly when every SETUP
packet on the way fits. -/
theorem packets_ok_iff_fit (setupBuffer dataBuffer : Nat → Byte) (ops : List Op) :
    Guarded step StepOk (initial setupBuffer dataBuffer) ops ↔
      Guarded step Fits (initial setupBuffer dataBuffer) ops := by
  apply guarded_congr (I := Bounded)
  · intro s op hb
    exact stepOk_iff hb op
  · intro s op s' hb hf hs
    exact ((stepOk_iff hb op).mpr hf).bounded s' hs
  · exact bounded_of_idle rfl

/-- An OUT request of one byte, then one of 0x1001 bytes. -/
def outThenTooLong : List Op :=
  [⟨USB_TOKEN_SETUP, [0x00, 0x09, 0, 0, 0, 0, 0x01, 0x00], 0, fun _ _ _ _ _ d => ⟨0, 0, d⟩⟩,
    ⟨USB_TOKEN_SETUP, [0x00, 0x09, 0, 0, 0, 0, 0x01, 0x10], 0, fun _ _ _ _ _ d => ⟨0, 0, d⟩⟩]

/-- The rejected second request leaves its length with the state of the first. -/
theorem rejected_setup_keeps_length :
    ¬ Guarded step StepOk (initial (fun _ => 0) fun _ => 0) outThenTooLong := by
  intro h
  have hb := (h.2 _ rfl).1.bounded _ rfl (.inl rfl)
  exact absurd hb.2 (by decide)

end OpenXbox.Usb.ControlBound
