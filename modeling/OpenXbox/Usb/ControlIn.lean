import OpenXbox.Lib.Buffer
import OpenXbox.Lib.Chunks
import OpenXbox.Usb.Packet

/-!
# Control transfers to the host

A SETUP packet with the direction IN has its handler fill the data buffer, and the IN packets that
follow carry the result off, each as much as it has room for.
-/

namespace OpenXbox.Usb.ControlIn

open OpenXbox.Lib OpenXbox.Lib.Buffer OpenXbox.Lib.Chunks OpenXbox.Usb.Control
  OpenXbox.Usb.ControlBound

/-! ## Requests and packets -/

/-- What the handler answers to a request that is stored. -/
def reply (s : XboxDeviceState) (setup : Op) : Reply :=
  setup.handler (setup.request s).pkt (setup.stored s).request (setup.stored s).value
    (setup.stored s).index setup.wLength (setup.stored s).dataBuffer

/-- A request for data that fits the buffer, which its handler meets at once. -/
structure InRequest (s : XboxDeviceState) (setup : Op) : Prop where
  isSetup : setup.isSetup
  dirIn : setup.dirIn = true
  wLength : setup.wLength ≤ dataBufferSize
  success : (reply s setup).status = USB_RET_SUCCESS
  fits : (reply s setup).actualLength ≤ dataBufferSize

/-- The bytes that the host is to get. -/
def requested (s : XboxDeviceState) (setup : Op) : List Byte :=
  slice (reply s setup).data 0 (min setup.wLength (reply s setup).actualLength)

def IsIn (op : Op) : Prop := op.parameter = 0 ∧ op.pid = USB_TOKEN_IN

def IsOut (op : Op) : Prop := op.parameter = 0 ∧ op.pid = USB_TOKEN_OUT

/-- The bytes that a packet has come back with. -/
def delivered (p : USBPacket) : List Byte := p.ioVec.take p.actualLength

/-- A packet that succeeds: what it has delivered, and the device after it. -/
def transfer (s : XboxDeviceState) (op : Op) : Option (List Byte × XboxDeviceState) :=
  match process s op with
  | .error _ => none
  | .ok f => if f.pkt.status = USB_RET_SUCCESS then some (delivered f.pkt, f.dev) else none

def transfers (s : XboxDeviceState) : List Op → Option (List (List Byte) × XboxDeviceState)
  | [] => some ([], s)
  | op :: ops =>
    (transfer s op).bind fun r => (transfers r.2 ops).map fun rest => (r.1 :: rest.1, rest.2)

/-- Packets of these sizes have delivered `bytes` as far as there was room, each packet full while
more is left; the device acknowledges from the packet on that leaves nothing, and is idle after the
status packet. -/
structure Delivers (bytes : List Byte) (sizes : List Nat) (packets : List (List Byte))
    (t : XboxDeviceState) : Prop where
  data : packets.flatten = bytes.take sizes.sum
  full : ∀ i, (sizes.take (i + 1)).sum < bytes.length → (packets.map List.length)[i]? = sizes[i]?
  waits : t.setupState = .data ∨ t.setupState = .ack
  ack : t.setupState = .ack ↔ packets ≠ [] ∧ packets.flatten = bytes
  status : t.setupState = .ack → ∀ op, IsOut op →
    ∃ u, transfer t op = some ([], u) ∧ u.setupState = .idle

/-! ## The states of a data stage -/

/-- `bytes` are left to deliver. -/
structure Sending (s : XboxDeviceState) (bytes : List Byte) : Prop where
  state : s.setupState = .data
  dirIn : s.dirIn = true
  inBounds : s.setupIndex ≤ s.setupLength
  bounded : s.setupLength ≤ dataBufferSize
  bytes : bytes = slice s.dataBuffer s.setupIndex (s.setupLength - s.setupIndex)

/-- Everything has been delivered. -/
structure Sent (s : XboxDeviceState) : Prop where
  state : s.setupState = .ack
  dirIn : s.dirIn = true

section Packets

variable {s : XboxDeviceState} {op : Op} {bytes : List Byte}

theorem process_in (h : IsIn op) : process s op = doTokenIn op.handler (op.frame s) := by
  rw [Packet.process_eq h.1, if_neg (by rw [h.2]; decide), if_pos h.2]

theorem process_out (h : IsOut op) : process s op = doTokenOut (op.frame s) := by
  rw [Packet.process_eq h.1, if_neg (by rw [h.2]; decide), if_neg (by rw [h.2]; decide), if_pos h.2]

/-- The data of an IN packet comes from the data buffer. -/
theorem copyData_in {f : Frame} (hpid : f.pkt.pid = USB_TOKEN_IN) (hzero : f.pkt.actualLength = 0)
    (offset : Nat) {n : Nat} (hroom : n ≤ f.pkt.ioVec.length) (hn : n < 2 ^ 32) :
    f.copyData offset n = .ok { f with
      pkt := { f.pkt with
        actualLength := n
        ioVec := slice f.dev.dataBuffer offset n ++ f.pkt.ioVec.drop n }
      log := f.log ++ [.copy offset n] } := by
  have hother : ¬ (f.pkt.pid = USB_TOKEN_SETUP ∨ f.pkt.pid = USB_TOKEN_OUT) := by
    rw [hpid]
    decide
  have hbuffer : (fun j => if offset ≤ j then f.dev.dataBuffer (offset + (j - offset))
      else f.dev.dataBuffer j) = f.dev.dataBuffer := by
    funext j
    split
    · next hle => rw [Nat.add_sub_cancel' hle]
    · rfl
  rw [Frame.copyData, usbPacketCopy, hzero, Nat.zero_add, if_pos hroom]
  dsimp only
  rw [if_neg hother, if_pos hpid]
  dsimp only
  rw [hbuffer, u32_of_lt hn, List.take_zero, List.nil_append]
  rfl

/-- The device after `len` bytes more of the data stage. -/
def advanced (s : XboxDeviceState) (len : Nat) : XboxDeviceState :=
  { s with
    setupIndex := s.setupIndex + len
    setupState := if s.setupLength ≤ s.setupIndex + len then .ack else .data }

theorem Sending.stageLen (h : Sending s bytes) (op : Op) :
    (op.frame s).stageLen = min (s.setupLength - s.setupIndex) op.ioVec.length := by
  have hbounds := h.inBounds
  have hbounded := h.bounded
  rw [dataBufferSize] at hbounded
  have hsub : sub32 (op.frame s).dev.setupLength (op.frame s).dev.setupIndex =
      s.setupLength - s.setupIndex := sub32_of_le hbounds (show s.setupLength < 2 ^ 32 by omega)
  rw [Frame.stageLen, hsub]
  by_cases hmore : s.setupLength - s.setupIndex > op.ioVec.length
  · rw [Nat.min_eq_right hmore.le]
    exact if_pos hmore
  · rw [Nat.min_eq_left (Nat.le_of_not_lt hmore)]
    exact if_neg hmore

/-- The data stage of an IN packet copies from the buffer at the index, and moves the index on. -/
theorem dataStage_sending (h : Sending s bytes) (hin : IsIn op) {n : Nat}
    (hn : n = min (s.setupLength - s.setupIndex) op.ioVec.length) :
    dataStage (op.frame s) = .ok ⟨advanced s n, { (op.frame s).pkt with
      actualLength := n
      ioVec := slice s.dataBuffer s.setupIndex n ++ op.ioVec.drop n }, [.copy s.setupIndex n]⟩ := by
  have hbounds := h.inBounds
  have hbounded := h.bounded
  rw [dataBufferSize] at hbounded
  have hroom : n ≤ (op.frame s).pkt.ioVec.length := hn ▸ Nat.min_le_right _ _
  have hcopy : (op.frame s).copyData (op.frame s).dev.setupIndex n = _ :=
    copyData_in (f := op.frame s) hin.2 rfl s.setupIndex hroom (by omega)
  have hindex : u32 (s.setupIndex + n) = s.setupIndex + n := u32_of_lt (by omega)
  rw [dataStage, h.stageLen op, ← hn, hcopy, advanced, ← hindex]
  by_cases hend : s.setupLength ≤ u32 (s.setupIndex + n)
  · rw [if_pos hend]
    exact if_pos hend
  · rw [if_neg hend, ← h.state]
    exact if_neg hend

/-- A packet of the data stage takes what is left, as far as it has room. -/
theorem transfer_sending (h : Sending s bytes) (hin : IsIn op) :
    transfer s op = some (bytes.take op.ioVec.length,
      advanced s (min (s.setupLength - s.setupIndex) op.ioVec.length)) := by
  obtain ⟨n, hn⟩ : ∃ n, n = min (s.setupLength - s.setupIndex) op.ioVec.length := ⟨_, rfl⟩
  have hdata : bytes.take op.ioVec.length = slice s.dataBuffer s.setupIndex n := by
    rw [h.bytes, take_slice, Nat.min_comm, ← hn]
  have hdelivered (rest : List Byte) : (slice s.dataBuffer s.setupIndex n ++ rest).take n =
      slice s.dataBuffer s.setupIndex n := List.take_left' length_slice
  have hstage : doTokenIn op.handler (op.frame s) = dataStage (op.frame s) := by
    rw [doTokenIn, show (op.frame s).dev.setupState = .data from h.state]
    exact if_pos h.dirIn
  rw [transfer, process_in hin, hstage, dataStage_sending h hin hn, ← hn, hdata]
  dsimp only
  rw [if_pos (show (op.frame s).pkt.status = USB_RET_SUCCESS from rfl), delivered]
  dsimp only
  rw [hdelivered]

theorem Sending.length (h : Sending s bytes) : bytes.length = s.setupLength - s.setupIndex := by
  rw [h.bytes, length_slice]

/-- The last packet of the data stage. -/
theorem Sending.last (h : Sending s bytes) {n : Nat} (hn : bytes.length ≤ n) :
    Sent (advanced s (min (s.setupLength - s.setupIndex) n)) := by
  have hlength := h.length
  have hbounds := h.inBounds
  refine ⟨?_, h.dirIn⟩
  exact if_pos (show s.setupLength ≤ s.setupIndex + min (s.setupLength - s.setupIndex) n by omega)

theorem Sending.next (h : Sending s bytes) {n : Nat} (hn : n < bytes.length) :
    Sending (advanced s (min (s.setupLength - s.setupIndex) n)) (bytes.drop n) := by
  have hlength := h.length
  have hbounds := h.inBounds
  rw [Nat.min_eq_right (by omega)]
  refine ⟨?_, h.dirIn, ?_, h.bounded, ?_⟩
  · exact if_neg (show ¬ s.setupLength ≤ s.setupIndex + n by omega)
  · change s.setupIndex + n ≤ s.setupLength
    omega
  · rw [h.bytes, drop_slice, Nat.sub_sub]
    rfl

theorem transfer_sent (h : Sent s) (hin : IsIn op) : transfer s op = some ([], s) := by
  have hstage : doTokenIn op.handler (op.frame s) = .ok (op.frame s) := by
    rw [doTokenIn, show (op.frame s).dev.setupState = .ack from h.state]
    refine if_neg ?_
    rw [show (op.frame s).dev.dirIn = true from h.dirIn]
    decide
  rw [transfer, process_in hin, hstage]
  rfl

theorem transfer_status (h : Sent s) (hout : IsOut op) :
    ∃ u, transfer s op = some ([], u) ∧ u.setupState = .idle := by
  have hstage : doTokenOut (op.frame s) = .ok ((op.frame s).setState .idle) := by
    rw [doTokenOut, show (op.frame s).dev.setupState = .ack from h.state]
    exact if_pos h.dirIn
  refine ⟨((op.frame s).setState .idle).dev, ?_, rfl⟩
  rw [transfer, process_out hout, hstage]
  rfl

end Packets

/-! ## Sequences of packets -/

section Runs

variable {s : XboxDeviceState} {setup : Op} {ops : List Op} {bytes : List Byte}

/-- The room in each of the packets. -/
def rooms (ops : List Op) : List Nat := ops.map fun op => op.ioVec.length

theorem transfers_cons {s t : XboxDeviceState} {op : Op} {data : List Byte}
    (h : transfer s op = some (data, t)) (ops : List Op) :
    transfers s (op :: ops) = (transfers t ops).map fun rest => (data :: rest.1, rest.2) := by
  rw [transfers, h]
  rfl

theorem transfers_sent (h : Sent s) (hin : ∀ op ∈ ops, IsIn op) :
    transfers s ops = some (chunks [] (rooms ops), s) := by
  induction ops with
  | nil => rfl
  | cons op ops ih =>
    rw [List.forall_mem_cons] at hin
    rw [transfers_cons (transfer_sent h hin.1), ih hin.2]
    simp [rooms]

/-- The packets are chunks of the bytes that are left; the stage lasts while some are. -/
theorem transfers_sending (h : Sending s bytes) (hin : ∀ op ∈ ops, IsIn op) :
    ∃ t, transfers s ops = some (chunks bytes (rooms ops), t) ∧
      ((ops = [] ∨ (rooms ops).sum < bytes.length) ∧ Sending t (bytes.drop (rooms ops).sum) ∨
        ops ≠ [] ∧ bytes.length ≤ (rooms ops).sum ∧ Sent t) := by
  induction ops generalizing s bytes with
  | nil => exact ⟨s, rfl, .inl ⟨.inl rfl, h⟩⟩
  | cons op ops ih =>
    rw [List.forall_mem_cons] at hin
    have hsum : (rooms (op :: ops)).sum = op.ioVec.length + (rooms ops).sum := by simp [rooms]
    rw [transfers_cons (transfer_sending h hin.1), hsum]
    by_cases hlast : bytes.length ≤ op.ioVec.length
    · have hsent := h.last hlast
      refine ⟨advanced s (min (s.setupLength - s.setupIndex) op.ioVec.length), ?_,
        .inr ⟨List.cons_ne_nil _ _, by omega, hsent⟩⟩
      rw [transfers_sent hsent hin.2]
      simp [rooms, List.drop_eq_nil_of_le hlast]
    · obtain ⟨t, hrun, ht⟩ := ih (h.next (Nat.lt_of_not_le hlast)) hin.2
      refine ⟨t, ?_, ?_⟩
      · rw [hrun]
        simp [rooms]
      · rw [List.length_drop, List.drop_drop] at ht
        rcases ht with ⟨hmore, hsending⟩ | ⟨-, hall, hsent⟩
        · refine .inl ⟨.inr ?_, hsending⟩
          rcases hmore with rfl | hlt
          · simp [rooms]
            omega
          · omega
        · exact .inr ⟨List.cons_ne_nil _ _, by omega, hsent⟩

/-- The request leaves the result of its handler to be sent, cut to the length asked for. -/
theorem step_request (h : InRequest s setup) :
    ∃ s₁, step s setup = some s₁ ∧ Sending s₁ (requested s setup) := by
  have hfits := h.fits
  rw [dataBufferSize] at hfits
  have hactual : u32 (reply s setup).actualLength = (reply s setup).actualLength := u32_of_lt (by omega)
  obtain ⟨f, hf⟩ : ∃ f, f = (setup.request s).handleControl setup.handler := ⟨_, rfl⟩
  have hstatus : f.pkt.status = USB_RET_SUCCESS := by
    rw [hf]
    exact h.success
  have hwait : f.pkt.status ≠ USB_RET_ASYNC := by
    rw [hstatus]
    decide
  have hstage : setupStage setup.handler (setup.request s) =
      .ok ((f.limitLength.setState .data).setActualLength 8) := by
    rw [setupStage, if_pos (show (setup.request s).dev.dirIn = true from h.dirIn), ← hf]
    dsimp only
    rw [if_neg hwait, if_neg (not_not.mpr hstatus)]
  have hlimit : f.limitLength.dev = { f.dev with
      setupLength := min setup.wLength (reply s setup).actualLength } := by
    have hpacket : f.pkt.actualLength = (reply s setup).actualLength := by
      rw [hf]
      exact hactual
    have hasked : f.dev.setupLength = setup.wLength := by rw [hf]; rfl
    rw [limitLength_eq, hpacket, hasked]
  have hfields : f.dev.setupIndex = 0 ∧ f.dev.dataBuffer = (reply s setup).data ∧
      f.dev.dirIn = true := by
    rw [hf]
    exact ⟨rfl, rfl, h.dirIn⟩
  obtain ⟨hindex, hdata, hdir⟩ := hfields
  have hdone : step s setup = some { f.limitLength.dev with setupState := .data } := by
    rw [step, process_setup h.isSetup s, hstage]
    rfl
  rw [hlimit] at hdone
  refine ⟨_, hdone, rfl, hdir, ?_, ?_, ?_⟩
  · exact hindex ▸ Nat.zero_le _
  · exact (Nat.min_le_left _ _).trans h.wLength
  · dsimp only
    rw [hindex, hdata, Nat.sub_zero, requested]

/-- After a request for data, IN packets of any sizes deliver the result of the handler, cut to the
length asked for, and nothing else. -/
theorem control_in_delivers (h : InRequest s setup) (hin : ∀ op ∈ ops, IsIn op) :
    ∃ s₁ packets t, step s setup = some s₁ ∧ s₁.setupState = .data ∧
      transfers s₁ ops = some (packets, t) ∧ Delivers (requested s setup) (rooms ops) packets t := by
  obtain ⟨s₁, hstep, hsending⟩ := step_request h
  obtain ⟨t, hrun, ht⟩ := transfers_sending hsending hin
  refine ⟨s₁, _, t, hstep, hsending.state, hrun, flatten_chunks _ _, ?_, ?_, ?_, ?_⟩
  · exact fun i hi => length_chunk hi.le
  · rcases ht with ⟨-, hmore⟩ | ⟨-, -, hsent⟩
    · exact .inl hmore.state
    · exact .inr hsent.state
  · rw [flatten_chunks_eq_iff, ne_eq, chunks_eq_nil, rooms, List.map_eq_nil_iff]
    rcases ht with ⟨hless, hmore⟩ | ⟨hne, hall, hsent⟩
    · refine iff_of_false (by rw [hmore.state]; decide) fun hboth => ?_
      rcases hless with hnil | hlt
      · exact hboth.1 hnil
      · exact absurd hboth.2 (Nat.not_le.mpr hlt)
    · exact iff_of_true hsent.state ⟨hne, hall⟩
  · intro hack op hout
    rcases ht with ⟨-, hmore⟩ | ⟨-, -, hsent⟩
    · rw [hmore.state] at hack
      cases hack
    · exact transfer_status hsent hout

end Runs

/-- A request for 18 bytes, to which the handler has four. -/
def fourBytes : Op :=
  ⟨USB_TOKEN_SETUP, [0x80, 6, 0, 1, 0, 0, 18, 0], 0,
    fun _ _ _ _ _ _ => ⟨USB_RET_SUCCESS, 4, fun i => BitVec.ofNat 8 (10 + i)⟩⟩

/-- An IN packet with room for three bytes. -/
def threeBytesIn : Op := ⟨USB_TOKEN_IN, [0, 0, 0], 0, fun _ _ _ _ _ _ => ⟨USB_RET_STALL, 0, fun _ => 0⟩⟩

theorem four_bytes_delivered : ∃ s₁ packets t,
    step (initial (fun _ => 0) fun _ => 0) fourBytes = some s₁ ∧ s₁.setupState = .data ∧
      transfers s₁ [threeBytesIn, threeBytesIn] = some (packets, t) ∧
        Delivers (requested (initial (fun _ => 0) fun _ => 0) fourBytes)
          (rooms [threeBytesIn, threeBytesIn]) packets t :=
  control_in_delivers ⟨⟨rfl, rfl, rfl⟩, by decide, by decide, rfl, by decide⟩
    (by simp [IsIn, threeBytesIn])

end OpenXbox.Usb.ControlIn
