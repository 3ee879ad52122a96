import OpenXbox.Usb.ControlIn

/-!
# Control transfers to the device

A SETUP packet with the direction OUT only stores the request. The OUT packets that follow fill the
data buffer, and the IN packet of the status stage has the handler called with what they carried.
-/

namespace OpenXbox.Usb.ControlOut

open OpenXbox.Lib OpenXbox.Lib.Buffer OpenXbox.Lib.Chunks OpenXbox.Usb.Control
  OpenXbox.Usb.ControlBound OpenXbox.Usb.ControlIn

/-! ## Requests and packets -/

/-- A request whose data fits the buffer. -/
structure OutRequest (setup : Op) : Prop where
  isSetup : setup.isSetup
  dirOut : setup.dirIn = false
  wLength : setup.wLength ≤ dataBufferSize

/-- What the packets of a data stage carry. -/
def carried (ops : List Op) : List Byte := (ops.map Op.ioVec).flatten

/-- The length that an effect tells a handler. -/
def Effect.told : Effect → Option Nat
  | .control length => some length
  | .copy _ _ => none

/-- The calls of handlers while packets are processed, by the length they are told. -/
def calls (s : XboxDeviceState) : List Op → List Nat
  | [] => []
  | op :: ops =>
    (Result.effects (process s op)).filterMap Effect.told ++
      match step s op with
      | none => []
      | some t => calls t ops

/-- The request `r` with the bytes `got` of its data stage. -/
def collected (r : XboxDeviceState) (got : List Byte) : XboxDeviceState :=
  { r with
    dataBuffer := put r.dataBuffer 0 got
    setupIndex := got.length
    setupState := if r.setupLength ≤ got.length then .ack else .data }

/-- What the handler of the status packet answers to the request `r`, with the data `got`. -/
def answer (r : XboxDeviceState) (got : List Byte) (status : Op) : Reply :=
  status.handler (status.frame (collected r got)).pkt r.request r.value r.index r.setupLength
    (put r.dataBuffer 0 got)

/-- The end of a transfer: the handler is called once, with the data of the request, if all of it has
come; otherwise the packet stalls and nothing is called. -/
structure Concludes (r : XboxDeviceState) (got : List Byte) (status : Op) (f : Frame) : Prop where
  complete : got.length = r.setupLength → slice (put r.dataBuffer 0 got) 0 r.setupLength = got ∧
    f.log = [.control r.setupLength] ∧ f.pkt.status = (answer r got status).status ∧
    (f.pkt.status ≠ USB_RET_ASYNC → f.dev.setupState = .idle ∧ f.pkt.actualLength = 0)
  early : got.length < r.setupLength →
    f.log = [] ∧ f.pkt.status = USB_RET_STALL ∧ f.dev.setupState = .idle

/-! ## One packet -/

section Packets

variable {r s : XboxDeviceState} {got : List Byte} {op setup : Op}

/-- The data of an OUT packet goes to the data buffer. -/
theorem copyData_out {f : Frame} (hpid : f.pkt.pid = USB_TOKEN_OUT) (hzero : f.pkt.actualLength = 0)
    (offset : Nat) {n : Nat} (hroom : n ≤ f.pkt.ioVec.length) (hn : n < 2 ^ 32) :
    f.copyData offset n = .ok { f with
      dev := { f.dev with dataBuffer := put f.dev.dataBuffer offset (f.pkt.ioVec.take n) }
      pkt := { f.pkt with actualLength := n }
      log := f.log ++ [.copy offset n] } := by
  have hbuffer : (fun j => if offset ≤ j then
        (if j - offset < n then f.pkt.ioVec.getD (j - offset) 0 else f.dev.dataBuffer (offset + (j - offset)))
      else f.dev.dataBuffer j) = put f.dev.dataBuffer offset (f.pkt.ioVec.take n) := by
    funext j
    unfold put
    split
    · next hle =>
      rw [Nat.add_sub_cancel' hle]
      by_cases hj : j - offset < n
      · have hin : j - offset < f.pkt.ioVec.length := by omega
        simp [hj, hin]
      · have hout : (f.pkt.ioVec.take n).length ≤ j - offset := by
          rw [List.length_take]
          omega
        simp [hj]
    · rfl
  rw [Frame.copyData, usbPacketCopy, hzero, Nat.zero_add, if_pos hroom]
  dsimp only
  rw [if_pos (Or.inr hpid)]
  simp only [Nat.zero_add]
  rw [hbuffer, u32_of_lt hn]

/-- The request is stored; one without data waits for its status packet. -/
theorem process_request (h : OutRequest setup) (s : XboxDeviceState) :
    process s setup = .ok ⟨collected (setup.stored s) [],
      { (setup.request s).pkt with actualLength := 8 }, []⟩ := by
  have hdir : (setup.request s).dev.dirIn = false := h.dirOut
  have hlength : (setup.request s).dev.setupLength = setup.wLength := rfl
  have hfits : ¬ setup.wLength > dataBufferSize := Nat.not_lt.mpr h.wLength
  rw [process_setup h.isSetup s, setupStage, hdir, if_neg Bool.false_ne_true, hlength, if_neg hfits]
  unfold collected
  rw [put_nil]
  by_cases hempty : setup.wLength = 0
  · have hdone : (setup.stored s).setupLength ≤ ([] : List Byte).length := hempty.le
    rw [if_pos hempty, if_pos hdone]
    rfl
  · have hmore : ¬ (setup.stored s).setupLength ≤ ([] : List Byte).length := fun hle => hempty (Nat.le_zero.mp hle)
    rw [if_neg hempty, if_neg hmore]
    rfl

/-- A request with the direction OUT, at some point of its data stage. -/
structure Pending (r : XboxDeviceState) (got : List Byte) : Prop where
  dirOut : r.dirIn = false
  bounded : r.setupLength ≤ dataBufferSize
  room : got.length ≤ r.setupLength

theorem Pending.next (h : Pending r got) (piece : List Byte) :
    Pending r (got ++ piece.take (r.setupLength - got.length)) := by
  have hroom := h.room
  refine ⟨h.dirOut, h.bounded, ?_⟩
  rw [List.length_append, List.length_take]
  omega

/-- All data has come: a packet is passed over. -/
theorem doTokenOut_full (h : Pending r got) (hfull : r.setupLength ≤ got.length) (op : Op) :
    doTokenOut (op.frame (collected r got)) = .ok (op.frame (collected r got)) := by
  have hstate : (collected r got).setupState = .ack := if_pos hfull
  rw [doTokenOut, show (op.frame (collected r got)).dev.setupState = .ack from hstate]
  refine if_neg ?_
  rw [show (op.frame (collected r got)).dev.dirIn = false from h.dirOut]
  exact Bool.false_ne_true

/-- A packet of the data stage is taken in as far as there is room. -/
theorem doTokenOut_more (h : Pending r got) (hmore : got.length < r.setupLength) (hout : IsOut op)
    {n : Nat} (hn : n = min (r.setupLength - got.length) op.ioVec.length) :
    doTokenOut (op.frame (collected r got)) = .ok ⟨collected r (got ++ op.ioVec.take n),
      { (op.frame (collected r got)).pkt with actualLength := n }, [.copy got.length n]⟩ := by
  have hbounded := h.bounded
  rw [dataBufferSize] at hbounded
  have hstate : (collected r got).setupState = .data := if_neg (Nat.not_le.mpr hmore)
  have hsub : sub32 r.setupLength got.length = r.setupLength - got.length :=
    sub32_of_le h.room (show r.setupLength < 2 ^ 32 by omega)
  have hstage : (op.frame (collected r got)).stageLen = n := by
    rw [Frame.stageLen, show sub32 (op.frame (collected r got)).dev.setupLength
      (op.frame (collected r got)).dev.setupIndex = r.setupLength - got.length from hsub, hn]
    by_cases hcut : r.setupLength - got.length > op.ioVec.length
    · rw [Nat.min_eq_right hcut.le]
      exact if_pos hcut
    · rw [Nat.min_eq_left (Nat.le_of_not_lt hcut)]
      exact if_neg hcut
  have hcopy : (op.frame (collected r got)).copyData (op.frame (collected r got)).dev.setupIndex n = _ :=
    copyData_out (f := op.frame (collected r got)) hout.2 rfl got.length
      (hn ▸ Nat.min_le_right _ _) (by omega)
  have hlength : (got ++ op.ioVec.take n).length = got.length + n := by
    rw [List.length_append, List.length_take]
    omega
  have hindex : u32 (got.length + n) = got.length + n := u32_of_lt (by omega)
  have hbuffer : put (put r.dataBuffer 0 got) got.length (op.ioVec.take n) =
      put r.dataBuffer 0 (got ++ op.ioVec.take n) := put_put (Nat.zero_add _).symm
  have hnext : collected r (got ++ op.ioVec.take n) = { collected r got with
      dataBuffer := put (put r.dataBuffer 0 got) got.length (op.ioVec.take n)
      setupIndex := u32 (got.length + n)
      setupState := if r.setupLength ≤ u32 (got.length + n) then .ack else .data } := by
    rw [collected, hbuffer, hindex, hlength]
    rfl
  rw [doTokenOut, show (op.frame (collected r got)).dev.setupState = .data from hstate]
  dsimp only
  rw [show (op.frame (collected r got)).dev.dirIn = false from h.dirOut, Bool.not_false, if_pos rfl,
    dataStage, hstage, hcopy, hnext]
  by_cases hend : r.setupLength ≤ u32 (got.length + n)
  · rw [if_pos hend]
    exact if_pos hend
  · rw [if_neg hend, ← hstate]
    exact if_neg hend

/-- A packet of a data stage leaves the front that there is room for, and calls no handler. -/
theorem process_collected (h : Pending r got) (hout : IsOut op) : ∃ f,
    process (collected r got) op = .ok f ∧ f.pkt.status = USB_RET_SUCCESS ∧
      delivered f.pkt = op.ioVec.take (r.setupLength - got.length) ∧
      f.dev = collected r (got ++ op.ioVec.take (r.setupLength - got.length)) ∧
      f.log.filterMap Effect.told = [] := by
  rw [process_out hout]
  by_cases hfull : r.setupLength ≤ got.length
  · have hnone : r.setupLength - got.length = 0 := by omega
    rw [doTokenOut_full h hfull, hnone]
    exact ⟨_, rfl, rfl, rfl, by rw [List.take_zero, List.append_nil]; rfl, rfl⟩
  · obtain ⟨n, hn⟩ : ∃ n, n = min (r.setupLength - got.length) op.ioVec.length := ⟨_, rfl⟩
    have htake : op.ioVec.take (r.setupLength - got.length) = op.ioVec.take n := by
      rw [hn, ← List.take_eq_take_min]
    rw [doTokenOut_more h (Nat.lt_of_not_le hfull) hout hn, htake]
    exact ⟨_, rfl, rfl, rfl, rfl, rfl⟩

/-- The packet that ends the transfer. -/
theorem process_status (h : Pending r got) (hin : IsIn op) : ∃ f,
    process (collected r got) op = .ok f ∧ Concludes r got op f := by
  rw [process_in hin]
  by_cases hfull : r.setupLength ≤ got.length
  · have hstate : (collected r got).setupState = .ack := if_pos hfull
    have hall : got.length = r.setupLength := Nat.le_antisymm h.room hfull
    have hslice : slice (put r.dataBuffer 0 got) 0 r.setupLength = got := hall ▸ slice_put
    rw [doTokenIn, show (op.frame (collected r got)).dev.setupState = .ack from hstate]
    dsimp only
    rw [show (op.frame (collected r got)).dev.dirIn = false from h.dirOut, Bool.not_false, if_pos rfl]
    by_cases hasync : (answer r got op).status = USB_RET_ASYNC
    · refine ⟨_, if_pos hasync, fun _ => ⟨hslice, rfl, rfl, fun hnot => absurd hasync hnot⟩,
        fun hlt => absurd hlt (Nat.not_lt.mpr hfull)⟩
    · exact ⟨_, if_neg hasync, fun _ => ⟨hslice, rfl, rfl, fun _ => ⟨rfl, rfl⟩⟩,
        fun hlt => absurd hlt (Nat.not_lt.mpr hfull)⟩
  · have hstate : (collected r got).setupState = .data := if_neg hfull
    rw [doTokenIn, show (op.frame (collected r got)).dev.setupState = .data from hstate]
    refine ⟨_, if_neg ?_, fun hall => absurd hall.ge hfull, fun _ => ⟨rfl, rfl, rfl⟩⟩
    rw [show (op.frame (collected r got)).dev.dirIn = false from h.dirOut]
    exact Bool.false_ne_true

end Packets

/-! ## Sequences of packets -/

section Runs

variable {r s : XboxDeviceState} {got : List Byte} {setup status : Op} {ops : List Op}

theorem carried_cons (op : Op) (ops : List Op) : carried (op :: ops) = op.ioVec ++ carried ops := rfl

/-- The packets fill the room that the request has left. -/
theorem transfers_collected (h : Pending r got) (hout : ∀ op ∈ ops, IsOut op) :
    transfers (collected r got) ops = some (fills (r.setupLength - got.length) (ops.map Op.ioVec),
      collected r (got ++ (carried ops).take (r.setupLength - got.length))) := by
  induction ops generalizing got with
  | nil => simp [transfers, carried]
  | cons op ops ih =>
    rw [List.forall_mem_cons] at hout
    obtain ⟨f, hf, hok, htaken, hdev, -⟩ := process_collected h hout.1
    have hone : transfer (collected r got) op = some (op.ioVec.take (r.setupLength - got.length),
        collected r (got ++ op.ioVec.take (r.setupLength - got.length))) := by
      rw [transfer, hf]
      dsimp only
      rw [if_pos hok, htaken, hdev]
    have hroom : r.setupLength - (got ++ op.ioVec.take (r.setupLength - got.length)).length =
        r.setupLength - got.length - op.ioVec.length := by
      rw [List.length_append, List.length_take]
      omega
    rw [transfers_cons hone, ih (h.next op.ioVec) hout.2, hroom, carried_cons, List.take_append]
    simp

theorem calls_cons {op : Op} {f : Frame} (h : process s op = .ok f) (ops : List Op) :
    calls s (op :: ops) = f.log.filterMap Effect.told ++ calls f.dev ops := by
  rw [calls, step, h]
  rfl

/-- No handler is called before the status packet. -/
theorem calls_collected (h : Pending r got) (hout : ∀ op ∈ ops, IsOut op) (more : List Op) :
    calls (collected r got) (ops ++ more) =
      calls (collected r (got ++ (carried ops).take (r.setupLength - got.length))) more := by
  induction ops generalizing got with
  | nil => simp [carried]
  | cons op ops ih =>
    rw [List.forall_mem_cons] at hout
    obtain ⟨f, hf, -, -, hdev, hquiet⟩ := process_collected h hout.1
    have hroom : r.setupLength - (got ++ op.ioVec.take (r.setupLength - got.length)).length =
        r.setupLength - got.length - op.ioVec.length := by
      rw [List.length_append, List.length_take]
      omega
    rw [List.cons_append, calls_cons hf, hquiet, List.nil_append, hdev, ih (h.next op.ioVec) hout.2,
      hroom, carried_cons, List.take_append]
    simp

theorem pending_request (h : OutRequest setup) (s : XboxDeviceState) : Pending (setup.stored s) [] :=
  ⟨h.dirOut, h.wLength, Nat.zero_le _⟩

/-- A request with data for the device: packets of any sizes are put together in the data buffer, and
cut where the request ends; then the status packet has the handler called, once and with the data of
the whole request, or stalls when some of it has not come. -/
theorem control_out_delivers (h : OutRequest setup) (hout : ∀ op ∈ ops, IsOut op)
    (hin : IsIn status) :
    ∃ s₁ packets t f, step s setup = some s₁ ∧ transfers s₁ ops = some (packets, t) ∧
      packets.flatten = (carried ops).take setup.wLength ∧
      List.Forall₂ (· <+: ·) packets (ops.map Op.ioVec) ∧
      t.dataBuffer = put s.dataBuffer 0 packets.flatten ∧
      process t status = .ok f ∧ Concludes (setup.stored s) packets.flatten status f ∧
      calls s (setup :: (ops ++ [status])) =
        if setup.wLength ≤ (carried ops).length then [setup.wLength] else [] := by
  have hpending := pending_request h s
  have hroom : (setup.stored s).setupLength - ([] : List Byte).length = setup.wLength := rfl
  have hstep : step s setup = some (collected (setup.stored s) []) := by
    rw [step, process_request h s]
  have hrun := transfers_collected hpending hout
  rw [hroom, List.nil_append] at hrun
  have hflat := flatten_fills setup.wLength (ops.map Op.ioVec)
  have hend : Pending (setup.stored s) ((carried ops).take setup.wLength) := by
    have hnext := hpending.next (carried ops)
    rwa [hroom, List.nil_append] at hnext
  obtain ⟨f, hf, hconcludes⟩ := process_status hend hin
  refine ⟨_, _, _, f, hstep, hrun, hflat, fills_prefix _ _, ?_, hf, ?_, ?_⟩
  · rw [hflat]
    rfl
  · rw [hflat]
    exact hconcludes
  · have hcalls := calls_collected hpending hout [status]
    rw [hroom, List.nil_append] at hcalls
    rw [calls_cons (process_request h s), hcalls, calls_cons hf]
    by_cases hall : setup.wLength ≤ (carried ops).length
    · have hlength : ((carried ops).take setup.wLength).length = (setup.stored s).setupLength := by
        rw [List.length_take, Nat.min_eq_left hall]
        rfl
      rw [if_pos hall, (hconcludes.complete hlength).2.1]
      rfl
    · have hless : ((carried ops).take setup.wLength).length < (setup.stored s).setupLength := by
        rw [List.length_take, Nat.min_eq_right (Nat.le_of_not_le hall)]
        exact Nat.lt_of_not_le hall
      rw [if_neg hall, (hconcludes.early hless).1]
      rfl

end Runs

/-- A handler that meets every request. -/
def accepting : Handler := fun _ _ _ _ _ data => ⟨USB_RET_SUCCESS, 0, data⟩

/-- A request that comes with three bytes. -/
def threeBytes : Op := ⟨USB_TOKEN_SETUP, [0x21, 9, 0, 2, 0, 0, 3, 0], 0, accepting⟩

def bytesOut (bytes : List Byte) : Op := ⟨USB_TOKEN_OUT, bytes, 0, accepting⟩

def statusIn : Op := ⟨USB_TOKEN_IN, [], 0, accepting⟩

theorem three_bytes_delivered : ∃ s₁ packets t f,
    step (initial (fun _ => 0) fun _ => 0) threeBytes = some s₁ ∧
      transfers s₁ [bytesOut [1, 2], bytesOut [3, 4]] = some (packets, t) ∧
      packets.flatten = (carried [bytesOut [1, 2], bytesOut [3, 4]]).take threeBytes.wLength ∧
      List.Forall₂ (· <+: ·) packets ([bytesOut [1, 2], bytesOut [3, 4]].map Op.ioVec) ∧
      t.dataBuffer = put (fun _ => 0) 0 packets.flatten ∧
      process t statusIn = .ok f ∧
      Concludes (threeBytes.stored (initial (fun _ => 0) fun _ => 0)) packets.flatten statusIn f ∧
      calls (initial (fun _ => 0) fun _ => 0)
          (threeBytes :: ([bytesOut [1, 2], bytesOut [3, 4]] ++ [statusIn])) =
        if threeBytes.wLength ≤ (carried [bytesOut [1, 2], bytesOut [3, 4]]).length
        then [threeBytes.wLength] else [] :=
  control_out_delivers ⟨⟨rfl, rfl, rfl⟩, by decide, by decide⟩ (by simp [IsOut, bytesOut]) ⟨rfl, rfl⟩

end OpenXbox.Usb.ControlOut
