import OpenXbox.Usb.ControlBound
import OpenXbox.Usb.Hub
import OpenXbox.Xid.KnownRequests

/-!
# Packets

`USB_GetEP`, `USB_HandlePacket` and `USB_ProcessOne` for a device of one of the two classes. No
device puts a packet off, so that no endpoint ever has a queue or is halted.
-/

namespace OpenXbox.Usb.Packet

open OpenXbox.Usb.Control OpenXbox.Usb.ControlBound OpenXbox.Usb.Requests
open OpenXbox.Usb.Hub (USBHubState usbHubHandleControl usbHubHandleData descHub
  usbHubHandleControl_kept usbHubHandleData_status)
open OpenXbox.Xid.Gamepad (XidGamepad usbXidHandleControl usbXidHandleData outputReportSize
  descXboxGamepad)
open OpenXbox.Xid.KnownRequests (Known Carries usbXidHandleControl_iff usbXidHandleControl_kept
  usbXidHandleData_iff usbXidHandleData_kept usbPacketCopy_status)

def USB_MAX_ENDPOINTS : Nat := 15

def USB_ENDPOINT_XFER_ISOC : Byte := 1
def USB_ENDPOINT_XFER_INT : Byte := 3

/-- What ends the processing of a packet. -/
inductive Failure where
  | assertion
  /-- An access past the end of a buffer. What follows it is undefined. -/
  | overrun
deriving DecidableEq

inductive USBState where
  | notAttached
  | attached
  | default
deriving DecidableEq

/-- The two classes of devices, with their states. -/
inductive USBDeviceClass where
  | gamepad (g : XidGamepad)
  | hub (h : USBHubState)

def USBDeviceClass.dev : USBDeviceClass → Device
  | .gamepad g => g.dev
  | .hub h => h.dev

structure XboxDevice where
  state : USBState
  control : XboxDeviceState
  klass : USBDeviceClass

/-! ## The handlers of a class -/

theorem map_eq_error_iff {α β : Type} {x : Except Failure α} {f : α → β} {e : Failure} :
    x.map f = .error e ↔ x = .error e := by
  cases x with
  | error e' => exact ⟨fun h => congrArg _ (Except.error.inj h), fun h => congrArg _ (Except.error.inj h)⟩
  | ok a => exact iff_of_false nofun nofun

/-- What a control handler leaves behind; the device at the port `reset` of a hub is to be reset. -/
structure Served where
  klass : USBDeviceClass
  pkt : USBPacket
  data : Nat → Byte
  reset : Option Nat

/-- The requests for which the gamepad clears as many bytes as they ask for. -/
def Clears (c : Call) : Prop :=
  c.request = ClassDeviceRequest ||| USB_REQ_GET_DESCRIPTOR ∨
    c.request = EndpointOutRequest ||| USB_REQ_CLEAR_FEATURE

instance (c : Call) : Decidable (Clears c) := inferInstanceAs (Decidable (_ ∨ _))

/-- `klass->handle_control`; `attached` tells at which ports of a hub there are devices. -/
def USBDeviceClass.handleControl (k : USBDeviceClass) (attached : Nat → Bool) (p : USBPacket)
    (c : Call) (data : Nat → Byte) : Except Failure Served :=
  match k with
  | .gamepad g =>
    match usbXidHandleControl g p c data with
    | none => .error .assertion
    | some r =>
      if Clears c ∧ c.length > dataBufferSize then .error .overrun
      else .ok ⟨.gamepad r.gamepad, r.pkt, r.data, none⟩
  | .hub h =>
    match usbHubHandleControl h attached p c data with
    | none => .error .assertion
    | some r => .ok ⟨.hub r.hub, r.pkt, r.data, r.reset⟩

/-- The bytes of `out_state` and `out_state_capabilities`. -/
def outStateSize : Nat := 2 * outputReportSize

/-- `klass->handle_data`. -/
def USBDeviceClass.handleData (k : USBDeviceClass) (p : USBPacket) (num : Nat) :
    Except Failure (USBDeviceClass × USBPacket) :=
  match k with
  | .gamepad g =>
    match usbXidHandleData g p num with
    | none => .error .assertion
    | some (g', q) =>
      if p.pid = USB_TOKEN_OUT ∧ g.outLength > outStateSize then .error .overrun
      else .ok (.gamepad g', q)
  | .hub h =>
    match usbHubHandleData h p num with
    | none => .error .assertion
    | some q => .ok (.hub h, q)

/-! ## Endpoint 0 -/

/-- The handler as the functions for endpoint 0 call it. A failure ends the packet, whatever the
reply. -/
def USBDeviceClass.handler (k : USBDeviceClass) (attached : Nat → Bool) : Handler :=
  fun p request value index length data =>
    match k.handleControl attached p ⟨request, value, index, length⟩ data with
    | .ok r => ⟨r.pkt.status, r.pkt.actualLength, r.data⟩
    | .error _ => ⟨USB_RET_STALL, 0, data⟩

/-- The request that is handed to the control handler. -/
def requested (f : Frame) : Call := ⟨f.dev.request, f.dev.value, f.dev.index, f.dev.setupLength⟩

/-- The frame in which a packet has the control handler called, if it does. -/
def controlFrame (s : XboxDeviceState) (op : Op) : Option Frame :=
  if op.pid = USB_TOKEN_SETUP then
    if op.ioVec.length = 8 ∧ (op.stored s).dirIn then some (op.request s) else none
  else if op.pid = USB_TOKEN_IN ∧ s.setupState = .ack ∧ s.dirIn = false then some (op.frame s)
  else none

/-- A copy goes past the end of the data buffer. -/
def overruns (log : List Effect) : Bool :=
  log.any fun e => match e with
    | .copy offset len => decide (offset + len > dataBufferSize)
    | .control _ => false

/-- What is left of a packet that has been processed. -/
structure Processed where
  dev : XboxDevice
  pkt : USBPacket
  reset : Option Nat

namespace XboxDevice

/-- The packet for endpoint 0; `USB_PacketSetup` has left it without a parameter. -/
def op (d : XboxDevice) (attached : Nat → Bool) (pid : Nat) (ioVec : List Byte) : Op :=
  ⟨pid, ioVec, 0, d.klass.handler attached⟩

/-- The class and the port to reset after the call of the control handler, if there is one. -/
def serve (d : XboxDevice) (attached : Nat → Bool) (pid : Nat) (ioVec : List Byte) :
    Except Failure (USBDeviceClass × Option Nat) :=
  match controlFrame d.control (d.op attached pid ioVec) with
  | none => .ok (d.klass, none)
  | some f => (d.klass.handleControl attached f.pkt (requested f) f.dev.dataBuffer).map fun r =>
      (r.klass, r.reset)

/-- `USB_ProcessOne` for endpoint 0. -/
def processControl (d : XboxDevice) (attached : Nat → Bool) (pid : Nat) (ioVec : List Byte) :
    Except Failure Processed :=
  match d.serve attached pid ioVec with
  | .error e => .error e
  | .ok (klass, reset) =>
    match process d.control (d.op attached pid ioVec) with
    | .error _ => .error .assertion
    | .ok f =>
      if overruns f.log then .error .overrun
      else .ok ⟨{ d with control := f.dev, klass := klass }, f.pkt, reset⟩

/-- `USB_ProcessOne` for another endpoint. -/
def processData (d : XboxDevice) (pid ep : Nat) (ioVec : List Byte) : Except Failure Processed :=
  (d.klass.handleData ⟨pid, ioVec, 0, USB_RET_SUCCESS, 0⟩ ep).map fun r =>
    ⟨{ d with klass := r.1 }, r.2, none⟩

/-- `USB_ProcessOne`. -/
def processOne (d : XboxDevice) (attached : Nat → Bool) (pid ep : Nat) (ioVec : List Byte) :
    Except Failure Processed :=
  if ep = 0 then d.processControl attached pid ioVec else d.processData pid ep ioVec

end XboxDevice

/-! ## A packet for a device -/

/-- `USB_GetEP` for a device; `none` when an assertion fails. -/
def usbGetEP (eps : Endpoints) (pid ep : Nat) : Option USBEndpoint :=
  if ep = 0 then some eps.ctl
  else if (pid = USB_TOKEN_IN ∨ pid = USB_TOKEN_OUT) ∧ 0 < ep ∧ ep ≤ USB_MAX_ENDPOINTS then
    some (if pid = USB_TOKEN_IN then eps.epIn (ep - 1) else eps.epOut (ep - 1))
  else none

/-- `USB_HandlePacket` after `USB_GetEP`. -/
def XboxDevice.handlePacket (d : XboxDevice) (attached : Nat → Bool) (pid ep : Nat)
    (ioVec : List Byte) : Except Failure Processed :=
  match usbGetEP d.klass.dev.endpoints pid ep with
  | none => .error .assertion
  | some endpoint =>
    if d.state ≠ .default then .error .assertion
    else
      match d.processOne attached pid ep ioVec with
      | .error e => .error e
      | .ok r =>
        if r.pkt.status = USB_RET_ASYNC ∧
            (endpoint.type = USB_ENDPOINT_XFER_ISOC ∨ endpoint.type = USB_ENDPOINT_XFER_INT) then
          .error .assertion
        else .ok r

/-! ## What a device takes -/

/-- The device knows the request; a hub stalls those that it does not know. -/
def USBDeviceClass.Knows (k : USBDeviceClass) (c : Call) (data : Nat → Byte) : Prop :=
  match k with
  | .gamepad g => Known g c data
  | .hub _ => True

/-- The packet has the data that the device copies; a hub copies no more than there is. -/
def USBDeviceClass.Carried (k : USBDeviceClass) (pid ep : Nat) (ioVec : List Byte) : Prop :=
  match k with
  | .gamepad g => Carries g pid ep ioVec
  | .hub _ => True

/-- On endpoint 0 the device knows the request for which its handler is called; a packet for another
endpoint is no SETUP packet, and has the data that the device copies. -/
def XboxDevice.Takes (d : XboxDevice) (pid ep : Nat) (ioVec : List Byte) : Prop :=
  if ep = 0 then
    ∀ f, controlFrame d.control ⟨pid, ioVec, 0, fun _ _ _ _ _ data => ⟨0, 0, data⟩⟩ = some f →
      d.klass.Knows (requested f) f.dev.dataBuffer
  else pid ≠ USB_TOKEN_SETUP ∧ d.klass.Carried pid ep ioVec

/-! ## Endpoint 0 does not fail -/

section Control

variable {f g : Frame} {s : XboxDeviceState} {op : Op}

/-- The processing comes back, and the packet does not wait. -/
def Ends (r : Result) : Prop := ∃ f, r = .ok f ∧ Settled f.pkt.status

theorem Ends.ok (h : Settled f.pkt.status) : Ends (.ok f) := ⟨f, rfl, h⟩

theorem Ends.ite {q : Prop} [Decidable q] {x y : Result} (hx : Ends x) (hy : Ends y) :
    Ends (if q then x else y) := by
  split
  · exact hx
  · exact hy

theorem Ends.stall : Ends (.ok f.stall) := .ok (show Settled USB_RET_STALL by decide)

/-- What is left of a data stage is cut to the packet. -/
theorem stageLen_le_packet (f : Frame) : f.stageLen ≤ f.pkt.ioVec.length := by
  unfold Frame.stageLen
  dsimp only
  split
  · exact Nat.le_refl _
  · next h => exact Nat.le_of_not_lt h

theorem copyData_ok (offset : Nat) {bytes : Nat}
    (hroom : f.pkt.actualLength + bytes ≤ f.pkt.ioVec.length) :
    ∃ g, f.copyData offset bytes = .ok g ∧ g.pkt.status = f.pkt.status := by
  obtain ⟨q, ptr, hcopy⟩ : ∃ q ptr, usbPacketCopy f.pkt (fun i => f.dev.dataBuffer (offset + i)) bytes =
      some (q, ptr) := by
    rw [usbPacketCopy, if_pos hroom]
    dsimp only
    split
    · exact ⟨_, _, rfl⟩
    split
    · exact ⟨_, _, rfl⟩
    · exact ⟨_, _, rfl⟩
  rw [Frame.copyData, hcopy]
  exact ⟨_, rfl, usbPacketCopy_status hcopy⟩

theorem dataStage_ends (hzero : f.pkt.actualLength = 0) (h : Settled f.pkt.status) :
    Ends (dataStage f) := by
  have hroom : f.pkt.actualLength + f.stageLen ≤ f.pkt.ioVec.length := by
    rw [hzero, Nat.zero_add]
    exact stageLen_le_packet f
  obtain ⟨g, hcopy, hstatus⟩ := copyData_ok f.dev.setupIndex hroom
  rw [dataStage, hcopy]
  have hg : Settled g.pkt.status := hstatus ▸ h
  exact .ite (.ok hg) (.ok hg)

/-- The handler does not put off a packet that has not failed so far. -/
def Prompt (h : Handler) : Prop :=
  ∀ p request value index length data, p.status = USB_RET_SUCCESS →
    Settled (h p request value index length data).status

theorem doTokenIn_ends {h : Handler} (hprompt : Prompt h) (hzero : f.pkt.actualLength = 0)
    (hok : f.pkt.status = USB_RET_SUCCESS) : Ends (doTokenIn h f) := by
  have hstatus : Settled f.pkt.status := by
    rw [hok]
    decide
  have hhandled : Settled (f.handleControl h).pkt.status := hprompt _ _ _ _ _ _ hok
  rw [doTokenIn]
  split
  · exact .ite (.ite (.ok hhandled) (.ok hhandled)) (.ok hstatus)
  · exact .ite (dataStage_ends hzero hstatus) .stall
  · exact .stall

theorem doTokenOut_ends (hzero : f.pkt.actualLength = 0) (hok : f.pkt.status = USB_RET_SUCCESS) :
    Ends (doTokenOut f) := by
  have hstatus : Settled f.pkt.status := by
    rw [hok]
    decide
  rw [doTokenOut]
  split
  · exact .ite (.ok hstatus) (.ok hstatus)
  · exact .ite (dataStage_ends hzero hstatus) .stall
  · exact .stall

theorem setupStage_ends {h : Handler} (hprompt : Prompt h) (hok : f.pkt.status = USB_RET_SUCCESS) :
    Ends (setupStage h f) := by
  have hstatus : Settled f.pkt.status := by
    rw [hok]
    decide
  have hhandled : Settled (f.handleControl h).pkt.status := hprompt _ _ _ _ _ _ hok
  have hlimited : Settled (f.handleControl h).limitLength.pkt.status := by
    rw [Frame.limitLength]
    split
    · exact hhandled
    · exact hhandled
  rw [setupStage]
  dsimp only
  rw [if_neg hhandled.ne_async]
  exact .ite (.ite (.ok hhandled) (.ok hlimited)) (.ite .stall (.ite (.ok hstatus) (.ok hstatus)))

theorem process_eq (hparameter : op.parameter = 0) : process s op =
    if op.pid = USB_TOKEN_SETUP then usbDoTokenSetup op.handler (op.frame s)
    else if op.pid = USB_TOKEN_IN then doTokenIn op.handler (op.frame s)
    else if op.pid = USB_TOKEN_OUT then doTokenOut (op.frame s)
    else .ok (op.frame s).stall := if_neg (not_not.mpr hparameter)

/-- A packet without a parameter is processed to its end. -/
theorem process_ends (hparameter : op.parameter = 0) (hprompt : Prompt op.handler) :
    Ends (process s op) := by
  by_cases hsetup : op.isSetup
  · rw [process_setup hsetup]
    exact setupStage_ends hprompt rfl
  · rw [process_eq hparameter]
    by_cases hpid : op.pid = USB_TOKEN_SETUP
    · have hsize : (op.frame s).pkt.ioVec.length ≠ 8 := fun hsize => hsetup ⟨hparameter, hpid, hsize⟩
      rw [if_pos hpid, usbDoTokenSetup, if_pos hsize]
      exact .stall
    · rw [if_neg hpid]
      exact .ite (doTokenIn_ends hprompt rfl rfl) (.ite (doTokenOut_ends rfl rfl) .stall)

end Control

/-! ## The handlers of a class do not fail for what it takes -/

/-- The descriptors are those of the class. -/
def USBDeviceClass.Legal : USBDeviceClass → Prop
  | .gamepad g => g.dev.desc = descXboxGamepad
  | .hub h => h.dev.desc = descHub

section Class

variable {k : USBDeviceClass} {attached : Nat → Bool} {p : USBPacket} {c : Call} {data : Nat → Byte}

theorem handleControl_fails_iff (hk : k.Legal) :
    k.handleControl attached p c data = .error .assertion ↔ ¬ k.Knows c data := by
  cases k with
  | gamepad g =>
    have hiff : usbXidHandleControl g p c data ≠ none ↔ Known g c data := usbXidHandleControl_iff hk
    rw [USBDeviceClass.Knows, ← hiff, not_not, USBDeviceClass.handleControl]
    cases usbXidHandleControl g p c data with
    | none => exact iff_of_true rfl rfl
    | some r =>
      refine iff_of_false (fun h => ?_) (Option.some_ne_none r)
      dsimp only at h
      split at h
      · cases h
      · cases h
  | hub h =>
    obtain ⟨r, hr, -, -⟩ := usbHubHandleControl_kept hk attached p c data
    rw [USBDeviceClass.handleControl, hr]
    exact iff_of_false nofun (not_not.mpr trivial)

theorem handleControl_kept (hk : k.Legal) {r : Served}
    (h : k.handleControl attached p c data = .ok r) :
    r.klass.Legal ∧ (r.pkt.status = p.status ∨ r.pkt.status = USB_RET_STALL) := by
  cases k with
  | gamepad g =>
    rw [USBDeviceClass.handleControl] at h
    cases hserved : usbXidHandleControl g p c data with
    | none =>
      rw [hserved] at h
      cases h
    | some r' =>
      rw [hserved] at h
      dsimp only at h
      split at h
      · cases h
      · cases h
        exact usbXidHandleControl_kept hk hserved
  | hub hub =>
    obtain ⟨r', hr, hdesc, hstatus⟩ := usbHubHandleControl_kept hk attached p c data
    rw [USBDeviceClass.handleControl, hr] at h
    cases h
    exact ⟨hdesc, hstatus⟩

/-- The handler of a class never puts a packet off. -/
theorem handler_prompt (hk : k.Legal) : Prompt (k.handler attached) := by
  intro p request value index length data hok
  rw [USBDeviceClass.handler]
  split
  · next r hr =>
    obtain ⟨-, hstatus⟩ := handleControl_kept hk hr
    dsimp only
    obtain h | h := hstatus
    · rw [h, hok]
      decide
    · rw [h]
      decide
  · exact show Settled USB_RET_STALL by decide

theorem handleData_fails_iff {num : Nat} (hpid : p.pid = USB_TOKEN_IN ∨ p.pid = USB_TOKEN_OUT)
    (hok : p.status = USB_RET_SUCCESS) (hzero : p.actualLength = 0) :
    k.handleData p num = .error .assertion ↔ ¬ k.Carried p.pid num p.ioVec := by
  cases k with
  | gamepad g =>
    rw [USBDeviceClass.Carried, ← usbXidHandleData_iff hpid hzero, not_not, USBDeviceClass.handleData]
    cases usbXidHandleData g p num with
    | none => exact iff_of_true rfl rfl
    | some r =>
      refine iff_of_false (fun h => ?_) (Option.some_ne_none r)
      dsimp only at h
      split at h
      · cases h
      · cases h
  | hub h =>
    obtain ⟨q, hq, -⟩ := usbHubHandleData_status h hok hzero num
    rw [USBDeviceClass.handleData, hq]
    exact iff_of_false nofun (not_not.mpr trivial)

theorem handleData_kept {num : Nat} (hk : k.Legal) (hok : p.status = USB_RET_SUCCESS)
    (hzero : p.actualLength = 0) {r : USBDeviceClass × USBPacket} (h : k.handleData p num = .ok r) :
    r.1.Legal ∧ Settled r.2.status := by
  cases k with
  | gamepad g =>
    rw [USBDeviceClass.handleData] at h
    cases hserved : usbXidHandleData g p num with
    | none =>
      rw [hserved] at h
      cases h
    | some r' =>
      rw [hserved] at h
      dsimp only at h
      split at h
      · cases h
      · cases h
        obtain ⟨hdev, hstatus⟩ := usbXidHandleData_kept hserved hok
        exact ⟨(congrArg Device.desc hdev).trans hk, hstatus⟩
  | hub hub =>
    obtain ⟨q, hq, hstatus⟩ := usbHubHandleData_status hub hok hzero num
    rw [USBDeviceClass.handleData, hq] at h
    cases h
    exact ⟨hk, hstatus⟩

end Class

/-! ## A packet fails exactly when the device does not take it -/

/-- A packet that has been processed leaves a legal device, which has not put it off. -/
structure Done (d : XboxDevice) (r : Processed) : Prop where
  legal : r.dev.klass.Legal
  state : r.dev.state = d.state
  settled : Settled r.pkt.status

section Handle

variable {d : XboxDevice} {attached : Nat → Bool} {pid ep : Nat} {ioVec : List Byte} {r : Processed}

theorem serve_kept (hk : d.klass.Legal) {served : USBDeviceClass × Option Nat}
    (h : d.serve attached pid ioVec = .ok served) : served.1.Legal := by
  rw [XboxDevice.serve] at h
  split at h
  · cases h
    exact hk
  · next f _ =>
    cases hcall : d.klass.handleControl attached f.pkt (requested f) f.dev.dataBuffer with
    | error e =>
      rw [hcall] at h
      cases h
    | ok r =>
      rw [hcall] at h
      cases h
      exact (handleControl_kept hk hcall).1

theorem serve_fails_iff (hk : d.klass.Legal) :
    d.serve attached pid ioVec = .error .assertion ↔ ¬ d.Takes pid 0 ioVec := by
  have hframe (h : Handler) : controlFrame d.control ⟨pid, ioVec, 0, h⟩ =
      controlFrame d.control (d.op attached pid ioVec) := rfl
  rw [XboxDevice.serve, XboxDevice.Takes, if_pos rfl, hframe]
  cases controlFrame d.control (d.op attached pid ioVec) with
  | none => exact iff_of_false nofun (not_not.mpr nofun)
  | some f =>
    have hiff : (∀ g, some f = some g → d.klass.Knows (requested g) g.dev.dataBuffer) ↔
        d.klass.Knows (requested f) f.dev.dataBuffer := by
      constructor
      · exact fun h => h f rfl
      · intro h g hg
        cases hg
        exact h
    rw [hiff, ← handleControl_fails_iff hk]
    exact map_eq_error_iff

theorem processControl_fails_iff (hk : d.klass.Legal) :
    d.processControl attached pid ioVec = .error .assertion ↔ ¬ d.Takes pid 0 ioVec := by
  have hends : Ends (process d.control (d.op attached pid ioVec)) := process_ends rfl (handler_prompt hk)
  obtain ⟨f, hprocess, -⟩ := hends
  rw [← serve_fails_iff hk, XboxDevice.processControl, hprocess]
  cases d.serve attached pid ioVec with
  | error e => exact ⟨fun h => congrArg _ (Except.error.inj h), fun h => congrArg _ (Except.error.inj h)⟩
  | ok served =>
    dsimp only
    split
    · exact iff_of_false nofun nofun
    · exact iff_of_false nofun nofun

theorem processControl_done (hk : d.klass.Legal) (h : d.processControl attached pid ioVec = .ok r) :
    Done d r := by
  have hends : Ends (process d.control (d.op attached pid ioVec)) := process_ends rfl (handler_prompt hk)
  obtain ⟨f, hprocess, hstatus⟩ := hends
  rw [XboxDevice.processControl, hprocess] at h
  cases hserve : d.serve attached pid ioVec with
  | error e =>
    rw [hserve] at h
    cases h
  | ok served =>
    rw [hserve] at h
    dsimp only at h
    split at h
    · cases h
    · cases h
      exact ⟨serve_kept hk hserve, rfl, hstatus⟩

theorem processData_fails_iff (hpid : pid = USB_TOKEN_IN ∨ pid = USB_TOKEN_OUT) :
    d.processData pid ep ioVec = .error .assertion ↔ ¬ d.klass.Carried pid ep ioVec := by
  have hiff : d.klass.handleData ⟨pid, ioVec, 0, USB_RET_SUCCESS, 0⟩ ep = .error .assertion ↔ _ :=
    handleData_fails_iff hpid rfl rfl
  rw [← hiff, XboxDevice.processData]
  exact map_eq_error_iff

theorem processData_done (hk : d.klass.Legal) (h : d.processData pid ep ioVec = .ok r) : Done d r := by
  rw [XboxDevice.processData] at h
  cases hdata : d.klass.handleData ⟨pid, ioVec, 0, USB_RET_SUCCESS, 0⟩ ep with
  | error e =>
    rw [hdata] at h
    cases h
  | ok served =>
    rw [hdata] at h
    cases h
    obtain ⟨hlegal, hstatus⟩ := handleData_kept hk rfl rfl hdata
    exact ⟨hlegal, rfl, hstatus⟩

/-- The endpoint is one of the device, unless a SETUP packet is for another one than 0. -/
theorem usbGetEP_eq_none_iff (eps : Endpoints)
    (hpid : pid = USB_TOKEN_SETUP ∨ pid = USB_TOKEN_IN ∨ pid = USB_TOKEN_OUT)
    (hep : ep ≤ USB_MAX_ENDPOINTS) : usbGetEP eps pid ep = none ↔ ep ≠ 0 ∧ pid = USB_TOKEN_SETUP := by
  rw [usbGetEP]
  by_cases hzero : ep = 0
  · rw [if_pos hzero]
    exact iff_of_false (Option.some_ne_none _) fun h => h.1 hzero
  rw [if_neg hzero, and_iff_right hzero]
  obtain hsetup | hdata := hpid
  · have hno : ¬ (pid = USB_TOKEN_IN ∨ pid = USB_TOKEN_OUT) := by
      rw [hsetup]
      decide
    rw [if_neg fun h => hno h.1]
    exact iff_of_true rfl hsetup
  · have hno : pid ≠ USB_TOKEN_SETUP := by
      rintro rfl
      revert hdata
      decide
    rw [if_pos ⟨hdata, Nat.pos_of_ne_zero hzero, hep⟩]
    exact iff_of_false (Option.some_ne_none _) hno

theorem processOne_done (hk : d.klass.Legal) (h : d.processOne attached pid ep ioVec = .ok r) :
    Done d r := by
  rw [XboxDevice.processOne] at h
  split at h
  · exact processControl_done hk h
  · exact processData_done hk h

theorem processOne_fails_iff (hk : d.klass.Legal)
    (hpid : ep ≠ 0 → pid = USB_TOKEN_IN ∨ pid = USB_TOKEN_OUT) :
    d.processOne attached pid ep ioVec = .error .assertion ↔ ¬ d.Takes pid ep ioVec := by
  rw [XboxDevice.processOne]
  by_cases hzero : ep = 0
  · rw [if_pos hzero, hzero]
    exact processControl_fails_iff hk
  · have hsetup : pid ≠ USB_TOKEN_SETUP := by
      obtain rfl | rfl := hpid hzero
      · decide
      · decide
    rw [if_neg hzero, XboxDevice.Takes, if_neg hzero, and_iff_right hsetup]
    exact processData_fails_iff (hpid hzero)

theorem handlePacket_done (hk : d.klass.Legal) (h : d.handlePacket attached pid ep ioVec = .ok r) :
    Done d r := by
  rw [XboxDevice.handlePacket] at h
  split at h
  · cases h
  split at h
  · cases h
  split at h
  · cases h
  · next hr =>
    split at h
    · cases h
    · cases h
      exact processOne_done hk hr

/-- In a device that can be addressed, an assertion fails exactly for a packet that it does not take. -/
theorem handlePacket_fails_iff (hk : d.klass.Legal) (hstate : d.state = .default)
    (hpid : pid = USB_TOKEN_SETUP ∨ pid = USB_TOKEN_IN ∨ pid = USB_TOKEN_OUT)
    (hep : ep ≤ USB_MAX_ENDPOINTS) :
    d.handlePacket attached pid ep ioVec = .error .assertion ↔ ¬ d.Takes pid ep ioVec := by
  have hnone := usbGetEP_eq_none_iff d.klass.dev.endpoints hpid hep
  rw [XboxDevice.handlePacket]
  cases hget : usbGetEP d.klass.dev.endpoints pid ep with
  | none =>
    obtain ⟨hzero, hsetup⟩ := hnone.mp hget
    rw [XboxDevice.Takes, if_neg hzero]
    exact iff_of_true rfl fun h => h.1 hsetup
  | some endpoint =>
    have hdata (hzero : ep ≠ 0) : pid = USB_TOKEN_IN ∨ pid = USB_TOKEN_OUT := by
      refine hpid.resolve_left fun hsetup => ?_
      exact absurd (hnone.mpr ⟨hzero, hsetup⟩) (hget ▸ Option.some_ne_none _)
    rw [← processOne_fails_iff hk hdata]
    dsimp only
    rw [if_neg (not_not.mpr hstate)]
    cases hprocess : d.processOne attached pid ep ioVec with
    | error e => exact Iff.rfl
    | ok r =>
      dsimp only
      rw [if_neg fun h => (processOne_done hk hprocess).settled.ne_async h.1]

end Handle

end OpenXbox.Usb.Packet
