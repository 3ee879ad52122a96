import OpenXbox.Lib.Flags
import OpenXbox.Usb.Requests

/-!
# The hub

The control and data handlers of the hub over its ports. What is attached to a port is not part of
the hub: a request that resets a port names it, and the bus resets the device.
-/

namespace OpenXbox.Usb.Hub

open OpenXbox.Lib OpenXbox.Lib.Buffer OpenXbox.Lib.Flags OpenXbox.Usb.Control OpenXbox.Usb.Requests
open OpenXbox.Usb.Descriptors (USBDescConfig USBDescIface USBDescEndpoint)

def NUM_PORTS : Nat := 8

def PORT_STAT_CONNECTION : BitVec 16 := 0x0001
def PORT_STAT_ENABLE : BitVec 16 := 0x0002
def PORT_STAT_SUSPEND : BitVec 16 := 0x0004
def PORT_STAT_POWER : BitVec 16 := 0x0100
def PORT_STAT_LOW_SPEED : BitVec 16 := 0x0200

def PORT_STAT_C_CONNECTION : BitVec 16 := 0x0001
def PORT_STAT_C_ENABLE : BitVec 16 := 0x0002
def PORT_STAT_C_SUSPEND : BitVec 16 := 0x0004
def PORT_STAT_C_OVERCURRENT : BitVec 16 := 0x0008
def PORT_STAT_C_RESET : BitVec 16 := 0x0010

def ClearHubFeature : Nat := 0x2000 ||| USB_REQ_CLEAR_FEATURE
def ClearPortFeature : Nat := 0x2300 ||| USB_REQ_CLEAR_FEATURE
def GetHubDescriptor : Nat := 0xA000 ||| USB_REQ_GET_DESCRIPTOR
def GetHubStatus : Nat := 0xA000 ||| USB_REQ_GET_STATUS
def GetPortStatus : Nat := 0xA300 ||| USB_REQ_GET_STATUS
def SetHubFeature : Nat := 0x2000 ||| USB_REQ_SET_FEATURE
def SetPortFeature : Nat := 0x2300 ||| USB_REQ_SET_FEATURE

def PORT_ENABLE : Nat := 1
def PORT_SUSPEND : Nat := 2
def PORT_RESET : Nat := 4
def PORT_POWER : Nat := 8
def PORT_C_CONNECTION : Nat := 16
def PORT_C_ENABLE : Nat := 17
def PORT_C_SUSPEND : Nat := 18
def PORT_C_OVERCURRENT : Nat := 19
def PORT_C_RESET : Nat := 20

def USB_RET_NAK : Int := -2
def USB_RET_BABBLE : Int := -4

/-- `desc_hub`, with the descriptors that it points to. -/
def descHub : USBDesc :=
  let endp : USBDescEndpoint := ⟨0x81, 3, BitVec.ofNat 16 (1 + (NUM_PORTS + 7) / 8), 0xFF, 0, 0, 0, none⟩
  let iface : USBDescIface := ⟨0, 0, 1, 9, 0, 0, 0, 0, fun _ => ⟨0, fun _ => 0⟩, fun _ => endp⟩
  let config : USBDescConfig := ⟨1, 1, 0, 0xE0, 0, 1, fun _ => iface⟩
  ⟨⟨0x0409, 0x55AA, 0x0101, 1, 2, 3⟩, ⟨0x0110, 9, 0, 0, 8, 1, fun _ => config⟩⟩

/-- `HubDescriptor`. -/
def hubDescriptor : List Byte :=
  [0x0A, 0x29, BitVec.ofNat 8 NUM_PORTS, 0x0A, 0x00, 0x01, 0x00, 0x00, 0x00, 0xFF]

structure USBHubPort where
  wPortStatus : BitVec 16
  wPortChange : BitVec 16

structure USBHubState where
  dev : Device
  ports : Nat → USBHubPort

def USBHubState.setPort (h : USBHubState) (n : Nat) (port : USBHubPort) : USBHubState :=
  { h with ports := store h.ports n port }

/-- What a request leaves behind; the device at the port `reset` is reset. -/
structure Served where
  hub : USBHubState
  pkt : USBPacket
  data : Nat → Byte
  reset : Option Nat

def Served.stall (r : Served) : Served := { r with pkt := { r.pkt with status := USB_RET_STALL } }

/-- `bytes` are the reply. -/
def Served.reply (r : Served) (bytes : List Byte) : Served :=
  { r with pkt := { r.pkt with actualLength := bytes.length }, data := put r.data 0 bytes }

/-! ## Requests -/

/-- `SetPortFeature` for port `n`; `attached` tells where a device is. -/
def setPortFeature (r : Served) (attached : Nat → Bool) (value n : Nat) : Served :=
  let port := r.hub.ports n
  if value = PORT_SUSPEND then
    { r with hub := r.hub.setPort n { port with wPortStatus := port.wPortStatus ||| PORT_STAT_SUSPEND } }
  else if value = PORT_RESET then
    if attached n then
      { r with
        hub := r.hub.setPort n
          ⟨port.wPortStatus ||| PORT_STAT_ENABLE, port.wPortChange ||| PORT_STAT_C_RESET⟩
        reset := some n }
    else r
  else if value = PORT_POWER then r
  else r.stall

/-- `ClearPortFeature` for port `n`. -/
def clearPortFeature (r : Served) (value n : Nat) : Served :=
  let port := r.hub.ports n
  let clearStatus (bit : BitVec 16) : Served :=
    { r with hub := r.hub.setPort n { port with wPortStatus := port.wPortStatus &&& ~~~bit } }
  let clearChange (bit : BitVec 16) : Served :=
    { r with hub := r.hub.setPort n { port with wPortChange := port.wPortChange &&& ~~~bit } }
  if value = PORT_ENABLE then clearStatus PORT_STAT_ENABLE
  else if value = PORT_C_ENABLE then clearChange PORT_STAT_C_ENABLE
  else if value = PORT_SUSPEND then clearStatus PORT_STAT_SUSPEND
  else if value = PORT_C_SUSPEND then clearChange PORT_STAT_C_SUSPEND
  else if value = PORT_C_CONNECTION then clearChange PORT_STAT_C_CONNECTION
  else if value = PORT_C_OVERCURRENT then clearChange PORT_STAT_C_OVERCURRENT
  else if value = PORT_C_RESET then clearChange PORT_STAT_C_RESET
  else r.stall

/-- The two words of `GetPortStatus`. -/
def USBHubPort.bytes (port : USBHubPort) : List Byte :=
  [port.wPortStatus.setWidth 8, (port.wPortStatus >>> 8).setWidth 8,
    port.wPortChange.setWidth 8, (port.wPortChange >>> 8).setWidth 8]

/-- The requests that the hub handles itself. -/
def handleRequest (r : Served) (attached : Nat → Bool) (c : Call) : Served :=
  let n := sub32 c.index 1
  if c.request = EndpointOutRequest ||| USB_REQ_CLEAR_FEATURE then
    if c.value = 0 ∧ c.index ≠ 0x81 then r.stall else r
  else if c.request = GetHubStatus then r.reply [0, 0, 0, 0]
  else if c.request = GetPortStatus then
    if n ≥ NUM_PORTS then r.stall else r.reply (r.hub.ports n).bytes
  else if c.request = SetHubFeature ∨ c.request = ClearHubFeature then
    if c.value ≠ 0 ∧ c.value ≠ 1 then r.stall else r
  else if c.request = SetPortFeature then
    if n ≥ NUM_PORTS then r.stall else setPortFeature r attached c.value n
  else if c.request = ClearPortFeature then
    if n ≥ NUM_PORTS then r.stall else clearPortFeature r c.value n
  else if c.request = GetHubDescriptor then r.reply hubDescriptor
  else r.stall

/-- `UsbHub_HandleControl`. -/
def usbHubHandleControl (h : USBHubState) (attached : Nat → Bool) (p : USBPacket) (c : Call)
    (data : Nat → Byte) : Option Served :=
  (usbDescHandleControl h.dev p c data).map fun d =>
    let r : Served := ⟨{ h with dev := d.dev }, d.pkt, d.data, none⟩
    if d.ret ≥ 0 then r else handleRequest r attached c

/-! ## The interrupt endpoint -/

/-- A bit for each port that has changed, from bit 1 on. -/
def USBHubState.changes (h : USBHubState) : Nat :=
  (List.range NUM_PORTS).foldl
    (fun status i => if (h.ports i).wPortChange ≠ 0 then status ||| 1 <<< (i + 1) else status) 0

/-- `UsbHub_HandleData` for a packet to endpoint `num`. -/
def usbHubHandleData (h : USBHubState) (p : USBPacket) (num : Nat) : Option USBPacket :=
  if p.pid = USB_TOKEN_IN ∧ num = 1 then
    if h.changes ≠ 0 then
      let n := (NUM_PORTS + 1 + 7) / 8
      if p.ioVec.length ≠ 1 ∧ n > p.ioVec.length then some { p with status := USB_RET_BABBLE }
      else
        let n := if p.ioVec.length = 1 then 1 else n
        (usbPacketCopy p (fun i => BitVec.ofNat 8 (h.changes >>> (8 * i))) n).map Prod.fst
    else some { p with status := USB_RET_NAK }
  else some { p with status := USB_RET_STALL }

/-! ## Ports -/

/-- `UsbHub_HandleReset`; what is attached to a hub is a full speed device. -/
def usbHubHandleReset (h : USBHubState) (attached : Nat → Bool) : USBHubState :=
  { h with ports := fun n =>
      if attached n then ⟨PORT_STAT_POWER ||| PORT_STAT_CONNECTION, PORT_STAT_C_CONNECTION⟩
      else ⟨PORT_STAT_POWER, 0⟩ }

/-- `UsbHub_Attach`. -/
def usbHubAttach (h : USBHubState) (n : Nat) : USBHubState :=
  let port := h.ports n
  h.setPort n
    ⟨(port.wPortStatus ||| PORT_STAT_CONNECTION) &&& ~~~PORT_STAT_LOW_SPEED,
      port.wPortChange ||| PORT_STAT_C_CONNECTION⟩

/-- The hub as `UsbHub_Initfn` leaves it. -/
def usbHubInitfn (strings : List (Nat × List Byte)) : USBHubState :=
  let zero : Device :=
    { desc := descHub, strings := strings, addr := 0, remoteWakeup := false
      configuration := 0, numInterfaces := 0, config := none, altSetting := fun _ => 0
      ifaces := fun _ => none, endpoints := usbEpReset }
  usbHubHandleReset ⟨setupInterfaces zero, fun _ => ⟨0, 0⟩⟩ fun _ => false

/-! ## What requests leave alone -/

/-- The device is as it was, and so is the status of the packet, unless it is a stall. -/
structure Kept (r r' : Served) : Prop where
  dev : r'.hub.dev = r.hub.dev
  status : r'.pkt.status = r.pkt.status ∨ r'.pkt.status = USB_RET_STALL

section Kept

variable (r : Served) (c : Call)

theorem Kept.refl : Kept r r := ⟨rfl, .inl rfl⟩

theorem kept_stall : Kept r r.stall := ⟨rfl, .inr rfl⟩

theorem kept_reply (bytes : List Byte) : Kept r (r.reply bytes) := ⟨rfl, .inl rfl⟩

theorem setPortFeature_kept (attached : Nat → Bool) (value n : Nat) :
    Kept r (setPortFeature r attached value n) := by
  unfold setPortFeature
  dsimp only
  split
  · exact ⟨rfl, .inl rfl⟩
  split
  · split
    · exact ⟨rfl, .inl rfl⟩
    · exact .refl r
  split
  · exact .refl r
  · exact kept_stall r

theorem clearPortFeature_kept (value n : Nat) : Kept r (clearPortFeature r value n) := by
  unfold clearPortFeature
  dsimp only
  repeat' split
  all_goals first | exact ⟨rfl, .inl rfl⟩ | exact kept_stall r

theorem handleRequest_kept (attached : Nat → Bool) : Kept r (handleRequest r attached c) := by
  unfold handleRequest
  dsimp only
  repeat' split
  all_goals first
    | exact .refl r
    | exact kept_stall r
    | exact kept_reply r _
    | exact setPortFeature_kept r attached _ _
    | exact clearPortFeature_kept r _ _

end Kept

theorem descHub_legal : descHub.Legal := fun _ => show 1 ≤ 16 by decide

/-- The hub takes every request: no assertion fails. -/
theorem usbHubHandleControl_kept {h : USBHubState} (hdesc : h.dev.desc = descHub)
    (attached : Nat → Bool) (p : USBPacket) (c : Call) (data : Nat → Byte) :
    ∃ r, usbHubHandleControl h attached p c data = some r ∧ r.hub.dev.desc = descHub ∧
      (r.pkt.status = p.status ∨ r.pkt.status = USB_RET_STALL) := by
  obtain ⟨k, hk, hkdesc, hstatus⟩ := usbDescHandleControl_quiet (hdesc ▸ descHub_legal) p c data
  rw [usbHubHandleControl, hk]
  refine ⟨_, rfl, ?_⟩
  dsimp only
  split
  · exact ⟨hkdesc.trans hdesc, .inl hstatus⟩
  · have hkept := handleRequest_kept ⟨{ h with dev := k.dev }, k.pkt, k.data, none⟩ c attached
    rw [hkept.dev]
    exact ⟨hkdesc.trans hdesc, hkept.status.imp_left fun heq => heq.trans hstatus⟩

/-- So it does every packet to its endpoints: what it copies fits the packet. -/
theorem usbHubHandleData_status (h : USBHubState) {p : USBPacket} (hp : p.status = USB_RET_SUCCESS)
    (hzero : p.actualLength = 0) (num : Nat) :
    ∃ q, usbHubHandleData h p num = some q ∧ Settled q.status := by
  have hset (status : Int) (hs : Settled status) :
      ∃ q, some { p with status := status } = some q ∧ Settled q.status := ⟨_, rfl, hs⟩
  unfold usbHubHandleData
  split
  · next hin =>
    split
    · dsimp only
      split
      · exact hset USB_RET_BABBLE (by decide)
      · next hroom =>
        have hfits : (if p.ioVec.length = 1 then 1 else (NUM_PORTS + 1 + 7) / 8) ≤ p.ioVec.length := by
          split
          · next hone => exact hone.ge
          · next hone => exact Nat.le_of_not_lt fun hlt => hroom ⟨hone, hlt⟩
        generalize (if p.ioVec.length = 1 then 1 else (NUM_PORTS + 1 + 7) / 8) = n at hfits
        have hnotOut : ¬ (p.pid = USB_TOKEN_SETUP ∨ p.pid = USB_TOKEN_OUT) := by
          rw [hin.1]
          decide
        rw [usbPacketCopy, hzero, Nat.zero_add, if_pos hfits]
        dsimp only
        rw [if_neg hnotOut, if_pos hin.1]
        refine ⟨_, rfl, ?_⟩
        dsimp only
        rw [hp]
        decide
    · exact hset USB_RET_NAK (by decide)
  · exact hset USB_RET_STALL (by decide)

end OpenXbox.Usb.Hub
