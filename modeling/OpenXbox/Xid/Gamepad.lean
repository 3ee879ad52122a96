import OpenXbox.Usb.Requests

/-!
# The gamepad

The control and data handlers of the gamepad over its state. `none` stands for a failed
assertion. The report that the guest sends is stored with its length, which decides what is
accepted next; the structure behind it in memory is the one for its capabilities.
-/

namespace OpenXbox.Xid.Gamepad

open OpenXbox.Lib.Buffer OpenXbox.Usb.Control OpenXbox.Usb.Requests
open OpenXbox.Usb.Descriptors (USBDescConfig USBDescIface USBDescEndpoint)

def HID_GET_REPORT : Nat := 0x01
def HID_SET_REPORT : Nat := 0x09
def XID_GET_CAPABILITIES : Nat := 0x01

def USB_RET_NAK : Int := -2

/-- `sizeof(XIDGamepadOutputReport)`. -/
def outputReportSize : Nat := 6

/-- `desc_endp_xbox_gamepad`. -/
def descEndpXboxGamepad (i : Nat) : USBDescEndpoint :=
  ⟨if i = 0 then 0x82 else 0x02, 3, 0x20, 4, 0, 0, 0, none⟩

/-- `desc_xbox_gamepad`, with the descriptors that it points to. -/
def descXboxGamepad : USBDesc :=
  let iface : USBDescIface := ⟨0, 0, 2, 0x58, 0x42, 0x00, 0, 0, fun _ => ⟨0, fun _ => 0⟩,
    descEndpXboxGamepad⟩
  let config : USBDescConfig := ⟨1, 1, 0, 0x80, 50, 1, fun _ => iface⟩
  ⟨⟨0x045E, 0x0202, 0x0100, 1, 2, 3⟩, ⟨0x0110, 0, 0, 0, 0x40, 1, fun _ => config⟩⟩

/-- `desc_xid_xbox_gamepad`. -/
def descXidXboxGamepad : List Byte :=
  [0x10, 0x42, 0x00, 0x01, 1, 1, 20, 6, 0xFF, 0xFF, 0xFF, 0xFF, 0xFF, 0xFF, 0xFF, 0xFF]

/-- The gamepad; `out` is memory from `out_state` on. -/
structure XidGamepad where
  dev : Device
  inState : List Byte
  inStateCapabilities : List Byte
  out : Nat → Byte

/-- `out_state.length`. -/
def XidGamepad.outLength (g : XidGamepad) : Nat := (g.out 1).toNat

/-- `out_state_capabilities.length`. -/
def XidGamepad.outCapabilitiesLength (g : XidGamepad) : Nat := (g.out (outputReportSize + 1)).toNat

/-- What a handler leaves behind. -/
structure Served where
  gamepad : XidGamepad
  pkt : USBPacket
  data : Nat → Byte

def Served.stall (r : Served) : Served := { r with pkt := { r.pkt with status := USB_RET_STALL } }

/-- The first `n` bytes of `bytes` are the reply. -/
def Served.reply (r : Served) (bytes : List Byte) (actualLength : Nat) : Served :=
  { r with pkt := { r.pkt with actualLength := actualLength }, data := put r.data 0 bytes }

/-- The output report is stored and then checked. -/
def setReport (r : Served) (c : Call) : Option Served :=
  if c.value = 0x0200 then
    if c.length = r.gamepad.outLength then
      let out := put r.gamepad.out 0 (slice r.data 0 outputReportSize)
      if (out 1).toNat = outputReportSize then
        some { r with
          gamepad := { r.gamepad with out := out }
          pkt := { r.pkt with actualLength := c.length } }
      else none
    else some r.stall
  else none

/-- The requests that the gamepad handles itself. -/
def handleRequest (r : Served) (c : Call) : Option Served :=
  if c.request = ClassInterfaceRequest ||| HID_GET_REPORT then
    if c.value = 0x0100 then
      if c.length ≤ r.gamepad.inState.length then some (r.reply r.gamepad.inState c.length)
      else some r.stall
    else some r.stall
  else if c.request = ClassInterfaceOutRequest ||| HID_SET_REPORT then setReport r c
  else if c.request = VendorInterfaceRequest ||| USB_REQ_GET_DESCRIPTOR then
    if c.value = 0x4200 then
      if descXidXboxGamepad.length ≤ c.length then
        some (r.reply descXidXboxGamepad descXidXboxGamepad.length)
      else none
    else none
  else if c.request = VendorInterfaceRequest ||| XID_GET_CAPABILITIES then
    if c.value = 0x0100 then
      let length := min c.length r.gamepad.inStateCapabilities.length
      some (r.reply (r.gamepad.inStateCapabilities.take length) length)
    else if c.value = 0x0200 then
      let length := min c.length r.gamepad.outCapabilitiesLength
      some (r.reply (slice r.gamepad.out outputReportSize length) length)
    else none
  else if c.request = ClassDeviceRequest ||| USB_REQ_GET_DESCRIPTOR then
    some { r with data := put r.data 0 (List.replicate c.length 0) }.stall
  else if c.request = EndpointOutRequest ||| USB_REQ_CLEAR_FEATURE then
    some { r with data := put r.data 0 (List.replicate c.length 0) }.stall
  else none

/-- `UsbXid_HandleControl`. -/
def usbXidHandleControl (g : XidGamepad) (p : USBPacket) (c : Call) (data : Nat → Byte) :
    Option Served :=
  (usbDescHandleControl g.dev p c data).bind fun h =>
    let r : Served := ⟨{ g with dev := h.dev }, h.pkt, h.data⟩
    if h.ret ≥ 0 then some r else handleRequest r c

/-- `UsbXid_HandleData` for a packet to endpoint `num`. -/
def usbXidHandleData (g : XidGamepad) (p : USBPacket) (num : Nat) : Option (XidGamepad × USBPacket) :=
  if p.pid = USB_TOKEN_IN then
    if num = 2 then some (g, { p with status := USB_RET_NAK }) else none
  else if p.pid = USB_TOKEN_OUT then
    if num = 2 then
      (usbPacketCopy p g.out g.outLength).map fun r => ({ g with out := r.2 }, r.1)
    else none
  else none

/-- `UsbXid_HandleReset`: the device's own part of a reset only logs it. -/
def usbXidHandleReset (g : XidGamepad) : XidGamepad := g

/-- The gamepad as `UsbXid_Initfn` leaves it. -/
def usbXidInitfn (strings : List (Nat × List Byte)) : XidGamepad :=
  let zero : Device :=
    { desc := descXboxGamepad, strings := strings, addr := 0, remoteWakeup := false
      configuration := 0, numInterfaces := 0, config := none, altSetting := fun _ => 0
      ifaces := fun _ => none, endpoints := usbEpReset }
  { dev := setupInterfaces zero
    inState := [0, 20] ++ List.replicate 18 0
    inStateCapabilities := [0, 20] ++ List.replicate 18 0xFF
    out := put (fun _ => 0) 0 [0, 6, 0, 0, 0, 0, 0, 6, 0xFF, 0xFF, 0xFF, 0xFF] }

end OpenXbox.Xid.Gamepad
