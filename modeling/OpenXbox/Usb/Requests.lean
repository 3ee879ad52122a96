import OpenXbox.Usb.Control
import OpenXbox.Usb.Descriptors

/-!
# Standard device requests

`USBDesc_HandleControl` and what it calls, for any device descriptor. A negative result
means that the request is not a standard one or cannot be met; the handler of the device
then looks at it.
-/

namespace OpenXbox.Usb.Requests

open OpenXbox.Lib OpenXbox.Lib.Buffer OpenXbox.Usb.Control
open OpenXbox.Usb.Descriptors (USBDescConfig USBDescIface USBDescEndpoint getWordLow getWordHigh
  readConfigurationDesc)

def DeviceRequest : Nat := 0x8000
def DeviceOutRequest : Nat := 0x0000
def InterfaceRequest : Nat := 0x8100
def InterfaceOutRequest : Nat := 0x0100
def ClassInterfaceRequest : Nat := 0xA100
def ClassInterfaceOutRequest : Nat := 0x2100
def VendorInterfaceRequest : Nat := 0xC100
def EndpointOutRequest : Nat := 0x0200
def ClassDeviceRequest : Nat := 0xA000

def USB_REQ_GET_STATUS : Nat := 0x00
def USB_REQ_CLEAR_FEATURE : Nat := 0x01
def USB_REQ_SET_FEATURE : Nat := 0x03
def USB_REQ_SET_ADDRESS : Nat := 0x05
def USB_REQ_GET_DESCRIPTOR : Nat := 0x06
def USB_REQ_GET_CONFIGURATION : Nat := 0x08
def USB_REQ_SET_CONFIGURATION : Nat := 0x09
def USB_REQ_GET_INTERFACE : Nat := 0x0A
def USB_REQ_SET_INTERFACE : Nat := 0x0B

def USB_DT_DEVICE : Nat := 0x01
def USB_DT_CONFIG : Nat := 0x02
def USB_DT_STRING : Nat := 0x03

def USB_DEVICE_REMOTE_WAKEUP : Nat := 1
def USB_MAX_INTERFACES : Nat := 16

def USB_ENDPOINT_XFER_CONTROL : Byte := 0
def USB_ENDPOINT_XFER_INVALID : Byte := 255
def USB_INTERFACE_INVALID : Byte := 255

structure USBDescDevice where
  bcdUSB : BitVec 16
  bDeviceClass : Byte
  bDeviceSubClass : Byte
  bDeviceProtocol : Byte
  bMaxPacketSize0 : Byte
  bNumConfigurations : Byte
  confs : Nat → USBDescConfig

structure USBDescID where
  idVendor : BitVec 16
  idProduct : BitVec 16
  bcdDevice : BitVec 16
  iManufacturer : Byte
  iProduct : Byte
  iSerialNumber : Byte

structure USBDesc where
  id : USBDescID
  full : USBDescDevice

/-- What `USBDesc_EpInit` sets of an endpoint. -/
structure USBEndpoint where
  type : Byte
  ifNum : Byte
  maxPacketSize : Nat

structure Endpoints where
  ctl : USBEndpoint
  epIn : Nat → USBEndpoint
  epOut : Nat → USBEndpoint

/-- The fields of `XboxDeviceState` that standard requests use. Strings are their bytes
before the terminating zero. -/
structure Device where
  desc : USBDesc
  strings : List (Nat × List Byte)
  addr : Byte
  remoteWakeup : Bool
  configuration : Nat
  numInterfaces : Nat
  config : Option USBDescConfig
  altSetting : Nat → Nat
  ifaces : Nat → Option USBDescIface
  endpoints : Endpoints

/-- The fields of a request. -/
structure Call where
  request : Nat
  value : Nat
  index : Nat
  length : Nat

/-! ## Configurations and interfaces -/

/-- `USB_EpReset`. -/
def usbEpReset : Endpoints :=
  let invalid : USBEndpoint := ⟨USB_ENDPOINT_XFER_INVALID, USB_INTERFACE_INVALID, 0⟩
  ⟨⟨USB_ENDPOINT_XFER_CONTROL, 0, 64⟩, fun _ => invalid, fun _ => invalid⟩

/-- The endpoint that `USB_GetEP` finds is replaced. -/
def Endpoints.set (eps : Endpoints) (pid ep : Nat) (e : USBEndpoint) : Endpoints :=
  if ep = 0 then { eps with ctl := e }
  else if pid = USB_TOKEN_IN then
    { eps with epIn := fun i => if i = ep - 1 then e else eps.epIn i }
  else { eps with epOut := fun i => if i = ep - 1 then e else eps.epOut i }

def Endpoints.init (eps : Endpoints) (iface : USBDescIface) (ep : USBDescEndpoint) : Endpoints :=
  let pid := if ep.bEndpointAddress &&& USB_DIR_IN ≠ 0 then USB_TOKEN_IN else USB_TOKEN_OUT
  eps.set pid (ep.bEndpointAddress &&& 0xF).toNat
    ⟨ep.bmAttributes &&& 0x03, iface.bInterfaceNumber, (ep.wMaxPacketSize &&& 0x7FF).toNat⟩

/-- `USBDesc_EpInit`. -/
def usbDescEpInit (dev : Device) : Device :=
  let endpoints := (List.range dev.numInterfaces).foldl
    (fun eps i =>
      match dev.ifaces i with
      | none => eps
      | some iface => (List.range iface.bNumEndpoints.toNat).foldl
          (fun eps e => eps.init iface (iface.eps e)) eps)
    usbEpReset
  { dev with endpoints := endpoints }

/-- `USBDesc_FindInterface`. -/
def usbDescFindInterface (dev : Device) (nif alt : Nat) : Option USBDescIface :=
  match dev.config with
  | none => none
  | some config => ((List.range config.nif.toNat).map config.ifs).find? fun iface =>
      iface.bInterfaceNumber.toNat == nif && iface.bAlternateSetting.toNat == alt

/-- `USBDesc_SetInterface`; no device has a callback for it. -/
def usbDescSetInterface (dev : Device) (index value : Nat) : Int × Device :=
  match usbDescFindInterface dev index value with
  | none => (-1, dev)
  | some iface => (0, usbDescEpInit { dev with
      altSetting := fun i => if i = index then value else dev.altSetting i
      ifaces := fun i => if i = index then some iface else dev.ifaces i })

/-- One turn of the search for a configuration; `none` when its assertion fails. -/
def selectConfig (value : Nat) (dev : Device) (i : Nat) : Option Device :=
  let conf := dev.desc.full.confs i
  if conf.bConfigurationValue.toNat = value then
    if conf.bNumInterfaces.toNat ≤ USB_MAX_INTERFACES then
      some { dev with
        configuration := value
        numInterfaces := conf.bNumInterfaces.toNat
        config := some conf }
    else none
  else some dev

/-- The interfaces of the selected configuration, and no others. -/
def setupInterfaces (dev : Device) : Device :=
  let dev := (List.range dev.numInterfaces).foldl (fun dev i => (usbDescSetInterface dev i 0).2) dev
  let rest (i : Nat) : Bool := dev.numInterfaces ≤ i && decide (i < USB_MAX_INTERFACES)
  { dev with
    altSetting := fun i => if rest i then 0 else dev.altSetting i
    ifaces := fun i => if rest i then none else dev.ifaces i }

/-- `USBDesc_SetConfig`. The search goes on after a match, so that `i` is the number of
configurations in any case. -/
def usbDescSetConfig (dev : Device) (value : Nat) : Option (Int × Device) :=
  if value = 0 then
    some (0, setupInterfaces { dev with configuration := 0, numInterfaces := 0, config := none })
  else
    let n := dev.desc.full.bNumConfigurations.toNat
    match (List.range n).foldlM (selectConfig value) dev with
    | none => none
    | some dev =>
      let i := n
      if i < n then some (-1, dev) else some (0, setupInterfaces dev)

/-! ## Descriptors -/

/-- `USB_ReadDeviceDesc` into a buffer of `len` bytes. -/
def usbReadDeviceDesc (desc : USBDesc) (dest : Nat → Byte) (len : Nat) : Int × (Nat → Byte) :=
  let id := desc.id
  let dev := desc.full
  if len < 0x12 then (-1, dest)
  else (0x12, put dest 0
    [0x12, 0x01, getWordLow dev.bcdUSB, getWordHigh dev.bcdUSB, dev.bDeviceClass,
      dev.bDeviceSubClass, dev.bDeviceProtocol, dev.bMaxPacketSize0, getWordLow id.idVendor,
      getWordHigh id.idVendor, getWordLow id.idProduct, getWordHigh id.idProduct,
      getWordLow id.bcdDevice, getWordHigh id.bcdDevice, id.iManufacturer, id.iProduct,
      id.iSerialNumber, dev.bNumConfigurations])

/-- `USBDesc_GetString`. -/
def usbDescGetString (dev : Device) (index : Nat) : Option (List Byte) :=
  (dev.strings.find? fun s => s.1 == index).map Prod.snd

/-- The loop of `USB_ReadStringDesc` over the characters that are left. -/
def writeString (bLength len : Nat) : List Byte → (Nat → Byte) → Nat → Nat × (Nat → Byte)
  | [], dest, pos => (pos, dest)
  | c :: rest, dest, pos =>
    if pos + 1 < bLength ∧ pos + 1 < len then writeString bLength len rest (put dest pos [c, 0]) (pos + 2)
    else (pos, dest)

def usbReadStringDesc (dev : Device) (index : Nat) (dest : Nat → Byte) (len : Nat) :
    Int × (Nat → Byte) :=
  if len < 4 then (-1, dest)
  else if index = 0 then (4, put dest 0 [4, 0x03, 0x09, 0x04])
  else
    match usbDescGetString dev index with
    | none => (0, dest)
    | some str =>
      let bLength := str.length * 2 + 2
      let r := writeString bLength len str (put dest 0 [BitVec.ofNat 8 bLength, 0x03]) 2
      ((r.1 : Int), r.2)

/-- The descriptor of a type, in the buffer on the stack; all bytes that are used of the
buffer have been written. -/
def readStandardDesc (dev : Device) (type index : Nat) : Int × (Nat → Byte) :=
  let buf : Nat → Byte := fun _ => 0
  if type = USB_DT_DEVICE then usbReadDeviceDesc dev.desc buf 256
  else if type = USB_DT_CONFIG then
    if index < dev.desc.full.bNumConfigurations.toNat then
      readConfigurationDesc (dev.desc.full.confs index) buf 256
    else (-1, buf)
  else if type = USB_DT_STRING then usbReadStringDesc dev index buf 256
  else (-1, buf)

/-! ## Requests -/

/-- What a request has come to. -/
structure Handled where
  ret : Int
  dev : Device
  pkt : USBPacket
  data : Nat → Byte

/-- `USBDesc_HandleStandardGetDescriptor`. -/
def handleStandardGetDescriptor (dev : Device) (p : USBPacket) (c : Call) (data : Nat → Byte) :
    Handled :=
  let r := readStandardDesc dev ((c.value >>> 8) % 256) (c.value % 256)
  if r.1 > 0 then
    let n := min r.1.toNat c.length
    ⟨0, dev, { p with actualLength := n }, put data 0 (slice r.2 0 n)⟩
  else ⟨r.1, dev, p, data⟩

/-- The first byte of the device status. -/
def statusByte (dev : Device) : Byte :=
  let config := dev.config.getD (dev.desc.full.confs 0)
  (if config.bmAttributes &&& 0x40 ≠ 0 then 1 else 0) ||| (if dev.remoteWakeup then 2 else 0)

/-- `USBDesc_HandleControl`; `none` when an assertion fails. -/
def usbDescHandleControl (dev : Device) (p : USBPacket) (c : Call) (data : Nat → Byte) :
    Option Handled :=
  let unmet : Handled := ⟨-1, dev, p, data⟩
  if c.request = DeviceOutRequest ||| USB_REQ_SET_ADDRESS then
    some ⟨0, { dev with addr := BitVec.ofNat 8 c.value }, p, data⟩
  else if c.request = DeviceRequest ||| USB_REQ_GET_DESCRIPTOR then
    some (handleStandardGetDescriptor dev p c data)
  else if c.request = DeviceRequest ||| USB_REQ_GET_CONFIGURATION then
    let value : Byte := match dev.config with
      | some config => config.bConfigurationValue
      | none => 0
    some ⟨0, dev, { p with actualLength := 1 }, put data 0 [value]⟩
  else if c.request = DeviceOutRequest ||| USB_REQ_SET_CONFIGURATION then
    (usbDescSetConfig dev c.value).map fun r => ⟨r.1, r.2, p, data⟩
  else if c.request = DeviceRequest ||| USB_REQ_GET_STATUS then
    some ⟨0, dev, { p with actualLength := 2 }, put data 0 [statusByte dev, 0x00]⟩
  else if c.request = DeviceOutRequest ||| USB_REQ_CLEAR_FEATURE then
    if c.value = USB_DEVICE_REMOTE_WAKEUP then some ⟨0, { dev with remoteWakeup := false }, p, data⟩
    else some unmet
  else if c.request = DeviceOutRequest ||| USB_REQ_SET_FEATURE then
    if c.value = USB_DEVICE_REMOTE_WAKEUP then some ⟨0, { dev with remoteWakeup := true }, p, data⟩
    else some unmet
  else if c.request = InterfaceRequest ||| USB_REQ_GET_INTERFACE then
    if c.index ≥ dev.numInterfaces then some unmet
    else some ⟨0, dev, { p with actualLength := 1 },
      put data 0 [BitVec.ofNat 8 (dev.altSetting c.index)]⟩
  else if c.request = InterfaceOutRequest ||| USB_REQ_SET_INTERFACE then
    let r := usbDescSetInterface dev c.index c.value
    some ⟨r.1, r.2, p, data⟩
  else some unmet

/-! ## What requests leave alone -/

/-- A status that says how a packet has ended, and not that it waits. -/
def Settled (status : Int) : Prop := USB_RET_ASYNC < status ∧ status ≤ USB_RET_SUCCESS

instance (status : Int) : Decidable (Settled status) := inferInstanceAs (Decidable (_ ∧ _))

theorem Settled.ne_async {status : Int} (h : Settled status) : status ≠ USB_RET_ASYNC :=
  (Int.ne_of_lt h.1).symm

/-- No configuration has more interfaces than the device can hold. -/
def USBDesc.Legal (desc : USBDesc) : Prop :=
  ∀ i, (desc.full.confs i).bNumInterfaces.toNat ≤ USB_MAX_INTERFACES

section Kept

variable {dev : Device}

theorem usbDescSetInterface_desc (index value : Nat) :
    (usbDescSetInterface dev index value).2.desc = dev.desc := by
  unfold usbDescSetInterface
  split <;> rfl

theorem setupInterfaces_desc : (setupInterfaces dev).desc = dev.desc := by
  have hfold (is : List Nat) (dev : Device) :
      (is.foldl (fun dev i => (usbDescSetInterface dev i 0).2) dev).desc = dev.desc := by
    induction is generalizing dev with
    | nil => rfl
    | cons i is ih => exact (ih _).trans (usbDescSetInterface_desc i 0)
  exact hfold _ dev

theorem selectConfig_legal (h : dev.desc.Legal) (value i : Nat) :
    ∃ dev', selectConfig value dev i = some dev' ∧ dev'.desc = dev.desc := by
  unfold selectConfig
  dsimp only
  split
  · rw [if_pos (h i)]
    exact ⟨_, rfl, rfl⟩
  · exact ⟨dev, rfl, rfl⟩

/-- The assertion on the number of interfaces holds. -/
theorem usbDescSetConfig_legal (h : dev.desc.Legal) (value : Nat) :
    ∃ r, usbDescSetConfig dev value = some r ∧ r.2.desc = dev.desc := by
  have hfold (is : List Nat) {dev : Device} (h : dev.desc.Legal) :
      ∃ dev', is.foldlM (selectConfig value) dev = some dev' ∧ dev'.desc = dev.desc := by
    induction is generalizing dev with
    | nil => exact ⟨dev, rfl, rfl⟩
    | cons i is ih =>
      obtain ⟨dev₁, hone, hdesc⟩ := selectConfig_legal h value i
      obtain ⟨dev₂, hrest, hdesc'⟩ := ih (hdesc ▸ h)
      refine ⟨dev₂, ?_, hdesc'.trans hdesc⟩
      rw [List.foldlM_cons, hone]
      exact hrest
  unfold usbDescSetConfig
  split
  · exact ⟨_, rfl, setupInterfaces_desc⟩
  · obtain ⟨dev', hsearch, hdesc⟩ := hfold (List.range dev.desc.full.bNumConfigurations.toNat) h
    dsimp only
    rw [hsearch]
    dsimp only
    rw [if_neg (Nat.lt_irrefl _)]
    exact ⟨_, rfl, setupInterfaces_desc.trans hdesc⟩

theorem handleStandardGetDescriptor_kept (p : USBPacket) (c : Call) (data : Nat → Byte) :
    (handleStandardGetDescriptor dev p c data).dev = dev ∧
      (handleStandardGetDescriptor dev p c data).pkt.status = p.status := by
  unfold handleStandardGetDescriptor
  dsimp only
  split <;> exact ⟨rfl, rfl⟩

/-- There is a result, which says nothing about the status and keeps the descriptors. -/
def Quiet (dev : Device) (p : USBPacket) (o : Option Handled) : Prop :=
  ∃ k, o = some k ∧ k.dev.desc = dev.desc ∧ k.pkt.status = p.status

section Quiet

variable {p : USBPacket} {x y : Option Handled} {k : Handled}

theorem Quiet.some (hdesc : k.dev.desc = dev.desc) (hstatus : k.pkt.status = p.status) :
    Quiet dev p (some k) := ⟨k, rfl, hdesc, hstatus⟩

theorem Quiet.ite {q : Prop} [Decidable q] (hx : Quiet dev p x) (hy : Quiet dev p y) :
    Quiet dev p (if q then x else y) := by
  split
  · exact hx
  · exact hy

/-- No request fails an assertion, if the descriptors are legal. -/
theorem usbDescHandleControl_quiet (h : dev.desc.Legal) (p : USBPacket) (c : Call)
    (data : Nat → Byte) : Quiet dev p (usbDescHandleControl dev p c data) := by
  obtain ⟨r, hset, hdesc⟩ := usbDescSetConfig_legal h c.value
  obtain ⟨hdev, hstatus⟩ : (handleStandardGetDescriptor dev p c data).dev = dev ∧ _ :=
    handleStandardGetDescriptor_kept p c data
  have hunmet : Quiet dev p (Option.some ⟨-1, dev, p, data⟩) := .some rfl rfl
  rw [usbDescHandleControl, hset, Option.map_some]
  refine .ite (.some rfl rfl) (.ite (.some (congrArg Device.desc hdev) hstatus) ?_)
  refine .ite (.some rfl rfl) (.ite (.some hdesc rfl) ?_)
  refine .ite (.some rfl rfl) (.ite (.ite (.some rfl rfl) hunmet) ?_)
  refine .ite (.ite (.some rfl rfl) hunmet) (.ite (.ite hunmet (.some rfl rfl)) ?_)
  exact .ite (.some (usbDescSetInterface_desc c.index c.value) rfl) hunmet

end Quiet

end Kept

end OpenXbox.Usb.Requests
