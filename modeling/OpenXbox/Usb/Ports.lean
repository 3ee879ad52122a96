import OpenXbox.Usb.Packet
import Mathlib.Data.Fin.Basic
import Mathlib.Logic.Function.Basic

/-!
# The devices at the ports

A device is at one of the four ports of the controller, or at a port of the hub there. A packet goes
to the device that the controller finds for its address.
-/

namespace OpenXbox.Usb.Ports

open OpenXbox.Usb.Control OpenXbox.Usb.Requests OpenXbox.Usb.Packet
open OpenXbox.Usb.Hub (NUM_PORTS PORT_STAT_ENABLE USBHubState usbHubHandleReset usbHubAttach
  usbHubInitfn)
open OpenXbox.Xid.Gamepad (usbXidInitfn usbXidHandleReset)

def USB_RET_NODEV : Int := -1

structure Place where
  port : Fin 4
  /-- The port of the hub. -/
  below : Option (Fin NUM_PORTS)
deriving DecidableEq

structure Bus where
  /-- `OHCI_PORT_PES` of the ports of the controller. -/
  enabled : Fin 4 → Bool
  dev : Place → Option XboxDevice

/-! ## A device -/

/-- As it is when its class has initialised it. -/
def newDevice (klass : USBDeviceClass) : XboxDevice :=
  ⟨.attached, ControlBound.initial (fun _ => 0) fun _ => 0, klass⟩

/-- `klass->handle_attach`: the gamepad goes back to its first configuration. -/
def handleAttach : USBDeviceClass → USBDeviceClass
  | .gamepad g => .gamepad { g with
      dev := setupInterfaces { g.dev with configuration := 0, numInterfaces := 0, config := none } }
  | .hub h => .hub h

/-- `USB_Attach`, as far as the device goes. -/
def attachDevice (d : XboxDevice) : XboxDevice :=
  { d with state := .attached, klass := handleAttach d.klass }

/-- `USB_DeviceReset`. -/
def resetDevice (d : XboxDevice) (attached : Nat → Bool) : XboxDevice :=
  let klass : USBDeviceClass := match d.klass with
    | .gamepad g => .gamepad (usbXidHandleReset { g with
        dev := { g.dev with remoteWakeup := false, addr := 0 } })
    | .hub h => .hub (usbHubHandleReset { h with
        dev := { h.dev with remoteWakeup := false, addr := 0 } } attached)
  { d with state := .default, klass := klass }

namespace Bus

def set (b : Bus) (place : Place) (d : XboxDevice) : Bus :=
  { b with dev := Function.update b.dev place (some d) }

/-- The ports of the hub at the place at which there are devices. -/
def attached (b : Bus) (place : Place) (n : Nat) : Bool :=
  match place.below with
  | none => if h : n < NUM_PORTS then (b.dev ⟨place.port, some ⟨n, h⟩⟩).isSome else false
  | some _ => false

/-! ## The device for an address -/

/-- `USB_FindDevice` for a port of a hub. There is no hub. -/
def findBelow (b : Bus) (addr : Byte) (place : Place) : Option (Place × XboxDevice) :=
  (b.dev place).bind fun d =>
    if d.state = .default ∧ d.klass.dev.addr = addr then some (place, d) else none

/-- `UsbHub_FindDevice`. -/
def findDownstream (b : Bus) (addr : Byte) (port : Fin 4) (h : USBHubState) :
    Option (Place × XboxDevice) :=
  (List.finRange NUM_PORTS).findSome? fun n : Fin NUM_PORTS =>
    if (h.ports n).wPortStatus &&& PORT_STAT_ENABLE ≠ 0 then b.findBelow addr ⟨port, some n⟩ else none

/-- `USB_FindDevice` for a port of the controller. -/
def findAt (b : Bus) (addr : Byte) (port : Fin 4) : Option (Place × XboxDevice) :=
  (b.dev ⟨port, none⟩).bind fun d =>
    if d.state ≠ .default then none
    else if d.klass.dev.addr = addr then some (⟨port, none⟩, d)
    else
      match d.klass with
      | .hub h => b.findDownstream addr port h
      | .gamepad _ => none

/-- `OHCI_FindDevice`. -/
def find (b : Bus) (addr : Byte) : Option (Place × XboxDevice) :=
  (List.finRange 4).findSome? fun port => if b.enabled port then b.findAt addr port else none

/-! ## Resets -/

def deviceReset (b : Bus) (place : Place) : Bus :=
  match b.dev place with
  | none => b
  | some d => b.set place (resetDevice d (b.attached place))

/-- `USB_PortReset` for a port of the controller. -/
def portReset (b : Bus) (port : Fin 4) : Bus :=
  match b.dev ⟨port, none⟩ with
  | none => b
  | some d => (b.set ⟨port, none⟩ (attachDevice d)).deviceReset ⟨port, none⟩

/-- The device that a request of the hub has named is reset. -/
def resetBelow (b : Bus) (port : Fin 4) (n : Option Nat) : Bus :=
  match n with
  | none => b
  | some n => if h : n < NUM_PORTS then b.deviceReset ⟨port, some ⟨n, h⟩⟩ else b

/-! ## Devices come and go -/

/-- A hub is attached to a free port of the controller. -/
def attachHub (b : Bus) (port : Fin 4) (strings : List (Nat × List Byte)) : Bus :=
  match b.dev ⟨port, none⟩ with
  | none => b.set ⟨port, none⟩ (newDevice (.hub (usbHubInitfn strings)))
  | some _ => b

/-- The hub at the port of the controller is told of a device at its own port. -/
def tellHub (b : Bus) (place : Place) : Bus :=
  match place.below, b.dev ⟨place.port, none⟩ with
  | some n, some ⟨state, control, .hub h⟩ =>
    b.set ⟨place.port, none⟩ ⟨state, control, .hub (usbHubAttach h n)⟩
  | _, _ => b

/-- The ports below a port of the controller are those of the hub there. -/
def hasPort (b : Bus) (place : Place) : Bool :=
  match place.below, b.dev ⟨place.port, none⟩ with
  | none, _ => true
  | some _, some ⟨_, _, .hub _⟩ => true
  | some _, _ => false

/-- A gamepad is attached to a free port. -/
def attachGamepad (b : Bus) (place : Place) (strings : List (Nat × List Byte)) : Bus :=
  if b.hasPort place && (b.dev place).isNone then
    (b.set place (newDevice (.gamepad (usbXidInitfn strings)))).tellHub place
  else b

/-- The device at the place is destroyed, and what is behind it. -/
def detach (b : Bus) (place : Place) : Bus :=
  { b with dev := fun p =>
      if p.port = place.port ∧ (place.below = none ∨ p.below = place.below) then none else b.dev p }

/-! ## Packets -/

/-- The packet for the device at an address, from `USB_GetEP` on; nobody takes it when there is none. -/
def handle (b : Bus) (addr : Byte) (pid ep : Nat) (ioVec : List Byte) :
    Except Failure (Bus × USBPacket) :=
  match b.find addr with
  | none => .ok (b, ⟨pid, ioVec, 0, USB_RET_NODEV, 0⟩)
  | some (place, d) =>
    (d.handlePacket (b.attached place) pid ep ioVec).map fun r =>
      ((b.set place r.dev).resetBelow place.port r.reset, r.pkt)

/-- The device that is found takes the packet. -/
def Takes (b : Bus) (addr : Byte) (pid ep : Nat) (ioVec : List Byte) : Prop :=
  ∀ place d, b.find addr = some (place, d) → d.Takes pid ep ioVec

end Bus

/-! ## The devices are those of the two classes -/

/-- Every device has the descriptors of its class. -/
def Bus.Legal (b : Bus) : Prop := ∀ place d, b.dev place = some d → d.klass.Legal

section Legal

variable {b : Bus} {place : Place} {d : XboxDevice} {klass : USBDeviceClass}

theorem setupInterfaces_legal {g : OpenXbox.Xid.Gamepad.XidGamepad}
    (h : (USBDeviceClass.gamepad g).Legal) (dev : Device) (hdev : dev.desc = g.dev.desc) :
    (USBDeviceClass.gamepad { g with dev := setupInterfaces dev }).Legal :=
  setupInterfaces_desc.trans (hdev.trans h)

theorem handleAttach_legal (h : klass.Legal) : (handleAttach klass).Legal := by
  cases klass with
  | gamepad g => exact setupInterfaces_legal h _ rfl
  | hub hub => exact h

theorem resetDevice_legal (h : d.klass.Legal) (attached : Nat → Bool) :
    (resetDevice d attached).klass.Legal := by
  obtain ⟨state, control, klass⟩ := d
  cases klass with
  | gamepad g => exact h
  | hub hub => exact h

theorem legal_set (h : b.Legal) (hd : d.klass.Legal) : (b.set place d).Legal := by
  intro p d' hp
  have hp : Function.update b.dev place (some d) p = some d' := hp
  by_cases hplace : p = place
  · rw [hplace, Function.update_self] at hp
    cases hp
    exact hd
  · rw [Function.update_of_ne hplace] at hp
    exact h p d' hp

theorem legal_deviceReset (h : b.Legal) : (b.deviceReset place).Legal := by
  rw [Bus.deviceReset]
  split
  · exact h
  · next d hd => exact legal_set h (resetDevice_legal (h place d hd) _)

theorem legal_portReset (h : b.Legal) (port : Fin 4) : (b.portReset port).Legal := by
  rw [Bus.portReset]
  split
  · exact h
  · next d hd => exact legal_deviceReset (legal_set h (handleAttach_legal (h _ d hd)))

theorem legal_resetBelow (h : b.Legal) (port : Fin 4) (n : Option Nat) :
    (b.resetBelow port n).Legal := by
  unfold Bus.resetBelow
  split
  · exact h
  split
  · exact legal_deviceReset h
  · exact h

theorem legal_attachHub (h : b.Legal) (port : Fin 4) (strings : List (Nat × List Byte)) :
    (b.attachHub port strings).Legal := by
  rw [Bus.attachHub]
  split
  · exact legal_set h setupInterfaces_desc
  · exact h

theorem legal_tellHub (h : b.Legal) : (b.tellHub place).Legal := by
  rw [Bus.tellHub]
  split
  · next hub _ hd =>
    have hk : (USBDeviceClass.hub hub).Legal := h _ _ hd
    exact legal_set h hk
  · exact h

theorem legal_attachGamepad (h : b.Legal) (strings : List (Nat × List Byte)) :
    (b.attachGamepad place strings).Legal := by
  rw [Bus.attachGamepad]
  split
  · exact legal_tellHub (legal_set h setupInterfaces_desc)
  · exact h

theorem legal_detach (h : b.Legal) : (b.detach place).Legal := by
  intro p d hp
  rw [Bus.detach] at hp
  dsimp only at hp
  split at hp
  · cases hp
  · exact h p d hp

end Legal

/-! ## A packet on the bus -/

section Handle

variable {b : Bus} {addr : Byte} {place : Place} {d : XboxDevice}

/-- The device that is found is at its place, and can be addressed. -/
theorem find_spec (h : b.find addr = some (place, d)) : b.dev place = some d ∧ d.state = .default := by
  obtain ⟨port, -, hport⟩ := List.exists_of_findSome?_eq_some h
  split at hport
  · obtain ⟨root, hroot, hfound⟩ := Option.bind_eq_some_iff.mp hport
    split at hfound
    · cases hfound
    · next hstate =>
      split at hfound
      · cases hfound
        exact ⟨hroot, not_not.mp hstate⟩
      split at hfound
      · obtain ⟨n, -, hbelow⟩ := List.exists_of_findSome?_eq_some hfound
        split at hbelow
        · obtain ⟨child, hchild, heq⟩ := Option.bind_eq_some_iff.mp hbelow
          split at heq
          · next haddr =>
            cases heq
            exact ⟨hchild, haddr.1⟩
          · cases heq
        · cases hbelow
      · cases hfound
  · cases hport

variable {pid ep : Nat} {ioVec : List Byte}

theorem handle_fails_iff (hb : b.Legal)
    (hpid : pid = USB_TOKEN_SETUP ∨ pid = USB_TOKEN_IN ∨ pid = USB_TOKEN_OUT)
    (hep : ep ≤ USB_MAX_ENDPOINTS) :
    b.handle addr pid ep ioVec = .error .assertion ↔ ¬ b.Takes addr pid ep ioVec := by
  rw [Bus.handle]
  cases hfind : b.find addr with
  | none =>
    refine iff_of_false nofun (not_not.mpr fun place d h => ?_)
    rw [hfind] at h
    cases h
  | some found =>
    obtain ⟨place, d⟩ := found
    obtain ⟨hdev, hstate⟩ := find_spec hfind
    have htakes : b.Takes addr pid ep ioVec ↔ d.Takes pid ep ioVec := by
      constructor
      · exact fun h => h place d hfind
      · intro h place' d' hfind'
        rw [hfind] at hfind'
        cases hfind'
        exact h
    have hfails : d.handlePacket (b.attached place) pid ep ioVec = .error .assertion ↔ _ :=
      handlePacket_fails_iff (hb place d hdev) hstate hpid hep
    rw [htakes, ← hfails]
    exact map_eq_error_iff

theorem handle_kept (hb : b.Legal) {b' : Bus} {pkt : USBPacket}
    (h : b.handle addr pid ep ioVec = .ok (b', pkt)) : b'.Legal ∧ Settled pkt.status := by
  rw [Bus.handle] at h
  cases hfind : b.find addr with
  | none =>
    rw [hfind] at h
    cases h
    exact ⟨hb, show Settled USB_RET_NODEV by decide⟩
  | some found =>
    obtain ⟨place, d⟩ := found
    rw [hfind] at h
    dsimp only at h
    cases hpacket : d.handlePacket (b.attached place) pid ep ioVec with
    | error e =>
      rw [hpacket] at h
      cases h
    | ok r =>
      rw [hpacket] at h
      cases h
      have hdone := handlePacket_done (hb place d (find_spec hfind).1) hpacket
      exact ⟨legal_resetBelow (legal_set hb hdone.legal) _ _, hdone.settled⟩

end Handle

end OpenXbox.Usb.Ports
