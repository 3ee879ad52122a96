import OpenXbox.Lib.Latch
import OpenXbox.Usb.Hub

/-!
# The ports of the hub over a run

Devices come and go at the ports of a hub, wake it up, and the host resets the hub and sends it
requests. A change at a port stays in its status until the host clears it, and the interrupt
endpoint tells which ports have one.
-/

namespace OpenXbox.Usb.HubStatus

open OpenXbox.Lib OpenXbox.Lib.Buffer OpenXbox.Lib.Flags OpenXbox.Lib.Run OpenXbox.Lib.Latch
  OpenXbox.Usb.Control OpenXbox.Usb.Requests OpenXbox.Usb.Hub

/-! ## Callbacks of the ports -/

/-- `UsbHub_Detach`, on the port; the controller above is told too. -/
def detachPort (port : USBHubPort) : USBHubPort :=
  let port : USBHubPort :=
    ⟨port.wPortStatus &&& ~~~PORT_STAT_CONNECTION, port.wPortChange ||| PORT_STAT_C_CONNECTION⟩
  if has port.wPortStatus PORT_STAT_ENABLE then
    ⟨port.wPortStatus &&& ~~~PORT_STAT_ENABLE, port.wPortChange ||| PORT_STAT_C_ENABLE⟩
  else port

def usbHubDetach (h : USBHubState) (n : Nat) : USBHubState := h.setPort n (detachPort (h.ports n))

/-- `UsbHub_Wakeup`, on the port. -/
def wakeupPort (port : USBHubPort) : USBHubPort :=
  if has port.wPortStatus PORT_STAT_SUSPEND then
    { port with wPortChange := port.wPortChange ||| PORT_STAT_C_SUSPEND }
  else port

def usbHubWakeup (h : USBHubState) (n : Nat) : USBHubState := h.setPort n (wakeupPort (h.ports n))

/-! ## Runs -/

structure Hub where
  hub : USBHubState
  /-- The ports at which there are devices. -/
  attached : Nat → Bool

inductive Op where
  | attach (n : Fin NUM_PORTS)
  | detach (n : Fin NUM_PORTS)
  | wakeup (n : Fin NUM_PORTS)
  /-- `USB_DeviceReset` of the hub itself. -/
  | reset
  | control (p : USBPacket) (c : Call) (data : Nat → Byte)

/-- A device comes to a free port, and is detached from and wakes up its own. -/
def step (s : Hub) : Op → Option Hub
  | .attach n => some (if s.attached n then s else ⟨usbHubAttach s.hub n, store s.attached n true⟩)
  | .detach n => some (if s.attached n then ⟨usbHubDetach s.hub n, store s.attached n false⟩ else s)
  | .wakeup n => some (if s.attached n then { s with hub := usbHubWakeup s.hub n } else s)
  | .reset => some { s with
      hub := usbHubHandleReset
        { s.hub with dev := { s.hub.dev with remoteWakeup := false, addr := 0 } } s.attached }
  | .control p c data =>
    (usbHubHandleControl s.hub s.attached p c data).map fun r => { s with hub := r.hub }

/-- A hub without devices, as `UsbHub_Initfn` leaves it. -/
def start (strings : List (Nat × List Byte)) : Hub := ⟨usbHubInitfn strings, fun _ => false⟩

/-! ## What the status of a port is to tell -/

/-- The changes that the hub keeps for the host; it never has an over-current. -/
inductive Change where
  | connection
  | enable
  | suspend
  | reset
  deriving DecidableEq

def Change.bit : Change → BitVec 16
  | .connection => PORT_STAT_C_CONNECTION
  | .enable => PORT_STAT_C_ENABLE
  | .suspend => PORT_STAT_C_SUSPEND
  | .reset => PORT_STAT_C_RESET

/-- The feature that the host clears. -/
def Change.feature : Change → Nat
  | .connection => PORT_C_CONNECTION
  | .enable => PORT_C_ENABLE
  | .suspend => PORT_C_SUSPEND
  | .reset => PORT_C_RESET

/-- The operation changes port `n`. -/
def raises (f : Change) (n : Nat) (s : Hub) : Op → Prop
  | .attach m => f = .connection ∧ m = n ∧ s.attached n = false
  | .detach m => m = n ∧ s.attached n ∧
      (f = .connection ∨ (f = .enable ∧ has (s.hub.ports n).wPortStatus PORT_STAT_ENABLE))
  | .wakeup m => f = .suspend ∧ m = n ∧ s.attached n ∧ has (s.hub.ports n).wPortStatus PORT_STAT_SUSPEND
  | .reset => f = .connection ∧ s.attached n
  | .control _ c _ => f = .reset ∧ c.request = SetPortFeature ∧ c.value = PORT_RESET ∧
      sub32 c.index 1 = n ∧ s.attached n

/-- The host acknowledges the change of port `n`, or starts the hub afresh. -/
def clears (f : Change) (n : Nat) (_ : Hub) : Op → Prop
  | .reset => True
  | .control _ c _ => c.request = ClearPortFeature ∧ c.value = f.feature ∧ sub32 c.index 1 = n
  | _ => False

/-- A change of port `n` that the host has not acknowledged. -/
def Unacknowledged (strings : List (Nat × List Byte)) (ops : List Op) (f : Change) (n : Nat) : Prop :=
  Outstanding step (raises f n) (clears f n) (start strings) ops

def statusMask : BitVec 16 :=
  PORT_STAT_CONNECTION ||| PORT_STAT_ENABLE ||| PORT_STAT_SUSPEND ||| PORT_STAT_POWER

def changeMask : BitVec 16 :=
  PORT_STAT_C_CONNECTION ||| PORT_STAT_C_ENABLE ||| PORT_STAT_C_SUSPEND ||| PORT_STAT_C_RESET

/-- What holds of a port at any time: it is connected when it has a device, enabled only then, and
always powered; there are no other bits. -/
structure Coherent (attached : Bool) (port : USBHubPort) : Prop where
  connected : has port.wPortStatus PORT_STAT_CONNECTION = attached
  enabled : has port.wPortStatus PORT_STAT_ENABLE → attached
  powered : has port.wPortStatus PORT_STAT_POWER
  status : port.wPortStatus &&& ~~~statusMask = 0
  change : port.wPortChange &&& ~~~changeMask = 0

/-- The answer to a poll of the interrupt endpoint with a packet of two bytes or more. -/
structure Polled (told : Nat → Prop) (p q : USBPacket) : Prop where
  quiet : (∀ n < NUM_PORTS, ¬ told n) → q = { p with status := USB_RET_NAK }
  answered : (∃ n < NUM_PORTS, told n) → q.status = p.status ∧ q.actualLength = 2 ∧
    q.ioVec.drop 2 = p.ioVec.drop 2 ∧
    ∀ n < NUM_PORTS, (q.ioVec.getD ((n + 1) / 8) 0).getLsbD ((n + 1) % 8) = true ↔ told n

structure Reports (strings : List (Nat × List Byte)) (ops : List Op) (s : Hub) : Prop where
  coherent : ∀ n < NUM_PORTS, Coherent (s.attached n) (s.hub.ports n)
  change : ∀ n < NUM_PORTS, ∀ f : Change,
    has (s.hub.ports n).wPortChange f.bit ↔ Unacknowledged strings ops f n
  poll : ∀ p : USBPacket, p.pid = USB_TOKEN_IN → p.actualLength = 0 → 2 ≤ p.ioVec.length →
    ∃ q, usbHubHandleData s.hub p 1 = some q ∧
      Polled (fun n => ∃ f, Unacknowledged strings ops f n) p q

/-! ## The port after an operation -/

/-- `SetPortFeature` and `ClearPortFeature` on the port they name. -/
def requestPort (attached : Bool) (c : Call) (port : USBHubPort) : USBHubPort :=
  let clearStatus (bit : BitVec 16) : USBHubPort := { port with wPortStatus := port.wPortStatus &&& ~~~bit }
  let clearChange (bit : BitVec 16) : USBHubPort := { port with wPortChange := port.wPortChange &&& ~~~bit }
  if c.request = SetPortFeature then
    if c.value = PORT_SUSPEND then { port with wPortStatus := port.wPortStatus ||| PORT_STAT_SUSPEND }
    else if c.value = PORT_RESET ∧ attached then
      ⟨port.wPortStatus ||| PORT_STAT_ENABLE, port.wPortChange ||| PORT_STAT_C_RESET⟩
    else port
  else if c.request = ClearPortFeature then
    if c.value = PORT_ENABLE then clearStatus PORT_STAT_ENABLE
    else if c.value = PORT_C_ENABLE then clearChange PORT_STAT_C_ENABLE
    else if c.value = PORT_SUSPEND then clearStatus PORT_STAT_SUSPEND
    else if c.value = PORT_C_SUSPEND then clearChange PORT_STAT_C_SUSPEND
    else if c.value = PORT_C_CONNECTION then clearChange PORT_STAT_C_CONNECTION
    else if c.value = PORT_C_OVERCURRENT then clearChange PORT_STAT_C_OVERCURRENT
    else if c.value = PORT_C_RESET then clearChange PORT_STAT_C_RESET
    else port
  else port

section Requests

variable {h : USBHubState} {attached : Nat → Bool} {p : USBPacket} {c : Call} {data : Nat → Byte}
  {n : Nat}

theorem setPort_ports (h : USBHubState) (m n : Nat) (port : USBHubPort) :
    (h.setPort m port).ports n = if n = m then port else h.ports n := rfl

theorem setPortFeature_ports (r : Served) (hc : c.request = SetPortFeature) (m n : Nat) :
    (setPortFeature r attached c.value m).hub.ports n =
      if n = m then requestPort (attached m) c (r.hub.ports n) else r.hub.ports n := by
  unfold setPortFeature requestPort
  dsimp only
  rw [if_pos hc]
  by_cases hn : n = m
  · subst hn
    rw [if_pos rfl]
    split
    · exact if_pos rfl
    split
    · next hreset =>
      cases hattached : attached n with
      | true => simp [hreset, setPort_ports]
      | false => simp
    · next hreset => split <;> simp [hreset, Served.stall]
  · rw [if_neg hn]
    split
    · exact if_neg hn
    split
    · split
      · exact if_neg hn
      · rfl
    · split <;> rfl

theorem clearPortFeature_ports (attached : Nat → Bool) (r : Served) (hc : c.request = ClearPortFeature)
    (m n : Nat) :
    (clearPortFeature r c.value m).hub.ports n =
      if n = m then requestPort (attached m) c (r.hub.ports n) else r.hub.ports n := by
  have hset : c.request ≠ SetPortFeature := by
    rw [hc]
    decide
  unfold clearPortFeature requestPort
  dsimp only
  rw [if_neg hset, if_pos hc]
  by_cases hn : n = m
  · subst hn
    rw [if_pos rfl]
    repeat' split
    all_goals first | exact if_pos rfl | rfl
  · rw [if_neg hn]
    repeat' split
    all_goals first | exact if_neg hn | rfl

theorem requestPort_other (hset : c.request ≠ SetPortFeature) (hclear : c.request ≠ ClearPortFeature)
    (b : Bool) (port : USBHubPort) : requestPort b c port = port := by
  unfold requestPort
  dsimp only
  rw [if_neg hset, if_neg hclear]

theorem handleRequest_ports (r : Served) (hn : n < NUM_PORTS) :
    (handleRequest r attached c).hub.ports n =
      if sub32 c.index 1 = n then requestPort (attached n) c (r.hub.ports n) else r.hub.ports n := by
  have hbeyond (hge : sub32 c.index 1 ≥ NUM_PORTS) : ¬ sub32 c.index 1 = n := by omega
  have hswap {x y : USBHubPort} (m : Nat) (hm : m = sub32 c.index 1) :
      (if n = m then x else y) = if sub32 c.index 1 = n then x else y := by
    rw [hm]
    exact if_congr eq_comm rfl rfl
  unfold handleRequest
  dsimp only
  by_cases hset : c.request = SetPortFeature
  · rw [if_neg (by rw [hset]; decide), if_neg (by rw [hset]; decide), if_neg (by rw [hset]; decide),
      if_neg (by rw [hset]; decide), if_pos hset]
    split
    · next hge => rw [if_neg (hbeyond hge)]; rfl
    · rw [setPortFeature_ports r hset, hswap _ rfl]
      split
      · next heq => rw [heq]
      · rfl
  by_cases hclear : c.request = ClearPortFeature
  · rw [if_neg (by rw [hclear]; decide), if_neg (by rw [hclear]; decide),
      if_neg (by rw [hclear]; decide), if_neg (by rw [hclear]; decide), if_neg hset, if_pos hclear]
    split
    · next hge => rw [if_neg (hbeyond hge)]; rfl
    · rw [clearPortFeature_ports attached r hclear, hswap _ rfl]
      split
      · next heq => rw [heq]
      · rfl
  · rw [requestPort_other hset hclear, ite_self, if_neg hset, if_neg hclear]
    repeat' split
    all_goals rfl

/-- The requests for a port are not standard requests. -/
theorem usbDescHandleControl_port (dev : Device)
    (hc : c.request = SetPortFeature ∨ c.request = ClearPortFeature) :
    usbDescHandleControl dev p c data = some ⟨-1, dev, p, data⟩ := by
  unfold usbDescHandleControl
  dsimp only
  rcases hc with hc | hc
  all_goals
    rw [hc, if_neg (by decide), if_neg (by decide), if_neg (by decide), if_neg (by decide),
      if_neg (by decide), if_neg (by decide), if_neg (by decide), if_neg (by decide),
      if_neg (by decide)]

theorem usbHubHandleControl_ports {r : Served} (hn : n < NUM_PORTS)
    (hr : usbHubHandleControl h attached p c data = some r) :
    r.hub.ports n =
      if sub32 c.index 1 = n then requestPort (attached n) c (h.ports n) else h.ports n := by
  unfold usbHubHandleControl at hr
  obtain ⟨d, hd, rfl⟩ := Option.map_eq_some_iff.mp hr
  dsimp only
  by_cases hport : c.request = SetPortFeature ∨ c.request = ClearPortFeature
  · rw [usbDescHandleControl_port h.dev hport] at hd
    cases hd
    exact handleRequest_ports ⟨h, p, data, none⟩ hn
  · rw [not_or] at hport
    split
    · rw [requestPort_other hport.1 hport.2, ite_self]
    · exact handleRequest_ports ⟨{ h with dev := d.dev }, d.pkt, d.data, none⟩ hn

end Requests

/-- The port after an operation. -/
def portAfter (s : Hub) (n : Nat) : Op → USBHubPort
  | .attach m => if m = n ∧ s.attached n = false then (usbHubAttach s.hub n).ports n else s.hub.ports n
  | .detach m => if m = n ∧ s.attached n then detachPort (s.hub.ports n) else s.hub.ports n
  | .wakeup m => if m = n ∧ s.attached n then wakeupPort (s.hub.ports n) else s.hub.ports n
  | .reset =>
    if s.attached n then ⟨PORT_STAT_POWER ||| PORT_STAT_CONNECTION, PORT_STAT_C_CONNECTION⟩
    else ⟨PORT_STAT_POWER, 0⟩
  | .control _ c _ =>
    if sub32 c.index 1 = n then requestPort (s.attached n) c (s.hub.ports n) else s.hub.ports n

/-- Whether the port has a device then. -/
def attachedAfter (s : Hub) (n : Nat) : Op → Bool
  | .attach m => if m = n then true else s.attached n
  | .detach m => if m = n then false else s.attached n
  | _ => s.attached n

section Steps

variable {s s' : Hub} {op : Op} {n : Nat}

theorem step_port (hn : n < NUM_PORTS) (hs : step s op = some s') :
    s'.hub.ports n = portAfter s n op ∧ s'.attached n = attachedAfter s n op := by
  cases op with
  | attach m =>
    cases hs
    unfold portAfter attachedAfter
    dsimp only
    by_cases hm : (m : Nat) = n
    · subst hm
      cases hattached : s.attached m with
      | true => simp [hattached]
      | false => simp [store]
    · cases s.attached m with
      | true => simp [hm]
      | false =>
        refine ⟨?_, ?_⟩
        · simp only [hm, false_and, if_false]
          exact if_neg (Ne.symm hm)
        · simp [hm, store, Ne.symm hm]
  | detach m =>
    cases hs
    unfold portAfter attachedAfter
    dsimp only
    by_cases hm : (m : Nat) = n
    · subst hm
      cases hattached : s.attached m with
      | true => simp [store, usbHubDetach, setPort_ports]
      | false => simp [hattached]
    · cases s.attached m with
      | true => simp [hm, store, usbHubDetach, setPort_ports, Ne.symm hm]
      | false => simp [hm]
  | wakeup m =>
    cases hs
    unfold portAfter attachedAfter
    dsimp only
    by_cases hm : (m : Nat) = n
    · subst hm
      cases hattached : s.attached m with
      | true => simp [hattached, usbHubWakeup, setPort_ports]
      | false => simp [hattached]
    · cases s.attached m with
      | true => simp [hm, usbHubWakeup, setPort_ports, Ne.symm hm]
      | false => simp [hm]
  | reset =>
    cases hs
    exact ⟨rfl, rfl⟩
  | control p c data =>
    obtain ⟨r, hr, rfl⟩ := Option.map_eq_some_iff.mp hs
    dsimp only [portAfter, attachedAfter]
    exact ⟨usbHubHandleControl_ports hn hr, rfl⟩

end Steps

/-! ## What an operation leaves coherent -/

section Coherent

variable {attached : Bool} {port : USBHubPort} {x y m : BitVec 16}

theorem within_or (hx : x &&& ~~~m = 0) (hy : y &&& ~~~m = 0) : (x ||| y) &&& ~~~m = 0 := by
  rw [BitVec.and_or_distrib_right, hx, hy]
  rfl

theorem within_clear (hx : x &&& ~~~m = 0) (y : BitVec 16) : (x &&& ~~~y) &&& ~~~m = 0 := by
  rw [BitVec.and_assoc, BitVec.and_comm (~~~y), ← BitVec.and_assoc, hx]
  exact BitVec.zero_and

theorem Coherent.setChange (h : Coherent attached port) (hy : y &&& ~~~changeMask = 0) :
    Coherent attached { port with wPortChange := port.wPortChange ||| y } :=
  ⟨h.connected, h.enabled, h.powered, h.status, within_or h.change hy⟩

theorem Coherent.clearChange (h : Coherent attached port) (y : BitVec 16) :
    Coherent attached { port with wPortChange := port.wPortChange &&& ~~~y } :=
  ⟨h.connected, h.enabled, h.powered, h.status, within_clear h.change y⟩

theorem Coherent.suspend (h : Coherent attached port) :
    Coherent attached { port with wPortStatus := port.wPortStatus ||| PORT_STAT_SUSPEND } := by
  refine ⟨?_, ?_, ?_, within_or h.status (by decide), h.change⟩
  · rw [has_or_of_apart (by decide)]
    exact h.connected
  · rw [has_or_of_apart (by decide)]
    exact h.enabled
  · exact (has_or_of_apart (by decide)).trans h.powered

theorem Coherent.enable (h : Coherent true port) :
    Coherent true { port with wPortStatus := port.wPortStatus ||| PORT_STAT_ENABLE } := by
  refine ⟨?_, fun _ => rfl, ?_, within_or h.status (by decide), h.change⟩
  · rw [has_or_of_apart (by decide)]
    exact h.connected
  · exact (has_or_of_apart (by decide)).trans h.powered

/-- Neither the connection nor the power is cleared. -/
theorem Coherent.clearStatus (h : Coherent attached port) (hconnection : y &&& PORT_STAT_CONNECTION = 0)
    (hpower : y &&& PORT_STAT_POWER = 0) (henable : y &&& PORT_STAT_ENABLE = 0 ∨ ~~~y &&& PORT_STAT_ENABLE = 0) :
    Coherent attached { port with wPortStatus := port.wPortStatus &&& ~~~y } := by
  refine ⟨?_, fun hhas => ?_, ?_, within_clear h.status y, h.change⟩
  · rw [has_clear_of_apart hconnection]
    exact h.connected
  · rcases henable with hapart | hcovered
    · exact h.enabled (has_clear_of_apart hapart ▸ hhas)
    · rw [has_clear_of_covered hcovered] at hhas
      cases hhas
  · exact (has_clear_of_apart hpower).trans h.powered

theorem coherent_attach (h : Coherent attached port) : Coherent true
    ⟨(port.wPortStatus ||| PORT_STAT_CONNECTION) &&& ~~~PORT_STAT_LOW_SPEED,
      port.wPortChange ||| PORT_STAT_C_CONNECTION⟩ := by
  refine ⟨?_, fun _ => rfl, ?_, within_clear (within_or h.status (by decide)) _,
    within_or h.change (by decide)⟩
  · rw [has_clear_of_apart (by decide)]
    exact has_or_of_has (by decide)
  · rw [has_clear_of_apart (by decide)]
    exact (has_or_of_apart (by decide)).trans h.powered

theorem coherent_detach (h : Coherent attached port) : Coherent false (detachPort port) := by
  have hpower : has (port.wPortStatus &&& ~~~PORT_STAT_CONNECTION) PORT_STAT_POWER :=
    (has_clear_of_apart (by decide)).trans h.powered
  have hgone : has (port.wPortStatus &&& ~~~PORT_STAT_CONNECTION) PORT_STAT_CONNECTION = false :=
    has_clear_of_covered (by decide)
  have hstatus := within_clear h.status PORT_STAT_CONNECTION
  have hchange := within_or h.change (y := PORT_STAT_C_CONNECTION) (by decide)
  unfold detachPort
  dsimp only
  split
  · refine ⟨(has_clear_of_apart (by decide)).trans hgone, fun hhas => ?_,
      (has_clear_of_apart (by decide)).trans hpower, within_clear hstatus _,
      within_or hchange (by decide)⟩
    rw [has_clear_of_covered (by decide)] at hhas
    cases hhas
  · next hdisabled => exact ⟨hgone, fun hhas => absurd hhas hdisabled, hpower, hstatus, hchange⟩

theorem coherent_wakeup (h : Coherent attached port) : Coherent attached (wakeupPort port) := by
  unfold wakeupPort
  split
  · exact h.setChange (by decide)
  · exact h

theorem coherent_request (h : Coherent attached port) (c : Call) :
    Coherent attached (requestPort attached c port) := by
  unfold requestPort
  dsimp only
  split
  · split
    · exact h.suspend
    split
    · next hreset =>
      obtain ⟨-, rfl⟩ := hreset
      exact h.enable.setChange (by decide)
    · exact h
  split
  · repeat' split
    all_goals first
      | exact h.clearChange _
      | exact h.clearStatus (by decide) (by decide) (by decide)
      | exact h
  · exact h

theorem coherent_free : Coherent false ⟨PORT_STAT_POWER, 0⟩ :=
  ⟨by decide, by decide, by decide, by decide, by decide⟩

/-- A port stays coherent whatever happens to the hub. -/
theorem coherent_after {s : Hub} {n : Nat} (h : Coherent (s.attached n) (s.hub.ports n)) (op : Op) :
    Coherent (attachedAfter s n op) (portAfter s n op) := by
  cases op with
  | attach m =>
    unfold portAfter attachedAfter
    dsimp only
    by_cases hm : (m : Nat) = n
    · cases hattached : s.attached n with
      | true => simpa [hm, hattached] using h
      | false => simpa [hm, hattached, usbHubAttach, setPort_ports] using coherent_attach h
    · simpa [hm] using h
  | detach m =>
    unfold portAfter attachedAfter
    dsimp only
    by_cases hm : (m : Nat) = n
    · cases hattached : s.attached n with
      | true => simpa [hm, hattached] using coherent_detach h
      | false => simpa [hm, hattached] using h
    · simpa [hm] using h
  | wakeup m =>
    unfold portAfter attachedAfter
    dsimp only
    split
    · exact coherent_wakeup h
    · exact h
  | reset =>
    unfold portAfter attachedAfter
    dsimp only
    cases s.attached n with
    | true => exact ⟨by decide, fun _ => rfl, by decide, by decide, by decide⟩
    | false => exact coherent_free
  | control p c data =>
    unfold portAfter attachedAfter
    dsimp only
    split
    · exact coherent_request h c
    · exact h

end Coherent

/-! ## What an operation does to the changes -/

section Changes

variable {s : Hub} {n : Nat} {f : Change} {x : BitVec 16}

/-- The bit of a change tells it from the others. -/
theorem has_or_bit (g f : Change) (x : BitVec 16) :
    has (x ||| g.bit) f.bit ↔ f = g ∨ has x f.bit := by
  rw [has_or, Bool.or_eq_true, or_comm]
  refine or_congr ?_ Iff.rfl
  cases g <;> cases f <;> decide

theorem has_clear_bit (g f : Change) (x : BitVec 16) :
    has (x &&& ~~~g.bit) f.bit ↔ has x f.bit ∧ f ≠ g := by
  by_cases hsame : f = g
  · subst hsame
    rw [has_clear_of_covered (by cases f <;> decide)]
    simp
  · rw [has_clear_of_apart (by cases g <;> cases f <;> first | decide | exact absurd rfl hsame)]
    simp [hsame]

theorem detachPort_change (port : USBHubPort) : has (detachPort port).wPortChange f.bit ↔
    (f = .connection ∨ (f = .enable ∧ has port.wPortStatus PORT_STAT_ENABLE)) ∨
      has port.wPortChange f.bit := by
  have hstays : has (port.wPortStatus &&& ~~~PORT_STAT_CONNECTION) PORT_STAT_ENABLE =
      has port.wPortStatus PORT_STAT_ENABLE := has_clear_of_apart (by decide)
  have hconnection := has_or_bit .connection f port.wPortChange
  have henable := has_or_bit .enable f (port.wPortChange ||| PORT_STAT_C_CONNECTION)
  unfold detachPort
  dsimp only
  rw [hstays]
  split
  · next henabled =>
    rw [show PORT_STAT_C_ENABLE = Change.enable.bit from rfl, henable,
      show PORT_STAT_C_CONNECTION = Change.connection.bit from rfl, hconnection]
    simp [henabled, or_assoc, or_left_comm]
  · next hdisabled =>
    rw [show PORT_STAT_C_CONNECTION = Change.connection.bit from rfl, hconnection]
    simp [hdisabled]

theorem wakeupPort_change (port : USBHubPort) : has (wakeupPort port).wPortChange f.bit ↔
    (f = .suspend ∧ has port.wPortStatus PORT_STAT_SUSPEND) ∨ has port.wPortChange f.bit := by
  unfold wakeupPort
  split
  · next hsuspended =>
    rw [show PORT_STAT_C_SUSPEND = Change.suspend.bit from rfl, has_or_bit]
    simp [hsuspended]
  · next hawake => simp [hawake]

/-- The change that the host names is cleared, and no other. -/
theorem requestPort_clear (attached : Bool) {c : Call} (hclear : c.request = ClearPortFeature)
    (port : USBHubPort) : has (requestPort attached c port).wPortChange f.bit ↔
      has port.wPortChange f.bit ∧ c.value ≠ f.feature := by
  have hset : c.request ≠ SetPortFeature := by
    rw [hclear]
    decide
  have hname (g : Change) (hvalue : c.value = g.feature) :
      has (port.wPortChange &&& ~~~g.bit) f.bit ↔ has port.wPortChange f.bit ∧ c.value ≠ f.feature := by
    have hfeature : g.feature ≠ f.feature ↔ f ≠ g := by cases g <;> cases f <;> decide
    rw [has_clear_bit, hvalue, hfeature]
  have hnone (hvalue : c.value ≠ f.feature) :
      has port.wPortChange f.bit ↔ has port.wPortChange f.bit ∧ c.value ≠ f.feature := by
    simp [hvalue]
  have hother {value : Nat} (hvalue : c.value = value) (hnot : value ≠ f.feature) :
      c.value ≠ f.feature := hvalue ▸ hnot
  unfold requestPort
  dsimp only
  rw [if_neg hset, if_pos hclear]
  split
  · next hvalue => exact hnone (hother hvalue (by cases f <;> decide))
  split
  · next hvalue => exact hname .enable hvalue
  split
  · next hvalue => exact hnone (hother hvalue (by cases f <;> decide))
  split
  · next hvalue => exact hname .suspend hvalue
  split
  · next hvalue => exact hname .connection hvalue
  split
  · next hvalue =>
    -- the hub keeps no such change
    rw [has_clear_of_apart (by cases f <;> decide)]
    exact hnone (hother hvalue (by cases f <;> decide))
  split
  · next hvalue => exact hname .reset hvalue
  · next h1 h2 h3 h4 h5 h6 h7 => exact hnone (by cases f <;> assumption)

/-- A request raises the change of a reset, and clears the one that it names. -/
theorem requestPort_change (attached : Bool) (c : Call) (port : USBHubPort) :
    has (requestPort attached c port).wPortChange f.bit ↔
      (f = .reset ∧ c.request = SetPortFeature ∧ c.value = PORT_RESET ∧ attached = true) ∨
        (has port.wPortChange f.bit ∧ ¬ (c.request = ClearPortFeature ∧ c.value = f.feature)) := by
  have hother : SetPortFeature ≠ ClearPortFeature := by decide
  by_cases hclear : c.request = ClearPortFeature
  · rw [requestPort_clear attached hclear]
    simp [hclear, hother.symm]
  by_cases hset : c.request = SetPortFeature
  · unfold requestPort
    dsimp only
    rw [if_pos hset]
    by_cases hsuspend : c.value = PORT_SUSPEND
    · rw [if_pos hsuspend]
      simp [hset, hsuspend, hother, show PORT_SUSPEND ≠ PORT_RESET by decide]
    rw [if_neg hsuspend]
    by_cases hreset : c.value = PORT_RESET ∧ attached = true
    · rw [if_pos hreset, show PORT_STAT_C_RESET = Change.reset.bit from rfl, has_or_bit]
      simp [hset, hreset, hother]
    · rw [if_neg hreset]
      simp [hset, hreset, hother]
  · rw [requestPort_other hset hclear]
    simp [hset, hclear]

/-- Each change is latched: an operation raises it, or it is kept until one clears it. -/
theorem change_after (op : Op) : has (portAfter s n op).wPortChange f.bit ↔
    raises f n s op ∨ (has (s.hub.ports n).wPortChange f.bit ∧ ¬ clears f n s op) := by
  cases op with
  | attach m =>
    simp only [portAfter, raises, clears, not_false_eq_true, and_true]
    by_cases hm : (m : Nat) = n ∧ s.attached n = false
    · have hattach : ((usbHubAttach s.hub n).ports n).wPortChange =
          (s.hub.ports n).wPortChange ||| Change.connection.bit := by
        simp [usbHubAttach, setPort_ports, Change.bit]
      rw [if_pos hm, hattach, has_or_bit]
      simp [hm]
    · rw [if_neg hm]
      simp [hm]
  | detach m =>
    simp only [portAfter, raises, clears, not_false_eq_true, and_true]
    by_cases hm : (m : Nat) = n ∧ s.attached n = true
    · rw [if_pos hm, detachPort_change]
      simp [hm]
    · rw [if_neg hm, ← and_assoc]
      simp [hm]
  | wakeup m =>
    simp only [portAfter, raises, clears, not_false_eq_true, and_true]
    by_cases hm : (m : Nat) = n ∧ s.attached n = true
    · rw [if_pos hm, wakeupPort_change]
      simp [hm]
    · rw [if_neg hm]
      exact ⟨.inr, fun h => h.elim (fun hwake => absurd ⟨hwake.2.1, hwake.2.2.1⟩ hm) id⟩
  | reset =>
    simp only [portAfter, raises, clears, not_true_eq_false, and_false, or_false]
    cases s.attached n with
    | true => cases f <;> decide
    | false => simp
  | control p c data =>
    simp only [portAfter, raises, clears]
    by_cases hport : sub32 c.index 1 = n
    · rw [if_pos hport, requestPort_change]
      simp [hport]
    · rw [if_neg hport]
      simp [hport]

/-- A port has a change when one of those that the hub keeps is set. -/
theorem change_ne_zero_iff {attached : Bool} {port : USBHubPort} (h : Coherent attached port) :
    port.wPortChange ≠ 0 ↔ ∃ f : Change, has port.wPortChange f.bit := by
  constructor
  · intro hne
    by_contra hnone
    have hclear (f : Change) : port.wPortChange &&& f.bit = 0 :=
      has_eq_false.mp (Bool.not_eq_true _ ▸ fun hf => hnone ⟨f, hf⟩)
    have hmask : port.wPortChange &&& changeMask = 0 := by
      have h1 := hclear .connection
      have h2 := hclear .enable
      have h3 := hclear .suspend
      have h4 := hclear .reset
      simp only [Change.bit] at h1 h2 h3 h4
      unfold changeMask
      rw [BitVec.and_or_distrib_left, BitVec.and_or_distrib_left, BitVec.and_or_distrib_left, h1, h2, h3, h4]
      rfl
    apply hne
    have hsplit : port.wPortChange &&& (changeMask ||| ~~~changeMask) = 0 := by
      rw [BitVec.and_or_distrib_left, hmask, h.change]
      rfl
    rwa [show changeMask ||| ~~~changeMask = BitVec.allOnes 16 by decide, BitVec.and_allOnes] at hsplit
  · rintro ⟨f, hf⟩ hzero
    rw [hzero] at hf
    exact absurd hf (by simp [has])

end Changes

/-! ## The interrupt endpoint -/

section Poll

variable {h : USBHubState} {p : USBPacket}

theorem testBit_changes (c : Nat → Prop) [DecidablePred c] (ports k : Nat) :
    ((List.range ports).foldl (fun status i => if c i then status ||| 1 <<< (i + 1) else status) 0).testBit k
      = true ↔ ∃ n < ports, c n ∧ k = n + 1 := by
  induction ports with
  | zero => simp
  | succ ports ih =>
    rw [List.range_succ, List.foldl_append, List.foldl_cons, List.foldl_nil]
    have hlast : (∃ n < ports + 1, c n ∧ k = n + 1) ↔
        (∃ n < ports, c n ∧ k = n + 1) ∨ (c ports ∧ k = ports + 1) := by
      constructor
      · rintro ⟨n, hn, hc, rfl⟩
        rcases Nat.lt_succ_iff_lt_or_eq.mp hn with hlt | rfl
        · exact .inl ⟨n, hlt, hc, rfl⟩
        · exact .inr ⟨hc, rfl⟩
      · rintro (⟨n, hn, hc, rfl⟩ | ⟨hc, rfl⟩)
        · exact ⟨n, Nat.lt_succ_of_lt hn, hc, rfl⟩
        · exact ⟨ports, Nat.lt_succ_self ports, hc, rfl⟩
    rw [hlast, ← ih]
    split
    · next hc =>
      rw [Nat.testBit_or, Bool.or_eq_true, Nat.one_shiftLeft, Nat.testBit_two_pow, decide_eq_true_eq,
        eq_comm (a := ports + 1)]
      simp only [hc, true_and]
    · next hc => simp only [hc, false_and, or_false]

theorem changes_testBit (h : USBHubState) (n : Nat) (hn : n < NUM_PORTS) :
    h.changes.testBit (n + 1) = true ↔ (h.ports n).wPortChange ≠ 0 := by
  rw [USBHubState.changes, testBit_changes (fun i => (h.ports i).wPortChange ≠ 0)]
  constructor
  · rintro ⟨m, -, hm, heq⟩
    obtain rfl : n = m := Nat.succ.inj heq
    exact hm
  · exact fun hne => ⟨n, hn, hne, rfl⟩

theorem changes_ne_zero_iff (h : USBHubState) :
    h.changes ≠ 0 ↔ ∃ n < NUM_PORTS, (h.ports n).wPortChange ≠ 0 := by
  constructor
  · intro hne
    obtain ⟨k, hk⟩ := Nat.exists_testBit_of_ne_zero hne
    rw [USBHubState.changes, testBit_changes (fun i => (h.ports i).wPortChange ≠ 0)] at hk
    obtain ⟨n, hn, hc, -⟩ := hk
    exact ⟨n, hn, hc⟩
  · rintro ⟨n, hn, hc⟩ hzero
    have hbit := (changes_testBit h n hn).mpr hc
    rw [hzero, Nat.zero_testBit] at hbit
    cases hbit

/-- A poll with room for two bytes tells exactly the ports that have a change. -/
theorem handleData_polled (h : USBHubState) (hpid : p.pid = USB_TOKEN_IN) (hzero : p.actualLength = 0)
    (hroom : 2 ≤ p.ioVec.length) : ∃ q, usbHubHandleData h p 1 = some q ∧
      Polled (fun n => (h.ports n).wPortChange ≠ 0) p q := by
  have hnotOut : ¬ (p.pid = USB_TOKEN_SETUP ∨ p.pid = USB_TOKEN_OUT) := by
    rw [hpid]
    decide
  unfold usbHubHandleData
  rw [if_pos ⟨hpid, rfl⟩]
  by_cases hchange : h.changes ≠ 0
  · rw [if_pos hchange]
    dsimp only
    have hbytes : (NUM_PORTS + 1 + 7) / 8 = 2 := by decide
    rw [hbytes, if_neg (by omega), if_neg (by omega), usbPacketCopy, hzero, Nat.zero_add, if_pos hroom]
    dsimp only
    rw [if_neg hnotOut, if_pos hpid]
    refine ⟨_, rfl, fun hnone => ?_, fun _ => ⟨rfl, u32_of_lt (by decide), rfl, fun n hn => ?_⟩⟩
    · obtain ⟨n, hn, hc⟩ := (changes_ne_zero_iff h).mp hchange
      exact absurd hc (hnone n hn)
    · rw [← changes_testBit h n hn]
      obtain ⟨i, j, hij, hj, hi⟩ : ∃ i j, n + 1 = 8 * i + j ∧ j < 8 ∧ i < 2 :=
        ⟨(n + 1) / 8, (n + 1) % 8, by omega, by omega, by simp only [NUM_PORTS] at hn; omega⟩
      rw [hij, show (8 * i + j) / 8 = i by omega, show (8 * i + j) % 8 = j by omega]
      have hbyte (rest : List Byte) :
          ((List.range 2).map (fun i => BitVec.ofNat 8 (h.changes >>> (8 * i))) ++ rest).getD i 0 =
            BitVec.ofNat 8 (h.changes >>> (8 * i)) := by
        obtain rfl | rfl : i = 0 ∨ i = 1 := by omega
        · rfl
        · rfl
      rw [List.take_zero, List.nil_append, hbyte, BitVec.getLsbD_ofNat, Nat.testBit_shiftRight]
      simp [hj]
  · rw [if_neg hchange]
    refine ⟨_, rfl, fun _ => rfl, fun hsome => ?_⟩
    exact absurd ((changes_ne_zero_iff h).mpr hsome) hchange

theorem Polled.congr {told told' : Nat → Prop} {q : USBPacket} (h : Polled told p q)
    (hiff : ∀ n < NUM_PORTS, told n ↔ told' n) : Polled told' p q := by
  refine ⟨fun hnone => h.quiet fun n hn ht => hnone n hn ((hiff n hn).mp ht), ?_⟩
  rintro ⟨n, hn, ht⟩
  obtain ⟨hstatus, hlength, hrest, hbits⟩ := h.answered ⟨n, hn, (hiff n hn).mpr ht⟩
  exact ⟨hstatus, hlength, hrest, fun n hn => (hbits n hn).trans (hiff n hn)⟩

end Poll

/-! ## Runs -/

section Runs

variable {s s' t : Hub} {op : Op}

/-- What holds of the hub after every operation. -/
structure Sound (s : Hub) : Prop where
  desc : s.hub.dev.desc = descHub
  coherent : ∀ n < NUM_PORTS, Coherent (s.attached n) (s.hub.ports n)

theorem start_port (strings : List (Nat × List Byte)) (n : Nat) :
    (start strings).hub.ports n = ⟨PORT_STAT_POWER, 0⟩ := rfl

theorem start_sound (strings : List (Nat × List Byte)) : Sound (start strings) :=
  ⟨setupInterfaces_desc, fun _ _ => coherent_free⟩

/-- Every operation comes back: no assertion of the hub fails. -/
theorem step_sound (h : Sound s) (op : Op) : ∃ s', step s op = some s' ∧ Sound s' := by
  have hports {s' : Hub} (hs : step s op = some s') (n : Nat) (hn : n < NUM_PORTS) :
      Coherent (s'.attached n) (s'.hub.ports n) := by
    obtain ⟨hport, hattached⟩ := step_port hn hs
    rw [hport, hattached]
    exact coherent_after (h.coherent n hn) op
  obtain ⟨s', hs, hdesc⟩ : ∃ s', step s op = some s' ∧ s'.hub.dev.desc = descHub := by
    cases op with
    | attach n => exact ⟨_, rfl, by split <;> exact h.desc⟩
    | detach n => exact ⟨_, rfl, by split <;> exact h.desc⟩
    | wakeup n => exact ⟨_, rfl, by split <;> exact h.desc⟩
    | reset => exact ⟨_, rfl, h.desc⟩
    | control p c data =>
      obtain ⟨r, hr, hdesc, -⟩ := usbHubHandleControl_kept h.desc s.attached p c data
      exact ⟨{ s with hub := r.hub }, by rw [step, hr]; rfl, hdesc⟩
  exact ⟨s', hs, hdesc, hports hs⟩

theorem exec_sound (h : Sound s) (ops : List Op) : ∃ t, exec step s ops = some t ∧ Sound t := by
  induction ops generalizing s with
  | nil => exact ⟨s, rfl, h⟩
  | cons op ops ih =>
    obtain ⟨s', hs, hsound⟩ := step_sound h op
    obtain ⟨t, ht, hlast⟩ := ih hsound
    exact ⟨t, by rw [exec_cons, hs]; exact ht, hlast⟩

/-- The bit of a change is set as long as the change is not acknowledged. -/
theorem change_iff (strings : List (Nat × List Byte)) {ops : List Op}
    (ht : exec step (start strings) ops = some t) {n : Nat} (hn : n < NUM_PORTS) (f : Change) :
    has (t.hub.ports n).wPortChange f.bit ↔ Unacknowledged strings ops f n := by
  have hlatch (s : Hub) (op : Op) (s' : Hub) (_ : True) (hs : step s op = some s') :
      has (s'.hub.ports n).wPortChange f.bit ↔
        raises f n s op ∨ (has (s.hub.ports n).wPortChange f.bit ∧ ¬ clears f n s op) := by
    rw [(step_port hn hs).1]
    exact change_after op
  refine flag_iff_outstanding (I := fun _ => True) (fun _ _ _ _ _ => trivial) hlatch trivial ?_ ht
  rw [start_port]
  simp [has]

/-- However devices come and go at the hub, and whatever requests it gets: every change at a port is
told, in the status of the port and through the interrupt endpoint, from when it happens until the
host acknowledges it, and nothing else is; and the ports are connected and enabled as they should
be. -/
theorem hub_reports_changes (strings : List (Nat × List Byte)) (ops : List Op) :
    ∃ s, exec step (start strings) ops = some s ∧ Reports strings ops s := by
  obtain ⟨s, hrun, hsound⟩ := exec_sound (start_sound strings) ops
  refine ⟨s, hrun, hsound.coherent, fun n hn f => change_iff strings hrun hn f,
    fun p hpid hzero hroom => ?_⟩
  obtain ⟨q, hq, hpolled⟩ := handleData_polled s.hub hpid hzero hroom
  refine ⟨q, hq, hpolled.congr fun n hn => ?_⟩
  rw [change_ne_zero_iff (hsound.coherent n hn)]
  exact exists_congr fun f => change_iff strings hrun hn f

end Runs

end OpenXbox.Usb.HubStatus
