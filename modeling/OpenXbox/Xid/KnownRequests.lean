import OpenXbox.Xid.OutputReport

/-!
# The requests that the gamepad takes

An assertion stands at the end of the gamepad's control handler, in its default branch and in some
of the others. `Known` is what a request must be and carry so that none of them is reached.
-/

namespace OpenXbox.Xid.KnownRequests

open OpenXbox.Lib.Buffer OpenXbox.Usb.Control OpenXbox.Usb.Requests OpenXbox.Xid.Gamepad
open OpenXbox.Usb.Descriptors (readConfigurationDesc)
open OpenXbox.Xid.OutputReport (handleRequest_out setReport_cases SET_REPORT)

/-! ## Standard requests -/

/-- There is a descriptor of the type. -/
def Described (dev : Device) (type index : Nat) : Prop :=
  type = USB_DT_DEVICE ∨ type = USB_DT_CONFIG ∧ index < dev.desc.full.bNumConfigurations.toNat ∨
    type = USB_DT_STRING

/-- The request is a standard one that the device can meet. -/
inductive Standard (dev : Device) (c : Call) : Prop where
  | setAddress (h : c.request = DeviceOutRequest ||| USB_REQ_SET_ADDRESS)
  | getDescriptor (h : c.request = DeviceRequest ||| USB_REQ_GET_DESCRIPTOR)
      (hf : Described dev ((c.value >>> 8) % 256) (c.value % 256))
  | getConfiguration (h : c.request = DeviceRequest ||| USB_REQ_GET_CONFIGURATION)
  | setConfiguration (h : c.request = DeviceOutRequest ||| USB_REQ_SET_CONFIGURATION)
  | getStatus (h : c.request = DeviceRequest ||| USB_REQ_GET_STATUS)
  | clearFeature (h : c.request = DeviceOutRequest ||| USB_REQ_CLEAR_FEATURE)
      (hv : c.value = USB_DEVICE_REMOTE_WAKEUP)
  | setFeature (h : c.request = DeviceOutRequest ||| USB_REQ_SET_FEATURE)
      (hv : c.value = USB_DEVICE_REMOTE_WAKEUP)
  | getInterface (h : c.request = InterfaceRequest ||| USB_REQ_GET_INTERFACE)
      (hi : c.index < dev.numInterfaces)
  | setInterface (h : c.request = InterfaceOutRequest ||| USB_REQ_SET_INTERFACE)
      (hi : usbDescFindInterface dev c.index c.value ≠ none)

theorem descXboxGamepad_legal : descXboxGamepad.Legal := fun _ => show 1 ≤ 16 by decide

section Standard

variable {dev : Device} {p : USBPacket} {c : Call} {data : Nat → Byte} {k : Handled}

theorem usbReadStringDesc_nonneg (index : Nat) (dest : Nat → Byte) (len : Nat) (hlen : 4 ≤ len) :
    0 ≤ (usbReadStringDesc dev index dest len).1 := by
  unfold usbReadStringDesc
  rw [if_neg (Nat.not_lt.mpr hlen)]
  split
  · exact Int.le.intro 4 rfl
  split
  · exact Int.le_refl 0
  · exact Int.natCast_nonneg _

theorem usbDescSetConfig_nonneg {value : Nat} {r : Int × Device}
    (h : usbDescSetConfig dev value = some r) : 0 ≤ r.1 := by
  unfold usbDescSetConfig at h
  split at h
  · obtain rfl := Option.some.inj h
    exact Int.le_refl 0
  · dsimp only at h
    split at h
    · cases h
    · rw [if_neg (Nat.lt_irrefl _)] at h
      obtain rfl := Option.some.inj h
      exact Int.le_refl 0

/-- A descriptor is read exactly when there is one. -/
theorem readStandardDesc_nonneg_iff (hdesc : dev.desc = descXboxGamepad) (type index : Nat) :
    0 ≤ (readStandardDesc dev type index).1 ↔ Described dev type index := by
  unfold readStandardDesc Described
  dsimp only
  by_cases hdevice : type = USB_DT_DEVICE
  · rw [if_pos hdevice, usbReadDeviceDesc, if_neg (by decide)]
    exact iff_of_true (show (0 : Int) ≤ 18 by decide) (.inl hdevice)
  rw [if_neg hdevice, or_iff_right hdevice]
  by_cases hconfig : type = USB_DT_CONFIG
  · have hstring : ¬ type = USB_DT_STRING := by
      rw [hconfig]
      decide
    rw [if_pos hconfig, or_iff_left hstring, and_iff_right hconfig]
    split
    · next hi =>
      have hread : 0 ≤ (readConfigurationDesc (descXboxGamepad.full.confs 0) (fun _ => 0) 256).1 := by
        decide
      refine iff_of_true ?_ hi
      rw [hdesc]
      exact hread
    · next hi => exact iff_of_false (by decide) hi
  rw [if_neg hconfig]
  by_cases hstring : type = USB_DT_STRING
  · rw [if_pos hstring]
    exact iff_of_true (usbReadStringDesc_nonneg index _ 256 (by decide)) (.inr hstring)
  · rw [if_neg hstring]
    refine iff_of_false (by decide) ?_
    rintro (⟨h, -⟩ | h)
    · exact hconfig h
    · exact hstring h

theorem handleStandardGetDescriptor_ret (hdesc : dev.desc = descXboxGamepad) :
    0 ≤ (handleStandardGetDescriptor dev p c data).ret ↔
      Described dev ((c.value >>> 8) % 256) (c.value % 256) := by
  rw [← readStandardDesc_nonneg_iff hdesc, handleStandardGetDescriptor]
  dsimp only
  split
  · next hpos => exact iff_of_true (Int.le_refl 0) (Int.le_of_lt hpos)
  · exact Iff.rfl

theorem usbDescSetInterface_cases (dev : Device) (index value : Nat) :
    usbDescFindInterface dev index value ≠ none ∧ (usbDescSetInterface dev index value).1 = 0 ∨
      usbDescSetInterface dev index value = (-1, dev) := by
  rw [usbDescSetInterface]
  cases usbDescFindInterface dev index value with
  | none => exact .inr rfl
  | some iface => exact .inl ⟨Option.some_ne_none iface, rfl⟩

/-- A request that comes back is met, or left to the gamepad as it came. -/
def Meets (dev : Device) (p : USBPacket) (c : Call) (data : Nat → Byte) (o : Option Handled) : Prop :=
  ∀ k, o = some k → 0 ≤ k.ret ∧ Standard dev c ∨ k.ret < 0 ∧ k = ⟨k.ret, dev, p, data⟩

section Meets

variable {x y : Option Handled}

theorem Meets.some (hret : 0 ≤ k.ret) (hc : Standard dev c) : Meets dev p c data (some k) := by
  intro k' h
  obtain rfl := Option.some.inj h
  exact .inl ⟨hret, hc⟩

theorem Meets.unmet : Meets dev p c data (Option.some ⟨-1, dev, p, data⟩) := by
  intro k' h
  obtain rfl := Option.some.inj h
  exact .inr ⟨show (-1 : Int) < 0 by decide, rfl⟩

theorem Meets.ite {q : Prop} [Decidable q] (hx : q → Meets dev p c data x)
    (hy : ¬ q → Meets dev p c data y) : Meets dev p c data (if q then x else y) := by
  split
  · next h => exact hx h
  · next h => exact hy h

theorem getDescriptor_meets (hdesc : dev.desc = descXboxGamepad)
    (hreq : c.request = DeviceRequest ||| USB_REQ_GET_DESCRIPTOR) :
    Meets dev p c data (Option.some (handleStandardGetDescriptor dev p c data)) := by
  intro k h
  obtain rfl := Option.some.inj h
  by_cases hret : 0 ≤ (handleStandardGetDescriptor dev p c data).ret
  · exact .inl ⟨hret, .getDescriptor hreq ((handleStandardGetDescriptor_ret hdesc).mp hret)⟩
  · refine .inr ⟨Int.not_le.mp hret, ?_⟩
    rw [handleStandardGetDescriptor] at hret ⊢
    dsimp only at hret ⊢
    split at hret
    · exact absurd (Int.le_refl 0) hret
    · next hpos => rw [if_neg hpos]

theorem setConfiguration_meets
    (hreq : c.request = DeviceOutRequest ||| USB_REQ_SET_CONFIGURATION) :
    Meets dev p c data ((usbDescSetConfig dev c.value).map fun r => ⟨r.1, r.2, p, data⟩) := by
  intro k h
  obtain ⟨r, hr, rfl⟩ := Option.map_eq_some_iff.mp h
  exact .inl ⟨usbDescSetConfig_nonneg hr, .setConfiguration hreq⟩

theorem setInterface_meets (hreq : c.request = InterfaceOutRequest ||| USB_REQ_SET_INTERFACE) :
    Meets dev p c data (Option.some ⟨(usbDescSetInterface dev c.index c.value).1,
      (usbDescSetInterface dev c.index c.value).2, p, data⟩) := by
  obtain ⟨hfound, hret⟩ | hnone := usbDescSetInterface_cases dev c.index c.value
  · exact .some hret.ge (.setInterface hreq hfound)
  · rw [hnone]
    exact .unmet

theorem usbDescHandleControl_meets (hdesc : dev.desc = descXboxGamepad) :
    Meets dev p c data (usbDescHandleControl dev p c data) := by
  have h0 : (0 : Int) ≤ 0 := Int.le_refl 0
  rw [usbDescHandleControl]
  refine .ite (fun hreq => .some h0 (.setAddress hreq)) fun _ => ?_
  refine .ite (fun hreq => getDescriptor_meets hdesc hreq) fun _ => ?_
  refine .ite (fun hreq => .some h0 (.getConfiguration hreq)) fun _ => ?_
  refine .ite (fun hreq => setConfiguration_meets hreq) fun _ => ?_
  refine .ite (fun hreq => .some h0 (.getStatus hreq)) fun _ => ?_
  refine .ite (fun hreq => .ite (fun hv => .some h0 (.clearFeature hreq hv)) fun _ => .unmet) fun _ => ?_
  refine .ite (fun hreq => .ite (fun hv => .some h0 (.setFeature hreq hv)) fun _ => .unmet) fun _ => ?_
  refine .ite (fun hreq => .ite (fun _ => .unmet) fun hi =>
    .some h0 (.getInterface hreq (Nat.lt_of_not_le hi))) fun _ => ?_
  exact .ite (fun hreq => setInterface_meets hreq) fun _ => .unmet

end Meets

theorem usbDescHandleControl_standard (hdesc : dev.desc = descXboxGamepad) (hc : Standard dev c)
    (h : usbDescHandleControl dev p c data = some k) : 0 ≤ k.ret := by
  cases hc with
  | setAddress hreq | getConfiguration hreq | getStatus hreq =>
    simp +decide only [usbDescHandleControl, hreq, reduceIte] at h
    obtain rfl := Option.some.inj h
    exact Int.le_refl 0
  | clearFeature hreq hv | setFeature hreq hv =>
    simp +decide only [usbDescHandleControl, hreq, hv, reduceIte] at h
    obtain rfl := Option.some.inj h
    exact Int.le_refl 0
  | getDescriptor hreq hf =>
    simp +decide only [usbDescHandleControl, hreq, reduceIte] at h
    obtain rfl := Option.some.inj h
    exact (handleStandardGetDescriptor_ret hdesc).mpr hf
  | setConfiguration hreq =>
    simp +decide only [usbDescHandleControl, hreq, reduceIte] at h
    obtain ⟨r, hr, rfl⟩ := Option.map_eq_some_iff.mp h
    exact usbDescSetConfig_nonneg hr
  | getInterface hreq hi =>
    simp +decide only [usbDescHandleControl, hreq, reduceIte] at h
    rw [if_neg (Nat.not_le.mpr hi)] at h
    obtain rfl := Option.some.inj h
    exact Int.le_refl 0
  | setInterface hreq hi =>
    simp +decide only [usbDescHandleControl, hreq, reduceIte] at h
    obtain rfl := Option.some.inj h
    obtain ⟨-, hret⟩ | hnone := usbDescSetInterface_cases dev c.index c.value
    · exact hret.ge
    · rw [usbDescSetInterface] at hnone
      split at hnone
      · next hno => exact absurd hno hi
      · cases hnone

end Standard

/-! ## The requests of the gamepad itself -/

/-- The request is one of those that the gamepad handles after the standard ones, with the value, the
length and the report that it needs. -/
inductive Special (g : XidGamepad) (c : Call) (data : Nat → Byte) : Prop where
  | getReport (h : c.request = ClassInterfaceRequest ||| HID_GET_REPORT)
  | setReport (h : c.request = ClassInterfaceOutRequest ||| HID_SET_REPORT) (hv : c.value = 0x0200)
      (hr : c.length = g.outLength → (data 1).toNat = outputReportSize)
  | getXidDescriptor (h : c.request = VendorInterfaceRequest ||| USB_REQ_GET_DESCRIPTOR)
      (hv : c.value = 0x4200) (hl : descXidXboxGamepad.length ≤ c.length)
  | getCapabilities (h : c.request = VendorInterfaceRequest ||| XID_GET_CAPABILITIES)
      (hv : c.value = 0x0100 ∨ c.value = 0x0200)
  | getHubDescriptor (h : c.request = ClassDeviceRequest ||| USB_REQ_GET_DESCRIPTOR)
  | clearHalt (h : c.request = EndpointOutRequest ||| USB_REQ_CLEAR_FEATURE)

/-- The gamepad knows the request. -/
def Known (g : XidGamepad) (c : Call) (data : Nat → Byte) : Prop :=
  Standard g.dev c ∨ Special g c data

section Special

variable {g : XidGamepad} {p : USBPacket} {c : Call} {data : Nat → Byte}

theorem setReport_iff (hv : c.value = 0x0200) : setReport ⟨g, p, data⟩ c ≠ none ↔
    (c.length = g.outLength → (data 1).toNat = outputReportSize) := by
  rcases setReport_cases ⟨g, p, data⟩ c with ⟨hnone, hbad⟩ | ⟨hstall, hne⟩ |
    ⟨r, hsome, -, hlength, hsize, -, -⟩
  · obtain hvalue | ⟨hlength, hsize⟩ := hbad
    · exact absurd hv hvalue
    · exact iff_of_false (not_not.mpr hnone) fun h => hsize (h hlength)
  · rw [hstall]
    exact iff_of_true (Option.some_ne_none _) fun h => absurd h hne
  · rw [hsome]
    exact iff_of_true (Option.some_ne_none _) fun _ => hsize

theorem setReport_value (hv : c.value ≠ 0x0200) : setReport ⟨g, p, data⟩ c = none := if_neg hv

theorem special_of_handleRequest (h : handleRequest ⟨g, p, data⟩ c ≠ none) : Special g c data := by
  unfold handleRequest at h
  dsimp only at h
  split at h
  · next hreq => exact .getReport hreq
  split at h
  · next hreq =>
    have hv : c.value = 0x0200 := Classical.not_not.mp fun hv => h (setReport_value hv)
    exact .setReport hreq hv ((setReport_iff hv).mp h)
  split at h
  · next hreq =>
    split at h
    · next hv =>
      split at h
      · next hl => exact .getXidDescriptor hreq hv hl
      · exact absurd rfl h
    · exact absurd rfl h
  split at h
  · next hreq =>
    split at h
    · next hv => exact .getCapabilities hreq (.inl hv)
    split at h
    · next hv => exact .getCapabilities hreq (.inr hv)
    · exact absurd rfl h
  split at h
  · next hreq => exact .getHubDescriptor hreq
  split at h
  · next hreq => exact .clearHalt hreq
  · exact absurd rfl h

theorem handleRequest_of_special (h : Special g c data) : handleRequest ⟨g, p, data⟩ c ≠ none := by
  cases h with
  | getReport hreq =>
    simp +decide only [handleRequest, hreq, reduceIte]
    split
    · split
      · exact Option.some_ne_none _
      · exact Option.some_ne_none _
    · exact Option.some_ne_none _
  | setReport hreq hv hr =>
    simp +decide only [handleRequest, hreq, reduceIte]
    exact (setReport_iff hv).mpr hr
  | getXidDescriptor hreq hv hl =>
    simp +decide only [handleRequest, hreq, hv, if_pos hl, reduceIte]
    exact Option.some_ne_none _
  | getCapabilities hreq hv =>
    simp +decide only [handleRequest, hreq, reduceIte]
    split
    · exact Option.some_ne_none _
    · next hno =>
      rw [if_pos (hv.resolve_left hno)]
      exact Option.some_ne_none _
  | getHubDescriptor hreq | clearHalt hreq =>
    simp +decide only [handleRequest, hreq, reduceIte]
    exact Option.some_ne_none _

/-- The control handler comes back exactly from the requests that the gamepad knows. -/
theorem usbXidHandleControl_iff (hdesc : g.dev.desc = descXboxGamepad) :
    usbXidHandleControl g p c data ≠ none ↔ Known g c data := by
  obtain ⟨k, hk, -, -⟩ := usbDescHandleControl_quiet (hdesc ▸ descXboxGamepad_legal) p c data
  rw [usbXidHandleControl, hk, Option.bind_some]
  dsimp only
  obtain ⟨hret, hstandard⟩ | ⟨hret, hunmet⟩ := usbDescHandleControl_meets hdesc k hk
  · rw [if_pos hret]
    exact iff_of_true (Option.some_ne_none _) (.inl hstandard)
  · have hnot : ¬ Standard g.dev c := fun h =>
      absurd (usbDescHandleControl_standard hdesc h hk) (Int.not_le.mpr hret)
    rw [if_neg (Int.not_le.mpr hret), hunmet, Known, or_iff_right hnot]
    exact ⟨special_of_handleRequest, handleRequest_of_special⟩

end Special

/-! ## What requests leave alone -/

theorem usbPacketCopy_status {p q : USBPacket} {ptr ptr' : Nat → Byte} {bytes : Nat}
    (h : usbPacketCopy p ptr bytes = some (q, ptr')) : q.status = p.status := by
  unfold usbPacketCopy at h
  repeat' split at h
  all_goals first
    | (obtain ⟨rfl, -⟩ := Prod.mk.inj (Option.some.inj h); rfl)
    | cases h

/-- The device is as it was, and so is the status of the packet, unless it is a stall. -/
structure Kept (r r' : Served) : Prop where
  dev : r'.gamepad.dev = r.gamepad.dev
  status : r'.pkt.status = r.pkt.status ∨ r'.pkt.status = USB_RET_STALL

section Kept

variable {r r' : Served} {c : Call}

theorem kept_stall : Kept r r.stall := ⟨rfl, .inr rfl⟩

theorem kept_reply {bytes : List Byte} {n : Nat} : Kept r (r.reply bytes n) := ⟨rfl, .inl rfl⟩

theorem setReport_kept (h : setReport r c = some r') : Kept r r' := by
  unfold setReport at h
  dsimp only at h
  repeat' split at h
  all_goals first
    | (obtain rfl := Option.some.inj h; exact kept_stall)
    | (obtain rfl := Option.some.inj h; exact ⟨rfl, .inl rfl⟩)
    | cases h

theorem handleRequest_kept (h : handleRequest r c = some r') : Kept r r' := by
  unfold handleRequest at h
  dsimp only at h
  repeat' split at h
  all_goals first
    | exact setReport_kept h
    | (obtain rfl := Option.some.inj h; exact kept_stall)
    | (obtain rfl := Option.some.inj h; exact kept_reply)
    | (obtain rfl := Option.some.inj h; exact ⟨rfl, .inr rfl⟩)
    | cases h

theorem usbXidHandleControl_kept {g : XidGamepad} {p : USBPacket} {data : Nat → Byte}
    (hdesc : g.dev.desc = descXboxGamepad) (h : usbXidHandleControl g p c data = some r) :
    r.gamepad.dev.desc = descXboxGamepad ∧
      (r.pkt.status = p.status ∨ r.pkt.status = USB_RET_STALL) := by
  obtain ⟨k, hk, hkdesc, hstatus⟩ :=
    usbDescHandleControl_quiet (hdesc ▸ descXboxGamepad_legal) p c data
  rw [usbXidHandleControl, hk, Option.bind_some] at h
  dsimp only at h
  split at h
  · obtain rfl := Option.some.inj h
    exact ⟨hkdesc.trans hdesc, .inl hstatus⟩
  · have hkept := handleRequest_kept h
    rw [hkept.dev]
    exact ⟨hkdesc.trans hdesc, hkept.status.imp_left fun heq => heq.trans hstatus⟩

end Kept

/-! ## Packets to the other endpoints -/

/-- A packet with data is for endpoint 2, and to it has at least the bytes of the report. -/
def Carries (g : XidGamepad) (pid num : Nat) (ioVec : List Byte) : Prop :=
  num = 2 ∧ (pid = USB_TOKEN_OUT → g.outLength ≤ ioVec.length)

section Data

variable {g : XidGamepad} {p : USBPacket} {num : Nat}

theorem usbXidHandleData_iff (hpid : p.pid = USB_TOKEN_IN ∨ p.pid = USB_TOKEN_OUT)
    (hzero : p.actualLength = 0) :
    usbXidHandleData g p num ≠ none ↔ Carries g p.pid num p.ioVec := by
  rw [usbXidHandleData, Carries]
  by_cases hnum : num = 2
  · rw [if_pos hnum, if_pos hnum, and_iff_right hnum]
    obtain hin | hout := hpid
    · rw [if_pos hin, hin]
      exact iff_of_true (Option.some_ne_none _) fun h => absurd h (by decide)
    · rw [if_neg (hout ▸ by decide), if_pos hout, usbPacketCopy, hzero, Nat.zero_add]
      by_cases hroom : g.outLength ≤ p.ioVec.length
      · rw [if_pos hroom]
        dsimp only
        rw [if_pos (.inr hout)]
        exact iff_of_true (Option.some_ne_none _) fun _ => hroom
      · rw [if_neg hroom]
        exact iff_of_false (not_not.mpr rfl) fun h => hroom (h hout)
  · rw [if_neg hnum, if_neg hnum, ite_self, ite_self]
    exact iff_of_false (not_not.mpr rfl) fun h => hnum h.1

theorem usbXidHandleData_kept {q : XidGamepad × USBPacket} (h : usbXidHandleData g p num = some q)
    (hp : p.status = USB_RET_SUCCESS) : q.1.dev = g.dev ∧ Settled q.2.status := by
  unfold usbXidHandleData at h
  split at h
  · split at h
    · obtain rfl := Option.some.inj h
      exact ⟨rfl, show Settled USB_RET_NAK by decide⟩
    · cases h
  split at h
  · split at h
    · obtain ⟨s, hs, rfl⟩ := Option.map_eq_some_iff.mp h
      refine ⟨rfl, ?_⟩
      dsimp only
      rw [usbPacketCopy_status hs, hp]
      decide
    · cases h
  · cases h

end Data

end OpenXbox.Xid.KnownRequests
