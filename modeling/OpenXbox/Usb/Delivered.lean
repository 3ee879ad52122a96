import OpenXbox.Usb.Ports

/-!
# What a packet brings back

`USB_PacketCopy` asserts that a copy stays within the packet, and what is copied on endpoint 0 is in
`DataBuffer`, or the copy ends in an overrun. So a packet that succeeds has no more bytes than the
data buffer, and none past the end of its own.
-/

namespace OpenXbox.Usb.Delivered

open OpenXbox.Lib OpenXbox.Usb.Control OpenXbox.Usb.ControlBound OpenXbox.Usb.Packet OpenXbox.Usb.Ports
open OpenXbox.Usb.Hub (usbHubHandleData)
open OpenXbox.Xid.Gamepad (usbXidHandleData)

/-- A packet with a buffer of `n` bytes: when it succeeds it has at most as many, and no more than
there are in a data buffer. -/
structure Within (n : Nat) (p : USBPacket) : Prop where
  length : p.ioVec.length = n
  delivered : p.status = USB_RET_SUCCESS → p.actualLength ≤ n ∧ p.actualLength ≤ dataBufferSize

theorem Within.of_failed {n : Nat} {p : USBPacket} (length : p.ioVec.length = n)
    (h : p.status ≠ USB_RET_SUCCESS) : Within n p :=
  ⟨length, fun hok => absurd hok h⟩

theorem Within.of_empty {n : Nat} {p : USBPacket} (length : p.ioVec.length = n)
    (hzero : p.actualLength = 0) : Within n p :=
  ⟨length, fun _ => hzero ▸ ⟨Nat.zero_le _, Nat.zero_le _⟩⟩

theorem usbPacketCopy_within {p q : USBPacket} {ptr after : Nat → Byte} {bytes : Nat}
    (hzero : p.actualLength = 0) (hsize : bytes ≤ dataBufferSize)
    (h : usbPacketCopy p ptr bytes = some (q, after)) : Within p.ioVec.length q := by
  have hcopied : u32 (p.actualLength + bytes) ≤ bytes := by
    rw [hzero, Nat.zero_add]
    exact Nat.mod_le _ _
  rw [usbPacketCopy] at h
  split at h
  · next hroom =>
    have hdelivered : u32 (p.actualLength + bytes) ≤ p.ioVec.length ∧
        u32 (p.actualLength + bytes) ≤ dataBufferSize :=
      ⟨hcopied.trans ((Nat.le_add_left _ _).trans hroom), hcopied.trans hsize⟩
    dsimp only at h
    split at h
    · cases h
      exact ⟨rfl, fun _ => hdelivered⟩
    split at h
    · cases h
      refine ⟨?_, fun _ => hdelivered⟩
      rw [List.length_append, List.length_append, List.length_take, List.length_map, List.length_range,
        List.length_drop]
      omega
    · cases h
      exact ⟨rfl, fun _ => hdelivered⟩
  · cases h

/-! ## Endpoint 0 -/

/-- A result whose packet is within its buffer, unless an assertion fails or a copy overruns. -/
def Fits (n : Nat) (r : Result) : Prop := ∀ f, r = .ok f → overruns f.log = false → Within n f.pkt

section Control

variable {n : Nat} {f : Frame} {h : Handler}

theorem Fits.ok (hf : Within n f.pkt) : Fits n (.ok f) := by
  intro g hg _
  cases hg
  exact hf

theorem Fits.ite {c : Prop} [Decidable c] {r r' : Result} (ht : c → Fits n r) (hf : ¬ c → Fits n r') :
    Fits n (if c then r else r') := by
  split
  · next hc => exact ht hc
  · next hc => exact hf hc

theorem Fits.stall (hlen : f.pkt.ioVec.length = n) : Fits n (.ok f.stall) :=
  .ok (.of_failed hlen (show USB_RET_STALL ≠ USB_RET_SUCCESS by decide))

/-- A copy that does not overrun. -/
theorem copyData_within {g : Frame} {offset bytes : Nat} (hzero : f.pkt.actualLength = 0)
    (h : f.copyData offset bytes = .ok g) (hlog : overruns g.log = false) :
    Within f.pkt.ioVec.length g.pkt := by
  rw [Frame.copyData] at h
  split at h
  · cases h
  · next hcopy =>
    cases h
    have hinside := List.any_eq_false.mp hlog (.copy offset bytes) (List.mem_append_right _ List.mem_cons_self)
    have hsize : offset + bytes ≤ dataBufferSize := by simpa using hinside
    exact usbPacketCopy_within hzero (by omega) hcopy

theorem dataStage_fits (hlen : f.pkt.ioVec.length = n) (hzero : f.pkt.actualLength = 0) :
    Fits n (dataStage f) := by
  rw [dataStage]
  dsimp only
  cases hcopy : f.copyData f.dev.setupIndex f.stageLen with
  | error log =>
    intro f' hf'
    cases hf'
  | ok g =>
    have hwithin (hlog : overruns g.log = false) : Within n g.pkt := hlen ▸ copyData_within hzero hcopy hlog
    refine .ite (fun _ => ?_) fun _ => ?_
    · intro f' hf' hlog
      cases hf'
      exact hwithin hlog
    · intro f' hf' hlog
      cases hf'
      exact hwithin hlog

theorem doTokenIn_fits (hlen : f.pkt.ioVec.length = n) (hzero : f.pkt.actualLength = 0) :
    Fits n (doTokenIn h f) := by
  have hnone : Within n f.pkt := .of_empty hlen hzero
  rw [doTokenIn]
  split
  · refine .ite (fun _ => .ite (fun hwait => .ok (.of_failed hlen ?_)) fun _ => .ok (.of_empty hlen rfl))
      fun _ => .ok hnone
    rw [hwait]
    decide
  · exact .ite (fun _ => dataStage_fits hlen hzero) fun _ => .stall hlen
  · exact .stall hlen

theorem doTokenOut_fits (hlen : f.pkt.ioVec.length = n) (hzero : f.pkt.actualLength = 0) :
    Fits n (doTokenOut f) := by
  have hnone : Within n f.pkt := .of_empty hlen hzero
  rw [doTokenOut]
  split
  · exact .ite (fun _ => .ok hnone) fun _ => .ok hnone
  · exact .ite (fun _ => dataStage_fits hlen hzero) fun _ => .stall hlen
  · exact .stall hlen

/-- A request has eight bytes, and so has the packet. -/
theorem setupStage_fits (hlen : f.pkt.ioVec.length = 8) : Fits 8 (setupStage h f) := by
  have hlimited (g : Frame) : g.limitLength.pkt = g.pkt := by
    rw [Frame.limitLength]
    split
    · rfl
    · rfl
  have hwithin {p : USBPacket} (hp : p.ioVec.length = 8) (h8 : p.actualLength = 8) : Within 8 p :=
    ⟨hp, fun _ => ⟨h8.le, h8.le.trans (by decide)⟩⟩
  rw [setupStage]
  refine .ite (fun _ => .ite (fun hfailed => .ok (.of_failed ?_ hfailed)) fun _ => .ok (hwithin ?_ rfl))
    fun _ => .ite (fun _ => .stall hlen) fun _ =>
      .ite (fun _ => .ok (hwithin hlen rfl)) fun _ => .ok (hwithin hlen rfl)
  · split
    · exact hlen
    · exact hlen
  · show (Frame.limitLength _).pkt.ioVec.length = 8
    rw [hlimited]
    split
    · exact hlen
    · exact hlen

/-- A packet without a parameter is within its buffer. -/
theorem process_fits {op : Op} (hparameter : op.parameter = 0) (s : XboxDeviceState) :
    Fits op.ioVec.length (process s op) := by
  by_cases hsetup : op.isSetup
  · rw [process_setup hsetup, hsetup.2.2]
    exact setupStage_fits hsetup.2.2
  · rw [process_eq hparameter]
    refine .ite (fun hpid => ?_) fun _ => .ite (fun _ => doTokenIn_fits rfl rfl) fun _ =>
      .ite (fun _ => doTokenOut_fits rfl rfl) fun _ => .stall rfl
    have hsize : (op.frame s).pkt.ioVec.length ≠ 8 := fun hsize => hsetup ⟨hparameter, hpid, hsize⟩
    rw [usbDoTokenSetup, if_pos hsize]
    exact .stall rfl

end Control

/-! ## Packets for a device -/

section Device

variable {d : XboxDevice} {attached : Nat → Bool} {pid ep : Nat} {ioVec : List Byte} {r : Processed}

theorem processControl_within (h : d.processControl attached pid ioVec = .ok r) :
    Within ioVec.length r.pkt := by
  rw [XboxDevice.processControl] at h
  split at h
  · cases h
  split at h
  · cases h
  · next hprocess =>
    split at h
    · cases h
    · next hlog =>
      cases h
      exact process_fits (show (d.op attached pid ioVec).parameter = 0 from rfl) d.control _ hprocess
        (Bool.eq_false_iff.mpr hlog)

theorem handleData_within {k k' : USBDeviceClass} {p q : USBPacket} (hzero : p.actualLength = 0)
    (h : k.handleData p ep = .ok (k', q)) : Within p.ioVec.length q := by
  cases k with
  | gamepad g =>
    rw [USBDeviceClass.handleData] at h
    split at h
    · cases h
    · next hdata =>
      split at h
      · cases h
      · next hout =>
        cases h
        rw [usbXidHandleData] at hdata
        split at hdata
        · split at hdata
          · cases hdata
            exact .of_empty rfl hzero
          · cases hdata
        split at hdata
        · next hpid =>
          split at hdata
          · obtain ⟨⟨q, out⟩, hcopy, heq⟩ := Option.map_eq_some_iff.mp hdata
            cases heq
            have hsize : g.outLength ≤ outStateSize := Nat.not_lt.mp fun hlt => hout ⟨hpid, hlt⟩
            exact usbPacketCopy_within hzero (hsize.trans (by decide)) hcopy
          · cases hdata
        · cases hdata
  | hub hub =>
    rw [USBDeviceClass.handleData] at h
    split at h
    · cases h
    · next hdata =>
      cases h
      rw [usbHubHandleData] at hdata
      split at hdata
      · split at hdata
        · dsimp only at hdata
          split at hdata
          · cases hdata
            exact .of_empty rfl hzero
          · obtain ⟨⟨q, out⟩, hcopy, rfl⟩ := Option.map_eq_some_iff.mp hdata
            refine usbPacketCopy_within hzero ?_ hcopy
            split
            · decide
            · decide
        · cases hdata
          exact .of_empty rfl hzero
      · cases hdata
        exact .of_empty rfl hzero

theorem processData_within (h : d.processData pid ep ioVec = .ok r) : Within ioVec.length r.pkt := by
  rw [XboxDevice.processData] at h
  cases hdata : d.klass.handleData ⟨pid, ioVec, 0, USB_RET_SUCCESS, 0⟩ ep with
  | error e =>
    rw [hdata] at h
    cases h
  | ok s =>
    rw [hdata] at h
    cases h
    exact handleData_within rfl hdata

theorem handlePacket_within (h : d.handlePacket attached pid ep ioVec = .ok r) :
    Within ioVec.length r.pkt := by
  rw [XboxDevice.handlePacket] at h
  split at h
  · cases h
  split at h
  · cases h
  split at h
  · cases h
  · next hone =>
    split at h
    · cases h
    · cases h
      rw [XboxDevice.processOne] at hone
      split at hone
      · exact processControl_within hone
      · exact processData_within hone

/-- A packet for an address comes back within its buffer, from whatever device is there. -/
theorem handle_within {b b' : Bus} {addr : Byte} {pkt : USBPacket}
    (h : b.handle addr pid ep ioVec = .ok (b', pkt)) : Within ioVec.length pkt := by
  rw [Bus.handle] at h
  split at h
  · cases h
    exact .of_failed rfl (show USB_RET_NODEV ≠ USB_RET_SUCCESS by decide)
  · next place d _ =>
    cases hpacket : d.handlePacket (b.attached place) pid ep ioVec with
    | error e =>
      rw [hpacket] at h
      cases h
    | ok r =>
      rw [hpacket] at h
      cases h
      exact handlePacket_within hpacket

end Device

end OpenXbox.Usb.Delivered
