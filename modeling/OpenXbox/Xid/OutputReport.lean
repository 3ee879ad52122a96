import OpenXbox.Lib.Run
import OpenXbox.Xid.Gamepad

/-!
# The output report of the gamepad

The length that decides which reports are accepted is a byte of the report itself. A
`SET_REPORT` request checks it after the copy; a packet to the OUT endpoint does not.
-/

namespace OpenXbox.Xid.OutputReport

open OpenXbox.Lib.Run OpenXbox.Lib.Buffer OpenXbox.Usb.Control OpenXbox.Usb.Requests
  OpenXbox.Xid.Gamepad

/-- What the guest sends. The packet is as `USB_ProcessOne` hands it on. -/
inductive Op where
  | control (pid : Nat) (ioVec : List Byte) (c : Call) (data : Nat → Byte)
  | data (pid num : Nat) (ioVec : List Byte)
  | reset

def packet (pid : Nat) (ioVec : List Byte) : USBPacket := ⟨pid, ioVec, 0, USB_RET_SUCCESS, 0⟩

/-- `USB_DeviceReset`, as far as the gamepad's state goes. -/
def deviceReset (g : XidGamepad) : XidGamepad :=
  usbXidHandleReset { g with dev := { g.dev with addr := 0, remoteWakeup := false } }

/-- The gamepad and the status of the packet afterwards. -/
def handle (g : XidGamepad) (op : Op) : Option (XidGamepad × Int) :=
  match op with
  | .control pid ioVec c data =>
    (usbXidHandleControl g (packet pid ioVec) c data).map fun r => (r.gamepad, r.pkt.status)
  | .data pid num ioVec =>
    (usbXidHandleData g (packet pid ioVec) num).map fun r => (r.1, r.2.status)
  | .reset => some (deviceReset g, USB_RET_SUCCESS)

def step (g : XidGamepad) (op : Op) : Option XidGamepad := (handle g op).map Prod.fst

/-- The transfer has come back with success. -/
def accepted (g : XidGamepad) (op : Op) : Bool :=
  match handle g op with
  | some (_, status) => status == USB_RET_SUCCESS
  | none => false

def SET_REPORT : Nat := ClassInterfaceOutRequest ||| HID_SET_REPORT

/-- A SET_REPORT request, or a packet to an OUT endpoint. -/
def IsTransfer : Op → Prop
  | .control _ _ c _ => c.request = SET_REPORT
  | .data pid _ _ => pid = USB_TOKEN_OUT
  | .reset => False

/-- The transfer is for the output report and has all of its bytes. -/
def CarriesReport : Op → Prop
  | .control _ _ c _ => c.value = 0x0200 ∧ c.length = outputReportSize
  | .data _ num ioVec => num = 2 ∧ outputReportSize ≤ ioVec.length
  | .reset => False

/-- How many bytes a transfer copies to `out_state`. -/
def copied (g : XidGamepad) (op : Op) : Nat :=
  if accepted g op then
    match op with
    | .control _ _ c _ => if c.request = SET_REPORT then outputReportSize else 0
    | .data pid _ _ => if pid = USB_TOKEN_OUT then g.outLength else 0
    | .reset => 0
  else 0

/-- The byte of the transfer that goes to `out_state.length`. -/
def lengthByte : Op → Byte
  | .control _ _ _ data => data 1
  | .data _ _ ioVec => ioVec.getD 1 0
  | .reset => 0

structure StepOk (g : XidGamepad) (op : Op) : Prop where
  length : ∀ g', step g op = some g' → g'.outLength = outputReportSize
  accepts : IsTransfer op → (accepted g op = true ↔ CarriesReport op)
  copies : copied g op ≤ outputReportSize

/-- A transfer that carries a report has the size of the report in it. -/
def Fits (_ : XidGamepad) (op : Op) : Prop :=
  IsTransfer op → CarriesReport op → (lengthByte op).toNat = outputReportSize

section Refused

variable {g : XidGamepad} {op : Op}

/-- A transfer that is refused is right when it carries no report. -/
theorem stepOk_refused (hrefused : accepted g op = false)
    (hlength : ∀ g', step g op = some g' → g'.outLength = outputReportSize) (htransfer : IsTransfer op) :
    StepOk g op ↔ ¬ CarriesReport op := by
  constructor
  · intro hok hcarries
    have hyes := (hok.accepts htransfer).mpr hcarries
    exact Bool.false_ne_true (hrefused.symm.trans hyes)
  · intro hnot
    refine ⟨hlength, fun _ => ?_, ?_⟩
    · rw [hrefused]
      exact iff_of_false Bool.false_ne_true hnot
    · rw [copied.eq_def, hrefused, if_neg Bool.false_ne_true]
      exact Nat.zero_le _

/-- So is one that fails an assertion. -/
theorem stepOk_failed (hhandle : handle g op = none) (htransfer : IsTransfer op) :
    StepOk g op ↔ ¬ CarriesReport op := by
  refine stepOk_refused (by rw [accepted, hhandle]) (fun g' hg' => ?_) htransfer
  rw [step, hhandle] at hg'
  cases hg'

end Refused

section Control

variable {g : XidGamepad} {p : USBPacket} {c : Call} {data : Nat → Byte}

theorem usbDescHandleControl_setReport (dev : Device) (h : c.request = SET_REPORT) :
    usbDescHandleControl dev p c data = some ⟨-1, dev, p, data⟩ := by
  have hne (r : Nat) (hr : SET_REPORT ≠ r) : ¬ c.request = r := fun he => hr (h.symm.trans he)
  rw [usbDescHandleControl]
  rw [if_neg (hne _ (by decide)), if_neg (hne _ (by decide)), if_neg (hne _ (by decide)),
    if_neg (hne _ (by decide)), if_neg (hne _ (by decide)), if_neg (hne _ (by decide)),
    if_neg (hne _ (by decide)), if_neg (hne _ (by decide)), if_neg (hne _ (by decide))]

theorem usbXidHandleControl_setReport (h : c.request = SET_REPORT) :
    usbXidHandleControl g p c data = setReport ⟨g, p, data⟩ c := by
  have hget : ¬ c.request = ClassInterfaceRequest ||| HID_GET_REPORT := by
    rw [h]
    decide
  have hneg : ¬ ((-1 : Int) ≥ 0) := by decide
  rw [usbXidHandleControl, usbDescHandleControl_setReport g.dev h, Option.bind_some]
  dsimp only
  rw [if_neg hneg, handleRequest, if_neg hget]
  exact if_pos h

/-- No other request stores anything in the report. -/
theorem handleRequest_out {r r' : Served} (hne : c.request ≠ SET_REPORT)
    (h : handleRequest r c = some r') : r'.gamepad = r.gamepad := by
  rw [handleRequest] at h
  have hset : ¬ c.request = ClassInterfaceOutRequest ||| HID_SET_REPORT := hne
  rw [if_neg hset] at h
  repeat' split at h
  all_goals first
    | (obtain rfl := Option.some.inj h; rfl)
    | cases h

theorem usbXidHandleControl_out {r : Served} (hne : c.request ≠ SET_REPORT)
    (h : usbXidHandleControl g p c data = some r) : r.gamepad.out = g.out := by
  rw [usbXidHandleControl] at h
  obtain ⟨k, -, hk⟩ := Option.bind_eq_some_iff.mp h
  dsimp only at hk
  split at hk
  · obtain rfl := Option.some.inj hk
    rfl
  · rw [handleRequest_out hne hk]

/-- A report of the right length is stored, unless the length in it is a wrong one. -/
theorem setReport_cases (r : Served) (c : Call) :
    (setReport r c = none ∧ (c.value ≠ 0x0200 ∨
        (c.length = r.gamepad.outLength ∧ (r.data 1).toNat ≠ outputReportSize))) ∨
      (setReport r c = some r.stall ∧ c.length ≠ r.gamepad.outLength) ∨
      (∃ r', setReport r c = some r' ∧ c.value = 0x0200 ∧ c.length = r.gamepad.outLength ∧
        (r.data 1).toNat = outputReportSize ∧ r'.gamepad.outLength = outputReportSize ∧
        r'.pkt.status = r.pkt.status) := by
  have hbyte : put r.gamepad.out 0 (slice r.data 0 outputReportSize) 1 = r.data 1 := by
    rw [put_slice, if_pos (by decide)]
  rw [setReport]
  by_cases hvalue : c.value = 0x0200
  · rw [if_pos hvalue]
    by_cases hlen : c.length = r.gamepad.outLength
    · rw [if_pos hlen]
      dsimp only
      rw [hbyte]
      by_cases hsize : (r.data 1).toNat = outputReportSize
      · rw [if_pos hsize]
        refine .inr (.inr ⟨_, rfl, hvalue, hlen, hsize, ?_, rfl⟩)
        rw [XidGamepad.outLength]
        exact (congrArg BitVec.toNat hbyte).trans hsize
      · rw [if_neg hsize]
        exact .inl ⟨rfl, .inr ⟨hlen, hsize⟩⟩
    · rw [if_neg hlen]
      exact .inr (.inl ⟨rfl, hlen⟩)
  · rw [if_neg hvalue]
    exact .inl ⟨rfl, .inl hvalue⟩

theorem stepOk_setReport (hlen : g.outLength = outputReportSize) (h : c.request = SET_REPORT)
    (pid : Nat) (ioVec : List Byte) :
    StepOk g (.control pid ioVec c data) ↔ Fits g (.control pid ioVec c data) := by
  have hcontrol : usbXidHandleControl g (packet pid ioVec) c data =
      setReport ⟨g, packet pid ioVec, data⟩ c := usbXidHandleControl_setReport h
  rcases setReport_cases ⟨g, packet pid ioVec, data⟩ c with ⟨hnone, hbad⟩ | ⟨hstall, hne⟩ |
    ⟨r', hsome, hvalue, hlength, hsize, hout, hstatus⟩
  · -- an assertion fails
    have hhandle : handle g (.control pid ioVec c data) = none := by
      rw [handle, hcontrol, hnone]
      rfl
    rw [stepOk_failed hhandle h]
    constructor
    · exact fun hnot _ hcarries => absurd hcarries hnot
    · intro hfits hcarries
      rcases hbad with hvalue | ⟨-, hsize⟩
      · exact hvalue hcarries.1
      · exact hsize (hfits h hcarries)
  · have hrefused : accepted g (.control pid ioVec c data) = false := by
      rw [accepted, handle, hcontrol, hstall]
      rfl
    have hlength (g' : XidGamepad) (hg' : step g (.control pid ioVec c data) = some g') :
        g'.outLength = outputReportSize := by
      rw [step, handle, hcontrol, hstall] at hg'
      obtain rfl := Option.some.inj hg'
      exact hlen
    have hnot : ¬ CarriesReport (.control pid ioVec c data) :=
      fun hcarries => hne (hcarries.2.trans hlen.symm)
    have hok := (stepOk_refused hrefused hlength h).mpr hnot
    exact iff_of_true hok fun _ hcarries => absurd hcarries hnot
  · have hhandle : handle g (.control pid ioVec c data) = some (r'.gamepad, USB_RET_SUCCESS) := by
      rw [handle, hcontrol, hsome, Option.map_some, hstatus]
      rfl
    have haccepted : accepted g (.control pid ioVec c data) = true := by
      rw [accepted, hhandle]
      rfl
    refine iff_of_true ⟨fun g' hg' => ?_, fun _ => ?_, ?_⟩ fun _ _ => hsize
    · rw [step, hhandle] at hg'
      obtain rfl := Option.some.inj hg'
      exact hout
    · exact iff_of_true haccepted ⟨hvalue, hlength.trans hlen⟩
    · rw [copied, haccepted, if_pos rfl]
      exact (if_pos h).le

/-- Any other request leaves the report alone. -/
theorem stepOk_request (hlen : g.outLength = outputReportSize) (hne : c.request ≠ SET_REPORT)
    (pid : Nat) (ioVec : List Byte) : StepOk g (.control pid ioVec c data) := by
  refine ⟨fun g' hg' => ?_, fun hset => absurd hset hne, ?_⟩
  · obtain ⟨⟨g'', status⟩, hh, rfl⟩ := Option.map_eq_some_iff.mp hg'
    obtain ⟨r, hr, he⟩ := Option.map_eq_some_iff.mp hh
    obtain ⟨rfl, -⟩ := Prod.mk.inj he
    rw [XidGamepad.outLength, usbXidHandleControl_out hne hr]
    exact hlen
  · simp only [copied, if_neg hne, ite_self]
    exact Nat.zero_le _

end Control

section Data

variable {g : XidGamepad}

/-- A packet to the OUT endpoint is copied when it has as many bytes as the stored length. -/
theorem handle_out (g : XidGamepad) (ioVec : List Byte) :
    handle g (.data USB_TOKEN_OUT 2 ioVec) =
      if g.outLength ≤ ioVec.length then
        some ({ g with out := fun i => if i < g.outLength then ioVec.getD i 0 else g.out i },
          USB_RET_SUCCESS)
      else none := by
  have hnotIn : ¬ USB_TOKEN_OUT = USB_TOKEN_IN := by decide
  have hpid : (packet USB_TOKEN_OUT ioVec).pid = USB_TOKEN_OUT := rfl
  rw [handle, usbXidHandleData, hpid, if_neg hnotIn, if_pos rfl, if_pos rfl, usbPacketCopy]
  have hlength : (packet USB_TOKEN_OUT ioVec).actualLength + g.outLength = g.outLength := Nat.zero_add _
  rw [hlength]
  by_cases hfits : g.outLength ≤ ioVec.length
  · have hroom : g.outLength ≤ (packet USB_TOKEN_OUT ioVec).ioVec.length := hfits
    rw [if_pos hroom, if_pos hfits]
    dsimp only
    rw [if_pos (.inr hpid)]
    simp only [Option.map_some, packet, Nat.zero_add]
  · have hroom : ¬ g.outLength ≤ (packet USB_TOKEN_OUT ioVec).ioVec.length := hfits
    rw [if_neg hroom, if_neg hfits]
    rfl

theorem handle_out_other (g : XidGamepad) {num : Nat} (hnum : num ≠ 2) (ioVec : List Byte) :
    handle g (.data USB_TOKEN_OUT num ioVec) = none := by
  have hnotIn : ¬ USB_TOKEN_OUT = USB_TOKEN_IN := by decide
  have hpid : (packet USB_TOKEN_OUT ioVec).pid = USB_TOKEN_OUT := rfl
  rw [handle, usbXidHandleData, hpid, if_neg hnotIn, if_pos rfl, if_neg hnum]
  rfl

/-- A packet that is not an OUT packet leaves the gamepad as it is. -/
theorem step_not_out {pid : Nat} (hpid : pid ≠ USB_TOKEN_OUT) (num : Nat) (ioVec : List Byte)
    {g' : XidGamepad} (h : step g (.data pid num ioVec) = some g') : g' = g := by
  have hdata : (packet pid ioVec).pid = pid := rfl
  rw [step, handle, usbXidHandleData, hdata, if_neg hpid] at h
  by_cases hin : pid = USB_TOKEN_IN
  · rw [if_pos hin] at h
    by_cases hnum : num = 2
    · rw [if_pos hnum] at h
      obtain rfl := Option.some.inj h
      rfl
    · rw [if_neg hnum] at h
      cases h
  · rw [if_neg hin] at h
    cases h

theorem stepOk_data (hlen : g.outLength = outputReportSize) (pid num : Nat) (ioVec : List Byte) :
    StepOk g (.data pid num ioVec) ↔ Fits g (.data pid num ioVec) := by
  by_cases hpid : pid = USB_TOKEN_OUT
  · subst hpid
    by_cases hcarries : CarriesReport (.data USB_TOKEN_OUT num ioVec)
    · obtain ⟨rfl, hroom⟩ := hcarries
      have hhandle := handle_out g ioVec
      rw [if_pos (hlen.trans_le hroom)] at hhandle
      have haccepted : accepted g (.data USB_TOKEN_OUT 2 ioVec) = true := by
        rw [accepted, hhandle]
        rfl
      have hbyte : (if 1 < g.outLength then ioVec.getD 1 0 else g.out 1) = ioVec.getD 1 0 :=
        if_pos (by rw [hlen]; decide)
      constructor
      · intro hok _ _
        have hnext := hok.length _ (by rw [step, hhandle]; rfl)
        rw [← hnext]
        exact congrArg BitVec.toNat hbyte.symm
      · intro hfits
        have hsize : (ioVec.getD 1 0).toNat = outputReportSize := hfits rfl ⟨rfl, hroom⟩
        refine ⟨fun g' hg' => ?_, fun _ => iff_of_true haccepted ⟨rfl, hroom⟩, ?_⟩
        · rw [step, hhandle] at hg'
          obtain rfl := Option.some.inj hg'
          exact (congrArg BitVec.toNat hbyte).trans hsize
        · rw [copied, haccepted, if_pos rfl]
          exact hlen.le
    · have hhandle : handle g (.data USB_TOKEN_OUT num ioVec) = none := by
        by_cases hnum : num = 2
        · subst hnum
          have hshort : ¬ g.outLength ≤ ioVec.length := fun hroom => hcarries ⟨rfl, hlen ▸ hroom⟩
          rw [handle_out, if_neg hshort]
        · exact handle_out_other g hnum ioVec
      exact iff_of_true ((stepOk_failed hhandle rfl).mpr hcarries) fun _ hc => absurd hc hcarries
  · refine iff_of_true ⟨fun g' hg' => ?_, fun hout => absurd hout hpid, ?_⟩ fun hout => absurd hout hpid
    · rw [step_not_out hpid num ioVec hg']
      exact hlen
    · simp only [copied, if_neg hpid, ite_self]
      exact Nat.zero_le _

end Data

/-! ## Runs -/

theorem stepOk_iff_fits {g : XidGamepad} (hlen : g.outLength = outputReportSize) (op : Op) :
    StepOk g op ↔ Fits g op := by
  cases op with
  | control pid ioVec c data =>
    by_cases hset : c.request = SET_REPORT
    · exact stepOk_setReport hlen hset pid ioVec
    · exact iff_of_true (stepOk_request hlen hset pid ioVec) fun hreq => absurd hreq hset
  | data pid num ioVec => exact stepOk_data hlen pid num ioVec
  | reset =>
    refine iff_of_true ⟨fun g' hg' => ?_, fun hreset => absurd hreset id, ?_⟩ fun hreset => absurd hreset id
    · obtain rfl := Option.some.inj hg'
      exact hlen
    · simp only [copied, ite_self]
      exact Nat.zero_le _

/-- From the gamepad as it is initialised, every transfer does what it should, exactly when
every report that is carried has its own size in it. -/
theorem stepsOk_iff_fits (strings : List (Nat × List Byte)) (ops : List Op) :
    Guarded step StepOk (usbXidInitfn strings) ops ↔ Guarded step Fits (usbXidInitfn strings) ops := by
  apply guarded_congr (I := fun g => g.outLength = outputReportSize)
  · exact fun g op hlen => stepOk_iff_fits hlen op
  · exact fun g op g' hlen hfits hg' => ((stepOk_iff_fits hlen op).mpr hfits).length g' hg'
  · rfl

/-- A report to the OUT endpoint that gives its size as 200. -/
def longReport : Op := .data USB_TOKEN_OUT 2 [0, 200, 0, 0, 0, 0]

/-- The next report is accepted from 200 bytes on. -/
theorem longReport_changes_length : ¬ Guarded step StepOk (usbXidInitfn []) [longReport] := by
  intro h
  have hlength := h.1.length _ rfl
  exact absurd hlength (by decide)

end OpenXbox.Xid.OutputReport
