import OpenXbox.Lib.LastMatch
import OpenXbox.Usb.Packet

/-!
# Selecting a configuration

What a configuration describes, as a function of its descriptors alone, against the device that
`USBDesc_SetConfig` leaves behind. The search for a configuration runs to the end of the list,
interfaces that are not found keep their slots, and endpoints are only set up again together with
an interface.
-/

namespace OpenXbox.Usb.Configurations

open OpenXbox.Lib.LastMatch OpenXbox.Usb.Control OpenXbox.Usb.Requests
open OpenXbox.Usb.Descriptors (USBDescConfig USBDescIface USBDescEndpoint)
open OpenXbox.Usb.Packet (USB_MAX_ENDPOINTS)
open OpenXbox.Xid.Gamepad (usbXidInitfn)

/-! ## What descriptors describe -/

def configurations (dev : Device) : List USBDescConfig :=
  (List.range dev.desc.full.bNumConfigurations.toNat).map dev.desc.full.confs

def hasValue (value : Nat) (c : USBDescConfig) : Bool := c.bConfigurationValue.toNat == value

/-- The setting 0 of an interface, if it is one of those that the configuration counts. -/
def interfaceOf (c : USBDescConfig) (nif : Nat) : Option USBDescIface :=
  if nif < c.bNumInterfaces.toNat then
    ((List.range c.nif.toNat).map c.ifs).find? fun iface =>
      iface.bInterfaceNumber.toNat == nif && iface.bAlternateSetting.toNat == 0
  else none

/-- The endpoints of the first `n` interfaces, each with its interface. -/
def endpointDescs (ifaces : Nat → Option USBDescIface) (n : Nat) :
    List (USBDescIface × USBDescEndpoint) :=
  (List.range n).flatMap fun i => (ifaces i).elim [] fun iface =>
    (List.range iface.bNumEndpoints.toNat).map fun e => (iface, iface.eps e)

/-- A descriptor is about the endpoint that a token finds. -/
def addresses (pid ep : Nat) (d : USBDescIface × USBDescEndpoint) : Bool :=
  (d.2.bEndpointAddress &&& 0xF).toNat == ep &&
    (ep == 0 || decide (d.2.bEndpointAddress &&& USB_DIR_IN ≠ 0) == decide (pid = USB_TOKEN_IN))

def endpointFrom (d : USBDescIface × USBDescEndpoint) : USBEndpoint :=
  ⟨d.2.bmAttributes &&& 0x03, d.1.bInterfaceNumber, (d.2.wMaxPacketSize &&& 0x7FF).toNat⟩

def endpointAt (eps : Endpoints) (pid ep : Nat) : USBEndpoint :=
  if ep = 0 then eps.ctl else if pid = USB_TOKEN_IN then eps.epIn (ep - 1) else eps.epOut (ep - 1)

/-- An endpoint as the last descriptor about it has it; one without a descriptor is unused. -/
def endpointIn (ds : List (USBDescIface × USBDescEndpoint)) (pid ep : Nat) : USBEndpoint :=
  (lastMatch (addresses pid ep) ds).elim (endpointAt usbEpReset pid ep) endpointFrom

/-- No endpoint but the one for control transfers is in use. -/
def Unused (eps : Endpoints) : Prop :=
  ∀ pid ep, ep ≤ USB_MAX_ENDPOINTS → endpointAt eps pid ep = endpointAt usbEpReset pid ep

/-- A configuration, or none, is the current one, and the interfaces and endpoints are those it
describes. -/
structure Holds (dev : Device) (value : Nat) (selected : Option USBDescConfig) : Prop where
  configuration : dev.configuration = value
  config : dev.config = selected
  numInterfaces : dev.numInterfaces = selected.elim 0 fun c => c.bNumInterfaces.toNat
  interfaces : ∀ i < USB_MAX_INTERFACES,
    dev.ifaces i = (selected.bind fun c => interfaceOf c i) ∧ dev.altSetting i = 0
  endpoints : ∀ pid ep, ep ≤ USB_MAX_ENDPOINTS → endpointAt dev.endpoints pid ep =
    endpointIn (selected.elim [] fun c => endpointDescs (interfaceOf c) c.bNumInterfaces.toNat) pid ep

/-- The value is that for no configuration or one of the list has it. -/
def Known (dev : Device) (value : Nat) : Prop :=
  value = 0 ∨ ∃ c ∈ configurations dev, hasValue value c

/-- What a value selects. -/
def Selects (dev : Device) (value : Nat) (config : Option USBDescConfig) : Prop :=
  (value = 0 ∧ config = none) ∨
    value ≠ 0 ∧ ∃ c ∈ configurations dev, hasValue value c ∧ config = some c

/-- A result of SET_CONFIGURATION is as it should be. -/
structure SetsConfiguration (dev : Device) (value : Nat) (r : Int × Device) : Prop where
  succeeds : r.1 = 0 ↔ Known dev value
  selected : r.1 = 0 → ∃ config, Selects dev value config ∧ Holds r.2 value config
  refused : r.1 ≠ 0 → r.1 < 0 ∧ r.2 = dev

/-- Nothing is left of what the device held before when it takes up a configuration. -/
structure Fresh (dev : Device) (c : USBDescConfig) : Prop where
  slots : ∀ i < c.bNumInterfaces.toNat, interfaceOf c i = none →
    dev.ifaces i = none ∧ dev.altSetting i = 0
  endpoints : (∀ i < c.bNumInterfaces.toNat, interfaceOf c i = none) → Unused dev.endpoints

/-- The requests that are met as they should be. -/
def Settable (dev : Device) (value : Nat) : Prop :=
  (value = 0 ∧ Unused dev.endpoints) ∨
    value ≠ 0 ∧
      (∀ c ∈ configurations dev, hasValue value c → c.bNumInterfaces.toNat ≤ USB_MAX_INTERFACES) ∧
      ∃ c, lastMatch (hasValue value) (configurations dev) = some c ∧ Fresh dev c

/-! ## Endpoints -/

theorem endpointAt_init (eps : Endpoints) (d : USBDescIface × USBDescEndpoint) (pid ep : Nat) :
    endpointAt (eps.init d.1 d.2) pid ep =
      if addresses pid ep d then endpointFrom d else endpointAt eps pid ep := by
  have hpid : USB_TOKEN_OUT ≠ USB_TOKEN_IN := by decide
  unfold Endpoints.init Endpoints.set addresses endpointAt endpointFrom
  dsimp only
  generalize (d.2.bEndpointAddress &&& 0xF).toNat = num
  generalize d.2.bEndpointAddress &&& USB_DIR_IN = dir
  by_cases hnum : num = 0
  · by_cases hep : ep = 0
    · simp [hnum, hep]
    · simp [hnum, hep, Ne.symm hep]
  · by_cases hep : ep = 0
    · subst hep
      by_cases hdir : dir = 0#8 <;> simp [hnum, hdir, hpid]
    · have hidx : ep - 1 = num - 1 ↔ num = ep := by omega
      by_cases hdir : dir = 0#8 <;> by_cases hin : pid = USB_TOKEN_IN <;>
        simp [hnum, hep, hdir, hin, hpid, hidx]

/-- The endpoints are those of the interfaces in use. -/
theorem endpointAt_usbDescEpInit (dev : Device) (pid ep : Nat) :
    endpointAt (usbDescEpInit dev).endpoints pid ep =
      endpointIn (endpointDescs dev.ifaces dev.numInterfaces) pid ep := by
  have hlist : (usbDescEpInit dev).endpoints =
      (endpointDescs dev.ifaces dev.numInterfaces).foldl (fun eps d => eps.init d.1 d.2) usbEpReset := by
    rw [endpointDescs, List.foldl_flatMap]
    refine congrArg (fun f => List.foldl f usbEpReset (List.range dev.numInterfaces)) ?_
    funext eps i
    cases dev.ifaces i with
    | none => rfl
    | some iface => simp only [Option.elim_some, List.foldl_map]
  have hwrite (eps : Endpoints) (d : USBDescIface × USBDescEndpoint) :=
    endpointAt_init eps d pid ep
  rw [hlist, endpointIn]
  exact foldl_overwrite (fun eps => endpointAt eps pid ep)
    (fun eps (d : USBDescIface × USBDescEndpoint) => eps.init d.1 d.2) hwrite _ _

theorem endpointDescs_congr {f g : Nat → Option USBDescIface} {n : Nat}
    (h : ∀ i < n, f i = g i) : endpointDescs f n = endpointDescs g n :=
  List.flatMap_congr fun i hi => by rw [h i (List.mem_range.mp hi)]

theorem endpointDescs_none {f : Nat → Option USBDescIface} {n : Nat} (h : ∀ i < n, f i = none) :
    endpointDescs f n = [] := by
  rw [endpointDescs, List.flatMap_eq_nil_iff]
  intro i hi
  rw [h i (List.mem_range.mp hi)]
  rfl

/-! ## The search -/

def pick (dev : Device) (value : Nat) (c : USBDescConfig) : Device :=
  { dev with
    configuration := value
    numInterfaces := c.bNumInterfaces.toNat
    config := some c }

theorem selectConfig_eq (value : Nat) (dev : Device) (i : Nat) :
    selectConfig value dev i =
      if hasValue value (dev.desc.full.confs i) then
        if (dev.desc.full.confs i).bNumInterfaces.toNat ≤ USB_MAX_INTERFACES then
          some (pick dev value (dev.desc.full.confs i))
        else none
      else some dev := by
  simp only [selectConfig, hasValue, beq_iff_eq, pick]

/-- The last configuration with the value is picked, if none of them fails the assertion. -/
theorem search_eq (value : Nat) (is : List Nat) (dev : Device) :
    is.foldlM (selectConfig value) dev =
      if ∀ c ∈ is.map dev.desc.full.confs, hasValue value c →
          c.bNumInterfaces.toNat ≤ USB_MAX_INTERFACES then
        some ((lastMatch (hasValue value) (is.map dev.desc.full.confs)).elim dev (pick dev value))
      else none := by
  induction is generalizing dev with
  | nil => simp
  | cons i is ih =>
    simp only [List.map_cons, List.forall_mem_cons, elim_lastMatch_cons, List.foldlM_cons]
    rw [selectConfig_eq]
    by_cases hvalue : hasValue value (dev.desc.full.confs i)
    · by_cases hmax : (dev.desc.full.confs i).bNumInterfaces.toNat ≤ USB_MAX_INTERFACES
      · have hrest := ih (pick dev value (dev.desc.full.confs i))
        simp only [hvalue, hmax, if_true, forall_const, true_and, Option.bind_eq_bind,
          Option.bind_some]
        exact hrest
      · simp [hvalue, hmax]
    · simp [hvalue, ih]

/-! ## The set-up -/

/-- The device after the interfaces below `k` of a configuration have been set up. -/
structure SetUp (c : USBDescConfig) (dev : Device) (k : Nat) (after : Device) : Prop where
  configuration : after.configuration = dev.configuration
  config : after.config = some c
  numInterfaces : after.numInterfaces = c.bNumInterfaces.toNat
  ifaces : ∀ i, after.ifaces i =
    if i < k then (interfaceOf c i).or (dev.ifaces i) else dev.ifaces i
  altSetting : ∀ i, after.altSetting i =
    if i < k ∧ interfaceOf c i ≠ none then 0 else dev.altSetting i
  kept : (∀ i < k, interfaceOf c i = none) → after.endpoints = dev.endpoints
  renewed : (∃ i < k, interfaceOf c i ≠ none) → after.endpoints = (usbDescEpInit after).endpoints

section SetUp

variable {c : USBDescConfig} {dev after : Device} {k : Nat}

theorem usbDescFindInterface_zero (hconfig : dev.config = some c)
    (hk : k < c.bNumInterfaces.toNat) : usbDescFindInterface dev k 0 = interfaceOf c k := by
  unfold usbDescFindInterface
  rw [hconfig, interfaceOf, if_pos hk]

theorem SetUp.step (h : SetUp c dev k after) (hk : k < c.bNumInterfaces.toNat) :
    SetUp c dev (k + 1) (usbDescSetInterface after k 0).2 := by
  have hfind := usbDescFindInterface_zero h.config hk
  unfold usbDescSetInterface
  cases hiface : interfaceOf c k with
  | none =>
    rw [hfind, hiface]
    have hne (i : Nat) (hi : interfaceOf c i ≠ none) : i < k + 1 ↔ i < k := by
      have hik : i ≠ k := fun heq => hi (heq ▸ hiface)
      omega
    refine ⟨h.configuration, h.config, h.numInterfaces, fun i => ?_, fun i => ?_, fun hnone => ?_,
      fun hsome => ?_⟩
    · by_cases hik : i = k
      · subst hik
        simp [h.ifaces, hiface]
      · have hlt : i < k + 1 ↔ i < k := by omega
        simp only [h.ifaces, hlt]
    · simp only [h.altSetting]
      by_cases hi : interfaceOf c i = none
      · simp [hi]
      · simp only [hne i hi]
    · exact h.kept fun i hi => hnone i (by omega)
    · obtain ⟨i, hi, hsome⟩ := hsome
      exact h.renewed ⟨i, (hne i hsome).mp hi, hsome⟩
  | some iface =>
    rw [hfind, hiface]
    refine ⟨h.configuration, h.config, h.numInterfaces, fun i => ?_, fun i => ?_, fun hnone => ?_,
      fun _ => rfl⟩
    · change (if i = k then some iface else after.ifaces i) = _
      by_cases hik : i = k
      · subst hik
        simp [hiface]
      · have hlt : i < k + 1 ↔ i < k := by omega
        simp only [h.ifaces, hlt, if_neg hik]
    · change (if i = k then 0 else after.altSetting i) = _
      by_cases hik : i = k
      · subst hik
        simp [hiface]
      · have hlt : i < k + 1 ↔ i < k := by omega
        simp only [h.altSetting, hlt, if_neg hik]
    · exact absurd (hnone k (by omega)) (by simp [hiface])

/-- The loop over the interfaces. -/
theorem SetUp.loop (hconfig : dev.config = some c)
    (hnum : dev.numInterfaces = c.bNumInterfaces.toNat) (hk : k ≤ c.bNumInterfaces.toNat) :
    SetUp c dev k
      ((List.range k).foldl (fun dev i => (usbDescSetInterface dev i 0).2) dev) := by
  induction k with
  | zero =>
    exact ⟨rfl, hconfig, hnum, fun i => by simp, fun i => by simp, fun _ => rfl, by simp⟩
  | succ k ih =>
    rw [List.range_succ, List.foldl_append]
    exact (ih (by omega)).step hk

end SetUp

/-- With an empty list of interfaces nothing is set up and every slot is cleared. -/
theorem holds_none_iff (dev : Device) :
    Holds (setupInterfaces { dev with configuration := 0, numInterfaces := 0, config := none }) 0 none ↔
      Unused dev.endpoints := by
  constructor
  · exact fun h => h.endpoints
  · intro h
    refine ⟨rfl, rfl, rfl, fun i hi => ?_, h⟩
    simp [setupInterfaces, hi]

/-- The last loop of the set-up. -/
def clearRest (dev : Device) : Device :=
  let rest (i : Nat) : Bool := dev.numInterfaces ≤ i && decide (i < USB_MAX_INTERFACES)
  { dev with
    altSetting := fun i => if rest i then 0 else dev.altSetting i
    ifaces := fun i => if rest i then none else dev.ifaces i }

section Held

variable {c : USBDescConfig} {dev after : Device} {value : Nat}

theorem SetUp.ifaces_lt (h : SetUp c dev c.bNumInterfaces.toNat after) {i : Nat}
    (hi : i < c.bNumInterfaces.toNat) :
    (clearRest after).ifaces i = (interfaceOf c i).or (dev.ifaces i) ∧
      (clearRest after).altSetting i = if interfaceOf c i = none then dev.altSetting i else 0 := by
  have hrest : (decide (after.numInterfaces ≤ i) && decide (i < USB_MAX_INTERFACES)) = false := by
    rw [h.numInterfaces, decide_eq_false (by omega), Bool.false_and]
  constructor
  · simp only [clearRest, hrest, h.ifaces, hi, if_true]
    rfl
  · simp only [clearRest, hrest, h.altSetting, hi, true_and]
    by_cases hnone : interfaceOf c i = none <;> simp [hnone]

theorem SetUp.ifaces_ge (h : SetUp c dev c.bNumInterfaces.toNat after) {i : Nat}
    (hi : c.bNumInterfaces.toNat ≤ i) (hmax : i < USB_MAX_INTERFACES) :
    (clearRest after).ifaces i = none ∧ (clearRest after).altSetting i = 0 := by
  simp [clearRest, h.numInterfaces, hi, hmax]

/-- A configuration is held as it should be exactly when nothing is left of an earlier one. -/
theorem SetUp.holds_iff (h : SetUp c (pick dev value c) c.bNumInterfaces.toNat after)
    (hmax : c.bNumInterfaces.toNat ≤ USB_MAX_INTERFACES) :
    Holds (clearRest after) value (some c) ↔ Fresh dev c := by
  constructor
  · intro hholds
    constructor
    · intro i hi hnone
      have hslot := hholds.interfaces i (by omega)
      rw [(h.ifaces_lt hi).1, (h.ifaces_lt hi).2, hnone, if_pos rfl, Option.bind_some, hnone] at hslot
      exact hslot
    · intro hnone pid ep hep
      have hep := hholds.endpoints pid ep hep
      rw [Option.elim_some, endpointDescs_none hnone] at hep
      change endpointAt after.endpoints pid ep = _ at hep
      rw [h.kept hnone] at hep
      exact hep
  · intro hfresh
    refine ⟨h.configuration, h.config, h.numInterfaces, fun i hi => ?_, fun pid ep hep => ?_⟩
    · rw [Option.bind_some]
      by_cases hlt : i < c.bNumInterfaces.toNat
      · rw [(h.ifaces_lt hlt).1, (h.ifaces_lt hlt).2]
        cases hiface : interfaceOf c i with
        | none => exact hfresh.slots i hlt hiface
        | some iface => simp
      · have hnone : interfaceOf c i = none := by rw [interfaceOf, if_neg hlt]
        rw [hnone]
        exact h.ifaces_ge (Nat.le_of_not_lt hlt) hi
    · change endpointAt after.endpoints pid ep = _
      rw [Option.elim_some]
      by_cases hsome : ∃ i < c.bNumInterfaces.toNat, interfaceOf c i ≠ none
      · rw [h.renewed hsome, endpointAt_usbDescEpInit, h.numInterfaces]
        refine congrArg (fun ds => endpointIn ds pid ep) (endpointDescs_congr fun i hi => ?_)
        rw [h.ifaces, if_pos hi]
        cases hiface : interfaceOf c i with
        | none => exact (hfresh.slots i hi hiface).1
        | some iface => rfl
      · have hnone : ∀ i < c.bNumInterfaces.toNat, interfaceOf c i = none := by
          simpa using hsome
        rw [endpointDescs_none hnone, h.kept hnone]
        exact hfresh.endpoints hnone pid ep hep

theorem setupInterfaces_holds_iff (hmax : c.bNumInterfaces.toNat ≤ USB_MAX_INTERFACES)
    {selected : Option USBDescConfig} :
    Holds (setupInterfaces (pick dev value c)) value selected ↔ selected = some c ∧ Fresh dev c := by
  have hloop : SetUp c (pick dev value c) c.bNumInterfaces.toNat _ := .loop rfl rfl le_rfl
  constructor
  · intro h
    have hselected : selected = some c := h.config.symm.trans hloop.config
    subst hselected
    exact ⟨rfl, (hloop.holds_iff hmax).mp h⟩
  · rintro ⟨rfl, hfresh⟩
    exact (hloop.holds_iff hmax).mpr hfresh

end Held

/-! ## SET_CONFIGURATION -/

section SetConfig

variable {dev : Device} {value : Nat}

/-- A value that no configuration has is not refused: the search is over in any case. -/
theorem usbDescSetConfig_unknown (h : ¬ Known dev value) :
    usbDescSetConfig dev value = some (0, setupInterfaces dev) := by
  obtain ⟨hvalue, hnone⟩ := not_or.mp h
  have hnone : ∀ c ∈ configurations dev, ¬ hasValue value c :=
    fun c hc hhas => hnone ⟨c, hc, hhas⟩
  rw [usbDescSetConfig, if_neg hvalue]
  dsimp only
  rw [search_eq, ← configurations, if_pos fun c hc hhas => absurd hhas (hnone c hc),
    lastMatch_eq_none.mpr hnone]
  simp

/-- A value that a configuration has selects the last one with it, or fails the assertion. -/
theorem usbDescSetConfig_known (hvalue : value ≠ 0) {c : USBDescConfig}
    (hlast : lastMatch (hasValue value) (configurations dev) = some c) :
    usbDescSetConfig dev value =
      if ∀ c ∈ configurations dev, hasValue value c → c.bNumInterfaces.toNat ≤ USB_MAX_INTERFACES then
        some (0, setupInterfaces (pick dev value c))
      else none := by
  rw [usbDescSetConfig, if_neg hvalue]
  dsimp only
  rw [search_eq, ← configurations, hlast]
  by_cases hmax : ∀ c ∈ configurations dev, hasValue value c →
      c.bNumInterfaces.toNat ≤ USB_MAX_INTERFACES
  · rw [if_pos hmax, if_pos hmax]
    simp
  · rw [if_neg hmax, if_neg hmax]

/-- Some result is as it should be. -/
def Met (dev : Device) (value : Nat) : Prop :=
  ∃ r, usbDescSetConfig dev value = some r ∧ SetsConfiguration dev value r

theorem met_zero_iff : Met dev 0 ↔ Unused dev.endpoints := by
  have hset : usbDescSetConfig dev 0 = some (0, setupInterfaces
      { dev with configuration := 0, numInterfaces := 0, config := none }) := rfl
  rw [Met, hset]
  constructor
  · rintro ⟨r, hr, h⟩
    obtain rfl := Option.some.inj hr
    obtain ⟨selected, hselects, hholds⟩ := h.selected rfl
    rcases hselects with ⟨-, rfl⟩ | ⟨hne, -⟩
    · exact (holds_none_iff dev).mp hholds
    · exact absurd rfl hne
  · intro hunused
    refine ⟨_, rfl, ⟨fun _ => .inl rfl, fun _ => rfl⟩, fun _ => ?_, fun hne => absurd rfl hne⟩
    exact ⟨none, .inl ⟨rfl, rfl⟩, (holds_none_iff dev).mpr hunused⟩

theorem not_met_unknown (h : ¬ Known dev value) : ¬ Met dev value := by
  rintro ⟨r, hr, hsets⟩
  rw [usbDescSetConfig_unknown h] at hr
  obtain rfl := Option.some.inj hr
  exact h (hsets.succeeds.mp rfl)

theorem met_known_iff (hvalue : value ≠ 0) {c : USBDescConfig}
    (hlast : lastMatch (hasValue value) (configurations dev) = some c) :
    Met dev value ↔
      (∀ c ∈ configurations dev, hasValue value c → c.bNumInterfaces.toNat ≤ USB_MAX_INTERFACES) ∧
        Fresh dev c := by
  obtain ⟨hmem, hhas⟩ := lastMatch_some hlast
  rw [Met, usbDescSetConfig_known hvalue hlast]
  constructor
  · rintro ⟨r, hr, h⟩
    split at hr
    · rename_i hmax
      obtain rfl := Option.some.inj hr
      obtain ⟨selected, -, hholds⟩ := h.selected rfl
      exact ⟨hmax, ((setupInterfaces_holds_iff (hmax c hmem hhas)).mp hholds).2⟩
    · cases hr
  · rintro ⟨hmax, hfresh⟩
    have hknown : Known dev value := .inr ⟨c, hmem, hhas⟩
    rw [if_pos hmax]
    refine ⟨_, rfl, ⟨fun _ => hknown, fun _ => rfl⟩, fun _ => ?_, fun hne => absurd rfl hne⟩
    exact ⟨some c, .inr ⟨hvalue, c, hmem, hhas, rfl⟩,
      (setupInterfaces_holds_iff (hmax c hmem hhas)).mpr ⟨rfl, hfresh⟩⟩

/-- A request is met as it should be when the value is known and nothing of what the device held
before is left in its slots and endpoints. -/
theorem set_configuration_iff (dev : Device) (value : Nat) :
    (∃ r, usbDescSetConfig dev value = some r ∧ SetsConfiguration dev value r) ↔
      Settable dev value := by
  change Met dev value ↔ _
  by_cases hvalue : value = 0
  · subst hvalue
    simp [Settable, met_zero_iff]
  · cases hlast : lastMatch (hasValue value) (configurations dev) with
    | none =>
      have hunknown : ¬ Known dev value := by
        rintro (hzero | ⟨c, hc, hhas⟩)
        · exact hvalue hzero
        · exact lastMatch_eq_none.mp hlast c hc hhas
      simp [Settable, hvalue, hlast, not_met_unknown hunknown]
    | some c => simp [Settable, hvalue, hlast, met_known_iff hvalue hlast]

/-- A gamepad that has just been plugged in takes a configuration 2, which it does not have. -/
theorem unknown_configuration_taken :
    ¬ ∀ (dev : Device) (value : Nat),
      ∃ r, usbDescSetConfig dev value = some r ∧ SetsConfiguration dev value r := by
  intro h
  have hunknown : ¬ Known (usbXidInitfn []).dev 2 := by
    rintro (hzero | ⟨c, hc, hhas⟩)
    · cases hzero
    · have hnone : lastMatch (hasValue 2) (configurations (usbXidInitfn []).dev) = none := rfl
      exact lastMatch_eq_none.mp hnone c hc hhas
  exact not_met_unknown hunknown (h _ 2)

end SetConfig

end OpenXbox.Usb.Configurations
