import OpenXbox.Lib.Encoder
import Mathlib.Data.BitVec

/-!
# The configuration descriptor

`USB_ReadConfigurationDesc` and the functions that it calls for interfaces, class
descriptors and endpoints. Each is given what is left of the destination, and its length
is patched into the header at the end. A host that follows `bLength` finds the descriptors
of the tree again.
-/

namespace OpenXbox.Usb.Descriptors

open OpenXbox.Lib.Buffer OpenXbox.Lib.Encoder

abbrev Byte := BitVec 8

def USB_DT_CONFIG : Byte := 0x02
def USB_DT_INTERFACE : Byte := 0x04
def USB_DT_ENDPOINT : Byte := 0x05

/-- A device-specific class descriptor. Pointers are what they point to, from there on. -/
structure USBDescOther where
  length : Byte
  data : Nat → Byte

structure USBDescEndpoint where
  bEndpointAddress : Byte
  bmAttributes : Byte
  wMaxPacketSize : BitVec 16
  bInterval : Byte
  bRefresh : Byte
  bSynchAddress : Byte
  isAudio : Byte
  extra : Option (Nat → Byte)

structure USBDescIface where
  bInterfaceNumber : Byte
  bAlternateSetting : Byte
  bNumEndpoints : Byte
  bInterfaceClass : Byte
  bInterfaceSubClass : Byte
  bInterfaceProtocol : Byte
  iInterface : Byte
  ndesc : Byte
  descs : Nat → USBDescOther
  eps : Nat → USBDescEndpoint

structure USBDescConfig where
  bNumInterfaces : Byte
  bConfigurationValue : Byte
  iConfiguration : Byte
  bmAttributes : Byte
  bMaxPower : Byte
  nif : Byte
  ifs : Nat → USBDescIface

def getWordLow (value : BitVec 16) : Byte := (value &&& 0xFF).setWidth 8

def getWordHigh (value : BitVec 16) : Byte := ((value >>> 8) &&& 0xFF).setWidth 8

/-- A `size_t` returned as an `int`. -/
def toInt32 (n : Nat) : Int := (BitVec.ofNat 32 n).toInt

/-- `(size_t)-1`. -/
def sizeMax : Nat := 2 ^ 64 - 1

/-- Subtraction from a `size_t`. -/
def subSize (a b : Nat) : Nat := (a + (2 ^ 64 - b)) % 2 ^ 64

/-- The longest destination that a 16-bit length can count. -/
def maxLength : Nat := 65535

theorem subSize_of_le : ∀ a b : Nat, b ≤ a → a ≤ maxLength → subSize a b = a - b := by
  intro a b hle ha
  rw [maxLength] at ha
  unfold subSize
  omega

/-- `uint16_t wTotalLength`. -/
def shortCounter : Counter where
  add a b := (a + b) % 2 ^ 16
  sub := subSize
  limit := maxLength
  add_eq _ _ h := Nat.mod_eq_of_lt (Nat.lt_succ_of_le h)
  sub_eq := subSize_of_le

/-- `int pos`. -/
def intCounter : Counter where
  add := Nat.add
  sub := subSize
  limit := maxLength
  add_eq _ _ _ := rfl
  sub_eq := subSize_of_le

/-- The length that `USB_ReadOtherDesc` copies. -/
def USBDescOther.bLength (desc : USBDescOther) : Nat :=
  if desc.length ≠ 0 then desc.length.toNat else (desc.data 0).toNat

def readOtherDesc (desc : USBDescOther) (dest : Nat → Byte) (pos len : Nat) : Nat × (Nat → Byte) :=
  if len < desc.bLength then (sizeMax, dest)
  else (desc.bLength, put dest pos (slice desc.data 0 desc.bLength))

def USBDescEndpoint.bLength (ep : USBDescEndpoint) : Nat := if ep.isAudio ≠ 0 then 0x09 else 0x07

def USBDescEndpoint.extralen (ep : USBDescEndpoint) : Nat :=
  match ep.extra with
  | some extra => (extra 0).toNat
  | none => 0

def readEndpointDesc (ep : USBDescEndpoint) (dest : Nat → Byte) (pos len : Nat) :
    Int × (Nat → Byte) :=
  if len < ep.bLength + ep.extralen then (-1, dest)
  else
    let dest := put dest pos
      [BitVec.ofNat 8 ep.bLength, USB_DT_ENDPOINT, ep.bEndpointAddress, ep.bmAttributes,
        getWordLow ep.wMaxPacketSize, getWordHigh ep.wMaxPacketSize, ep.bInterval]
    let dest := if ep.isAudio ≠ 0 then put dest (pos + 7) [ep.bRefresh, ep.bSynchAddress] else dest
    let dest :=
      match ep.extra with
      | some extra => put dest (pos + ep.bLength) (slice extra 0 ep.extralen)
      | none => dest
    (toInt32 (ep.bLength + ep.extralen), dest)

/-- The call in the loop over class descriptors, with its result in an `int`. -/
def readOther (desc : USBDescOther) : Writer Byte := fun dest pos len =>
  (toInt32 (readOtherDesc desc dest pos len).1, (readOtherDesc desc dest pos len).2)

def USBDescIface.header (iface : USBDescIface) : List Byte :=
  [0x09, USB_DT_INTERFACE, iface.bInterfaceNumber, iface.bAlternateSetting, iface.bNumEndpoints,
    iface.bInterfaceClass, iface.bInterfaceSubClass, iface.bInterfaceProtocol, iface.iInterface]

def readInterfaceDesc (iface : USBDescIface) (dest : Nat → Byte) (pos len : Nat) :
    Int × (Nat → Byte) :=
  if len < 0x09 then (-1, dest)
  else
    let dest := put dest pos iface.header
    let descs := (List.range iface.ndesc.toNat).map fun i => readOther (iface.descs i)
    let eps := (List.range iface.bNumEndpoints.toNat).map fun i => readEndpointDesc (iface.eps i)
    let r := writeAll intCounter descs dest pos len 0x09
    if r.1 < 0 then r else writeAll intCounter eps r.2 pos len r.1.toNat

def readConfigurationDesc (conf : USBDescConfig) (dest : Nat → Byte) (len : Nat) :
    Int × (Nat → Byte) :=
  if len < 0x09 then (-1, dest)
  else
    let dest := put dest 0 [0x09, USB_DT_CONFIG]
    let dest := put dest 4 [conf.bNumInterfaces, conf.bConfigurationValue, conf.iConfiguration,
      conf.bmAttributes, conf.bMaxPower]
    let ifs := (List.range conf.nif.toNat).map fun i => readInterfaceDesc (conf.ifs i)
    let r := writeAll shortCounter ifs dest 0 len 0x09
    if r.1 < 0 then r
    else
      let wTotalLength := BitVec.ofNat 16 r.1.toNat
      (wTotalLength.toNat, put r.2 2 [getWordLow wTotalLength, getWordHigh wTotalLength])

/-! ## The descriptors of a tree -/

/-- A descriptor with its fields. -/
inductive Descriptor where
  | config (wTotalLength : BitVec 16)
      (bNumInterfaces bConfigurationValue iConfiguration bmAttributes bMaxPower : Byte)
  | iface (bInterfaceNumber bAlternateSetting bNumEndpoints bInterfaceClass bInterfaceSubClass
      bInterfaceProtocol iInterface : Byte)
  | endpoint (bEndpointAddress bmAttributes : Byte) (wMaxPacketSize : BitVec 16) (bInterval : Byte)
  | audioEndpoint (bEndpointAddress bmAttributes : Byte) (wMaxPacketSize : BitVec 16)
      (bInterval bRefresh bSynchAddress : Byte)
  | other (bytes : List Byte)

def Descriptor.bytes : Descriptor → List Byte
  | .config total n v i attributes power =>
    [0x09, USB_DT_CONFIG, getWordLow total, getWordHigh total, n, v, i, attributes, power]
  | .iface n alt eps cls sub protocol i => [0x09, USB_DT_INTERFACE, n, alt, eps, cls, sub, protocol, i]
  | .endpoint address attributes size interval =>
    [0x07, USB_DT_ENDPOINT, address, attributes, getWordLow size, getWordHigh size, interval]
  | .audioEndpoint address attributes size interval refresh synch =>
    [0x09, USB_DT_ENDPOINT, address, attributes, getWordLow size, getWordHigh size, interval,
      refresh, synch]
  | .other bytes => bytes

def encoding (ds : List Descriptor) : List Byte := ds.flatMap Descriptor.bytes

def USBDescOther.descriptor (desc : USBDescOther) : Descriptor :=
  .other (slice desc.data 0 desc.bLength)

/-- The endpoint and its extra descriptor. -/
def USBDescEndpoint.descriptors (ep : USBDescEndpoint) : List Descriptor :=
  (if ep.isAudio ≠ 0 then
    .audioEndpoint ep.bEndpointAddress ep.bmAttributes ep.wMaxPacketSize ep.bInterval ep.bRefresh
      ep.bSynchAddress
  else .endpoint ep.bEndpointAddress ep.bmAttributes ep.wMaxPacketSize ep.bInterval) ::
    (ep.extra.toList.map fun extra => .other (slice extra 0 (extra 0).toNat))

def USBDescIface.descriptors (iface : USBDescIface) : List Descriptor :=
  .iface iface.bInterfaceNumber iface.bAlternateSetting iface.bNumEndpoints iface.bInterfaceClass
      iface.bInterfaceSubClass iface.bInterfaceProtocol iface.iInterface ::
    (((List.range iface.ndesc.toNat).map fun i => (iface.descs i).descriptor) ++
      (List.range iface.bNumEndpoints.toNat).flatMap fun i => (iface.eps i).descriptors)

/-- The whole tree in order, with the total length that the header carries. -/
def USBDescConfig.descriptors (conf : USBDescConfig) (wTotalLength : BitVec 16) : List Descriptor :=
  .config wTotalLength conf.bNumInterfaces conf.bConfigurationValue conf.iConfiguration
      conf.bmAttributes conf.bMaxPower ::
    (List.range conf.nif.toNat).flatMap fun i => (conf.ifs i).descriptors

/-- How long the whole tree is. -/
def USBDescConfig.size (conf : USBDescConfig) : Nat := (encoding (conf.descriptors 0)).length

/-- The descriptor's first byte is its length, and it has at least a length and a type. -/
def StartsWithLength (length : Nat) (data : Nat → Byte) : Prop :=
  length = (data 0).toNat ∧ 2 ≤ (data 0).toNat

/-- Each class and each extra descriptor starts with its length. -/
structure USBDescIface.WellFormed (iface : USBDescIface) : Prop where
  descs : ∀ i < iface.ndesc.toNat,
    StartsWithLength (iface.descs i).bLength (iface.descs i).data
  eps : ∀ i < iface.bNumEndpoints.toNat, ∀ extra, (iface.eps i).extra = some extra →
    StartsWithLength (iface.eps i).extralen extra

def USBDescConfig.WellFormed (conf : USBDescConfig) : Prop :=
  ∀ i < conf.nif.toNat, (conf.ifs i).WellFormed

/-! ## Reading the descriptors -/

inductive Kind where
  | config
  | iface
  | endpoint
  | audioEndpoint
  | other

def Descriptor.kind : Descriptor → Kind
  | .config .. => .config
  | .iface .. => .iface
  | .endpoint .. => .endpoint
  | .audioEndpoint .. => .audioEndpoint
  | .other _ => .other

/-- The fields of a descriptor of a kind; `none` when length or type are not the kind's. -/
def read (kind : Kind) (piece : List Byte) : Option Descriptor :=
  match kind, piece with
  | .config, [length, type, lo, hi, n, v, i, attributes, power] =>
    if length = 0x09 ∧ type = USB_DT_CONFIG then
      some (.config (hi ++ lo) n v i attributes power)
    else none
  | .iface, [length, type, n, alt, eps, cls, sub, protocol, i] =>
    if length = 0x09 ∧ type = USB_DT_INTERFACE then
      some (.iface n alt eps cls sub protocol i)
    else none
  | .endpoint, [length, type, address, attributes, lo, hi, interval] =>
    if length = 0x07 ∧ type = USB_DT_ENDPOINT then
      some (.endpoint address attributes (hi ++ lo) interval)
    else none
  | .audioEndpoint, [length, type, address, attributes, lo, hi, interval, refresh, synch] =>
    if length = 0x09 ∧ type = USB_DT_ENDPOINT then
      some (.audioEndpoint address attributes (hi ++ lo) interval refresh synch)
    else none
  | .other, piece => some (.other piece)
  | _, _ => none

theorem toNat_getWordLow (value : BitVec 16) : (getWordLow value).toNat = value.toNat % 2 ^ 8 := by
  have hmask : (0xFF : BitVec 16).toNat = 2 ^ 8 - 1 := rfl
  rw [getWordLow, BitVec.toNat_setWidth, BitVec.toNat_and, hmask, Nat.and_two_pow_sub_one_eq_mod,
    Nat.mod_mod]

theorem toNat_getWordHigh (value : BitVec 16) : (getWordHigh value).toNat = value.toNat / 2 ^ 8 := by
  have hmask : (0xFF : BitVec 16).toNat = 2 ^ 8 - 1 := rfl
  have hlt := value.isLt
  rw [getWordHigh, BitVec.toNat_setWidth, BitVec.toNat_and, hmask, Nat.and_two_pow_sub_one_eq_mod,
    Nat.mod_mod, BitVec.toNat_ushiftRight, Nat.shiftRight_eq_div_pow]
  exact Nat.mod_eq_of_lt (by omega)

theorem getWord_append (value : BitVec 16) : getWordHigh value ++ getWordLow value = value := by
  have hlow := toNat_getWordLow value
  have hhigh := toNat_getWordHigh value
  have hlt : (getWordLow value).toNat < 2 ^ 8 := (getWordLow value).isLt
  apply BitVec.eq_of_toNat_eq
  rw [BitVec.toNat_append, ← Nat.shiftLeft_add_eq_or_of_lt hlt, Nat.shiftLeft_eq, hlow, hhigh]
  omega

theorem read_bytes (d : Descriptor) : read d.kind d.bytes = some d := by
  cases d with
  | config => simp [read, Descriptor.kind, Descriptor.bytes, getWord_append]
  | iface => simp [read, Descriptor.kind, Descriptor.bytes]
  | endpoint => simp [read, Descriptor.kind, Descriptor.bytes, getWord_append]
  | audioEndpoint => simp [read, Descriptor.kind, Descriptor.bytes, getWord_append]
  | other => rfl

/-! ## Encoding -/

theorem toInt32_of_lt {n : Nat} (h : n < 2 ^ 31) : toInt32 n = n := by
  have hmod : n % 2 ^ 32 = n := Nat.mod_eq_of_lt (by omega)
  rw [toInt32, BitVec.toInt_eq_toNat_of_lt, BitVec.toNat_ofNat, hmod]
  rw [BitVec.toNat_ofNat, hmod]
  omega

theorem toInt32_sizeMax : toInt32 sizeMax = -1 := by decide

theorem USBDescOther.bLength_lt (desc : USBDescOther) : desc.bLength < 2 ^ 8 := by
  rw [USBDescOther.bLength]
  split
  · exact desc.length.isLt
  · exact (desc.data 0).isLt

theorem encodes_readOther (desc : USBDescOther) :
    Encodes maxLength (readOther desc) desc.descriptor.bytes := by
  have hlt := desc.bLength_lt
  have hbytes : desc.descriptor.bytes = slice desc.data 0 desc.bLength := rfl
  rw [hbytes]
  constructor
  · intro dest pos len _ hlen
    rw [length_slice] at hlen
    rw [readOther, readOtherDesc, if_neg (by omega), length_slice]
    dsimp only
    rw [toInt32_of_lt (by omega)]
  · intro dest pos len _ hlen
    rw [length_slice] at hlen
    rw [readOther, readOtherDesc, if_pos hlen]
    dsimp only
    exact ⟨toInt32_sizeMax, fun i _ => rfl⟩

/-- The bytes of an endpoint descriptor, and those of its extra descriptor. -/
theorem encoding_endpoint (ep : USBDescEndpoint) : encoding ep.descriptors =
    [BitVec.ofNat 8 ep.bLength, USB_DT_ENDPOINT, ep.bEndpointAddress, ep.bmAttributes,
        getWordLow ep.wMaxPacketSize, getWordHigh ep.wMaxPacketSize, ep.bInterval] ++
      ((if ep.isAudio ≠ 0 then [ep.bRefresh, ep.bSynchAddress] else []) ++
        (ep.extra.toList.flatMap fun extra => slice extra 0 ep.extralen)) := by
  have hextra : (ep.extra.toList.map fun extra => Descriptor.other (slice extra 0 (extra 0).toNat)).flatMap
      Descriptor.bytes = ep.extra.toList.flatMap fun extra => slice extra 0 ep.extralen := by
    rw [USBDescEndpoint.extralen]
    cases ep.extra <;> rfl
  rw [encoding, USBDescEndpoint.descriptors, List.flatMap_cons, hextra, USBDescEndpoint.bLength]
  split <;> rfl

theorem length_encoding_endpoint (ep : USBDescEndpoint) :
    (encoding ep.descriptors).length = ep.bLength + ep.extralen := by
  rw [encoding_endpoint, USBDescEndpoint.bLength, USBDescEndpoint.extralen]
  cases ep.extra <;> split <;> simp <;> omega

theorem encodes_readEndpointDesc (ep : USBDescEndpoint) :
    Encodes maxLength (readEndpointDesc ep) (encoding ep.descriptors) := by
  have hlength := length_encoding_endpoint ep
  constructor
  · intro dest pos len _ hlen
    rw [hlength] at hlen ⊢
    have hint : toInt32 (ep.bLength + ep.extralen) = ((ep.bLength + ep.extralen : Nat) : Int) := by
      refine toInt32_of_lt ?_
      have hextra : ep.extralen < 2 ^ 8 := by
        rw [USBDescEndpoint.extralen]
        split
        · exact BitVec.isLt _
        · decide
      have hbase : ep.bLength ≤ 9 := by
        rw [USBDescEndpoint.bLength]
        split <;> decide
      omega
    rw [readEndpointDesc, if_neg (by omega), hint, encoding_endpoint]
    refine Prod.ext rfl ?_
    dsimp only
    rw [USBDescEndpoint.bLength]
    by_cases haudio : ep.isAudio ≠ 0
    · simp only [if_pos haudio]
      cases ep.extra with
      | none =>
        dsimp only
        exact put_put rfl
      | some extra =>
        rw [Option.toList_some, List.flatMap_singleton]
        exact (put_put (by rfl)).trans (put_put (by rfl))
    · simp only [if_neg haudio]
      cases ep.extra with
      | none => rfl
      | some extra =>
        rw [Option.toList_some, List.flatMap_singleton]
        exact put_put (by rfl)
  · intro dest pos len _ hlen
    rw [hlength] at hlen
    rw [readEndpointDesc, if_pos hlen]
    exact ⟨rfl, fun i _ => rfl⟩

theorem encoding_cons (d : Descriptor) (ds : List Descriptor) :
    encoding (d :: ds) = d.bytes ++ encoding ds := List.flatMap_cons

theorem encoding_append (ds es : List Descriptor) : encoding (ds ++ es) = encoding ds ++ encoding es :=
  List.flatMap_append

theorem encoding_flatMap {ι : Type*} (is : List ι) (f : ι → List Descriptor) :
    encoding (is.flatMap f) = (is.map fun i => encoding (f i)).flatten := by
  rw [encoding, List.flatMap_assoc, List.flatMap_def]
  rfl

theorem encodes_readInterfaceDesc (iface : USBDescIface) :
    Encodes maxLength (readInterfaceDesc iface) (encoding iface.descriptors) := by
  have hdescs := encodes_map (fun i => encodes_readOther (iface.descs i)) (List.range iface.ndesc.toNat)
  have heps := encodes_map (fun i => encodes_readEndpointDesc (iface.eps i))
    (List.range iface.bNumEndpoints.toNat)
  have hall := encodes_header (c := intCounter) (List.rel_append hdescs heps) iface.header
  have hbytes : encoding iface.descriptors = iface.header ++
      (((List.range iface.ndesc.toNat).map fun i => (iface.descs i).descriptor.bytes) ++
        ((List.range iface.bNumEndpoints.toNat).map fun i => encoding (iface.eps i).descriptors)).flatten := by
    rw [USBDescIface.descriptors, encoding_cons, encoding_append, encoding_flatMap, List.flatten_append,
      encoding, List.flatMap_map, List.flatMap_def]
    rfl
  have hwriter : readInterfaceDesc iface = fun dest pos len =>
      if len < iface.header.length then (-1, dest)
      else writeAll intCounter
        (((List.range iface.ndesc.toNat).map fun i => readOther (iface.descs i)) ++
          (List.range iface.bNumEndpoints.toNat).map fun i => readEndpointDesc (iface.eps i))
        (put dest pos iface.header) pos len iface.header.length := by
    funext dest pos len
    rw [writeAll_append]
    rfl
  rw [hbytes, hwriter]
  exact hall

/-! ## The whole configuration -/

section Configuration

variable (conf : USBDescConfig)

/-- What the interfaces of the tree are encoded to. -/
def USBDescConfig.interfaces : List (List Byte) :=
  (List.range conf.nif.toNat).map fun i => encoding (conf.ifs i).descriptors

/-- The header with the total length. -/
def USBDescConfig.header (wTotalLength : BitVec 16) : List Byte :=
  [0x09, USB_DT_CONFIG, getWordLow wTotalLength, getWordHigh wTotalLength, conf.bNumInterfaces,
    conf.bConfigurationValue, conf.iConfiguration, conf.bmAttributes, conf.bMaxPower]

theorem encoding_descriptors (wTotalLength : BitVec 16) :
    encoding (conf.descriptors wTotalLength) = conf.header wTotalLength ++ conf.interfaces.flatten := by
  rw [USBDescConfig.descriptors, encoding_cons, encoding_flatMap]
  rfl

theorem size_eq : conf.size = 0x09 + conf.interfaces.flatten.length := by
  rw [USBDescConfig.size, encoding_descriptors, List.length_append]
  rfl

theorem length_encoding (wTotalLength : BitVec 16) :
    (encoding (conf.descriptors wTotalLength)).length = conf.size := by
  rw [size_eq, encoding_descriptors, List.length_append]
  rfl

theorem encodes_interfaces : List.Forall₂ (Encodes maxLength)
    ((List.range conf.nif.toNat).map fun i => readInterfaceDesc (conf.ifs i)) conf.interfaces :=
  encodes_map (fun i => encodes_readInterfaceDesc (conf.ifs i)) _

/-- The destination with the header as it is first written, its total length left out. -/
def USBDescConfig.started (dest : Nat → Byte) : Nat → Byte :=
  put (put dest 0 [0x09, USB_DT_CONFIG]) 4 [conf.bNumInterfaces, conf.bConfigurationValue,
    conf.iConfiguration, conf.bmAttributes, conf.bMaxPower]

theorem started_of_ge (dest : Nat → Byte) {i : Nat} (hi : 0x09 ≤ i) : conf.started dest i = dest i := by
  have hlast : put (put dest 0 [0x09, USB_DT_CONFIG]) 4 [conf.bNumInterfaces,
      conf.bConfigurationValue, conf.iConfiguration, conf.bmAttributes, conf.bMaxPower] i =
      put dest 0 [0x09, USB_DT_CONFIG] i := put_of_ge hi
  rw [USBDescConfig.started, hlast]
  exact put_of_ge (Nat.le_trans (by decide) hi)

/-- Patching the length in afterwards is the same as having it in the header. -/
theorem patched_eq (dest : Nat → Byte) (wTotalLength : BitVec 16) (rest : List Byte) :
    put (put (conf.started dest) 0x09 rest) 2 [getWordLow wTotalLength, getWordHigh wTotalLength] =
      put dest 0 (conf.header wTotalLength ++ rest) := by
  have hrest : put (put (conf.started dest) 0x09 rest) 2
        [getWordLow wTotalLength, getWordHigh wTotalLength] =
      put (put (conf.started dest) 2 [getWordLow wTotalLength, getWordHigh wTotalLength]) 0x09 rest :=
    (put_comm (by simp)).symm
  have hheader : put (conf.started dest) 2 [getWordLow wTotalLength, getWordHigh wTotalLength] =
      put dest 0 (conf.header wTotalLength) :=
    (put_comm (by simp)).symm.trans ((congrArg (put · 4 _) (put_put (by rfl))).trans (put_put (by rfl)))
  rw [hrest, hheader]
  exact put_put (by rfl)

theorem readConfigurationDesc_fits (dest : Nat → Byte) {len : Nat} (hlen : len ≤ maxLength)
    (hfits : conf.size ≤ len) :
    readConfigurationDesc conf dest len = ((conf.size : Int),
      put dest 0 (encoding (conf.descriptors (BitVec.ofNat 16 conf.size)))) := by
  have hsize := size_eq conf
  have hused : 0x09 + conf.interfaces.flatten.length ≤ len := by omega
  have hall := writeAll_fits (c := shortCounter) (encodes_interfaces conf) (conf.started dest) 0 hlen
    hused
  rw [← hsize, Nat.zero_add] at hall
  have hpos : ¬ ((conf.size : Int) < 0) := by omega
  have hnat : (BitVec.ofNat 16 conf.size).toNat = conf.size := by
    rw [maxLength] at hlen
    exact Nat.mod_eq_of_lt (by omega)
  rw [USBDescConfig.started] at hall
  rw [readConfigurationDesc, if_neg (by omega)]
  dsimp only
  rw [hall, if_neg hpos, Int.toNat_natCast, hnat]
  refine Prod.ext rfl ?_
  rw [encoding_descriptors]
  exact patched_eq conf dest _ _

theorem readConfigurationDesc_full (dest : Nat → Byte) {len : Nat} (hlen : len ≤ maxLength)
    (hfull : len < conf.size) :
    (readConfigurationDesc conf dest len).1 = -1 ∧
      ∀ i, len ≤ i → (readConfigurationDesc conf dest len).2 i = dest i := by
  have hsize := size_eq conf
  by_cases hshort : len < 0x09
  · rw [readConfigurationDesc, if_pos hshort]
    exact ⟨rfl, fun i _ => rfl⟩
  · have hused : len < 0x09 + conf.interfaces.flatten.length := by omega
    obtain ⟨hrc, hrest⟩ := writeAll_full (c := shortCounter) (encodes_interfaces conf)
      (conf.started dest) 0 hlen (by omega) hused
    have hneg : (writeAll shortCounter ((List.range conf.nif.toNat).map fun i =>
        readInterfaceDesc (conf.ifs i)) (conf.started dest) 0 len 0x09).1 < 0 := by
      rw [hrc]
      decide
    have hread : readConfigurationDesc conf dest len = writeAll shortCounter
        ((List.range conf.nif.toNat).map fun i => readInterfaceDesc (conf.ifs i))
        (conf.started dest) 0 len 0x09 := by
      rw [readConfigurationDesc, if_neg hshort]
      exact if_pos hneg
    rw [hread]
    refine ⟨hrc, fun i hi => ?_⟩
    rw [hrest i (by omega)]
    exact started_of_ge conf dest (by omega)

end Configuration

/-! ## Walking the output -/

theorem selfSized_other {length : Nat} {data : Nat → Byte} (h : StartsWithLength length data) :
    SelfSized BitVec.toNat (slice data 0 length) := by
  obtain ⟨heq, htwo⟩ := h
  obtain ⟨n, hn⟩ : ∃ n, length = n + 1 := ⟨length - 1, by omega⟩
  refine ⟨data 0, slice data 1 n, ?_, ?_⟩
  · rw [hn, slice_succ]
  · rw [length_slice, heq]

theorem selfSized_endpoint {ep : USBDescEndpoint}
    (h : ∀ extra, ep.extra = some extra → StartsWithLength ep.extralen extra) :
    ∀ d ∈ ep.descriptors, SelfSized BitVec.toNat d.bytes := by
  intro d hd
  rw [USBDescEndpoint.descriptors, List.mem_cons] at hd
  rcases hd with rfl | hd
  · split
    · exact ⟨_, _, rfl, rfl⟩
    · exact ⟨_, _, rfl, rfl⟩
  · obtain ⟨extra, hextra, rfl⟩ := List.mem_map.mp hd
    have hsome : ep.extra = some extra := Option.mem_toList.mp hextra
    have hstarts := h extra hsome
    rw [USBDescEndpoint.extralen, hsome] at hstarts
    exact selfSized_other hstarts

theorem selfSized_iface {iface : USBDescIface} (h : iface.WellFormed) :
    ∀ d ∈ iface.descriptors, SelfSized BitVec.toNat d.bytes := by
  intro d hd
  rw [USBDescIface.descriptors, List.mem_cons, List.mem_append] at hd
  rcases hd with rfl | hdesc | hep
  · exact ⟨_, _, rfl, rfl⟩
  · obtain ⟨i, hi, rfl⟩ := List.mem_map.mp hdesc
    exact selfSized_other (h.descs i (List.mem_range.mp hi))
  · obtain ⟨i, hi, hd⟩ := List.mem_flatMap.mp hep
    exact selfSized_endpoint (h.eps i (List.mem_range.mp hi)) d hd

theorem selfSized_config {conf : USBDescConfig} (h : conf.WellFormed) (wTotalLength : BitVec 16) :
    ∀ d ∈ conf.descriptors wTotalLength, SelfSized BitVec.toNat d.bytes := by
  intro d hd
  rw [USBDescConfig.descriptors, List.mem_cons] at hd
  rcases hd with rfl | hd
  · exact ⟨_, _, rfl, rfl⟩
  · obtain ⟨i, hi, hd⟩ := List.mem_flatMap.mp hd
    exact selfSized_iface (h i (List.mem_range.mp hi)) d hd

theorem walk_encoding {conf : USBDescConfig} (h : conf.WellFormed) (wTotalLength : BitVec 16) :
    walk BitVec.toNat (encoding (conf.descriptors wTotalLength)) =
      some ((conf.descriptors wTotalLength).map Descriptor.bytes) := by
  rw [encoding, List.flatMap_def]
  refine walk_flatten fun part hpart => ?_
  obtain ⟨d, hd, rfl⟩ := List.mem_map.mp hpart
  exact selfSized_config h wTotalLength d hd

/-- What a call with `len` bytes of destination results in: a failure or a length that fits,
nothing stored past the destination, success exactly when the tree fits; and then the length in
the header is the one returned and the walk over the output finds the descriptors in order. -/
structure Encoded (conf : USBDescConfig) (dest : Nat → Byte) (len : Nat) (r : Int × (Nat → Byte)) :
    Prop where
  result : r.1 = -1 ∨ ∃ n : Nat, n ≤ len ∧ r.1 = n
  confined : ∀ i, len ≤ i → r.2 i = dest i
  succeeds : 0 ≤ r.1 ↔ conf.size ≤ len
  total : ∀ n : Nat, r.1 = n → (r.2 3 ++ r.2 2).toNat = n
  recovered : ∀ n : Nat, r.1 = n → ∃ pieces, walk BitVec.toNat (slice r.2 0 n) = some pieces ∧
    List.Forall₂ (fun d piece => read d.kind piece = some d)
      (conf.descriptors (BitVec.ofNat 16 n)) pieces

/-- Every tree whose class and extra descriptors start with their length is encoded. -/
theorem encoded_readConfigurationDesc {conf : USBDescConfig} (hconf : conf.WellFormed)
    (dest : Nat → Byte) {len : Nat} (hlen : len ≤ 65535) :
    Encoded conf dest len (readConfigurationDesc conf dest len) := by
  by_cases hfits : conf.size ≤ len
  · have hread := readConfigurationDesc_fits conf dest hlen hfits
    have hlength := length_encoding conf (BitVec.ofNat 16 conf.size)
    have hwalk := walk_encoding hconf (BitVec.ofNat 16 conf.size)
    rw [hread]
    refine ⟨.inr ⟨conf.size, hfits, rfl⟩, fun i hi => ?_, iff_of_true (by omega) hfits, ?_, ?_⟩
    · have hend : 0 + (encoding (conf.descriptors (BitVec.ofNat 16 conf.size))).length ≤ i := by
        omega
      exact put_of_ge hend
    · intro n hn
      have hnat : (BitVec.ofNat 16 conf.size).toNat = conf.size := Nat.mod_eq_of_lt (by omega)
      have hword := getWord_append (BitVec.ofNat 16 conf.size)
      rw [encoding_descriptors]
      exact (congrArg BitVec.toNat hword).trans (hnat.trans (Int.ofNat.inj hn))
    · intro n hn
      obtain rfl : conf.size = n := Int.ofNat.inj hn
      have hslice : slice (put dest 0 (encoding (conf.descriptors (BitVec.ofNat 16 conf.size)))) 0
          conf.size = encoding (conf.descriptors (BitVec.ofNat 16 conf.size)) := by
        rw [← hlength]
        exact slice_put
      refine ⟨_, hslice ▸ hwalk, ?_⟩
      rw [List.forall₂_map_right_iff, List.forall₂_same]
      exact fun d _ => read_bytes d
  · obtain ⟨hrc, hrest⟩ := readConfigurationDesc_full conf dest hlen (not_le.mp hfits)
    have hnone (n : Nat) : (readConfigurationDesc conf dest len).1 ≠ n := by
      rw [hrc]
      omega
    refine ⟨.inl hrc, hrest, iff_of_false (by rw [hrc]; decide) hfits, ?_, ?_⟩
    · exact fun n hn => absurd hn (hnone n)
    · exact fun n hn => absurd hn (hnone n)

/-- One interface with a class descriptor, and an endpoint with an extra descriptor. -/
def sampleConfig : USBDescConfig where
  bNumInterfaces := 1
  bConfigurationValue := 1
  iConfiguration := 0
  bmAttributes := 0x80
  bMaxPower := 50
  nif := 1
  ifs _ :=
    { bInterfaceNumber := 0, bAlternateSetting := 0, bNumEndpoints := 1, bInterfaceClass := 0x58
      bInterfaceSubClass := 0x42, bInterfaceProtocol := 0, iInterface := 0, ndesc := 1
      descs := fun _ => ⟨0, fun i => [0x03, 0x42, 0x07].getD i 0⟩
      eps := fun _ => ⟨0x82, 3, 0x20, 4, 0, 0, 0, some fun i => [0x02, 0x25].getD i 0⟩ }

theorem encoded_sample : sampleConfig.WellFormed ∧
    Encoded sampleConfig (fun _ => 0) 64 (readConfigurationDesc sampleConfig (fun _ => 0) 64) := by
  have hconf : sampleConfig.WellFormed := by
    intro i _
    refine ⟨fun j _ => ⟨rfl, ?_⟩, fun j _ extra hextra => ?_⟩
    · exact (by decide : 2 ≤ (0x03 : Byte).toNat)
    · obtain rfl := Option.some.inj hextra
      exact ⟨rfl, (by decide : 2 ≤ (0x02 : Byte).toNat)⟩
  exact ⟨hconf, encoded_readConfigurationDesc hconf _ (by decide)⟩

end OpenXbox.Usb.Descriptors
