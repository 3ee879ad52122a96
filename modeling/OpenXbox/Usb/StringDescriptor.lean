import OpenXbox.Lib.Utf16
import OpenXbox.Usb.Requests
import OpenXbox.Xid.Gamepad

/-!
# String descriptors

`USB_ReadStringDesc` against the descriptor that the host reads: the first byte of a descriptor
counts its bytes, and a string follows in UTF-16. A character of a string is one byte, which is
its code point.
-/

namespace OpenXbox.Usb.StringDescriptor

open OpenXbox.Lib.Buffer OpenXbox.Lib.Utf16 OpenXbox.Usb.Control OpenXbox.Usb.Requests
open OpenXbox.Xid.Gamepad (usbXidInitfn)

/-- The bytes that a descriptor of at most `len` bytes has for a string: `bLength` is a byte. -/
def stringRoom (len : Nat) : Nat := min 255 len - 2

/-- What reading a string descriptor returns and leaves in the buffer is as it should be. -/
structure Encodes (dev : Device) (index : Nat) (dest : Nat → Byte) (len : Nat)
    (r : Int × (Nat → Byte)) : Prop where
  nonneg : 0 ≤ r.1
  bounded : r.1 ≤ len
  inside : ∀ i, len ≤ i → r.2 i = dest i
  length : 0 < r.1 → ((r.2 0).toNat : Int) = r.1
  languages : index = 0 → slice r.2 2 (r.1.toNat - 2) = [0x09, 0x04]
  contents : index ≠ 0 → ∀ str, usbDescGetString dev index = some str →
    ∃ p, LongestFitting (stringRoom len) (text str) p ∧ slice r.2 2 (r.1.toNat - 2) = utf16le p
  missing : index ≠ 0 → usbDescGetString dev index = none → r.1 = 0 ∧ r.2 = dest

/-- A string whose length byte agrees with what is written of it: it is written whole and the byte
holds the length, or it is cut where the length has the same lowest eight bits. -/
def Agrees (length len : Nat) : Prop :=
  (length ≤ 126 ∧ 2 * length + 2 ≤ len) ∨
    126 < length ∧ len ≤ 255 ∧ (length + 1) % 128 = len / 2

instance (length len : Nat) : Decidable (Agrees length len) := inferInstanceAs (Decidable (_ ∨ _))

/-- The characters that are written. -/
def written (length len : Nat) : Nat := min length ((len - 2) / 2)

/-- The loop writes characters until the string or the room is at its end. -/
theorem writeString_eq (len : Nat) (str : List Byte) (dest : Nat → Byte) (pos : Nat) :
    writeString (pos + 2 * str.length) len str dest pos =
      (pos + 2 * min str.length ((len - pos) / 2),
        put dest pos (utf16le (text (str.take ((len - pos) / 2))))) := by
  induction str generalizing dest pos with
  | nil => simp [writeString, text, utf16le]
  | cons c str ih =>
    have hmore : pos + 1 < pos + 2 * (c :: str).length := by
      rw [List.length_cons]
      omega
    by_cases hroom : pos + 1 < len
    · have hhalf : (len - pos) / 2 = (len - (pos + 2)) / 2 + 1 := by omega
      have hbound : pos + 2 * (c :: str).length = pos + 2 + 2 * str.length := by
        rw [List.length_cons]
        omega
      have hnext : pos + 2 = pos + [c, (0 : Byte)].length := rfl
      rw [writeString, if_pos ⟨hmore, hroom⟩, hbound, ih, hhalf, List.take_succ_cons,
        List.length_cons, utf16le_text, utf16le_text, List.flatMap_cons, put_put hnext]
      refine Prod.ext ?_ rfl
      change pos + 2 + 2 * min _ _ = pos + 2 * min _ _
      omega
    · have hhalf : (len - pos) / 2 = 0 := by omega
      rw [writeString, if_neg (fun h => hroom h.2), hhalf]
      simp [text, utf16le]

/-- What is read of a string that the device has. -/
theorem usbReadStringDesc_some {dev : Device} {index len : Nat} {str : List Byte}
    (hlen : 4 ≤ len) (hindex : index ≠ 0) (hstr : usbDescGetString dev index = some str)
    (dest : Nat → Byte) :
    usbReadStringDesc dev index dest len =
      (((2 + 2 * written str.length len : Nat) : Int),
        put dest 0 (BitVec.ofNat 8 (2 * str.length + 2) :: 0x03 ::
          utf16le (text (str.take ((len - 2) / 2))))) := by
  have hsum : str.length * 2 + 2 = 2 + 2 * str.length := by omega
  have hheader : 2 = 0 + [BitVec.ofNat 8 (2 + 2 * str.length), (0x03 : Byte)].length := rfl
  rw [usbReadStringDesc, if_neg (by omega), if_neg hindex, hstr]
  dsimp only
  rw [hsum, writeString_eq]
  dsimp only
  rw [put_put hheader, Nat.add_comm 2 (2 * str.length)]
  rfl

/-- The length byte is the count of the bytes written, and all that fits of the string is
written. -/
theorem agrees_iff (length : Nat) {len : Nat} (hlen : 4 ≤ len) :
    Agrees length len ↔
      (2 * length + 2) % 256 = 2 + 2 * written length len ∧
        written length len = min length (stringRoom len / 2) := by
  unfold Agrees written stringRoom
  omega

/-- A string is one that the device has none of, the language list, or one whose length byte
agrees with what is written. -/
def Readable (dev : Device) (index len : Nat) : Prop :=
  index ≠ 0 → ∀ str, usbDescGetString dev index = some str → Agrees str.length len

section Read

variable {dev : Device} {index len : Nat} {str : List Byte} {dest : Nat → Byte}

theorem length_payload :
    (utf16le (text (str.take ((len - 2) / 2)))).length = 2 * written str.length len := by
  rw [length_utf16le (basic_text _), text, List.length_map, List.length_take, written, Nat.min_comm]

/-- The payload is the longest part that fits when it is as long as that. -/
theorem payload_fits_iff {p : List Char} (hp : LongestFitting (stringRoom len) (text str) p) :
    utf16le (text (str.take ((len - 2) / 2))) = utf16le p ↔
      written str.length len = min str.length (stringRoom len / 2) := by
  have hp := (longestFitting_iff (basic_text str)).mp hp
  have htext : (text str).length = str.length := List.length_map _
  have hcut : text (str.take ((len - 2) / 2)) = (text str).take ((len - 2) / 2) := by
    rw [text, List.map_take, text]
  constructor
  · intro h
    have hlen := congrArg List.length h
    have hbasic : Basic p := (basic_text str).of_part (hp ▸ List.take_prefix _ _)
    rw [length_payload, length_utf16le hbasic, hp, List.length_take, htext] at hlen
    omega
  · intro h
    have hsame : (text str).take ((len - 2) / 2) = (text str).take (stringRoom len / 2) := by
      rw [List.take_eq_take_iff, htext]
      rw [written] at h
      omega
    rw [hcut, hp, hsame]

/-- A string that the device has is encoded as it should be exactly when its length byte agrees. -/
theorem encodes_some_iff (hlen : 4 ≤ len) (hindex : index ≠ 0)
    (hstr : usbDescGetString dev index = some str) :
    Encodes dev index dest len (usbReadStringDesc dev index dest len) ↔ Agrees str.length len := by
  rw [usbReadStringDesc_some hlen hindex hstr, agrees_iff str.length hlen]
  generalize hbytes : (BitVec.ofNat 8 (2 * str.length + 2) :: 0x03 ::
    utf16le (text (str.take ((len - 2) / 2)))) = bytes
  have hcount : bytes.length = 2 + 2 * written str.length len := by
    rw [← hbytes, List.length_cons, List.length_cons, length_payload]
    omega
  have hfirst : put dest 0 bytes 0 = BitVec.ofNat 8 (2 * str.length + 2) := by
    rw [← hbytes]
    rfl
  have hslice : slice (put dest 0 bytes) 2 (2 + 2 * written str.length len - 2) =
      utf16le (text (str.take ((len - 2) / 2))) := by
    have hdrop : (slice (put dest 0 bytes) 0 bytes.length).drop 2 =
        slice (put dest 0 bytes) (0 + 2) (bytes.length - 2) := drop_slice 2
    rw [slice_put, hcount, Nat.zero_add] at hdrop
    rw [← hdrop, ← hbytes]
    rfl
  have hwritten : 2 + 2 * written str.length len ≤ len := by
    rw [written]
    omega
  constructor
  · intro h
    obtain ⟨p, hp, hcontents⟩ := h.contents hindex str hstr
    have hlength : ((put dest 0 bytes 0).toNat : Int) = ((2 + 2 * written str.length len : Nat) : Int) :=
      h.length (Int.natCast_pos.mpr (by omega))
    rw [Int.toNat_natCast, hslice] at hcontents
    refine ⟨?_, (payload_fits_iff hp).mp hcontents⟩
    rw [hfirst, BitVec.toNat_ofNat] at hlength
    exact_mod_cast hlength
  · rintro ⟨hlength, hfits⟩
    refine ⟨Int.natCast_nonneg _, Int.ofNat_le.mpr hwritten, fun i hi => ?_, fun _ => ?_,
      fun h => absurd h hindex, fun _ s hs => ?_, fun _ hnone => ?_⟩
    · have hpast : 0 + bytes.length ≤ i := by omega
      exact put_of_ge hpast
    · dsimp only
      rw [hfirst, BitVec.toNat_ofNat]
      exact_mod_cast hlength
    · obtain rfl := Option.some.inj (hstr.symm.trans hs)
      have hp : LongestFitting (stringRoom len) (text str) _ :=
        (longestFitting_iff (basic_text str)).mpr rfl
      rw [Int.toNat_natCast, hslice]
      exact ⟨_, hp, (payload_fits_iff hp).mpr hfits⟩
    · rw [hstr] at hnone
      cases hnone

/-- A descriptor read into a buffer of at least four bytes is as it should be exactly when the
length byte of the string, if it is one, agrees with what is written of it. -/
theorem read_string_desc_iff (dev : Device) (index : Nat) (dest : Nat → Byte) (hlen : 4 ≤ len) :
    Encodes dev index dest len (usbReadStringDesc dev index dest len) ↔ Readable dev index len := by
  by_cases hindex : index = 0
  · have hread : usbReadStringDesc dev index dest len = (4, put dest 0 [4, 0x03, 0x09, 0x04]) := by
      rw [usbReadStringDesc, if_neg (by omega), if_pos hindex]
    refine ⟨fun _ h => absurd hindex h, fun _ => ?_⟩
    rw [hread]
    refine ⟨Int.natCast_nonneg 4, Int.ofNat_le.mpr hlen, fun i hi => ?_, fun _ => rfl, fun _ => rfl,
      fun h => absurd hindex h, fun h => absurd hindex h⟩
    have hpast : 0 + [(4 : Byte), 0x03, 0x09, 0x04].length ≤ i := le_trans hlen hi
    exact put_of_ge hpast
  · cases hstr : usbDescGetString dev index with
    | none =>
      have hread : usbReadStringDesc dev index dest len = (0, dest) := by
        rw [usbReadStringDesc, if_neg (by omega), if_neg hindex, hstr]
      refine ⟨fun _ _ s hs => ?_, fun _ => ?_⟩
      · rw [hstr] at hs
        cases hs
      · rw [hread]
        refine ⟨le_rfl, Int.natCast_nonneg _, fun _ _ => rfl, fun h => absurd h (lt_irrefl _),
          fun h => absurd h hindex, fun _ s hs => ?_, fun _ _ => ⟨rfl, rfl⟩⟩
        rw [hstr] at hs
        cases hs
    | some str =>
      rw [encodes_some_iff hlen hindex hstr, Readable]
      constructor
      · intro h _ s hs
        rw [hstr] at hs
        exact Option.some.inj hs ▸ h
      · exact fun h => h hindex str hstr

/-- The product string of a gamepad is read as the longest part that fits. -/
theorem product_string_read :
    Readable (usbXidInitfn [(2, [0x50, 0x61, 0x64])]).dev 2 256 ∧
      Encodes (usbXidInitfn [(2, [0x50, 0x61, 0x64])]).dev 2 (fun _ => 0) 256
        (usbReadStringDesc (usbXidInitfn [(2, [0x50, 0x61, 0x64])]).dev 2 (fun _ => 0) 256) := by
  have hread : Readable (usbXidInitfn [(2, [0x50, 0x61, 0x64])]).dev 2 256 := by
    intro _ str hstr
    obtain rfl : [0x50, 0x61, 0x64] = str := Option.some.inj hstr
    decide
  have hroom : 4 ≤ 256 := by decide
  exact ⟨hread, (read_string_desc_iff _ 2 (fun _ => 0) hroom).mpr hread⟩

/-- A string of 127 characters fills the buffer of a request, and its length byte is zero. -/
theorem long_string_length_wrong :
    ¬ ∀ (dev : Device) (index : Nat) (dest : Nat → Byte) (len : Nat), 4 ≤ len →
      Encodes dev index dest len (usbReadStringDesc dev index dest len) := by
  intro h
  have hstr : usbDescGetString (usbXidInitfn [(2, List.replicate 127 0x41)]).dev 2 =
      some (List.replicate 127 0x41) := rfl
  have hencodes := h (usbXidInitfn [(2, List.replicate 127 0x41)]).dev 2 (fun _ => 0) 256 (by decide)
  have hagrees := (encodes_some_iff (by decide) (by decide) hstr).mp hencodes
  rw [List.length_replicate] at hagrees
  revert hagrees
  decide

/-- The buffer that GET_DESCRIPTOR reads strings into has room for 127 characters. -/
example : Agrees 126 256 ∧ ¬ Agrees 127 256 := by decide

end Read

end OpenXbox.Usb.StringDescriptor
