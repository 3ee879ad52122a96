import Mathlib.Data.BitVec
import Mathlib.Data.List.Basic

/-!
# UTF-16

Texts as the bytes of their code units, the low byte first, and the longest part of a text from
its start that a number of bytes has room for.
-/

namespace OpenXbox.Lib.Utf16

/-- One code unit, or two surrogates for a character beyond the first plane. -/
def codeUnits (c : Char) : List (BitVec 16) :=
  if c.toNat < 0x10000 then [BitVec.ofNat 16 c.toNat]
  else
    [BitVec.ofNat 16 (0xD800 + (c.toNat - 0x10000) / 0x400),
      BitVec.ofNat 16 (0xDC00 + (c.toNat - 0x10000) % 0x400)]

def unitBytes (u : BitVec 16) : List (BitVec 8) := [u.setWidth 8, (u >>> 8).setWidth 8]

def utf16le (t : List Char) : List (BitVec 8) := (t.flatMap codeUnits).flatMap unitBytes

/-- The longest part of a text from its start whose encoding takes at most `room` bytes. -/
structure LongestFitting (room : Nat) (t p : List Char) : Prop where
  part : p <+: t
  fits : (utf16le p).length ≤ room
  longest : ∀ q, q <+: t → (utf16le q).length ≤ room → q.length ≤ p.length

/-- Every character is one of the first plane. -/
def Basic (t : List Char) : Prop := ∀ c ∈ t, c.toNat < 0x10000

theorem Basic.of_part {t p : List Char} (h : Basic t) (hp : p <+: t) : Basic p :=
  fun c hc => h c (hp.subset hc)

theorem utf16le_cons (c : Char) (t : List Char) :
    utf16le (c :: t) = (codeUnits c).flatMap unitBytes ++ utf16le t := by
  simp [utf16le]

theorem length_utf16le {t : List Char} (h : Basic t) : (utf16le t).length = 2 * t.length := by
  induction t with
  | nil => rfl
  | cons c t ih =>
    have hrest : Basic t := fun d hd => h d (List.mem_cons_of_mem c hd)
    have hunits : codeUnits c = [BitVec.ofNat 16 c.toNat] := if_pos (h c List.mem_cons_self)
    have hlen : ((codeUnits c).flatMap unitBytes).length = 2 := by rw [hunits]; rfl
    rw [utf16le_cons, List.length_append, hlen, ih hrest, List.length_cons]
    omega

/-- Characters of the first plane take two bytes each. -/
theorem longestFitting_iff {t p : List Char} (h : Basic t) {room : Nat} :
    LongestFitting room t p ↔ p = t.take (room / 2) := by
  have htake : t.take (room / 2) <+: t := List.take_prefix _ t
  have hlen : (t.take (room / 2)).length = min (room / 2) t.length := List.length_take
  have hsize := length_utf16le (h.of_part htake)
  constructor
  · intro hp
    have hfits := hp.fits
    rw [length_utf16le (h.of_part hp.part)] at hfits
    have hle : p.length ≤ t.length := hp.part.length_le
    have hge : (t.take (room / 2)).length ≤ p.length := hp.longest _ htake (by omega)
    have hsame : p.length = (t.take (room / 2)).length := by omega
    exact (List.prefix_of_prefix_length_le hp.part htake hsame.le).eq_of_length hsame
  · rintro rfl
    refine ⟨htake, by omega, fun q hq hfits => ?_⟩
    rw [length_utf16le (h.of_part hq)] at hfits
    have hle : q.length ≤ t.length := hq.length_le
    omega

/-! ## Strings of one byte a character -/

/-- The text whose code points are the bytes of a string. -/
def text (str : List (BitVec 8)) : List Char := str.map fun b => Char.ofNat b.toNat

theorem toNat_ofByte (b : BitVec 8) : (Char.ofNat b.toNat).toNat = b.toNat := by
  have hvalid : b.toNat.isValidChar := .inl (Nat.lt_trans b.isLt (by decide))
  rw [Char.ofNat, dif_pos hvalid]
  rfl

theorem basic_text (str : List (BitVec 8)) : Basic (text str) := by
  intro c hc
  obtain ⟨b, -, rfl⟩ := List.mem_map.mp hc
  rw [toNat_ofByte]
  exact Nat.lt_trans b.isLt (by decide)

theorem utf16le_text (str : List (BitVec 8)) : utf16le (text str) = str.flatMap fun b => [b, 0] := by
  induction str with
  | nil => rfl
  | cons b str ih =>
    have hunits : codeUnits (Char.ofNat b.toNat) = [BitVec.ofNat 16 b.toNat] := by
      rw [codeUnits, toNat_ofByte, if_pos (Nat.lt_trans b.isLt (by decide))]
    have hbytes : unitBytes (BitVec.ofNat 16 b.toNat) = [b, 0] := by
      have hlow : (BitVec.ofNat 16 b.toNat).setWidth 8 = b := by
        apply BitVec.eq_of_toNat_eq
        have hb := b.isLt
        simp
      have hhigh : (BitVec.ofNat 16 b.toNat >>> 8).setWidth 8 = 0#8 := by
        apply BitVec.eq_of_toNat_eq
        have hb := b.isLt
        simp [Nat.shiftRight_eq_div_pow]
        omega
      rw [unitBytes, hlow, hhigh]
      rfl
    rw [text, List.map_cons, ← text, utf16le_cons, hunits, ih, List.flatMap_singleton, hbytes,
      List.flatMap_cons]

end OpenXbox.Lib.Utf16
