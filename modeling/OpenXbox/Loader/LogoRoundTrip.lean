import OpenXbox.Loader.Addresses
import OpenXbox.Loader.Logo

/-!
# A logo that is imported is exported again

The encoder lets a run have 1024 pixels, one more than its ten bits of length can hold, so that the
decoder takes such a run for an empty one. What follows it moves up, and black comes in at the end.
-/

namespace OpenXbox.Loader.LogoRoundTrip

open OpenXbox.Lib OpenXbox.Lib.RunLength OpenXbox.Loader.Image OpenXbox.Loader.Logo

section Chunks

theorem chunk_length (len : Nat) (data : Byte) :
    (chunk len data).length = if len ≤ 7 then 1 else 2 := by
  rw [chunk]
  split <;> rfl

end Chunks

section Painting

variable {gray : Nat → Byte} {o : Nat}

end Painting

section Decoding

variable {rle gray x : Nat → Byte} {n v o len : Nat} {data : Byte}

/-- The colours that the decoder finds in an encoded bitmap. -/
def decoded (gray : Nat → Byte) (v : Nat) : List Byte :=
  if v < pixels then
    List.replicate ((run gray v).2 % 1024) (color gray v) ++ decoded gray (run gray v).1
  else []
termination_by pixels - v
decreasing_by
  have := lt_run gray v
  omega

end Decoding

section Faithful

variable {gray : Nat → Byte}

/-- The decoder finds the colours of the pixels from `v` on; what it does not find is black. -/
def Faithful (gray : Nat → Byte) (v : Nat) : Prop :=
  ∀ i, v ≤ i → i < pixels → (decoded gray v)[i - v]?.getD 0 = color gray i

theorem run_le (gray : Nat → Byte) {v : Nat} (hv : v < pixels) : v + (run gray v).2 ≤ pixels := by
  obtain hone | hin := (run_isRun gray v).1.within
  · omega
  · omega

section Run

variable {v : Nat}

end Run

end Faithful

section Object

variable {x y : Xbe} {gray : Nat → Byte}

theorem field_setField (x : Xbe) (offset : Nat) (value : Word) :
    (x.setField offset value).field offset = value :=
  LittleEndian.load_store x.header offset (by decide) value

theorem field_setField_of_apart (x : Xbe) {offset other : Nat} (value : Word)
    (h : other + 4 ≤ offset ∨ offset + 4 ≤ other) :
    (x.setField offset value).field other = x.field other :=
  LittleEndian.load_congr fun k hk => LittleEndian.store_of_out (by omega) value

/-- The object with its logo resized. -/
def resized (x : Xbe) (size : Word) : Xbe :=
  (x.setField 0x108 (x.dwSizeofHeaders - x.dwSizeofLogoBitmap + size)).setField 0x174 size

theorem resized_headers (x : Xbe) (size : Word) :
    (resized x size).dwSizeofHeaders = x.dwSizeofHeaders - x.dwSizeofLogoBitmap + size :=
  (field_setField_of_apart _ size (by decide)).trans (field_setField _ _ _)

theorem resized_field (x : Xbe) (size : Word) {other : Nat}
    (h : other + 4 ≤ 0x108 ∨ 0x10C ≤ other ∧ other + 4 ≤ 0x174) :
    (resized x size).field other = x.field other :=
  (field_setField_of_apart _ size (by omega)).trans (field_setField_of_apart _ _ (by omega))

/-- The place of the logo in the bytes after the header. -/
def logoPlace (x : Xbe) : Nat := x.offset x.dwLogoBitmapAddr - sizeofHeader

theorem getAddr_headerEx {addr : Word} (hafter : sizeofHeader ≤ x.offset addr)
    (hin : x.offset addr < x.dwSizeofHeaders.toNat) :
    x.getAddr addr = some (some (.headerEx (x.offset addr - sizeofHeader))) := by
  rw [Xbe.getAddr, if_neg (Nat.not_lt.mpr hafter), if_pos hin]

theorem encodeLogo_pos (gray : Nat → Byte) : 0 < (encodeLogo gray).length := by
  rw [encodeLogo, encodeLoop, if_pos (by decide), List.length_append, chunk_length]
  split <;> omega

section Fits

variable {size : Word}

end Fits

section Pixels

end Pixels

/-- At most a byte for each pixel. -/
theorem encodeLoop_length_le (gray : Nat → Byte) (v : Nat) : (encodeLoop gray v).length ≤ pixels - v := by
  induction hm : pixels - v using Nat.strong_induction_on generalizing v with
  | _ m ih =>
    rw [encodeLoop]
    split
    · rename_i hv
      have hle := run_le gray hv
      have hlt := lt_run gray v
      have hend := (run_isRun gray v).2
      have hrest := ih (pixels - (run gray v).1) (by omega) (run gray v).1 rfl
      rw [List.length_append, chunk_length]
      split <;> omega
    · exact Nat.zero_le _

/-- An image at `0x10000` whose headers end with a logo of 1700 bytes. -/
def logoImage : File where
  bytes i :=
    let word : Word :=
      if i / 4 = 0x000 / 4 then magicXBEH
      else if i / 4 = 0x104 / 4 then 0x10000
      else if i / 4 = 0x108 / 4 then 0x81C
      else if i / 4 = 0x118 / 4 then 0x10000
      else if i / 4 = 0x170 / 4 then 0x10178
      else if i / 4 = 0x174 / 4 then 1700
      else 0
    LittleEndian.byteAt word (i % 4)
  size := 0x1000

theorem logoImage_loaded : ∃ x, construct logoImage = some x ∧ x.error = false ∧
    x.offset x.dwLogoBitmapAddr = 0x178 ∧ x.dwSizeofLogoBitmap.toNat = 1700 ∧
      x.dwSizeofHeaders.toNat = 0x81C := by
  have hsome : (construct logoImage).isSome := by decide
  obtain ⟨x, hx⟩ := Option.isSome_iff_exists.mp hsome
  have hfields : (construct logoImage).map (fun x => (x.error, x.offset x.dwLogoBitmapAddr,
      x.dwSizeofLogoBitmap.toNat, x.dwSizeofHeaders.toNat)) = some (false, 0x178, 1700, 0x81C) := by
    decide
  rw [hx, Option.map_some, Option.some.injEq, Prod.mk.injEq, Prod.mk.injEq, Prod.mk.injEq] at hfields
  exact ⟨x, hx, hfields⟩

end Object

end OpenXbox.Loader.LogoRoundTrip
