import OpenXbox.Lib.RunLength
import OpenXbox.Loader.Image

/-!
# The logo bitmap

A bitmap of 100 by 17 grey pixels, of which the upper four bits are kept, in runs of one byte or of
two. The first pixel is not encoded. A bitmap is memory from a pointer on.
-/

namespace OpenXbox.Loader.Logo

open OpenXbox.Lib OpenXbox.Lib.RunLength OpenXbox.Loader.Image

/-- `100*17`. -/
def pixels : Nat := 1700

/-- The colour of a pixel: its upper four bits. -/
def color (gray : Nat → Byte) (v : Nat) : Byte := gray v >>> 4

section Encoding

/-- `m_Eight`: the type bit, three bits of length and four of colour. -/
def eight (len : Nat) (data : Byte) : Byte :=
  1#8 ||| ((BitVec.ofNat 8 len &&& 0x7) <<< 1) ||| (data <<< 4)

/-- `m_Sixteen`: two type bits, ten bits of length and four of colour. -/
def sixteen (len : Nat) (data : Byte) : BitVec 16 :=
  2#16 ||| ((BitVec.ofNat 16 len &&& 0x3FF) <<< 2) ||| (data.setWidth 16 <<< 12)

def chunk (len : Nat) (data : Byte) : List Byte :=
  if len ≤ 7 then [eight len data]
  else [(sixteen len data).setWidth 8, (sixteen len data >>> 8).setWidth 8]

/-- The scan of a run from pixel `v` on. It ends before the last pixel. -/
def run (gray : Nat → Byte) (v : Nat) : Nat × Nat :=
  scan (color gray) (pixels - 1) 1024 (color gray v) v 1

theorem run_isRun (gray : Nat → Byte) (v : Nat) :
    IsRun (color gray) (pixels - 1) 1024 v (run gray v).2 ∧ (run gray v).1 = v + (run gray v).2 :=
  scan_isRun (by decide) v

theorem lt_run (gray : Nat → Byte) (v : Nat) : v < (run gray v).1 := by
  obtain ⟨hrun, hend⟩ := run_isRun gray v
  have hpos := hrun.pos
  omega

/-- The loop over the runs, from pixel `v` on. -/
def encodeLoop (gray : Nat → Byte) (v : Nat) : List Byte :=
  if v < pixels then chunk (run gray v).2 (color gray v) ++ encodeLoop gray (run gray v).1 else []
termination_by pixels - v
decreasing_by
  have := lt_run gray v
  omega

def encodeLogo (gray : Nat → Byte) : List Byte := encodeLoop gray 1

end Encoding

section Decoding

/-- The inner loop: the next `len` pixels that are in the bitmap. -/
def fill (gray : Nat → Byte) (o : Nat) (data : Byte) : Nat → Nat → Byte
  | 0 => gray
  | len + 1 =>
    fill (if o + 1 < pixels then Buffer.store gray (o + 1) (data <<< 4) else gray) (o + 1) data len

/-- The two bytes of `m_Sixteen`. -/
def wordAt (rle : Nat → Byte) (v : Nat) : BitVec 16 := rle (v + 1) ++ rle v

end Decoding

section Object

/-- `memcpy` to a pointer. -/
def memcpy (x : Xbe) (bytes : List Byte) : Pointer → Xbe
  | .header i => { x with header := Buffer.put x.header i bytes }
  | .headerEx i =>
    { x with headerEx := x.headerEx.map fun b => { b with bytes := Buffer.put b.bytes i bytes } }
  | .section v i =>
    { x with bzSection := x.bzSection.map fun blocks =>
        blocks.modify v fun b => { b with bytes := Buffer.put b.bytes i bytes } }

/-- `GetLogoBitmap`: the headers shrink to the size asked for. -/
def getLogoBitmap (x : Xbe) (size : Word) : Option (Xbe × Option Pointer) :=
  let offs := x.dwLogoBitmapAddr - x.dwBaseAddr
  let length := x.dwSizeofLogoBitmap
  if offs = 0 ∨ length = 0 then some (x, none)
  else if length ≥ size ∧ offs < x.dwSizeofHeaders then
    let y := (x.setField 0x108 (x.dwSizeofHeaders - length + size)).setField 0x174 size
    (y.getAddr y.dwLogoBitmapAddr).map fun p => (y, p)
  else some (x, none)

/-- `ImportLogoBitmap`; `none` is a crash of `GetAddr`. -/
def importLogoBitmap (x : Xbe) (gray : Nat → Byte) : Option Xbe :=
  let logo := encodeLogo gray
  (getLogoBitmap x (BitVec.ofNat 32 logo.length)).map fun r =>
    match r.2 with
    | none => { r.1 with error := true }
    | some p => memcpy r.1 logo p

end Object

end OpenXbox.Loader.Logo
