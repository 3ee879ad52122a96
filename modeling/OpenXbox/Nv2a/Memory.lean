import OpenXbox.Lib.Bits

/-!
# DMA objects of the NV2A

`ramin` and `vram` are the host memory at `m_pRAMIN` and `m_VRAM`. A DMA object
is three words of RAMIN; mapping it gives an offset into VRAM and a length.
-/

namespace OpenXbox.Nv2a.Memory

open OpenXbox.Lib.Bits

abbrev Byte := BitVec 8
abbrev Word := BitVec 32

/-- `ldl_le_p` at a byte offset of a memory. -/
def ldlLeP (mem : Nat → Byte) (i : Nat) : Word :=
  le32 (mem i) (mem (i + 1)) (mem (i + 2)) (mem (i + 3))

def NV_PRAMIN_SIZE : Word := 0x100000

structure DMAObject where
  dmaClass : Word
  dmaTarget : Word
  address : Word
  limit : Word

/-- `nv_dma_load`; `none` when its assertion fails. -/
def nvDmaLoad (ramin : Nat → Byte) (dmaObjAddress : Word) : Option DMAObject :=
  if dmaObjAddress < NV_PRAMIN_SIZE then
    let flags := ldlLeP ramin dmaObjAddress.toNat
    let limit := ldlLeP ramin (dmaObjAddress.toNat + 4)
    let frame := ldlLeP ramin (dmaObjAddress.toNat + 8)
    some
      { dmaClass := flags &&& 0x00000FFF
        dmaTarget := (flags &&& 0x00030000) >>> 16
        address := (frame &&& 0xFFFFF000) ||| ((flags &&& 0xFFF00000) >>> 20)
        limit := limit }
  else none

/-- `nv_dma_map`: the offset from `m_VRAM` of the pointer returned, and the length. -/
def nvDmaMap (ramin : Nat → Byte) (dmaObjAddress : Word) : Option (Nat × Word) :=
  (nvDmaLoad ramin dmaObjAddress).map fun dma =>
    ((dma.address &&& 0x07FFFFFF).toNat, dma.limit)

end OpenXbox.Nv2a.Memory
