import Mathlib.Logic.Function.Basic
import OpenXbox.Nv2a.Memory

/-!
# 2D methods of PGRAPH

`pgraph_method` for the 2D surfaces and the image blit. A method only changes the
object of its subchannel, except that the size of a blit starts it. Methods of the
3D object change state that is not modelled here, or words of the shared union.
-/

namespace OpenXbox.Nv2a.Pgraph

open OpenXbox.Nv2a.Memory

def NV_SET_OBJECT : Word := 0x000

def NV_CONTEXT_SURFACES_2D : Byte := 0x62
def NV062_SET_CONTEXT_DMA_IMAGE_SOURCE : Word := 0x184
def NV062_SET_CONTEXT_DMA_IMAGE_DESTIN : Word := 0x188
def NV062_SET_COLOR_FORMAT : Word := 0x300
def NV062_SET_COLOR_FORMAT_LE_Y8 : Word := 0x01
def NV062_SET_COLOR_FORMAT_LE_R5G6B5 : Word := 0x04
def NV062_SET_COLOR_FORMAT_LE_A8R8G8B8 : Word := 0x0A
def NV062_SET_PITCH : Word := 0x304
def NV062_SET_OFFSET_SOURCE : Word := 0x308
def NV062_SET_OFFSET_DESTIN : Word := 0x30C

def NV_IMAGE_BLIT : Byte := 0x9F
def NV09F_SET_CONTEXT_SURFACES : Word := 0x19C
def NV09F_SET_OPERATION : Word := 0x2FC
def NV09F_SET_OPERATION_SRCCOPY : Word := 3
def NV09F_CONTROL_POINT_IN : Word := 0x300
def NV09F_CONTROL_POINT_OUT : Word := 0x304
def NV09F_SIZE : Word := 0x308

def NV_KELVIN_PRIMITIVE : Byte := 0x97
def NV097_SET_CONTEXT_DMA_NOTIFIES : Word := 0x180
def NV097_SET_CONTEXT_DMA_STATE : Word := 0x190
def NV097_SET_CONTEXT_DMA_SEMAPHORE : Word := 0x1A4

/-- `data` is the union of the states of the classes, by words. -/
structure GraphicsObject where
  graphicsClass : Byte
  data : Nat → Word

/-! Words of `ContextSurfaces2DState`. -/

def dmaImageSource : Nat := 0
def dmaImageDest : Nat := 1
def colorFormat : Nat := 2
def sourcePitch : Nat := 3
def destPitch : Nat := 4
def sourceOffset : Nat := 5
def destOffset : Nat := 6

/-! Words of `ImageBlitState`. -/

def contextSurfaces : Nat := 0
def operation : Nat := 1
def inX : Nat := 2
def inY : Nat := 3
def outX : Nat := 4
def outY : Nat := 5
def width : Nat := 6
def height : Nat := 7

/-! Words of `KelvinState`. -/

def dmaNotifies : Nat := 0
def dmaState : Nat := 1
def dmaSemaphore : Nat := 2

def GraphicsObject.set (object : GraphicsObject) (i : Nat) (word : Word) : GraphicsObject :=
  { object with data := Function.update object.data i word }

structure GraphicsSubchannel where
  objectInstance : Word
  object : GraphicsObject

structure PgraphState where
  channelValid : Bool
  subchannelData : BitVec 3 → GraphicsSubchannel

def PgraphState.setObject (g : PgraphState) (subchannel : BitVec 3) (object : GraphicsObject) : PgraphState :=
  { g with
    subchannelData := Function.update g.subchannelData subchannel
      { g.subchannelData subchannel with object := object } }

/-- `lookup_graphics_object`: the first subchannel with the instance. -/
def PgraphState.lookupGraphicsObject (g : PgraphState) (instanceAddress : Word) : Option GraphicsObject :=
  (((List.range 8).map fun i => g.subchannelData (BitVec.ofNat 3 i)).find? fun data =>
    data.objectInstance = instanceAddress).map GraphicsSubchannel.object

/-- A rectangle of pixels in the memory of a DMA object. -/
structure Surface where
  address : Nat
  limit : Word
  offset : Word
  x : Word
  y : Word
  pitch : Word

/-- Where a row starts in the object; the two terms are 32-bit products. -/
def Surface.rowOffset (s : Surface) (bytesPerPixel y : Word) : Nat :=
  s.offset.toNat + ((s.y + y) * s.pitch).toNat + (s.x * bytesPerPixel).toNat

/-- Where a row starts in VRAM. -/
def Surface.row (s : Surface) (bytesPerPixel y : Word) : Nat :=
  s.address + s.rowOffset bytesPerPixel y

structure Blit where
  source : Surface
  dest : Surface
  bytesPerPixel : Word
  width : Word
  height : Word

/-- The bytes of one row. -/
def Blit.rowBytes (b : Blit) : Nat := (b.width * b.bytesPerPixel).toNat

/-- `memmove` within VRAM. -/
def memmove (vram : Nat → Byte) (dest source length : Nat) (i : Nat) : Byte :=
  if dest ≤ i ∧ i < dest + length then vram (source + (i - dest)) else vram i

/-- The rows, from `y = 0` on. -/
def Blit.run (b : Blit) (vram : Nat → Byte) : Nat → Byte :=
  (List.range b.height.toNat).foldl (fun vram y =>
    memmove vram (b.dest.row b.bytesPerPixel (BitVec.ofNat 32 y))
      (b.source.row b.bytesPerPixel (BitVec.ofNat 32 y)) b.rowBytes) vram

/-- The mapping of a surface, with the assertions on its object and its offset. -/
def mapSurface (ramin : Nat → Byte) (dmaObjAddress offset x y pitch : Word) : Option Surface :=
  match nvDmaMap ramin dmaObjAddress with
  | none => none
  | some (address, limit) =>
    if offset < limit then some ⟨address, limit, offset, x, y, pitch⟩ else none

/-- `none` for an unknown format, where the assertion fails. -/
def bytesPerPixelOf (format : Word) : Option Word :=
  if format = NV062_SET_COLOR_FORMAT_LE_Y8 then some 1
  else if format = NV062_SET_COLOR_FORMAT_LE_R5G6B5 then some 2
  else if format = NV062_SET_COLOR_FORMAT_LE_A8R8G8B8 then some 4
  else none

/-- The blit an image object starts between the surfaces of another object. -/
def blitBetween (ramin : Nat → Byte) (image surfaces : GraphicsObject) : Option Blit :=
  match bytesPerPixelOf (surfaces.data colorFormat),
    mapSurface ramin (surfaces.data dmaImageSource) (surfaces.data sourceOffset)
      (image.data inX) (image.data inY) (surfaces.data sourcePitch),
    mapSurface ramin (surfaces.data dmaImageDest) (surfaces.data destOffset)
      (image.data outX) (image.data outY) (surfaces.data destPitch) with
  | some bytesPerPixel, some source, some dest =>
    some ⟨source, dest, bytesPerPixel, image.data width, image.data height⟩
  | _, _, _ => none

/-- What the size of an image starts; `none` when an assertion fails. -/
def startBlit (ramin : Nat → Byte) (g : PgraphState) (image : GraphicsObject) : Option Blit :=
  if image.data operation ≠ NV09F_SET_OPERATION_SRCCOPY then none
  else
    match g.lookupGraphicsObject (image.data contextSurfaces) with
    | none => none
    | some surfaces =>
      if surfaces.graphicsClass ≠ NV_CONTEXT_SURFACES_2D then none
      else blitBetween ramin image surfaces

/-- The words of the 2D surfaces that a method sets. -/
def contextSurfaces2DMethod (object : GraphicsObject) (method parameter : Word) : GraphicsObject :=
  if method = NV062_SET_CONTEXT_DMA_IMAGE_SOURCE then object.set dmaImageSource parameter
  else if method = NV062_SET_CONTEXT_DMA_IMAGE_DESTIN then object.set dmaImageDest parameter
  else if method = NV062_SET_COLOR_FORMAT then object.set colorFormat parameter
  else if method = NV062_SET_PITCH then
    (object.set sourcePitch (parameter &&& 0xFFFF)).set destPitch (parameter >>> 16)
  else if method = NV062_SET_OFFSET_SOURCE then
    object.set sourceOffset (parameter &&& 0x07FFFFFF)
  else if method = NV062_SET_OFFSET_DESTIN then object.set destOffset (parameter &&& 0x07FFFFFF)
  else object

/-- The words of the image blit that a method sets. -/
def imageBlitMethod (object : GraphicsObject) (method parameter : Word) : GraphicsObject :=
  if method = NV09F_SET_CONTEXT_SURFACES then object.set contextSurfaces parameter
  else if method = NV09F_SET_OPERATION then object.set operation parameter
  else if method = NV09F_CONTROL_POINT_IN then
    (object.set inX (parameter &&& 0xFFFF)).set inY (parameter >>> 16)
  else if method = NV09F_CONTROL_POINT_OUT then
    (object.set outX (parameter &&& 0xFFFF)).set outY (parameter >>> 16)
  else if method = NV09F_SIZE then
    (object.set width (parameter &&& 0xFFFF)).set height (parameter >>> 16)
  else object

/-- The words of the union that a 3D method sets. -/
def kelvinMethod (object : GraphicsObject) (method parameter : Word) : GraphicsObject :=
  if method = NV097_SET_CONTEXT_DMA_NOTIFIES then object.set dmaNotifies parameter
  else if method = NV097_SET_CONTEXT_DMA_STATE then object.set dmaState parameter
  else if method = NV097_SET_CONTEXT_DMA_SEMAPHORE then object.set dmaSemaphore parameter
  else object

/-- The object of a subchannel after a method other than `NV_SET_OBJECT`. -/
def objectMethod (object : GraphicsObject) (method parameter : Word) : GraphicsObject :=
  if object.graphicsClass = NV_CONTEXT_SURFACES_2D then
    contextSurfaces2DMethod object method parameter
  else if object.graphicsClass = NV_IMAGE_BLIT then imageBlitMethod object method parameter
  else if object.graphicsClass = NV_KELVIN_PRIMITIVE then kelvinMethod object method parameter
  else object

/-- `NV_SET_OBJECT`: the class is loaded from RAMIN, the union is kept. -/
def loadGraphicsObject (ramin : Nat → Byte) (instanceAddress : Word)
    (object : GraphicsObject) : Option GraphicsObject :=
  if instanceAddress < NV_PRAMIN_SIZE then
    some { object with
      graphicsClass := (ldlLeP ramin instanceAddress.toNat &&& 0xFF).setWidth 8 }
  else none

/-- How `pgraph_method` comes back; a blit is still to be run. -/
inductive MethodResult where
  | aborted
  | returned (g : PgraphState)
  | blit (g : PgraphState) (b : Blit)

def pgraphMethod (ramin : Nat → Byte) (g : PgraphState) (subchannel : BitVec 3)
    (method parameter : Word) : MethodResult :=
  let data := g.subchannelData subchannel
  if !g.channelValid then .aborted
  else if method = NV_SET_OBJECT then
    match loadGraphicsObject ramin parameter data.object with
    | none => .aborted
    | some object =>
      .returned { g with
        subchannelData := Function.update g.subchannelData subchannel ⟨parameter, object⟩ }
  else
    let object := objectMethod data.object method parameter
    let g := g.setObject subchannel object
    if data.object.graphicsClass = NV_IMAGE_BLIT ∧ method = NV09F_SIZE then
      match startBlit ramin g object with
      | none => .aborted
      | some b => .blit g b
    else .returned g

end OpenXbox.Nv2a.Pgraph
