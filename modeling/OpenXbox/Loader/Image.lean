import OpenXbox.Lib.Buffer
import OpenXbox.Lib.LittleEndian

/-!
# An XBE file and its object

The object holds the image header, the bytes after it, the table of sections and their raw data.
Addresses are resolved to pointers into these. The constructor fills them in the order of the
source; a read that meets the end of the file ends it with an error.
-/

namespace OpenXbox.Loader.Image

open OpenXbox.Lib

abbrev Byte := BitVec 8
abbrev Word := BitVec 32

/-- A file; an offset from its size on is not in it. -/
structure File where
  bytes : Nat → Byte
  size : Nat

/-- A block of memory that has been allocated and filled. -/
structure Block where
  bytes : Nat → Byte
  size : Nat

/-- `fread` of one item, which fails at the end of the file. -/
def File.read (f : File) (offset length : Nat) : Option Block :=
  if offset + length ≤ f.size then some ⟨fun i => f.bytes (offset + i), length⟩ else none

def sizeofHeader : Nat := 0x178
def sizeofCertificate : Nat := 0x1D0
def sizeofSectionHeader : Nat := 0x38
def sizeofLibraryVersion : Nat := 0x10

def magicXBEH : Word := 0x48454258

structure SectionHeader where
  dwVirtualAddr : Word
  dwVirtualSize : Word
  dwRawAddr : Word
  dwSizeofRaw : Word
  dwSectionNameAddr : Word

/-- `headerEx` is absent while it is a null pointer, and so is `bzSection`. -/
structure Xbe where
  header : Nat → Byte
  headerEx : Option Block
  sectionHeader : List SectionHeader
  bzSection : Option (List Block)
  error : Bool

section Fields

/-- A field of the image header, by its offset. -/
def Xbe.field (x : Xbe) (offset : Nat) : Word := LittleEndian.load 32 x.header offset 4

def Xbe.setField (x : Xbe) (offset : Nat) (value : Word) : Xbe :=
  { x with header := LittleEndian.store x.header offset value 4 }

def Xbe.dwMagic (x : Xbe) : Word := x.field 0x000
def Xbe.dwBaseAddr (x : Xbe) : Word := x.field 0x104
def Xbe.dwSizeofHeaders (x : Xbe) : Word := x.field 0x108
def Xbe.dwCertificateAddr (x : Xbe) : Word := x.field 0x118
def Xbe.dwSections (x : Xbe) : Word := x.field 0x11C
def Xbe.dwSectionHeadersAddr (x : Xbe) : Word := x.field 0x120
def Xbe.dwTLSAddr (x : Xbe) : Word := x.field 0x12C
def Xbe.dwLibraryVersions (x : Xbe) : Word := x.field 0x160
def Xbe.dwLibraryVersionsAddr (x : Xbe) : Word := x.field 0x164
def Xbe.dwKernelLibraryVersionAddr (x : Xbe) : Word := x.field 0x168
def Xbe.dwXAPILibraryVersionAddr (x : Xbe) : Word := x.field 0x16C
def Xbe.dwLogoBitmapAddr (x : Xbe) : Word := x.field 0x170
def Xbe.dwSizeofLogoBitmap (x : Xbe) : Word := x.field 0x174

/-- The offset of an address from the base address. -/
def Xbe.offset (x : Xbe) (addr : Word) : Nat := (addr - x.dwBaseAddr).toNat

end Fields

section Addresses

/-- A pointer into the object. -/
inductive Pointer
  | header (i : Nat)
  | headerEx (i : Nat)
  | section (v i : Nat)
  deriving DecidableEq

/-- The address is in the virtual range of the section. The end of the range is a 32-bit sum. -/
def SectionHeader.holds (s : SectionHeader) (addr : Word) : Bool :=
  addr ≥ s.dwVirtualAddr ∧ addr < s.dwVirtualAddr + s.dwVirtualSize

/-- The first section that holds the address, with the offset into it. -/
def findSection (sections : List SectionHeader) (addr : Word) (v : Nat) : Option (Nat × Nat) :=
  match sections with
  | [] => none
  | s :: rest =>
    if s.holds addr then some (v, (addr - s.dwVirtualAddr).toNat) else findSection rest addr (v + 1)

/-- `GetAddr`: `some none` is a null pointer. `none` stands for the access to `m_bzSection` while it
is null itself. -/
def Xbe.getAddr (x : Xbe) (addr : Word) : Option (Option Pointer) :=
  if x.offset addr < sizeofHeader then some (some (.header (x.offset addr)))
  else if x.offset addr < x.dwSizeofHeaders.toNat then
    some (some (.headerEx (x.offset addr - sizeofHeader)))
  else
    match findSection x.sectionHeader addr 0 with
    | none => some none
    | some (v, i) => if x.bzSection.isSome then some (some (.section v i)) else none

/-- The byte a pointer points to, if it is one of the object. -/
def Xbe.deref (x : Xbe) : Pointer → Option Byte
  | .header i => if i < sizeofHeader then some (x.header i) else none
  | .headerEx i => x.headerEx.bind fun b => if i < b.size then some (b.bytes i) else none
  | .section v i => x.bzSection.bind fun blocks =>
    blocks[v]?.bind fun b => if i < b.size then some (b.bytes i) else none

end Addresses

section Constructor

/-- `RoundUp`, with the sums of 32 bits. -/
def roundUp (dwValue dwMult : Word) : Word :=
  if dwMult = 0 then dwValue else dwValue - (dwValue - 1) % dwMult + (dwMult - 1)

def readHeader (f : File) : Option Xbe :=
  (f.read 0 sizeofHeader).bind fun b =>
    let x : Xbe := ⟨b.bytes, none, [], none, false⟩
    if x.dwMagic = magicXBEH then some x else none

def readHeaderEx (f : File) (x : Xbe) : Option Xbe :=
  if x.dwSizeofHeaders.toNat > sizeofHeader then
    let exSize := roundUp x.dwSizeofHeaders 0x1000 - BitVec.ofNat 32 sizeofHeader
    (f.read sizeofHeader exSize.toNat).map fun b => { x with headerEx := some b }
  else some x

def readCertificate (f : File) (x : Xbe) : Option Xbe :=
  (f.read (x.offset x.dwCertificateAddr) sizeofCertificate).map fun _ => x

def sectionHeaderOf (b : Block) : SectionHeader :=
  { dwVirtualAddr := LittleEndian.load 32 b.bytes 4 4
    dwVirtualSize := LittleEndian.load 32 b.bytes 8 4
    dwRawAddr := LittleEndian.load 32 b.bytes 12 4
    dwSizeofRaw := LittleEndian.load 32 b.bytes 16 4
    dwSectionNameAddr := LittleEndian.load 32 b.bytes 20 4 }

/-- The table is read one header after the other. -/
def readTable (f : File) (offset : Nat) : Nat → Option (List SectionHeader)
  | 0 => some []
  | n + 1 =>
    (f.read offset sizeofSectionHeader).bind fun b =>
      (readTable f (offset + sizeofSectionHeader) n).map (sectionHeaderOf b :: ·)

def readSectionHeaders (f : File) (x : Xbe) : Option Xbe :=
  (readTable f (x.offset x.dwSectionHeadersAddr) x.dwSections.toNat).map fun table =>
    { x with sectionHeader := table }

/-- The object when the names of the sections are read. -/
def headersLoaded (f : File) : Option Xbe :=
  (readHeader f).bind fun x => (readHeaderEx f x).bind fun x =>
    (readCertificate f x).bind (readSectionHeaders f)

/-- The names are looked up by their addresses; they are kept for messages only. -/
def readSectionNames (x : Xbe) : Option Xbe :=
  if ∀ s ∈ x.sectionHeader, x.getAddr s.dwSectionNameAddr ≠ none then some x else none

/-- The library versions have to be there, and are kept for messages only. -/
def readLibraryVersions (f : File) (x : Xbe) : Option Xbe :=
  if x.dwLibraryVersionsAddr = 0 then some x
  else if ∃ v < x.dwLibraryVersions.toNat,
      (f.read (x.offset x.dwLibraryVersionsAddr + v * sizeofLibraryVersion) sizeofLibraryVersion).isNone then
    none
  else if x.dwKernelLibraryVersionAddr = 0 then none
  else
    (f.read (x.offset x.dwKernelLibraryVersionAddr) sizeofLibraryVersion).bind fun _ =>
      if x.dwXAPILibraryVersionAddr = 0 then none
      else (f.read (x.offset x.dwXAPILibraryVersionAddr) sizeofLibraryVersion).map fun _ => x

/-- The raw data of the sections. Nothing is read for a section without any. -/
def readBlocks (f : File) : List SectionHeader → Option (List Block)
  | [] => some []
  | s :: rest =>
    let block :=
      if s.dwSizeofRaw = 0 then some ⟨fun _ => 0, 0⟩
      else f.read s.dwRawAddr.toNat s.dwSizeofRaw.toNat
    block.bind fun b => (readBlocks f rest).map (b :: ·)

def readSections (f : File) (x : Xbe) : Option Xbe :=
  (readBlocks f x.sectionHeader).map fun blocks => { x with bzSection := some blocks }

/-- The object when the thread local storage is read. -/
def sectionsLoaded (f : File) : Option Xbe :=
  (headersLoaded f).bind fun x => (readSectionNames x).bind fun x =>
    (readLibraryVersions f x).bind (readSections f)

/-- The directory has to be found; it is copied from there. -/
def readTLS (x : Xbe) : Option Xbe :=
  if x.dwTLSAddr = 0 then some x
  else (x.getAddr x.dwTLSAddr).bind fun p => p.map fun _ => x

/-- A successfully constructed object. -/
def construct (f : File) : Option Xbe := (sectionsLoaded f).bind readTLS

end Constructor

end OpenXbox.Loader.Image
