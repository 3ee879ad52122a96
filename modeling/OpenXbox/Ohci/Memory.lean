import OpenXbox.Cpu.VirtualCopy

/-!
# Descriptors in guest memory

The controller reads and writes its descriptors at virtual addresses, through the copies
of the CPU module: each page is translated by the guest's page table, which is in the
same memory. A copy stops at the first page that is not mapped; the rest of the
destination is left as it was, and the result of the copy is not looked at.
-/

namespace OpenXbox.Ohci.Memory

open OpenXbox.Lib.Bits OpenXbox.Lib.Loop OpenXbox.Cpu.VirtualMemory OpenXbox.Cpu.VirtualCopy

abbrev Byte := BitVec 8
abbrev Word := BitVec 32

/-- The memory of the guest: how addresses are translated, the ranges of physical memory,
and the host's memory that they are parts of. Ranges are allocated by pages. -/
structure GuestMemory where
  paging : Paging
  map : HostMap
  host : Host
  aligned : ∀ r ∈ map, HostRange.Aligned r
  paged : ∀ r ∈ map, r.data % 4096 = 0

/-- Where in the host's memory the byte at an address is. -/
def place (mem : GuestMemory) (addr : Word) : Option Nat := written mem.paging mem.map mem.host addr

/-- The first `n` bytes from an address on are mapped. -/
def mapped (mem : GuestMemory) (addr : Word) (n : Nat) : Bool :=
  (List.range n).all fun i => (place mem (addr + BitVec.ofNat 32 i)).isSome

/-- What a copy of `n` bytes has changed when it ends, which it does after `n` turns. -/
def copied {σ : Type} (c : Copy σ) (addr : Word) (n : Nat) (changed : σ) : σ :=
  match loop (copyBody c (BitVec.ofNat 32 n)) (n + 1) (startCopy addr (BitVec.ofNat 32 n) changed) with
  | some s => s.changed
  | none => changed

/-- `VMemRead` of `n` bytes into a variable that holds `old`. -/
def vmemRead (mem : GuestMemory) (addr : Word) (n : Nat) (old : Nat → Byte) : Nat → Byte :=
  copied (readCopy mem.paging mem.map mem.host) addr n old

/-- `VMemWrite` of the first `n` bytes of a variable. -/
def vmemWrite (mem : GuestMemory) (addr : Word) (n : Nat) (bytes : Nat → Byte) : GuestMemory :=
  { mem with host := copied (writeCopy mem.paging mem.map bytes) addr n mem.host }

def wordAt (bytes : Nat → Byte) (i : Nat) : Word :=
  le32 (bytes i) (bytes (i + 1)) (bytes (i + 2)) (bytes (i + 3))

/-- `OHCI_ED`. -/
structure EndpointDescriptor where
  flags : Word
  tailP : Word
  headP : Word
  nextED : Word

def EndpointDescriptor.ofBytes (bytes : Nat → Byte) : EndpointDescriptor :=
  ⟨wordAt bytes 0, wordAt bytes 4, wordAt bytes 8, wordAt bytes 12⟩

def EndpointDescriptor.bytes (ed : EndpointDescriptor) : Nat → Byte :=
  leBytes [ed.flags, ed.tailP, ed.headP, ed.nextED]

/-- `OHCI_TD`. -/
structure TransferDescriptor where
  flags : Word
  currentBufferPointer : Word
  nextTD : Word
  bufferEnd : Word

def TransferDescriptor.ofBytes (bytes : Nat → Byte) : TransferDescriptor :=
  ⟨wordAt bytes 0, wordAt bytes 4, wordAt bytes 8, wordAt bytes 12⟩

def TransferDescriptor.bytes (td : TransferDescriptor) : Nat → Byte :=
  leBytes [td.flags, td.currentBufferPointer, td.nextTD, td.bufferEnd]

/-- `OHCI_ISO_TD`; `offset i` is also defined past the eighth entry, where the source
reads what follows the variable. -/
structure IsoDescriptor where
  flags : Word
  bufferPage0 : Word
  nextTD : Word
  bufferEnd : Word
  offset : Nat → BitVec 16

def IsoDescriptor.ofBytes (bytes : Nat → Byte) : IsoDescriptor :=
  ⟨wordAt bytes 0, wordAt bytes 4, wordAt bytes 8, wordAt bytes 12,
    fun i => bytes (16 + 2 * i + 1) ++ bytes (16 + 2 * i)⟩

def IsoDescriptor.bytes (td : IsoDescriptor) (i : Nat) : Byte :=
  if i < 16 then leBytes [td.flags, td.bufferPage0, td.nextTD, td.bufferEnd] i
  else (td.offset ((i - 16) / 2) >>> (8 * (i % 2))).setWidth 8

def readED (mem : GuestMemory) (paddr : Word) (old : EndpointDescriptor) : EndpointDescriptor :=
  .ofBytes (vmemRead mem paddr 16 old.bytes)

def readTD (mem : GuestMemory) (paddr : Word) (old : Nat → Byte) : TransferDescriptor :=
  .ofBytes (vmemRead mem paddr 16 old)

def writeTD (mem : GuestMemory) (paddr : Word) (td : TransferDescriptor) : GuestMemory :=
  vmemWrite mem paddr 16 td.bytes

def readIsoTD (mem : GuestMemory) (paddr : Word) (old : Nat → Byte) : IsoDescriptor :=
  .ofBytes (vmemRead mem paddr 32 old)

def writeIsoTD (mem : GuestMemory) (paddr : Word) (td : IsoDescriptor) : GuestMemory :=
  vmemWrite mem paddr 32 td.bytes

/-- `OHCI_WriteED`: the four bytes come from 32 words after the descriptor (the pointer
is advanced by descriptors, not by bytes), and they go to its first word. -/
def writeED (mem : GuestMemory) (paddr : Word) (behind : Word) : GuestMemory :=
  vmemWrite mem paddr 4 (leBytes [behind])

end OpenXbox.Ohci.Memory
