import OpenXbox.Lib.Loop
import OpenXbox.Cpu.WalkAgreement

/-!
# Copies from and to virtual memory

`VMemRead` and `VMemWrite` copy page by page. The mapped ranges are parts of the host's
memory, which `MemWrite` changes; several ranges may show the same part. The copy of one
byte at a time is there to compare them with.
-/

namespace OpenXbox.Cpu.VirtualMemory

open OpenXbox.Lib.Loop OpenXbox.Cpu.Memory OpenXbox.Cpu.PageWalk

abbrev Byte := BitVec 8

abbrev Host := Nat → Byte

/-- A mapped range whose first byte is at the place `data` of the host's memory. -/
structure HostRange where
  startingAddress : Word
  endingAddress : Word
  data : Nat

abbrev HostMap := List HostRange

/-- The range with its contents. -/
def HostRange.view (host : Host) (r : HostRange) : PhysicalMemoryRange :=
  ⟨r.startingAddress, r.endingAddress, fun i => host (r.data + i)⟩

def view (m : HostMap) (host : Host) : PhysMemMap := m.map (HostRange.view host)

def HostRange.admits (r : HostRange) (addr size : Word) : Bool :=
  decide (addr ≥ r.startingAddress) && decide (addr + size - 1 ≤ r.endingAddress)

/-- Where a physical address of the range is in the host's memory. -/
def HostRange.place (r : HostRange) (addr : Word) : Nat := r.data + (addr - r.startingAddress).toNat

/-- `Cpu::MemWrite`: the host's memory afterwards, or `none` when no range admits the
access. -/
def memWrite (m : HostMap) (addr size : Word) (value : Nat → Byte) (host : Host) : Option Host :=
  (m.find? fun r => r.admits addr size).map fun r a =>
    if r.place addr ≤ a ∧ a < r.place addr + size.toNat then value (a - r.place addr) else host a

/-- `memcpy` of some bytes to a buffer from the position `pos` on. -/
def copyTo (pos : Nat) (bytes : List Byte) (value : Nat → Byte) : Nat → Byte :=
  fun i => if pos ≤ i ∧ i < pos + bytes.length then bytes.getD (i - pos) 0 else value i

inductive Status where
  | ok
  | invalidAddress

/-- What a copy translates addresses with, and how it copies `size` bytes between a
physical address and the position `pos` of the buffer. What it changes is `σ`: the buffer
or the host's memory. -/
structure Copy (σ : Type) where
  virtualToPhysical : σ → Word → Option Word
  access (physAddr size pos : Word) : σ → Option σ

/-- CR3, and what the two local entries of the walk hold before they are read. -/
structure Paging where
  cr3 : Word
  pde : Word
  pte : Word

def toPhysical (p : Paging) (m : HostMap) (host : Host) (vaddr : Word) : Option Word :=
  virtualToPhysical (view m host) p.cr3 vaddr p.pde p.pte

def readCopy (p : Paging) (m : HostMap) (host : Host) : Copy (Nat → Byte) where
  virtualToPhysical := fun _ => toPhysical p m host
  access := fun physAddr size pos value =>
    (memRead (view m host) physAddr size).map fun bytes => copyTo pos.toNat bytes value

def writeCopy (p : Paging) (m : HostMap) (value : Nat → Byte) : Copy Host where
  virtualToPhysical := fun host => toPhysical p m host
  access := fun physAddr size pos => memWrite m physAddr size fun i => value (pos.toNat + i)

structure CopyState (σ : Type) where
  srcAddrStart : Word
  srcAddrEnd : Word
  pos : Word
  copySize : Word
  changed : σ
  status : Status

/-- The locals before the loop. -/
def startCopy {σ : Type} (vaddr size : Word) (changed : σ) : CopyState σ :=
  let srcAddrEnd := ((vaddr + PAGE_SIZE) &&& ~~~(PAGE_SIZE - 1)) - 1
  let copySize := srcAddrEnd - vaddr + 1
  ⟨vaddr, srcAddrEnd, 0, if size < copySize then size else copySize, changed, .ok⟩

/-- The loop of `VMemRead` and of `VMemWrite`. -/
def copyBody {σ : Type} (c : Copy σ) (size : Word) (s : CopyState σ) : Turn (CopyState σ) :=
  if s.pos < size then
    match c.virtualToPhysical s.changed s.srcAddrStart with
    | none => .exit { s with status := .invalidAddress }
    | some physAddr =>
      match c.access physAddr s.copySize s.pos s.changed with
      | none => .exit { s with status := .invalidAddress }
      | some changed =>
        let pos := s.pos + s.copySize
        let copySize := size - pos
        .next
          { srcAddrStart := s.srcAddrEnd + 1
            srcAddrEnd := s.srcAddrEnd + PAGE_SIZE
            pos := pos
            copySize := if PAGE_SIZE < copySize then PAGE_SIZE else copySize
            changed := changed
            status := .ok }
  else .exit s

/-- What the caller sees: the number of bytes is stored on success only. -/
structure Outcome (σ : Type) where
  changed : σ
  status : Status
  bytes : Option Word

def CopyState.outcome {σ : Type} (s : CopyState σ) : Outcome σ :=
  ⟨s.changed, s.status, match s.status with | .ok => some s.pos | .invalidAddress => none⟩

/-- `VMemRead` into a buffer that holds `value` comes to this end. -/
def VMemRead (p : Paging) (m : HostMap) (host : Host) (vaddr size : Word) (value : Nat → Byte)
    (o : Outcome (Nat → Byte)) : Prop :=
  ∃ t, Ends (copyBody (readCopy p m host) size) (startCopy vaddr size value) t ∧ t.outcome = o

/-- `VMemWrite` of the buffer `value` comes to this end. -/
def VMemWrite (p : Paging) (m : HostMap) (vaddr size : Word) (value : Nat → Byte) (host : Host)
    (o : Outcome Host) : Prop :=
  ∃ t, Ends (copyBody (writeCopy p m value) size) (startCopy vaddr size host) t ∧ t.outcome = o

/-! ## One byte at a time -/

/-- The byte number `i` is translated and copied by itself. -/
def byteStep {σ : Type} (c : Copy σ) (vaddr : Word) (i : Nat) (changed : σ) : Option σ :=
  (c.virtualToPhysical changed (vaddr + BitVec.ofNat 32 i)).bind fun physAddr =>
    c.access physAddr 1 (BitVec.ofNat 32 i) changed

/-- `n` bytes from number `i` on, in increasing order, up to the first that fails. -/
def byteSteps {σ : Type} (c : Copy σ) (vaddr : Word) : Nat → Nat → σ → σ × Status
  | 0, _, changed => (changed, .ok)
  | n + 1, i, changed =>
    match byteStep c vaddr i changed with
    | none => (changed, .invalidAddress)
    | some next => byteSteps c vaddr n (i + 1) next

/-- The copy of `size` bytes one by one. -/
def byteCopy {σ : Type} (c : Copy σ) (vaddr size : Word) (changed : σ) : Outcome σ :=
  let r := byteSteps c vaddr size.toNat 0 changed
  ⟨r.1, r.2, match r.2 with | .ok => some size | .invalidAddress => none⟩

end OpenXbox.Cpu.VirtualMemory
