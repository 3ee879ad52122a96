import OpenXbox.Cpu.PhysicalMemory

/-!
# Entries of the descriptor tables

The limit of a table is the offset of its last byte. An entry has eight bytes, and lies within
the table when the offset of its last byte is at most the limit. The functions on the two tables
compare other offsets with the limit.
-/

namespace OpenXbox.Cpu.DescriptorTables

open OpenXbox.Cpu.Memory OpenXbox.Cpu.VirtualMemory OpenXbox.Cpu.PhysicalMemory

/-- The failures of an operation. -/
inductive CPUOperationStatus where
  | failed
  | invalidAddress
  | invalidSelector
  | invalidRegister
  | breakpointNeverHit
  | unsupported
deriving DecidableEq

/-- What `GetGDT` and `GetIDT` store. -/
structure DescriptorTable where
  base : Word
  limit : Word

/-- `sizeof(GDTEntry)` and `sizeof(IDTEntry)`. -/
def entrySize : Nat := 8

/-- The status of a copy, and what it changes on success. -/
def copied {σ : Type} : Option σ → Except CPUOperationStatus σ
  | some changed => .ok changed
  | none => .error .invalidAddress

/-- What the four functions have in common: `last` is compared with the limit. -/
def accessEntry {σ : Type} (getTable : Except CPUOperationStatus DescriptorTable) (last : Nat)
    (offset : Word) (copy : Word → Word → Option σ) : Except CPUOperationStatus σ :=
  getTable.bind fun t =>
    if last > t.limit.toNat then .error .invalidSelector
    else copied (copy (t.base + offset) (BitVec.ofNat 32 entrySize))

section Functions

variable (getGDT getIDT : Except CPUOperationStatus DescriptorTable) (m : HostMap)

/-- `Cpu::GetGDTEntry`, with the bytes stored to the entry. -/
def GetGDTEntry (selector : BitVec 16) (host : Host) : Except CPUOperationStatus (List Byte) :=
  accessEntry getGDT (selector.toNat + entrySize) (selector.setWidth 32) (memRead (view m host))

/-- `Cpu::SetGDTEntry`, with the host's memory afterwards. -/
def SetGDTEntry (selector : BitVec 16) (entry : Nat → Byte) (host : Host) :
    Except CPUOperationStatus Host :=
  accessEntry getGDT (selector.toNat + entrySize) (selector.setWidth 32) fun addr size =>
    memWrite m addr size entry host

/-- `Cpu::GetIDTEntry`. -/
def GetIDTEntry (vector : BitVec 8) (host : Host) : Except CPUOperationStatus (List Byte) :=
  accessEntry getIDT (vector.toNat * entrySize) (BitVec.ofNat 32 (vector.toNat * entrySize))
    (memRead (view m host))

/-- `Cpu::SetIDTEntry`. -/
def SetIDTEntry (vector : BitVec 8) (entry : Nat → Byte) (host : Host) :
    Except CPUOperationStatus Host :=
  accessEntry getIDT (vector.toNat * entrySize) (BitVec.ofNat 32 (vector.toNat * entrySize))
    fun addr size => memWrite m addr size entry host

end Functions

namespace DescriptorTable

variable (t : DescriptorTable) (offset : Nat)

/-- All bytes of the entry lie within the table. -/
def Within : Prop := offset + 7 ≤ t.limit.toNat

instance : Decidable (t.Within offset) := inferInstanceAs (Decidable (_ ≤ _))

/-- The physical address of the entry. -/
def entryAddr : Word := t.base + BitVec.ofNat 32 offset

end DescriptorTable

/-- The index is accepted exactly when its entry lies within the table; the eight bytes of the
entry are then copied, `copy` being the copy in the region that holds them, and without such a
region the function fails. -/
structure EntryOk {σ : Type} (rs : List MemoryRegion) (t : DescriptorTable) (offset : Nat)
    (copy : MemoryRegion → σ) (result : Except CPUOperationStatus σ) : Prop where
  accepted : result ≠ .error .invalidSelector ↔ t.Within offset
  copies : t.Within offset → ∀ r ∈ rs, r.Contains (t.entryAddr offset) 8 → result = .ok (copy r)
  unmapped : t.Within offset → (∀ r ∈ rs, ¬ r.Contains (t.entryAddr offset) 8) →
    result = .error .invalidAddress

/-- The eight bytes of the entry are read. -/
def ReadsEntry (rs : List MemoryRegion) (t : DescriptorTable) (offset : Nat) (host : Host)
    (result : Except CPUOperationStatus (List Byte)) : Prop :=
  EntryOk rs t offset (fun r => r.bytes (t.entryAddr offset) 8 host) result

/-- The eight bytes of the entry are written, and no others. -/
def WritesEntry (rs : List MemoryRegion) (t : DescriptorTable) (offset : Nat) (entry : Nat → Byte)
    (host : Host) (result : Except CPUOperationStatus Host) : Prop :=
  EntryOk rs t offset (fun r => r.stored (t.entryAddr offset) 8 entry host) result

/-- An entry of the table does not come back from the end of the address space to a region. -/
def DescriptorTable.Uncut (t : DescriptorTable) (rs : List MemoryRegion) (offset : Nat) : Prop :=
  t.Within offset → Unwrapped rs (t.entryAddr offset) 8

/-- The last byte of the selector's entry is not the last byte of the table. -/
def SelectorOk (rs : List MemoryRegion) (gdt : DescriptorTable) (selector : BitVec 16) : Prop :=
  gdt.limit.toNat ≠ selector.toNat + 7 ∧ gdt.Uncut rs selector.toNat

/-- The limit does not cut the entry of the vector. -/
def VectorOk (rs : List MemoryRegion) (idt : DescriptorTable) (vector : BitVec 8) : Prop :=
  (idt.limit.toNat < vector.toNat * entrySize ∨ idt.Within (vector.toNat * entrySize)) ∧
    idt.Uncut rs (vector.toNat * entrySize)

theorem copied_ne_invalidSelector {σ : Type} (o : Option σ) :
    copied o ≠ .error .invalidSelector := by
  cases o with
  | none => exact fun h => (by cases h)
  | some changed => exact fun h => (by cases h)

section Access

variable {σ : Type} {t : DescriptorTable} {last : Nat} {offset : Word} {copy : Word → Word → Option σ}

theorem accessEntry_rejected (h : t.limit.toNat < last) :
    accessEntry (.ok t) last offset copy = .error .invalidSelector := if_pos h

theorem accessEntry_accepted (h : last ≤ t.limit.toNat) :
    accessEntry (.ok t) last offset copy = copied (copy (t.base + offset) 8) :=
  if_neg (Nat.not_lt.mpr h)

theorem accessEntry_ne_invalidSelector :
    accessEntry (.ok t) last offset copy ≠ .error .invalidSelector ↔ last ≤ t.limit.toNat := by
  constructor
  · intro h
    by_contra hlast
    exact h (accessEntry_rejected (Nat.not_le.mp hlast))
  · intro h
    rw [accessEntry_accepted h]
    exact copied_ne_invalidSelector _

end Access

section Entry

variable {rs : List MemoryRegion} (hspace : ∀ r ∈ rs, r.InSpace)
  (hapart : rs.Pairwise MemoryRegion.Apart) (t : DescriptorTable)

include hspace hapart

/-- An access to an entry is right exactly when the comparison with the limit is right, and the
entry of a table is not cut by the end of the address space. -/
theorem accessEntry_ok_iff {σ : Type} (last offset : Nat) {copy : Word → Word → Option σ}
    {copyRegion : MemoryRegion → σ}
    (hcopy : copy (t.entryAddr offset) 8 = (found rs (t.entryAddr offset) 8).map copyRegion) :
    EntryOk rs t offset copyRegion (accessEntry (.ok t) last (BitVec.ofNat 32 offset) copy) ↔
      (last ≤ t.limit.toNat ↔ t.Within offset) ∧ t.Uncut rs offset := by
  have hsize : 1 ≤ (8 : Word).toNat := by decide
  have haccess : last ≤ t.limit.toNat → accessEntry (.ok t) last (BitVec.ofNat 32 offset) copy =
      copied ((found rs (t.entryAddr offset) 8).map copyRegion) := by
    intro hlast
    rw [accessEntry_accepted hlast, ← hcopy]
    rfl
  constructor
  · intro h
    have hlast : last ≤ t.limit.toNat ↔ t.Within offset :=
      accessEntry_ne_invalidSelector.symm.trans h.accepted
    refine ⟨hlast, fun hwithin => unwrapped_of_not_found hspace hsize fun houtside => ?_⟩
    have hfails := h.unmapped hwithin houtside
    rw [haccess (hlast.mpr hwithin)] at hfails
    cases hfound : found rs (t.entryAddr offset) 8 with
    | none => rfl
    | some r =>
      rw [hfound] at hfails
      cases hfails
  · rintro ⟨hlast, hunwrapped⟩
    refine ⟨accessEntry_ne_invalidSelector.trans hlast, fun hwithin r hr hcontains => ?_,
      fun hwithin houtside => ?_⟩
    · have hfound := (hunwrapped hwithin).found_of_contains hspace hsize hapart hr hcontains
      rw [haccess (hlast.mpr hwithin), hfound]
      rfl
    · have hnone := (hunwrapped hwithin).found_none hspace hsize houtside
      rw [haccess (hlast.mpr hwithin), hnone]
      rfl

theorem gdt_ok_iff {σ : Type} (selector : BitVec 16) {copy : Word → Word → Option σ}
    {copyRegion : MemoryRegion → σ}
    (hcopy : copy (t.entryAddr selector.toNat) 8 =
      (found rs (t.entryAddr selector.toNat) 8).map copyRegion) :
    EntryOk rs t selector.toNat copyRegion
        (accessEntry (.ok t) (selector.toNat + entrySize) (selector.setWidth 32) copy) ↔
      SelectorOk rs t selector := by
  rw [← BitVec.ofNat_toNat, accessEntry_ok_iff hspace hapart t _ _ hcopy]
  refine and_congr_left fun _ => ?_
  rw [DescriptorTable.Within, entrySize]
  omega

theorem idt_ok_iff {σ : Type} (vector : BitVec 8) {copy : Word → Word → Option σ}
    {copyRegion : MemoryRegion → σ}
    (hcopy : copy (t.entryAddr (vector.toNat * entrySize)) 8 =
      (found rs (t.entryAddr (vector.toNat * entrySize)) 8).map copyRegion) :
    EntryOk rs t (vector.toNat * entrySize) copyRegion (accessEntry (.ok t)
        (vector.toNat * entrySize) (BitVec.ofNat 32 (vector.toNat * entrySize)) copy) ↔
      VectorOk rs t vector := by
  rw [accessEntry_ok_iff hspace hapart t _ _ hcopy]
  refine and_congr_left fun _ => ?_
  rw [DescriptorTable.Within]
  omega

end Entry

/-- What each function on a descriptor table does is right exactly when the comparison with the
limit is right for its index, and the entry is not cut by the end of the address space. -/
theorem descriptor_entry_iff (f : MemoryRegion → CPUMemMapStatus) {rs : List MemoryRegion}
    (h : Layout rs) (gdt idt : DescriptorTable) (selector : BitVec 16) (vector : BitVec 8)
    (entry : Nat → Byte) (host : Host) :
    (ReadsEntry (mappedRegions f rs) gdt selector.toNat host
        (GetGDTEntry (.ok gdt) (memMap f rs []).2 selector host) ↔
      SelectorOk (mappedRegions f rs) gdt selector) ∧
    (WritesEntry (mappedRegions f rs) gdt selector.toNat entry host
        (SetGDTEntry (.ok gdt) (memMap f rs []).2 selector entry host) ↔
      SelectorOk (mappedRegions f rs) gdt selector) ∧
    (ReadsEntry (mappedRegions f rs) idt (vector.toNat * entrySize) host
        (GetIDTEntry (.ok idt) (memMap f rs []).2 vector host) ↔
      VectorOk (mappedRegions f rs) idt vector) ∧
    (WritesEntry (mappedRegions f rs) idt (vector.toNat * entrySize) entry host
        (SetIDTEntry (.ok idt) (memMap f rs []).2 vector entry host) ↔
      VectorOk (mappedRegions f rs) idt vector) := by
  obtain ⟨hspace, hapart⟩ := h.mapped f
  rw [memMap_eq, List.nil_append]
  refine ⟨?_, ?_, ?_, ?_⟩
  · exact gdt_ok_iff hspace hapart gdt selector (memRead_range host)
  · exact gdt_ok_iff hspace hapart gdt selector (memWrite_range entry host)
  · exact idt_ok_iff hspace hapart idt vector (memRead_range host)
  · exact idt_ok_iff hspace hapart idt vector (memWrite_range entry host)

/-- The second of three entries of each table, both tables at the start of the RAM. -/
theorem second_entry_copied :
    ReadsEntry (mappedRegions (fun _ => .ok) xboxRegions) ⟨0, 0x17⟩ 8 (fun _ => 0)
        (GetGDTEntry (.ok ⟨0, 0x17⟩) (memMap (fun _ => .ok) xboxRegions []).2 8 fun _ => 0) ∧
      ReadsEntry (mappedRegions (fun _ => .ok) xboxRegions) ⟨0, 0x17⟩ 8 (fun _ => 0)
        (GetIDTEntry (.ok ⟨0, 0x17⟩) (memMap (fun _ => .ok) xboxRegions []).2 1 fun _ => 0) := by
  have hentries := descriptor_entry_iff (fun _ => .ok) xboxRegions_layout ⟨0, 0x17⟩ ⟨0, 0x17⟩ 8 1
    (fun _ => 0) fun _ => 0
  obtain ⟨hgetGDT, -, hgetIDT, -⟩ := hentries
  have huncut : DescriptorTable.Uncut ⟨0, 0x17⟩ (mappedRegions (fun _ => .ok) xboxRegions) 8 :=
    fun _ hwrap => absurd hwrap (by decide)
  exact ⟨hgetGDT.mpr ⟨by decide, huncut⟩, hgetIDT.mpr ⟨.inr (by decide), huncut⟩⟩

/-- The last entry of a global table of two entries is rejected. -/
theorem last_selector_rejected :
    ¬ ∀ (f : MemoryRegion → CPUMemMapStatus) (rs : List MemoryRegion), Layout rs →
      ∀ (gdt idt : DescriptorTable) (selector : BitVec 16) (vector : BitVec 8), 8 ∣ selector.toNat →
      ∀ (entry : Nat → Byte) (host : Host),
        ReadsEntry (mappedRegions f rs) gdt selector.toNat host
            (GetGDTEntry (.ok gdt) (memMap f rs []).2 selector host) ∧
          WritesEntry (mappedRegions f rs) gdt selector.toNat entry host
            (SetGDTEntry (.ok gdt) (memMap f rs []).2 selector entry host) ∧
          ReadsEntry (mappedRegions f rs) idt (vector.toNat * entrySize) host
            (GetIDTEntry (.ok idt) (memMap f rs []).2 vector host) ∧
          WritesEntry (mappedRegions f rs) idt (vector.toNat * entrySize) entry host
            (SetIDTEntry (.ok idt) (memMap f rs []).2 vector entry host) := by
  intro h
  have hget := (h (fun _ => .ok) xboxRegions xboxRegions_layout ⟨0, 0xF⟩ ⟨0, 0xF⟩ 8 0 (by decide)
    (fun _ => 0) fun _ => 0).1
  have hwithin : DescriptorTable.Within ⟨0, 0xF⟩ 8 := by decide
  exact hget.accepted.mpr hwithin (accessEntry_rejected (by decide))

end OpenXbox.Cpu.DescriptorTables
