import OpenXbox.Cpu.VirtualCopy
import Mathlib.Data.List.Pairwise

/-!
# Bounds of physical memory

`MemMap` keeps the last address of each range, and an access compares the last address that it
touches with it, both in 32 bits. Against this stands the exact condition on the region: the
access lies between its first byte and its end.
-/

namespace OpenXbox.Cpu.PhysicalMemory

open OpenXbox.Cpu.Memory OpenXbox.Cpu.VirtualMemory
open OpenXbox.Cpu.VirtualCopy (memRead_view)

inductive MemoryRegionType where
  | none
  | ram
  | mmio
  | rom
deriving DecidableEq

/-- A region; its bytes are at the place `data` of the host's memory. -/
structure MemoryRegion where
  type : MemoryRegionType
  start : Word
  size : BitVec 64
  data : Nat

inductive CPUMemMapStatus where
  | ok
  | cpuUninitialized
  | invalidType
  | memoryAddrMisaligned
  | memorySizeMisaligned
  | mappingFailed
  | unhandledError
deriving DecidableEq

def MemoryRegion.isMemory (r : MemoryRegion) : Bool := r.type == .ram || r.type == .rom

/-- The range that is kept of a region. -/
def MemoryRegion.range (r : MemoryRegion) : HostRange :=
  ⟨r.start, r.start + r.size.setWidth 32 - 1, r.data⟩

/-- `Cpu::MemMap` over the subregions of the region for the address space, with the mapping of
one region by the virtual machine as a parameter. -/
def memMap (memMapSubregion : MemoryRegion → CPUMemMapStatus) :
    List MemoryRegion → HostMap → CPUMemMapStatus × HostMap
  | [], m => (.ok, m)
  | r :: rs, m =>
    if memMapSubregion r = .ok then
      memMap memMapSubregion rs (if r.isMemory then m ++ [r.range] else m)
    else (memMapSubregion r, m)

/-! ## Accesses to regions -/

/-- The regions of RAM and ROM up to the first region that cannot be mapped. -/
def mappedRegions (memMapSubregion : MemoryRegion → CPUMemMapStatus) (rs : List MemoryRegion) :
    List MemoryRegion :=
  (rs.takeWhile fun r => memMapSubregion r = .ok).filter MemoryRegion.isMemory

namespace MemoryRegion

variable (r : MemoryRegion) (addr size : Word)

/-- All bytes of the access are bytes of the region. -/
def Contains : Prop :=
  r.start.toNat ≤ addr.toNat ∧ addr.toNat + size.toNat ≤ r.start.toNat + r.size.toNat

/-- Where a byte of the region is in the host's memory. -/
def place : Nat := r.data + (addr.toNat - r.start.toNat)

/-- What an access of `size` bytes reads. -/
def bytes (host : Host) : List Byte := (List.range size.toNat).map fun i => host (r.place addr + i)

/-- The host's memory after an access of `size` bytes has stored them. -/
def stored (value : Nat → Byte) (host : Host) : Host := fun a =>
  if r.place addr ≤ a ∧ a < r.place addr + size.toNat then value (a - r.place addr) else host a

/-- The region has bytes, all of them in the address space. -/
def InSpace : Prop := 0 < r.size.toNat ∧ r.start.toNat + r.size.toNat ≤ 2 ^ 32

/-- No byte is in both regions. -/
def Apart (r r' : MemoryRegion) : Prop :=
  r.start.toNat + r.size.toNat ≤ r'.start.toNat ∨ r'.start.toNat + r'.size.toNat ≤ r.start.toNat

end MemoryRegion

/-- The regions of RAM and ROM lie apart from each other in the address space. -/
structure Layout (rs : List MemoryRegion) : Prop where
  inSpace : ∀ r ∈ rs.filter MemoryRegion.isMemory, r.InSpace
  apart : (rs.filter MemoryRegion.isMemory).Pairwise MemoryRegion.Apart

/-- An access inside one of the regions copies the bytes that it is for, and any other access
fails and copies nothing. -/
structure AccessOk (rs : List MemoryRegion) (m : HostMap) (addr size : Word) (value : Nat → Byte)
    (host : Host) : Prop where
  read : ∀ r ∈ rs, r.Contains addr size →
    memRead (view m host) addr size = some (r.bytes addr size host)
  write : ∀ r ∈ rs, r.Contains addr size →
    memWrite m addr size value host = some (r.stored addr size value host)
  outside : (∀ r ∈ rs, ¬ r.Contains addr size) →
    memRead (view m host) addr size = none ∧ memWrite m addr size value host = none

/-- An access past the end of the address space does not come back to an address at or below the
end of a region that starts at or below the access. -/
def Unwrapped (rs : List MemoryRegion) (addr size : Word) : Prop :=
  2 ^ 32 < addr.toNat + size.toNat → ∀ r ∈ rs, r.start.toNat ≤ addr.toNat →
    r.start.toNat + r.size.toNat < addr.toNat + size.toNat - 2 ^ 32

theorem memMap_eq (f : MemoryRegion → CPUMemMapStatus) (rs : List MemoryRegion) (m : HostMap) :
    (memMap f rs m).2 = m ++ (mappedRegions f rs).map MemoryRegion.range := by
  induction rs generalizing m with
  | nil => simp [memMap, mappedRegions]
  | cons r rs ih =>
    rw [memMap]
    by_cases hok : f r = .ok
    · rw [if_pos hok, ih]
      by_cases hmem : r.isMemory <;> simp [mappedRegions, hok, hmem]
    · simp [mappedRegions, hok]

section Access

variable {rs : List MemoryRegion} {r : MemoryRegion} {addr size : Word}

theorem Layout.mapped (h : Layout rs) (f : MemoryRegion → CPUMemMapStatus) :
    (∀ r ∈ mappedRegions f rs, r.InSpace) ∧ (mappedRegions f rs).Pairwise MemoryRegion.Apart := by
  have hsub : (mappedRegions f rs).Sublist (rs.filter MemoryRegion.isMemory) :=
    (List.takeWhile_sublist _).filter _
  exact ⟨fun r hr => h.inSpace r (hsub.subset hr), h.apart.sublist hsub⟩

/-- What the comparisons in 32 bits say. -/
theorem admits_iff (hr : r.InSpace) (hsize : 1 ≤ size.toNat) : r.range.admits addr size = true ↔
    r.Contains addr size ∨ (2 ^ 32 < addr.toNat + size.toNat ∧ r.start.toNat ≤ addr.toNat ∧
      addr.toNat + size.toNat - 2 ^ 32 ≤ r.start.toNat + r.size.toNat) := by
  obtain ⟨hpos, htop⟩ := hr
  have haddr := addr.isLt
  have hlt := size.isLt
  have hend : r.range.endingAddress.toNat = r.start.toNat + r.size.toNat - 1 := by
    change (r.start + r.size.setWidth 32 - 1).toNat = _
    rw [BitVec.toNat_sub, BitVec.toNat_add, BitVec.toNat_setWidth]
    change (2 ^ 32 - 1 + _) % 2 ^ 32 = _
    omega
  have hlast : (addr + size - 1).toNat = (addr.toNat + size.toNat - 1) % 2 ^ 32 := by
    rw [BitVec.toNat_sub, BitVec.toNat_add]
    change (2 ^ 32 - 1 + _) % 2 ^ 32 = _
    omega
  rw [HostRange.admits, Bool.and_eq_true, decide_eq_true_eq, decide_eq_true_eq, ge_iff_le,
    BitVec.le_def, BitVec.le_def, hend, hlast, MemoryRegion.Contains]
  change r.start.toNat ≤ addr.toNat ∧ _ ↔ _
  omega

/-- The region that an access finds. -/
def found (rs : List MemoryRegion) (addr size : Word) : Option MemoryRegion :=
  rs.find? fun r => r.range.admits addr size

theorem admits_of_found (h : found rs addr size = some r) : r.range.admits addr size = true := by
  have hfirst : (rs.find? fun r : MemoryRegion => r.range.admits addr size) = some r := h
  have hadmits := List.find?_some hfirst
  exact hadmits

theorem start_le_of_found (h : found rs addr size = some r) : r.start.toNat ≤ addr.toNat := by
  have hadmits := admits_of_found h
  rw [HostRange.admits, Bool.and_eq_true, decide_eq_true_eq, ge_iff_le, BitVec.le_def] at hadmits
  exact hadmits.1

theorem find_range : ((rs.map MemoryRegion.range).find? fun r => r.admits addr size) =
    (found rs addr size).map MemoryRegion.range := List.find?_map

theorem range_place (h : r.start.toNat ≤ addr.toNat) : r.range.place addr = r.place addr := by
  rw [HostRange.place, MemoryRegion.place]
  change r.data + (addr - r.start).toNat = _
  rw [BitVec.toNat_sub_of_le (BitVec.le_def.mpr h)]

theorem memRead_range (host : Host) : memRead (view (rs.map MemoryRegion.range) host) addr size =
    (found rs addr size).map fun r => r.bytes addr size host := by
  rw [memRead_view, find_range]
  cases hfound : found rs addr size with
  | none => rfl
  | some r =>
    have hplace := range_place (start_le_of_found hfound)
    simp only [Option.map_some, hplace]
    rfl

theorem memWrite_range (value : Nat → Byte) (host : Host) :
    memWrite (rs.map MemoryRegion.range) addr size value host =
      (found rs addr size).map fun r => r.stored addr size value host := by
  rw [memWrite, find_range]
  cases hfound : found rs addr size with
  | none => rfl
  | some r =>
    have hplace := range_place (start_le_of_found hfound)
    simp only [Option.map_some, hplace]
    rfl

/-- Two regions with a byte in common are the same one. -/
theorem eq_of_contains (hapart : rs.Pairwise MemoryRegion.Apart) {r' : MemoryRegion} (hr : r ∈ rs)
    (hr' : r' ∈ rs) (hsize : 1 ≤ size.toNat) (h : r.Contains addr size) (h' : r'.Contains addr size) :
    r = r' := by
  by_contra hne
  have hsymm : Std.Symm MemoryRegion.Apart := ⟨fun _ _ h => h.symm⟩
  obtain ⟨hstart, hend⟩ := h
  obtain ⟨hstart', hend'⟩ := h'
  rcases hapart.forall hr hr' hne with hbefore | hafter
  · omega
  · omega

section Found

variable (hspace : ∀ r ∈ rs, r.InSpace) (hsize : 1 ≤ size.toNat)

include hspace hsize

/-- An access that comes back to a region is in none, so that it should find none. -/
theorem unwrapped_of_not_found
    (h : (∀ r ∈ rs, ¬ r.Contains addr size) → found rs addr size = none) : Unwrapped rs addr size := by
  intro hwrap r hr hstart
  by_contra hle
  have hadmits : r.range.admits addr size = true :=
    (admits_iff (hspace r hr) hsize).mpr (.inr ⟨hwrap, hstart, by omega⟩)
  have houtside : ∀ r ∈ rs, ¬ r.Contains addr size := by
    intro r' hr' hcontains
    have htop := (hspace r' hr').2
    have hend := hcontains.2
    omega
  exact List.find?_eq_none.mp (h houtside) r hr hadmits

theorem Unwrapped.admits_iff (h : Unwrapped rs addr size) (hr : r ∈ rs) :
    r.range.admits addr size = true ↔ r.Contains addr size := by
  rw [PhysicalMemory.admits_iff (hspace r hr) hsize]
  refine or_iff_left ?_
  rintro ⟨hwrap, hstart, hle⟩
  have hpast := h hwrap r hr hstart
  omega

theorem Unwrapped.found_of_contains (h : Unwrapped rs addr size)
    (hapart : rs.Pairwise MemoryRegion.Apart) (hr : r ∈ rs) (hcontains : r.Contains addr size) :
    found rs addr size = some r := by
  cases hfound : found rs addr size with
  | none =>
    have hadmits := (h.admits_iff hspace hsize hr).mpr hcontains
    exact absurd hadmits (List.find?_eq_none.mp hfound r hr)
  | some r' =>
    have hr' : r' ∈ rs := List.mem_of_find?_eq_some hfound
    have hcontains' := (h.admits_iff hspace hsize hr').mp (admits_of_found hfound)
    rw [eq_of_contains hapart hr hr' hsize hcontains hcontains']

theorem Unwrapped.found_none (h : Unwrapped rs addr size)
    (houtside : ∀ r ∈ rs, ¬ r.Contains addr size) : found rs addr size = none :=
  List.find?_eq_none.mpr fun r hr hadmits =>
    houtside r hr ((h.admits_iff hspace hsize hr).mp hadmits)

/-- Accesses to regions that lie apart in the address space are right exactly when they do not
come back to one of them from the end of the space. -/
theorem accessOk_iff (hapart : rs.Pairwise MemoryRegion.Apart) (value : Nat → Byte) (host : Host) :
    AccessOk rs (rs.map MemoryRegion.range) addr size value host ↔ Unwrapped rs addr size := by
  constructor
  · intro h
    refine unwrapped_of_not_found hspace hsize fun houtside => ?_
    have hnone := (h.outside houtside).1
    rwa [memRead_range, Option.map_eq_none_iff] at hnone
  · intro h
    refine ⟨fun r hr hcontains => ?_, fun r hr hcontains => ?_, fun houtside => ?_⟩
    · rw [memRead_range, h.found_of_contains hspace hsize hapart hr hcontains]
      rfl
    · rw [memWrite_range, h.found_of_contains hspace hsize hapart hr hcontains]
      rfl
    · rw [memRead_range, memWrite_range, h.found_none hspace hsize houtside]
      exact ⟨rfl, rfl⟩

end Found

end Access

/-- Over the map that `MemMap` builds, an access of at least one byte is right exactly when it
does not come back from the end of the address space to a region that is mapped. -/
theorem physical_access_iff (f : MemoryRegion → CPUMemMapStatus) {rs : List MemoryRegion}
    (h : Layout rs) (addr : Word) {size : Word} (hsize : 1 ≤ size.toNat) (value : Nat → Byte)
    (host : Host) :
    AccessOk (mappedRegions f rs) (memMap f rs []).2 addr size value host ↔
      Unwrapped (mappedRegions f rs) addr size := by
  obtain ⟨hspace, hapart⟩ := h.mapped f
  rw [memMap_eq, List.nil_append]
  exact accessOk_iff hspace hsize hapart value host

/-- The address space of the console: 64 MiB of RAM at its start and 16 MiB of ROM at its end. -/
def xboxRegions : List MemoryRegion :=
  [⟨.rom, 0xFF000000, 0x1000000, 0x10000000⟩, ⟨.ram, 0, 0x4000000, 0⟩]

theorem xboxRegions_layout : Layout xboxRegions := by
  refine ⟨fun r hr => ?_, ?_⟩
  · have hr : r ∈ xboxRegions := List.mem_of_mem_filter hr
    simp only [xboxRegions, List.mem_cons, List.not_mem_nil, or_false] at hr
    rcases hr with rfl | rfl
    · exact ⟨by decide, by decide⟩
    · exact ⟨by decide, by decide⟩
  · have hmem : xboxRegions.filter MemoryRegion.isMemory = xboxRegions := rfl
    rw [hmem, xboxRegions, List.pairwise_pair]
    exact .inr (by decide)

/-- The reset vector lies in the last bytes of the ROM. -/
theorem reset_vector_access :
    AccessOk (mappedRegions (fun _ => .ok) xboxRegions) (memMap (fun _ => .ok) xboxRegions []).2
      0xFFFFFFF0 16 (fun _ => 0) fun _ => 0 := by
  refine (physical_access_iff _ xboxRegions_layout _ (by decide) _ _).mpr fun hwrap => ?_
  exact absurd hwrap (by decide)

/-- An access of 32 bytes at the reset vector runs past the end of the ROM. -/
theorem access_past_rom :
    ¬ ∀ (f : MemoryRegion → CPUMemMapStatus) (rs : List MemoryRegion), Layout rs →
      ∀ addr size : Word, 1 ≤ size.toNat → ∀ (value : Nat → Byte) (host : Host),
        AccessOk (mappedRegions f rs) (memMap f rs []).2 addr size value host := by
  intro h
  have haccess : AccessOk xboxRegions (xboxRegions.map MemoryRegion.range) 0xFFFFFFF0 32 (fun _ => 0)
      fun _ => 0 := h (fun _ => .ok) xboxRegions xboxRegions_layout _ _ (by decide) _ _
  obtain ⟨hspace, hapart⟩ := xboxRegions_layout
  have hunwrapped := (accessOk_iff hspace (by decide) hapart _ _).mp haccess
  have hrom := hunwrapped (by decide) ⟨.rom, 0xFF000000, 0x1000000, 0x10000000⟩ List.mem_cons_self
    (by decide)
  exact absurd hrom (by decide)

end OpenXbox.Cpu.PhysicalMemory
