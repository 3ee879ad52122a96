import OpenXbox.Lib.SortedMap
import OpenXbox.Lib.Word

/-!
# The I/O mapper

`IOMapper` keeps two maps, one for ports and one for MMIO addresses, from the
base of a mapped range to its last address and device. `mapDevice` looks for an
overlap at two neighbours of the new range only.
-/

namespace OpenXbox.Common.IOMapper

open OpenXbox.Lib

variable {δ : Type*}

structure MappedDevice (δ : Type*) where
  baseAddress : Nat
  lastAddress : Nat
  device : δ

abbrev IOMap (δ : Type*) := SortedMap Nat (MappedDevice δ)

/-- The overlap test of `MapDevice`: one end of the new range lies in the entry. -/
def touches (base last : Nat) (p : Nat × MappedDevice δ) : Bool :=
  (decide (base ≥ p.1) && decide (base ≤ p.2.lastAddress)) ||
    (decide (last ≥ p.1) && decide (last ≤ p.2.lastAddress))

/-- `IOMapper::MapDevice`, with the map it leaves behind. -/
def mapDevice (iomap : IOMap δ) (base size : Nat) (device : δ) : IOMap δ × Bool :=
  let last := sub32 (u32 (base + size)) 1
  let pu := iomap.upperBound base
  if (iomap.get? pu).any (touches base last) then (iomap, false)
  else
    let pl := iomap.lowerBound last
    let pl := if pl ≠ 0 then pl - 1 else pl
    -- the source compares with `begin()` again after stepping back
    if decide (pl ≠ 0) && (iomap.get? pl).any (touches base last) then (iomap, false)
    else (iomap.insert base ⟨base, last, device⟩, true)

/-- `IOMapper::LookupDevice`. -/
def lookupDevice (iomap : IOMap δ) (addr : Nat) : Option δ :=
  let p := iomap.upperBound addr
  if p = 0 then none
  else
    match iomap.get? (p - 1) with
    | some e => if addr ≥ e.1 ∧ addr ≤ e.2.lastAddress then some e.2.device else none
    | none => none

/-- The two address spaces of the mapper. -/
inductive Space where
  | io
  | mmio
deriving DecidableEq

structure Mapper (δ : Type*) where
  mappedIODevices : IOMap δ
  mappedMMIODevices : IOMap δ

def Mapper.map (s : Mapper δ) : Space → IOMap δ
  | .io => s.mappedIODevices
  | .mmio => s.mappedMMIODevices

/-- A call of `MapIODevice` or `MapMMIODevice` for a range inside the address space. -/
structure Call (δ : Type*) where
  space : Space
  base : Nat
  size : Nat
  device : δ
  size_pos : 1 ≤ size
  fits : base + size ≤ 2 ^ 32

/-- The last address of the range asked for. -/
def Call.last (c : Call δ) : Nat := c.base + c.size - 1

def mapIODevice (s : Mapper δ) (basePort numPorts : Nat) (device : δ) : Mapper δ × Bool :=
  let r := mapDevice s.mappedIODevices basePort numPorts device
  ({ s with mappedIODevices := r.1 }, r.2)

def mapMMIODevice (s : Mapper δ) (baseAddress numAddresses : Nat) (device : δ) :
    Mapper δ × Bool :=
  let r := mapDevice s.mappedMMIODevices baseAddress numAddresses device
  ({ s with mappedMMIODevices := r.1 }, r.2)

def Call.apply (c : Call δ) (s : Mapper δ) : Mapper δ × Bool :=
  match c.space with
  | .io => mapIODevice s c.base c.size c.device
  | .mmio => mapMMIODevice s c.base c.size c.device

/-- The mapper before the first call. -/
def Mapper.initial : Mapper δ := ⟨SortedMap.empty, SortedMap.empty⟩

/-! ## Ranges -/

def Covers (e : Nat × MappedDevice δ) (addr : Nat) : Prop := e.1 ≤ addr ∧ addr ≤ e.2.lastAddress

/-- Some mapped range has an address in `[base, last]`. -/
def Intersects (m : IOMap δ) (base last : Nat) : Prop :=
  ∃ e ∈ m, ∃ addr, base ≤ addr ∧ addr ≤ last ∧ Covers e addr

def PairwiseDisjoint (m : IOMap δ) : Prop :=
  ∀ a ∈ m, ∀ b ∈ m, ∀ addr, Covers a addr → Covers b addr → a = b

/-- Entries carry their own base, are not empty and do not overlap. -/
structure Ranges (m : IOMap δ) : Prop where
  base_eq : ∀ e ∈ m, e.2.baseAddress = e.1
  ordered : ∀ e ∈ m, e.1 ≤ e.2.lastAddress
  disjoint : ∀ a ∈ m, ∀ b ∈ m, a.1 < b.1 → a.2.lastAddress < b.1

theorem Ranges.empty : Ranges (SortedMap.empty : IOMap δ) := by
  constructor <;> intro e he <;> exact absurd he (SortedMap.not_mem_empty e)

theorem Ranges.pairwiseDisjoint {m : IOMap δ} (hm : Ranges m) : PairwiseDisjoint m := by
  intro a ha b hb addr hca hcb
  rcases lt_trichotomy a.1 b.1 with h | h | h
  · have hd := hm.disjoint a ha b hb h
    have := hca.2
    have := hcb.1
    omega
  · exact SortedMap.eq_of_key_eq ha hb h
  · have hd := hm.disjoint b hb a ha h
    have := hca.1
    have := hcb.2
    omega

theorem intersects_iff {m : IOMap δ} (hm : Ranges m) {base last : Nat} (hbl : base ≤ last) :
    Intersects m base last ↔ ∃ e ∈ m, e.1 ≤ last ∧ base ≤ e.2.lastAddress := by
  constructor
  · intro h
    obtain ⟨e, he, addr, hb, hl, hc⟩ := h
    exact ⟨e, he, hc.1.trans hl, hb.trans hc.2⟩
  · intro h
    obtain ⟨e, he, hl, hb⟩ := h
    have ho := hm.ordered e he
    exact ⟨e, he, max base e.1, by omega, by omega, by unfold Covers; omega⟩

theorem touches_iff {base last : Nat} {e : Nat × MappedDevice δ} :
    touches base last e = true ↔ Covers e base ∨ Covers e last := by
  simp [touches, Covers]

/-! ## Lookup -/

theorem lookupDevice_of_covers {m : IOMap δ} (hm : Ranges m) {addr : Nat}
    {e : Nat × MappedDevice δ} (he : e ∈ m) (hc : Covers e addr) :
    lookupDevice m addr = some e.2.device := by
  obtain ⟨i, hi⟩ := SortedMap.mem_iff_get?.mp he
  have hlt : i < m.upperBound addr := by
    by_contra h
    have := (SortedMap.upperBound_le_iff hi).mp (Nat.le_of_not_lt h)
    have := hc.1
    omega
  have hlen := m.upperBound_le_length addr
  obtain ⟨p, hp⟩ := SortedMap.get?_of_lt (m := m) (i := m.upperBound addr - 1) (by omega)
  have hpa : p.1 ≤ addr := by
    by_contra h
    have := (SortedMap.upperBound_le_iff hp).mpr (Nat.lt_of_not_le h)
    omega
  -- `p` starts at or above `e` and below `addr`, so it is `e`
  obtain rfl : e = p := by
    by_contra hne
    have hpm := SortedMap.get?_mem hp
    have hle : ¬ p.1 < e.1 := by
      rw [SortedMap.key_lt_iff hp hi]
      omega
    have hlt' : e.1 < p.1 :=
      lt_of_le_of_ne (Nat.le_of_not_lt hle) fun h => hne (SortedMap.eq_of_key_eq he hpm h)
    have := hm.disjoint e he p hpm hlt'
    have := hc.2
    omega
  simp [lookupDevice, hp, hc.1, hc.2, show m.upperBound addr ≠ 0 by omega]

theorem lookupDevice_eq_some {m : IOMap δ} {addr : Nat} {d : δ}
    (h : lookupDevice m addr = some d) : ∃ e ∈ m, Covers e addr ∧ e.2.device = d := by
  simp only [lookupDevice] at h
  split at h
  · cases h
  · split at h
    · next e he =>
      split at h
      · next hc => exact ⟨e, SortedMap.get?_mem he, hc, Option.some.inj h⟩
      · cases h
    · cases h

end OpenXbox.Common.IOMapper
