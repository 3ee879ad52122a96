import OpenXbox.Cpu.DescriptorTables
import OpenXbox.Cpu.Registers
import OpenXbox.Lib.LittleEndian

/-!
# Segment registers and the GDT

`LoadSegmentSelector` reads the descriptor at the base of the table plus the whole selector, through
the page tables, and loads what its local entry then holds. `GetGDTEntry` compares the offset with
the limit and reads physical memory.
-/

namespace OpenXbox.Cpu.SegmentLoad

open OpenXbox.Lib.Bits OpenXbox.Lib.LittleEndian OpenXbox.Cpu.Memory OpenXbox.Cpu.VirtualMemory
  OpenXbox.Cpu.VirtualCopy OpenXbox.Cpu.DescriptorTables
open OpenXbox.Cpu.Registers hiding Word

/-! ## Descriptors -/

/-- Eight bytes as a `GDTEntry`. -/
def descriptor (bytes : Nat → Byte) : GDTEntry := load 64 bytes 0 8

theorem descriptor_congr {bytes bytes' : Nat → Byte} (h : ∀ k < 8, bytes k = bytes' k) :
    descriptor bytes = descriptor bytes' :=
  load_congr fun k hk => by rw [Nat.zero_add]; exact h k hk

/-- The offset of the last byte of the segment: the limit counts bytes or, with the bit of the
granularity, pages. -/
def lastOffset (bytes : Nat → Byte) : Nat :=
  let limit := (bytes 0).toNat + 0x100 * (bytes 1).toNat + 0x10000 * ((bytes 6).toNat % 0x10)
  if 0x80 ≤ (bytes 6).toNat then 0x1000 * limit + 0xFFF else limit

/-- The bytes give the same base, limit and access. -/
structure SameEntry (bytes bytes' : Nat → Byte) : Prop where
  base : ∀ k ∈ [2, 3, 4, 7], bytes k = bytes' k
  access : bytes 5 = bytes' 5
  limit : lastOffset bytes = lastOffset bytes'

section Descriptor

variable (e e' : GDTEntry)

theorem access_eq : e.access = byteAt e 5 := by
  apply BitVec.eq_of_getLsbD_eq
  intro i hi
  rw [getLsbD_byteAt _ _ hi, GDTEntry.access, BitVec.getLsbD_extractLsb']
  simp [hi]

theorem getLsbD_getBase {i : Nat} (hi : i < 32) :
    e.getBase.getLsbD i = e.getLsbD (if i < 24 then 16 + i else 32 + i) := by
  unfold GDTEntry.getBase
  simp only [BitVec.getLsbD_or, BitVec.getLsbD_setWidth, BitVec.getLsbD_extractLsb',
    BitVec.getLsbD_shiftLeft, hi, decide_true, Bool.true_and]
  by_cases hlow : i < 16
  · simp [hlow, show i < 24 by omega]
  by_cases hmid : i < 24
  · simp [hlow, hmid, show i - 16 < 8 by omega, show i - 16 < 32 by omega,
      show 32 + (i - 16) = 16 + i by omega]
  · simp [hlow, hmid, show ¬ i - 16 < 8 by omega, show i - 24 < 8 by omega, show i - 24 < 32 by omega,
      show 56 + (i - 24) = 32 + i by omega]

/-- The base is in four of the bytes. -/
theorem getBase_eq_iff : e.getBase = e'.getBase ↔ ∀ k ∈ [2, 3, 4, 7], byteAt e k = byteAt e' k := by
  constructor
  · intro h k hk
    have hbits (i : Nat) (hi : i < 32) :
        e.getLsbD (if i < 24 then 16 + i else 32 + i) =
          e'.getLsbD (if i < 24 then 16 + i else 32 + i) := by
      rw [← getLsbD_getBase e hi, ← getLsbD_getBase e' hi, h]
    apply BitVec.eq_of_getLsbD_eq
    intro j hj
    rw [getLsbD_byteAt _ _ hj, getLsbD_byteAt _ _ hj]
    have hk : k = 7 ∨ 2 ≤ k ∧ k ≤ 4 := by
      simp only [List.mem_cons, List.not_mem_nil, or_false] at hk
      omega
    rcases hk with rfl | hk
    · have hbit := hbits (24 + j) (by omega)
      rwa [if_neg (by omega), show 32 + (24 + j) = 8 * 7 + j by omega] at hbit
    · have hbit := hbits (8 * k + j - 16) (by omega)
      rwa [if_pos (by omega), show 16 + (8 * k + j - 16) = 8 * k + j by omega] at hbit
  · intro h
    have hbits (k j : Nat) (hk : k ∈ [2, 3, 4, 7]) (hj : j < 8) :
        e.getLsbD (8 * k + j) = e'.getLsbD (8 * k + j) := by
      rw [← getLsbD_byteAt e k hj, ← getLsbD_byteAt e' k hj, h k hk]
    refine ext32 fun i hi => ?_
    rw [getLsbD_getBase e hi, getLsbD_getBase e' hi]
    split
    · have hk : 2 + i / 8 ∈ [2, 3, 4, 7] := by
        have hthree : i / 8 = 0 ∨ i / 8 = 1 ∨ i / 8 = 2 := by omega
        rcases hthree with hi | hi | hi <;> simp [hi]
      have hbit := hbits (2 + i / 8) (i % 8) hk (Nat.mod_lt _ (by decide))
      rwa [show 8 * (2 + i / 8) + i % 8 = 16 + i by omega] at hbit
    · have hbit := hbits 7 (i - 24) (by decide) (by omega)
      rwa [show 8 * 7 + (i - 24) = 32 + i by omega] at hbit

theorem toNat_descriptor (bytes : Nat → Byte) : (descriptor bytes).toNat =
    (bytes 0).toNat + 0x100 * (bytes 1).toNat + 0x10000 * (bytes 2).toNat + 0x1000000 * (bytes 3).toNat +
      0x100000000 * (bytes 4).toNat + 0x10000000000 * (bytes 5).toNat +
      0x1000000000000 * (bytes 6).toNat + 0x100000000000000 * (bytes 7).toNat := by
  rw [descriptor, toNat_load_succ bytes 0 (by decide), toNat_load_succ bytes _ (by decide),
    toNat_load_succ bytes _ (by decide), toNat_load_succ bytes _ (by decide),
    toNat_load_succ bytes _ (by decide), toNat_load_succ bytes _ (by decide),
    toNat_load_succ bytes _ (by decide), toNat_load_succ bytes _ (by decide)]
  simp only [load, Nat.zero_add, Nat.reduceAdd, Nat.mul_add, ← Nat.mul_assoc, Nat.reduceMul,
    ← Nat.add_assoc]
  rfl

theorem toNat_getLimit (bytes : Nat → Byte) : (descriptor bytes).getLimit.toNat = lastOffset bytes := by
  have hsum := toNat_descriptor bytes
  have h0 := (bytes 0).isLt
  have h1 := (bytes 1).isLt
  have h2 := (bytes 2).isLt
  have h3 := (bytes 3).isLt
  have h4 := (bytes 4).isLt
  have h5 := (bytes 5).isLt
  have h6 := (bytes 6).isLt
  have h7 := (bytes 7).isLt
  have hlow : (((descriptor bytes).extractLsb' 0 16).setWidth 32).toNat =
      (bytes 0).toNat + 0x100 * (bytes 1).toNat := by
    rw [BitVec.toNat_setWidth, BitVec.extractLsb'_toNat, Nat.shiftRight_eq_div_pow]
    omega
  have hhigh : (((descriptor bytes).extractLsb' 48 4).setWidth 32).toNat = (bytes 6).toNat % 0x10 := by
    rw [BitVec.toNat_setWidth, BitVec.extractLsb'_toNat, Nat.shiftRight_eq_div_pow]
    omega
  have hflags : (descriptor bytes).flags.toNat = (bytes 6).toNat / 0x10 := by
    rw [GDTEntry.flags, BitVec.extractLsb'_toNat, Nat.shiftRight_eq_div_pow]
    omega
  have hpages : ∀ flags : BitVec 4, flags &&& 0x8 = 0 ↔ flags.toNat < 8 := by decide
  have hlimit := toNat_or_shiftLeft (x := ((descriptor bytes).extractLsb' 0 16).setWidth 32)
    (y := ((descriptor bytes).extractLsb' 48 4).setWidth 32) (k := 16) (by omega) (by omega)
  rw [GDTEntry.getLimit, lastOffset]
  by_cases hgranular : 0x80 ≤ (bytes 6).toNat
  · rw [if_neg (by rw [hpages]; omega), if_pos hgranular, BitVec.or_comm,
      toNat_or_shiftLeft (by decide) (by rw [hlimit]; omega), hlimit, hlow, hhigh]
    show 0xFFF + _ = _
    omega
  · rw [if_pos (by rw [hpages]; omega), if_neg hgranular, hlimit, hlow, hhigh]
    omega

theorem sameEntry_iff (bytes bytes' : Nat → Byte) :
    ((descriptor bytes).getBase = (descriptor bytes').getBase ∧
      (descriptor bytes).getLimit = (descriptor bytes').getLimit ∧
      (descriptor bytes).access = (descriptor bytes').access) ↔ SameEntry bytes bytes' := by
  have hbyte (bytes : Nat → Byte) {k : Nat} (hk : k < 8) : byteAt (descriptor bytes) k = bytes k := by
    rw [descriptor, byteAt_load bytes 0 (by decide) hk, Nat.zero_add]
  have hbase : (∀ k ∈ [2, 3, 4, 7], byteAt (descriptor bytes) k = byteAt (descriptor bytes') k) ↔
      ∀ k ∈ [2, 3, 4, 7], bytes k = bytes' k := by
    refine forall₂_congr fun k hk => ?_
    have hlt : k < 8 := (by decide : ∀ k ∈ [2, 3, 4, 7], k < 8) k hk
    rw [hbyte bytes hlt, hbyte bytes' hlt]
  rw [getBase_eq_iff, hbase, access_eq, access_eq, hbyte bytes (by decide), hbyte bytes' (by decide),
    ← BitVec.toNat_inj, toNat_getLimit, toNat_getLimit]
  constructor
  · rintro ⟨hbase, hlimit, haccess⟩
    exact ⟨hbase, haccess, hlimit⟩
  · rintro ⟨hbase, haccess, hlimit⟩
    exact ⟨hbase, hlimit, haccess⟩

theorem sameEntry_of_eq {bytes bytes' : Nat → Byte} (h : ∀ k < 8, bytes k = bytes' k) :
    SameEntry bytes bytes' where
  base k hk := h k ((by decide : ∀ k ∈ [2, 3, 4, 7], k < 8) k hk)
  access := h 5 (by decide)
  limit := by rw [lastOffset, lastOffset, h 0 (by decide), h 1 (by decide), h 6 (by decide)]

end Descriptor

/-! ## The two back-ends -/

/-- A back-end with its segment registers, when one of them has the base, limit and access of a
descriptor, and when it holds a selector with all of its descriptor. -/
structure SegmentBackend (R S : Type) where
  backend : Backend R
  segment : R → Selector → S
  load (mem : GuestEntry) (selector : BitVec 16) (regs : R) : S
  cr3 : R → Word
  HasFields : S → GDTEntry → Prop
  Holds : S → BitVec 16 → GDTEntry → Prop
  write_segment : ∀ mem r value regs, ∃ regs',
    backend.write mem (.segment r) value regs = some regs' ∧
      segment regs' r = load mem (value.setWidth 16) regs
  load_entry : ∀ mem selector regs, load mem selector regs =
    load (fun _ _ => mem (cr3 regs) ((backend.getGDT regs).1 + selector.setWidth 32)) selector regs
  hasFields_load : ∀ (e : GDTEntry) selector regs (e' : GDTEntry),
    HasFields (load (fun _ _ => e) selector regs) e' ↔
      e.getBase = e'.getBase ∧ e.getLimit = e'.getLimit ∧ e.access = e'.access
  holds_iff : ∀ (e : GDTEntry) selector regs segment,
    load (fun _ _ => e) selector regs = segment ↔ Holds segment selector e

theorem setWidth_inj {a b : Word} : a.setWidth 64 = b.setWidth 64 ↔ a = b := by
  refine ⟨fun h => ?_, congrArg _⟩
  have hback := congrArg (fun v : BitVec 64 => v.setWidth 32) h
  simpa using hback

theorem setWidth_add_selector (base : BitVec 64) (selector : BitVec 16) :
    (base + selector.setWidth 64).setWidth 32 = base.setWidth 32 + selector.setWidth 32 := by
  rw [BitVec.setWidth_add _ _ (by decide), BitVec.setWidth_setWidth_of_le _ (by decide)]

/-- The four fields that KVM has in place of the access byte. -/
theorem access_eq_iff (a b : Byte) :
    ((a >>> 7) &&& (0x1 : Byte) = (b >>> 7) &&& (0x1 : Byte) ∧
      (a >>> 5) &&& (0x3 : Byte) = (b >>> 5) &&& (0x3 : Byte) ∧
      (a >>> 4) &&& (0x1 : Byte) = (b >>> 4) &&& (0x1 : Byte) ∧ a &&& 0xF = b &&& 0xF) ↔ a = b := by
  have hparts : ∀ a : Byte, (((a >>> 7) &&& 0x1) <<< 7) ||| (((a >>> 5) &&& 0x3) <<< 5) |||
      (((a >>> 4) &&& 0x1) <<< 4) ||| (a &&& 0xF) = a := by decide
  constructor
  · rintro ⟨hpresent, hdpl, hs, htype⟩
    rw [← hparts a, ← hparts b, hpresent, hdpl, hs, htype]
  · rintro rfl
    exact ⟨rfl, rfl, rfl, rfl⟩

def kvmSegments : SegmentBackend KvmRegs KvmSegment where
  backend := kvm
  segment := KvmRegs.segment
  load mem selector regs := regs.loadSegmentSelector mem selector
  cr3 regs := (regs.control .cr3).setWidth 32
  HasFields segment e :=
    segment.base = e.getBase.setWidth 64 ∧ segment.limit = e.getLimit ∧
      segment.present = (e.access >>> 7) &&& 0x1 ∧ segment.dpl = (e.access >>> 5) &&& 0x3 ∧
      segment.s = (e.access >>> 4) &&& 0x1 ∧ segment.type = e.access &&& 0xF
  Holds segment selector e :=
    segment.selector = selector ∧ segment.base = e.getBase.setWidth 64 ∧ segment.limit = e.getLimit ∧
      segment.type = e.access &&& 0xF ∧ segment.s = (e.access >>> 4) &&& 0x1 ∧
      segment.dpl = (e.access >>> 5) &&& 0x3 ∧ segment.present = (e.access >>> 7) &&& 0x1 ∧
      segment.avl = e.flags.setWidth 8 &&& 0x1 ∧ segment.l = (e.flags.setWidth 8 >>> 1) &&& 0x1 ∧
      segment.db = (e.flags.setWidth 8 >>> 2) &&& 0x1 ∧ segment.g = (e.flags.setWidth 8 >>> 3) &&& 0x1
  write_segment mem r value regs := ⟨_, rfl, if_pos rfl⟩
  load_entry mem selector regs := by
    have hload (entry : GDTEntry) (h : mem ((regs.control .cr3).setWidth 32)
        ((regs.gdt.base + selector.setWidth 64).setWidth 32) = entry) :
        regs.loadSegmentSelector mem selector =
          regs.loadSegmentSelector (fun _ _ => entry) selector := by
      subst h
      rfl
    exact hload _ (congrArg (mem _) (setWidth_add_selector _ _))
  hasFields_load e selector regs e' := by
    rw [← access_eq_iff e.access e'.access]
    exact and_congr_left fun _ => setWidth_inj
  holds_iff e selector regs segment := by
    constructor
    · rintro rfl
      exact ⟨rfl, rfl, rfl, rfl, rfl, rfl, rfl, rfl, rfl, rfl, rfl⟩
    · rintro ⟨hselector, hbase, hlimit, htype, hs, hdpl, hpresent, havl, hl, hdb, hg⟩
      cases segment
      subst hselector hbase hlimit htype hs hdpl hpresent havl hl hdb hg
      rfl

def haxmSegments : SegmentBackend HaxmRegs HaxmSegment where
  backend := haxm
  segment := HaxmRegs.segment
  load mem selector regs := regs.loadSegmentSelector mem selector
  cr3 regs := (regs.control .cr3).setWidth 32
  HasFields segment e :=
    segment.base = e.getBase.setWidth 64 ∧ segment.limit = e.getLimit ∧
      segment.ar.setWidth 8 = e.access
  Holds segment selector e :=
    segment.selector = selector ∧ segment.base = e.getBase.setWidth 64 ∧ segment.limit = e.getLimit ∧
      segment.ar = e.access.setWidth 32 ||| e.flags.setWidth 32 <<< 12
  write_segment mem r value regs := ⟨_, rfl, if_pos rfl⟩
  load_entry mem selector regs := by
    have hload (entry : GDTEntry) (h : mem ((regs.control .cr3).setWidth 32)
        ((regs.gdt.base + selector.setWidth 64).setWidth 32) = entry) :
        regs.loadSegmentSelector mem selector =
          regs.loadSegmentSelector (fun _ _ => entry) selector := by
      subst h
      rfl
    exact hload _ (congrArg (mem _) (setWidth_add_selector _ _))
  hasFields_load e selector regs e' := by
    have haccess : (e.access.setWidth 32 ||| e.flags.setWidth 32 <<< 12).setWidth 8 = e.access := by
      apply BitVec.eq_of_getLsbD_eq
      intro i hi
      simp [hi]
    have hfields : ((e.access.setWidth 32 ||| e.flags.setWidth 32 <<< 12).setWidth 8 = e'.access) ↔
        e.access = e'.access := by rw [haccess]
    exact and_congr setWidth_inj (and_congr_right fun _ => hfields)
  holds_iff e selector regs segment := by
    constructor
    · rintro rfl
      exact ⟨rfl, rfl, rfl, rfl⟩
    · rintro ⟨hselector, hbase, hlimit, har⟩
      cases segment
      subst hselector hbase hlimit har
      rfl

/-! ## The two reads -/

section Reads

variable (p : Paging) (m : HostMap) (host : Host)

/-- The byte at a virtual address, if it can be read. -/
def byteOf (v : Word) : Option Byte :=
  (toPhysical p m host v).bind fun a => (rangeOf m a).map fun r => host (r.place a)

/-- A byte of the local entry after the read: what cannot be read ends it. -/
def fetched (v : Word) (junk : Nat → Byte) (i : Nat) : Byte :=
  if ∀ j ≤ i, (byteOf p m host (v + BitVec.ofNat 32 j)).isSome then
    (byteOf p m host (v + BitVec.ofNat 32 i)).getD 0
  else junk i

theorem byteStep_read (v : Word) {i : Nat} (hi : i < 2 ^ 32) (value : Nat → Byte) :
    byteStep (readCopy p m host) v i value =
      (byteOf p m host (v + BitVec.ofNat 32 i)).map fun b => Function.update value i b := by
  have hpos : (BitVec.ofNat 32 i).toNat = i := (BitVec.toNat_ofNat _ _).trans (Nat.mod_eq_of_lt hi)
  have hcopy (b : Byte) : copyTo i [b] value = Function.update value i b := by
    funext k
    by_cases hk : k = i
    · subst hk
      simp [copyTo]
    · have hout : ¬ (i ≤ k ∧ k < i + [b].length) := by
        rw [List.length_singleton]
        omega
      rw [copyTo, if_neg hout, Function.update_of_ne hk]
  have hstep : byteStep (readCopy p m host) v i value =
      (toPhysical p m host (v + BitVec.ofNat 32 i)).bind fun a =>
        (memRead (view m host) a 1).map fun bytes => copyTo (BitVec.ofNat 32 i).toNat bytes value := rfl
  rw [hstep, hpos, byteOf]
  cases toPhysical p m host (v + BitVec.ofNat 32 i) with
  | none => rfl
  | some a =>
    rw [Option.bind_some, Option.bind_some, memRead_view, Option.map_map, Option.map_map, ← rangeOf]
    cases rangeOf m a with
    | none => rfl
    | some r => exact congrArg some (hcopy _)

/-- The copy byte by byte stores what can be read, up to the first byte that cannot. -/
theorem byteSteps_read (v : Word) {n k : Nat} (hn : k + n ≤ 2 ^ 32) (value : Nat → Byte) (i : Nat) :
    (byteSteps (readCopy p m host) v n k value).1 i =
      if (k ≤ i ∧ i < k + n) ∧ ∀ j, k ≤ j → j ≤ i → (byteOf p m host (v + BitVec.ofNat 32 j)).isSome then
        (byteOf p m host (v + BitVec.ofNat 32 i)).getD 0
      else value i := by
  induction n generalizing k value with
  | zero =>
    rw [if_neg fun h => by omega]
    rfl
  | succ n ih =>
    rw [byteSteps, byteStep_read p m host v (by omega)]
    cases hbyte : byteOf p m host (v + BitVec.ofNat 32 k) with
    | none =>
      rw [if_neg]
      · rfl
      · rintro ⟨⟨hki, -⟩, hall⟩
        have hread := hall k (Nat.le_refl k) hki
        rw [hbyte] at hread
        cases hread
    | some b =>
      show (byteSteps (readCopy p m host) v n (k + 1) (Function.update value k b)).1 i = _
      rw [ih (by omega)]
      by_cases hi : i = k
      · subst hi
        have hread : ∀ j, i ≤ j → j ≤ i → (byteOf p m host (v + BitVec.ofNat 32 j)).isSome := by
          intro j hij hji
          obtain rfl := Nat.le_antisymm hij hji
          rw [hbyte]
          rfl
        rw [if_neg fun h => by omega, if_pos ⟨⟨Nat.le_refl i, by omega⟩, hread⟩, hbyte,
          Function.update_self]
        rfl
      · have hiff : ((k + 1 ≤ i ∧ i < k + 1 + n) ∧
            ∀ j, k + 1 ≤ j → j ≤ i → (byteOf p m host (v + BitVec.ofNat 32 j)).isSome) ↔
            (k ≤ i ∧ i < k + (n + 1)) ∧
              ∀ j, k ≤ j → j ≤ i → (byteOf p m host (v + BitVec.ofNat 32 j)).isSome := by
          constructor
          · rintro ⟨hrange, hall⟩
            refine ⟨by omega, fun j hkj hji => ?_⟩
            by_cases hj : j = k
            · rw [hj, hbyte]
              rfl
            · exact hall j (by omega) hji
          · rintro ⟨hrange, hall⟩
            exact ⟨by omega, fun j hkj hji => hall j (by omega) hji⟩
        rw [if_congr hiff rfl (Function.update_of_ne hi b value)]

theorem vmemRead_fetched {m : HostMap} (hm : ∀ r ∈ m, HostRange.Aligned r) {v : Word}
    {junk : Nat → Byte} {o : Outcome (Nat → Byte)} (h : VMemRead p m host v 8 junk o) {i : Nat}
    (hi : i < 8) : o.changed i = fetched p m host v junk i := by
  rw [(vmemRead_iff hm p host v 8 junk o).mp h]
  have hcopy := byteSteps_read p m host v (n := 8) (k := 0) (by decide) junk i
  have hiff : ((0 ≤ i ∧ i < 0 + 8) ∧
      ∀ j, 0 ≤ j → j ≤ i → (byteOf p m host (v + BitVec.ofNat 32 j)).isSome) ↔
      ∀ j ≤ i, (byteOf p m host (v + BitVec.ofNat 32 j)).isSome :=
    ⟨fun h j hji => h.2 j (Nat.zero_le j) hji, fun h => ⟨⟨Nat.zero_le i, by omega⟩, fun j _ => h j⟩⟩
  exact hcopy.trans (if_congr hiff rfl rfl)

/-- What `VMemRead` leaves in the local entry, which held `junk`. -/
def LeftBy (pde pte : Word) (m : HostMap) (host : Host) (junk : Nat → Byte) (mem : GuestEntry) : Prop :=
  ∀ cr3 addr, ∃ o, VMemRead ⟨cr3, pde, pte⟩ m host addr 8 junk o ∧ mem cr3 addr = descriptor o.changed

theorem LeftBy.eq_fetched {pde pte : Word} {m : HostMap} {host : Host} {junk : Nat → Byte}
    {mem : GuestEntry} (hm : ∀ r ∈ m, HostRange.Aligned r) (h : LeftBy pde pte m host junk mem)
    (cr3 addr : Word) :
    mem cr3 addr = descriptor (fetched ⟨cr3, pde, pte⟩ m host addr junk) := by
  obtain ⟨o, hread, hmem⟩ := h cr3 addr
  rw [hmem]
  exact descriptor_congr fun k hk => vmemRead_fetched ⟨cr3, pde, pte⟩ host hm hread hk

end Reads

/-- The selector of the same index, for the GDT and with the highest privilege. -/
def index (selector : BitVec 16) : BitVec 16 := selector &&& 0xFFF8

/-- The place of the selector's entry in the host's memory, if it is accepted and can be read. -/
def located (gdt : DescriptorTable) (m : HostMap) (selector : BitVec 16) : Option Nat :=
  if selector.toNat + entrySize > gdt.limit.toNat then none
  else
    (m.find? fun r => r.admits (gdt.base + selector.setWidth 32) 8).map fun r =>
      r.place (gdt.base + selector.setWidth 32)

theorem getGDTEntry_located {gdt : DescriptorTable} {m : HostMap} {selector : BitVec 16} {place : Nat}
    (h : located gdt m selector = some place) (host : Host) :
    GetGDTEntry (.ok gdt) m selector host = .ok ((List.range 8).map fun i => host (place + i)) := by
  unfold located at h
  split at h
  · cases h
  · next hlimit =>
    obtain ⟨r, hr, rfl⟩ := Option.map_eq_some_iff.mp h
    rw [GetGDTEntry, accessEntry_accepted (Nat.le_of_not_lt hlimit), memRead_view, hr]
    rfl

theorem getGDTEntry_refused {gdt : DescriptorTable} {m : HostMap} {selector : BitVec 16}
    (h : located gdt m selector = none) (host : Host) :
    ∃ status, GetGDTEntry (.ok gdt) m selector host = .error status := by
  unfold located at h
  split at h
  · next hlimit => exact ⟨_, accessEntry_rejected hlimit⟩
  · next hlimit =>
    have hnone := Option.map_eq_none_iff.mp h
    refine ⟨.invalidAddress, ?_⟩
    rw [GetGDTEntry, accessEntry_accepted (Nat.le_of_not_lt hlimit), memRead_view, hnone]
    rfl

/-! ## When they agree -/

section Agreement

variable {R S : Type} (b : SegmentBackend R S) (pde pte : Word) (m : HostMap) (host : Host)
  (junk : Nat → Byte) (mem : GuestEntry) (regs : R) (r : Selector)

def SegmentBackend.gdt (regs : R) : DescriptorTable :=
  ⟨(b.backend.getGDT regs).1, (b.backend.getGDT regs).2⟩

/-- A write of a segment register loads the entry that `GetGDTEntry` gives for the index, and leaves
the register alone where that fails. -/
structure SegmentLoadOk (value : Word) : Prop where
  entry : ∀ regs' bytes, b.backend.write mem (.segment r) value regs = some regs' →
    GetGDTEntry (.ok (b.gdt regs)) m (index (value.setWidth 16)) host = .ok bytes →
    b.HasFields (b.segment regs' r) (descriptor fun i => bytes.getD i 0)
  refused : ∀ regs' status, b.backend.write mem (.segment r) value regs = some regs' →
    GetGDTEntry (.ok (b.gdt regs)) m (index (value.setWidth 16)) host = .error status →
    b.segment regs' r = b.segment regs r

/-- The bytes at the virtual address of the selector. -/
def atSelector (selector : BitVec 16) : Nat → Byte :=
  fetched ⟨b.cr3 regs, pde, pte⟩ m host ((b.gdt regs).base + selector.setWidth 32) junk

/-- The bytes at the virtual address of the selector are like those of the index in physical memory;
where these cannot be read, the register already holds the selector with what the bytes describe. -/
structure Agrees (selector : BitVec 16) : Prop where
  entry : ∀ place, located (b.gdt regs) m (index selector) = some place →
    SameEntry (atSelector b pde pte m host junk regs selector) fun i => host (place + i)
  refused : located (b.gdt regs) m (index selector) = none →
    b.Holds (b.segment regs r) selector (descriptor (atSelector b pde pte m host junk regs selector))

variable {m host junk mem pde pte}

theorem segment_written (hm : ∀ r ∈ m, HostRange.Aligned r) (hmem : LeftBy pde pte m host junk mem)
    (value : Word) : ∃ regs', b.backend.write mem (.segment r) value regs = some regs' ∧
      b.segment regs' r = b.load
        (fun _ _ => descriptor (atSelector b pde pte m host junk regs (value.setWidth 16)))
        (value.setWidth 16) regs := by
  obtain ⟨regs', hwrite, hsegment⟩ := b.write_segment mem r value regs
  refine ⟨regs', hwrite, ?_⟩
  rw [hsegment, b.load_entry, hmem.eq_fetched hm]
  rfl

theorem hasFields_iff (bytes : Nat → Byte) (selector : BitVec 16) (bytes' : Nat → Byte) :
    b.HasFields (b.load (fun _ _ => descriptor bytes) selector regs) (descriptor bytes') ↔
      SameEntry bytes bytes' := by
  rw [b.hasFields_load, sameEntry_iff]

theorem agrees_iff (hm : ∀ r ∈ m, HostRange.Aligned r) (hmem : LeftBy pde pte m host junk mem)
    (value : Word) : SegmentLoadOk b m host mem regs r value ↔
      Agrees b pde pte m host junk regs r (value.setWidth 16) := by
  obtain ⟨regs', hwrite, hsegment⟩ := segment_written b regs r hm hmem value
  have hentry (place : Nat) :
      (descriptor fun i => ((List.range 8).map fun i => host (place + i)).getD i 0) =
        descriptor fun i => host (place + i) := by
    refine descriptor_congr fun k hk => ?_
    simp [hk]
  constructor
  · intro h
    refine ⟨fun place hplace => ?_, fun hnone => ?_⟩
    · have hfields := h.entry regs' _ hwrite (getGDTEntry_located hplace host)
      rwa [hentry, hsegment, hasFields_iff] at hfields
    · obtain ⟨status, hstatus⟩ := getGDTEntry_refused hnone host
      rw [← b.holds_iff _ _ regs, ← hsegment, h.refused regs' status hwrite hstatus]
  · intro h
    refine ⟨fun t bytes ht hbytes => ?_, fun t status ht hstatus => ?_⟩
    · obtain rfl := Option.some.inj (hwrite.symm.trans ht)
      cases hlocated : located (b.gdt regs) m (index (value.setWidth 16)) with
      | none =>
        obtain ⟨status, hstatus⟩ := getGDTEntry_refused hlocated host
        rw [hstatus] at hbytes
        cases hbytes
      | some place =>
        rw [getGDTEntry_located hlocated] at hbytes
        cases hbytes
        rw [hentry, hsegment, hasFields_iff]
        exact h.entry place hlocated
    · obtain rfl := Option.some.inj (hwrite.symm.trans ht)
      cases hlocated : located (b.gdt regs) m (index (value.setWidth 16)) with
      | none =>
        rw [hsegment]
        exact (b.holds_iff _ _ regs _).mpr (h.refused hlocated)
      | some place =>
        rw [getGDTEntry_located hlocated] at hstatus
        cases hstatus

/-- The paths agree where the virtual addresses of an entry, which does not cross a page, are its
physical ones, for a selector of the GDT with the highest privilege. -/
theorem agrees_of_identity (hm : ∀ r ∈ m, HostRange.Aligned r) {selector : BitVec 16}
    (hindex : index selector = selector)
    (hpage : offset ((b.gdt regs).base + selector.setWidth 32) + 8 ≤ 4096)
    (hsame : ∀ i < 8, toPhysical ⟨b.cr3 regs, pde, pte⟩ m host
      ((b.gdt regs).base + selector.setWidth 32 + BitVec.ofNat 32 i) =
        some ((b.gdt regs).base + selector.setWidth 32 + BitVec.ofNat 32 i))
    (hlocated : (located (b.gdt regs) m selector).isSome) :
    Agrees b pde pte m host junk regs r selector := by
  refine ⟨fun place hplace => ?_, fun hnone => ?_⟩
  · rw [hindex] at hplace
    unfold located at hplace
    split at hplace
    · cases hplace
    obtain ⟨range, hrange, rfl⟩ := Option.map_eq_some_iff.mp hplace
    have hfirst : rangeOf m ((b.gdt regs).base + selector.setWidth 32) = some range :=
      (find_chunk hm (by decide) hpage).symm.trans hrange
    have hbyte (i : Nat) (hi : i < 8) : byteOf ⟨b.cr3 regs, pde, pte⟩ m host
        ((b.gdt regs).base + selector.setWidth 32 + BitVec.ofNat 32 i) =
          some (host (range.place ((b.gdt regs).base + selector.setWidth 32) + i)) := by
      rw [byteOf, hsame i hi, Option.bind_some, rangeOf_add hm (by omega), hfirst, Option.map_some,
        place_add hm hfirst (by omega)]
    refine sameEntry_of_eq fun i hi => ?_
    have hall : ∀ j ≤ i, (byteOf ⟨b.cr3 regs, pde, pte⟩ m host
        ((b.gdt regs).base + selector.setWidth 32 + BitVec.ofNat 32 j)).isSome := by
      intro j hj
      rw [hbyte j (by omega)]
      rfl
    rw [atSelector, fetched, if_pos hall, hbyte i hi]
    rfl
  · rw [hindex] at hnone
    rw [hnone] at hlocated
    cases hlocated

end Agreement

/-- With either back-end, a write of a segment register agrees with `GetGDTEntry` exactly when the
bytes at the virtual address of the whole selector agree with those of its index. -/
theorem segment_load_iff {m : HostMap} (hm : ∀ r ∈ m, HostRange.Aligned r) {pde pte : Word} {host : Host}
    {junk : Nat → Byte} {mem : GuestEntry} (hmem : LeftBy pde pte m host junk mem) (kvmRegs : KvmRegs)
    (haxmRegs : HaxmRegs) (r : Selector) (value : Word) :
    (SegmentLoadOk kvmSegments m host mem kvmRegs r value ↔
      Agrees kvmSegments pde pte m host junk kvmRegs r (value.setWidth 16)) ∧
    (SegmentLoadOk haxmSegments m host mem haxmRegs r value ↔
      Agrees haxmSegments pde pte m host junk haxmRegs r (value.setWidth 16)) :=
  ⟨agrees_iff kvmSegments kvmRegs r hm hmem value, agrees_iff haxmSegments haxmRegs r hm hmem value⟩

/-- The bytes that the copy one by one leaves. -/
def copiedEntry (pde pte : Word) (m : HostMap) (host : Host) (junk : Nat → Byte) : GuestEntry :=
  fun cr3 addr => descriptor (byteCopy (readCopy ⟨cr3, pde, pte⟩ m host) addr 8 junk).changed

theorem leftBy_copiedEntry {m : HostMap} (hm : ∀ r ∈ m, HostRange.Aligned r) (pde pte : Word)
    (host : Host) (junk : Nat → Byte) :
    LeftBy pde pte m host junk (copiedEntry pde pte m host junk) :=
  fun cr3 addr => ⟨_, (vmemRead_iff hm ⟨cr3, pde, pte⟩ host addr 8 junk _).mpr rfl, rfl⟩

/-- A table of four entries at the start of the RAM. -/
def kvmSample : KvmRegs :=
  { general := fun _ => 0
    segment := fun _ => ⟨0, 0, 0, 0, 0, 0, 0, 0, 0, 0, 0⟩
    control := fun _ => 0
    gdt := ⟨0, 0x1F⟩
    idt := ⟨0, 0⟩ }

def haxmSample : HaxmRegs :=
  { general := fun _ => 0
    segment := fun _ => ⟨0, 0, 0, 0⟩
    control := fun _ => 0
    gdt := ⟨0, 0x1F, 0, 0⟩
    idt := ⟨0, 0, 0, 0⟩ }

theorem ram_aligned : ∀ r ∈ ram, HostRange.Aligned r := by decide

/-- The access byte of the second entry says that it is a segment of code. -/
def ramWithCode : Host := fun x => if x = 13 then 0x9A else ramWithEntry x

/-- The second entry, with no privilege asked for. -/
theorem second_entry_loaded :
    SegmentLoadOk kvmSegments ram ramWithCode (copiedEntry 0 0 ram ramWithCode fun _ => 0) kvmSample
      .cs 8 := by
  have hiff := segment_load_iff ram_aligned (leftBy_copiedEntry ram_aligned 0 0 ramWithCode fun _ => 0)
    kvmSample haxmSample .cs 8
  exact hiff.1.mpr (agrees_of_identity kvmSegments kvmSample .cs ram_aligned (by decide) (by decide)
    (by decide) (by decide))

/-- A requested privilege of three moves the address of the descriptor by three bytes. -/
theorem privilege_moves_descriptor :
    ¬ ∀ m : HostMap, (∀ r ∈ m, HostRange.Aligned r) → ∀ (pde pte : Word) (host : Host)
      (junk : Nat → Byte) (mem : GuestEntry), LeftBy pde pte m host junk mem →
      ∀ (regs : KvmRegs) (r : Selector) (value : Word),
        SegmentLoadOk kvmSegments m host mem regs r value := by
  intro h
  have hleft := leftBy_copiedEntry ram_aligned 0 0 ramWithCode fun _ => 0
  have hok := h ram ram_aligned 0 0 ramWithCode _ _ hleft kvmSample .cs 0xB
  have hsame := ((agrees_iff kvmSegments kvmSample .cs ram_aligned hleft 0xB).mp hok).entry 8 rfl
  exact absurd hsame.access (by decide)

end OpenXbox.Cpu.SegmentLoad
