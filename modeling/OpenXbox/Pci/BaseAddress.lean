import OpenXbox.Pci.ConfigSpace

/-!
# Base address registers

`RegisterBAR` makes the bits of a register above its size writable, and leaves the type in
the others. An address is claimed by the first register with a matching type whose range it
is in; the end of the range is computed with 32 bits.
-/

namespace OpenXbox.Pci.BaseAddress

open OpenXbox.Lib.Bits OpenXbox.Lib.BitField OpenXbox.Lib.LittleEndian OpenXbox.Pci.Device
  OpenXbox.Pci.ConfigSpace

/-! ## Registered BARs -/

/-- A size that is a power of two, and a type that fits below the address. -/
structure BAR where
  kind : BarType
  type : Word
  bits : Nat
  kind_eq : type &&& 1 = kind.code
  type_lt : type.toNat < 2 ^ kind.flagBits
  bits_ge : kind.flagBits ≤ bits
  bits_lt : bits < 32

def BAR.size (b : BAR) : Word := (1 : Word) <<< b.bits

/-- The devices whose registers are BARs of this form, whatever the guest writes. -/
inductive Reached : PCIDevice → (Nat → Option BAR) → Prop where
  | new (c : Identity) : Reached (PCIDevice.new c) fun _ => none
  | registered {d d' : PCIDevice} {bars : Nat → Option BAR} {i : Nat} {b : BAR} (h : Reached d bars)
      (hcall : d.registerBAR i b.size b.type = .ok (d', true)) :
      Reached d' (Function.update bars i (some b))
  | written {d d' : PCIDevice} {bars : Nat → Option BAR} {reg size : Nat} {value : Word}
      (h : Reached d bars) (hcall : d.writeConfig reg value size = .ok d') : Reached d' bars

theorem size_toNat (b : BAR) : b.size.toNat = 2 ^ b.bits := by
  have hlt : 2 ^ b.bits < 2 ^ 32 := Nat.pow_lt_pow_right (by decide) b.bits_lt
  rw [BAR.size, BitVec.toNat_shiftLeft, Nat.shiftLeft_eq]
  exact (Nat.mod_eq_of_lt (by simpa using hlt)).trans (Nat.one_mul _)

theorem size_ne_zero (b : BAR) : b.size ≠ 0 := by
  intro h
  have hval := size_toNat b
  rw [h] at hval
  exact absurd hval.symm (Nat.two_pow_pos b.bits).ne'

theorem size_sub_one (b : BAR) : b.size - 1 = lowMask b.bits := by
  have hlt : 2 ^ b.bits < 2 ^ 32 := Nat.pow_lt_pow_right (by decide) b.bits_lt
  have hpos := Nat.two_pow_pos b.bits
  apply BitVec.eq_of_toNat_eq
  rw [BitVec.toNat_sub_of_le, size_toNat, lowMask, BitVec.toNat_ofNat, Nat.mod_eq_of_lt (by omega)]
  · rfl
  · rw [BitVec.le_def, size_toNat]
    exact hpos

theorem type_bit (b : BAR) {n : Nat} (hn : b.kind.flagBits ≤ n) : b.type.getLsbD n = false := by
  rw [← BitVec.testBit_toNat]
  exact Nat.testBit_lt_two_pow (b.type_lt.trans_le (Nat.pow_le_pow_right (by decide) hn))

/-! ## What stays as it is -/

/-- A write that returns is one of those made bit by bit. -/
theorem written_of_ok {d d' : PCIDevice} {reg size : Nat} {value : Word} (hapart : Apart d)
    (h : d.writeConfig reg value size = .ok d') : Written d d' reg value size := by
  rcases Nat.eq_zero_or_pos size with rfl | hsize
  · cases h
    refine ⟨fun k j _ => ?_, rfl⟩
    rw [writtenBit, if_neg (by omega)]
  by_cases hin : reg + size ≤ 256
  · obtain ⟨d1, hok, hwritten⟩ := writeConfig_written hapart value hin
    rw [h] at hok
    cases hok
    exact hwritten
  · rw [writeConfig_outside hapart value hsize hin] at h
    cases h

/-- A bit that is under neither mask keeps its value. -/
theorem kept_bit {d d' : PCIDevice} {reg size : Nat} {value : Word} (h : Written d d' reg value size)
    {k j : Nat} (hj : j < 8) (hwrite : (d.writeMask k).getLsbD j = false)
    (hclear : d.write1ToClearMask k = 0) :
    (d'.configSpace k).getLsbD j = (d.configSpace k).getLsbD j := by
  rw [h.bits k j hj]
  unfold writtenBit
  simp [hwrite, hclear]

/-- A bit of a register is one of its bytes. -/
theorem getLsbD_read32 (buf : Bytes) (reg : Nat) {n : Nat} (hn : n < 32) :
    (buf.read32 reg).getLsbD n = (buf (reg + n / 8)).getLsbD (n % 8) := by
  rw [Bytes.read32, getLsbD_load]
  simp [hn]

/-- The registers of a device with the BARs. -/
structure Decodes (d : PCIDevice) (bars : Nat → Option BAR) : Prop where
  apart : Apart d
  clear : ∀ k, InBars k → d.write1ToClearMask k = 0
  headerWrite : d.writeMask PCI_HEADER_TYPE = 0
  headerClear : d.write1ToClearMask PCI_HEADER_TYPE = 0
  sizes : ∀ i, d.barSizes i = (bars i).elim 0 BAR.size
  index : ∀ i b, bars i = some b → ∃ count, d.numBARs = some count ∧ i < count
  mask : ∀ i b, bars i = some b → d.writeMask.read32 (barOffset i) = ~~~lowMask b.bits
  type : ∀ i b, bars i = some b → d.configSpace.read32 (barOffset i) &&& lowMask b.bits = b.type

theorem decodes_new (c : Identity) : Decodes (PCIDevice.new c) fun _ => none where
  apart := new_apart c
  clear := fun _ => new_clear_bars c
  headerWrite := by
    unfold PCIDevice.new
    dsimp only
    split <;> rfl
  headerClear := by
    unfold PCIDevice.new
    dsimp only
    split <;> rfl
  sizes := fun _ => rfl
  index := fun _ _ h => by cases h
  mask := fun _ _ h => by cases h
  type := fun _ _ h => by cases h

/-- Registers of other indices, and the type of the header, are apart from a BAR. -/
theorem read32_write32_of_ne {buf : Bytes} {i j : Nat} (hne : j ≠ i) (value : Word) :
    (buf.write32 (barOffset i) value).read32 (barOffset j) = buf.read32 (barOffset j) := by
  refine load_congr fun k hk => store_of_out (fun h => ?_) value
  simp only [barOffset] at h
  omega

theorem header_write32 (buf : Bytes) (i : Nat) (value : Word) :
    buf.write32 (barOffset i) value PCI_HEADER_TYPE = buf PCI_HEADER_TYPE := by
  refine store_of_out (fun h => ?_) value
  simp only [barOffset, PCI_BASE_ADDRESS_0, PCI_HEADER_TYPE] at h
  omega

theorem decodes_registered {d d' : PCIDevice} {bars : Nat → Option BAR} {i : Nat} {b : BAR}
    (h : Decodes d bars) (hcall : d.registerBAR i b.size b.type = .ok (d', true)) :
    Decodes d' (Function.update bars i (some b)) := by
  rcases registerBAR_cases hcall with ⟨haccepted, -⟩ | ⟨i', count, -, hi', hcount, hlt, -, rfl⟩
  · cases haccepted
  obtain rfl := Int.ofNat.inj hi'
  have hsame (buf : Bytes) (value : Word) :
      (buf.write32 (barOffset i) value).read32 (barOffset i) = value :=
    load_store (n := 4) buf (barOffset i) rfl value
  refine
    { apart := h.apart.registered h.clear hcount hlt _, clear := h.clear, headerWrite := ?_
      headerClear := h.headerClear, sizes := fun j => ?_, index := fun j b' hj => ?_
      mask := fun j b' hj => ?_, type := fun j b' hj => ?_ }
  · exact (header_write32 d.writeMask i (~~~(b.size - 1))).trans h.headerWrite
  · dsimp only
    by_cases hij : j = i
    · subst hij
      rw [Function.update_self, Function.update_self]
      rfl
    · rw [Function.update_of_ne hij, Function.update_of_ne hij]
      exact h.sizes j
  · have hheader (value : Word) : (d.configSpace.write32 (barOffset i) value) PCI_HEADER_TYPE =
        d.configSpace PCI_HEADER_TYPE := header_write32 _ _ _
    unfold PCIDevice.numBARs
    dsimp only
    rw [hheader]
    by_cases hij : j = i
    · subst hij
      exact ⟨count, hcount, hlt⟩
    · rw [Function.update_of_ne hij] at hj
      exact h.index j b' hj
  · dsimp only
    by_cases hij : j = i
    · subst hij
      rw [Function.update_self] at hj
      cases hj
      rw [hsame, size_sub_one]
    · rw [Function.update_of_ne hij] at hj
      rw [read32_write32_of_ne hij]
      exact h.mask j b' hj
  · dsimp only
    by_cases hij : j = i
    · subst hij
      rw [Function.update_self] at hj
      cases hj
      rw [hsame]
      apply ext32
      intro n hn
      rw [BitVec.getLsbD_and, getLsbD_lowMask hn]
      by_cases hbits : n < b.bits
      · simp [hbits]
      · rw [type_bit b (b.bits_ge.trans (Nat.le_of_not_lt hbits)), Bool.false_and]
    · rw [Function.update_of_ne hij] at hj
      rw [read32_write32_of_ne hij]
      exact h.type j b' hj

/-- The bits of a BAR below its size are kept by every write. -/
theorem kept_low {d d' : PCIDevice} {bars : Nat → Option BAR} {reg size i : Nat} {value : Word} {b : BAR}
    (h : Decodes d bars) (hwritten : Written d d' reg value size) (hb : bars i = some b) {n : Nat}
    (hn : n < b.bits) :
    (d'.configSpace.read32 (barOffset i)).getLsbD n = (d.configSpace.read32 (barOffset i)).getLsbD n := by
  obtain ⟨count, hcount, hlt⟩ := h.index i b hb
  have hn32 := hn.trans b.bits_lt
  have hmask := congrArg (fun x => x.getLsbD n) (h.mask i b hb)
  rw [getLsbD_read32 _ _ hn32, BitVec.getLsbD_not, getLsbD_lowMask hn32] at hmask
  simp only [hn, decide_true, Bool.not_true, Bool.and_false] at hmask
  rw [getLsbD_read32 _ _ hn32, getLsbD_read32 _ _ hn32]
  exact kept_bit hwritten (Nat.mod_lt n (by decide)) hmask
    (h.clear _ (barOffset_inBars hcount hlt (by omega)))

theorem decodes_written {d d' : PCIDevice} {bars : Nat → Option BAR} {reg size : Nat} {value : Word}
    (h : Decodes d bars) (hwritten : Written d d' reg value size) : Decodes d' bars := by
  have hheader : d'.configSpace PCI_HEADER_TYPE = d.configSpace PCI_HEADER_TYPE := by
    apply BitVec.eq_of_getLsbD_eq
    intro j hj
    refine kept_bit hwritten hj ?_ h.headerClear
    rw [h.headerWrite]
    exact BitVec.getLsbD_zero
  have hbars : d'.numBARs = d.numBARs := congrArg Device.numBARs hheader
  have hsizes : d'.barSizes = d.barSizes := by rw [hwritten.rest]
  have hmask : d'.writeMask = d.writeMask := by rw [hwritten.rest]
  have hclear : d'.write1ToClearMask = d.write1ToClearMask := by rw [hwritten.rest]
  refine
    { apart := fun k => ?_, clear := fun k hk => ?_, headerWrite := ?_, headerClear := ?_
      sizes := fun i => ?_, index := fun i b hb => ?_, mask := fun i b hb => ?_
      type := fun i b hb => ?_ }
  · rw [hmask, hclear]
    exact h.apart k
  · rw [hclear]
    exact h.clear k hk
  · rw [hmask]
    exact h.headerWrite
  · rw [hclear]
    exact h.headerClear
  · rw [hsizes]
    exact h.sizes i
  · rw [hbars]
    exact h.index i b hb
  · rw [hmask]
    exact h.mask i b hb
  · rw [← h.type i b hb]
    apply ext32
    intro n hn
    rw [BitVec.getLsbD_and, BitVec.getLsbD_and, getLsbD_lowMask hn]
    by_cases hbits : n < b.bits
    · rw [kept_low h hwritten hb hbits]
    · simp [hbits]

/-- Whatever the guest writes, the registers keep their form. -/
theorem reached_decodes {d : PCIDevice} {bars : Nat → Option BAR} (h : Reached d bars) :
    Decodes d bars := by
  induction h with
  | new c => exact decodes_new c
  | registered _ hcall ih => exact decodes_registered ih hcall
  | written _ hcall ih => exact decodes_written ih (written_of_ok ih.apart hcall)

/-! ## Sizing -/

/-- A write of a whole register is read back above the type. -/
theorem sizing {d : PCIDevice} {bars : Nat → Option BAR} (h : Decodes d bars) {i : Nat} {b : BAR}
    (hb : bars i = some b) (value : Word) :
    ∃ d', d.writeConfig (barOffset i) value 4 = .ok d' ∧
      d'.readConfig (barOffset i) 4 = .ok ((value &&& ~~~(b.size - 1)) ||| b.type) := by
  obtain ⟨count, hcount, hlt⟩ := h.index i b hb
  have hin : barOffset i + 4 ≤ 256 := by
    have hbound := barOffset_inBars hcount hlt (k := barOffset i) (by omega)
    unfold InBars at hbound
    omega
  obtain ⟨d', hok, hwritten⟩ := writeConfig_written h.apart value hin
  refine ⟨d', hok, ?_⟩
  rw [PCIDevice.readConfig, if_pos hin, size_sub_one]
  refine congrArg Except.ok ?_
  have htype (n : Nat) (hn : n < 32) (hbits : n < b.bits) :
      (d'.configSpace.read32 (barOffset i)).getLsbD n = b.type.getLsbD n := by
    rw [← (decodes_written h hwritten).type i b hb, BitVec.getLsbD_and, getLsbD_lowMask hn]
    simp [hbits]
  apply ext32
  intro n hn
  rw [BitVec.getLsbD_or, BitVec.getLsbD_and, BitVec.getLsbD_not, getLsbD_lowMask hn]
  by_cases hbits : n < b.bits
  · refine (htype n hn hbits).trans ?_
    simp [hbits]
  · have hwrite : (d.writeMask (barOffset i + n / 8)).getLsbD (n % 8) = true := by
      rw [← getLsbD_read32 _ _ hn, h.mask i b hb, BitVec.getLsbD_not, getLsbD_lowMask hn]
      simp [hbits, hn]
    have hbit : (d'.configSpace.read32 (barOffset i)).getLsbD n = value.getLsbD n := by
      rw [getLsbD_read32 _ _ hn, hwritten.bits _ _ (Nat.mod_lt n (by decide))]
      unfold writtenBit
      dsimp only
      rw [if_pos (by omega), hwrite, if_pos rfl, Nat.add_sub_cancel_left,
        show 8 * (n / 8) + n % 8 = n by omega]
    refine hbit.trans ?_
    rw [type_bit b (b.bits_ge.trans (Nat.le_of_not_lt hbits))]
    simp [hbits, hn]

/-! ## Decoding -/

/-- The base address of a BAR: its register above the size. -/
def baseOf (d : PCIDevice) (i : Nat) (b : BAR) : Word :=
  d.configSpace.read32 (barOffset i) &&& ~~~(b.size - 1)

/-- A BAR of the type covers an address, in exact arithmetic. -/
def Covers (d : PCIDevice) (bars : Nat → Option BAR) (kind : BarType) (addr : Word) (i : Nat)
    (base : Word) : Prop :=
  ∃ b, bars i = some b ∧ b.kind = kind ∧ base = baseOf d i b ∧ base.toNat ≤ addr.toNat ∧
    addr.toNat < base.toNat + 2 ^ b.bits

/-- The lowest BAR of the type that covers an address. -/
def First (d : PCIDevice) (bars : Nat → Option BAR) (kind : BarType) (addr : Word) (i : Nat)
    (base : Word) : Prop :=
  Covers d bars kind addr i base ∧ ∀ j < i, ∀ other, ¬ Covers d bars kind addr j other

theorem baseOf_toNat (d : PCIDevice) (i : Nat) (b : BAR) :
    ∃ q, (baseOf d i b).toNat = q * 2 ^ b.bits ∧ (q + 1) * 2 ^ b.bits ≤ 2 ^ 32 := by
  refine ⟨(d.configSpace.read32 (barOffset i)).toNat / 2 ^ b.bits, ?_, ?_⟩
  · rw [baseOf, size_sub_one, toNat_and_not_lowMask]
  · have hpow : 2 ^ (32 - b.bits) * 2 ^ b.bits = 2 ^ 32 := by
      rw [← Nat.pow_add, Nat.sub_add_cancel b.bits_lt.le]
    rw [← hpow]
    refine Nat.mul_le_mul_right _ ?_
    rw [Nat.add_one_le_iff, Nat.div_lt_iff_lt_mul (Nat.two_pow_pos b.bits), hpow]
    exact (d.configSpace.read32 (barOffset i)).isLt

/-- The end of a BAR, with 32 bits: 0 for one at the top of the address space. -/
theorem end_toNat (d : PCIDevice) (i : Nat) (b : BAR) :
    (baseOf d i b + b.size).toNat =
      if (baseOf d i b).toNat + 2 ^ b.bits = 2 ^ 32 then 0 else (baseOf d i b).toNat + 2 ^ b.bits := by
  obtain ⟨q, hq, hle⟩ := baseOf_toNat d i b
  rw [Nat.add_mul, Nat.one_mul, ← hq] at hle
  rw [BitVec.toNat_add, size_toNat]
  split
  · next h => rw [h, Nat.mod_self]
  · next h => exact Nat.mod_eq_of_lt (by omega)

/-- The address in the register is its base address, since the type is below it. -/
theorem barAddr_eq {d : PCIDevice} {bars : Nat → Option BAR} (h : Decodes d bars) {i : Nat} {b : BAR}
    (hb : bars i = some b) :
    (d.configSpace.read32 (barOffset i) >>> b.kind.flagBits) <<< b.kind.flagBits = baseOf d i b := by
  have hflag (n : Nat) (hn : n < 32) (hlow : b.kind.flagBits ≤ n) (hbits : n < b.bits) :
      (d.configSpace.read32 (barOffset i)).getLsbD n = false := by
    have hbit := type_bit b hlow
    rw [← h.type i b hb, BitVec.getLsbD_and, getLsbD_lowMask hn] at hbit
    simpa [hbits] using hbit
  have hge := b.bits_ge
  rw [baseOf, size_sub_one]
  apply ext32
  intro n hn
  rw [BitVec.getLsbD_shiftLeft, BitVec.getLsbD_ushiftRight, BitVec.getLsbD_and, BitVec.getLsbD_not,
    getLsbD_lowMask hn]
  by_cases hlow : n < b.kind.flagBits
  · simp [hlow, hlow.trans_le hge]
  rw [Nat.add_sub_cancel' (Nat.le_of_not_lt hlow)]
  by_cases hbits : n < b.bits
  · simp [hflag n hn (Nat.le_of_not_lt hlow) hbits]
  · simp [hlow, hbits, hn]

theorem type_code {d : PCIDevice} {bars : Nat → Option BAR} (h : Decodes d bars) {i : Nat} {b : BAR}
    (hb : bars i = some b) : d.configSpace.read32 (barOffset i) &&& 1 = b.kind.code := by
  have hbits : 0 < b.bits := by
    have hge := b.bits_ge
    cases hkind : b.kind <;> simp only [hkind, BarType.flagBits] at hge <;> omega
  have hlow : lowMask b.bits &&& 1 = 1#32 := by
    apply ext32
    intro n hn
    rw [BitVec.getLsbD_and, getLsbD_lowMask hn]
    by_cases hzero : n = 0
    · subst hzero
      simp [hbits]
    · simp [BitVec.getLsbD_one, hzero]
  rw [← b.kind_eq, ← h.type i b hb, BitVec.and_assoc, hlow]
  rfl

/-- A register claims the addresses its BAR covers, unless the BAR ends at the top of the address
space. -/
theorem barClaims_iff {d : PCIDevice} {bars : Nat → Option BAR} (h : Decodes d bars) (kind : BarType)
    (addr : Word) (i : Nat) (base : Word) :
    d.barClaims kind addr i = some base ↔ Covers d bars kind addr i base ∧
      ∀ b, bars i = some b → base.toNat + 2 ^ b.bits ≠ 2 ^ 32 := by
  unfold PCIDevice.barClaims Covers
  rw [h.sizes i]
  cases hb : bars i with
  | none => simp
  | some b =>
    have hsize : (some b).elim 0 BAR.size = b.size := rfl
    simp only [hsize, if_neg (size_ne_zero b), type_code h hb, Option.some.injEq, exists_eq_left',
      forall_eq']
    by_cases hkind : b.kind = kind
    · subst hkind
      rw [if_neg (not_not.mpr rfl), barAddr_eq h hb]
      simp only [true_and, ge_iff_le, BitVec.le_def, BitVec.lt_def, end_toNat,
        Option.ite_none_right_eq_some, Option.some.injEq]
      constructor
      · intro h'
        obtain ⟨⟨hle, hlt⟩, rfl⟩ := h'
        split at hlt
        · omega
        · next htop => exact ⟨⟨rfl, hle, hlt⟩, htop⟩
      · intro h'
        obtain ⟨⟨rfl, hle, hlt⟩, htop⟩ := h'
        exact ⟨⟨hle, by rwa [if_neg htop]⟩, rfl⟩
    · have hcode : b.kind.code ≠ kind.code := by
        cases hk : b.kind <;> cases kind <;> simp_all [BarType.code]
      simp [hcode, hkind]

/-- The first index that a search over a range accepts. -/
theorem findSome_range_iff {α : Type*} {f : Nat → Option α} {n : Nat} {y : α} :
    (List.range n).findSome? f = some y ↔ ∃ i < n, f i = some y ∧ ∀ j < i, f j = none := by
  induction n with
  | zero => simp
  | succ n ih =>
    rw [List.range_succ, List.findSome?_append, Option.or_eq_some_iff, ih]
    have hnone : (List.range n).findSome? f = none ↔ ∀ j < n, f j = none := by
      rw [List.findSome?_eq_none_iff]
      simp only [List.mem_range]
    rw [hnone, List.findSome?_singleton]
    constructor
    · intro h
      rcases h with ⟨i, hi, hf⟩ | ⟨hall, hf⟩
      · exact ⟨i, Nat.lt_succ_of_lt hi, hf⟩
      · exact ⟨n, Nat.lt_succ_self n, hf, hall⟩
    · intro h
      obtain ⟨i, hi, hf, hall⟩ := h
      rcases Nat.lt_succ_iff_lt_or_eq.mp hi with hlt | rfl
      · exact .inl ⟨i, hlt, hf, hall⟩
      · exact .inr ⟨hall, hf⟩

theorem getBar_iff {d : PCIDevice} {bars : Nat → Option BAR} (h : Decodes d bars) (kind : BarType)
    (addr : Word) (i : Nat) (base : Word) :
    d.getBar kind addr = some (i, base) ↔
      d.barClaims kind addr i = some base ∧ ∀ j < i, d.barClaims kind addr j = none := by
  unfold PCIDevice.getBar
  rw [Option.bind_eq_some_iff]
  constructor
  · intro h'
    obtain ⟨count, hcount, hfound⟩ := h'
    obtain ⟨k, hk, hclaim, hbefore⟩ := findSome_range_iff.mp hfound
    rw [Option.map_eq_some_iff] at hclaim
    obtain ⟨found, hclaim, hpair⟩ := hclaim
    cases hpair
    exact ⟨hclaim, fun j hj => Option.map_eq_none_iff.mp (hbefore j hj)⟩
  · intro h'
    obtain ⟨hclaim, hbefore⟩ := h'
    obtain ⟨⟨b, hb, -⟩, -⟩ := (barClaims_iff h kind addr i base).mp hclaim
    obtain ⟨count, hcount, hlt⟩ := h.index i b hb
    refine ⟨count, hcount, findSome_range_iff.mpr ⟨i, hlt, ?_, fun j hj => ?_⟩⟩
    · rw [hclaim]
      rfl
    · rw [hbefore j hj]
      rfl

/-- When an address is covered there is a lowest BAR that covers it. -/
theorem exists_first {d : PCIDevice} {bars : Nat → Option BAR} {kind : BarType} {addr : Word} {i : Nat}
    {base : Word} (h : Covers d bars kind addr i base) :
    ∃ j ≤ i, ∃ other, First d bars kind addr j other := by
  induction i using Nat.strong_induction_on generalizing base with
  | _ i ih =>
    by_cases hlower : ∃ j < i, ∃ other, Covers d bars kind addr j other
    · obtain ⟨j, hj, other, hother⟩ := hlower
      obtain ⟨k, hk, hfirst⟩ := ih j hj hother
      exact ⟨k, hk.trans hj.le, hfirst⟩
    · refine ⟨i, Nat.le_refl i, base, h, fun j hj other hother => hlower ⟨j, hj, other, hother⟩⟩

/-- The lowest BAR that covers the address does not end at the top of the address space. -/
def BelowTop (d : PCIDevice) (bars : Nat → Option BAR) (kind : BarType) (addr : Word) : Prop :=
  ∀ i base b, First d bars kind addr i base → bars i = some b → base.toNat + 2 ^ b.bits ≠ 2 ^ 32

theorem getBar_first_iff {d : PCIDevice} {bars : Nat → Option BAR} (h : Decodes d bars) (kind : BarType)
    (addr : Word) :
    (∀ i base, d.getBar kind addr = some (i, base) ↔ First d bars kind addr i base) ↔
      BelowTop d bars kind addr := by
  constructor
  · intro hexact i base b hfirst hb
    have hclaim := ((getBar_iff h kind addr i base).mp ((hexact i base).mpr hfirst)).1
    exact ((barClaims_iff h kind addr i base).mp hclaim).2 b hb
  · intro htop i base
    rw [getBar_iff h, barClaims_iff h]
    constructor
    · intro h'
      obtain ⟨⟨hcovers, -⟩, hbefore⟩ := h'
      refine ⟨hcovers, fun j hj other hother => ?_⟩
      -- the lowest BAR that covers the address would have been found before
      obtain ⟨k, hk, lowest, hfirst⟩ := exists_first hother
      have hclaim := (barClaims_iff h kind addr k lowest).mpr
        ⟨hfirst.1, fun b hb => htop k lowest b hfirst hb⟩
      rw [hbefore k (hk.trans_lt hj)] at hclaim
      cases hclaim
    · intro hfirst
      refine ⟨⟨hfirst.1, fun b hb => htop i base b hfirst hb⟩, fun j hj => ?_⟩
      rw [Option.eq_none_iff_forall_ne_some]
      intro other hclaim
      exact hfirst.2 j hj other ((barClaims_iff h kind addr j other).mp hclaim).1

/-- Every write of a whole BAR is read back above the type. An address is claimed exactly by the
lowest BAR that covers it, when that does not end at the top of the address space, and only then. -/
theorem bar_decode_iff {d : PCIDevice} {bars : Nat → Option BAR} (h : Reached d bars) :
    (∀ i b, bars i = some b → ∀ value, ∃ d', d.writeConfig (barOffset i) value 4 = .ok d' ∧
      d'.readConfig (barOffset i) 4 = .ok ((value &&& ~~~(b.size - 1)) ||| b.type)) ∧
    ∀ kind addr,
      (∀ i base, d.getBar kind addr = some (i, base) ↔ First d bars kind addr i base) ↔
        BelowTop d bars kind addr :=
  have hdecodes := reached_decodes h
  ⟨fun _ _ hb value => sizing hdecodes hb value, getBar_first_iff hdecodes⟩

/-- The BAR of a USB controller. -/
def usbBar : BAR := ⟨.memory, 0, 12, rfl, by decide, by decide, by decide⟩

/-- A USB controller with its BAR. -/
def usb : PCIDevice :=
  let d := PCIDevice.new ⟨PCI_HEADER_TYPE_NORMAL, 0x10DE, 0x02A5, 0xA1, 0x0C, 0x03, 0x10, 0, 0⟩
  { d with
    barSizes := Function.update d.barSizes 0 usbBar.size
    configSpace := d.configSpace.write32 (barOffset 0) usbBar.type
    writeMask := d.writeMask.write32 (barOffset 0) (~~~(usbBar.size - 1)) }

theorem usb_reached : Reached usb (Function.update (fun _ => none) 0 (some usbBar)) :=
  .registered (i := 0) (.new ⟨PCI_HEADER_TYPE_NORMAL, 0x10DE, 0x02A5, 0xA1, 0x0C, 0x03, 0x10, 0, 0⟩) rfl

theorem usb_sizing : ∃ d', usb.writeConfig 0x10 0xFFFFFFFF 4 = .ok d' ∧
    d'.readConfig 0x10 4 = .ok 0xFFFFF000 :=
  (bar_decode_iff usb_reached).1 0 usbBar rfl 0xFFFFFFFF

/-- The BAR is moved to the last page of the address space. -/
theorem last_page_not_claimed :
    ¬ ∀ (d : PCIDevice) (bars : Nat → Option BAR), Reached d bars → ∀ addr i base,
      d.getMMIOBar addr = some (i, base) ↔ First d bars .memory addr i base := by
  intro h
  have hrun : ∃ d, usb.writeConfig 0x10 0xFFFFF000 4 = .ok d ∧ d.getMMIOBar 0xFFFFF000 = none ∧
      baseOf d 0 usbBar = 0xFFFFF000 := ⟨_, rfl, rfl, rfl⟩
  obtain ⟨d, hok, hnone, hbase⟩ := hrun
  have hfirst : First d (Function.update (fun _ => none) 0 (some usbBar)) .memory 0xFFFFF000 0 0xFFFFF000 :=
    ⟨⟨usbBar, rfl, rfl, hbase.symm, by decide, by decide⟩, fun j hj => absurd hj (Nat.not_lt_zero j)⟩
  have hclaimed := (h d _ (.written usb_reached hok) 0xFFFFF000 0 0xFFFFF000).mpr hfirst
  rw [hnone] at hclaimed
  cases hclaimed

end OpenXbox.Pci.BaseAddress
