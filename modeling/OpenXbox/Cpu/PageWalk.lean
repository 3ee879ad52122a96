import OpenXbox.Cpu.Memory

/-!
# Virtual to physical translation

`virtualToPhysical` is the code's walk, with the contents of its two local
entries before they are read. `pageWalk` is the two-level walk of the
architecture with 4 MiB pages, by fields of CR3, the entries and the address.
-/

namespace OpenXbox.Cpu.PageWalk

open OpenXbox.Lib.Bits OpenXbox.Cpu.Memory

abbrev Pte := Word

def Pte.valid (e : Pte) : Bool := e.getLsbD 0

def Pte.largePage (e : Pte) : Bool := e.getLsbD 7

/-- The 20-bit page frame number, as the word it is promoted to. -/
def Pte.pageFrameNumber (e : Pte) : Word := e >>> 12

def PAGE_SHIFT : Nat := 12

def PAGE_SIZE : Word := 4 * 1024

def PAGE_SIZE_LARGE : Word := 4 * (1024 * 1024)

/-- `Cpu::VirtualToPhysical`: the address it stores, or `none` for `false`. The
locals hold `pde₀` and `pte₀` until a read of physical memory succeeds. -/
def virtualToPhysical (m : PhysMemMap) (cr3 vaddr pde₀ pte₀ : Word) : Option Word :=
  let pdeOffset := (vaddr >>> 22) <<< 2
  let pde : Pte := memRead32 m (cr3 + pdeOffset) pde₀
  if pde.largePage then
    some ((pde.pageFrameNumber <<< PAGE_SHIFT) ||| (vaddr &&& (PAGE_SIZE_LARGE - 1)))
  else if !pde.valid then none
  else
    let pteTableAddr := pde.pageFrameNumber <<< PAGE_SHIFT
    let pteOffset := ((vaddr <<< 10) >>> 22) <<< 2
    let pte : Pte := memRead32 m (pteTableAddr + pteOffset) pte₀
    if !pte.valid then none
    else some ((pte.pageFrameNumber <<< PAGE_SHIFT) ||| (vaddr &&& (PAGE_SIZE - 1)))

/-! ## The walk of the architecture -/

/-- Bits 31..12 of CR3 or of an entry. -/
def frame (e : Word) : BitVec 20 := e.extractLsb' 12 20

def largeFrame (e : Word) : BitVec 10 := e.extractLsb' 22 10

def directoryIndex (vaddr : Word) : BitVec 10 := vaddr.extractLsb' 22 10

def tableIndex (vaddr : Word) : BitVec 10 := vaddr.extractLsb' 12 10

def pageOffset (vaddr : Word) : BitVec 12 := vaddr.extractLsb' 0 12

def largePageOffset (vaddr : Word) : BitVec 22 := vaddr.extractLsb' 0 22

/-- The address of the entry with the given index in a table. -/
def entryAddr (table : BitVec 20) (index : BitVec 10) : Word := table ++ index ++ 0#2

/-- The page that a directory entry and its table lead to. -/
def walkFrom (m : PhysMemMap) (vaddr : Word) (pde : Option Pte) : Option Word := do
  let pde ← pde
  if !pde.valid then none
  else if pde.largePage then some (largeFrame pde ++ largePageOffset vaddr)
  else
    let pte : Pte ← wordAt m (entryAddr (frame pde) (tableIndex vaddr))
    if !pte.valid then none else some (frame pte ++ pageOffset vaddr)

def pageWalk (m : PhysMemMap) (cr3 vaddr : Word) : Option Word :=
  walkFrom m vaddr (wordAt m (entryAddr (frame cr3) (directoryIndex vaddr)))

/-! ## Fields of words -/

theorem getLsbD_frame (e : Word) (i : Nat) :
    (frame e).getLsbD i = (decide (i < 20) && e.getLsbD (12 + i)) := by
  rw [frame, BitVec.getLsbD_extractLsb']

theorem getLsbD_entryAddr (table : BitVec 20) (index : BitVec 10) (i : Nat) :
    (entryAddr table index).getLsbD i =
      (decide (2 ≤ i) && if i < 12 then index.getLsbD (i - 2) else table.getLsbD (i - 12)) := by
  rw [entryAddr, BitVec.getLsbD_append, BitVec.getLsbD_append]
  by_cases h2 : i < 2
  · rw [if_pos h2, decide_eq_false (by omega)]
    simp
  · rw [if_neg h2, decide_eq_true (by omega), Bool.true_and]
    by_cases h12 : i < 12
    · rw [if_pos (show i - 2 < 10 by omega), if_pos h12]
    · rw [if_neg (show ¬ i - 2 < 10 by omega), if_neg h12, show i - 2 - 10 = i - 12 by omega]

/-- Ten bits taken as an index and scaled to the size of an entry. -/
theorem getLsbD_entryOffset (x : Word) {i : Nat} (hi : i < 32) :
    ((x >>> 22) <<< 2).getLsbD i = (decide (2 ≤ i ∧ i < 12) && x.getLsbD (20 + i)) := by
  rw [BitVec.getLsbD_shiftLeft, BitVec.getLsbD_ushiftRight, decide_eq_true hi, Bool.true_and]
  by_cases h2 : i < 2
  · rw [decide_eq_true h2, decide_eq_false (show ¬ (2 ≤ i ∧ i < 12) by omega)]
    rfl
  · rw [decide_eq_false h2, show 22 + (i - 2) = 20 + i by omega]
    by_cases h12 : i < 12
    · rw [decide_eq_true (show 2 ≤ i ∧ i < 12 by omega)]
      rfl
    · rw [BitVec.getLsbD_of_ge x (20 + i) (by omega), Bool.and_false, Bool.and_false]

theorem getLsbD_frameBase (e : Pte) {i : Nat} (hi : i < 32) :
    (e.pageFrameNumber <<< PAGE_SHIFT).getLsbD i = (decide (12 ≤ i) && e.getLsbD i) := by
  rw [Pte.pageFrameNumber, PAGE_SHIFT, BitVec.getLsbD_shiftLeft, BitVec.getLsbD_ushiftRight,
    decide_eq_true hi, Bool.true_and]
  by_cases h12 : i < 12
  · rw [decide_eq_true h12, decide_eq_false (show ¬ 12 ≤ i by omega)]
    rfl
  · rw [decide_eq_false h12, decide_eq_true (show 12 ≤ i by omega), show 12 + (i - 12) = i by omega]
    rfl

theorem pageMask_eq : PAGE_SIZE - 1 = lowMask 12 := by decide

theorem largePageMask_eq : PAGE_SIZE_LARGE - 1 = lowMask 22 := by decide

/-- The code adds the directory offset to CR3 as it is; with a clean CR3 the sum is
the address of the directory entry. -/
theorem pdeAddr_eq {cr3 : Word} (hc : cr3 &&& lowMask 12 = 0) (vaddr : Word) :
    cr3 + (vaddr >>> 22) <<< 2 = entryAddr (frame cr3) (directoryIndex vaddr) := by
  rw [and_lowMask_eq_zero_iff (by omega)] at hc
  rw [add_eq_or_of_disjoint]
  · apply ext32
    intro i hi
    rw [BitVec.getLsbD_or, getLsbD_entryOffset vaddr hi, getLsbD_entryAddr, getLsbD_frame,
      directoryIndex, BitVec.getLsbD_extractLsb']
    by_cases h12 : i < 12
    · rw [hc i h12, if_pos h12]
      by_cases h2 : 2 ≤ i
      · simp [h2, h12, show i - 2 < 10 by omega, show 22 + (i - 2) = 20 + i by omega]
      · simp [h2]
    · simp [h12, show 2 ≤ i by omega, show i - 12 < 20 by omega, show 12 + (i - 12) = i by omega]
  · intro i hi hb
    rw [getLsbD_entryOffset vaddr hi]
    by_cases h12 : i < 12
    · rw [hc i h12] at hb
      cases hb
    · simp [h12]

theorem pteAddr_eq (pde : Pte) (vaddr : Word) :
    pde.pageFrameNumber <<< PAGE_SHIFT + ((vaddr <<< 10) >>> 22) <<< 2 =
      entryAddr (frame pde) (tableIndex vaddr) := by
  rw [add_eq_or_of_disjoint]
  · apply ext32
    intro i hi
    rw [BitVec.getLsbD_or, getLsbD_entryOffset _ hi, getLsbD_frameBase pde hi, getLsbD_entryAddr,
      getLsbD_frame, tableIndex, BitVec.getLsbD_extractLsb', BitVec.getLsbD_shiftLeft]
    by_cases h12 : i < 12
    · by_cases h2 : 2 ≤ i
      · simp [h2, h12, show ¬ 12 ≤ i by omega, show i - 2 < 10 by omega,
          show 20 + i < 32 by omega, show ¬ 20 + i < 10 by omega,
          show 20 + i - 10 = 10 + i by omega, show 12 + (i - 2) = 10 + i by omega]
      · simp [h2, show ¬ 12 ≤ i by omega]
    · simp [h12, show 12 ≤ i by omega, show 2 ≤ i by omega, show i - 12 < 20 by omega,
        show 12 + (i - 12) = i by omega]
  · intro i hi hb
    rw [getLsbD_frameBase pde hi, Bool.and_eq_true, decide_eq_true_eq] at hb
    rw [getLsbD_entryOffset _ hi]
    simp [show ¬ i < 12 by omega]

/-- Entries lie at multiples of four, so reading one never wraps. -/
theorem entryAddr_toNat_lt (table : BitVec 20) (index : BitVec 10) :
    (entryAddr table index).toNat + 3 < 2 ^ 32 := by
  have h : (entryAddr table index).toNat = (table ++ index).toNat * 4 := by
    rw [entryAddr, BitVec.toNat_append]
    simp [Nat.shiftLeft_eq]
  have hlt := (table ++ index).isLt
  omega

/-! ## Pages -/

/-- The frame the code forms for a large page: bits 21..12 of the entry are kept. -/
def mixedFrame (pde : Pte) (vaddr : Word) : BitVec 20 :=
  frame pde ||| (tableIndex vaddr).setWidth 20

theorem smallPage_eq (pte : Pte) (vaddr : Word) :
    (pte.pageFrameNumber <<< PAGE_SHIFT) ||| (vaddr &&& (PAGE_SIZE - 1)) =
      frame pte ++ pageOffset vaddr := by
  apply ext32
  intro i hi
  rw [pageMask_eq, BitVec.getLsbD_or, BitVec.getLsbD_and, getLsbD_frameBase pte hi,
    getLsbD_lowMask hi, BitVec.getLsbD_append, getLsbD_frame, pageOffset,
    BitVec.getLsbD_extractLsb']
  by_cases h12 : i < 12
  · simp [h12, show ¬ 12 ≤ i by omega]
  · simp [h12, show 12 ≤ i by omega, show i - 12 < 20 by omega, show 12 + (i - 12) = i by omega]

theorem largePage_eq (pde : Pte) (vaddr : Word) :
    (pde.pageFrameNumber <<< PAGE_SHIFT) ||| (vaddr &&& (PAGE_SIZE_LARGE - 1)) =
      mixedFrame pde vaddr ++ pageOffset vaddr := by
  apply ext32
  intro i hi
  rw [largePageMask_eq, BitVec.getLsbD_or, BitVec.getLsbD_and, getLsbD_frameBase pde hi,
    getLsbD_lowMask hi, BitVec.getLsbD_append, mixedFrame, BitVec.getLsbD_or, getLsbD_frame,
    BitVec.getLsbD_setWidth, tableIndex, BitVec.getLsbD_extractLsb', pageOffset,
    BitVec.getLsbD_extractLsb']
  by_cases h12 : i < 12
  · simp [h12, show ¬ 12 ≤ i by omega, show i < 22 by omega]
  · by_cases h22 : i < 22
    · simp [h12, h22, show 12 ≤ i by omega, show i - 12 < 20 by omega, show i - 12 < 10 by omega,
        show 12 + (i - 12) = i by omega]
    · simp [h12, h22, show 12 ≤ i by omega, show i - 12 < 20 by omega,
        show ¬ i - 12 < 10 by omega, show 12 + (i - 12) = i by omega]

theorem largeFrame_append (pde : Pte) (vaddr : Word) :
    largeFrame pde ++ largePageOffset vaddr =
      (largeFrame pde ++ tableIndex vaddr : BitVec 20) ++ pageOffset vaddr := by
  apply ext32
  intro i hi
  rw [BitVec.getLsbD_append, BitVec.getLsbD_append, BitVec.getLsbD_append, largePageOffset,
    tableIndex, pageOffset, BitVec.getLsbD_extractLsb', BitVec.getLsbD_extractLsb',
    BitVec.getLsbD_extractLsb']
  by_cases h12 : i < 12
  · simp [h12, show i < 22 by omega]
  · by_cases h22 : i < 22
    · simp [h12, h22, show i - 12 < 10 by omega, show 12 + (i - 12) = i by omega]
    · simp [h12, h22, show ¬ i - 12 < 10 by omega, show i - 12 - 10 = i - 22 by omega]

theorem append_pageOffset_inj {f g : BitVec 20} {vaddr : Word} :
    f ++ pageOffset vaddr = g ++ pageOffset vaddr ↔ f = g := by
  refine ⟨fun h => BitVec.eq_of_getLsbD_eq fun i hi => ?_, fun h => by rw [h]⟩
  have hb := congrArg (fun x => x.getLsbD (12 + i)) h
  simpa only [BitVec.getLsbD_append, show ¬ 12 + i < 12 by omega, if_false,
    Nat.add_sub_cancel_left] using hb

/-- The frame of the code is the one of the architecture when the entry has no bit
among 21..12 that the address lacks. -/
theorem mixedFrame_eq_iff {pde : Pte} {vaddr : Word} :
    mixedFrame pde vaddr = largeFrame pde ++ tableIndex vaddr ↔
      ∀ i, 12 ≤ i → i < 22 → pde.getLsbD i = true → vaddr.getLsbD i = true := by
  have hl : ∀ i, (mixedFrame pde vaddr).getLsbD i =
      ((decide (i < 20) && pde.getLsbD (12 + i)) ||
        (decide (i < 10) && vaddr.getLsbD (12 + i))) := by
    intro i
    rw [mixedFrame, BitVec.getLsbD_or, getLsbD_frame, BitVec.getLsbD_setWidth, tableIndex,
      BitVec.getLsbD_extractLsb']
    by_cases h : i < 10
    · simp [h, show i < 20 by omega]
    · simp [h]
  have hr : ∀ i, i < 20 → (largeFrame pde ++ tableIndex vaddr).getLsbD i =
      if i < 10 then vaddr.getLsbD (12 + i) else pde.getLsbD (12 + i) := by
    intro i hi
    rw [BitVec.getLsbD_append, tableIndex, largeFrame, BitVec.getLsbD_extractLsb',
      BitVec.getLsbD_extractLsb']
    by_cases h : i < 10
    · simp [h]
    · simp [h, show i - 10 < 10 by omega, show 22 + (i - 10) = 12 + i by omega]
  constructor
  · intro h i h12 h22 hp
    have hb := congrArg (fun x => x.getLsbD (i - 12)) h
    simp only [hl, hr (i - 12) (by omega), show i - 12 < 10 by omega, show i - 12 < 20 by omega,
      show 12 + (i - 12) = i by omega, hp, decide_true, Bool.true_and, Bool.true_or, if_true] at hb
    exact hb.symm
  · intro h
    apply BitVec.eq_of_getLsbD_eq
    intro i hi
    rw [hl, hr i hi]
    by_cases h10 : i < 10
    · have hi' := h (12 + i) (by omega) (by omega)
      simp only [h10, hi, decide_true, Bool.true_and, if_true]
      cases hp : pde.getLsbD (12 + i) with
      | false => rw [Bool.false_or]
      | true => rw [Bool.true_or, hi' hp]
    · simp only [h10, hi, decide_true, decide_false, Bool.true_and, Bool.false_and, Bool.or_false,
        if_false]

end OpenXbox.Cpu.PageWalk
