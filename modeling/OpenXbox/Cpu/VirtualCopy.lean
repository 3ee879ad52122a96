import OpenXbox.Cpu.VirtualMemory
import Mathlib.Data.List.GetD

/-!
# Copies by pages are copies by bytes

Addresses of one page are translated to addresses of one page frame, and a range that
starts and ends on page boundaries has a whole frame or nothing of it. So a chunk of a
page succeeds or fails with each of its bytes.
-/

namespace OpenXbox.Cpu.VirtualCopy

open OpenXbox.Lib.Bits OpenXbox.Lib.Loop OpenXbox.Cpu.Memory OpenXbox.Cpu.PageWalk
  OpenXbox.Cpu.WalkAgreement OpenXbox.Cpu.VirtualMemory

/-! ## One page -/

/-- The page frame that the walk of the code leads to. -/
def frameOf (mem : PhysMemMap) (p : Paging) (vaddr : Word) : Option (BitVec 20) :=
  let pde : Pte := (codePde mem p.cr3 vaddr).getD p.pde
  if pde.largePage then some (mixedFrame pde vaddr)
  else if !pde.valid then none
  else
    let pte : Pte := (tableEntry mem vaddr pde).getD p.pte
    if !pte.valid then none else some (frame pte)

theorem virtualToPhysical_frameOf (mem : PhysMemMap) (p : Paging) (vaddr : Word) :
    virtualToPhysical mem p.cr3 vaddr p.pde p.pte =
      (frameOf mem p vaddr).map (· ++ pageOffset vaddr) := by
  rw [virtualToPhysical_eq, frameOf]
  dsimp only
  split
  · rfl
  · split
    · rfl
    · split
      · rfl
      · rfl

theorem tableIndex_eq (vaddr : Word) : tableIndex vaddr = (vaddr >>> 12).setWidth 10 := by
  apply BitVec.eq_of_getLsbD_eq
  intro i hi
  rw [tableIndex, BitVec.getLsbD_extractLsb', BitVec.getLsbD_setWidth, BitVec.getLsbD_ushiftRight]

/-- The walk does not look at the offset in the page. -/
theorem frameOf_congr {mem : PhysMemMap} {p : Paging} {u v : Word} (h : u >>> 12 = v >>> 12) :
    frameOf mem p u = frameOf mem p v := by
  have hdir : u >>> 22 = v >>> 22 := by
    rw [show 22 = 12 + 10 from rfl, BitVec.shiftRight_add, BitVec.shiftRight_add, h]
  have hindex : tableIndex u = tableIndex v := by rw [tableIndex_eq, tableIndex_eq, h]
  have hpde : codePde mem p.cr3 u = codePde mem p.cr3 v := by rw [codePde, codePde, hdir]
  have hframe (pde : Pte) : mixedFrame pde u = mixedFrame pde v := by
    rw [mixedFrame, mixedFrame, hindex]
  have hentry (pde : Pte) : tableEntry mem u pde = tableEntry mem v pde := by
    rw [tableEntry, tableEntry, hindex]
  rw [frameOf, frameOf, hpde]
  simp only [hframe, hentry]

/-- The offset of an address in its page. -/
def offset (vaddr : Word) : Nat := vaddr.toNat % 4096

theorem toNat_pageOffset (vaddr : Word) : (pageOffset vaddr).toNat = offset vaddr := by
  rw [pageOffset, BitVec.extractLsb'_toNat, Nat.shiftRight_zero]
  rfl

theorem toNat_frame_append (f : BitVec 20) (vaddr : Word) :
    (f ++ pageOffset vaddr).toNat = f.toNat * 4096 + offset vaddr := by
  have hlt : (pageOffset vaddr).toNat < 2 ^ 12 := (pageOffset vaddr).isLt
  rw [BitVec.toNat_append, Nat.shiftLeft_eq, ← Nat.shiftLeft_eq, ← Nat.shiftLeft_add_eq_or_of_lt hlt,
    Nat.shiftLeft_eq, toNat_pageOffset]

section Page

variable {v : Word} {j : Nat}

theorem toNat_add_inPage (hj : offset v + j < 4096) :
    (v + BitVec.ofNat 32 j).toNat = v.toNat + j := by
  have hlt := v.isLt
  rw [offset] at hj
  rw [BitVec.toNat_add, BitVec.toNat_ofNat, Nat.mod_eq_of_lt (by omega), Nat.mod_eq_of_lt (by omega)]

theorem offset_add (hj : offset v + j < 4096) : offset (v + BitVec.ofNat 32 j) = offset v + j := by
  rw [offset, toNat_add_inPage hj]
  rw [offset] at hj ⊢
  omega

theorem page_add (hj : offset v + j < 4096) : (v + BitVec.ofNat 32 j) >>> 12 = v >>> 12 := by
  apply BitVec.eq_of_toNat_eq
  rw [BitVec.toNat_ushiftRight, BitVec.toNat_ushiftRight, toNat_add_inPage hj,
    Nat.shiftRight_eq_div_pow, Nat.shiftRight_eq_div_pow]
  rw [offset] at hj
  omega

/-- Addresses of one page are translated alike. -/
theorem toPhysical_add {p : Paging} {m : HostMap} {host : Host} (hj : offset v + j < 4096) :
    toPhysical p m host (v + BitVec.ofNat 32 j) =
      (toPhysical p m host v).map (· + BitVec.ofNat 32 j) := by
  rw [toPhysical, toPhysical, virtualToPhysical_frameOf, virtualToPhysical_frameOf,
    frameOf_congr (page_add hj), Option.map_map]
  congr 1
  funext f
  apply BitVec.eq_of_toNat_eq
  have hv : offset (f ++ pageOffset v) = offset v := by
    have hlt : offset v < 4096 := Nat.mod_lt _ (by decide)
    rw [offset, toNat_frame_append]
    omega
  rw [toNat_frame_append, offset_add hj, Function.comp, toNat_add_inPage (by rw [hv]; exact hj),
    toNat_frame_append, Nat.add_assoc]

/-- The offset in the page stays. -/
theorem offset_toPhysical {p : Paging} {m : HostMap} {host : Host} {physAddr : Word}
    (h : toPhysical p m host v = some physAddr) : offset physAddr = offset v := by
  rw [toPhysical, virtualToPhysical_frameOf, Option.map_eq_some_iff] at h
  obtain ⟨f, -, rfl⟩ := h
  have hlt : offset v < 4096 := Nat.mod_lt _ (by decide)
  rw [offset, toNat_frame_append]
  omega

end Page

/-- The range starts and ends on page boundaries. -/
def HostRange.Aligned (r : HostRange) : Prop :=
  offset r.startingAddress = 0 ∧ offset r.endingAddress = 4095

instance (r : HostRange) : Decidable (HostRange.Aligned r) := inferInstanceAs (Decidable (_ ∧ _))

section Access

variable {m : HostMap} {a : Word} {n : Nat}

/-- An aligned range admits a chunk of a page when it has the page. -/
theorem admits_chunk {r : HostRange} (hr : HostRange.Aligned r) (hn : 0 < n)
    (hpage : offset a + n ≤ 4096) :
    r.admits a (BitVec.ofNat 32 n) = decide (r.startingAddress.toNat ≤ a.toNat - offset a ∧
      a.toNat - offset a + 4095 ≤ r.endingAddress.toNat) := by
  have hlast : (a + BitVec.ofNat 32 n - 1 : Word) = a + BitVec.ofNat 32 (n - 1) := by
    obtain ⟨k, rfl⟩ := Nat.exists_eq_succ_of_ne_zero hn.ne'
    rw [Nat.succ_eq_add_one, BitVec.ofNat_add, ← BitVec.add_assoc]
    exact BitVec.add_sub_cancel _ _
  have htoNat := toNat_add_inPage (v := a) (j := n - 1) (by omega)
  obtain ⟨hstart, hend⟩ := hr
  rw [offset] at hstart hend hpage ⊢
  rw [HostRange.admits, hlast, Bool.eq_iff_iff, Bool.and_eq_true, decide_eq_true_eq,
    decide_eq_true_eq, decide_eq_true_eq, ge_iff_le, BitVec.le_def, BitVec.le_def, htoNat]
  omega

/-- The range that a chunk of a page is found in. -/
def rangeOf (m : HostMap) (a : Word) : Option HostRange := m.find? fun r => r.admits a 1

theorem find_congr {q q' : HostRange → Bool} (h : ∀ r ∈ m, q r = q' r) : m.find? q = m.find? q' := by
  rw [← List.head?_filter, ← List.head?_filter, List.filter_congr h]

theorem find_chunk (hm : ∀ r ∈ m, HostRange.Aligned r) (hn : 0 < n) (hpage : offset a + n ≤ 4096) :
    (m.find? fun r => r.admits a (BitVec.ofNat 32 n)) = rangeOf m a := by
  refine find_congr fun r hr => ?_
  rw [admits_chunk (hm r hr) hn hpage, show (1 : Word) = BitVec.ofNat 32 1 from rfl,
    admits_chunk (hm r hr) (by decide) (by omega)]

theorem rangeOf_add (hm : ∀ r ∈ m, HostRange.Aligned r) {j : Nat} (hj : offset a + j < 4096) :
    rangeOf m (a + BitVec.ofNat 32 j) = rangeOf m a := by
  have hoff := offset_add hj
  have htoNat := toNat_add_inPage hj
  refine find_congr fun r hr => ?_
  rw [show (1 : Word) = BitVec.ofNat 32 1 from rfl, admits_chunk (hm r hr) (by decide) (by omega),
    admits_chunk (hm r hr) (by decide) (by omega), htoNat, hoff,
    show a.toNat + j - (offset a + j) = a.toNat - offset a by omega]

/-- The places of the bytes of a chunk follow one another. -/
theorem place_add {r : HostRange} (hm : ∀ r ∈ m, HostRange.Aligned r) (hr : rangeOf m a = some r)
    {j : Nat} (hj : offset a + j < 4096) : r.place (a + BitVec.ofNat 32 j) = r.place a + j := by
  have hadmits := List.find?_some hr
  rw [show (1 : Word) = BitVec.ofNat 32 1 from rfl,
    admits_chunk (hm r (List.mem_of_find?_eq_some hr)) (by decide) (by omega),
    decide_eq_true_eq] at hadmits
  have htoNat := toNat_add_inPage hj
  have hle : r.startingAddress ≤ a := BitVec.le_def.mpr (by omega)
  have hle' : r.startingAddress ≤ a + BitVec.ofNat 32 j := BitVec.le_def.mpr (by omega)
  rw [HostRange.place, HostRange.place, BitVec.toNat_sub_of_le hle, BitVec.toNat_sub_of_le hle',
    htoNat]
  omega

theorem memRead_view {host : Host} {size : Word} : memRead (view m host) a size =
    (m.find? fun r => r.admits a size).map fun r =>
      (List.range size.toNat).map fun i => host (r.place a + i) := by
  rw [memRead, view, List.find?_map, Option.map_map]
  congr 1
  funext r
  refine List.map_congr_left fun i _ => ?_
  exact congrArg host (Nat.add_assoc _ _ _).symm

end Access

/-! ## The loop -/

section Loop

variable {σ : Type} {c : Copy σ} {vaddr size : Word}

theorem byteSteps_add (m n i : Nat) (e : σ) : byteSteps c vaddr (m + n) i e =
    match byteSteps c vaddr m i e with
    | (next, .ok) => byteSteps c vaddr n (i + m) next
    | (last, .invalidAddress) => (last, .invalidAddress) := by
  induction m generalizing i e with
  | zero => rw [Nat.zero_add]; rfl
  | succ m ih =>
    rw [Nat.succ_add, byteSteps, byteSteps]
    cases byteStep c vaddr i e with
    | none => rfl
    | some next =>
      dsimp only
      rw [ih, show i + 1 + m = i + (m + 1) by omega]

/-- `n` bytes from number `i` on, of which the first is translated. -/
def chunkStep (c : Copy σ) (vaddr : Word) (n i : Nat) (e : σ) : Option σ :=
  (c.virtualToPhysical e (vaddr + BitVec.ofNat 32 i)).bind fun physAddr =>
    c.access physAddr (BitVec.ofNat 32 n) (BitVec.ofNat 32 i) e

/-- Under the invariant `I i`, which holds when the first `i` bytes have been copied, the
chunk of a page is copied when its bytes are, and its first byte fails when it does. -/
structure ChunkByBytes (c : Copy σ) (vaddr size : Word) (I : Nat → σ → Prop) : Prop where
  fails : ∀ i n e, I i e → 0 < n → i + n ≤ size.toNat →
    offset (vaddr + BitVec.ofNat 32 i) + n ≤ 4096 → chunkStep c vaddr n i e = none →
      byteStep c vaddr i e = none
  copies : ∀ i n e, I i e → 0 < n → i + n ≤ size.toNat →
    offset (vaddr + BitVec.ofNat 32 i) + n ≤ 4096 → ∀ next, chunkStep c vaddr n i e = some next →
      byteSteps c vaddr n i e = (next, .ok) ∧ I (i + n) next

/-- The locals at the head of the loop when `i` bytes have been copied. -/
structure At (vaddr size : Word) (i : Nat) (s : CopyState σ) : Prop where
  pos : s.pos = BitVec.ofNat 32 i
  le : i ≤ size.toNat
  status : s.status = .ok
  start : i < size.toNat → s.srcAddrStart = vaddr + BitVec.ofNat 32 i
  last : i < size.toNat →
    s.srcAddrEnd.toNat = s.srcAddrStart.toNat - offset s.srcAddrStart + 4095
  copySize : i < size.toNat →
    s.copySize = BitVec.ofNat 32 (min (4096 - offset s.srcAddrStart) (size.toNat - i))

theorem offset_lt (v : Word) : offset v < 4096 := Nat.mod_lt _ (by decide)

theorem offset_le (v : Word) : offset v ≤ v.toNat := Nat.mod_le _ _

/-- The end of the page of the first address, also when it is the last page. -/
theorem toNat_pageEnd (v : Word) : (((v + PAGE_SIZE) &&& ~~~(PAGE_SIZE - 1)) - 1 : Word).toNat =
    v.toNat - offset v + 4095 := by
  have hlt := v.isLt
  rw [pageMask_eq, BitVec.toNat_sub, toNat_and_not_lowMask, BitVec.toNat_add,
    show PAGE_SIZE.toNat = 4096 from rfl, show (1 : Word).toNat = 1 from rfl, offset]
  omega

theorem at_start (vaddr size : Word) (e : σ) : At vaddr size 0 (startCopy vaddr size e) := by
  have hlast : (startCopy vaddr size e).srcAddrEnd.toNat = vaddr.toNat - offset vaddr + 4095 :=
    toNat_pageEnd vaddr
  have hle := offset_le vaddr
  have hlt := offset_lt vaddr
  have hfirst : ((startCopy vaddr size e).srcAddrEnd - vaddr + 1).toNat = 4096 - offset vaddr := by
    rw [BitVec.toNat_add, BitVec.toNat_sub, hlast, show (1 : Word).toNat = 1 from rfl]
    have hv := vaddr.isLt
    omega
  refine ⟨rfl, Nat.zero_le _, rfl, fun _ => (BitVec.add_zero _).symm, fun _ => hlast, fun _ => ?_⟩
  have hsize : (startCopy vaddr size e).copySize =
      if size < (startCopy vaddr size e).srcAddrEnd - vaddr + 1 then size
      else (startCopy vaddr size e).srcAddrEnd - vaddr + 1 := rfl
  have hs := size.isLt
  apply BitVec.eq_of_toNat_eq
  rw [hsize, BitVec.toNat_ofNat, Nat.mod_eq_of_lt (by omega)]
  split
  · next h =>
    have h' := BitVec.lt_def.mp h
    rw [hfirst] at h'
    change size.toNat = min (4096 - offset vaddr) (size.toNat - 0)
    omega
  · next h =>
    have h' := BitVec.not_lt.mp h
    rw [BitVec.le_def, hfirst] at h'
    rw [hfirst]
    change 4096 - offset vaddr = min (4096 - offset vaddr) (size.toNat - 0)
    omega

/-- The locals after a chunk. -/
def nextCopy (size : Word) (s : CopyState σ) (e : σ) : CopyState σ where
  srcAddrStart := s.srcAddrEnd + 1
  srcAddrEnd := s.srcAddrEnd + PAGE_SIZE
  pos := s.pos + s.copySize
  copySize := if PAGE_SIZE < size - (s.pos + s.copySize) then PAGE_SIZE else size - (s.pos + s.copySize)
  changed := e
  status := .ok

/-- The size of the chunk that is copied when `i` bytes have been. -/
def chunkSize (vaddr size : Word) (i : Nat) : Nat :=
  min (4096 - offset (vaddr + BitVec.ofNat 32 i)) (size.toNat - i)

theorem chunkSize_pos (vaddr : Word) {i : Nat} (hi : i < size.toNat) : 0 < chunkSize vaddr size i := by
  have hlt := offset_lt (vaddr + BitVec.ofNat 32 i)
  rw [chunkSize]
  omega

theorem nextCopy_pos {i : Nat} {s : CopyState σ} {e : σ} (h : At vaddr size i s) (hi : i < size.toNat) :
    (nextCopy size s e).pos = BitVec.ofNat 32 (i + chunkSize vaddr size i) := by
  have hcopy := h.copySize hi
  rw [h.start hi] at hcopy
  rw [nextCopy, h.pos, hcopy, BitVec.ofNat_add]
  rfl

/-- When bytes are left, the chunk went up to the end of its page. -/
theorem nextCopy_start {i : Nat} {s : CopyState σ} {e : σ} (h : At vaddr size i s)
    (hmore : i + chunkSize vaddr size i < size.toNat) :
    (nextCopy size s e).srcAddrStart = vaddr + BitVec.ofNat 32 (i + chunkSize vaddr size i) ∧
      offset (nextCopy size s e).srcAddrStart = 0 := by
  have hi : i < size.toNat := Nat.lt_of_le_of_lt (Nat.le_add_right _ _) hmore
  have hlast := h.last hi
  rw [h.start hi] at hlast
  have hchunk : chunkSize vaddr size i = 4096 - offset (vaddr + BitVec.ofNat 32 i) := by
    rw [chunkSize] at hmore ⊢
    omega
  have hoff := offset_lt (vaddr + BitVec.ofNat 32 i)
  have hoffle := offset_le (vaddr + BitVec.ofNat 32 i)
  have hbound := (vaddr + BitVec.ofNat 32 i).isLt
  constructor
  · rw [BitVec.ofNat_add, ← BitVec.add_assoc]
    apply BitVec.eq_of_toNat_eq
    rw [nextCopy, BitVec.toNat_add, hlast, BitVec.toNat_add (vaddr + BitVec.ofNat 32 i), hchunk,
      BitVec.toNat_ofNat, show (1 : Word).toNat = 1 from rfl]
    omega
  · rw [offset, nextCopy, BitVec.toNat_add, hlast, show (1 : Word).toNat = 1 from rfl]
    rw [offset] at hoff hoffle ⊢
    omega

theorem at_next {i : Nat} {s : CopyState σ} {e : σ} (h : At vaddr size i s) (hi : i < size.toNat) :
    At vaddr size (i + chunkSize vaddr size i) (nextCopy size s e) := by
  have hs := size.isLt
  have hpos : (nextCopy size s e).pos = _ := nextCopy_pos h hi
  have hle : i + chunkSize vaddr size i ≤ size.toNat := by
    rw [chunkSize]
    omega
  refine ⟨hpos, hle, rfl, fun hmore => (nextCopy_start h hmore).1, fun hmore => ?_, fun hmore => ?_⟩
  · have hzero : offset (nextCopy size s e).srcAddrStart = 0 := (nextCopy_start h hmore).2
    rw [hzero]
    rw [offset, nextCopy, BitVec.toNat_add, show (1 : Word).toNat = 1 from rfl] at hzero
    rw [nextCopy, BitVec.toNat_add, BitVec.toNat_add, show (1 : Word).toNat = 1 from rfl,
      show PAGE_SIZE.toNat = 4096 from rfl]
    omega
  · have hzero : offset (nextCopy size s e).srcAddrStart = 0 := (nextCopy_start h hmore).2
    have hleft : (size - (nextCopy size s e).pos).toNat =
        size.toNat - (i + chunkSize vaddr size i) := by
      rw [hpos, BitVec.toNat_sub, BitVec.toNat_ofNat]
      omega
    have hsize : (nextCopy size s e).copySize =
        if PAGE_SIZE < size - (nextCopy size s e).pos then PAGE_SIZE
        else size - (nextCopy size s e).pos := rfl
    apply BitVec.eq_of_toNat_eq
    rw [hsize, hzero, BitVec.toNat_ofNat, Nat.mod_eq_of_lt (by omega)]
    split
    · next hlt =>
      have hlt' := BitVec.lt_def.mp hlt
      rw [hleft, show PAGE_SIZE.toNat = 4096 from rfl] at hlt'
      rw [show PAGE_SIZE.toNat = 4096 from rfl]
      omega
    · next hlt =>
      have hlt' := BitVec.not_lt.mp hlt
      rw [BitVec.le_def, hleft, show PAGE_SIZE.toNat = 4096 from rfl] at hlt'
      rw [hleft]
      omega

/-- The outcome of the copy of the remaining bytes one by one. -/
def bytesOutcome (c : Copy σ) (vaddr size : Word) (i : Nat) (e : σ) : Outcome σ :=
  let r := byteSteps c vaddr (size.toNat - i) i e
  ⟨r.1, r.2, match r.2 with | .ok => some size | .invalidAddress => none⟩

theorem copyBody_done {s : CopyState σ} (h : At vaddr size size.toNat s) :
    copyBody c size s = .exit s := by
  have hnot : ¬ s.pos < size := by
    rw [h.pos, BitVec.ofNat_toNat, BitVec.setWidth_eq]
    exact BitVec.lt_irrefl size
  rw [copyBody, if_neg hnot]

theorem copyBody_chunk {i : Nat} {s : CopyState σ} (h : At vaddr size i s) (hi : i < size.toNat) :
    copyBody c size s =
      match chunkStep c vaddr (chunkSize vaddr size i) i s.changed with
      | none => .exit { s with status := .invalidAddress }
      | some e => .next (nextCopy size s e) := by
  have hs := size.isLt
  have hpos : s.pos < size := by
    rw [h.pos, BitVec.lt_def, BitVec.toNat_ofNat, Nat.mod_eq_of_lt (by omega)]
    exact hi
  have hcopy : s.copySize = BitVec.ofNat 32 (chunkSize vaddr size i) := by
    rw [h.copySize hi, h.start hi, chunkSize]
  rw [copyBody, if_pos hpos, h.start hi, chunkStep]
  cases c.virtualToPhysical s.changed (vaddr + BitVec.ofNat 32 i) with
  | none => rfl
  | some physAddr =>
    dsimp only [Option.bind_some]
    rw [← h.pos, ← hcopy]
    cases c.access physAddr s.copySize s.pos s.changed with
    | none => rfl
    | some e => rfl

/-- A turn copies a byte at least, so the loop is left within the bytes that are left, and one
turn. `P i` is what holds when the first `i` bytes have been copied. -/
theorem loop_chunks {P : Nat → σ → Prop}
    (hstep : ∀ i e next, P i e → i < size.toNat →
      chunkStep c vaddr (chunkSize vaddr size i) i e = some next → P (i + chunkSize vaddr size i) next)
    {i : Nat} {s : CopyState σ} (hs : At vaddr size i s) (hp : P i s.changed) :
    ∃ t j, loop (copyBody c size) (size.toNat - i + 1) s = some t ∧ j ≤ size.toNat ∧ P j t.changed ∧
      (j < size.toNat → chunkStep c vaddr (chunkSize vaddr size j) j t.changed = none) := by
  induction hk : size.toNat - i using Nat.strong_induction_on generalizing i s with
  | _ k ih =>
    rcases Nat.eq_or_lt_of_le hs.le with rfl | hlt
    · exact ⟨s, _, loop_exit (copyBody_done hs) _, le_rfl, hp, fun h => absurd h (Nat.lt_irrefl _)⟩
    · have hn := chunkSize_pos vaddr hlt
      have hbody := copyBody_chunk (c := c) hs hlt
      cases hc : chunkStep c vaddr (chunkSize vaddr size i) i s.changed with
      | none =>
        rw [hc] at hbody
        exact ⟨_, i, loop_exit hbody _, hs.le, hp, fun _ => hc⟩
      | some e =>
        rw [hc] at hbody
        obtain ⟨t, j, hloop, hrest⟩ := ih _ (by omega) (at_next (e := e) hs hlt)
          (hstep i s.changed e hp hlt hc) rfl
        refine ⟨t, j, ?_, hrest⟩
        rw [loop_next hbody]
        exact loop_mono hloop (by omega)

/-- The loop ends, and with the same outcome as the bytes one by one. -/
theorem ends_bytes {I : Nat → σ → Prop} (hchunk : ChunkByBytes c vaddr size I) {i : Nat}
    {s : CopyState σ} (hs : At vaddr size i s) (hi : I i s.changed) :
    ∃ t, Ends (copyBody c size) s t ∧ t.outcome = bytesOutcome c vaddr size i s.changed := by
  induction hk : size.toNat - i using Nat.strong_induction_on generalizing i s with
  | _ k ih =>
    rcases Nat.eq_or_lt_of_le hs.le with rfl | hlt
    · refine ⟨s, .of_exit (copyBody_done hs), ?_⟩
      rw [bytesOutcome, Nat.sub_self, CopyState.outcome, hs.status, hs.pos, BitVec.ofNat_toNat,
        BitVec.setWidth_eq]
      rfl
    · have hn := chunkSize_pos vaddr hlt
      have hfit : i + chunkSize vaddr size i ≤ size.toNat := by
        rw [chunkSize]
        omega
      have hpage : offset (vaddr + BitVec.ofNat 32 i) + chunkSize vaddr size i ≤ 4096 := by
        have hoff := offset_lt (vaddr + BitVec.ofNat 32 i)
        rw [chunkSize]
        omega
      have hbody := copyBody_chunk (c := c) hs hlt
      cases hc : chunkStep c vaddr (chunkSize vaddr size i) i s.changed with
      | none =>
        have hbytes := hchunk.fails i _ s.changed hi hn hfit hpage hc
        rw [hc] at hbody
        have hfirst : byteSteps c vaddr (size.toNat - i) i s.changed =
            (s.changed, .invalidAddress) := by
          obtain ⟨r, hr⟩ := Nat.exists_eq_add_of_lt hlt
          rw [show size.toNat - i = r + 1 by omega, byteSteps, hbytes]
        refine ⟨_, .of_exit hbody, ?_⟩
        rw [bytesOutcome, hfirst]
        rfl
      | some e =>
        rw [hc] at hbody
        obtain ⟨hsteps, hnext⟩ := hchunk.copies i _ s.changed hi hn hfit hpage e hc
        obtain ⟨t, hends, hout⟩ := ih (size.toNat - (i + chunkSize vaddr size i)) (by omega)
          (at_next (e := e) hs hlt) hnext rfl
        refine ⟨t, hends.of_next hbody, hout.trans ?_⟩
        have hsplit : byteSteps c vaddr (size.toNat - i) i s.changed =
            byteSteps c vaddr (size.toNat - (i + chunkSize vaddr size i))
              (i + chunkSize vaddr size i) e := by
          rw [show size.toNat - i =
              chunkSize vaddr size i + (size.toNat - (i + chunkSize vaddr size i)) by omega,
            byteSteps_add, hsteps]
        rw [bytesOutcome, bytesOutcome, hsplit]
        rfl

theorem copy_bytes {I : Nat → σ → Prop} (hchunk : ChunkByBytes c vaddr size I) {e : σ}
    (he : I 0 e) : ∃ t, Ends (copyBody c size) (startCopy vaddr size e) t ∧
      t.outcome = byteCopy c vaddr size e :=
  ends_bytes hchunk (at_start vaddr size e) he

/-- Steps that go through the states `f`. -/
theorem byteSteps_of_steps (c : Copy σ) (vaddr : Word) (f : Nat → σ) {n i : Nat}
    (h : ∀ k, k < n → byteStep c vaddr (i + k) (f k) = some (f (k + 1))) :
    byteSteps c vaddr n i (f 0) = (f n, .ok) := by
  induction n with
  | zero => rfl
  | succ n ih =>
    rw [byteSteps_add, ih fun k hk => h k (Nat.lt_succ_of_lt hk)]
    dsimp only
    rw [byteSteps, h n (Nat.lt_succ_self n)]
    rfl

end Loop

/-! ## The bytes of a chunk -/

section Chunk

variable {p : Paging} {m : HostMap} {host : Host} {vaddr size : Word} {i n : Nat}

theorem toNat_ofNat_of_page {v : Word} (hpage : offset v + n ≤ 4096) :
    (BitVec.ofNat 32 n).toNat = n := by
  rw [BitVec.toNat_ofNat, Nat.mod_eq_of_lt (by omega)]

/-- What is read at an address of a chunk. -/
theorem memRead_chunk {a : Word} (hm : ∀ r ∈ m, HostRange.Aligned r) (hn : 0 < n)
    (hpage : offset a + n ≤ 4096) : memRead (view m host) a (BitVec.ofNat 32 n) =
      (rangeOf m a).map fun r => (List.range n).map fun j => host (r.place a + j) := by
  rw [memRead_view, find_chunk hm hn hpage, toNat_ofNat_of_page hpage]

theorem memWrite_chunk {a : Word} (hm : ∀ r ∈ m, HostRange.Aligned r) (hn : 0 < n)
    (hpage : offset a + n ≤ 4096) (value : Nat → Byte) :
    memWrite m a (BitVec.ofNat 32 n) value host =
      (rangeOf m a).map fun r x =>
        if r.place a ≤ x ∧ x < r.place a + n then value (x - r.place a) else host x := by
  rw [memWrite, find_chunk hm hn hpage, toNat_ofNat_of_page hpage]

theorem copyTo_nil (pos : Nat) (value : Nat → Byte) : copyTo pos [] value = value := by
  funext x
  exact if_neg (by rw [List.length_nil]; omega)

/-- A byte after the ones that have been copied. -/
theorem copyTo_snoc (pos : Nat) (bytes : List Byte) (b : Byte) (value : Nat → Byte) :
    copyTo (pos + bytes.length) [b] (copyTo pos bytes value) = copyTo pos (bytes ++ [b]) value := by
  funext x
  rw [copyTo, copyTo, copyTo, List.length_append, List.length_singleton]
  by_cases hlast : x = pos + bytes.length
  · subst hlast
    rw [if_pos (by omega), if_pos (by omega), Nat.sub_self, Nat.add_sub_cancel_left,
      List.getD_append_right _ _ _ _ le_rfl, Nat.sub_self]
  · rw [if_neg (by omega)]
    by_cases hin : pos ≤ x ∧ x < pos + bytes.length
    · rw [if_pos hin, if_pos (by omega), List.getD_append _ _ _ _ (by omega)]
    · rw [if_neg hin, if_neg (by omega)]

theorem chunkStep_read (e : Nat → Byte) : chunkStep (readCopy p m host) vaddr n i e =
    (toPhysical p m host (vaddr + BitVec.ofNat 32 i)).bind fun physAddr =>
      (memRead (view m host) physAddr (BitVec.ofNat 32 n)).map fun bytes =>
        copyTo (BitVec.ofNat 32 i).toNat bytes e := rfl

/-- The translation of a byte of a chunk. -/
theorem toPhysical_byte {physAddr : Word} (ht : toPhysical p m host (vaddr + BitVec.ofNat 32 i) =
    some physAddr) {k : Nat} (hk : offset (vaddr + BitVec.ofNat 32 i) + k < 4096) :
    toPhysical p m host (vaddr + BitVec.ofNat 32 (i + k)) = some (physAddr + BitVec.ofNat 32 k) := by
  rw [BitVec.ofNat_add, ← BitVec.add_assoc, toPhysical_add hk, ht]
  rfl

/-- The chunk that is read, by the range it is found in. -/
theorem chunkStep_read_eq (hm : ∀ r ∈ m, HostRange.Aligned r) {e : Nat → Byte} (hi : i < 2 ^ 32)
    (hn : 0 < n) (hpage : offset (vaddr + BitVec.ofNat 32 i) + n ≤ 4096) :
    chunkStep (readCopy p m host) vaddr n i e =
      (toPhysical p m host (vaddr + BitVec.ofNat 32 i)).bind fun physAddr =>
        (rangeOf m physAddr).map fun r =>
          copyTo i ((List.range n).map fun j => host (r.place physAddr + j)) e := by
  rw [chunkStep_read]
  refine Option.bind_congr fun physAddr ht => ?_
  rw [memRead_chunk hm hn (by rw [offset_toPhysical ht]; exact hpage), Option.map_map,
    BitVec.toNat_ofNat, Nat.mod_eq_of_lt hi]
  rfl

theorem chunk_read (p : Paging) (host : Host) (vaddr size : Word) (hm : ∀ r ∈ m, HostRange.Aligned r) :
    ChunkByBytes (readCopy p m host) vaddr size fun _ _ => True := by
  have hs := size.isLt
  constructor
  · intro i n e _ hn hfit hpage hnone
    have hone : byteStep (readCopy p m host) vaddr i e =
      chunkStep (readCopy p m host) vaddr 1 i e := rfl
    rw [chunkStep_read_eq hm (by omega) hn hpage] at hnone
    rw [hone, chunkStep_read_eq hm (by omega) (by decide) (by omega)]
    cases ht : toPhysical p m host (vaddr + BitVec.ofNat 32 i) with
    | none => rfl
    | some physAddr =>
      rw [ht, Option.bind_some, Option.map_eq_none_iff] at hnone
      rw [Option.bind_some, hnone]
      rfl
  · intro i n e _ hn hfit hpage next hnext
    refine ⟨?_, trivial⟩
    rw [chunkStep_read_eq hm (by omega) hn hpage] at hnext
    obtain ⟨physAddr, ht, hmap⟩ := Option.bind_eq_some_iff.mp hnext
    obtain ⟨r, hr, rfl⟩ := Option.map_eq_some_iff.mp hmap
    have hoff := offset_toPhysical ht
    have hsteps := byteSteps_of_steps (readCopy p m host) vaddr
      (fun k => copyTo i ((List.range k).map fun j => host (r.place physAddr + j)) e) (n := n) (i := i) ?_
    · rw [List.range_zero, List.map_nil, copyTo_nil] at hsteps
      exact hsteps
    · intro k hk
      have hinpage : offset physAddr + k < 4096 := by omega
      have hone : byteStep (readCopy p m host) vaddr (i + k) =
        chunkStep (readCopy p m host) vaddr 1 (i + k) := rfl
      have hsnoc := copyTo_snoc i ((List.range k).map fun j => host (r.place physAddr + j))
        (host (r.place physAddr + k)) e
      rw [List.length_map, List.length_range] at hsnoc
      have hpage' : offset (vaddr + BitVec.ofNat 32 (i + k)) + 1 ≤ 4096 := by
        rw [BitVec.ofNat_add, ← BitVec.add_assoc, offset_add (by omega)]
        omega
      rw [hone, chunkStep_read_eq hm (by omega) (by decide) hpage', toPhysical_byte ht (by omega),
        Option.bind_some, rangeOf_add hm hinpage, hr, Option.map_some, place_add hm hr hinpage]
      rw [← List.map_singleton (f := fun j => host (r.place physAddr + j)) (a := k),
        ← List.map_append, ← List.range_succ] at hsnoc
      exact congrArg some hsnoc

end Chunk

/-! ## Writes and the page table -/

/-- A place of the host's memory that a read of an entry at this address looks at. -/
def EntryAt (m : HostMap) (addr : Word) (x : Nat) : Prop :=
  ∃ r, (m.find? fun r => r.admits addr 4) = some r ∧ r.place addr ≤ x ∧ x < r.place addr + 4

def pdeAddr (p : Paging) (vaddr : Word) : Word := p.cr3 + (vaddr >>> 22) <<< 2

def pteAddr (pde : Pte) (vaddr : Word) : Word :=
  pde.pageFrameNumber <<< PAGE_SHIFT + ((vaddr <<< 10) >>> 22) <<< 2

/-- A place that the translation of an address looks at: a part of its directory entry, or
of its table entry when there is one. -/
def UsedEntry (p : Paging) (m : HostMap) (host : Host) (vaddr : Word) (x : Nat) : Prop :=
  EntryAt m (pdeAddr p vaddr) x ∨
    (Pte.largePage (memRead32 (view m host) (pdeAddr p vaddr) p.pde) = false ∧
      Pte.valid (memRead32 (view m host) (pdeAddr p vaddr) p.pde) = true ∧
      EntryAt m (pteAddr (memRead32 (view m host) (pdeAddr p vaddr) p.pde) vaddr) x)

instance (m : HostMap) (addr : Word) (x : Nat) : Decidable (EntryAt m addr x) :=
  inferInstanceAs (Decidable (∃ r ∈ m.find? fun r => r.admits addr 4, r.place addr ≤ x ∧ x < r.place addr + 4))

instance (p : Paging) (m : HostMap) (host : Host) (vaddr : Word) (x : Nat) :
    Decidable (UsedEntry p m host vaddr x) := inferInstanceAs (Decidable (_ ∨ (_ ∧ _ ∧ _)))

/-- The place that a write to a virtual address changes. -/
def written (p : Paging) (m : HostMap) (host : Host) (vaddr : Word) : Option Nat :=
  (toPhysical p m host vaddr).bind fun physAddr => (rangeOf m physAddr).map (·.place physAddr)

/-- The first `n` bytes from an address on can be accessed. -/
def Accessible (p : Paging) (m : HostMap) (host : Host) (vaddr : Word) (n : Nat) : Prop :=
  ∀ l, l < n → (written p m host (vaddr + BitVec.ofNat 32 l)).isSome = true

/-- No byte that the copy writes is part of an entry that the copy uses. -/
def EntriesKept (p : Paging) (m : HostMap) (host : Host) (vaddr size : Word) : Prop :=
  ∀ i j, i < size.toNat → j < size.toNat → Accessible p m host vaddr (i + 1) →
    Accessible p m host vaddr j → ∀ x, written p m host (vaddr + BitVec.ofNat 32 i) = some x →
      ¬ UsedEntry p m host (vaddr + BitVec.ofNat 32 j) x

section Write

variable {p : Paging} {m : HostMap} {host host' : Host} {vaddr size : Word}

theorem memRead32_congr (addr old : Word) (h : ∀ x, EntryAt m addr x → host' x = host x) :
    memRead32 (view m host') addr old = memRead32 (view m host) addr old := by
  rw [memRead32, memRead32, memRead_view, memRead_view]
  cases hr : m.find? fun r => r.admits addr 4 with
  | none => rfl
  | some r =>
    rw [Option.map_some, Option.map_some]
    congr 3
    refine List.map_congr_left fun i hi => h _ ⟨r, hr, Nat.le_add_right _ _, ?_⟩
    have hlt := List.mem_range.mp hi
    exact Nat.add_lt_add_left hlt _

/-- A translation does not change with what it does not look at. -/
theorem toPhysical_congr (h : ∀ x, UsedEntry p m host vaddr x → host' x = host x) :
    toPhysical p m host' vaddr = toPhysical p m host vaddr := by
  have hpde := memRead32_congr (pdeAddr p vaddr) p.pde fun x hx => h x (.inl hx)
  rw [pdeAddr] at hpde
  rw [toPhysical, toPhysical, PageWalk.virtualToPhysical, PageWalk.virtualToPhysical]
  dsimp only
  rw [hpde]
  split
  · rfl
  · next hlarge =>
    split
    · rfl
    · next hvalid =>
      have hpte := memRead32_congr
        (pteAddr (memRead32 (view m host) (pdeAddr p vaddr) p.pde) vaddr) p.pte fun x hx =>
          h x (.inr ⟨Bool.eq_false_iff.mpr hlarge,
          Bool.of_not_eq_false fun hf => hvalid (congrArg not hf), hx⟩)
      rw [pteAddr, pdeAddr] at hpte
      rw [hpte]

/-- The first `i` bytes have been written, and nothing else. -/
structure Wrote (p : Paging) (m : HostMap) (host : Host) (vaddr : Word) (i : Nat) (host' : Host) :
    Prop where
  accessible : Accessible p m host vaddr i
  same : ∀ x, (∀ l, l < i → written p m host (vaddr + BitVec.ofNat 32 l) ≠ some x) → host' x = host x

theorem wrote_zero : Wrote p m host vaddr 0 host :=
  ⟨fun l hl => absurd hl (Nat.not_lt_zero l), fun _ _ => rfl⟩

/-- The next byte is translated as before the copy. -/
theorem toPhysical_wrote (hkept : EntriesKept p m host vaddr size) {i : Nat}
    (hw : Wrote p m host vaddr i host') (hi : i < size.toNat) :
    toPhysical p m host' (vaddr + BitVec.ofNat 32 i) = toPhysical p m host (vaddr + BitVec.ofNat 32 i) := by
  refine toPhysical_congr fun x hx => hw.same x fun l hl hwritten => ?_
  have hfirst : Accessible p m host vaddr (l + 1) := fun k hk => hw.accessible k (by omega)
  exact hkept l i (hl.trans hi) hi hfirst hw.accessible x hwritten hx

variable {i n : Nat} {value : Nat → Byte}

/-- The first `n` bytes of a chunk written to the host's memory. -/
def putChunk (start i n : Nat) (value : Nat → Byte) (host : Host) : Host :=
  fun x => if start ≤ x ∧ x < start + n then value (i + (x - start)) else host x

theorem putChunk_zero (start i : Nat) (value : Nat → Byte) (host : Host) :
    putChunk start i 0 value host = host := by
  funext x
  exact if_neg (by omega)

theorem putChunk_succ (start i n : Nat) (value : Nat → Byte) (host : Host) :
    putChunk (start + n) (i + n) 1 value (putChunk start i n value host) =
      putChunk start i (n + 1) value host := by
  funext x
  rw [putChunk, putChunk, putChunk]
  by_cases hlast : x = start + n
  · subst hlast
    rw [if_pos (by omega), if_pos (by omega)]
    congr 1
    omega
  · rw [if_neg (by omega)]
    by_cases hin : start ≤ x ∧ x < start + n
    · rw [if_pos hin, if_pos (by omega)]
    · rw [if_neg hin, if_neg (by omega)]

theorem chunkStep_write (p : Paging) (m : HostMap) (vaddr : Word) (n i : Nat) (value : Nat → Byte)
    (host : Host) : chunkStep (writeCopy p m value) vaddr n i host =
      (toPhysical p m host (vaddr + BitVec.ofNat 32 i)).bind fun physAddr =>
        memWrite m physAddr (BitVec.ofNat 32 n) (fun x => value ((BitVec.ofNat 32 i).toNat + x)) host :=
  rfl

/-- The chunk that is written, by the range it is found in. -/
theorem chunkStep_write_eq (hm : ∀ r ∈ m, HostRange.Aligned r) (hi : i < 2 ^ 32) (hn : 0 < n)
    (hpage : offset (vaddr + BitVec.ofNat 32 i) + n ≤ 4096) :
    chunkStep (writeCopy p m value) vaddr n i host =
      (toPhysical p m host (vaddr + BitVec.ofNat 32 i)).bind fun physAddr =>
        (rangeOf m physAddr).map fun r => putChunk (r.place physAddr) i n value host := by
  rw [chunkStep_write]
  refine Option.bind_congr fun physAddr ht => ?_
  rw [memWrite_chunk hm hn (by rw [offset_toPhysical ht]; exact hpage), BitVec.toNat_ofNat,
    Nat.mod_eq_of_lt hi]
  rfl

/-- The place of a byte of a chunk. -/
theorem written_byte (hm : ∀ r ∈ m, HostRange.Aligned r) {physAddr : Word} {r : HostRange}
    (ht : toPhysical p m host (vaddr + BitVec.ofNat 32 i) = some physAddr)
    (hr : rangeOf m physAddr = some r) {k : Nat}
    (hk : offset (vaddr + BitVec.ofNat 32 i) + k < 4096) :
    written p m host (vaddr + BitVec.ofNat 32 (i + k)) = some (r.place physAddr + k) := by
  have hinpage : offset physAddr + k < 4096 := by
    rw [offset_toPhysical ht]
    exact hk
  rw [written, toPhysical_byte ht hk, Option.bind_some, rangeOf_add hm hinpage, hr, Option.map_some,
    place_add hm hr hinpage]

/-- Part of a chunk. -/
theorem wrote_chunk (value : Nat → Byte) (hm : ∀ r ∈ m, HostRange.Aligned r) {physAddr : Word} {r : HostRange}
    (hw : Wrote p m host vaddr i host')
    (ht : toPhysical p m host (vaddr + BitVec.ofNat 32 i) = some physAddr)
    (hr : rangeOf m physAddr = some r) (hpage : offset (vaddr + BitVec.ofNat 32 i) + n ≤ 4096) :
    Wrote p m host vaddr (i + n) (putChunk (r.place physAddr) i n value host') := by
  constructor
  · intro l hl
    rcases Nat.lt_or_ge l i with hlt | hge
    · exact hw.accessible l hlt
    · obtain ⟨k, rfl⟩ := Nat.exists_eq_add_of_le hge
      rw [written_byte hm ht hr (by omega)]
      rfl
  · intro x hx
    have hout : ¬ (r.place physAddr ≤ x ∧ x < r.place physAddr + n) := by
      intro h
      obtain ⟨hle, hlt⟩ := h
      obtain ⟨k, rfl⟩ := Nat.exists_eq_add_of_le hle
      exact hx (i + k) (by omega) (written_byte hm ht hr (by omega))
    rw [putChunk, if_neg hout]
    exact hw.same x fun l hl => hx l (by omega)

theorem chunk_write (value : Nat → Byte) (hm : ∀ r ∈ m, HostRange.Aligned r)
    (hkept : EntriesKept p m host vaddr size) :
    ChunkByBytes (writeCopy p m value) vaddr size (Wrote p m host vaddr) := by
  have hs := size.isLt
  constructor
  · intro i n e _ hn hfit hpage hnone
    have hone : byteStep (writeCopy p m value) vaddr i e =
      chunkStep (writeCopy p m value) vaddr 1 i e := rfl
    rw [chunkStep_write_eq hm (by omega) hn hpage] at hnone
    rw [hone, chunkStep_write_eq hm (by omega) (by decide) (by omega)]
    cases ht : toPhysical p m e (vaddr + BitVec.ofNat 32 i) with
    | none => rfl
    | some physAddr =>
      rw [ht, Option.bind_some, Option.map_eq_none_iff] at hnone
      rw [Option.bind_some, hnone]
      rfl
  · intro i n e hw hn hfit hpage next hnext
    rw [chunkStep_write_eq hm (by omega) hn hpage, toPhysical_wrote hkept hw (by omega)] at hnext
    obtain ⟨physAddr, ht, hmap⟩ := Option.bind_eq_some_iff.mp hnext
    obtain ⟨r, hr, rfl⟩ := Option.map_eq_some_iff.mp hmap
    have hoff := offset_toPhysical ht
    refine ⟨?_, wrote_chunk value hm hw ht hr hpage⟩
    have hsteps := byteSteps_of_steps (writeCopy p m value) vaddr
      (fun k => putChunk (r.place physAddr) i k value e) (n := n) (i := i) ?_
    · rw [putChunk_zero] at hsteps
      exact hsteps
    · intro k hk
      have hinpage : offset physAddr + k < 4096 := by omega
      have hone : byteStep (writeCopy p m value) vaddr (i + k) =
        chunkStep (writeCopy p m value) vaddr 1 (i + k) := rfl
      have hpage' : offset (vaddr + BitVec.ofNat 32 (i + k)) + 1 ≤ 4096 := by
        rw [BitVec.ofNat_add, ← BitVec.add_assoc, offset_add (by omega)]
        omega
      have hpart := wrote_chunk (n := k) value hm hw ht hr (by omega)
      rw [hone, chunkStep_write_eq hm (by omega) (by decide) hpage',
        toPhysical_wrote hkept hpart (by omega), toPhysical_byte ht (by omega), Option.bind_some,
        rangeOf_add hm hinpage, hr, Option.map_some, place_add hm hr hinpage, putChunk_succ]

end Write

theorem vmemRead_iff {m : HostMap} (hm : ∀ r ∈ m, HostRange.Aligned r) (p : Paging) (host : Host)
    (vaddr size : Word) (value : Nat → Byte) (o : Outcome (Nat → Byte)) :
    VMemRead p m host vaddr size value o ↔ o = byteCopy (readCopy p m host) vaddr size value := by
  obtain ⟨t, hends, hout⟩ := copy_bytes (e := value) (chunk_read p host vaddr size hm)
    trivial
  constructor
  · intro h
    obtain ⟨u, hu, rfl⟩ := h
    rw [hu.unique hends, hout]
  · rintro rfl
    exact ⟨t, hends, hout⟩

theorem vmemWrite_iff {m : HostMap} (hm : ∀ r ∈ m, HostRange.Aligned r) (p : Paging) (host : Host)
    (vaddr size : Word) (value : Nat → Byte) (hkept : EntriesKept p m host vaddr size)
    (o : Outcome Host) : VMemWrite p m vaddr size value host o ↔
      o = byteCopy (writeCopy p m value) vaddr size host := by
  obtain ⟨t, hends, hout⟩ := copy_bytes (chunk_write value hm hkept) wrote_zero
  constructor
  · intro h
    obtain ⟨u, hu, rfl⟩ := h
    rw [hu.unique hends, hout]
  · rintro rfl
    exact ⟨t, hends, hout⟩

/-- With ranges that start and end on page boundaries, a copy from or to virtual memory
ends, and it ends as the copy of one byte at a time: with the same status and number of
bytes, and the same contents of the buffer or of the host's memory. A write must not
change the entries of the page table that it uses. -/
theorem copies_bytes {m : HostMap} (hm : ∀ r ∈ m, HostRange.Aligned r) (p : Paging) (host : Host)
    (vaddr size : Word) (value : Nat → Byte) :
    (∀ o, VMemRead p m host vaddr size value o ↔
      o = byteCopy (readCopy p m host) vaddr size value) ∧
      (EntriesKept p m host vaddr size → ∀ o, VMemWrite p m vaddr size value host o ↔
        o = byteCopy (writeCopy p m value) vaddr size host) :=
  ⟨vmemRead_iff hm p host vaddr size value, vmemWrite_iff hm p host vaddr size value⟩

/-- 64 MiB of RAM, of which the first large page is mapped to itself. -/
def ram : HostMap := [⟨0, 0x03ffffff, 0⟩]

def ramWithEntry : Host := fun x => if x = 0 then 0x81 else 0

/-- Page 1 is in frame 5 and page 2 in frame 3; the other bytes are the low ones of their addresses. -/
def twoPages : Host := fun x =>
  if x < 4 then leBytes [0x1003] x
  else if 0x1000 ≤ x ∧ x < 0x100C then leBytes [0, 0x5003, 0x3003] (x - 0x1000)
  else BitVec.ofNat 8 x

theorem entries_kept_twoPages : EntriesKept ⟨0, 0, 0⟩ ram twoPages 0x1FFC 8 := by
  have hapart : ∀ i < 8, ∀ j < 8, ∀ x ∈ written ⟨0, 0, 0⟩ ram twoPages (0x1FFC + BitVec.ofNat 32 i),
      ¬ UsedEntry ⟨0, 0, 0⟩ ram twoPages (0x1FFC + BitVec.ofNat 32 j) x := by
    decide +kernel
  exact fun i j hi hj _ _ x hx => hapart i hi j hj x hx

/-- Four bytes at the end of a page, and four in the next one. -/
theorem copies_over_pages :
    VMemRead ⟨0, 0, 0⟩ ram twoPages 0x1FFC 8 (fun _ => 0)
        (byteCopy (readCopy ⟨0, 0, 0⟩ ram twoPages) 0x1FFC 8 fun _ => 0) ∧
      VMemWrite ⟨0, 0, 0⟩ ram 0x1FFC 8 (BitVec.ofNat 8) twoPages
        (byteCopy (writeCopy ⟨0, 0, 0⟩ ram (BitVec.ofNat 8)) 0x1FFC 8 twoPages) :=
  have hram : ∀ r ∈ ram, HostRange.Aligned r := by decide
  ⟨((copies_bytes hram ⟨0, 0, 0⟩ twoPages 0x1FFC 8 fun _ => 0).1 _).mpr rfl,
    ((copies_bytes hram ⟨0, 0, 0⟩ twoPages 0x1FFC 8 (BitVec.ofNat 8)).2 entries_kept_twoPages _).mpr rfl⟩

end OpenXbox.Cpu.VirtualCopy
