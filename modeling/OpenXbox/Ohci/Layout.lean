import OpenXbox.Ohci.Memory

/-!
# Places of descriptors

The bytes at an address have places in the host's memory, and so have the page table
entries that the address is translated with. A store changes the places of its own bytes
only, unless these are part of the entries that it is translated with itself.
-/

namespace OpenXbox.Ohci.Layout

open OpenXbox.Lib.Bits OpenXbox.Lib.Loop OpenXbox.Ohci.Memory
open OpenXbox.Cpu.Memory (memRead32)
open OpenXbox.Cpu.VirtualMemory (Copy HostMap HostRange copyTo readCopy writeCopy toPhysical view)
open OpenXbox.Cpu.VirtualCopy
open OpenXbox.Cpu.PageWalk (Pte)

/-- The byte at an address, 0 where nothing is mapped. -/
def byteAt (mem : GuestMemory) (addr : Word) : Byte := ((place mem addr).map mem.host).getD 0

/-- The places of the first `n` bytes from an address on, as far as they are mapped. -/
def places (mem : GuestMemory) (addr : Word) (n : Nat) : List Nat :=
  (List.range n).filterMap fun i => place mem (addr + BitVec.ofNat 32 i)

def entryPlaces (map : HostMap) (addr : Word) : List Nat :=
  match map.find? fun r => r.admits addr 4 with
  | some r => (List.range 4).map (r.place addr + ·)
  | none => []

/-- The places of the page table entries that an address is translated with. -/
def tablePlaces (mem : GuestMemory) (addr : Word) : List Nat :=
  let pde : Pte := memRead32 (view mem.map mem.host) (pdeAddr mem.paging addr) mem.paging.pde
  entryPlaces mem.map (pdeAddr mem.paging addr) ++
    if !pde.largePage && pde.valid then entryPlaces mem.map (pteAddr pde addr) else []

/-- Those for the first `n` bytes from an address on. -/
def entries (mem : GuestMemory) (addr : Word) (n : Nat) : List Nat :=
  (List.range n).flatMap fun i => tablePlaces mem (addr + BitVec.ofNat 32 i)

section Places

variable {mem : GuestMemory} {addr : Word} {n x : Nat}

theorem mem_places : x ∈ places mem addr n ↔ ∃ i, i < n ∧ place mem (addr + BitVec.ofNat 32 i) = some x := by
  simp only [places, List.mem_filterMap, List.mem_range]

theorem mem_entryPlaces {map : HostMap} : x ∈ entryPlaces map addr ↔ EntryAt map addr x := by
  rw [entryPlaces, EntryAt]
  cases map.find? fun r => r.admits addr 4 with
  | none => simp
  | some r =>
    simp only [List.mem_map, List.mem_range, Option.some.injEq, exists_eq_left']
    constructor
    · rintro ⟨i, hi, rfl⟩
      omega
    · rintro ⟨hle, hlt⟩
      exact ⟨x - r.place addr, by omega, by omega⟩

theorem mem_tablePlaces :
    x ∈ tablePlaces mem addr ↔ UsedEntry mem.paging mem.map mem.host addr x := by
  rw [tablePlaces, UsedEntry, List.mem_append, mem_entryPlaces]
  refine or_congr_right ?_
  split
  · next h =>
    rw [Bool.and_eq_true, Bool.not_eq_true'] at h
    rw [mem_entryPlaces]
    exact ⟨fun hx => ⟨h.1, h.2, hx⟩, fun hx => hx.2.2⟩
  · next h =>
    refine iff_of_false List.not_mem_nil fun hx => h ?_
    rw [Bool.and_eq_true, Bool.not_eq_true']
    exact ⟨hx.1, hx.2.1⟩

theorem mem_entries : x ∈ entries mem addr n ↔
    ∃ i, i < n ∧ UsedEntry mem.paging mem.map mem.host (addr + BitVec.ofNat 32 i) x := by
  simp only [entries, List.mem_flatMap, List.mem_range, mem_tablePlaces]

theorem mapped_iff : mapped mem addr n = true ↔
    ∀ i, i < n → (place mem (addr + BitVec.ofNat 32 i)).isSome = true := by
  rw [mapped, List.all_eq_true]
  exact forall_congr' fun i => by rw [List.mem_range]

theorem mapped_of_le {m : Nat} (h : mapped mem addr n = true) (hle : m ≤ n) :
    mapped mem addr m = true :=
  mapped_iff.mpr fun i hi => mapped_iff.mp h i (by omega)

theorem exists_place {i : Nat} (h : mapped mem addr n = true) (hi : i < n) :
    ∃ x, place mem (addr + BitVec.ofNat 32 i) = some x :=
  Option.isSome_iff_exists.mp (mapped_iff.mp h i hi)

theorem byteAt_of_place (h : place mem addr = some x) : byteAt mem addr = mem.host x := by
  rw [byteAt, h]
  rfl

end Places

/-! ## Chunks -/

section Chunks

/-- A copy ends in front of a chunk of a page that fails, or when all chunks are copied. -/
theorem copied_spec {σ : Type} (c : Copy σ) (addr : Word) {n : Nat} (e : σ) (hn : n < 2 ^ 32)
    {P : Nat → σ → Prop} (h0 : P 0 e)
    (hstep : ∀ i k e next, P i e → 0 < k → i + k ≤ n → offset (addr + BitVec.ofNat 32 i) + k ≤ 4096 →
      chunkStep c addr k i e = some next → P (i + k) next) :
    ∃ j, j ≤ n ∧ P j (Memory.copied c addr n e) ∧ (j < n → ∃ k, 0 < k ∧ j + k ≤ n ∧
      offset (addr + BitVec.ofNat 32 j) + k ≤ 4096 ∧
        chunkStep c addr k j (Memory.copied c addr n e) = none) := by
  have hsize : (BitVec.ofNat 32 n).toNat = n := by
    rw [BitVec.toNat_ofNat, Nat.mod_eq_of_lt hn]
  have hchunk {i : Nat} (hi : i < n) : 0 < chunkSize addr (BitVec.ofNat 32 n) i ∧
      i + chunkSize addr (BitVec.ofNat 32 n) i ≤ n ∧
        offset (addr + BitVec.ofNat 32 i) + chunkSize addr (BitVec.ofNat 32 n) i ≤ 4096 := by
    have hoff := offset_lt (addr + BitVec.ofNat 32 i)
    refine ⟨chunkSize_pos addr (by rwa [hsize]), ?_, ?_⟩
    · rw [chunkSize, hsize]
      omega
    · rw [chunkSize]
      omega
  obtain ⟨t, j, hloop, hj, hp, hfail⟩ := loop_chunks (c := c) (P := P)
    (fun i e next hp hi hc => by
      rw [hsize] at hi
      obtain ⟨hpos, hle, hpage⟩ := hchunk hi
      exact hstep i _ e next hp hpos hle hpage hc)
    (at_start addr (BitVec.ofNat 32 n) e) h0
  have hcopied : Memory.copied c addr n e = t.changed := by
    rw [hsize, Nat.sub_zero] at hloop
    rw [Memory.copied, hloop]
  rw [hsize] at hj hfail
  rw [hcopied]
  refine ⟨j, hj, hp, fun hlt => ?_⟩
  obtain ⟨hpos, hle, hpage⟩ := hchunk hlt
  exact ⟨_, hpos, hle, hpage, hfail hlt⟩

variable {mem : GuestMemory} {addr : Word}

/-- A chunk that fails is not mapped. -/
theorem place_of_fails (h : ((toPhysical mem.paging mem.map mem.host addr).bind fun physAddr =>
    rangeOf mem.map physAddr) = none) : place mem addr = none := by
  rw [place, written]
  cases ht : toPhysical mem.paging mem.map mem.host addr with
  | none => rfl
  | some physAddr =>
    rw [ht, Option.bind_some] at h
    rw [Option.bind_some, h]
    rfl

/-- Places are at the offsets of their addresses. -/
theorem place_mod {x : Nat} (h : place mem addr = some x) : x % 4096 = offset addr := by
  rw [place, written] at h
  obtain ⟨physAddr, ht, hr'⟩ := Option.bind_eq_some_iff.mp h
  obtain ⟨r, hr, rfl⟩ := Option.map_eq_some_iff.mp hr'
  have hin := List.mem_of_find?_eq_some hr
  have hadmits := List.find?_some hr
  have hdata := mem.paged r hin
  obtain ⟨hstart, -⟩ := mem.aligned r hin
  rw [HostRange.admits, Bool.and_eq_true, decide_eq_true_eq, ge_iff_le] at hadmits
  rw [← offset_toPhysical ht, HostRange.place, BitVec.toNat_sub_of_le hadmits.1]
  have hle := BitVec.le_def.mp hadmits.1
  rw [offset] at hstart ⊢
  omega

theorem place_lt {B x : Nat} (hB : ∀ r ∈ mem.map, r.data + 2 ^ 32 ≤ B)
    (h : place mem addr = some x) : x < B := by
  rw [place, written] at h
  obtain ⟨physAddr, -, hr'⟩ := Option.bind_eq_some_iff.mp h
  obtain ⟨r, hr, rfl⟩ := Option.map_eq_some_iff.mp hr'
  have hdata := hB r (List.mem_of_find?_eq_some hr)
  have hlt := (physAddr - r.startingAddress).isLt
  rw [HostRange.place]
  omega

end Chunks

/-! ## Reads -/

section Reads

variable {mem : GuestMemory} {addr : Word} {n i : Nat}

theorem mapped_add {j k : Nat} (h : mapped mem addr j = true)
    (hk : ∀ l, l < k → ∃ x, place mem (addr + BitVec.ofNat 32 (j + l)) = some x) :
    mapped mem addr (j + k) = true := by
  refine mapped_iff.mpr fun i hi => ?_
  rcases Nat.lt_or_ge i j with hlt | hge
  · exact mapped_iff.mp h i hlt
  · obtain ⟨l, rfl⟩ := Nat.exists_eq_add_of_le hge
    obtain ⟨x, hx⟩ := hk l (by omega)
    rw [hx]
    rfl

/-- The bytes up to the first one that is not mapped are read. -/
theorem vmemRead_eq (hn : n < 2 ^ 32) (old : Nat → Byte) (i : Nat) :
    vmemRead mem addr n old i =
      if i < n ∧ mapped mem addr (i + 1) = true then byteAt mem (addr + BitVec.ofNat 32 i) else old i := by
  have hspec := copied_spec (readCopy mem.paging mem.map mem.host) addr old hn
    (P := fun j e => mapped mem addr j = true ∧
      ∀ i, e i = if i < j then byteAt mem (addr + BitVec.ofNat 32 i) else old i)
    ⟨rfl, fun i => rfl⟩ ?_
  · obtain ⟨j, hj, ⟨hmapped, hbytes⟩, hfail⟩ := hspec
    rw [vmemRead, hbytes]
    by_cases hi : i < j
    · rw [if_pos hi, if_pos ⟨by omega, mapped_of_le hmapped hi⟩]
    · rw [if_neg hi, if_neg]
      rintro ⟨hin, hsome⟩
      obtain ⟨k, hk, hle, hpage, hnone⟩ := hfail (by omega)
      rw [chunkStep_read_eq mem.aligned (by omega) hk hpage] at hnone
      have hnot : place mem (addr + BitVec.ofNat 32 j) = none := by
        refine place_of_fails ?_
        rw [Option.bind_eq_none_iff] at hnone ⊢
        exact fun physAddr ht => Option.map_eq_none_iff.mp (hnone physAddr ht)
      have hthere := mapped_iff.mp hsome j (by omega)
      rw [hnot] at hthere
      cases hthere
  · rintro j k e next ⟨hmapped, hbytes⟩ hk hle hpage hnext
    rw [chunkStep_read_eq mem.aligned (by omega) hk hpage] at hnext
    obtain ⟨physAddr, ht, hmap⟩ := Option.bind_eq_some_iff.mp hnext
    obtain ⟨r, hr, rfl⟩ := Option.map_eq_some_iff.mp hmap
    have hplace (l : Nat) (hl : l < k) :
        place mem (addr + BitVec.ofNat 32 (j + l)) = some (r.place physAddr + l) :=
      written_byte mem.aligned ht hr (by omega)
    refine ⟨mapped_add hmapped fun l hl => ⟨_, hplace l hl⟩, fun i => ?_⟩
    rw [copyTo, List.length_map, List.length_range]
    by_cases hin : j ≤ i ∧ i < j + k
    · obtain ⟨l, rfl⟩ := Nat.exists_eq_add_of_le hin.1
      have hl : l < k := by omega
      rw [if_pos hin, if_pos hin.2, byteAt_of_place (hplace l hl), Nat.add_sub_cancel_left,
        List.getD_eq_getElem?_getD, List.getElem?_map, List.getElem?_range hl]
      rfl
    · rw [if_neg hin, hbytes]
      by_cases hi : i < j
      · rw [if_pos hi, if_pos (by omega)]
      · rw [if_neg hi, if_neg (by omega)]

/-- A mapped variable is read in full, whatever it held. -/
theorem vmemRead_of_mapped (hn : n < 2 ^ 32) (h : mapped mem addr n = true) (hi : i < n)
    (old : Nat → Byte) : vmemRead mem addr n old i = byteAt mem (addr + BitVec.ofNat 32 i) := by
  rw [vmemRead_eq hn]
  exact if_pos ⟨hi, mapped_of_le h hi⟩

end Reads

/-! ## Stores -/

section Stores

variable {mem : GuestMemory} {addr : Word} {n i x : Nat} {bytes : Nat → Byte}

theorem vmemWrite_eq_of_host (h : (vmemWrite mem addr n bytes).host = mem.host) :
    vmemWrite mem addr n bytes = mem :=
  congrArg (fun host => { mem with host := host }) h

theorem offset_add_mod (addr : Word) (i : Nat) :
    offset (addr + BitVec.ofNat 32 i) = (addr.toNat + i) % 4096 := by
  rw [offset, BitVec.toNat_add, BitVec.toNat_ofNat]
  omega

/-- The bytes of a store of at most a page are at different offsets. -/
theorem offset_inj (hn : n ≤ 4096) {j : Nat} (hi : i < n) (hj : j < n)
    (h : offset (addr + BitVec.ofNat 32 i) = offset (addr + BitVec.ofNat 32 j)) : i = j := by
  rw [offset_add_mod, offset_add_mod] at h
  omega

/-- A chunk that is stored, and where. -/
theorem chunkStep_write_some {host next : Nat → Byte} {j k : Nat} (hj : j < 2 ^ 32) (hk : 0 < k)
    (hpage : offset (addr + BitVec.ofNat 32 j) + k ≤ 4096)
    (h : chunkStep (writeCopy mem.paging mem.map bytes) addr k j host = some next) :
    ∃ start, next = putChunk start j k bytes host ∧ ∀ l, l < k →
      place { mem with host := host } (addr + BitVec.ofNat 32 (j + l)) = some (start + l) := by
  rw [chunkStep_write_eq mem.aligned hj hk hpage] at h
  obtain ⟨physAddr, ht, hmap⟩ := Option.bind_eq_some_iff.mp h
  obtain ⟨r, hr, rfl⟩ := Option.map_eq_some_iff.mp hmap
  exact ⟨_, rfl, fun l hl => written_byte mem.aligned ht hr (by omega)⟩

theorem chunkStep_write_none {host : Nat → Byte} {j k : Nat} (hj : j < 2 ^ 32) (hk : 0 < k)
    (hpage : offset (addr + BitVec.ofNat 32 j) + k ≤ 4096)
    (h : chunkStep (writeCopy mem.paging mem.map bytes) addr k j host = none) :
    place { mem with host := host } (addr + BitVec.ofNat 32 j) = none := by
  rw [chunkStep_write_eq mem.aligned hj hk hpage, Option.bind_eq_none_iff] at h
  refine place_of_fails ?_
  rw [Option.bind_eq_none_iff]
  exact fun physAddr ht => Option.map_eq_none_iff.mp (h physAddr ht)

/-- A store changes bytes at the offsets of its own. -/
theorem vmemWrite_mod (hn : n < 2 ^ 32) (hx : (vmemWrite mem addr n bytes).host x ≠ mem.host x) :
    ∃ i, i < n ∧ x % 4096 = offset (addr + BitVec.ofNat 32 i) := by
  have hspec := copied_spec (writeCopy mem.paging mem.map bytes) addr mem.host hn
    (P := fun j host => ∀ x, host x ≠ mem.host x →
      ∃ i, i < j ∧ x % 4096 = offset (addr + BitVec.ofNat 32 i))
    (fun x hx => absurd rfl hx) ?_
  · obtain ⟨j, hj, hchanged, -⟩ := hspec
    obtain ⟨i, hi, hoff⟩ := hchanged x hx
    exact ⟨i, by omega, hoff⟩
  · intro j k host next hchanged hk hle hpage hnext x hx
    obtain ⟨start, rfl, hplace⟩ := chunkStep_write_some (by omega) hk hpage hnext
    by_cases hin : start ≤ x ∧ x < start + k
    · obtain ⟨l, rfl⟩ := Nat.exists_eq_add_of_le hin.1
      exact ⟨j + l, by omega, place_mod (hplace l (by omega))⟩
    · rw [putChunk, if_neg hin] at hx
      obtain ⟨i, hi, hoff⟩ := hchanged x hx
      exact ⟨i, by omega, hoff⟩

/-- A store changes bytes of the ranges that are mapped. -/
theorem vmemWrite_within {B : Nat} (hB : ∀ r ∈ mem.map, r.data + 2 ^ 32 ≤ B) (hn : n < 2 ^ 32)
    (hx : B ≤ x) : (vmemWrite mem addr n bytes).host x = mem.host x := by
  have hspec := copied_spec (writeCopy mem.paging mem.map bytes) addr mem.host hn
    (P := fun j host => host x = mem.host x) rfl ?_
  · obtain ⟨j, -, hsame, -⟩ := hspec
    exact hsame
  · intro j k host next hsame hk hle hpage hnext
    obtain ⟨start, rfl, hplace⟩ := chunkStep_write_some (by omega) hk hpage hnext
    have hout : ¬ (start ≤ x ∧ x < start + k) := by
      intro hin
      obtain ⟨l, rfl⟩ := Nat.exists_eq_add_of_le hin.1
      have hlt := place_lt (show ∀ r ∈ ({ mem with host := host } : GuestMemory).map, _ from hB)
        (hplace l (by omega))
      omega
    rw [putChunk, if_neg hout]
    exact hsame

/-- A store that changes nothing finds the bytes that it stores, up to the first one that is
not mapped. -/
theorem vmemWrite_eq_self_iff (hn : n ≤ 4096) : vmemWrite mem addr n bytes = mem ↔
    ∀ i, i < n → mapped mem addr (i + 1) = true → byteAt mem (addr + BitVec.ofNat 32 i) = bytes i := by
  constructor
  · intro hsame
    have hspec := copied_spec (writeCopy mem.paging mem.map bytes) addr mem.host (n := n) (by omega)
      (P := fun j host => (∀ x, host x ≠ mem.host x →
          ∃ i, i < j ∧ x % 4096 = offset (addr + BitVec.ofNat 32 i)) ∧
        (host = mem.host → mapped mem addr j = true ∧
          ∀ i, i < j → byteAt mem (addr + BitVec.ofNat 32 i) = bytes i))
      ⟨fun x hx => absurd rfl hx, fun _ => ⟨rfl, fun i hi => absurd hi (Nat.not_lt_zero i)⟩⟩ ?_
    · obtain ⟨j, hj, ⟨-, hfound⟩, hfail⟩ := hspec
      have hhost : Memory.copied (writeCopy mem.paging mem.map bytes) addr n mem.host = mem.host :=
        congrArg GuestMemory.host hsame
      obtain ⟨hmapped, hbytes⟩ := hfound hhost
      intro i hi hm
      refine hbytes i (Nat.lt_of_not_le fun hji => ?_)
      obtain ⟨k, hk, hle, hpage, hnone⟩ := hfail (by omega)
      rw [hhost] at hnone
      have hthere := mapped_iff.mp hm j (by omega)
      rw [show place mem _ = none from chunkStep_write_none (by omega) hk hpage hnone] at hthere
      cases hthere
    · rintro j k host next ⟨hchanged, hfound⟩ hk hle hpage hnext
      obtain ⟨start, rfl, hplace⟩ := chunkStep_write_some (by omega) hk hpage hnext
      have hmod (l : Nat) (hl : l < k) := place_mod (hplace l hl)
      refine ⟨fun x hx => ?_, fun hput => ?_⟩
      · by_cases hin : start ≤ x ∧ x < start + k
        · obtain ⟨l, rfl⟩ := Nat.exists_eq_add_of_le hin.1
          exact ⟨j + l, by omega, hmod l (by omega)⟩
        · rw [putChunk, if_neg hin] at hx
          obtain ⟨i, hi, hoff⟩ := hchanged x hx
          exact ⟨i, by omega, hoff⟩
      · -- the chunk does not take back what has been changed before it, at other offsets
        have hhost : host = mem.host := by
          funext x
          by_contra hx
          obtain ⟨i, hi, hoff⟩ := hchanged x hx
          have hout : ¬ (start ≤ x ∧ x < start + k) := by
            intro hin
            obtain ⟨l, rfl⟩ := Nat.exists_eq_add_of_le hin.1
            have heq := offset_inj hn (by omega) (by omega) (hoff.symm.trans (hmod l (by omega)))
            omega
          have hat := congrFun hput x
          rw [putChunk, if_neg hout] at hat
          exact hx hat
        obtain ⟨hmapped, hbytes⟩ := hfound hhost
        rw [hhost] at hplace hput
        refine ⟨mapped_add hmapped fun l hl => ⟨_, hplace l hl⟩, fun i hi => ?_⟩
        rcases Nat.lt_or_ge i j with hlt | hge
        · exact hbytes i hlt
        · obtain ⟨l, rfl⟩ := Nat.exists_eq_add_of_le hge
          have hat := congrFun hput (start + l)
          rw [putChunk, if_pos (by omega), Nat.add_sub_cancel_left] at hat
          rw [byteAt_of_place (hplace l (by omega)), hat]
  · intro hbytes
    have hspec := copied_spec (writeCopy mem.paging mem.map bytes) addr mem.host (n := n)
      (by omega) (P := fun j host => host = mem.host ∧ mapped mem addr j = true) ⟨rfl, rfl⟩ ?_
    · obtain ⟨j, -, ⟨hhost, -⟩, -⟩ := hspec
      rw [vmemWrite, hhost]
    · rintro j k host next ⟨rfl, hmapped⟩ hk hle hpage hnext
      obtain ⟨start, rfl, hplace⟩ := chunkStep_write_some (by omega) hk hpage hnext
      have hall := mapped_add hmapped fun l hl => ⟨_, hplace l hl⟩
      refine ⟨?_, hall⟩
      funext x
      rw [putChunk]
      split
      · next hin =>
        obtain ⟨l, rfl⟩ := Nat.exists_eq_add_of_le hin.1
        rw [Nat.add_sub_cancel_left, ← hbytes (j + l) (by omega) (mapped_of_le hall (by omega))]
        exact byteAt_of_place (hplace l (by omega))
      · rfl

/-! ### Stores that keep the page table -/

/-- An address is translated as before when its page table entries are as before. -/
theorem place_congr {mem' : GuestMemory} (hp : mem'.paging = mem.paging) (hm : mem'.map = mem.map)
    (h : ∀ x ∈ tablePlaces mem addr, mem'.host x = mem.host x) : place mem' addr = place mem addr := by
  rw [place, place, written, written, hp, hm]
  rw [toPhysical_congr fun x hx => h x (mem_tablePlaces.mpr hx)]

/-- And it is translated with the same entries. -/
theorem tablePlaces_congr {mem' : GuestMemory} (hp : mem'.paging = mem.paging) (hm : mem'.map = mem.map)
    (h : ∀ x ∈ tablePlaces mem addr, mem'.host x = mem.host x) :
    tablePlaces mem' addr = tablePlaces mem addr := by
  have hpde : memRead32 (view mem.map mem'.host) (pdeAddr mem.paging addr) mem.paging.pde =
      memRead32 (view mem.map mem.host) (pdeAddr mem.paging addr) mem.paging.pde :=
    memRead32_congr _ _ fun x hx => h x (mem_tablePlaces.mpr (.inl hx))
  rw [tablePlaces, tablePlaces, hp, hm, hpde]

/-- The bytes that a store writes are not part of the entries that it uses. -/
def Keeps (mem : GuestMemory) (addr : Word) (n : Nat) : Prop :=
  ∀ x ∈ places mem addr n, x ∉ entries mem addr n

instance (mem : GuestMemory) (addr : Word) (n : Nat) : Decidable (Keeps mem addr n) :=
  inferInstanceAs (Decidable (∀ x ∈ places mem addr n, x ∉ entries mem addr n))

/-- Where the first `j` bytes of a store have been written, and nothing else. -/
structure Stored (mem : GuestMemory) (addr : Word) (bytes : Nat → Byte) (j : Nat) (host : Nat → Byte) :
    Prop where
  mapped : mapped mem addr j = true
  out : ∀ x, x ∉ places mem addr j → host x = mem.host x
  stored : ∀ i, i < j → ∀ x, place mem (addr + BitVec.ofNat 32 i) = some x → host x = bytes i

theorem mem_places_mono {j : Nat} (h : x ∈ places mem addr j) (hle : j ≤ n) : x ∈ places mem addr n := by
  obtain ⟨i, hi, hplace⟩ := mem_places.mp h
  exact mem_places.mpr ⟨i, by omega, hplace⟩

/-- While the store goes on, its next bytes are translated as before it. -/
theorem Stored.place_eq {host : Nat → Byte} {j : Nat} (h : Stored mem addr bytes j host)
    (hkeeps : Keeps mem addr n) (hj : j ≤ n) (hi : i < n) :
    place { mem with host := host } (addr + BitVec.ofNat 32 i) = place mem (addr + BitVec.ofNat 32 i) := by
  refine place_congr rfl rfl fun x hx => h.out x fun hplaces => ?_
  exact hkeeps x (mem_places_mono hplaces hj) (mem_entries.mpr ⟨i, hi, mem_tablePlaces.mp hx⟩)

theorem vmemWrite_stored (hn : n ≤ 4096) (hkeeps : Keeps mem addr n) (bytes : Nat → Byte) :
    ∃ j, j ≤ n ∧ Stored mem addr bytes j (vmemWrite mem addr n bytes).host ∧
      (j < n → place mem (addr + BitVec.ofNat 32 j) = none) := by
  have hspec := copied_spec (writeCopy mem.paging mem.map bytes) addr mem.host (n := n)
    (by omega) (P := Stored mem addr bytes)
    ⟨rfl, fun _ _ => rfl, fun i hi => absurd hi (Nat.not_lt_zero i)⟩ ?_
  · obtain ⟨j, hj, hstored, hfail⟩ := hspec
    refine ⟨j, hj, hstored, fun hlt => ?_⟩
    obtain ⟨k, hk, hle, hpage, hnone⟩ := hfail hlt
    rw [← hstored.place_eq hkeeps hj hlt]
    exact chunkStep_write_none (by omega) hk hpage hnone
  · intro j k host next h hk hle hpage hnext
    obtain ⟨start, rfl, hplace'⟩ := chunkStep_write_some (by omega) hk hpage hnext
    have hplace (l : Nat) (hl : l < k) : place mem (addr + BitVec.ofNat 32 (j + l)) = some (start + l) := by
      rw [← h.place_eq hkeeps (by omega) (by omega)]
      exact hplace' l hl
    refine ⟨mapped_add h.mapped fun l hl => ⟨_, hplace l hl⟩, fun x hx => ?_, fun i hi x hx => ?_⟩
    · have hout : ¬ (start ≤ x ∧ x < start + k) := by
        intro hin
        obtain ⟨l, rfl⟩ := Nat.exists_eq_add_of_le hin.1
        exact hx (mem_places.mpr ⟨j + l, by omega, hplace l (by omega)⟩)
      rw [putChunk, if_neg hout]
      exact h.out x fun hxj => hx (mem_places_mono hxj (by omega))
    · rcases Nat.lt_or_ge i j with hlt | hge
      · -- an earlier byte is not overwritten, as it is at another offset
        have hout : ¬ (start ≤ x ∧ x < start + k) := by
          intro hin
          obtain ⟨l, rfl⟩ := Nat.exists_eq_add_of_le hin.1
          have hoff := (place_mod hx).symm.trans (place_mod (hplace l (by omega)))
          have heq := offset_inj hn (by omega) (by omega) hoff
          omega
        rw [putChunk, if_neg hout]
        exact h.stored i hlt x hx
      · obtain ⟨l, rfl⟩ := Nat.exists_eq_add_of_le hge
        obtain rfl := Option.some.inj ((hplace l (by omega)).symm.trans hx)
        rw [putChunk, if_pos (by omega), Nat.add_sub_cancel_left]

/-- A store changes the places of its bytes only. -/
theorem vmemWrite_out (hn : n ≤ 4096) (hkeeps : Keeps mem addr n) (hx : x ∉ places mem addr n) :
    (vmemWrite mem addr n bytes).host x = mem.host x := by
  obtain ⟨j, hj, hstored, -⟩ := vmemWrite_stored hn hkeeps bytes
  exact hstored.out x fun hxj => hx (mem_places_mono hxj hj)

/-- An address is translated as before when the store keeps its page table entries. -/
theorem place_vmemWrite (hn : n ≤ 4096) (hkeeps : Keeps mem addr n) {b : Word}
    (hb : ∀ x ∈ places mem addr n, x ∉ tablePlaces mem b) :
    place (vmemWrite mem addr n bytes) b = place mem b :=
  place_congr rfl rfl fun x hx => vmemWrite_out hn hkeeps fun hin => hb x hin hx

/-- Its own bytes are where they were. -/
theorem Keeps.place_eq (hkeeps : Keeps mem addr n) (hn : n ≤ 4096) (hi : i < n) :
    place (vmemWrite mem addr n bytes) (addr + BitVec.ofNat 32 i) = place mem (addr + BitVec.ofNat 32 i) :=
  place_vmemWrite hn hkeeps fun x hx hb => hkeeps x hx (mem_entries.mpr ⟨i, hi, mem_tablePlaces.mp hb⟩)

/-- A store can be repeated. -/
theorem Keeps.store (hkeeps : Keeps mem addr n) (hn : n ≤ 4096) (bytes : Nat → Byte) :
    Keeps (vmemWrite mem addr n bytes) addr n := by
  intro x hx hused
  obtain ⟨i, hi, hplace⟩ := mem_places.mp hx
  rw [hkeeps.place_eq hn hi] at hplace
  obtain ⟨j, hj, hentry⟩ := mem_entries.mp hused
  have htable : tablePlaces (vmemWrite mem addr n bytes) (addr + BitVec.ofNat 32 j) =
      tablePlaces mem (addr + BitVec.ofNat 32 j) := by
    refine tablePlaces_congr rfl rfl fun y hy => vmemWrite_out hn hkeeps fun hin => ?_
    exact hkeeps y hin (mem_entries.mpr ⟨j, hj, mem_tablePlaces.mp hy⟩)
  rw [← mem_tablePlaces, htable, mem_tablePlaces] at hentry
  exact hkeeps x (mem_places.mpr ⟨i, hi, hplace⟩) (mem_entries.mpr ⟨j, hj, hentry⟩)

/-- What has been written to mapped memory is there. -/
theorem byteAt_vmemWrite {m : Nat} (hn : n ≤ 4096) (hkeeps : Keeps mem addr n)
    (hm : mapped mem addr m = true) (hle : m ≤ n) (hi : i < m) :
    byteAt (vmemWrite mem addr n bytes) (addr + BitVec.ofNat 32 i) = bytes i := by
  obtain ⟨x, hx⟩ := exists_place hm hi
  obtain ⟨j, hj, hstored, hfail⟩ := vmemWrite_stored hn hkeeps bytes
  rw [byteAt_of_place ((hkeeps.place_eq hn (by omega)).trans hx)]
  refine hstored.stored i (Nat.lt_of_not_le fun hji => ?_) x hx
  obtain ⟨y, hy⟩ := exists_place hm (show j < m by omega)
  rw [hfail (by omega)] at hy
  cases hy

end Stores

/-! ### Blocks -/

/-- An address and a size. -/
abbrev Block := Word × Nat

/-- The second memory is the first one after stores to these blocks, in this order; some of
them may have been left out. -/
inductive Writes : List Block → GuestMemory → GuestMemory → Prop where
  | refl (mem : GuestMemory) : Writes [] mem mem
  | pass {bs : List Block} {mem mem' : GuestMemory} (b : Block) (h : Writes bs mem mem') :
      Writes (b :: bs) mem mem'
  | store {bs : List Block} {mem mem' : GuestMemory} {addr : Word} {n : Nat} (bytes : Nat → Byte)
      (h : Writes bs (vmemWrite mem addr n bytes) mem') : Writes ((addr, n) :: bs) mem mem'

section Blocks

variable {bs cs : List Block} {mem mem' mem'' : GuestMemory}

theorem Writes.none (bs : List Block) (mem : GuestMemory) : Writes bs mem mem := by
  induction bs with
  | nil => exact .refl mem
  | cons b bs ih => exact .pass b ih

theorem Writes.one (mem : GuestMemory) (addr : Word) (n : Nat) (bytes : Nat → Byte) :
    Writes [(addr, n)] mem (vmemWrite mem addr n bytes) := .store bytes (.refl _)

theorem Writes.trans (h : Writes bs mem mem') (h' : Writes cs mem' mem'') :
    Writes (bs ++ cs) mem mem'' := by
  induction h with
  | refl => exact h'
  | pass b _ ih => exact .pass b (ih h')
  | store bytes _ ih => exact .store bytes (ih h')

theorem Writes.eq (h : Writes [] mem mem') : mem' = mem := by
  cases h
  rfl

/-- The second memory is the first one with other bytes in the ranges that are mapped. -/
theorem Writes.within {B : Nat} (h : Writes bs mem mem') (hB : ∀ r ∈ mem.map, r.data + 2 ^ 32 ≤ B)
    (hbs : ∀ b ∈ bs, b.2 < 2 ^ 32) :
    mem'.paging = mem.paging ∧ mem'.map = mem.map ∧ ∀ x, B ≤ x → mem'.host x = mem.host x := by
  induction h with
  | refl => exact ⟨rfl, rfl, fun _ _ => rfl⟩
  | pass b _ ih => exact ih hB fun c hc => hbs c (List.mem_cons_of_mem _ hc)
  | store bytes _ ih =>
    obtain ⟨hpaging, hmap, hhost⟩ := ih hB fun c hc => hbs c (List.mem_cons_of_mem _ hc)
    refine ⟨hpaging, hmap, fun x hx => (hhost x hx).trans ?_⟩
    exact vmemWrite_within hB (hbs _ List.mem_cons_self) hx

theorem Writes.eq_or_store {addr : Word} {n : Nat} (h : Writes [(addr, n)] mem mem') :
    mem' = mem ∨ ∃ bytes, mem' = vmemWrite mem addr n bytes := by
  cases h with
  | pass _ h => exact .inl h.eq
  | store bytes h => exact .inr ⟨bytes, h.eq⟩

end Blocks

/-! ## Descriptors -/

def edAt (mem : GuestMemory) (addr : Word) : EndpointDescriptor := readED mem addr ⟨0, 0, 0, 0⟩

def tdAt (mem : GuestMemory) (addr : Word) : TransferDescriptor := readTD mem addr fun _ => 0

def isoAt (mem : GuestMemory) (addr : Word) : IsoDescriptor := readIsoTD mem addr fun _ => 0

section Descriptors

variable {mem : GuestMemory} {addr : Word} {n : Nat}

theorem wordAt_congr {f g : Nat → Byte} {n i : Nat} (h : ∀ j, j < n → f j = g j) (hi : i + 3 < n) :
    wordAt f i = wordAt g i := by
  rw [wordAt, wordAt, h i (by omega), h (i + 1) (by omega), h (i + 2) (by omega), h (i + 3) hi]

theorem ed_ofBytes_congr {f g : Nat → Byte} (h : ∀ j, j < 16 → f j = g j) :
    EndpointDescriptor.ofBytes f = EndpointDescriptor.ofBytes g := by
  rw [EndpointDescriptor.ofBytes, EndpointDescriptor.ofBytes, wordAt_congr h (by decide),
    wordAt_congr h (by decide), wordAt_congr h (by decide), wordAt_congr h (by decide)]

theorem td_ofBytes_congr {f g : Nat → Byte} (h : ∀ j, j < 16 → f j = g j) :
    TransferDescriptor.ofBytes f = TransferDescriptor.ofBytes g := by
  rw [TransferDescriptor.ofBytes, TransferDescriptor.ofBytes, wordAt_congr h (by decide),
    wordAt_congr h (by decide), wordAt_congr h (by decide), wordAt_congr h (by decide)]

theorem readED_eq (hm : mapped mem addr 16 = true) (old : EndpointDescriptor) :
    readED mem addr old = edAt mem addr :=
  ed_ofBytes_congr fun _ hj =>
    (vmemRead_of_mapped (by decide) hm hj _).trans (vmemRead_of_mapped (by decide) hm hj _).symm

theorem readTD_eq (hm : mapped mem addr 16 = true) (old : Nat → Byte) :
    readTD mem addr old = tdAt mem addr :=
  td_ofBytes_congr fun _ hj =>
    (vmemRead_of_mapped (by decide) hm hj _).trans (vmemRead_of_mapped (by decide) hm hj _).symm

theorem wordAt_bytes (words : List Word) (k : Nat) :
    wordAt (leBytes words) (4 * k) = words.getD k 0 := le32_leBytes words k

theorem td_ofBytes_bytes (td : TransferDescriptor) : TransferDescriptor.ofBytes td.bytes = td := by
  have h0 := wordAt_bytes [td.flags, td.currentBufferPointer, td.nextTD, td.bufferEnd] 0
  have h1 := wordAt_bytes [td.flags, td.currentBufferPointer, td.nextTD, td.bufferEnd] 1
  have h2 := wordAt_bytes [td.flags, td.currentBufferPointer, td.nextTD, td.bufferEnd] 2
  have h3 := wordAt_bytes [td.flags, td.currentBufferPointer, td.nextTD, td.bufferEnd] 3
  rw [TransferDescriptor.ofBytes, TransferDescriptor.bytes]
  exact congr (congr (congr (congrArg TransferDescriptor.mk h0) h1) h2) h3

theorem Keeps.mapped_eq {bytes : Nat → Byte} {m : Nat} (hkeeps : Keeps mem addr n) (hn : n ≤ 4096)
    (hm : m ≤ n) : mapped (vmemWrite mem addr n bytes) addr m = mapped mem addr m := by
  rw [Bool.eq_iff_iff, mapped_iff, mapped_iff]
  refine forall_congr' fun i => forall_congr' fun hi => ?_
  rw [hkeeps.place_eq hn (by omega)]

/-- What a store of at least `m` bytes has written is read back in the first `m`. -/
theorem vmemRead_vmemWrite {m i : Nat} (hn : n ≤ 4096) (hkeeps : Keeps mem addr n)
    (hm : mapped mem addr m = true) (hle : m ≤ n) (hi : i < m) (bytes old : Nat → Byte) :
    vmemRead (vmemWrite mem addr n bytes) addr m old i = bytes i := by
  rw [vmemRead_of_mapped (by omega) (by rwa [hkeeps.mapped_eq hn hle]) hi]
  exact byteAt_vmemWrite hn hkeeps hm hle hi

theorem tdAt_writeTD (hkeeps : Keeps mem addr 16) (hm : mapped mem addr 16 = true)
    (td : TransferDescriptor) : tdAt (writeTD mem addr td) addr = td :=
  (td_ofBytes_congr fun _ hj => vmemRead_vmemWrite (by decide) hkeeps hm le_rfl hj _ _).trans
    (td_ofBytes_bytes td)

end Descriptors

end OpenXbox.Ohci.Layout
