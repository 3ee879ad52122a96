import OpenXbox.Loader.LogoRoundTrip

/-!
# What an import of a logo changes

The size of the headers bounds what `GetAddr` looks for in them, and it is written before the last look
for the logo. Only where a logo lies in the headers decides what else an import reaches.
-/

namespace OpenXbox.Loader.LogoFrame

open OpenXbox.Lib OpenXbox.Loader.Image OpenXbox.Loader.Logo OpenXbox.Loader.LogoRoundTrip

/-- The pointer to a byte further on. -/
def further : Pointer → Nat → Pointer
  | .header i, k => .header (i + k)
  | .headerEx i, k => .headerEx (i + k)
  | .section v i, k => .section v (i + k)

/-- `GetAddr` of an object whose header may have been written over. It looks at as many sections as the
header says; entries behind the end of the table are not followed. -/
def getAddrNow (y : Xbe) (addr : Word) : Option (Option Pointer) :=
  ({ y with sectionHeader := y.sectionHeader.take y.dwSections.toNat } : Xbe).getAddr addr

/-- The bytes of the logo are those from the pointer to it on. -/
def LogoByte (x : Xbe) (p : Pointer) : Prop :=
  ∃ q, x.getAddr x.dwLogoBitmapAddr = some (some q) ∧ ∃ k < x.dwSizeofLogoBitmap.toNat, p = further q k

/-- A byte of `dwSizeofHeaders` or of `dwSizeofLogoBitmap`. -/
def SizeByte : Pointer → Prop
  | .header i => 0x108 ≤ i ∧ i < 0x10C ∨ 0x174 ≤ i ∧ i < 0x178
  | .headerEx _ => False
  | .section _ _ => False

/-- The address is not one of the logo. -/
def Outside (x : Xbe) (addr : Word) : Prop :=
  x.dwSizeofLogoBitmap.toNat ≤ (addr - x.dwLogoBitmapAddr).toNat

/-- The addresses that were found are found where they were. -/
def Resolves (x y : Xbe) : Prop := ∀ addr, Outside x addr → ∀ p, x.getAddr addr = some (some p) →
  getAddrNow y addr = some (some p)

/-- Only the logo and the two sizes have changed. -/
structure Framed (x y : Xbe) : Prop where
  bytes : ∀ p, ¬ LogoByte x p → ¬ SizeByte p → y.deref p = x.deref p
  sectionHeader : y.sectionHeader = x.sectionHeader
  resolves : Resolves x y

def encodedSize (gray : Nat → Byte) : Word := BitVec.ofNat 32 (encodeLogo gray).length

/-- The bitmap is copied to bytes of the object. -/
def Inside (x : Xbe) (gray : Nat → Byte) : Prop :=
  ∀ y p, getLogoBitmap x (encodedSize gray) = some (y, some p) →
    ∀ k < (encodeLogo gray).length, (y.deref (further p k)).isSome

/-- The import returns. With an error it has changed nothing else, without one only the logo and the two
sizes. -/
def ImportOk (x : Xbe) (gray : Nat → Byte) : Prop :=
  ∃ y, importLogoBitmap x gray = some y ∧ (y.error = true → y = { x with error := true }) ∧
    (y.error = false → Inside x gray ∧ Framed x y)

/-- There is no logo in the headers, or none as large as the encoded bitmap. -/
def Refused (x : Xbe) (gray : Nat → Byte) : Prop :=
  x.dwLogoBitmapAddr = x.dwBaseAddr ∨ x.dwSizeofLogoBitmap = 0 ∨
    x.dwSizeofLogoBitmap.toNat < (encodeLogo gray).length ∨
      x.dwSizeofHeaders.toNat ≤ x.offset x.dwLogoBitmapAddr

/-- The block in which the logo lies has room for the encoded bitmap. Where the headers shrink so much
that the address is one of a section, this one has the bytes of the encoded bitmap already. -/
structure Room (x : Xbe) (gray : Nat → Byte) : Prop where
  header : x.offset x.dwLogoBitmapAddr < sizeofHeader →
    x.offset x.dwLogoBitmapAddr + (encodeLogo gray).length ≤ sizeofHeader
  headerEx : sizeofHeader ≤ x.offset x.dwLogoBitmapAddr →
    x.offset x.dwLogoBitmapAddr < (x.dwSizeofHeaders - x.dwSizeofLogoBitmap + encodedSize gray).toNat →
      ∃ b, x.headerEx = some b ∧ logoPlace x + (encodeLogo gray).length ≤ b.size
  section_ : sizeofHeader ≤ x.offset x.dwLogoBitmapAddr →
    (x.dwSizeofHeaders - x.dwSizeofLogoBitmap + encodedSize gray).toNat ≤ x.offset x.dwLogoBitmapAddr →
      ∃ v i, findSection x.sectionHeader x.dwLogoBitmapAddr 0 = some (v, i) ∧
        ∀ k (h : k < (encodeLogo gray).length), x.deref (.section v (i + k)) = some (encodeLogo gray)[k]

/-- The header with the new sizes, and with the encoded bitmap laid over it where the logo lies in it. -/
def laidOver (x : Xbe) (gray : Nat → Byte) : Xbe :=
  if x.offset x.dwLogoBitmapAddr < sizeofHeader then
    memcpy (resized x (encodedSize gray)) (encodeLogo gray) (.header (x.offset x.dwLogoBitmapAddr))
  else resized x (encodedSize gray)

/-- The base address is the same in both headers. What is outside of the logo and in the headers remains
in them, and what is in a section is neither in the headers then nor in a section that is not counted. -/
structure Kept (x z : Xbe) : Prop where
  base : z.dwBaseAddr = x.dwBaseAddr
  headerEx : ∀ addr, Outside x addr → sizeofHeader ≤ x.offset addr →
    x.offset addr < x.dwSizeofHeaders.toNat → x.offset addr < z.dwSizeofHeaders.toNat
  sections : ∀ addr, Outside x addr → sizeofHeader ≤ x.offset addr →
    x.dwSizeofHeaders.toNat ≤ x.offset addr → ∀ v i, findSection x.sectionHeader addr 0 = some (v, i) →
      z.dwSizeofHeaders.toNat ≤ x.offset addr ∧ v < z.dwSections.toNat

section Frame

variable {x y : Xbe} {gray : Nat → Byte} {p : Pointer}

/-- An object that has been constructed. -/
structure Loaded (x : Xbe) : Prop where
  noError : x.error = false
  sections : x.bzSection.isSome
  table : x.sectionHeader.length = x.dwSections.toNat

theorem loaded_of_construct {f : File} (h : construct f = some x) : Loaded x := by
  obtain ⟨x₀, hsections, htls⟩ := Option.bind_eq_some_iff.mp h
  obtain rfl := Addresses.readTLS_spec htls
  obtain ⟨x₁, hheaders, h⟩ := Option.bind_eq_some_iff.mp hsections
  obtain ⟨x₂, hnames, h⟩ := Option.bind_eq_some_iff.mp h
  obtain ⟨x₃, hlibraries, h⟩ := Option.bind_eq_some_iff.mp h
  obtain rfl := Addresses.readSectionNames_spec hnames
  obtain rfl := Addresses.readLibraryVersions_spec hlibraries
  obtain ⟨blocks, -, rfl⟩ := Option.map_eq_some_iff.mp h
  have htable := Addresses.headersLoaded_length hheaders
  have hnoError := Addresses.headersLoaded_noError hheaders
  exact ⟨hnoError, rfl, htable⟩

/-- An encoded bitmap is shorter than the bitmap itself. -/
theorem encodeLogo_length_lt (gray : Nat → Byte) : (encodeLogo gray).length < pixels :=
  Nat.lt_of_le_of_lt (encodeLoop_length_le gray 1) (by decide)

theorem toNat_encodedSize (gray : Nat → Byte) : (encodedSize gray).toNat = (encodeLogo gray).length := by
  have hlt := encodeLogo_length_lt gray
  unfold pixels at hlt
  rw [encodedSize, BitVec.toNat_ofNat, Nat.mod_eq_of_lt (by omega)]

/-! ## The bytes -/

section Bytes

/-- What has not been copied to is as it was. -/
theorem deref_memcpy_of_ne (y : Xbe) (bytes : List Byte) {q : Pointer}
    (h : ∀ k < bytes.length, q ≠ further p k) : (memcpy y bytes p).deref q = y.deref q := by
  have hput (buf : Nat → Byte) (i j : Nat) (hout : ∀ k < bytes.length, j ≠ i + k) :
      Buffer.put buf i bytes j = buf j := by
    by_cases hlt : j < i
    · exact Buffer.put_of_lt hlt
    · by_cases hge : i + bytes.length ≤ j
      · exact Buffer.put_of_ge hge
      · exact absurd (by omega) (hout (j - i) (by omega))
  cases p with
  | header i =>
    cases q with
    | header j =>
      have hsame := hput y.header i j fun k hk heq => h k hk (by rw [heq, further])
      simp only [memcpy, Xbe.deref, hsame]
    | headerEx j => rfl
    | «section» w j => rfl
  | headerEx i =>
    cases q with
    | header j => rfl
    | headerEx j =>
      have hsame (b : Block) := hput b.bytes i j fun k hk heq => h k hk (by rw [heq, further])
      cases hb : y.headerEx with
      | none => simp only [memcpy, Xbe.deref, hb, Option.map_none]
      | some b => simp only [memcpy, Xbe.deref, hb, Option.map_some, Option.bind_some, hsame]
    | «section» w j => rfl
  | «section» v i =>
    cases q with
    | header j => rfl
    | headerEx j => rfl
    | «section» w j =>
      cases hblocks : y.bzSection with
      | none => simp only [memcpy, Xbe.deref, hblocks, Option.map_none]
      | some blocks =>
        simp only [memcpy, Xbe.deref, hblocks, Option.map_some, Option.bind_some, List.getElem?_modify]
        by_cases hv : v = w
        · subst hv
          have hsame (b : Block) := hput b.bytes i j fun k hk heq => h k hk (by rw [heq, further])
          cases blocks[v]? with
          | none => rfl
          | some b => simp only [if_pos, Option.map_eq_map, Option.map_some, Option.bind_some, hsame]
        · simp only [if_neg hv, Option.map_eq_map, Option.map_id']

/-- What has been copied is there. -/
theorem deref_memcpy_further (y : Xbe) (bytes : List Byte) {k : Nat} (hk : k < bytes.length)
    (h : (y.deref (further p k)).isSome) : (memcpy y bytes p).deref (further p k) = some bytes[k] := by
  have hput (buf : Nat → Byte) (i : Nat) : Buffer.put buf i bytes (i + k) = bytes[k] :=
    Buffer.put_getElem hk
  cases p with
  | header i =>
    rw [further, Xbe.deref, Option.isSome_ite] at h
    rw [further, Xbe.deref, if_pos h]
    exact congrArg some (hput y.header i)
  | headerEx i =>
    cases hb : y.headerEx with
    | none =>
      rw [further, Xbe.deref, hb] at h
      cases h
    | some b =>
      rw [further, Xbe.deref, hb, Option.bind_some, Option.isSome_ite] at h
      simp only [further, memcpy, Xbe.deref, hb, Option.map_some, Option.bind_some, if_pos h, hput]
  | «section» v i =>
    cases hblocks : y.bzSection with
    | none =>
      rw [further, Xbe.deref, hblocks] at h
      cases h
    | some blocks =>
      cases hb : blocks[v]? with
      | none =>
        rw [further, Xbe.deref, hblocks, Option.bind_some, hb] at h
        cases h
      | some b =>
        rw [further, Xbe.deref, hblocks, Option.bind_some, hb, Option.bind_some, Option.isSome_ite] at h
        simp only [further, memcpy, Xbe.deref, hblocks, Option.map_some, Option.bind_some,
          List.getElem?_modify, if_pos, hb, Option.map_eq_map, if_pos h, hput]

/-- The sizes lie apart from all else. -/
theorem resized_deref (x : Xbe) (size : Word) (h : ¬ SizeByte p) :
    (resized x size).deref p = x.deref p := by
  cases p with
  | header i =>
    rw [SizeByte, not_or] at h
    have hsame : (resized x size).header i = x.header i := by
      refine (LittleEndian.store_of_out (by omega) size).trans ?_
      exact LittleEndian.store_of_out (by omega) _
    rw [Xbe.deref, Xbe.deref, hsame]
  | headerEx i => rfl
  | «section» v i => rfl

/-- A copy to the old logo changes bytes of the logo only. -/
theorem deref_of_logo {bytes : List Byte} (hplace : x.getAddr x.dwLogoBitmapAddr = some (some p))
    (hle : bytes.length ≤ x.dwSizeofLogoBitmap.toNat) (size : Word) {q : Pointer}
    (hlogo : ¬ LogoByte x q) (hsize : ¬ SizeByte q) :
    (memcpy (resized x size) bytes p).deref q = x.deref q := by
  refine (deref_memcpy_of_ne _ bytes fun k hk heq => ?_).trans (resized_deref x size hsize)
  exact hlogo ⟨p, hplace, k, by omega, heq⟩

end Bytes

/-! ## The addresses -/

section Resolved

variable {addr : Word}

/-- The address has its place in the headers, or in the first section that holds it. -/
def Found (x : Xbe) (addr : Word) : Pointer → Prop
  | .header i => x.offset addr = i ∧ i < sizeofHeader
  | .headerEx i => x.offset addr = sizeofHeader + i ∧ x.offset addr < x.dwSizeofHeaders.toNat
  | .section v i => sizeofHeader ≤ x.offset addr ∧ x.dwSizeofHeaders.toNat ≤ x.offset addr ∧
    findSection x.sectionHeader addr 0 = some (v, i)

theorem getAddr_header (h : x.offset addr < sizeofHeader) :
    x.getAddr addr = some (some (.header (x.offset addr))) := if_pos h

theorem getAddr_section (hsections : x.bzSection.isSome) (hafter : sizeofHeader ≤ x.offset addr)
    (hpast : x.dwSizeofHeaders.toNat ≤ x.offset addr) : x.getAddr addr =
      some ((findSection x.sectionHeader addr 0).map fun place => .section place.1 place.2) := by
  rw [Xbe.getAddr, if_neg (Nat.not_lt.mpr hafter), if_neg (Nat.not_lt.mpr hpast)]
  cases findSection x.sectionHeader addr 0 with
  | none => rfl
  | some place => exact if_pos hsections

theorem getAddr_iff (hsections : x.bzSection.isSome) :
    x.getAddr addr = some (some p) ↔ Found x addr p := by
  by_cases hheader : x.offset addr < sizeofHeader
  · rw [getAddr_header hheader]
    cases p <;> simp only [Option.some.injEq, Pointer.header.injEq, reduceCtorEq, false_iff, Found] <;> omega
  · have hafter := Nat.le_of_not_lt hheader
    by_cases hheaderEx : x.offset addr < x.dwSizeofHeaders.toNat
    · rw [getAddr_headerEx hafter hheaderEx]
      cases p <;> simp only [Option.some.injEq, Pointer.headerEx.injEq, reduceCtorEq, false_iff, Found] <;> omega
    · have hpast := Nat.le_of_not_lt hheaderEx
      rw [getAddr_section hsections hafter hpast, Option.some.injEq, Option.map_eq_some_iff]
      cases p with
      | header i =>
        refine iff_of_false (fun ⟨_, _, hno⟩ => by cases hno) ?_
        rintro ⟨rfl, hin⟩
        exact hheader hin
      | headerEx i => exact iff_of_false (fun ⟨_, _, hno⟩ => by cases hno) fun h => hheaderEx h.2
      | «section» v i =>
        rw [Found, and_iff_right hafter, and_iff_right hpast]
        simp

/-- A section is found as long as it is counted. -/
theorem findSection_take_iff {sections : List SectionHeader} {k n v i : Nat}
    (h : findSection sections addr k = some (v, i)) :
    findSection (sections.take n) addr k = some (v, i) ↔ v < k + n := by
  induction sections generalizing k n with
  | nil => cases h
  | cons s rest ih =>
    cases n with
    | zero =>
      have hle := (Addresses.findSection_spec h).1
      exact iff_of_false (fun hno => by cases hno) (by omega)
    | succ n =>
      rw [findSection] at h
      rw [List.take_succ_cons, findSection]
      split
      · next hholds =>
        rw [if_pos hholds] at h
        cases h
        exact iff_of_true rfl (by omega)
      · next hholds =>
        rw [if_neg hholds] at h
        rw [ih h]
        omega

/-- With the same sections behind it only the header decides what is found. -/
theorem resolves_iff_found (hx : x.bzSection.isSome) (hy : y.bzSection.isSome) :
    Resolves x y ↔ ∀ addr, Outside x addr → ∀ p, Found x addr p →
      Found { y with sectionHeader := y.sectionHeader.take y.dwSections.toNat } addr p := by
  refine forall_congr' fun addr => imp_congr_right fun _ => forall_congr' fun p => ?_
  exact imp_congr (getAddr_iff hx) (getAddr_iff hy)

/-- The byte before the logo is in the headers, and tells the base address. -/
theorem base_of_resolves (hstart : x.dwLogoBitmapAddr ≠ x.dwBaseAddr)
    (hin : x.offset x.dwLogoBitmapAddr < x.dwSizeofHeaders.toNat)
    (h : ∀ addr, Outside x addr → ∀ p, Found x addr p →
      Found { y with sectionHeader := y.sectionHeader.take y.dwSections.toNat } addr p) :
    y.dwBaseAddr = x.dwBaseAddr := by
  have houtside : Outside x (x.dwLogoBitmapAddr - 1) := by
    unfold Outside
    bv_omega
  have hbefore : x.offset (x.dwLogoBitmapAddr - 1) < x.dwSizeofHeaders.toNat := by
    unfold Xbe.offset at hin ⊢
    bv_omega
  have hsame : y.offset (x.dwLogoBitmapAddr - 1) = x.offset (x.dwLogoBitmapAddr - 1) := by
    by_cases hheader : x.offset (x.dwLogoBitmapAddr - 1) < sizeofHeader
    · exact (h _ houtside (.header _) ⟨rfl, hheader⟩).1
    · have hplace : x.offset (x.dwLogoBitmapAddr - 1) =
          sizeofHeader + (x.offset (x.dwLogoBitmapAddr - 1) - sizeofHeader) := by omega
      exact (h _ houtside (.headerEx _) ⟨hplace, hbefore⟩).1.trans hplace.symm
  have hword := BitVec.eq_of_toNat_eq hsame
  exact (BitVec.sub_right_inj _).mp hword

theorem resolves_iff (hstart : x.dwLogoBitmapAddr ≠ x.dwBaseAddr)
    (hin : x.offset x.dwLogoBitmapAddr < x.dwSizeofHeaders.toNat) (hx : x.bzSection.isSome)
    (hy : y.bzSection.isSome) (htable : y.sectionHeader = x.sectionHeader) :
    Resolves x y ↔ Kept x y := by
  rw [resolves_iff_found hx hy]
  constructor
  · intro h
    have hbase := base_of_resolves hstart hin h
    have hoffset (addr : Word) : y.offset addr = x.offset addr := by rw [Xbe.offset, Xbe.offset, hbase]
    refine ⟨hbase, fun addr hout hafter hheaders => ?_, fun addr hout hafter hheaders v i hfind => ?_⟩
    · have hplace : x.offset addr = sizeofHeader + (x.offset addr - sizeofHeader) := by omega
      rw [← hoffset addr]
      exact (h addr hout (.headerEx _) ⟨hplace, hheaders⟩).2
    · obtain ⟨-, hpast, hcounted⟩ := h addr hout (.section v i) ⟨hafter, hheaders, hfind⟩
      rw [← hoffset addr]
      refine ⟨hpast, ?_⟩
      dsimp only at hcounted
      rw [htable, findSection_take_iff hfind, Nat.zero_add] at hcounted
      exact hcounted
  · intro kept addr hout p hfound
    have hoffset : y.offset addr = x.offset addr := by rw [Xbe.offset, Xbe.offset, kept.base]
    cases p with
    | header i => exact ⟨hoffset.trans hfound.1, hfound.2⟩
    | headerEx i =>
      obtain ⟨hplace, hheaders⟩ := hfound
      refine ⟨hoffset.trans hplace, ?_⟩
      show y.offset addr < y.dwSizeofHeaders.toNat
      rw [hoffset]
      exact kept.headerEx addr hout (by omega) hheaders
    | «section» v i =>
      obtain ⟨hafter, hheaders, hfind⟩ := hfound
      obtain ⟨hpast, hcounted⟩ := kept.sections addr hout hafter hheaders v i hfind
      refine ⟨hoffset ▸ hafter, hoffset ▸ hpast, ?_⟩
      dsimp only
      rw [htable, findSection_take_iff hfind]
      omega

/-- Only the header matters. -/
theorem Kept.congr {z : Xbe} (kept : Kept x y) (h : z.header = y.header) : Kept x z := by
  have hfield (offset : Nat) : z.field offset = y.field offset := by rw [Xbe.field, Xbe.field, h]
  have hheaders : z.dwSizeofHeaders = y.dwSizeofHeaders := hfield _
  have hsections : z.dwSections = y.dwSections := hfield _
  refine ⟨(hfield _).trans kept.base, ?_, ?_⟩
  · rw [hheaders]
    exact kept.headerEx
  · rw [hheaders, hsections]
    exact kept.sections

end Resolved

/-! ## How an import ends -/

section Import

/-- The header shows whether the bitmap has been laid over it. -/
theorem laidOver_of_lt (h : x.offset x.dwLogoBitmapAddr < sizeofHeader) : laidOver x gray =
    memcpy (resized x (encodedSize gray)) (encodeLogo gray) (.header (x.offset x.dwLogoBitmapAddr)) :=
  if_pos h

theorem laidOver_of_le (h : sizeofHeader ≤ x.offset x.dwLogoBitmapAddr) :
    laidOver x gray = resized x (encodedSize gray) := if_neg (Nat.not_lt.mpr h)

theorem getLogoBitmap_of_refused (h : Refused x gray) :
    getLogoBitmap x (encodedSize gray) = some (x, none) := by
  rw [getLogoBitmap]
  dsimp only
  split
  · rfl
  · next hnone =>
    rw [not_or] at hnone
    refine if_neg fun hroom => ?_
    obtain hstart | hempty | hsmall | hout := h
    · exact hnone.1 (hstart ▸ BitVec.sub_self _)
    · exact hnone.2 hempty
    · have hle := BitVec.le_def.mp hroom.1
      rw [toNat_encodedSize] at hle
      omega
    · have hlt := BitVec.lt_def.mp hroom.2
      unfold Xbe.offset at hout
      omega

theorem getLogoBitmap_of_not_refused (h : ¬ Refused x gray) :
    getLogoBitmap x (encodedSize gray) =
      ((resized x (encodedSize gray)).getAddr (resized x (encodedSize gray)).dwLogoBitmapAddr).map
        fun p => (resized x (encodedSize gray), p) := by
  rw [Refused, not_or, not_or, not_or] at h
  obtain ⟨hstart, hempty, hsmall, hout⟩ := h
  have hsome : ¬ (x.dwLogoBitmapAddr - x.dwBaseAddr = 0 ∨ x.dwSizeofLogoBitmap = 0) := by
    rintro (hzero | hzero)
    · exact hstart (by bv_omega)
    · exact hempty hzero
  have hroom : x.dwSizeofLogoBitmap ≥ encodedSize gray ∧
      x.dwLogoBitmapAddr - x.dwBaseAddr < x.dwSizeofHeaders := by
    refine ⟨BitVec.le_def.mpr ?_, BitVec.lt_def.mpr (Nat.lt_of_not_le hout)⟩
    rw [toNat_encodedSize]
    omega
  rw [getLogoBitmap, if_neg hsome, if_pos hroom]
  rfl

theorem importOk_iff (h : importLogoBitmap x gray = some y) : ImportOk x gray ↔
    (y.error = true → y = { x with error := true }) ∧
      (y.error = false → Inside x gray ∧ Framed x y) := by
  constructor
  · rintro ⟨z, hz, hok⟩
    cases h.symm.trans hz
    exact hok
  · exact fun hok => ⟨y, h, hok⟩

/-- An import that is refused changes nothing. -/
theorem importOk_of_refused (h : Refused x gray) : ImportOk x gray := by
  have himport : importLogoBitmap x gray = some { x with error := true } :=
    congrArg (Option.map _) (getLogoBitmap_of_refused h)
  exact (importOk_iff himport).mpr ⟨fun _ => rfl, fun hno => by cases hno⟩

/-- A null pointer after the sizes have been written. -/
theorem importOk_null_iff
    (h : getLogoBitmap x (encodedSize gray) = some (resized x (encodedSize gray), none)) :
    ImportOk x gray ↔ (resized x (encodedSize gray)).header = x.header := by
  have himport : importLogoBitmap x gray = some { resized x (encodedSize gray) with error := true } :=
    congrArg (Option.map _) h
  rw [importOk_iff himport]
  constructor
  · rintro ⟨hfailed, -⟩
    have hsame := congrArg Xbe.header (hfailed rfl)
    exact hsame
  · intro hsame
    refine ⟨fun _ => ?_, fun hno => by cases hno⟩
    exact congrArg (fun header => { x with header := header, error := true }) hsame

/-- The bitmap is copied to a pointer. -/
theorem importOk_copy_iff (loaded : Loaded x)
    (h : getLogoBitmap x (encodedSize gray) = some (resized x (encodedSize gray), some p)) :
    ImportOk x gray ↔
      (∀ k < (encodeLogo gray).length, ((resized x (encodedSize gray)).deref (further p k)).isSome) ∧
        Framed x (memcpy (resized x (encodedSize gray)) (encodeLogo gray) p) := by
  have himport : importLogoBitmap x gray =
      some (memcpy (resized x (encodedSize gray)) (encodeLogo gray) p) := congrArg (Option.map _) h
  have hnoError : (memcpy (resized x (encodedSize gray)) (encodeLogo gray) p).error = false := by
    cases p <;> exact loaded.noError
  rw [importOk_iff himport, hnoError]
  constructor
  · rintro ⟨-, hdone⟩
    obtain ⟨hinside, hframed⟩ := hdone rfl
    exact ⟨hinside _ p h, hframed⟩
  · rintro ⟨hinside, hframed⟩
    refine ⟨fun herror => (by cases herror), fun _ => ⟨fun y q hget => ?_, hframed⟩⟩
    cases h.symm.trans hget
    exact hinside

theorem not_refused (h : ¬ Refused x gray) : x.dwLogoBitmapAddr ≠ x.dwBaseAddr ∧
    (encodeLogo gray).length ≤ x.dwSizeofLogoBitmap.toNat ∧
      x.offset x.dwLogoBitmapAddr < x.dwSizeofHeaders.toNat := by
  rw [Refused, not_or, not_or, not_or] at h
  exact ⟨h.1, Nat.le_of_not_lt h.2.2.1, Nat.lt_of_not_le h.2.2.2⟩

theorem resized_logoAddr (x : Xbe) (size : Word) :
    (resized x size).dwLogoBitmapAddr = x.dwLogoBitmapAddr := resized_field x size (by decide)

theorem resized_offset_logo (x : Xbe) (size : Word) :
    (resized x size).offset x.dwLogoBitmapAddr = x.offset x.dwLogoBitmapAddr := by
  have hbase : (resized x size).dwBaseAddr = x.dwBaseAddr := resized_field x size (by decide)
  rw [Xbe.offset, hbase, Xbe.offset]

/-- Where the address is found once the sizes have been written. -/
theorem getLogoBitmap_of_found (loaded : Loaded x) (h : ¬ Refused x gray)
    (hfound : Found (resized x (encodedSize gray)) x.dwLogoBitmapAddr p) :
    getLogoBitmap x (encodedSize gray) = some (resized x (encodedSize gray), some p) := by
  have hsections : (resized x (encodedSize gray)).bzSection.isSome := loaded.sections
  rw [getLogoBitmap_of_not_refused h, resized_logoAddr, (getAddr_iff hsections).mpr hfound, Option.map_some]

theorem resolves_memcpy_iff (loaded : Loaded x) (h : ¬ Refused x gray) (size : Word) (p : Pointer) :
    Resolves x (memcpy (resized x size) (encodeLogo gray) p) ↔
      Kept x (memcpy (resized x size) (encodeLogo gray) p) := by
  obtain ⟨hstart, -, hin⟩ := not_refused h
  refine resolves_iff hstart hin loaded.sections ?_ ?_
  · cases p with
    | header i => exact loaded.sections
    | headerEx i => exact loaded.sections
    | «section» v i => exact (Option.isSome_map ..).trans loaded.sections
  · cases p <;> rfl

/-- A copy to where the logo was found before. -/
theorem framed_iff_of_logo (loaded : Loaded x) (h : ¬ Refused x gray)
    (hplace : x.getAddr x.dwLogoBitmapAddr = some (some p)) (size : Word) :
    Framed x (memcpy (resized x size) (encodeLogo gray) p) ↔
      Kept x (memcpy (resized x size) (encodeLogo gray) p) := by
  rw [← resolves_memcpy_iff loaded h]
  refine ⟨Framed.resolves, fun hresolves => ⟨fun q => ?_, ?_, hresolves⟩⟩
  · exact deref_of_logo hplace (not_refused h).2.1 size
  · cases p <;> rfl

/-- Nothing is laid over the header when the logo lies behind it. -/
theorem kept_laidOver_iff (hafter : sizeofHeader ≤ x.offset x.dwLogoBitmapAddr)
    (h : y.header = (resized x (encodedSize gray)).header) : Kept x y ↔ Kept x (laidOver x gray) := by
  rw [laidOver_of_le hafter]
  exact ⟨fun kept => kept.congr h.symm, fun kept => kept.congr h⟩

/-- A range is in a block when its last place is. -/
theorem forall_add_lt_iff {i len size : Nat} (hpos : 0 < len) :
    (∀ k < len, i + k < size) ↔ i + len ≤ size := by
  constructor
  · intro hall
    have hlast := hall (len - 1) (by omega)
    omega
  · intro hle k hk
    omega

/-- The logo lies in the image header. -/
theorem importOk_header_iff (loaded : Loaded x) (h : ¬ Refused x gray)
    (hheader : x.offset x.dwLogoBitmapAddr < sizeofHeader) :
    ImportOk x gray ↔ Room x gray ∧ Kept x (laidOver x gray) := by
  have hpos := encodeLogo_pos gray
  have hplace : x.getAddr x.dwLogoBitmapAddr = some (some (.header (x.offset x.dwLogoBitmapAddr))) :=
    (getAddr_iff loaded.sections).mpr ⟨rfl, hheader⟩
  have hget := getLogoBitmap_of_found loaded h
    (show Found _ _ (.header (x.offset x.dwLogoBitmapAddr)) from ⟨resized_offset_logo x _, hheader⟩)
  have hroom : Room x gray ↔
      x.offset x.dwLogoBitmapAddr + (encodeLogo gray).length ≤ sizeofHeader := by
    refine ⟨fun room => room.header hheader, fun hle => ⟨fun _ => hle, ?_, ?_⟩⟩
    · exact fun hafter => absurd hheader (Nat.not_lt.mpr hafter)
    · exact fun hafter => absurd hheader (Nat.not_lt.mpr hafter)
  rw [importOk_copy_iff loaded hget, framed_iff_of_logo loaded h hplace, ← laidOver_of_lt hheader, hroom]
  refine and_congr_left fun _ => ?_
  simp only [further, Xbe.deref, Option.isSome_ite]
  exact forall_add_lt_iff hpos

/-- The logo lies in the bytes after the header, and still does when the headers have shrunk. -/
theorem importOk_headerEx_iff (loaded : Loaded x) (h : ¬ Refused x gray)
    (hafter : sizeofHeader ≤ x.offset x.dwLogoBitmapAddr)
    (hin : x.offset x.dwLogoBitmapAddr <
      (x.dwSizeofHeaders - x.dwSizeofLogoBitmap + encodedSize gray).toNat) :
    ImportOk x gray ↔ Room x gray ∧ Kept x (laidOver x gray) := by
  have hpos := encodeLogo_pos gray
  have hoffset : x.offset x.dwLogoBitmapAddr = sizeofHeader + logoPlace x := by
    rw [logoPlace]
    omega
  have hplace : x.getAddr x.dwLogoBitmapAddr = some (some (.headerEx (logoPlace x))) :=
    (getAddr_iff loaded.sections).mpr ⟨hoffset, (not_refused h).2.2⟩
  have hget := getLogoBitmap_of_found loaded h (show Found _ _ (.headerEx (logoPlace x)) by
    refine ⟨(resized_offset_logo x _).trans hoffset, ?_⟩
    rwa [resized_offset_logo, resized_headers])
  have hroom : Room x gray ↔
      ∃ b, x.headerEx = some b ∧ logoPlace x + (encodeLogo gray).length ≤ b.size := by
    refine ⟨fun room => room.headerEx hafter hin, fun hblock => ⟨?_, fun _ _ => hblock, ?_⟩⟩
    · exact fun hlt => absurd hlt (Nat.not_lt.mpr hafter)
    · exact fun _ hout => absurd hin (Nat.not_lt.mpr hout)
  rw [importOk_copy_iff loaded hget, framed_iff_of_logo loaded h hplace, kept_laidOver_iff hafter (by rfl), hroom]
  refine and_congr_left fun _ => ?_
  show (∀ k < _, (x.deref (.headerEx (logoPlace x + k))).isSome) ↔ _
  cases hb : x.headerEx with
  | none =>
    refine iff_of_false (fun hall => ?_) fun hno => ?_
    · have hfirst := hall 0 hpos
      rw [Xbe.deref, hb] at hfirst
      cases hfirst
    · obtain ⟨b, hno, -⟩ := hno
      cases hno
  | some b =>
    simp only [Xbe.deref, hb, Option.bind_some, Option.isSome_ite]
    rw [forall_add_lt_iff hpos]
    simp

section Shrunk

variable (h : ¬ Refused x gray) (hafter : sizeofHeader ≤ x.offset x.dwLogoBitmapAddr)
  (hout : (x.dwSizeofHeaders - x.dwSizeofLogoBitmap + encodedSize gray).toNat ≤
    x.offset x.dwLogoBitmapAddr)

include h hafter hout

/-- The headers have shrunk so much that the address is one of no section: the sizes remain written. -/
theorem importOk_null (hfind : findSection x.sectionHeader x.dwLogoBitmapAddr 0 = none) :
    ¬ ImportOk x gray := by
  have hget : getLogoBitmap x (encodedSize gray) = some (resized x (encodedSize gray), none) := by
    have hheader : ¬ (resized x (encodedSize gray)).offset x.dwLogoBitmapAddr < sizeofHeader := by
      rw [resized_offset_logo]
      exact Nat.not_lt.mpr hafter
    have hheaderEx : ¬ (resized x (encodedSize gray)).offset x.dwLogoBitmapAddr <
        (resized x (encodedSize gray)).dwSizeofHeaders.toNat := by
      rw [resized_offset_logo, resized_headers]
      exact Nat.not_lt.mpr hout
    have hnone : findSection (resized x (encodedSize gray)).sectionHeader x.dwLogoBitmapAddr 0 = none :=
      hfind
    rw [getLogoBitmap_of_not_refused h, resized_logoAddr, Xbe.getAddr, if_neg hheader, if_neg hheaderEx, hnone]
    rfl
  rw [importOk_null_iff hget]
  intro hsame
  have hheaders : (resized x (encodedSize gray)).dwSizeofHeaders = x.dwSizeofHeaders := by
    rw [Xbe.dwSizeofHeaders, Xbe.field, hsame, Xbe.dwSizeofHeaders, Xbe.field]
  rw [resized_headers] at hheaders
  have hin := (not_refused h).2.2
  rw [hheaders] at hout
  omega

/-- The address is one of a section then. -/
theorem importOk_section_iff (loaded : Loaded x) {v i : Nat}
    (hfind : findSection x.sectionHeader x.dwLogoBitmapAddr 0 = some (v, i)) :
    ImportOk x gray ↔ Room x gray ∧ Kept x (laidOver x gray) := by
  have hget := getLogoBitmap_of_found loaded h (show Found _ _ (.section v i) by
    rw [Found, resized_offset_logo, resized_headers]
    exact ⟨hafter, hout, hfind⟩)
  have hroom : Room x gray ↔ ∀ k (hk : k < (encodeLogo gray).length),
      x.deref (.section v (i + k)) = some (encodeLogo gray)[k] := by
    constructor
    · intro room
      obtain ⟨w, j, hplace, hbytes⟩ := room.section_ hafter hout
      cases hfind.symm.trans hplace
      exact hbytes
    · refine fun hbytes => ⟨?_, ?_, fun _ _ => ⟨v, i, hfind, hbytes⟩⟩
      · exact fun hlt => absurd hlt (Nat.not_lt.mpr hafter)
      · exact fun _ hlt => absurd hlt (Nat.not_lt.mpr hout)
  have hplace : x.getAddr x.dwLogoBitmapAddr = some (some (.headerEx (logoPlace x))) :=
    getAddr_headerEx hafter (not_refused h).2.2
  have hkept : Kept x (memcpy (resized x (encodedSize gray)) (encodeLogo gray) (.section v i)) ↔
      Kept x (laidOver x gray) := kept_laidOver_iff hafter (by rfl)
  rw [importOk_copy_iff loaded hget, hroom, ← hkept, ← resolves_memcpy_iff loaded h]
  constructor
  · rintro ⟨hinside, hframed⟩
    refine ⟨fun k hk => ?_, hframed.resolves⟩
    have hlogo : ¬ LogoByte x (.section v (i + k)) := by
      rintro ⟨q, hq, l, -, heq⟩
      cases hplace.symm.trans hq
      cases heq
    rw [← hframed.bytes _ hlogo id]
    exact deref_memcpy_further _ _ hk (hinside k hk)
  · rintro ⟨hbytes, hresolves⟩
    have hinside : ∀ k < (encodeLogo gray).length,
        ((resized x (encodedSize gray)).deref (further (.section v i) k)).isSome := by
      intro k hk
      show (x.deref (.section v (i + k))).isSome
      rw [hbytes k hk]
      rfl
    refine ⟨hinside, fun q _ hsize => ?_, rfl, hresolves⟩
    by_cases hcopied : ∃ k < (encodeLogo gray).length, q = further (.section v i) k
    · obtain ⟨k, hk, rfl⟩ := hcopied
      rw [deref_memcpy_further _ _ hk (hinside k hk)]
      exact (hbytes k hk).symm
    · refine (deref_memcpy_of_ne _ _ fun k hk heq => hcopied ⟨k, hk, heq⟩).trans ?_
      exact resized_deref x _ hsize

end Shrunk

theorem importOk_iff_of_loaded (loaded : Loaded x) :
    ImportOk x gray ↔ Refused x gray ∨ Room x gray ∧ Kept x (laidOver x gray) := by
  by_cases h : Refused x gray
  · exact iff_of_true (importOk_of_refused h) (Or.inl h)
  · rw [or_iff_right h]
    by_cases hheader : x.offset x.dwLogoBitmapAddr < sizeofHeader
    · exact importOk_header_iff loaded h hheader
    · have hafter := Nat.le_of_not_lt hheader
      by_cases hin : x.offset x.dwLogoBitmapAddr <
          (x.dwSizeofHeaders - x.dwSizeofLogoBitmap + encodedSize gray).toNat
      · exact importOk_headerEx_iff loaded h hafter hin
      · have hout := Nat.le_of_not_lt hin
        cases hfind : findSection x.sectionHeader x.dwLogoBitmapAddr 0 with
        | some place => exact importOk_section_iff h hafter hout loaded hfind
        | none =>
          refine iff_of_false (importOk_null h hafter hout hfind) fun hok => ?_
          obtain ⟨v, i, hplace, -⟩ := hok.1.section_ hafter hout
          cases hfind.symm.trans hplace

end Import

/-! ## Where the logo lies -/

section Places

/-- Nothing is lost where the logo is the last thing in the headers. -/
theorem kept_of_last (loaded : Loaded x) (fits : (encodeLogo gray).length ≤ x.dwSizeofLogoBitmap.toNat)
    (hafter : sizeofHeader ≤ x.offset x.dwLogoBitmapAddr)
    (hlast : x.offset x.dwLogoBitmapAddr + x.dwSizeofLogoBitmap.toNat = x.dwSizeofHeaders.toNat) :
    Kept x (laidOver x gray) := by
  have hsize := toNat_encodedSize gray
  have hpos := encodeLogo_pos gray
  have hbase : (resized x (encodedSize gray)).dwBaseAddr = x.dwBaseAddr := resized_field x _ (by decide)
  have hsections : (resized x (encodedSize gray)).dwSections = x.dwSections :=
    resized_field x _ (by decide)
  have hheaders : (x.dwSizeofHeaders - x.dwSizeofLogoBitmap + encodedSize gray).toNat =
      x.offset x.dwLogoBitmapAddr + (encodeLogo gray).length := by bv_omega
  rw [laidOver_of_le hafter]
  refine ⟨hbase, fun addr hout _ hin => ?_, fun addr hout _ hpast v i hfind => ⟨?_, ?_⟩⟩
  · rw [resized_headers, hheaders]
    unfold Outside at hout
    unfold Xbe.offset at hin hlast ⊢
    bv_omega
  · rw [resized_headers, hheaders]
    omega
  · obtain ⟨-, s, hat, -⟩ := Addresses.findSection_spec hfind
    obtain ⟨hlt, -⟩ := List.getElem?_eq_some_iff.mp hat
    rw [hsections, ← loaded.table]
    omega

theorem room_of_last {f : File} (file : Addresses.FromFile f x)
    (fits : (encodeLogo gray).length ≤ x.dwSizeofLogoBitmap.toNat)
    (hafter : sizeofHeader ≤ x.offset x.dwLogoBitmapAddr)
    (hlast : x.offset x.dwLogoBitmapAddr + x.dwSizeofLogoBitmap.toNat = x.dwSizeofHeaders.toNat) :
    Room x gray := by
  have hsize := toNat_encodedSize gray
  have hpos := encodeLogo_pos gray
  have hheaders : (x.dwSizeofHeaders - x.dwSizeofLogoBitmap + encodedSize gray).toNat =
      x.offset x.dwLogoBitmapAddr + (encodeLogo gray).length := by bv_omega
  refine ⟨fun hlt => ?_, fun _ _ => ?_, fun _ hout => ?_⟩
  · omega
  · obtain ⟨b, hb, hroom, -⟩ := file.headerEx (by omega)
    refine ⟨b, hb, ?_⟩
    rw [logoPlace]
    omega
  · omega

/-- Where something follows the logo in the headers, a smaller bitmap moves its end out of them. -/
theorem not_importOk_of_followed (loaded : Loaded x)
    (fits : (encodeLogo gray).length < x.dwSizeofLogoBitmap.toNat)
    (hafter : sizeofHeader ≤ x.offset x.dwLogoBitmapAddr)
    (hfollowed : x.offset x.dwLogoBitmapAddr + x.dwSizeofLogoBitmap.toNat < x.dwSizeofHeaders.toNat) :
    ¬ ImportOk x gray := by
  have hsize := toNat_encodedSize gray
  rw [importOk_iff_of_loaded loaded]
  rintro (hrefused | ⟨-, kept⟩)
  · obtain hstart | hempty | hsmall | hout := hrefused
    · rw [Xbe.offset, hstart, BitVec.sub_self] at hafter
      exact absurd hafter (by decide)
    · rw [hempty] at fits
      exact absurd fits (Nat.not_lt_zero _)
    · omega
    · omega
  · have hend := kept.headerEx (x.dwBaseAddr + x.dwSizeofHeaders - 1)
    rw [laidOver_of_le hafter, resized_headers] at hend
    unfold Outside at hend
    unfold Xbe.offset at hend hafter hfollowed
    unfold sizeofHeader at hend hafter
    bv_omega

end Places

/-- An import keeps to the logo and to the two sizes exactly when it is refused at once, or when there is
room for the bitmap where the logo is and the header that it leaves still gives every other address its
place. -/
theorem import_frame_iff (f : File) (x : Xbe) (gray : Nat → Byte) (constructed : construct f = some x) :
    ImportOk x gray ↔ Refused x gray ∨ Room x gray ∧ Kept x (laidOver x gray) :=
  importOk_iff_of_loaded (loaded_of_construct constructed)

/-- In an image whose headers end with its logo. -/
theorem last_logo_framed : ∃ x, construct logoImage = some x ∧ ImportOk x fun _ => 0 := by
  obtain ⟨x, hx, -, hoffset, hsize, hheaders⟩ := logoImage_loaded
  have hfile := Addresses.fromFile_of_call (.caller hx 0)
  have hfits : (encodeLogo fun _ => 0).length ≤ x.dwSizeofLogoBitmap.toNat := by
    rw [hsize]
    exact Nat.le_of_lt (encodeLogo_length_lt _)
  have hafter : sizeofHeader ≤ x.offset x.dwLogoBitmapAddr := by
    rw [hoffset]
    decide
  refine ⟨x, hx, (import_frame_iff logoImage x _ hx).mpr (Or.inr ⟨?_, ?_⟩)⟩
  · exact room_of_last hfile hfits hafter (by omega)
  · exact kept_of_last (loaded_of_construct hx) hfits hafter (by omega)

/-- The image with its headers four bytes longer. -/
def paddedImage : File where
  bytes i := if i = 0x108 then 0x20 else logoImage.bytes i
  size := 0x1000

/-- The four bytes behind the logo are not found any more. -/
theorem bytes_behind_logo_lost :
    ¬ ∀ (f : File) (x : Xbe) (gray : Nat → Byte), construct f = some x → ImportOk x gray := by
  intro h
  have hsome : (construct paddedImage).isSome := by decide
  obtain ⟨x, hx⟩ := Option.isSome_iff_exists.mp hsome
  have hfields : (construct paddedImage).map (fun x => (x.offset x.dwLogoBitmapAddr,
      x.dwSizeofLogoBitmap.toNat, x.dwSizeofHeaders.toNat)) = some (0x178, 1700, 0x820) := by
    decide
  rw [hx, Option.map_some, Option.some.injEq, Prod.mk.injEq, Prod.mk.injEq] at hfields
  obtain ⟨hoffset, hsize, hheaders⟩ := hfields
  refine not_importOk_of_followed (loaded_of_construct hx) ?_ ?_ ?_ (h paddedImage x (fun _ => 0) hx)
  · rw [hsize]
    exact encodeLogo_length_lt _
  · rw [hoffset]
    decide
  · omega

end Frame

end OpenXbox.Loader.LogoFrame
