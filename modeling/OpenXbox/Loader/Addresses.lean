import OpenXbox.Loader.Image

/-!
# Addresses resolve into the file

A pointer that is found for an address has to be to a byte that was read from the file, and to the
one that the tables give the address. The headers keep to this. A section does while its raw data is
there and as long as the address is not past the end of it.
-/

namespace OpenXbox.Loader.Addresses

open OpenXbox.Lib OpenXbox.Loader.Image

/-- The calls of `GetAddr`: for the names of the sections, in order and as long as none of them has
crashed, for the thread local storage, and for any address after a successful construction. -/
inductive Call (f : File) : Xbe → Word → Prop
  | name {x : Xbe} {before after : List SectionHeader} {s : SectionHeader}
      (loaded : headersLoaded f = some x) (at_ : x.sectionHeader = before ++ s :: after)
      (returned : ∀ t ∈ before, x.getAddr t.dwSectionNameAddr ≠ none) :
      Call f x s.dwSectionNameAddr
  | tls {x : Xbe} (loaded : sectionsLoaded f = some x) (present : x.dwTLSAddr ≠ 0) :
      Call f x x.dwTLSAddr
  | caller {x : Xbe} (constructed : construct f = some x) (addr : Word) : Call f x addr

/-- The section has the address in its virtual range and in its raw data. -/
def SectionHeader.Stores (s : SectionHeader) (addr : Word) (i : Nat) : Prop :=
  addr.toNat = s.dwVirtualAddr.toNat + i ∧ i < s.dwVirtualSize.toNat ∧ i < s.dwSizeofRaw.toNat

/-- The byte of the file that the header or a section gives the address. -/
def Assigned (f : File) (x : Xbe) (addr : Word) (b : Byte) : Prop :=
  (x.offset addr < max sizeofHeader x.dwSizeofHeaders.toNat ∧ b = f.bytes (x.offset addr)) ∨
    ∃ s ∈ x.sectionHeader, ∃ i, SectionHeader.Stores s addr i ∧ b = f.bytes (s.dwRawAddr.toNat + i)

/-- The call returns a null pointer, or one to a byte of the object that the file assigns. -/
def CallOk (f : File) (x : Xbe) (addr : Word) : Prop :=
  ∃ r, x.getAddr addr = some r ∧ ∀ p, r = some p → ∃ b, x.deref p = some b ∧ Assigned f x addr b

/-- The address is in the headers, in the virtual range of no section, or in the raw data of the
first section that has it in its virtual range, when the sections have been read. -/
def Fits (x : Xbe) (addr : Word) : Prop :=
  x.offset addr < max sizeofHeader x.dwSizeofHeaders.toNat ∨
    ∀ v i, findSection x.sectionHeader addr 0 = some (v, i) →
      x.bzSection.isSome ∧ ∀ s, x.sectionHeader[v]? = some s → i < s.dwSizeofRaw.toNat

section Sections

theorem findSection_spec {sections : List SectionHeader} {addr : Word} {k v i : Nat}
    (h : findSection sections addr k = some (v, i)) :
    k ≤ v ∧ ∃ s, sections[v - k]? = some s ∧ s.holds addr ∧ i = (addr - s.dwVirtualAddr).toNat := by
  induction sections generalizing k with
  | nil => cases h
  | cons s rest ih =>
    rw [findSection] at h
    split at h
    · next hholds =>
      cases h
      exact ⟨Nat.le_refl _, s, by simp, hholds, rfl⟩
    · obtain ⟨hle, t, hat, hholds, hi⟩ := ih h
      refine ⟨by omega, t, ?_, hholds, hi⟩
      rw [show v - k = v - (k + 1) + 1 by omega, List.getElem?_cons_succ]
      exact hat

/-- A range whose end wraps around holds nothing, so that the sum can be taken as it is. -/
theorem holds_range {s : SectionHeader} {addr : Word} (h : s.holds addr) :
    addr.toNat = s.dwVirtualAddr.toNat + (addr - s.dwVirtualAddr).toNat ∧
      (addr - s.dwVirtualAddr).toNat < s.dwVirtualSize.toNat := by
  rw [SectionHeader.holds, decide_eq_true_eq] at h
  obtain ⟨hge, hlt⟩ := h
  generalize s.dwVirtualAddr = a at *
  generalize s.dwVirtualSize = n at *
  constructor
  · bv_omega
  · bv_omega

end Sections

section Loading

variable {f : File} {x y : Xbe}

/-- The object holds what the file has. -/
structure FromFile (f : File) (x : Xbe) : Prop where
  header : ∀ i < sizeofHeader, x.header i = f.bytes i
  headerEx : x.dwSizeofHeaders.toNat > sizeofHeader → ∃ b, x.headerEx = some b ∧
    x.dwSizeofHeaders.toNat ≤ sizeofHeader + b.size ∧ ∀ i, b.bytes i = f.bytes (sizeofHeader + i)
  sections : ∀ blocks, x.bzSection = some blocks → ∀ (v : Nat) (s : SectionHeader),
    x.sectionHeader[v]? = some s → ∃ b, blocks[v]? = some b ∧
      b.size = s.dwSizeofRaw.toNat ∧ ∀ i < b.size, b.bytes i = f.bytes (s.dwRawAddr.toNat + i)

theorem read_spec {offset length : Nat} {b : Block} (h : f.read offset length = some b) :
    b.size = length ∧ ∀ i, b.bytes i = f.bytes (offset + i) := by
  rw [File.read] at h
  split at h
  · cases h
    exact ⟨rfl, fun _ => rfl⟩
  · cases h

/-- Rounding up to whole pages leaves room for all headers, also where the sum wraps around. -/
theorem le_roundUp {v : Word} (h : v.toNat > sizeofHeader) :
    v.toNat ≤ sizeofHeader + (roundUp v 0x1000 - BitVec.ofNat 32 sizeofHeader).toNat := by
  rw [roundUp, if_neg (by decide)]
  unfold sizeofHeader at *
  have hmod : ((v - 1) % 0x1000 : Word).toNat = (v.toNat - 1) % 0x1000 := by
    rw [BitVec.toNat_umod, BitVec.toNat_sub_of_le (by bv_omega)]
    rfl
  generalize (v - 1) % 0x1000 = r at *
  bv_omega

theorem readHeader_spec (h : readHeader f = some x) :
    (∀ i, x.header i = f.bytes i) ∧ x.bzSection = none := by
  obtain ⟨b, hread, hx⟩ := Option.bind_eq_some_iff.mp h
  dsimp only at hx
  split at hx
  · cases hx
    refine ⟨fun i => ?_, rfl⟩
    have hbyte := (read_spec hread).2 i
    rwa [Nat.zero_add] at hbyte
  · cases hx

theorem readHeaderEx_spec (h : readHeaderEx f x = some y) :
    y.header = x.header ∧ y.bzSection = x.bzSection ∧
      (y.dwSizeofHeaders.toNat > sizeofHeader → ∃ b, y.headerEx = some b ∧
        y.dwSizeofHeaders.toNat ≤ sizeofHeader + b.size ∧
        ∀ i, b.bytes i = f.bytes (sizeofHeader + i)) := by
  rw [readHeaderEx] at h
  split at h
  · next hmore =>
    obtain ⟨b, hread, rfl⟩ := Option.map_eq_some_iff.mp h
    obtain ⟨hsize, hbytes⟩ := read_spec hread
    refine ⟨rfl, rfl, fun _ => ⟨b, rfl, ?_, hbytes⟩⟩
    rw [hsize]
    exact le_roundUp hmore
  · next hno =>
    cases h
    exact ⟨rfl, rfl, fun hmore => absurd hmore hno⟩

/-- The headers that have been read, and the table that has been added to them. -/
theorem headersLoaded_parts (h : headersLoaded f = some x) : ∃ x₀ x₁ table,
    readHeader f = some x₀ ∧ readHeaderEx f x₀ = some x₁ ∧
      readTable f (x₁.offset x₁.dwSectionHeadersAddr) x₁.dwSections.toNat = some table ∧
        x = { x₁ with sectionHeader := table } := by
  obtain ⟨x₀, hheader, h⟩ := Option.bind_eq_some_iff.mp h
  obtain ⟨x₁, hex, h⟩ := Option.bind_eq_some_iff.mp h
  obtain ⟨x₂, hcertificate, h⟩ := Option.bind_eq_some_iff.mp h
  obtain ⟨-, -, rfl⟩ := Option.map_eq_some_iff.mp hcertificate
  obtain ⟨table, htable, hx⟩ := Option.map_eq_some_iff.mp h
  exact ⟨x₀, x₁, table, hheader, hex, htable, hx.symm⟩

theorem headersLoaded_spec (h : headersLoaded f = some x) : FromFile f x ∧ x.bzSection = none := by
  obtain ⟨x₀, x₁, table, hheader, hex, -, rfl⟩ := headersLoaded_parts h
  obtain ⟨hbytes, hnone⟩ := readHeader_spec hheader
  obtain ⟨hsame, hsections, hheaderEx⟩ := readHeaderEx_spec hex
  have hunread : x₁.bzSection = none := hsections.trans hnone
  refine ⟨⟨fun i _ => ?_, hheaderEx, fun blocks hsome => ?_⟩, hunread⟩
  · rw [← hbytes, ← hsame]
  · cases hunread.symm.trans hsome

theorem readTable_length {offset m : Nat} {table : List SectionHeader}
    (h : readTable f offset m = some table) : table.length = m := by
  induction m generalizing offset table with
  | zero =>
    cases h
    rfl
  | succ m ih =>
    obtain ⟨b, -, h⟩ := Option.bind_eq_some_iff.mp h
    obtain ⟨rest, hrest, rfl⟩ := Option.map_eq_some_iff.mp h
    rw [List.length_cons, ih hrest]

/-- The table has as many headers as the image says. -/
theorem headersLoaded_length {x : Xbe} (h : headersLoaded f = some x) :
    x.sectionHeader.length = x.dwSections.toNat := by
  obtain ⟨x₀, x₁, table, -, -, htable, rfl⟩ := headersLoaded_parts h
  exact readTable_length htable

theorem headersLoaded_noError (h : headersLoaded f = some x) : x.error = false := by
  obtain ⟨x₀, x₁, table, hheader, hex, -, rfl⟩ := headersLoaded_parts h
  have hstart : x₀.error = false := by
    obtain ⟨b, -, hx⟩ := Option.bind_eq_some_iff.mp hheader
    dsimp only at hx
    split at hx
    · cases hx
      rfl
    · cases hx
  rw [readHeaderEx] at hex
  split at hex
  · obtain ⟨b, -, rfl⟩ := Option.map_eq_some_iff.mp hex
    exact hstart
  · cases hex
    exact hstart

theorem readBlocks_spec {sections : List SectionHeader} {blocks : List Block}
    (h : readBlocks f sections = some blocks) {v : Nat} {s : SectionHeader} (hat : sections[v]? = some s) :
    ∃ b, blocks[v]? = some b ∧ b.size = s.dwSizeofRaw.toNat ∧
      ∀ i < b.size, b.bytes i = f.bytes (s.dwRawAddr.toNat + i) := by
  induction sections generalizing blocks v with
  | nil => simp at hat
  | cons t rest ih =>
    obtain ⟨b, hblock, h⟩ := Option.bind_eq_some_iff.mp h
    obtain ⟨more, hmore, rfl⟩ := Option.map_eq_some_iff.mp h
    cases v with
    | succ v => exact ih hmore hat
    | zero =>
      obtain rfl : t = s := by simpa using hat
      refine ⟨b, rfl, ?_⟩
      split at hblock
      · next hempty =>
        cases hblock
        rw [hempty]
        exact ⟨rfl, fun i hi => absurd hi (Nat.not_lt_zero i)⟩
      · obtain ⟨hsize, hbytes⟩ := read_spec hblock
        exact ⟨hsize, fun i _ => hbytes i⟩

theorem readSectionNames_spec (h : readSectionNames x = some y) : x = y := by
  rw [readSectionNames] at h
  split at h
  · exact Option.some.inj h
  · cases h

theorem readLibraryVersions_spec (h : readLibraryVersions f x = some y) : x = y := by
  rw [readLibraryVersions] at h
  split_ifs at h
  · exact Option.some.inj h
  · obtain ⟨_, -, hnone⟩ := Option.bind_eq_some_iff.mp h
    cases hnone
  · obtain ⟨_, -, h⟩ := Option.bind_eq_some_iff.mp h
    obtain ⟨-, -, hsame⟩ := Option.map_eq_some_iff.mp h
    exact hsame

theorem sectionsLoaded_spec (h : sectionsLoaded f = some x) : FromFile f x := by
  obtain ⟨x₀, hheaders, h⟩ := Option.bind_eq_some_iff.mp h
  obtain ⟨x₁, hnames, h⟩ := Option.bind_eq_some_iff.mp h
  obtain ⟨x₂, hlibraries, h⟩ := Option.bind_eq_some_iff.mp h
  obtain rfl := readSectionNames_spec hnames
  obtain rfl := readLibraryVersions_spec hlibraries
  obtain ⟨blocks, hblocks, rfl⟩ := Option.map_eq_some_iff.mp h
  obtain ⟨hfile, -⟩ := headersLoaded_spec hheaders
  refine ⟨hfile.header, hfile.headerEx, fun blocks' hsome v s hat => ?_⟩
  cases hsome
  exact readBlocks_spec hblocks hat

theorem readTLS_spec (h : readTLS x = some y) : x = y := by
  rw [readTLS] at h
  split at h
  · exact Option.some.inj h
  · obtain ⟨p, -, h⟩ := Option.bind_eq_some_iff.mp h
    obtain ⟨-, -, hsame⟩ := Option.map_eq_some_iff.mp h
    exact hsame

/-- At every call the object holds what the file has, as far as it has been read. -/
theorem fromFile_of_call {addr : Word} (h : Call f x addr) : FromFile f x := by
  cases h with
  | name loaded _ _ => exact (headersLoaded_spec loaded).1
  | tls loaded _ => exact sectionsLoaded_spec loaded
  | caller constructed =>
    obtain ⟨y, hloaded, htls⟩ := Option.bind_eq_some_iff.mp constructed
    obtain rfl := readTLS_spec htls
    exact sectionsLoaded_spec hloaded

end Loading

section Confined

variable {f : File} {x : Xbe} {addr : Word}

theorem callOk_header (file : FromFile f x) (h : x.offset addr < sizeofHeader) : CallOk f x addr := by
  refine ⟨_, if_pos h, fun p hp => ?_⟩
  cases hp
  exact ⟨x.header (x.offset addr), if_pos h, Or.inl ⟨lt_max_of_lt_left h, file.header _ h⟩⟩

theorem callOk_headerEx (file : FromFile f x) (hout : ¬ x.offset addr < sizeofHeader)
    (h : x.offset addr < x.dwSizeofHeaders.toNat) : CallOk f x addr := by
  obtain ⟨b, hb, hsize, hbytes⟩ := file.headerEx (by omega)
  refine ⟨some (.headerEx (x.offset addr - sizeofHeader)), ?_, fun p hp => ?_⟩
  · rw [Xbe.getAddr, if_neg hout, if_pos h]
  · cases hp
    have hin : x.offset addr - sizeofHeader < b.size := by omega
    refine ⟨b.bytes (x.offset addr - sizeofHeader), ?_, Or.inl ⟨lt_max_of_lt_right h, ?_⟩⟩
    · rw [Xbe.deref, hb, Option.bind_some, if_pos hin]
    · rw [hbytes, Nat.add_sub_cancel' (Nat.le_of_not_lt hout)]

/-- Outside of the headers all depends on the first section that has the address. -/
theorem callOk_section_iff (file : FromFile f x) (hheader : ¬ x.offset addr < sizeofHeader)
    (hheaderEx : ¬ x.offset addr < x.dwSizeofHeaders.toNat) :
    CallOk f x addr ↔ ∀ v i, findSection x.sectionHeader addr 0 = some (v, i) →
      x.bzSection.isSome ∧ ∀ s, x.sectionHeader[v]? = some s → i < s.dwSizeofRaw.toNat := by
  cases hfind : findSection x.sectionHeader addr 0 with
  | none =>
    have hget : x.getAddr addr = some none := by
      rw [Xbe.getAddr, if_neg hheader, if_neg hheaderEx, hfind]
    exact iff_of_true ⟨none, hget, fun _ hp => (by cases hp)⟩ fun _ _ hno => (by cases hno)
  | some place =>
    obtain ⟨v, i⟩ := place
    have hget : x.getAddr addr =
        if x.bzSection.isSome then some (some (.section v i)) else none := by
      rw [Xbe.getAddr, if_neg hheader, if_neg hheaderEx, hfind]
    obtain ⟨-, s, hat, hholds, hi⟩ := findSection_spec hfind
    rw [Nat.sub_zero] at hat
    have hrange := holds_range hholds
    rw [← hi] at hrange
    cases hloaded : x.bzSection with
    | none =>
      refine iff_of_false (fun hok => ?_) fun hfits => ?_
      · obtain ⟨r, hr, -⟩ := hok
        rw [hget, hloaded] at hr
        cases hr
      · exact Bool.false_ne_true (hfits v i rfl).1
    | some blocks =>
      rw [hloaded] at hget
      obtain ⟨b, hb, hsize, hbytes⟩ := file.sections blocks hloaded v s hat
      constructor
      · intro hok v' i' heq
        cases heq
        refine ⟨rfl, fun t ht => ?_⟩
        obtain rfl : s = t := Option.some.inj (hat.symm.trans ht)
        obtain ⟨r, hr, hpointer⟩ := hok
        obtain ⟨byte, hderef, -⟩ := hpointer _ (Option.some.inj (hr.symm.trans hget))
        rw [Xbe.deref, hloaded, Option.bind_some, hb, Option.bind_some] at hderef
        split at hderef
        · next hin => rwa [← hsize]
        · cases hderef
      · intro hfits
        have hin : i < s.dwSizeofRaw.toNat := (hfits v i rfl).2 s hat
        refine ⟨_, hget, fun p hp => ?_⟩
        cases hp
        refine ⟨b.bytes i, ?_, Or.inr ⟨s, List.mem_of_getElem? hat, i, ⟨hrange.1, hrange.2, hin⟩, ?_⟩⟩
        · rw [Xbe.deref, hloaded, Option.bind_some, hb, Option.bind_some, if_pos (by rwa [hsize])]
        · exact hbytes i (by rwa [hsize])

/-- A call is confined exactly when the address is not one of a section that has not been read, nor
past the end of its raw data. -/
theorem getAddr_confined_iff (f : File) (x : Xbe) (addr : Word) (call : Call f x addr) :
    CallOk f x addr ↔ Fits x addr := by
  have file := fromFile_of_call call
  rw [Fits, lt_max_iff]
  by_cases hheader : x.offset addr < sizeofHeader
  · exact iff_of_true (callOk_header file hheader) (Or.inl (Or.inl hheader))
  · by_cases hheaderEx : x.offset addr < x.dwSizeofHeaders.toNat
    · exact iff_of_true (callOk_headerEx file hheader hheaderEx) (Or.inl (Or.inr hheaderEx))
    · rw [callOk_section_iff file hheader hheaderEx, or_iff_right (not_or.mpr ⟨hheader, hheaderEx⟩)]

/-- An image at `0x10000` with one section of a page, of which 16 bytes are in the file, and whose
name is at the given address. -/
def smallImage (name : Word) : File where
  bytes i :=
    let word : Word :=
      if i / 4 = 0x000 / 4 then magicXBEH
      else if i / 4 = 0x104 / 4 then 0x10000
      else if i / 4 = 0x118 / 4 then 0x10000
      else if i / 4 = 0x11C / 4 then 1
      else if i / 4 = 0x120 / 4 then 0x101D0
      else if i / 4 = 0x1D4 / 4 then 0x11000
      else if i / 4 = 0x1D8 / 4 then 0x1000
      else if i / 4 = 0x1E0 / 4 then 0x10
      else if i / 4 = 0x1E4 / 4 then name
      else 0
    LittleEndian.byteAt word (i % 4)
  size := 0x208

/-- With the name in the header the image is loaded, and the section is accessed. -/
theorem section_byte_found :
    ∃ x, construct (smallImage 0x10000) = some x ∧ CallOk (smallImage 0x10000) x 0x11004 := by
  have hsome : (construct (smallImage 0x10000)).isSome := by decide
  obtain ⟨x, hx⟩ := Option.isSome_iff_exists.mp hsome
  have hplace : (construct (smallImage 0x10000)).map (fun x => (findSection x.sectionHeader 0x11004 0,
      x.bzSection.isSome, x.sectionHeader.map (·.dwSizeofRaw))) = some (some (0, 4), true, [0x10]) := by
    decide
  rw [hx, Option.map_some, Option.some.injEq, Prod.mk.injEq, Prod.mk.injEq] at hplace
  obtain ⟨hfind, hloaded, hraw⟩ := hplace
  refine ⟨x, hx, (getAddr_confined_iff _ x 0x11004 (.caller hx _)).mpr (Or.inr fun v i heq => ?_)⟩
  cases hfind.symm.trans heq
  refine ⟨hloaded, fun s hs => ?_⟩
  have hsize : (x.sectionHeader.map (·.dwSizeofRaw))[0]? = some s.dwSizeofRaw := by
    rw [List.getElem?_map, hs]
    rfl
  rw [hraw] at hsize
  rw [← Option.some.inj hsize]
  decide

/-- With the name in the section it is looked up before there is any section. -/
theorem name_in_section_crashes :
    ¬ ∀ (f : File) (x : Xbe) (addr : Word), Call f x addr → CallOk f x addr := by
  intro h
  have hsome : (headersLoaded (smallImage 0x11000)).isSome := by decide
  obtain ⟨x, hx⟩ := Option.isSome_iff_exists.mp hsome
  have hcrash : (headersLoaded (smallImage 0x11000)).map (fun x =>
      (x.sectionHeader.map (·.dwSectionNameAddr), x.getAddr 0x11000)) = some ([0x11000], none) := by
    decide
  rw [hx, Option.map_some, Option.some.injEq, Prod.mk.injEq] at hcrash
  obtain ⟨hnames, hget⟩ := hcrash
  obtain ⟨s, hsection, hname⟩ : ∃ s, x.sectionHeader = [s] ∧ s.dwSectionNameAddr = 0x11000 := by
    cases hlist : x.sectionHeader with
    | nil => simp [hlist] at hnames
    | cons s rest => simpa [hlist, and_comm] using hnames
  have hcall : Call (smallImage 0x11000) x s.dwSectionNameAddr :=
    .name hx (show x.sectionHeader = [] ++ s :: [] from hsection) fun _ hno => by cases hno
  obtain ⟨r, hr, -⟩ := h _ _ _ hcall
  rw [hname, hget] at hr
  cases hr

end Confined

end OpenXbox.Loader.Addresses
