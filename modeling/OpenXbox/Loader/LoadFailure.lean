import Mathlib.Data.Nat.Digits.Defs
import OpenXbox.Loader.Construction

/-!
# What a failed construction leaves behind

The destructor runs on the object that a failed construction leaves. It frees what has been allocated,
but for the array of pointers to the sections, of which only the first bytes are set to zero. The title
is copied up to its end, however long it is.
-/

namespace OpenXbox.Loader.LoadFailure

open OpenXbox.Lib OpenXbox.Lib.Ownership OpenXbox.Loader.Image OpenXbox.Loader.Construction

/-- An object that a construction stops with is destructed right, and no buffer has been written past
its end. -/
structure LoadOk (k : Machine) (file : Option File) : Prop where
  freed : ∀ o, Construction.construct k file = .stopped o → Releases o.deleted o.allocated
  bounded : ∀ b, (Construction.construct k file).object.extent b ≤ b.size

/-- One of the forty characters of a title that is read has a lower byte of zero. -/
def TitleFits (f : File) : Prop :=
  ∀ x b, (readHeader f).bind (readHeaderEx f) = some x →
    f.read (x.offset x.dwCertificateAddr) sizeofCertificate = some b →
      ∃ v < 40, b.bytes (titleName + 2 * v) = 0

/-- The raw data of a section is in the file. -/
def Readable (f : File) (s : SectionHeader) : Prop :=
  s.dwSizeofRaw = 0 ∨ s.dwRawAddr.toNat + s.dwSizeofRaw.toNat ≤ f.size

/-- When the sections come to be read, they are all in the file but perhaps the last one. -/
def SectionsFit (f : File) : Prop :=
  ∀ x, headersLoaded f = some x → readSectionNames x = some x → readLibraryVersions f x = some x →
    ∀ s ∈ x.sectionHeader.dropLast, Readable f s

/-! ## The buffers -/

section Bounds

variable {k : Machine} {f : File}

/-- No buffer has been written past its end. -/
def Bounded (o : Object) : Prop := ∀ b, o.extent b ≤ b.size

theorem bounded_fill_iff (o : Object) (b : Fixed) (n : Nat) :
    Bounded (o.fill b n) ↔ Bounded o ∧ n ≤ b.size := by
  constructor
  · intro h
    have hself := h b
    rw [Object.fill_extent_self, Nat.max_le] at hself
    refine ⟨fun c => ?_, hself.2⟩
    by_cases hc : c = b
    · rw [hc]
      exact hself.1
    · rw [← Object.fill_extent_of_ne o hc n]
      exact h c
  · rintro ⟨h, hn⟩ c
    by_cases hc : c = b
    · rw [hc, Object.fill_extent_self]
      exact Nat.max_le.mpr ⟨h b, hn⟩
    · rw [Object.fill_extent_of_ne o hc]
      exact h c

theorem bounded_fill (o : Object) {b : Fixed} {n : Nat} (h : n ≤ b.size) :
    Bounded (o.fill b n) ↔ Bounded o :=
  (bounded_fill_iff o b n).trans (and_iff_left h)

theorem bounded_setError (o : Object) (text : List Char) : Bounded (o.setError text) ↔ Bounded o := by
  have hfill (o : Object) : Bounded (o.fill .error 255) ↔ Bounded o := bounded_fill o (by decide)
  rw [Object.setError]
  dsimp only
  split
  · exact hfill (o.alloc .error)
  · exact hfill o

theorem bounded_sprintfError (o : Object) {text : List Char} (h : text.length < 260) :
    Bounded (o.sprintfError text) ↔ Bounded o :=
  (bounded_setError _ text).trans (bounded_fill o h)

section Texts

theorem length_decimal (v : Word) : (decimal v).length ≤ 11 := by
  have hdigits : (Nat.toDigits 10 v.toInt.natAbs).length ≤ 10 := by
    refine Nat.toDigits_length 10 _ 10 (by decide) ?_
    have hlow := BitVec.le_toInt v
    have hhigh := BitVec.toInt_lt (x := v)
    omega
  rw [decimal]
  split
  · rw [List.length_cons]
    omega
  · omega

theorem length_hexadecimal (v : Word) : (hexadecimal v).length ≤ 8 := by
  rw [hexadecimal, List.length_map]
  exact Nat.toDigits_length 16 _ 8 (by decide) (Nat.lt_of_lt_of_le v.isLt (by decide))

theorem length_unexpectedEnd (what : String) : (unexpectedEnd what).length = 41 + what.length := by
  have hstart : unexpectedEndText.length = 41 := by decide
  rw [unexpectedEnd, List.length_append, hstart, String.length_toList]

theorem length_unexpectedEndAt (what : String) (v : Nat) :
    (unexpectedEndAt what v).length ≤ what.length + 65 := by
  have hdecimal := length_decimal (BitVec.ofNat 32 v)
  have hhexadecimal := length_hexadecimal (BitVec.ofNat 32 v)
  rw [unexpectedEndAt, List.length_append, List.length_append, List.length_append, length_unexpectedEnd,
    List.length_cons, List.length_cons, List.length_cons, List.length_cons, List.length_singleton]
  omega

theorem length_sectionText (o : Object) (v : Nat) : (sectionText o v).length ≤ 83 := by
  have hlength := length_unexpectedEndAt "Section" v
  have hwhat : "Section".length = 7 := by decide
  have hname := (o.names.getD v .empty).length_le
  rw [sectionText, List.length_append, List.length_append, List.length_cons, List.length_cons,
    List.length_map, List.length_singleton]
  omega

end Texts

/-- A stage that writes to no buffer past its end. -/
def Keeps (stage : Object → Result) : Prop := ∀ o, Bounded (stage o).object ↔ Bounded o

theorem Keeps.bind {stage : Object → Result} (h : Keeps stage) (r : Result) :
    Bounded (r.bind stage).object ↔ Bounded r.object := by
  cases r with
  | next o => exact h o
  | stopped o => exact Iff.rfl
  | crashed o => exact Iff.rfl

theorem keeps_imageHeader : Keeps (imageHeader f) := by
  intro o
  have hfill : Bounded (o.fill .header sizeofHeader) ↔ Bounded o := bounded_fill o (Nat.le_refl _)
  rw [imageHeader]
  cases f.read 0 sizeofHeader with
  | none => exact (bounded_setError _ _).trans hfill
  | some b =>
    dsimp only
    split
    · exact hfill
    · exact (bounded_setError _ _).trans hfill

theorem keeps_headerExtraBytes : Keeps (headerExtraBytes f) := by
  intro o
  rw [headerExtraBytes]
  split
  · dsimp only
    cases f.read sizeofHeader _ with
    | none => exact bounded_setError _ _
    | some b => exact Iff.rfl
  · exact Iff.rfl

theorem keeps_tableLoop (offset n v : Nat) : Keeps (tableLoop f offset n v) := by
  induction n generalizing offset v with
  | zero => exact fun o => Iff.rfl
  | succ n ih =>
    intro o
    have hfill : Bounded (o.fill .sectionHeader sizeofSectionHeader) ↔ Bounded o :=
      bounded_fill o (Nat.le_refl _)
    rw [tableLoop]
    cases f.read offset sizeofSectionHeader with
    | none =>
      have hlength := length_unexpectedEndAt "Section Header" v
      have hwhat : "Section Header".length = 14 := by decide
      exact (bounded_sprintfError _ (by omega)).trans hfill
    | some b => exact (ih _ _ _).trans hfill

theorem keeps_nameLoop (table : List SectionHeader) : Keeps (nameLoop k table) := by
  induction table with
  | nil => exact fun o => Iff.rfl
  | cons s rest ih =>
    intro o
    rw [nameLoop]
    cases o.xbe.getAddr s.dwSectionNameAddr with
    | none => exact Iff.rfl
    | some sn =>
      refine (ih _).trans ?_
      refine (bounded_fill (b := .sectionName) _ ?_).trans (bounded_fill o (Nat.le_refl _))
      exact (Nat.min_le_left _ _).trans (by decide)

theorem keeps_libraryLoop (offset n v : Nat) : Keeps (libraryLoop f offset n v) := by
  induction n generalizing offset v with
  | zero => exact fun o => Iff.rfl
  | succ n ih =>
    intro o
    have hfill : Bounded (o.fill .libraryVersion sizeofLibraryVersion) ↔ Bounded o :=
      bounded_fill o (Nat.le_refl _)
    rw [libraryLoop]
    cases f.read offset sizeofLibraryVersion with
    | none =>
      have hlength := length_unexpectedEndAt "Library Version" v
      have hwhat : "Library Version".length = 15 := by decide
      exact (bounded_sprintfError _ (by omega)).trans hfill
    | some b => exact (ih _ _ _).trans hfill

theorem keeps_oneVersion (m : Member) (addr : Xbe → Word) (missing what : String) :
    Keeps (oneVersion f m addr missing what) := by
  intro o
  have hfill : Bounded ((o.alloc m).fill .libraryVersion sizeofLibraryVersion) ↔ Bounded o :=
    bounded_fill (o.alloc m) (Nat.le_refl _)
  rw [oneVersion]
  split
  · exact bounded_setError _ _
  · dsimp only
    cases f.read _ sizeofLibraryVersion with
    | none => exact (bounded_setError _ _).trans hfill
    | some b => exact hfill

theorem keeps_libraryVersions : Keeps (libraryVersions f) := by
  intro o
  have hkernel : Keeps (kernelLibraryVersion f) := keeps_oneVersion _ _ _ _
  have hxapi : Keeps (xapiLibraryVersion f) := keeps_oneVersion _ _ _ _
  rw [libraryVersions]
  split
  · exact Iff.rfl
  · rw [hxapi.bind, hkernel.bind, keeps_libraryLoop]
    exact Iff.rfl

theorem keeps_sectionLoop (table : List SectionHeader) (v : Nat) : Keeps (sectionLoop f table v) := by
  induction table generalizing v with
  | nil => exact fun o => Iff.rfl
  | cons s rest ih =>
    intro o
    rw [sectionLoop_cons]
    cases rawData f s with
    | some b => exact ih _ _
    | none =>
      have hlength := length_sectionText o v
      exact bounded_sprintfError _ (by omega)

theorem keeps_threadLocalStorage : Keeps threadLocalStorage := by
  intro o
  rw [threadLocalStorage]
  split
  · exact Iff.rfl
  · cases o.xbe.getAddr o.xbe.dwTLSAddr with
    | none => exact Iff.rfl
    | some p =>
      cases p with
      | none => exact bounded_setError _ _
      | some p => exact bounded_fill (o.alloc .tls) (Nat.le_refl _)

/-! ## The title -/

theorem titleLoop_lt_iff (certificate : Nat → Byte) {n v m : Nat} (hm : m ≤ v + n) :
    titleLoop certificate n v < m ↔ ∃ i, v ≤ i ∧ i < m ∧ certificate (titleName + 2 * i) = 0 := by
  induction n generalizing v with
  | zero =>
    rw [titleLoop]
    refine iff_of_false (by omega) ?_
    rintro ⟨i, hi, him, -⟩
    omega
  | succ n ih =>
    rw [titleLoop]
    split
    · next hzero =>
      constructor
      · exact fun hv => ⟨v, Nat.le_refl v, hv, hzero⟩
      · rintro ⟨i, hi, him, -⟩
        omega
    · next hmore =>
      rw [ih (by omega)]
      constructor
      · rintro ⟨i, hi, him, hzero⟩
        exact ⟨i, by omega, him, hzero⟩
      · rintro ⟨i, hi, him, hzero⟩
        have hne : v ≠ i := fun heq => hmore (heq ▸ hzero)
        exact ⟨i, by omega, him, hzero⟩

theorem titleLength_lt_iff (certificate : Nat → Byte) :
    titleLength certificate < 40 ↔ ∃ v < 40, certificate (titleName + 2 * v) = 0 := by
  rw [titleLength, titleLoop_lt_iff certificate (by decide)]
  simp

theorem bounded_certificate_iff (o : Object) : Bounded (certificate f o).object ↔ Bounded o ∧
    ∀ b, f.read (o.xbe.offset o.xbe.dwCertificateAddr) sizeofCertificate = some b →
      ∃ v < 40, b.bytes (titleName + 2 * v) = 0 := by
  have hfill : Bounded (o.fill .certificate sizeofCertificate) ↔ Bounded o :=
    bounded_fill o (Nat.le_refl _)
  rw [certificate]
  dsimp only [Object.fill_xbe]
  cases hread : f.read (o.xbe.offset o.xbe.dwCertificateAddr) sizeofCertificate with
  | none =>
    refine ((bounded_setError _ _).trans hfill).trans (and_iff_left fun b hb => ?_).symm
    cases hb
  | some b =>
    refine (bounded_fill_iff _ _ _).trans ?_
    rw [hfill, ← Nat.succ_eq_add_one, Nat.succ_le_iff]
    refine and_congr_right fun _ => ?_
    refine (titleLength_lt_iff b.bytes).trans ⟨fun h c hc => ?_, fun h => h b rfl⟩
    rwa [← Option.some.inj hc]

/-- All buffers keep to their bounds when the title does. -/
theorem bounded_withFile_iff (k : Machine) (f : File) :
    Bounded (withFile k f).object ↔ TitleFits f := by
  have htable : Keeps (sectionHeaders f) := fun o => keeps_tableLoop _ _ _ _
  have hnames : Keeps (sectionNames k) := fun o => keeps_nameLoop _ _
  have hsections : Keeps (sections k f) := fun o => keeps_sectionLoop _ _ _
  have hstart : Bounded ((imageHeader f (.initial k)).bind (headerExtraBytes f)).object := by
    rw [keeps_headerExtraBytes.bind, keeps_imageHeader]
    exact fun b => Nat.zero_le _
  have hcompleted : ((imageHeader f (.initial k)).bind (headerExtraBytes f)).completed =
      (readHeader f).bind (readHeaderEx f) := by
    rw [completed_bind completed_headerExtraBytes, completed_imageHeader]
  rw [withFile, keeps_threadLocalStorage.bind, hsections.bind, beforeSections,
    keeps_libraryVersions.bind, hnames.bind, htable.bind, TitleFits, ← hcompleted]
  cases hresult : (imageHeader f (.initial k)).bind (headerExtraBytes f) with
  | next o =>
    rw [hresult] at hstart
    refine (bounded_certificate_iff o).trans ((and_iff_right hstart).trans ?_)
    constructor
    · intro h x b hx
      cases hx
      exact h b
    · exact fun h b => h o.xbe b rfl
  | stopped o =>
    rw [hresult] at hstart
    exact iff_of_true hstart fun x b hx => by cases hx
  | crashed o =>
    rw [hresult] at hstart
    exact iff_of_true hstart fun x b hx => by cases hx

end Bounds

/-! ## The blocks before the sections are read -/

section Blocks

variable {k : Machine} {f : File} {o : Object} {rest : List Member}

/-- The destructor frees what has been allocated. -/
def Frees (o : Object) : Prop := Releases o.deleted o.allocated

theorem mem_deleteOrder {m : Member} (h : m ≠ .bzSection) : m ∈ Object.deleteOrder := by
  cases m with
  | bzSection => exact absurd rfl h
  | _ => decide

theorem alloc_owners_of_ne (o : Object) {m n : Member} (h : n ≠ m) :
    (o.alloc m).owners n = o.owners n := Function.update_of_ne h _ _

theorem alloc_owners_self (o : Object) (m : Member) : (o.alloc m).owners m = .block o.allocated := by
  rw [Object.alloc]
  exact Function.update_self m (Owner.block o.allocated) o.owners

/-- A null pointer gets the next block. -/
theorem frees_alloc {m : Member} (hm : m ≠ .bzSection) (hnull : o.owners m = .null) (h : Frees o) :
    Frees (o.alloc m) := by
  have hsection : (o.alloc m).owners .bzSection = o.owners .bzSection := alloc_owners_of_ne o hm.symm
  rw [Frees, Object.deleted, hsection]
  exact releases_update (by decide) (mem_deleteOrder hm) hnull h

theorem frees_setError (text : List Char) (hnull : o.owners .error = .null) (h : Frees o) :
    Frees (o.setError text) := by
  have halloc : Frees (o.alloc .error) := frees_alloc (by decide) hnull h
  rw [Object.setError, if_pos hnull]
  exact halloc

/-- The sections are not read yet, and the pointers that are still to be allocated are null. -/
structure Early (rest : List Member) (o : Object) : Prop where
  unread : o.owners .bzSection = .null
  owned : Releases (Object.deleteOrder.map o.owners) o.allocated
  fresh : ∀ m ∈ rest, o.owners m = .null

theorem Early.frees (h : Early rest o) : Frees o := by
  rw [Frees, Object.deleted, if_pos h.unread]
  exact h.owned

/-- Only the pointers and the number of blocks matter. -/
theorem Early.same {o' : Object} (h : Early rest o) (howners : o'.owners = o.owners)
    (hallocated : o'.allocated = o.allocated) : Early rest o' :=
  ⟨howners ▸ h.unread, howners ▸ hallocated ▸ h.owned, howners ▸ h.fresh⟩

theorem Early.mono {later : List Member} (h : Early rest o) (hsub : ∀ m ∈ later, m ∈ rest) :
    Early later o := ⟨h.unread, h.owned, fun m hm => h.fresh m (hsub m hm)⟩

theorem Early.alloc {m : Member} (h : Early (m :: rest) o) (hm : m ≠ .bzSection) (hout : m ∉ rest) :
    Early rest (o.alloc m) where
  unread := (alloc_owners_of_ne o hm.symm).trans h.unread
  owned := by
    have howned : Releases ([] ++ Object.deleteOrder.map o.owners) o.allocated := h.owned
    exact releases_update (by decide) (mem_deleteOrder hm) (h.fresh m List.mem_cons_self) howned
  fresh n hn := by
    have hne : n ≠ m := fun heq => hout (heq ▸ hn)
    exact (alloc_owners_of_ne o hne).trans (h.fresh n (List.mem_cons_of_mem _ hn))

/-- An error can be set at any time. -/
theorem Early.stop {o' : Object} (h : Early rest o) (herror : .error ∈ rest)
    (howners : o'.owners = o.owners) (hallocated : o'.allocated = o.allocated) (text : List Char) :
    Frees (o'.setError text) :=
  frees_setError text ((h.same howners hallocated).fresh _ herror) (h.same howners hallocated).frees

/-- What a stage ends with: an object for the next stage, or one for the destructor. -/
def Handled (rest : List Member) : Result → Prop
  | .next o => Early rest o
  | .stopped o => Frees o
  | .crashed _ => True

theorem Handled.bind {later : List Member} {r : Result} {stage : Object → Result} (h : Handled rest r)
    (hstage : ∀ o, Early rest o → Handled later (stage o)) : Handled later (r.bind stage) := by
  cases r with
  | next o => exact hstage o h
  | stopped o => exact h
  | crashed o => trivial

theorem handled_imageHeader (h : Early rest o) (herror : .error ∈ rest) :
    Handled rest (imageHeader f o) := by
  have hfill : Early rest (o.fill .header sizeofHeader) := h.same rfl rfl
  rw [imageHeader]
  cases f.read 0 sizeofHeader with
  | none => exact hfill.stop herror (by rfl) (by rfl) _
  | some b =>
    dsimp only
    split
    · exact hfill.same rfl rfl
    · exact hfill.stop herror (by rfl) (by rfl) _

theorem handled_headerExtraBytes (h : Early (.headerEx :: rest) o) (hout : .headerEx ∉ rest)
    (herror : .error ∈ rest) : Handled rest (headerExtraBytes f o) := by
  rw [headerExtraBytes]
  split
  · have halloc : Early rest (o.alloc .headerEx) := h.alloc (by decide) hout
    dsimp only
    cases f.read sizeofHeader _ with
    | none => exact halloc.stop herror (by rfl) (by rfl) _
    | some b => exact halloc.same rfl rfl
  · exact h.mono fun m hm => List.mem_cons_of_mem _ hm

theorem handled_certificate (h : Early rest o) (herror : .error ∈ rest) :
    Handled rest (certificate f o) := by
  have hfill : Early rest (o.fill .certificate sizeofCertificate) := h.same rfl rfl
  rw [certificate]
  dsimp only [Object.fill_xbe]
  cases f.read _ sizeofCertificate with
  | none => exact hfill.stop herror (by rfl) (by rfl) _
  | some b => exact hfill.same rfl rfl

theorem handled_tableLoop (herror : .error ∈ rest) (offset n v : Nat) (h : Early rest o) :
    Handled rest (tableLoop f offset n v o) := by
  induction n generalizing offset v o with
  | zero => exact h
  | succ n ih =>
    rw [tableLoop]
    cases f.read offset sizeofSectionHeader with
    | none =>
      exact h.stop herror (by rfl) (by rfl) _
    | some b => exact ih _ _ (h.same rfl rfl)

theorem handled_sectionHeaders (h : Early (.sectionHeader :: rest) o) (hout : .sectionHeader ∉ rest)
    (herror : .error ∈ rest) : Handled rest (sectionHeaders f o) :=
  handled_tableLoop herror _ _ _ ((h.alloc (by decide) hout).same rfl rfl)

theorem handled_nameLoop (table : List SectionHeader) (h : Early rest o) :
    Handled rest (nameLoop k table o) := by
  induction table generalizing o with
  | nil => exact h
  | cons s table ih =>
    rw [nameLoop]
    cases o.xbe.getAddr s.dwSectionNameAddr with
    | none => trivial
    | some sn => exact ih (h.same rfl rfl)

theorem handled_sectionNames (h : Early (.sectionName :: rest) o) (hout : .sectionName ∉ rest) :
    Handled rest (sectionNames k o) := handled_nameLoop _ (h.alloc (by decide) hout)

theorem handled_libraryLoop (herror : .error ∈ rest) (offset n v : Nat) (h : Early rest o) :
    Handled rest (libraryLoop f offset n v o) := by
  induction n generalizing offset v o with
  | zero => exact h
  | succ n ih =>
    rw [libraryLoop]
    cases f.read offset sizeofLibraryVersion with
    | none =>
      exact h.stop herror (by rfl) (by rfl) _
    | some b => exact ih _ _ (h.same rfl rfl)

theorem handled_oneVersion {m : Member} (hm : m ≠ .bzSection) (hout : m ∉ rest) (herror : .error ∈ rest)
    (addr : Xbe → Word) (missing what : String) (h : Early (m :: rest) o) :
    Handled rest (oneVersion f m addr missing what o) := by
  rw [oneVersion]
  split
  · exact h.stop (List.mem_cons_of_mem _ herror) (by rfl) (by rfl) _
  · have halloc : Early rest ((o.alloc m).fill .libraryVersion sizeofLibraryVersion) :=
      (h.alloc hm hout).same rfl rfl
    dsimp only
    cases f.read _ sizeofLibraryVersion with
    | none => exact halloc.stop herror (by rfl) (by rfl) _
    | some b => exact halloc

theorem handled_libraryVersions
    (h : Early [.libraryVersion, .kernelLibraryVersion, .xapiLibraryVersion, .tls, .error] o) :
    Handled [.tls, .error] (libraryVersions f o) := by
  rw [libraryVersions]
  split
  · exact h.mono (by decide)
  · have hloop := handled_libraryLoop (f := f) (by decide)
      (o.xbe.offset o.xbe.dwLibraryVersionsAddr) o.xbe.dwLibraryVersions.toNat 0
      (h.alloc (by decide) (by decide))
    have hkernel := hloop.bind fun o h => handled_oneVersion (m := .kernelLibraryVersion) (f := f)
      (by decide) (by decide) (by decide) Xbe.dwKernelLibraryVersionAddr
      "Could not locate kernel library version" "Kernel Version" h
    exact hkernel.bind fun o h => handled_oneVersion (by decide) (by decide) (by decide) _ _ _ h

/-- The members in the order in which the constructor allocates them. -/
def allocateOrder : List Member :=
  [.headerEx, .sectionHeader, .sectionName, .libraryVersion, .kernelLibraryVersion, .xapiLibraryVersion,
    .tls, .error]

theorem early_initial (k : Machine) : Early allocateOrder (.initial k) where
  unread := rfl
  owned := by
    refine ⟨fun h => ?_, List.Perm.refl _⟩
    obtain ⟨m, -, hm⟩ := List.mem_map.mp h
    cases hm
  fresh _ _ := rfl

theorem handled_beforeSections (k : Machine) (f : File) :
    Handled [.tls, .error] (beforeSections k f) := by
  have hheader := handled_imageHeader (f := f) (early_initial k) (by decide)
  have hextra := hheader.bind fun o h => handled_headerExtraBytes (f := f) h (by decide) (by decide)
  have hcertificate := hextra.bind fun o h => handled_certificate (f := f) h (by decide)
  have htable := hcertificate.bind fun o h => handled_sectionHeaders (f := f) h (by decide) (by decide)
  have hnames := htable.bind fun o h => handled_sectionNames (k := k) h (by decide)
  exact hnames.bind fun o h => handled_libraryVersions h

end Blocks

/-! ## The sections -/

section Sections

variable {k : Machine} {f : File} {o : Object} {n v : Nat}

theorem length_clearedCells (k : Machine) (n : Nat) : (clearedCells k n).length = n := by
  rw [clearedCells, List.length_map, List.length_range]

/-- The last pointer is not among the bytes that are set to zero. -/
theorem uninitialised_mem (k : Machine) (h : v < n) : .uninitialised ∈ (clearedCells k n).drop v := by
  have hwide := k.wide
  have hlast : (clearedCells k n)[n - 1]? = some .uninitialised := by
    have hout : ¬ k.sizeofPointer * (n - 1 + 1) ≤ n := by
      rw [Nat.sub_add_cancel (by omega)]
      have hdouble : 2 * n ≤ k.sizeofPointer * n := Nat.mul_le_mul_right n hwide
      omega
    rw [clearedCells, List.getElem?_map, List.getElem?_range (by omega), Option.map_some, if_neg hout]
  refine List.mem_of_getElem? (i := n - 1 - v) ?_
  rw [List.getElem?_drop, show v + (n - 1 - v) = n - 1 by omega, hlast]

/-- The pointers to the first `v` of `n` sections are allocated, those behind them as they were. -/
structure Reading (k : Machine) (n v : Nat) (o : Object) : Prop where
  array : o.owners .bzSection ≠ .null
  sections : o.xbe.dwSections.toNat = n
  cells : ∃ done, done.length = v ∧ o.cells = done ++ (clearedCells k n).drop v ∧
    Releases (done ++ o.owners .bzSection :: Object.deleteOrder.map o.owners) o.allocated

theorem deleted_eq (harray : o.owners .bzSection ≠ .null)
    (hlength : o.cells.length = o.xbe.dwSections.toNat) :
    o.deleted = o.cells ++ o.owners .bzSection :: Object.deleteOrder.map o.owners := by
  have hcells : (List.range o.xbe.dwSections.toNat).map (fun v => o.cells.getD v .uninitialised) =
      o.cells := by
    refine List.ext_getElem (by rw [List.length_map, List.length_range, hlength]) fun i hi hin => ?_
    rw [List.getElem_map, List.getElem_range, List.getD_eq_getElem?_getD, List.getElem?_eq_getElem hin,
      Option.getD_some]
  rw [Object.deleted, if_neg harray, hcells, List.append_assoc, List.singleton_append]

theorem Reading.frees_iff (h : Reading k n v o) (hv : v ≤ n) : Frees o ↔ v = n := by
  obtain ⟨done, hlength, hcells, hreleases⟩ := h.cells
  have hall : o.cells.length = o.xbe.dwSections.toNat := by
    rw [hcells, List.length_append, List.length_drop, length_clearedCells, h.sections]
    omega
  rw [Frees, deleted_eq h.array hall, hcells]
  constructor
  · intro hfrees
    by_contra hne
    have hmem := uninitialised_mem k (show v < n by omega)
    exact hfrees.initialised (List.mem_append_left _ (List.mem_append_right _ hmem))
  · rintro rfl
    rwa [List.drop_eq_nil_of_le (by rw [length_clearedCells]), List.append_nil]

/-- The next pointer is allocated. -/
theorem Reading.allocCell (h : Reading k n v o) (hv : v < n) : Reading k n (v + 1) (o.allocCell v) where
  array := h.array
  sections := h.sections
  cells := by
    obtain ⟨done, hlength, hcells, hreleases⟩ := h.cells
    have hin : v < (clearedCells k n).length := by rwa [length_clearedCells]
    refine ⟨done ++ [.block o.allocated], by rw [List.length_append, hlength]; rfl, ?_, ?_⟩
    · rw [Object.allocCell, hcells, List.set_append_right _ _ (by omega), hlength, Nat.sub_self,
        List.drop_eq_getElem_cons hin, List.set_cons_zero, List.append_assoc, List.singleton_append]
    · rw [List.append_assoc, List.singleton_append]
      exact releases_append_block hreleases

theorem Reading.setError (h : Reading k n v o) (hnull : o.owners .error = .null) (text : List Char) :
    Reading k n v (o.setError text) := by
  obtain ⟨done, hlength, hcells, hreleases⟩ := h.cells
  have harray : (o.alloc .error).owners .bzSection = o.owners .bzSection :=
    alloc_owners_of_ne o (by decide)
  have halloc : Reading k n v (o.alloc .error) := by
    refine ⟨harray ▸ h.array, h.sections, done, hlength, hcells, ?_⟩
    rw [harray, List.append_cons]
    rw [List.append_cons] at hreleases
    exact releases_update (by decide) (by decide) hnull hreleases
  rw [Object.setError, if_pos hnull]
  exact ⟨halloc.array, halloc.sections, halloc.cells⟩

theorem Reading.sprintfError (h : Reading k n v o) (hnull : o.owners .error = .null) (text : List Char) :
    Reading k n v (o.sprintfError text) := by
  have hfill : Reading k n v (o.fill .szBuffer (text.length + 1)) := ⟨h.array, h.sections, h.cells⟩
  exact hfill.setError hnull text

/-- The block of a section is there when its raw data is. -/
theorem isSome_rawData_iff (f : File) (s : SectionHeader) : (rawData f s).isSome ↔ Readable f s := by
  rw [rawData, Readable]
  split
  · next hempty => exact iff_of_true rfl (Or.inl hempty)
  · next hsome =>
    rw [or_iff_right hsome, File.read]
    split
    · next hin => exact iff_of_true rfl hin
    · next hout => exact iff_of_false Bool.false_ne_true hout

theorem forall_dropLast_iff {P : SectionHeader → Prop} {s : SectionHeader} (hs : P s)
    (rest : List SectionHeader) :
    (∀ t ∈ (s :: rest).dropLast, P t) ↔ ∀ t ∈ rest.dropLast, P t := by
  cases rest with
  | nil => exact Iff.rfl
  | cons t rest => rw [List.dropLast_cons_of_ne_nil (List.cons_ne_nil t rest), List.forall_mem_cons,
  and_iff_right hs]

/-- Reading the sections calls no `GetAddr`. -/
theorem sectionLoop_ne_crashed (table : List SectionHeader) (v : Nat) (o o' : Object) :
    sectionLoop f table v o ≠ .crashed o' := by
  induction table generalizing v o with
  | nil => exact Result.noConfusion
  | cons s rest ih =>
    rw [sectionLoop_cons]
    cases rawData f s with
    | none => exact Result.noConfusion
    | some b => exact ih _ _

/-- What the loop over the sections ends with, when the ones before `v` have been read. -/
theorem sectionLoop_spec (table : List SectionHeader) (h : Reading k n v o)
    (hnull : o.owners .error = .null) (hlength : v + table.length = n) :
    (∀ o', sectionLoop f table v o = .next o' →
      Reading k n n o' ∧ o'.owners = o.owners ∧ ∀ s ∈ table, Readable f s) ∧
    ∀ o', sectionLoop f table v o = .stopped o' → (Frees o' ↔ ∀ s ∈ table.dropLast, Readable f s) := by
  induction table generalizing v o with
  | nil =>
    obtain rfl : v = n := by simpa using hlength
    constructor
    · intro o' ho
      cases ho
      exact ⟨h, rfl, fun s hs => absurd hs List.not_mem_nil⟩
    · intro o' ho
      cases ho
  | cons s rest ih =>
    rw [List.length_cons] at hlength
    have hcell := h.allocCell (show v < n by omega)
    have hreadable := isSome_rawData_iff f s
    rw [sectionLoop_cons]
    cases hraw : rawData f s with
    | none =>
      have hno : ¬ Readable f s := by
        rw [← hreadable, hraw]
        exact Bool.false_ne_true
      refine ⟨fun o' ho => (by cases ho), fun o' ho => ?_⟩
      cases ho
      refine ((hcell.sprintfError hnull _).frees_iff (by omega)).trans ?_
      cases rest with
      | nil => exact iff_of_true hlength fun t ht => absurd ht List.not_mem_nil
      | cons t rest =>
        rw [List.length_cons] at hlength
        refine iff_of_false (by omega) fun hall => hno (hall s ?_)
        rw [List.dropLast_cons_of_ne_nil (List.cons_ne_nil t rest)]
        exact List.mem_cons_self
    | some b =>
      have hyes : Readable f s := hreadable.mp (hraw ▸ rfl)
      have hnext : Reading k n (v + 1)
          { o.allocCell v with xbe.bzSection := o.xbe.bzSection.map (· ++ [b]) } :=
        ⟨hcell.array, hcell.sections, hcell.cells⟩
      obtain ⟨hdone, hstopped⟩ := ih hnext hnull (by omega)
      constructor
      · intro o' ho
        obtain ⟨hreading, howners, hall⟩ := hdone o' ho
        exact ⟨hreading, howners, List.forall_mem_cons.mpr ⟨hyes, hall⟩⟩
      · intro o' ho
        exact (hstopped o' ho).trans (forall_dropLast_iff hyes rest).symm

/-- The array is allocated, none of its pointers yet. -/
theorem reading_start (h : Early [.tls, .error] o) :
    Reading k o.xbe.dwSections.toNat 0
      { o.alloc .bzSection with
        cells := clearedCells k o.xbe.dwSections.toNat
        xbe.bzSection := some [] } := by
  have harray : (o.alloc .bzSection).owners .bzSection = .block o.allocated :=
    alloc_owners_self o _
  have hothers : Object.deleteOrder.map (o.alloc .bzSection).owners =
      Object.deleteOrder.map o.owners := by
    refine List.map_congr_left fun m hm => alloc_owners_of_ne o fun heq => ?_
    rw [heq] at hm
    exact absurd hm (by decide)
  refine ⟨?_, rfl, [], rfl, rfl, ?_⟩
  · rw [harray]
    exact Owner.noConfusion
  · rw [harray, hothers]
    exact releases_append_block h.owned

/-- What the destructor does when the sections have been read, and when one of them has not. -/
theorem sections_spec (h : Early [.tls, .error] o)
    (hlength : o.xbe.sectionHeader.length = o.xbe.dwSections.toNat) :
    (∀ o', sections k f o = .next o' →
      Frees o' ∧ o'.owners .error = .null ∧ ∀ s ∈ o.xbe.sectionHeader, Readable f s) ∧
    ∀ o', sections k f o = .stopped o' →
      (Frees o' ↔ ∀ s ∈ o.xbe.sectionHeader.dropLast, Readable f s) := by
  have hnull : (o.alloc .bzSection).owners .error = .null :=
    (alloc_owners_of_ne o (by decide)).trans (h.fresh .error (by decide))
  obtain ⟨hdone, hstopped⟩ := sectionLoop_spec (f := f) o.xbe.sectionHeader (reading_start (k :=
    k) h) hnull
    (by rw [Nat.zero_add, hlength])
  refine ⟨fun o' ho => ?_, hstopped⟩
  obtain ⟨hreading, howners, hall⟩ := hdone o' ho
  refine ⟨(hreading.frees_iff (Nat.le_refl _)).mpr rfl, ?_, hall⟩
  rw [howners]
  exact hnull

/-- The last stage leaves its pointer to the destructor. -/
theorem frees_threadLocalStorage {o' : Object} (h : Frees o) (hnull : o.owners .error = .null)
    (hstop : threadLocalStorage o = .stopped o') : Frees o' := by
  rw [threadLocalStorage] at hstop
  split at hstop
  · cases hstop
  · cases hget : o.xbe.getAddr o.xbe.dwTLSAddr with
    | none =>
      rw [hget] at hstop
      cases hstop
    | some p =>
      rw [hget] at hstop
      cases p with
      | none =>
        cases hstop
        exact frees_setError _ hnull h
      | some p => cases hstop

/-- The image with which the sections come to be read. -/
theorem completed_beforeSections_iff (k : Machine) (f : File) (x : Xbe) :
    (beforeSections k f).completed = some x ↔
      headersLoaded f = some x ∧ readSectionNames x = some x ∧ readLibraryVersions f x = some x := by
  rw [completed_beforeSections]
  constructor
  · intro h
    obtain ⟨y, hy, hlibraries⟩ := Option.bind_eq_some_iff.mp h
    obtain ⟨z, hheaders, hnames⟩ := Option.bind_eq_some_iff.mp hy
    obtain rfl := Addresses.readSectionNames_spec hnames
    obtain rfl := Addresses.readLibraryVersions_spec hlibraries
    exact ⟨hheaders, hnames, hlibraries⟩
  · rintro ⟨hheaders, hnames, hlibraries⟩
    rw [hheaders, Option.bind_some, hnames, Option.bind_some, hlibraries]

theorem sectionsFit_iff (k : Machine) (f : File) : SectionsFit f ↔
    ∀ x, (beforeSections k f).completed = some x → ∀ s ∈ x.sectionHeader.dropLast, Readable f s := by
  refine forall_congr' fun x => ?_
  rw [completed_beforeSections_iff, and_imp, and_imp]

/-- What is allocated is freed when no section but the last one is missing in the file. -/
theorem frees_withFile_iff (k : Machine) (f : File) :
    (∀ o, withFile k f = .stopped o → Frees o) ↔ SectionsFit f := by
  have hhandled := handled_beforeSections k f
  have hlength (x : Xbe) (hx : (beforeSections k f).completed = some x) :=
    Addresses.headersLoaded_length ((completed_beforeSections_iff k f x).mp hx).1
  rw [sectionsFit_iff k f, withFile]
  cases hbefore : beforeSections k f with
  | stopped o =>
    rw [hbefore] at hhandled
    refine iff_of_true (fun o' ho => ?_) fun x hx => (by cases hx)
    cases ho
    exact hhandled
  | crashed o => exact iff_of_true (fun o' ho => (by cases ho)) fun x hx => (by cases hx)
  | next o =>
    rw [hbefore] at hhandled hlength
    obtain ⟨hdone, hstopped⟩ := sections_spec (k := k) (f := f) hhandled (hlength o.xbe rfl)
    have hfit : (∀ x, (Result.next o).completed = some x → ∀ s ∈ x.sectionHeader.dropLast,
      Readable f s) ↔
        ∀ s ∈ o.xbe.sectionHeader.dropLast, Readable f s := by
      refine ⟨fun h => h o.xbe rfl, fun h x hx => ?_⟩
      cases hx
      exact h
    rw [hfit]
    show (∀ o', (sections k f o).bind threadLocalStorage = .stopped o' → Frees o') ↔ _
    cases hsections : sections k f o with
    | stopped o' =>
      rw [← hstopped o' hsections]
      refine ⟨fun h => h o' rfl, fun h o'' ho => ?_⟩
      cases ho
      exact h
    | crashed o' => exact absurd hsections (sectionLoop_ne_crashed _ _ _ _)
    | next o' =>
      obtain ⟨hfrees, hnull, hall⟩ := hdone o' hsections
      exact iff_of_true (fun o'' ho => frees_threadLocalStorage hfrees hnull ho) fun s hs =>
        hall s (List.dropLast_subset _ hs)

end Sections

/-- A failed construction is destructed right, and writes to no buffer past its end, exactly when the
title ends within its forty characters and no section but the last one is missing in the file. -/
theorem loading_failure_iff (k : Machine) (file : Option File) :
    LoadOk k file ↔ ∀ f, file = some f → TitleFits f ∧ SectionsFit f := by
  cases file with
  | none =>
    refine iff_of_true ⟨fun o ho => ?_, fun b => ?_⟩ fun f hf => (by cases hf)
    · cases ho
      exact (early_initial k).stop (by decide) (by rfl) (by rfl) _
    · exact (bounded_setError (.initial k) _).mpr (fun b => Nat.zero_le _) b
  | some f =>
    have hbounded := bounded_withFile_iff k f
    have hfrees := frees_withFile_iff k f
    constructor
    · rintro ⟨hfreed, hbounds⟩ g hg
      cases hg
      exact ⟨hbounded.mp hbounds, hfrees.mp hfreed⟩
    · intro h
      obtain ⟨htitle, hsections⟩ := h f rfl
      exact ⟨hfrees.mpr hsections, hbounded.mpr htitle⟩

/-- A machine with pointers of 8 bytes, whose memory is zero. -/
def zeroMachine : Machine := ⟨8, by decide, fun _ => 0, fun _ => 0⟩

/-- An image at `0x10000` with two sections. The raw data of the first one is behind the end of the
file. -/
def truncatedImage : File where
  bytes i :=
    let word : Word :=
      if i / 4 = 0x000 / 4 then magicXBEH
      else if i / 4 = 0x104 / 4 then 0x10000
      else if i / 4 = 0x118 / 4 then 0x10000
      else if i / 4 = 0x11C / 4 then 2
      else if i / 4 = 0x120 / 4 then 0x101D0
      else if i / 4 = 0x1DC / 4 then 0x1000
      else if i / 4 = 0x1E0 / 4 then 0x10
      else if i / 4 = 0x1E4 / 4 then 0x10000
      else if i / 4 = 0x21C / 4 then 0x10000
      else 0
    LittleEndian.byteAt word (i % 4)
  size := 0x240

/-- The pointer to the second section is deleted without having been written. -/
theorem truncated_image_deletes_unwritten : ¬ ∀ (k : Machine) (file : Option File), LoadOk k file := by
  intro h
  have hfit : SectionsFit truncatedImage :=
    (frees_withFile_iff zeroMachine truncatedImage).mp (h zeroMachine (some truncatedImage)).freed
  have hloaded : (((headersLoaded truncatedImage).bind readSectionNames).bind
      (readLibraryVersions truncatedImage)).isSome := by decide
  have hraw : (headersLoaded truncatedImage).map (fun x =>
      x.sectionHeader.dropLast.map fun s => (s.dwRawAddr, s.dwSizeofRaw)) = some [(0x1000, 0x10)] := by
    decide
  obtain ⟨x, hx⟩ := Option.isSome_iff_exists.mp hloaded
  rw [← completed_beforeSections zeroMachine, completed_beforeSections_iff] at hx
  obtain ⟨hheaders, hnames, hlibraries⟩ := hx
  rw [hheaders, Option.map_some, Option.some.injEq] at hraw
  obtain ⟨s, hs, heq⟩ := List.mem_map.mp (hraw ▸ List.mem_singleton_self _)
  obtain ⟨haddr, hsize⟩ := Prod.mk.inj heq
  have hreadable := hfit x hheaders hnames hlibraries s hs
  rw [Readable, haddr, hsize] at hreadable
  revert hreadable
  decide

end OpenXbox.Loader.LoadFailure
