import OpenXbox.Lib.Ownership
import OpenXbox.Loader.Addresses

/-!
# The constructor and the destructor of `Xbe`

The constructor with the blocks that it allocates and the places that it writes, stage by stage. It
ends, stops with an error, or crashes in `GetAddr`. A completed construction is the one of the image.
-/

namespace OpenXbox.Loader.Construction

open OpenXbox.Lib OpenXbox.Lib.Ownership OpenXbox.Loader.Image

/-- `sizeof(TLS)`. -/
def sizeofTLS : Nat := 0x18

/-- The pointers of an `Xbe`, and `m_szError` of its base class. -/
inductive Member
  | headerEx
  | sectionHeader
  | sectionName
  | libraryVersion
  | kernelLibraryVersion
  | xapiLibraryVersion
  | tls
  | bzSection
  | error
  deriving DecidableEq

/-- The buffers of a fixed size, and the elements of arrays. -/
inductive Fixed
  | header
  | certificate
  | asciiTitle
  | sectionHeader
  | sectionName
  | libraryVersion
  | tls
  | szBuffer
  | error
  deriving DecidableEq

def Fixed.size : Fixed → Nat
  | .header => sizeofHeader
  | .certificate => sizeofCertificate
  | .asciiTitle => 40
  | .sectionHeader => sizeofSectionHeader
  | .sectionName => 9
  | .libraryVersion => sizeofLibraryVersion
  | .tls => sizeofTLS
  | .szBuffer => 260
  | .error => 256

/-- The size of a pointer, and what is in memory that the constructor has not written. -/
structure Machine where
  sizeofPointer : Nat
  wide : 2 ≤ sizeofPointer
  header : Nat → Byte
  memory : Pointer → Byte

/-- One of the arrays of `m_szSectionName`, up to the first zero. -/
structure SectionName where
  bytes : List Byte
  length_le : bytes.length ≤ 8

/-- The object with its pointers, those in the array `m_bzSection`, the number of blocks allocated so
far, and how far each buffer has been written. -/
structure Object where
  xbe : Xbe
  owners : Member → Owner
  cells : List Owner
  allocated : Nat
  names : List SectionName
  extent : Fixed → Nat
  message : List Char

namespace Object

/-- `ConstructorInit`. -/
def initial (k : Machine) : Object where
  xbe := ⟨k.header, none, [], none, false⟩
  owners _ := .null
  cells := []
  allocated := 0
  names := []
  extent _ := 0
  message := []

/-- `new`, for one of the pointers. -/
def alloc (o : Object) (m : Member) : Object :=
  { o with owners := Function.update o.owners m (.block o.allocated), allocated := o.allocated + 1 }

/-- The first `n` places of a buffer are written. -/
def fill (o : Object) (b : Fixed) (n : Nat) : Object :=
  { o with extent := Function.update o.extent b (max (o.extent b) n) }

/-- `SetError`. -/
def setError (o : Object) (text : List Char) : Object :=
  let o := if o.owners .error = .null then o.alloc .error else o
  { o.fill .error 255 with xbe.error := true, message := text.take 255 }

/-- `sprintf` to `szBuffer`, and `SetError` with it. -/
def sprintfError (o : Object) (text : List Char) : Object :=
  (o.fill .szBuffer (text.length + 1)).setError text

/-- The members that are deleted after the sections: those of `~Xbe`, and that of `~Error`. -/
def deleteOrder : List Member :=
  [.xapiLibraryVersion, .kernelLibraryVersion, .libraryVersion, .tls, .sectionName, .sectionHeader,
    .headerEx, .error]

/-- What `~Xbe` and `~Error` delete, in order. -/
def deleted (o : Object) : List Owner :=
  (if o.owners .bzSection = .null then []
    else (List.range o.xbe.dwSections.toNat).map (fun v => o.cells.getD v .uninitialised) ++
      [o.owners .bzSection]) ++
    deleteOrder.map o.owners

end Object

inductive Result
  | next (o : Object)
  | stopped (o : Object)
  | crashed (o : Object)

namespace Result

def bind : Result → (Object → Result) → Result
  | .next o, stage => stage o
  | .stopped o, _ => .stopped o
  | .crashed o, _ => .crashed o

def object : Result → Object
  | .next o => o
  | .stopped o => o
  | .crashed o => o

/-- The object that the stages have filled, if none of them has ended the construction. -/
def completed : Result → Option Xbe
  | .next o => some o.xbe
  | .stopped _ => none
  | .crashed _ => none

end Result

section Texts

/-- `%d`. -/
def decimal (v : Word) : List Char :=
  if v.toInt < 0 then '-' :: Nat.toDigits 10 v.toInt.natAbs else Nat.toDigits 10 v.toInt.natAbs

/-- `%X`. -/
def hexadecimal (v : Word) : List Char := (Nat.toDigits 16 v.toNat).map Char.toUpper

def unexpectedEndText : List Char := "Unexpected end of file while reading Xbe ".toList

def unexpectedEnd (what : String) : List Char := unexpectedEndText ++ what.toList

/-- `... %d (%Xh)`. -/
def unexpectedEndAt (what : String) (v : Nat) : List Char :=
  unexpectedEnd what ++ ' ' :: decimal (BitVec.ofNat 32 v) ++ ' ' :: '(' ::
    hexadecimal (BitVec.ofNat 32 v) ++ ['h', ')']

end Texts

section Stages

variable (k : Machine) (f : File)

def imageHeader (o : Object) : Result :=
  let o := o.fill .header sizeofHeader
  match f.read 0 sizeofHeader with
  | none => .stopped (o.setError (unexpectedEnd "Image Header"))
  | some b =>
    let o := { o with xbe.header := b.bytes }
    if o.xbe.dwMagic = magicXBEH then .next o
    else .stopped (o.setError "Invalid magic number in Xbe file".toList)

def headerExtraBytes (o : Object) : Result :=
  if o.xbe.dwSizeofHeaders.toNat > sizeofHeader then
    let exSize := roundUp o.xbe.dwSizeofHeaders 0x1000 - BitVec.ofNat 32 sizeofHeader
    let o := o.alloc .headerEx
    match f.read sizeofHeader exSize.toNat with
    | none => .stopped (o.setError (unexpectedEnd "Image Header (Ex)"))
    | some b => .next { o with xbe.headerEx := some b }
  else .next o

/-- The offset of `wszTitleName`. -/
def titleName : Nat := 0x0C

/-- The loop over the title, whose characters are two bytes long. It ends at a character with a lower
byte of zero. -/
def titleLoop (certificate : Nat → Byte) : Nat → Nat → Nat
  | 0, v => v
  | n + 1, v => if certificate (titleName + 2 * v) = 0 then v else titleLoop certificate n (v + 1)

/-- The length of the copied title. In the object there is the null pointer `m_SectionHeader` behind the
certificate. -/
def titleLength (certificate : Nat → Byte) : Nat :=
  titleLoop certificate ((sizeofCertificate - titleName) / 2) 0

def certificate (o : Object) : Result :=
  let o := o.fill .certificate sizeofCertificate
  match f.read (o.xbe.offset o.xbe.dwCertificateAddr) sizeofCertificate with
  | none => .stopped (o.setError (unexpectedEnd "Certificate"))
  | some b => .next (o.fill .asciiTitle (titleLength b.bytes + 1))

def tableLoop : Nat → Nat → Nat → Object → Result
  | _, 0, _, o => .next o
  | offset, n + 1, v, o =>
    let o := o.fill .sectionHeader sizeofSectionHeader
    match f.read offset sizeofSectionHeader with
    | none => .stopped (o.sprintfError (unexpectedEndAt "Section Header" v))
    | some b =>
      tableLoop (offset + sizeofSectionHeader) n (v + 1)
        { o with xbe.sectionHeader := o.xbe.sectionHeader ++ [sectionHeaderOf b] }

def sectionHeaders (o : Object) : Result :=
  tableLoop f (o.xbe.offset o.xbe.dwSectionHeadersAddr) o.xbe.dwSections.toNat 0
    { o.alloc .sectionHeader with xbe.sectionHeader := [] }

/-- A byte at a pointer; behind the end of a block there is something else. -/
def peek (x : Xbe) (p : Pointer) (b : Nat) : Byte :=
  let q := match p with
    | .header i => Pointer.header (i + b)
    | .headerEx i => .headerEx (i + b)
    | .section v i => .section v (i + b)
  (x.deref q).getD (k.memory q)

/-- The name at a pointer: eight bytes at most, up to a zero. -/
def nameAt (x : Xbe) (p : Pointer) : SectionName where
  bytes := ((List.range 8).map (peek k x p)).takeWhile (· ≠ 0)
  length_le := by
    have hle := (List.takeWhile_prefix (· ≠ (0 : Byte)) (l := (List.range 8).map (peek k x p))).length_le
    rwa [List.length_map, List.length_range] at hle

def SectionName.empty : SectionName := ⟨[], Nat.zero_le _⟩

def nameLoop : List SectionHeader → Object → Result
  | [], o => .next o
  | s :: rest, o =>
    match o.xbe.getAddr s.dwSectionNameAddr with
    | none => .crashed o
    | some sn =>
      let name := (sn.map (nameAt k o.xbe)).getD .empty
      let o := (o.fill .sectionName 9).fill .sectionName (min 8 (name.bytes.length + 1))
      nameLoop rest { o with names := o.names ++ [name] }

def sectionNames (o : Object) : Result := nameLoop k o.xbe.sectionHeader (o.alloc .sectionName)

def libraryLoop : Nat → Nat → Nat → Object → Result
  | _, 0, _, o => .next o
  | offset, n + 1, v, o =>
    let o := o.fill .libraryVersion sizeofLibraryVersion
    match f.read offset sizeofLibraryVersion with
    | none => .stopped (o.sprintfError (unexpectedEndAt "Library Version" v))
    | some _ => libraryLoop (offset + sizeofLibraryVersion) n (v + 1) o

/-- One version that has to be there. -/
def oneVersion (m : Member) (addr : Xbe → Word) (missing : String) (what : String) (o : Object) :
    Result :=
  if addr o.xbe = 0 then .stopped (o.setError missing.toList)
  else
    let o := (o.alloc m).fill .libraryVersion sizeofLibraryVersion
    match f.read (o.xbe.offset (addr o.xbe)) sizeofLibraryVersion with
    | none => .stopped (o.setError (unexpectedEnd what))
    | some _ => .next o

def kernelLibraryVersion : Object → Result :=
  oneVersion f .kernelLibraryVersion Xbe.dwKernelLibraryVersionAddr
    "Could not locate kernel library version" "Kernel Version"

def xapiLibraryVersion : Object → Result :=
  oneVersion f .xapiLibraryVersion Xbe.dwXAPILibraryVersionAddr
    "Could not locate Xapi Library Version" "Xapi Version"

def libraryVersions (o : Object) : Result :=
  if o.xbe.dwLibraryVersionsAddr = 0 then .next o
  else
    ((libraryLoop f (o.xbe.offset o.xbe.dwLibraryVersionsAddr) o.xbe.dwLibraryVersions.toNat 0
      (o.alloc .libraryVersion)).bind (kernelLibraryVersion f)).bind (xapiLibraryVersion f)

/-- The new array of pointers after `memset(m_bzSection, 0, m_Header.dwSections)`, which is a number of
bytes. -/
def clearedCells (n : Nat) : List Owner :=
  (List.range n).map fun v => if k.sizeofPointer * (v + 1) ≤ n then .null else .uninitialised

/-- `m_bzSection[v] = new uint08[RawSize]`. -/
def Object.allocCell (o : Object) (v : Nat) : Object :=
  { o with cells := o.cells.set v (.block o.allocated), allocated := o.allocated + 1 }

def sectionLoop : List SectionHeader → Nat → Object → Result
  | [], _, o => .next o
  | s :: rest, v, o =>
    let o := o.allocCell v
    let block :=
      if s.dwSizeofRaw = 0 then some ⟨fun _ => 0, 0⟩
      else f.read s.dwRawAddr.toNat s.dwSizeofRaw.toNat
    match block with
    | none =>
      let name := (o.names.getD v .empty).bytes.map fun b => Char.ofNat b.toNat
      .stopped (o.sprintfError (unexpectedEndAt "Section" v ++ ' ' :: '(' :: name ++ [')']))
    | some b => sectionLoop rest (v + 1) { o with xbe.bzSection := o.xbe.bzSection.map (· ++ [b]) }

def sections (o : Object) : Result :=
  sectionLoop f o.xbe.sectionHeader 0
    { o.alloc .bzSection with cells := clearedCells k o.xbe.dwSections.toNat, xbe.bzSection := some [] }

def threadLocalStorage (o : Object) : Result :=
  if o.xbe.dwTLSAddr = 0 then .next o
  else
    match o.xbe.getAddr o.xbe.dwTLSAddr with
    | none => .crashed o
    | some none => .stopped (o.setError "Could not locate Thread Local Storage".toList)
    | some (some _) => .next ((o.alloc .tls).fill .tls sizeofTLS)

/-- The stages before the one that reads the sections. -/
def beforeSections : Result :=
  (((((imageHeader f (.initial k)).bind (headerExtraBytes f)).bind (certificate f)).bind
    (sectionHeaders f)).bind (sectionNames k)).bind (libraryVersions f)

def withFile : Result := ((beforeSections k f).bind (sections k f)).bind threadLocalStorage

/-- The constructor, for a file that may not be there. -/
def construct (file : Option File) : Result :=
  match file with
  | none => .stopped ((Object.initial k).setError "Could not open Xbe file.".toList)
  | some f => withFile k f

end Stages

section Completed

variable {k : Machine} {f : File} {o : Object}

namespace Object

@[simp] theorem alloc_xbe (o : Object) (m : Member) : (o.alloc m).xbe = o.xbe := rfl

@[simp] theorem fill_xbe (o : Object) (b : Fixed) (n : Nat) : (o.fill b n).xbe = o.xbe := rfl

theorem fill_extent_self (o : Object) (b : Fixed) (n : Nat) :
    (o.fill b n).extent b = max (o.extent b) n := Function.update_self _ _ _

theorem fill_extent_of_ne (o : Object) {b c : Fixed} (h : c ≠ b) (n : Nat) :
    (o.fill b n).extent c = o.extent c := Function.update_of_ne h _ _

end Object

/-- A stage that completes as a function of the image does. -/
theorem completed_bind {stage : Object → Result} {φ : Xbe → Option Xbe}
    (h : ∀ o, (stage o).completed = φ o.xbe) (r : Result) :
    (r.bind stage).completed = r.completed.bind φ := by
  cases r with
  | next o => exact h o
  | stopped o => rfl
  | crashed o => rfl

theorem completed_imageHeader : (imageHeader f (.initial k)).completed = readHeader f := by
  rw [imageHeader, readHeader]
  cases f.read 0 sizeofHeader with
  | none => rfl
  | some b =>
    dsimp only [Object.fill, Object.initial, Option.bind_some]
    split <;> rfl

theorem completed_headerExtraBytes (o : Object) :
    (headerExtraBytes f o).completed = readHeaderEx f o.xbe := by
  rw [headerExtraBytes, readHeaderEx]
  split
  · dsimp only
    cases f.read sizeofHeader _ <;> rfl
  · rfl

theorem completed_certificate (o : Object) : (certificate f o).completed = readCertificate f o.xbe := by
  rw [certificate, readCertificate]
  dsimp only [Object.fill_xbe]
  cases f.read _ sizeofCertificate <;> rfl

theorem completed_tableLoop (offset n v : Nat) (o : Object) :
    (tableLoop f offset n v o).completed = (readTable f offset n).map fun table =>
      { o.xbe with sectionHeader := o.xbe.sectionHeader ++ table } := by
  induction n generalizing offset v o with
  | zero => simp [tableLoop, readTable, Result.completed]
  | succ n ih =>
    rw [tableLoop, readTable]
    cases f.read offset sizeofSectionHeader with
    | none => rfl
    | some b =>
      dsimp only [Option.bind_some]
      rw [ih, Option.map_map]
      simp [Function.comp_def]

theorem completed_sectionHeaders (o : Object) :
    (sectionHeaders f o).completed = readSectionHeaders f o.xbe := by
  rw [sectionHeaders, completed_tableLoop, readSectionHeaders]
  rfl

theorem completed_nameLoop (table : List SectionHeader) (o : Object) :
    (nameLoop k table o).completed =
      if ∀ s ∈ table, o.xbe.getAddr s.dwSectionNameAddr ≠ none then some o.xbe else none := by
  induction table generalizing o with
  | nil => simp [nameLoop, Result.completed]
  | cons s rest ih =>
    rw [nameLoop]
    cases hget : o.xbe.getAddr s.dwSectionNameAddr with
    | none =>
      rw [if_neg fun h => h s List.mem_cons_self hget]
      rfl
    | some sn =>
      dsimp only
      rw [ih]
      refine if_congr ?_ rfl rfl
      simp [hget]

theorem completed_sectionNames (o : Object) : (sectionNames k o).completed = readSectionNames o.xbe :=
  completed_nameLoop _ _

theorem completed_libraryLoop (offset n v : Nat) (o : Object) :
    (libraryLoop f offset n v o).completed =
      if ∃ i < n, (f.read (offset + i * sizeofLibraryVersion) sizeofLibraryVersion).isNone then none
      else some o.xbe := by
  induction n generalizing offset v o with
  | zero => simp [libraryLoop, Result.completed]
  | succ n ih =>
    rw [libraryLoop]
    cases hread : f.read offset sizeofLibraryVersion with
    | none =>
      rw [if_pos ⟨0, Nat.succ_pos n, by rw [Nat.zero_mul, Nat.add_zero, hread]; rfl⟩]
      rfl
    | some b =>
      dsimp only
      rw [ih]
      refine if_congr ?_ rfl rfl
      constructor
      · rintro ⟨i, hi, hnone⟩
        refine ⟨i + 1, by omega, ?_⟩
        rwa [Nat.succ_mul, Nat.add_comm (i * sizeofLibraryVersion), ← Nat.add_assoc]
      · rintro ⟨i, hi, hnone⟩
        cases i with
        | zero =>
          rw [Nat.zero_mul, Nat.add_zero, hread] at hnone
          cases hnone
        | succ i =>
          refine ⟨i, by omega, ?_⟩
          rwa [Nat.succ_mul, Nat.add_comm (i * sizeofLibraryVersion), ← Nat.add_assoc] at hnone

/-- The image, if there is a version at the address that it gives. -/
def readOneVersion (f : File) (addr : Xbe → Word) (x : Xbe) : Option Xbe :=
  if addr x = 0 then none else (f.read (x.offset (addr x)) sizeofLibraryVersion).map fun _ => x

theorem completed_oneVersion (m : Member) (addr : Xbe → Word) (missing what : String) (o : Object) :
    (oneVersion f m addr missing what o).completed = readOneVersion f addr o.xbe := by
  rw [oneVersion, readOneVersion]
  split
  · rfl
  · dsimp only [Object.fill_xbe, Object.alloc_xbe]
    cases f.read _ sizeofLibraryVersion <;> rfl

theorem completed_libraryVersions (o : Object) :
    (libraryVersions f o).completed = readLibraryVersions f o.xbe := by
  rw [libraryVersions, readLibraryVersions]
  split
  · rfl
  · have hkernel (o : Object) : (kernelLibraryVersion f o).completed =
        readOneVersion f Xbe.dwKernelLibraryVersionAddr o.xbe := completed_oneVersion _ _ _ _ o
    have hxapi (o : Object) : (xapiLibraryVersion f o).completed =
        readOneVersion f Xbe.dwXAPILibraryVersionAddr o.xbe := completed_oneVersion _ _ _ _ o
    rw [completed_bind hxapi, completed_bind hkernel, completed_libraryLoop, Object.alloc_xbe]
    split
    · rfl
    · rw [Option.bind_some, readOneVersion]
      split
      · rfl
      · cases f.read _ sizeofLibraryVersion with
        | none => rfl
        | some b => rfl

/-- The raw data of a section, if it is in the file. -/
def rawData (f : File) (s : SectionHeader) : Option Block :=
  if s.dwSizeofRaw = 0 then some ⟨fun _ => 0, 0⟩ else f.read s.dwRawAddr.toNat s.dwSizeofRaw.toNat

/-- The error for a section whose raw data is not in the file. -/
def sectionText (o : Object) (v : Nat) : List Char :=
  unexpectedEndAt "Section" v ++ ' ' :: '(' ::
    ((o.names.getD v .empty).bytes.map fun b => Char.ofNat b.toNat) ++ [')']

theorem sectionLoop_cons (s : SectionHeader) (rest : List SectionHeader) (v : Nat) (o : Object) :
    sectionLoop f (s :: rest) v o =
      match rawData f s with
      | none => .stopped ((o.allocCell v).sprintfError (sectionText o v))
      | some b =>
        sectionLoop f rest (v + 1)
          { o.allocCell v with xbe.bzSection := o.xbe.bzSection.map (· ++ [b]) } := rfl

theorem readBlocks_cons (s : SectionHeader) (rest : List SectionHeader) :
    readBlocks f (s :: rest) =
      (rawData f s).bind fun b => (readBlocks f rest).map (b :: ·) := rfl

theorem completed_sectionLoop (table : List SectionHeader) (v : Nat) (o : Object) :
    (sectionLoop f table v o).completed = (readBlocks f table).map fun blocks =>
      { o.xbe with bzSection := o.xbe.bzSection.map (· ++ blocks) } := by
  induction table generalizing v o with
  | nil => simp [sectionLoop, readBlocks, Result.completed]
  | cons s rest ih =>
    rw [sectionLoop_cons, readBlocks_cons]
    cases rawData f s with
    | none => rfl
    | some b =>
      dsimp only [Option.bind_some]
      rw [ih, Option.map_map]
      simp [Function.comp_def, Object.allocCell]

theorem completed_sections (o : Object) : (sections k f o).completed = readSections f o.xbe := by
  rw [sections, completed_sectionLoop, readSections]
  rfl

theorem completed_threadLocalStorage (o : Object) :
    (threadLocalStorage o).completed = readTLS o.xbe := by
  rw [threadLocalStorage, readTLS]
  split
  · rfl
  · cases o.xbe.getAddr o.xbe.dwTLSAddr with
    | none => rfl
    | some p => cases p <;> rfl

theorem completed_beforeSections (k : Machine) (f : File) :
    (beforeSections k f).completed =
      ((headersLoaded f).bind readSectionNames).bind (readLibraryVersions f) := by
  rw [beforeSections, completed_bind completed_libraryVersions, completed_bind completed_sectionNames,
    completed_bind completed_sectionHeaders, completed_bind completed_certificate,
    completed_bind completed_headerExtraBytes, completed_imageHeader, headersLoaded]
  simp only [Option.bind_assoc]

/-- A construction that ends without an error is that of the image. -/
theorem completed_construct (k : Machine) (f : File) :
    (construct k (some f)).completed = Image.construct f := by
  rw [construct, withFile, completed_bind completed_threadLocalStorage,
    completed_bind completed_sections, completed_beforeSections, Image.construct, sectionsLoaded]
  simp only [Option.bind_assoc]

end Completed

end OpenXbox.Loader.Construction
