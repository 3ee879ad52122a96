import OpenXbox.Lib.Loop
import OpenXbox.Lib.Stores

/-!
# I/O exits of the two back-ends

An I/O instruction leaves the guest with a buffer of elements in host memory. `HandleIO`
gives each element to `IOWrite`, or has `IORead` store a 32-bit value where the element
is. What `IORead` leaves behind its pointer is an input, access by access.
-/

namespace OpenXbox.Cpu.StringIo

open OpenXbox.Lib.Loop OpenXbox.Lib.Stores

abbrev Byte := BitVec 8
abbrev Word := BitVec 32
abbrev Ptr := BitVec 64
abbrev Memory := Ptr → Byte

/-- The sizes of an element; the assertion on other sizes never fails. -/
inductive Size where
  | one
  | two
  | four

def Size.bytes : Size → Nat
  | .one => 1
  | .two => 2
  | .four => 4

inductive Direction where
  | input
  | output
  deriving DecidableEq

/-- An access to the port. -/
inductive Access where
  | read (port : BitVec 16) (size : Size)
  | write (port : BitVec 16) (value : Word) (size : Size)

def byteOf (value : Word) (i : Nat) : Byte := (value >>> (8 * i)).setWidth 8

/-- The element at a pointer, as the value that `IOWrite` is given. -/
def element (mem : Memory) (ptr : Ptr) : Size → Word
  | .one => (mem ptr).setWidth 32
  | .two => (mem (ptr + 1) ++ mem ptr).setWidth 32
  | .four => mem (ptr + 3) ++ mem (ptr + 2) ++ mem (ptr + 1) ++ mem ptr

structure IoState where
  i : BitVec 16
  ptr : Ptr
  memory : Memory
  accesses : List Access

/-- What stays the same in the loop; `results k` is the word that the access number `k`
leaves behind its pointer if it is a call of `IORead`. -/
structure Transfer where
  direction : Direction
  down : Bool
  port : BitVec 16
  size : Size
  count : Nat
  results : Nat → Word

/-- A turn of the loop that both back-ends have. -/
def ioBody (x : Transfer) (s : IoState) : Turn IoState :=
  if s.i.toNat < x.count then
    let (memory, access) :=
      match x.direction with
      | .output => (s.memory, Access.write x.port (element s.memory s.ptr x.size) x.size)
      | .input =>
        (store 4 s.ptr (byteOf (x.results s.accesses.length)) s.memory, Access.read x.port x.size)
    .next
      { i := s.i + 1
        ptr := if x.down then s.ptr - BitVec.ofNat 64 x.size.bytes
          else s.ptr + BitVec.ofNat 64 x.size.bytes
        memory := memory
        accesses := s.accesses ++ [access] }
  else .exit s

/-! ## The back-ends -/

/-- What `kvm_run` says about an I/O exit. -/
structure KvmIo where
  direction : Direction
  port : BitVec 16
  size : Size
  count : BitVec 32
  dataOffset : BitVec 64

/-- `KvmCpu::HandleIO`: the buffer is walked down when the direction is not zero, which
is that of OUT. -/
def KvmIo.transfer (io : KvmIo) (results : Nat → Word) : Transfer :=
  ⟨io.direction, io.direction = .output, io.port, io.size, io.count.toNat, results⟩

def KvmIo.start (io : KvmIo) (kvmRun : Ptr) (mem : Memory) : IoState where
  i := 0
  ptr :=
    if io.direction = .output then
      kvmRun + io.dataOffset + (BitVec.ofNat 32 io.size.bytes * io.count).setWidth 64 -
        BitVec.ofNat 64 io.size.bytes
    else kvmRun + io.dataOffset
  memory := mem
  accesses := []

/-- What the tunnel says about an I/O exit. -/
structure HaxmIo where
  df : Bool
  port : BitVec 16
  direction : Direction
  size : Size
  count : BitVec 16

/-- `HaxmCpu::HandleIO`: the buffer is walked down when the direction flag is set. -/
def HaxmIo.transfer (io : HaxmIo) (results : Nat → Word) : Transfer :=
  ⟨io.direction, io.df, io.port, io.size, io.count.toNat, results⟩

def HaxmIo.start (io : HaxmIo) (buffer : Ptr) (mem : Memory) : IoState where
  i := 0
  ptr :=
    if io.df then
      buffer + BitVec.ofNat 64 (io.size.bytes * io.count.toNat) - BitVec.ofNat 64 io.size.bytes
    else buffer
  memory := mem
  accesses := []

/-! ## What is asked of an exit -/

/-- The place of an element, from the first of the buffer. -/
def place (buffer : Ptr) (size : Size) (i : Nat) : Ptr := buffer + BitVec.ofNat 64 (i * size.bytes)

/-- The loop ends, and it has made one access for each of `n` elements: the writes carry
the elements in their order, the reads are stored in it and change nothing else. -/
def Transferred (x : Transfer) (start : IoState) (n : Nat) (buffer : Ptr) (elem : Nat → Ptr) : Prop :=
  ∃ t, Ends (ioBody x) start t ∧
    (x.direction = .output → t.accesses = (List.range n).map fun i =>
      .write x.port (element start.memory (elem i) x.size) x.size) ∧
    (x.direction = .input → t.accesses = List.replicate n (.read x.port x.size) ∧
      (∀ i, i < n → ∀ b, b < x.size.bytes →
        t.memory (elem i + BitVec.ofNat 64 b) = byteOf (x.results i) b)) ∧
    ∀ a, n * x.size.bytes ≤ (a - buffer).toNat → t.memory a = start.memory a

/-- The elements of KVM are in the buffer from its start on. -/
def KvmIo.Correct (io : KvmIo) (kvmRun : Ptr) (results : Nat → Word) (mem : Memory) : Prop :=
  Transferred (io.transfer results) (io.start kvmRun mem) io.count.toNat (kvmRun + io.dataOffset)
    (place (kvmRun + io.dataOffset) io.size)

/-- The elements of HAXM are counted from the end of the buffer when the direction flag is
set. -/
def HaxmIo.Correct (io : HaxmIo) (buffer : Ptr) (results : Nat → Word) (mem : Memory) : Prop :=
  Transferred (io.transfer results) (io.start buffer mem) io.count.toNat buffer
    fun i => place buffer io.size (if io.df then io.count.toNat - 1 - i else i)

/-! ## The loop -/

section Loop

variable (x : Transfer) (start : IoState)

/-- The pointer after `k` turns. -/
def ptrAt (k : Nat) : Ptr :=
  if x.down then start.ptr - BitVec.ofNat 64 (k * x.size.bytes)
  else start.ptr + BitVec.ofNat 64 (k * x.size.bytes)

def accessAt (k : Nat) : Access :=
  match x.direction with
  | .output => .write x.port (element start.memory (ptrAt x start k) x.size) x.size
  | .input => .read x.port x.size

/-- The state after `k` turns. -/
def turnState (k : Nat) : IoState where
  i := BitVec.ofNat 16 k
  ptr := ptrAt x start k
  memory :=
    match x.direction with
    | .output => start.memory
    | .input => stores 4 (ptrAt x start) (fun j => byteOf (x.results j)) start.memory k
  accesses := (List.range k).map (accessAt x start)

theorem ptrAt_succ (k : Nat) : ptrAt x start (k + 1) =
    if x.down then ptrAt x start k - BitVec.ofNat 64 x.size.bytes
    else ptrAt x start k + BitVec.ofNat 64 x.size.bytes := by
  rw [ptrAt, ptrAt, Nat.add_mul, Nat.one_mul, BitVec.ofNat_add]
  split
  · exact sub_add_eq_sub_sub _ _ _
  · rw [BitVec.add_assoc]

/-- The counter has 16 bits: a turn is made whenever its remainder is below the count. -/
theorem ioBody_turnState {k : Nat} (hk : k % 2 ^ 16 < x.count) :
    ioBody x (turnState x start k) = .next (turnState x start (k + 1)) := by
  have hi : (turnState x start k).i.toNat < x.count := by
    rw [turnState, BitVec.toNat_ofNat]
    exact hk
  have hlen : (turnState x start k).accesses.length = k := by
    rw [turnState, List.length_map, List.length_range]
  have hnext : BitVec.ofNat 16 (k + 1) = BitVec.ofNat 16 k + 1 := BitVec.ofNat_add k 1
  rw [ioBody, if_pos hi, hlen]
  cases hd : x.direction with
  | output =>
    simp only [turnState, hd, hnext, ptrAt_succ, List.range_succ, List.map_append,
      List.map_singleton, accessAt]
  | input =>
    simp only [turnState, hd, hnext, ptrAt_succ, List.range_succ, List.map_append,
      List.map_singleton, accessAt, stores]

theorem turnState_zero (hi : start.i = 0) (ha : start.accesses = []) :
    turnState x start 0 = start := by
  have hptr : ptrAt x start 0 = start.ptr := by
    rw [ptrAt, Nat.zero_mul]
    split
    · exact BitVec.sub_zero _
    · exact BitVec.add_zero _
  have hmem : (turnState x start 0).memory = start.memory := by
    rw [turnState]
    cases x.direction <;> rfl
  obtain ⟨i, ptr, memory, accesses⟩ := start
  obtain rfl : i = 0 := hi
  obtain rfl : accesses = [] := ha
  rw [turnState, IoState.mk.injEq]
  exact ⟨rfl, hptr, hmem, rfl⟩

/-- The loop ends when the count fits in the counter, after that many turns. -/
theorem ends_iff (hi : start.i = 0) (ha : start.accesses = []) (t : IoState) :
    Ends (ioBody x) start t ↔ x.count < 2 ^ 16 ∧ t = turnState x start x.count := by
  have hzero := turnState_zero x start hi ha
  have hends (hcount : x.count < 2 ^ 16) : Ends (ioBody x) start (turnState x start x.count) := by
    have hexit : ioBody x (turnState x start x.count) = .exit (turnState x start x.count) := by
      have hnot : ¬ (turnState x start x.count).i.toNat < x.count := by
        rw [turnState, BitVec.toNat_ofNat, Nat.mod_eq_of_lt hcount]
        exact lt_irrefl _
      rw [ioBody, if_neg hnot]
    have hall := Ends.of_count
      (fun k hk => ioBody_turnState x start (k := k) ((Nat.mod_le _ _).trans_lt hk)) hexit
    rwa [hzero] at hall
  constructor
  · intro h
    by_cases hcount : x.count < 2 ^ 16
    · exact ⟨hcount, h.unique (hends hcount)⟩
    · obtain ⟨fuel, hf⟩ := h
      have hnone : loop (ioBody x) fuel start = none := by
        refine loop_none_of_invariant (I := fun s => ∃ k, s = turnState x start k) ?_
          ⟨0, hzero.symm⟩ fuel
        rintro s ⟨k, rfl⟩
        exact ⟨_, ioBody_turnState x start (by omega), k + 1, rfl⟩
      rw [hnone] at hf
      cases hf
  · intro h'
    obtain ⟨hcount, rfl⟩ := h'
    exact hends hcount

variable {x start} {buffer : Ptr} {elem : Nat → Ptr}

theorem transferred_output_iff (hd : x.direction = .output) (hi : start.i = 0)
    (ha : start.accesses = []) : Transferred x start x.count buffer elem ↔ x.count < 2 ^ 16 ∧
      ∀ i, i < x.count →
        element start.memory (ptrAt x start i) x.size = element start.memory (elem i) x.size := by
  have haccess (k : Nat) : accessAt x start k =
      .write x.port (element start.memory (ptrAt x start k) x.size) x.size := by
    rw [accessAt, hd]
  have hmem : (turnState x start x.count).memory = start.memory := by rw [turnState, hd]
  constructor
  · intro h
    obtain ⟨t, hends, hout, -⟩ := h
    obtain ⟨hcount, rfl⟩ := (ends_iff x start hi ha t).mp hends
    refine ⟨hcount, fun i hlt => ?_⟩
    have hsame := List.map_inj_left.mp (hout hd) i (List.mem_range.mpr hlt)
    rw [haccess] at hsame
    exact (Access.write.inj hsame).2.1
  · intro h
    obtain ⟨hcount, hsame⟩ := h
    refine ⟨_, (ends_iff x start hi ha _).mpr ⟨hcount, rfl⟩, fun _ => ?_,
      fun hin => absurd (hd.symm.trans hin) (by decide), fun a _ => by rw [hmem]⟩
    refine List.map_inj_left.mpr fun i hlt => ?_
    rw [haccess, hsame i (List.mem_range.mp hlt)]

/-- The memory that the reads leave. -/
def readMemory (x : Transfer) (start : IoState) : Memory :=
  stores 4 (ptrAt x start) (fun j => byteOf (x.results j)) start.memory x.count

theorem transferred_input_iff (hd : x.direction = .input) (hi : start.i = 0)
    (ha : start.accesses = []) : Transferred x start x.count buffer elem ↔ x.count < 2 ^ 16 ∧
      (∀ i, i < x.count → ∀ b, b < x.size.bytes →
        readMemory x start (elem i + BitVec.ofNat 64 b) = byteOf (x.results i) b) ∧
      ∀ a, x.count * x.size.bytes ≤ (a - buffer).toNat → readMemory x start a = start.memory a := by
  have hmem : (turnState x start x.count).memory = readMemory x start := by
    rw [turnState, hd]
    rfl
  have haccess : (turnState x start x.count).accesses =
      List.replicate x.count (.read x.port x.size) := by
    have hread : accessAt x start = fun _ => .read x.port x.size := by
      funext k
      rw [accessAt, hd]
    rw [turnState, hread, List.map_const', List.length_range]
  constructor
  · intro h
    obtain ⟨t, hends, -, hin, hout⟩ := h
    obtain ⟨hcount, rfl⟩ := (ends_iff x start hi ha t).mp hends
    rw [hmem] at hin hout
    exact ⟨hcount, (hin hd).2, hout⟩
  · intro h
    obtain ⟨hcount, hin, hout⟩ := h
    refine ⟨_, (ends_iff x start hi ha _).mpr ⟨hcount, rfl⟩,
      fun hw => absurd (hd.symm.trans hw) (by decide), fun _ => ⟨haccess, ?_⟩, ?_⟩
    · rw [hmem]
      exact hin
    · rw [hmem]
      exact hout

end Loop

/-! ## Elements walked up and down -/

/-- The bytes that the last of `n` results has above its element are the ones that follow
the buffer. -/
def KeepsBehind (buffer : Ptr) (size : Size) (n : Nat) (results : Nat → Word) (mem : Memory) :
    Prop :=
  0 < n → ∀ b, size.bytes ≤ b → b < 4 →
    byteOf (results (n - 1)) b = mem (place buffer size (n - 1) + BitVec.ofNat 64 b)

/-- On the way down the results of later accesses reach over elements that are already
there, up to three bytes above their own; what each byte is overwritten with last is the
byte itself. The same for the bytes that follow the buffer. -/
def KeepsAbove (buffer : Ptr) (size : Size) (n : Nat) (results : Nat → Word) (mem : Memory) :
    Prop :=
  (∀ i, i < n → ∀ b, b < size.bytes →
    byteOf (results (i + min ((3 - b) / size.bytes) (n - 1 - i)))
        (min ((3 - b) / size.bytes) (n - 1 - i) * size.bytes + b) = byteOf (results i) b) ∧
  ∀ c, 0 < min ((3 - c) / size.bytes) n →
    byteOf (results (min ((3 - c) / size.bytes) n - 1)) (min ((3 - c) / size.bytes) n * size.bytes + c) =
      mem (place buffer size n + BitVec.ofNat 64 c)

/-- The place of the element that is `j` elements before the last one. -/
def placeDown (buffer : Ptr) (size : Size) (n j : Nat) : Ptr := place buffer size (n - 1 - j)

theorem Size.bytes_pos (size : Size) : 0 < size.bytes := by cases size <;> decide

theorem Size.bytes_le (size : Size) : size.bytes ≤ 4 := by cases size <;> decide

theorem place_add (buffer : Ptr) (size : Size) (i b : Nat) :
    place buffer size i + BitVec.ofNat 64 b = buffer + BitVec.ofNat 64 (i * size.bytes + b) := by
  rw [place, BitVec.add_assoc, ← BitVec.ofNat_add]

section Walk

variable {buffer : Ptr} {size : Size} {n : Nat} {results : Nat → Word} {mem : Memory}

/-- The memory after `n` stores of whole words, the first one in the first element. -/
def storedUp (buffer : Ptr) (size : Size) (n : Nat) (results : Nat → Word) (mem : Memory) : Memory :=
  stores 4 (place buffer size) (fun j => byteOf (results j)) mem n

/-- The memory after `n` stores of whole words, the first one in the last element. -/
def storedDown (buffer : Ptr) (size : Size) (n : Nat) (results : Nat → Word) (mem : Memory) :
    Memory :=
  stores 4 (placeDown buffer size n) (fun j => byteOf (results j)) mem n

theorem fits (size : Size) (hn : n < 2 ^ 16) {i : Nat} (hi : i < n) : i * size.bytes + 8 ≤ 2 ^ 64 := by
  have hle := Nat.mul_le_mul hi.le size.bytes_le
  omega

theorem covers_place (buffer : Ptr) (size : Size) (hn : n < 2 ^ 16) {i d : Nat} (hi : i < n) (hd : d < 2 ^ 64) :
    (buffer + BitVec.ofNat 64 d - place buffer size i).toNat < 4 ↔
      i * size.bytes ≤ d ∧ d < i * size.bytes + 4 := by
  have hfit := fits size hn hi
  exact covers_iff (by omega) hd

theorem sub_place (hn : n < 2 ^ 16) {i d : Nat} (hi : i < n) (hd : d < 2 ^ 64)
    (hle : i * size.bytes ≤ d) :
    (buffer + BitVec.ofNat 64 d - place buffer size i).toNat = d - i * size.bytes := by
  have hfit := fits size hn hi
  rw [place, toNat_sub_offset (by omega) hd, if_pos hle]

/-- Walking up, the last word that covers a byte is the one of its element, or the last
one. -/
theorem storedUp_apply (hn : n < 2 ^ 16) {k d : Nat} (hk : k < n) (hle : k * size.bytes ≤ d)
    (hlt : d < k * size.bytes + 4) (hlast : d < (k + 1) * size.bytes ∨ k + 1 = n) :
    storedUp buffer size n results mem (buffer + BitVec.ofNat 64 d) =
      byteOf (results k) (d - k * size.bytes) := by
  have hfit := fits size hn hk
  have hd : d < 2 ^ 64 := by omega
  rw [storedUp, stores_last hk ((covers_place buffer size hn hk hd).mpr ⟨hle, hlt⟩) ?_, sub_place hn hk hd hle]
  intro j hkj hj hcover
  rcases hlast with hnext | rfl
  · have hmul : (k + 1) * size.bytes ≤ j * size.bytes := Nat.mul_le_mul_right _ hkj
    have hlow := ((covers_place buffer size hn hj hd).mp hcover).1
    omega
  · omega

theorem storedUp_outside (hn : n < 2 ^ 16) {d : Nat} (hd : d < 2 ^ 64)
    (hout : ∀ k, k < n → ¬ (k * size.bytes ≤ d ∧ d < k * size.bytes + 4)) :
    storedUp buffer size n results mem (buffer + BitVec.ofNat 64 d) =
      mem (buffer + BitVec.ofNat 64 d) :=
  stores_of_not_covered fun k hk hcover => hout k hk ((covers_place buffer size hn hk hd).mp hcover)

/-- Walking down, the last word that covers a byte is the lowest one. -/
theorem storedDown_apply (hn : n < 2 ^ 16) {k d : Nat} (hk : k < n)
    (hle : (n - 1 - k) * size.bytes ≤ d) (hlt : d < (n - 1 - k) * size.bytes + 4)
    (hlast : k + 1 = n ∨ (n - 1 - (k + 1)) * size.bytes + 4 ≤ d) :
    storedDown buffer size n results mem (buffer + BitVec.ofNat 64 d) =
      byteOf (results k) (d - (n - 1 - k) * size.bytes) := by
  have hplace (j : Nat) (hj : j < n) : n - 1 - j < n := by omega
  have hfit := fits size hn (hplace k hk)
  have hd : d < 2 ^ 64 := by omega
  have hcover (j : Nat) (hj : j < n) := covers_place buffer size hn
    (hplace j hj) hd
  have hlater (j : Nat) (hkj : k < j) (hj : j < n) :
      ¬ (buffer + BitVec.ofNat 64 d - placeDown buffer size n j).toNat < 4 := by
    intro hc
    have hhigh := ((hcover j hj).mp hc).2
    rcases hlast with rfl | hnext
    · omega
    · have hmul : (n - 1 - j) * size.bytes ≤ (n - 1 - (k + 1)) * size.bytes :=
        Nat.mul_le_mul_right _ (by omega)
      omega
  have hhere : (buffer + BitVec.ofNat 64 d - placeDown buffer size n k).toNat < 4 :=
    (hcover k hk).mpr ⟨hle, hlt⟩
  rw [storedDown, stores_last hk hhere hlater, placeDown, sub_place hn (hplace k hk) hd hle]

theorem storedDown_outside (hn : n < 2 ^ 16) {d : Nat} (hd : d < 2 ^ 64)
    (hout : ∀ k, k < n → ¬ (k * size.bytes ≤ d ∧ d < k * size.bytes + 4)) :
    storedDown buffer size n results mem (buffer + BitVec.ofNat 64 d) =
      mem (buffer + BitVec.ofNat 64 d) :=
  stores_of_not_covered fun k hk hcover =>
    hout (n - 1 - k) (by omega) ((covers_place buffer size hn (by omega) hd).mp hcover)

/-- Walking up, only what follows the buffer can go wrong. -/
theorem storedUp_iff (hn : n < 2 ^ 16) :
    ((∀ i, i < n → ∀ b, b < size.bytes →
        storedUp buffer size n results mem (place buffer size i + BitVec.ofNat 64 b) =
          byteOf (results i) b) ∧
      ∀ a, n * size.bytes ≤ (a - buffer).toNat → storedUp buffer size n results mem a = mem a) ↔
      KeepsBehind buffer size n results mem := by
  have hpos := size.bytes_pos
  have hle := size.bytes_le
  have hbyte {k b : Nat} (hk : k < n) (hb : b < 4) (hlast : b < size.bytes ∨ k + 1 = n) :
      storedUp buffer size n results mem (place buffer size k + BitVec.ofNat 64 b) =
        byteOf (results k) b := by
    have hmul : (k + 1) * size.bytes = k * size.bytes + size.bytes := Nat.succ_mul _ _
    rw [place_add, storedUp_apply hn hk (by omega) (by omega) (by omega), Nat.add_sub_cancel_left]
  constructor
  · rintro ⟨-, hout⟩ hn0 b hsb hb
    rw [← hbyte (Nat.sub_one_lt_of_lt hn0) hb (.inr (Nat.sub_add_cancel hn0))]
    have hfit := fits size hn (Nat.sub_one_lt_of_lt hn0)
    have hmul : n * size.bytes = (n - 1) * size.bytes + size.bytes := by
      rw [← Nat.succ_mul, Nat.succ_eq_add_one, Nat.sub_add_cancel hn0]
    refine hout _ ?_
    rw [place_add, toNat_add_sub (by omega)]
    omega
  · intro hkeeps
    refine ⟨fun i hi b hb => hbyte hi (by omega) (.inl hb), fun a ha => ?_⟩
    obtain ⟨heq, hd⟩ := exists_offset buffer a
    generalize (a - buffer).toNat = d at ha heq hd
    subst heq
    by_cases hlast : 0 < n ∧ d < (n - 1) * size.bytes + 4
    · have hmul : n * size.bytes = (n - 1) * size.bytes + size.bytes := by
        rw [← Nat.succ_mul, Nat.succ_eq_add_one, Nat.sub_add_cancel hlast.1]
      have hplace : place buffer size (n - 1) + BitVec.ofNat 64 (d - (n - 1) * size.bytes) =
          buffer + BitVec.ofNat 64 d := by
        rw [place_add, show (n - 1) * size.bytes + (d - (n - 1) * size.bytes) = d by omega]
      rw [← hplace, hbyte (Nat.sub_one_lt_of_lt hlast.1) (by omega)
        (.inr (Nat.sub_add_cancel hlast.1))]
      exact hkeeps hlast.1 _ (by omega) (by omega)
    · refine storedUp_outside hn hd fun k hk hcover => hlast ⟨by omega, ?_⟩
      have hmul : k * size.bytes ≤ (n - 1) * size.bytes := Nat.mul_le_mul_right _ (by omega)
      omega

/-- The number of later accesses, on the way down, whose words cover a byte. -/
theorem reach_spec (size : Size) (b m : Nat) (hb : b < 4) :
    min ((3 - b) / size.bytes) m * size.bytes + b < 4 ∧
      (min ((3 - b) / size.bytes) m = m ∨
        4 ≤ min ((3 - b) / size.bytes) m * size.bytes + size.bytes + b) := by
  have hle : (3 - b) / size.bytes * size.bytes ≤ 3 - b := Nat.div_mul_le_self _ _
  have hlt : 3 - b < (3 - b) / size.bytes * size.bytes + size.bytes := Nat.lt_div_mul_add size.bytes_pos
  rcases Nat.le_total m ((3 - b) / size.bytes) with hm | hm
  · rw [Nat.min_eq_right hm]
    have hmul := Nat.mul_le_mul_right size.bytes hm
    exact ⟨by omega, .inl rfl⟩
  · rw [Nat.min_eq_left hm]
    exact ⟨by omega, .inr (by omega)⟩

theorem rows_split (size : Size) {m q : Nat} (hq : q ≤ m) :
    (m - q) * size.bytes + q * size.bytes = m * size.bytes := by
  rw [← Nat.add_mul, Nat.sub_add_cancel hq]

theorem rows_succ (size : Size) {m q : Nat} (hq : q + 1 ≤ m) :
    (m - (q + 1)) * size.bytes + (q * size.bytes + size.bytes) = m * size.bytes := by
  rw [← Nat.succ_mul]
  exact rows_split size hq

/-- The access that comes last at a byte of an element. -/
theorem storedDown_element (hn : n < 2 ^ 16) {i b : Nat} (hi : i < n) (hb : b < size.bytes) :
    storedDown buffer size n results mem (place buffer size (n - 1 - i) + BitVec.ofNat 64 b) =
      byteOf (results (i + min ((3 - b) / size.bytes) (n - 1 - i)))
        (min ((3 - b) / size.bytes) (n - 1 - i) * size.bytes + b) := by
  have hle := size.bytes_le
  obtain ⟨hreach, hlast⟩ := reach_spec size b (n - 1 - i) (by omega)
  have hq : min ((3 - b) / size.bytes) (n - 1 - i) ≤ n - 1 - i := Nat.min_le_right _ _
  generalize min ((3 - b) / size.bytes) (n - 1 - i) = q at hreach hlast hq
  have hrow : n - 1 - (i + q) = n - 1 - i - q := by omega
  have hmul := rows_split size hq
  rw [place_add, storedDown_apply hn (k := i + q) (by omega) (by rw [hrow]; omega)
    (by rw [hrow]; omega) ?_, hrow]
  · congr 1
    omega
  · rcases hlast with rfl | hfar
    · exact .inl (by omega)
    · by_cases hend : i + q + 1 = n
      · exact .inl hend
      · have hstep := rows_succ size (m := n - 1 - i) (q := q) (by omega)
        rw [show n - 1 - (i + q + 1) = n - 1 - i - (q + 1) by omega]
        exact .inr (by omega)

/-- The access that comes last at a byte behind the buffer. -/
theorem storedDown_behind (hn : n < 2 ^ 16) {c : Nat} (hc : 0 < min ((3 - c) / size.bytes) n) :
    c < 4 ∧ storedDown buffer size n results mem (place buffer size n + BitVec.ofNat 64 c) =
      byteOf (results (min ((3 - c) / size.bytes) n - 1))
        (min ((3 - c) / size.bytes) n * size.bytes + c) := by
  have hc4 : c < 4 := by
    by_contra hge
    rw [show 3 - c = 0 by omega, Nat.zero_div, Nat.zero_min] at hc
    exact absurd hc (lt_irrefl 0)
  obtain ⟨hreach, hlast⟩ := reach_spec size c n hc4
  have hq : min ((3 - c) / size.bytes) n ≤ n := Nat.min_le_right _ _
  generalize min ((3 - c) / size.bytes) n = q at hc hreach hlast hq
  have hrow : n - 1 - (q - 1) = n - q := by omega
  have hmul := rows_split size hq
  refine ⟨hc4, ?_⟩
  rw [place_add, storedDown_apply hn (k := q - 1) (by omega) (by rw [hrow]; omega)
    (by rw [hrow]; omega) ?_, hrow]
  · congr 1
    omega
  · by_cases hend : q = n
    · exact .inl (by omega)
    · have hfar := hlast.resolve_left hend
      have hstep := rows_succ size (m := n) (q := q) (by omega)
      rw [show n - 1 - (q - 1 + 1) = n - (q + 1) by omega]
      exact .inr (by omega)

/-- Walking down, later results cover elements that are already there. -/
theorem storedDown_iff (hn : n < 2 ^ 16) :
    ((∀ i, i < n → ∀ b, b < size.bytes →
        storedDown buffer size n results mem (place buffer size (n - 1 - i) + BitVec.ofNat 64 b) =
          byteOf (results i) b) ∧
      ∀ a, n * size.bytes ≤ (a - buffer).toNat → storedDown buffer size n results mem a = mem a) ↔
      KeepsAbove buffer size n results mem := by
  have hpos := size.bytes_pos
  have hsize : n * size.bytes ≤ n * 4 := Nat.mul_le_mul_left _ size.bytes_le
  constructor
  · intro h
    obtain ⟨hin, hout⟩ := h
    refine ⟨fun i hi b hb => (storedDown_element hn hi hb).symm.trans (hin i hi b hb),
      fun c hc => ?_⟩
    obtain ⟨hc4, hvalue⟩ := storedDown_behind hn hc
    rw [← hvalue]
    refine hout _ ?_
    rw [place_add, toNat_add_sub (by omega)]
    exact Nat.le_add_right _ _
  · intro h
    obtain ⟨hin, hout⟩ := h
    refine ⟨fun i hi b hb => (storedDown_element hn hi hb).trans (hin i hi b hb), fun a ha => ?_⟩
    obtain ⟨heq, hd⟩ := exists_offset buffer a
    generalize (a - buffer).toNat = d at ha heq hd
    subst heq
    obtain ⟨c, rfl⟩ := Nat.exists_eq_add_of_le ha
    by_cases hc : 0 < min ((3 - c) / size.bytes) n
    · have hvalue : storedDown buffer size n results mem (place buffer size n + BitVec.ofNat 64 c) =
          _ := (storedDown_behind hn hc).2
      rw [hout c hc, place_add] at hvalue
      exact hvalue
    · refine storedDown_outside hn hd fun k hk hcover => hc (Nat.lt_min.mpr ⟨?_, by omega⟩)
      have hmul := rows_split size (m := n) (q := n - k) (by omega)
      rw [show n - (n - k) = k by omega] at hmul
      have hone : 1 * size.bytes ≤ (n - k) * size.bytes := Nat.mul_le_mul_right _ (by omega)
      exact Nat.div_pos (by omega) hpos

end Walk

/-! ## The two back-ends -/

/-- The pointers of a loop that starts at the last element. -/
theorem sub_offsets {buffer : Ptr} {size : Size} {n k : Nat} (hk : k < n) :
    buffer + BitVec.ofNat 64 (size.bytes * n) - BitVec.ofNat 64 size.bytes -
      BitVec.ofNat 64 (k * size.bytes) = place buffer size (n - 1 - k) := by
  have hsum : size.bytes * n = (n - 1 - k) * size.bytes + k * size.bytes + size.bytes := by
    obtain ⟨m, rfl⟩ := Nat.exists_eq_add_of_lt hk
    rw [show k + m + 1 - 1 - k = m by omega, Nat.mul_comm, Nat.add_mul, Nat.add_mul, Nat.one_mul,
      Nat.add_comm (k * size.bytes)]
  rw [hsum, BitVec.ofNat_add, BitVec.ofNat_add, ← BitVec.add_assoc, BitVec.add_sub_cancel,
    ← BitVec.add_assoc, BitVec.add_sub_cancel, place]

section Kvm

variable {io : KvmIo} {kvmRun : Ptr} {results : Nat → Word} {mem : Memory}

theorem KvmIo.ptrAt_output (hd : io.direction = .output) (hn : io.count.toNat < 2 ^ 16) {k : Nat}
    (hk : k < io.count.toNat) : ptrAt (io.transfer results) (io.start kvmRun mem) k =
      place (kvmRun + io.dataOffset) io.size (io.count.toNat - 1 - k) := by
  have hwidth : (BitVec.ofNat 32 io.size.bytes * io.count).setWidth 64 =
      BitVec.ofNat 64 (io.size.bytes * io.count.toNat) := by
    have hle := Nat.mul_le_mul_right io.count.toNat io.size.bytes_le
    have hbytes := io.size.bytes_le
    apply BitVec.eq_of_toNat_eq
    rw [BitVec.toNat_setWidth, BitVec.toNat_mul, BitVec.toNat_ofNat, BitVec.toNat_ofNat,
      Nat.mod_eq_of_lt (show io.size.bytes < 2 ^ 32 by omega),
      Nat.mod_eq_of_lt (show io.size.bytes * io.count.toNat < 2 ^ 32 by omega)]
  have hdown : (io.transfer results).down = true := decide_eq_true hd
  rw [ptrAt, hdown, if_pos rfl, KvmIo.start, if_pos hd, hwidth]
  exact sub_offsets hk

theorem KvmIo.ptrAt_input (hd : io.direction = .input) : ptrAt (io.transfer results)
    (io.start kvmRun mem) = place (kvmRun + io.dataOffset) io.size := by
  have hne : ¬ io.direction = .output := by
    rw [hd]
    decide
  have hup : (io.transfer results).down = false := decide_eq_false hne
  funext k
  rw [ptrAt, hup, if_neg Bool.false_ne_true, KvmIo.start, if_neg hne]
  rfl

/-- The elements that OUT writes read the same from both ends. -/
def KvmIo.Palindrome (io : KvmIo) (kvmRun : Ptr) (mem : Memory) : Prop :=
  ∀ i, i < io.count.toNat →
    element mem (place (kvmRun + io.dataOffset) io.size (io.count.toNat - 1 - i)) io.size =
      element mem (place (kvmRun + io.dataOffset) io.size i) io.size

theorem KvmIo.correct_iff : io.Correct kvmRun results mem ↔ io.count.toNat < 2 ^ 16 ∧
    (io.direction = .output → io.Palindrome kvmRun mem) ∧
    (io.direction = .input →
      KeepsBehind (kvmRun + io.dataOffset) io.size io.count.toNat results mem) := by
  cases hd : io.direction with
  | output =>
    refine (transferred_output_iff (x := io.transfer results) hd rfl rfl).trans
      (and_congr_right fun hn => ?_)
    rw [and_iff_left (fun h => absurd h (by decide)), imp_iff_right rfl, KvmIo.Palindrome]
    refine forall_congr' fun i => imp_congr_right fun hi => ?_
    rw [KvmIo.ptrAt_output hd hn hi]
    rfl
  | input =>
    refine (transferred_input_iff (x := io.transfer results) hd rfl rfl).trans
      (and_congr_right fun hn => ?_)
    have hread : readMemory (io.transfer results) (io.start kvmRun mem) =
        storedUp (kvmRun + io.dataOffset) io.size io.count.toNat results mem := by
      rw [readMemory, KvmIo.ptrAt_input hd]
      rfl
    rw [and_iff_right (fun h => absurd h (by decide)), imp_iff_right rfl, hread]
    exact storedUp_iff hn

end Kvm

section Haxm

variable {io : HaxmIo} {buffer : Ptr} {results : Nat → Word} {mem : Memory}

theorem HaxmIo.ptrAt_eq {k : Nat} (hk : k < io.count.toNat) : ptrAt (io.transfer results)
    (io.start buffer mem) k = place buffer io.size (if io.df then io.count.toNat - 1 - k else k) := by
  cases hdf : io.df with
  | true =>
    rw [ptrAt, HaxmIo.start, HaxmIo.transfer, hdf, if_pos rfl, if_pos rfl, if_pos rfl]
    exact sub_offsets hk
  | false =>
    rw [ptrAt, HaxmIo.start, HaxmIo.transfer, hdf]
    rfl

theorem HaxmIo.correct_iff : io.Correct buffer results mem ↔ (io.direction = .input →
    if io.df then KeepsAbove buffer io.size io.count.toNat results mem
    else KeepsBehind buffer io.size io.count.toNat results mem) := by
  have hn : io.count.toNat < 2 ^ 16 := io.count.isLt
  cases hd : io.direction with
  | output =>
    refine (transferred_output_iff (x := io.transfer results) hd rfl rfl).trans
      (iff_of_true ⟨hn, fun i hi => ?_⟩ fun h => absurd h (by decide))
    rw [HaxmIo.ptrAt_eq hi]
  | input =>
    refine (transferred_input_iff (x := io.transfer results) hd rfl rfl).trans
      ((and_iff_right hn).trans ?_)
    rw [imp_iff_right rfl]
    cases hdf : io.df with
    | true =>
      have hread : readMemory (io.transfer results) (io.start buffer mem) =
          storedDown buffer io.size io.count.toNat results mem :=
        stores_congr fun j hj => by
          rw [HaxmIo.ptrAt_eq hj, hdf, if_pos rfl, placeDown]
      rw [hread]
      exact storedDown_iff hn
    | false =>
      have hread : readMemory (io.transfer results) (io.start buffer mem) =
          storedUp buffer io.size io.count.toNat results mem :=
        stores_congr fun j hj => by
          rw [HaxmIo.ptrAt_eq hj, hdf, if_neg Bool.false_ne_true]
      rw [hread]
      exact storedUp_iff hn

end Haxm

/-- When the two back-ends transfer the elements of an I/O exit as the instruction asks. -/
theorem transfers_elements_iff (kvmIo : KvmIo) (haxmIo : HaxmIo) (kvmRun buffer : Ptr)
    (results : Nat → Word) (mem : Memory) :
    (kvmIo.Correct kvmRun results mem ↔ kvmIo.count.toNat < 2 ^ 16 ∧
      (kvmIo.direction = .output → kvmIo.Palindrome kvmRun mem) ∧
      (kvmIo.direction = .input →
        KeepsBehind (kvmRun + kvmIo.dataOffset) kvmIo.size kvmIo.count.toNat results mem)) ∧
    (haxmIo.Correct buffer results mem ↔ (haxmIo.direction = .input →
      if haxmIo.df then KeepsAbove buffer haxmIo.size haxmIo.count.toNat results mem
      else KeepsBehind buffer haxmIo.size haxmIo.count.toNat results mem)) :=
  ⟨KvmIo.correct_iff, HaxmIo.correct_iff⟩

/-- KVM writes the two bytes 1 and 2 in the wrong order. -/
theorem two_bytes_reversed :
    ¬ KvmIo.Correct ⟨.output, 0x3f8, .one, 2, 0x1000⟩ 0 (fun _ => 0)
      fun a => if a = 0x1000 then 1 else 2 := by
  rw [KvmIo.correct_iff]
  intro h
  obtain ⟨-, hout, -⟩ := h
  exact absurd (hout rfl 0 (by decide)) (by decide)

end OpenXbox.Cpu.StringIo
