import OpenXbox.Gdb.GuestMemory

/-!
# Memory read for the client

The reply to `m` is made of a scratch buffer that the reads of the single bytes fill. A read that
fails leaves its byte of the buffer as it was, and the reply is made all the same.
-/

namespace OpenXbox.Gdb.MemoryRead

open OpenXbox.Lib.Buffer OpenXbox.Gdb.Transport OpenXbox.Gdb.Codec OpenXbox.Gdb.Packet
  OpenXbox.Gdb.RoundTrip OpenXbox.Gdb.Main OpenXbox.Gdb.Stream OpenXbox.Gdb.GuestMemory
open OpenXbox.Cpu.VirtualMemory (Host HostMap Paging VMemRead)
open OpenXbox.Cpu.VirtualCopy (ram twoPages)

/-- The packet asks for `length` bytes from `addr` on. -/
structure IsRead (buf : Nat → Byte) (data : List Byte) (addr : Word) (length : Nat) : Prop where
  command : data.head? = some (char 'm')
  parsed : ∃ stop, (parse (put buf 0 data) data.length 0).2 = some (.readMemory addr length, stop)

section Reply

variable {M : Type} (access : Access M) (memory : M) (addr : Word) (length : Nat)

def AllReadable : Prop := ∀ i < length, (access.read memory (addr + BitVec.ofNat 32 i)).isSome = true

instance : Decidable (AllReadable access memory addr length) :=
  inferInstanceAs (Decidable (∀ i < length, _))

/-- The bytes in hexadecimal when there is room for so many and each can be read, and an error
otherwise. -/
def readReply : List Byte :=
  if length ≤ 64 ∧ AllReadable access memory addr length then
    (slice (fun i => (access.read memory (addr + BitVec.ofNat 32 i)).getD 0) 0 length).flatMap hexOf
  else errorReply

/-- The reply that a read has to have, on a connection that takes what is sent. -/
def ReadOk (asserts : Bool) (scratch : Nat → Byte) (s : Server M) (buf : Nat → Byte) : Prop :=
  s.peer.Accepting →
    Sends (access.env asserts scratch) s buf (readReply access s.memory addr length)

end Reply

/-! ## What is sent -/

section Turn

variable {M : Type} {env : Env M} {memory : M} {addr : Word} {s : Server M} {buf : Nat → Byte}
  {noise data rest : List Byte} {length : Nat}

/-- The scratch buffer: a byte that cannot be read is what it was. -/
theorem readBytes_apply (left pos : Nat) (scratch : Nat → Byte) (i : Nat) :
    readBytes env memory addr left pos scratch i =
      if pos ≤ i ∧ i < pos + left then
        (env.vMemRead memory (addr + BitVec.ofNat 32 i)).getD (scratch i)
      else scratch i := by
  induction left generalizing pos scratch with
  | zero => rw [readBytes, if_neg (by omega)]
  | succ left ih =>
    rw [readBytes, ih]
    by_cases hi : i = pos
    · subst hi
      rw [if_neg (by omega), if_pos (by omega)]
      cases env.vMemRead memory (addr + BitVec.ofNat 32 i) with
      | none => rfl
      | some b => exact if_pos rfl
    · have hrange : (pos + 1 ≤ i ∧ i < pos + 1 + left) ↔ (pos ≤ i ∧ i < pos + (left + 1)) := by omega
      cases env.vMemRead memory (addr + BitVec.ofNat 32 pos) with
      | none => exact if_congr hrange rfl rfl
      | some b =>
        have hsame : store scratch pos b i = scratch i := if_neg hi
        dsimp only
        rw [hsame]
        exact if_congr hrange rfl rfl

theorem IsRead.nonempty (h : IsRead buf data addr length) : data ≠ [] := by
  rintro rfl
  cases h.command

theorem read_sends (env : Env M) (hin : incoming s.peer.input = .packet noise data rest)
    (hclean : ¬ (0xFF ∈ noise ∨ 0xFF ∈ data)) (haccepts : s.peer.Accepting)
    (hread : IsRead buf data addr length) (hlength : length ≤ 64) :
    Sends env s buf
      ((slice (readBytes env s.memory addr length 0 env.scratch) 0 length).flatMap hexOf) := by
  obtain ⟨stop, hparse⟩ := hread.parsed
  obtain ⟨p, hp, houtput, hturn⟩ := turn_received env hin hclean haccepts hread.nonempty hparse
  refine sends_of_replied houtput hturn ?_
  have hfit : length * 2 ≤ pktBufLen := by
    rw [pktBufLen]
    omega
  have hdigits : ((slice (readBytes env s.memory addr length 0 env.scratch) 0 length).flatMap
      hexOf).length = length * 2 := by
    rw [length_flatMap_hexOf, length_slice]
  rw [execute, dbgMemRead, if_neg (Nat.not_lt.mpr hlength), encHex_fits _ _ _ hfit, sendEncoded]
  generalize (slice (readBytes env s.memory addr length 0 env.scratch) 0 length).flatMap hexOf = digits
    at hdigits ⊢
  have hslice : slice (put (put buf 0 data) 0 digits) 0 (length * 2) = digits := by
    rw [← hdigits, slice_put]
  have hpeer : Peer.Accepting { s with peer := p }.peer := hp
  have hreplied := replied_sendReply hpeer (put (put buf 0 data) 0 digits)
    (put (put buf 0 data) 0 digits) (length * 2)
  rwa [hslice] at hreplied

theorem read_refused (env : Env M) (hin : incoming s.peer.input = .packet noise data rest)
    (hclean : ¬ (0xFF ∈ noise ∨ 0xFF ∈ data)) (haccepts : s.peer.Accepting)
    (hread : IsRead buf data addr length) (hlength : 64 < length) : Sends env s buf errorReply := by
  obtain ⟨stop, hparse⟩ := hread.parsed
  obtain ⟨p, hp, houtput, hturn⟩ := turn_received env hin hclean haccepts hread.nonempty hparse
  refine sends_of_replied houtput hturn ?_
  rw [execute, dbgMemRead, if_pos hlength]
  exact replied_sendError hp

end Turn

/-! ## When the reply is right -/

section Right

variable {M : Type} {access : Access M} {asserts : Bool} {scratch : Nat → Byte} {s : Server M}
  {buf : Nat → Byte} {noise data rest : List Byte} {addr : Word} {length : Nat}

theorem slice_readBytes (asserts : Bool) (scratch : Nat → Byte)
    (hall : AllReadable access s.memory addr length) :
    slice (readBytes (access.env asserts scratch) s.memory addr length 0 scratch) 0 length =
      slice (fun i => (access.read s.memory (addr + BitVec.ofNat 32 i)).getD 0) 0 length := by
  refine List.map_congr_left fun i hi => ?_
  have hlt : i < length := List.mem_range.mp hi
  obtain ⟨b, hb⟩ := Option.isSome_iff_exists.mp (hall i hlt)
  have hread : (access.env asserts scratch).vMemRead s.memory (addr + BitVec.ofNat 32 i) = some b := hb
  rw [readBytes_apply, Nat.zero_add, if_pos (by omega), hread]
  dsimp only
  rw [hb]
  rfl

theorem readOk_iff (hin : incoming s.peer.input = .packet noise data rest)
    (hread : IsRead buf data addr length) :
    ReadOk access addr length asserts scratch s buf ↔
      (s.peer.Accepting → ¬ (0xFF ∈ noise ∨ 0xFF ∈ data) ∧
        (length ≤ 64 → AllReadable access s.memory addr length)) := by
  refine forall_congr' fun haccepts => ?_
  by_cases hcut : 0xFF ∈ noise ∨ 0xFF ∈ data
  · exact iff_of_false (not_sends_of_cut _ buf hin hcut _) fun h => h.1 hcut
  rw [and_iff_right hcut, readReply]
  by_cases hlength : length ≤ 64
  · have hsent := read_sends (access.env asserts scratch) hin hcut haccepts hread hlength
    by_cases hall : AllReadable access s.memory addr length
    · rw [if_pos ⟨hlength, hall⟩, ← slice_readBytes asserts scratch hall]
      exact iff_of_true hsent fun _ => hall
    · rw [if_neg fun h => hall h.2]
      refine iff_of_false (fun herror => ?_) fun h => hall (h hlength)
      -- The number of digits is even, and the error has three characters.
      have hparity := sends_length hsent herror
      rw [length_flatMap_hexOf, length_slice, errorReply, List.length_cons] at hparity
      simp only [hexOf, List.length_cons, List.length_nil] at hparity
      omega
  · rw [if_neg fun h => hlength h.1]
    have hsent := read_refused (access.env asserts scratch) hin hcut haccepts hread
      (Nat.lt_of_not_le hlength)
    exact iff_of_true hsent fun h => absurd h hlength

end Right

/-- An address whose byte `VMemRead` reads. -/
def Readable (p : Paging) (m : HostMap) (host : Host) (addr : Word) : Prop :=
  ∃ o, VMemRead p m host addr 1 (fun _ => 0) o ∧ o.status = .ok

theorem readable_iff {p : Paging} {m : HostMap} {host : Host} {addr : Word} :
    ((guest p m).read host addr).isSome = true ↔ Readable p m host addr := by
  rw [Option.isSome_iff_exists]
  constructor
  · rintro ⟨b, hb⟩
    obtain ⟨o, ho, hok, -⟩ := guest_read_iff.mp hb
    exact ⟨o, ho, hok⟩
  · rintro ⟨o, ho, hok⟩
    exact ⟨o.changed 0, guest_read_iff.mpr ⟨o, ho, hok, rfl⟩⟩

/-- A read of virtual memory is answered as it has to be exactly when the packet comes whole and,
where there is room for its bytes, each of them can be read. -/
theorem memory_read_ok_iff (p : Paging) (m : HostMap) (asserts : Bool) (scratch : Nat → Byte)
    {s : Server Host} {buf : Nat → Byte} {noise data rest : List Byte} {addr : Word} {length : Nat}
    (hin : incoming s.peer.input = .packet noise data rest) (hread : IsRead buf data addr length) :
    ReadOk (guest p m) addr length asserts scratch s buf ↔
      (s.peer.Accepting → ¬ (0xFF ∈ noise ∨ 0xFF ∈ data) ∧
        (length ≤ 64 → ∀ i < length, Readable p m s.memory (addr + BitVec.ofNat 32 i))) := by
  rw [readOk_iff hin hread]
  simp only [AllReadable, readable_iff]

def readServer (data : List Byte) (host : Host) : Server Host := ⟨.open (frame data), fun _ => 0, host⟩

/-- Four bytes, the last two of which are on another page. -/
def readFour : List Byte :=
  [char 'm', char '1', char 'f', char 'f', char 'e', char ',', char '4']

theorem read_over_pages :
    ReadOk (guest ⟨0, 0, 0⟩ ram) 0x1FFE 4 true (fun _ => 0x5a) (readServer readFour twoPages) fun _ => 0 := by
  have hin : incoming (frame readFour) = .packet [] readFour [] := by decide
  have hread : IsRead (fun _ => 0) readFour 0x1FFE 4 := ⟨rfl, 7, rfl⟩
  refine (memory_read_ok_iff ⟨0, 0, 0⟩ ram true (fun _ => 0x5a) (s := readServer _ _) hin hread).mpr
    fun _ => ⟨by decide, fun _ i hi => readable_iff.mp ?_⟩
  have hall : ∀ i < 4, ((guest ⟨0, 0, 0⟩ ram).read twoPages (0x1FFE + BitVec.ofNat 32 i)).isSome = true := by
    decide
  exact hall i hi

/-- One byte from address 0 on. -/
def readFirst : List Byte := [char 'm', char '0', char ',', char '1']

/-- Without any memory nothing can be read, and what the scratch buffer held is sent. -/
theorem scratch_byte_sent :
    Sends ((guest ⟨0, 0, 0⟩ []).env true fun _ => 0x5a) (readServer readFirst fun _ => 0) (fun _ => 0)
        [char '5', char 'a'] ∧
      ¬ ReadOk (guest ⟨0, 0, 0⟩ []) 0 1 true (fun _ => 0x5a) (readServer readFirst fun _ => 0) fun _ => 0 := by
  have hin : incoming (frame readFirst) = .packet [] readFirst [] := by decide
  have hread : IsRead (fun _ => 0) readFirst 0 1 := ⟨rfl, 4, rfl⟩
  refine ⟨⟨_, rfl, rfl⟩, fun h => ?_⟩
  have hall := ((readOk_iff (s := readServer _ _) hin hread).mp h fun _ => rfl).2 (by decide)
  exact absurd (hall 0 (by decide)) (by decide)

end OpenXbox.Gdb.MemoryRead
