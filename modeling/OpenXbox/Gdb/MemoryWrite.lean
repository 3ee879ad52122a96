import OpenXbox.Gdb.GuestMemory
import OpenXbox.Gdb.RegisterWrites

/-!
# Memory written by the client

The payload of `M` and of `X` is decoded to a scratch buffer, of which as many bytes are written as
the packet announces. The decoder of `M` wants twice as many digits; that of `X` returns how many
bytes it has decoded, and its caller only asks whether it has failed.
-/

namespace OpenXbox.Gdb.MemoryWrite

open OpenXbox.Lib.Buffer OpenXbox.Gdb.Transport OpenXbox.Gdb.Codec OpenXbox.Gdb.Packet
  OpenXbox.Gdb.RoundTrip OpenXbox.Gdb.Main OpenXbox.Gdb.OwnBytes OpenXbox.Gdb.Stream
  OpenXbox.Gdb.RegisterWrites OpenXbox.Gdb.GuestMemory
open OpenXbox.Cpu.VirtualMemory (Host HostMap Paging)
open OpenXbox.Cpu.VirtualCopy (ram ramWithEntry)

/-! ## What a packet wants -/

/-- Pairs of digits. -/
def decodeHex : List Byte → Option (List Byte)
  | [] => some []
  | [_] => none
  | high :: low :: rest => (hexByte high low).bind fun b => (decodeHex rest).map (b :: ·)

/-- Characters, of which those after a `}` are escaped. -/
def decodeBin : List Byte → Option (List Byte)
  | [] => some []
  | [c] => if c = char '}' then none else some [c]
  | c :: d :: rest =>
    if c = char '}' then (decodeBin rest).map ((d ^^^ 0x20) :: ·)
    else (decodeBin (d :: rest)).map (c :: ·)

def decode : Decoder → List Byte → Option (List Byte)
  | .hex => decodeHex
  | .bin => decodeBin

/-- The packet asks to write `length` bytes from `addr` on, and the payload is what follows the
colon. -/
structure IsWrite (buf : Nat → Byte) (data : List Byte) (dec : Decoder) (addr : Word) (length : Nat)
    (payload : List Byte) : Prop where
  nonempty : data ≠ []
  parsed : ∃ header stop, data = header ++ payload ∧ (parse (put buf 0 data) data.length 0).2 =
    some (.writeMemory dec addr length header.length payload.length, stop)

section Memory

variable {M : Type} (access : Access M) (addr : Word)

/-- Bytes written one after the other, each of them with success. -/
def writeAll : Nat → List Byte → M → Option M
  | _, [], memory => some memory
  | pos, b :: bytes, memory =>
    (access.write memory (addr + BitVec.ofNat 32 pos) b).bind (writeAll (pos + 1) bytes)

variable (dec : Decoder) (payload : List Byte) (length : Nat)

/-- The payload decodes to just as many bytes, and they have all been written. -/
def Written (before after : M) : Prop :=
  ∃ bytes, decode dec payload = some bytes ∧ bytes.length = length ∧
    writeAll access addr 0 bytes before = some after

/-- One byte of the payload is written to its place. -/
def WriteStep (before after : M) : Prop :=
  ∃ bytes i b, decode dec payload = some bytes ∧ bytes[i]? = some b ∧
    access.write before (addr + BitVec.ofNat 32 i) b = some after

/-- A turn that answers `OK` has written the payload, one that cannot write it answers with an
error, and nothing but bytes of the payload is ever written. -/
structure Correct (asserts : Bool) (scratch : Nat → Byte) (s : Server M) (buf : Nat → Byte) : Prop where
  ok : Sends (access.env asserts scratch) s buf okReply → ∃ o,
    mainTurn (access.env asserts scratch) s buf = some o ∧
      Written access addr dec payload length s.memory (Outcome.effect o).1.memory
  error : (¬ ∃ after, Written access addr dec payload length s.memory after) →
    Sends (access.env asserts scratch) s buf errorReply
  only : ∀ o, mainTurn (access.env asserts scratch) s buf = some o →
    Relation.ReflTransGen (WriteStep access addr dec payload) s.memory (Outcome.effect o).1.memory

end Memory

/-- The decoder fails, and the program goes on. -/
def DecoderFails (dec : Decoder) (asserts : Bool) (payload : List Byte) (length : Nat) : Prop :=
  match dec with
  | .hex => payload.length ≠ length * 2 ∨ asserts = false ∧ decodeHex payload = none
  | .bin => asserts = false ∧ ∀ bytes, decodeBin payload = some bytes → length < bytes.length

/-- There is no room for so many bytes, or the decoder fails. -/
def Refused (dec : Decoder) (asserts : Bool) (payload : List Byte) (length : Nat) : Prop :=
  64 < length ∨ DecoderFails dec asserts payload length

/-! ## Decoding -/

section Decoding

variable {asserts : Bool} {buf data : Nat → Byte}

/-- The loop decodes what it is given, or fails. -/
theorem decHexLoop_decodes (asserts : Bool) (buf : Nat → Byte) (left pos : Nat) (data : Nat → Byte) :
    match decodeHex (slice buf (2 * pos) (left * 2)) with
    | some bytes => decHexLoop asserts buf left pos data = (.ok 0, put data pos bytes)
    | none => (decHexLoop asserts buf left pos data).1 = junk asserts := by
  induction left generalizing pos data with
  | zero => simp [decodeHex, decHexLoop]
  | succ left ih =>
    rw [show (left + 1) * 2 = left * 2 + 1 + 1 by omega, slice_succ, slice_succ, decodeHex,
      show 2 * pos + 1 + 1 = 2 * (pos + 1) by omega]
    obtain ⟨hhigh, hloop⟩ | ⟨h, hhigh, hlow, hloop⟩ | ⟨h, l, hhigh, hlow, hloop⟩ :=
      decHexLoop_cases asserts buf data left pos
    · rw [hloop, show hexByte (buf (2 * pos)) (buf (2 * pos + 1)) = none from hexAt_none (.inl hhigh)]
      rfl
    · rw [hloop, show hexByte (buf (2 * pos)) (buf (2 * pos + 1)) = none from hexAt_none (.inr hlow)]
      rfl
    · rw [hloop, show hexByte (buf (2 * pos)) (buf (2 * pos + 1)) = _ from hexAt_eq hhigh hlow,
        Option.bind_some]
      have hrest := ih (pos + 1) (store data pos (BitVec.ofNat 8 (16 * h + l)))
      cases hdecode : decodeHex (slice buf (2 * (pos + 1)) (left * 2)) with
      | none =>
        rw [hdecode] at hrest
        exact hrest
      | some bytes =>
        rw [hdecode] at hrest
        rw [Option.map_some]
        dsimp only
        rw [put_cons]
        exact hrest

theorem decodeBin_cons_pos {c : Byte} {rest bytes : List Byte} (h : decodeBin (c :: rest) = some bytes) :
    0 < bytes.length := by
  cases rest with
  | nil =>
    rw [decodeBin] at h
    split at h
    · cases h
    · obtain rfl := Option.some.inj h
      exact Nat.one_pos
  | cons d rest =>
    rw [decodeBin] at h
    split at h
    all_goals
      obtain ⟨tail, -, rfl⟩ := Option.map_eq_some_iff.mp h
      exact Nat.succ_pos _

/-- What the loop makes of what is left of a payload. -/
structure BinDecodes (asserts : Bool) (dataLen dataPos : Nat) (data : Nat → Byte)
    (decoded : Option (List Byte)) (result : Status × (Nat → Byte)) : Prop where
  fits : ∀ bytes, decoded = some bytes → dataPos + bytes.length ≤ dataLen →
    result = (.ok (dataPos + bytes.length), put data dataPos bytes)
  long : ∀ bytes, decoded = some bytes → dataLen < dataPos + bytes.length → result.1 = junk asserts
  malformed : decoded = none → result.1 = junk asserts

variable {dataLen dataPos : Nat}

theorem binDecodes_full {c : Byte} {rest : List Byte} (hfull : dataLen ≤ dataPos)
    {result : Status × (Nat → Byte)} (h : result.1 = junk asserts) :
    BinDecodes asserts dataLen dataPos data (decodeBin (c :: rest)) result where
  fits := by
    intro bytes hbytes hfit
    have hpos := decodeBin_cons_pos hbytes
    omega
  long := fun _ _ _ => h
  malformed := fun _ => h

theorem BinDecodes.cons {b : Byte} {decoded : Option (List Byte)} {result : Status × (Nat → Byte)}
    (h : BinDecodes asserts dataLen (dataPos + 1) (store data dataPos b) decoded result) :
    BinDecodes asserts dataLen dataPos data (decoded.map (b :: ·)) result where
  fits := by
    intro bytes hbytes hfit
    obtain ⟨tail, htail, rfl⟩ := Option.map_eq_some_iff.mp hbytes
    rw [List.length_cons] at hfit ⊢
    rw [h.fits tail htail (by omega), put_cons, Nat.add_right_comm, Nat.add_assoc]
  long := by
    intro bytes hbytes hlong
    obtain ⟨tail, htail, rfl⟩ := Option.map_eq_some_iff.mp hbytes
    rw [List.length_cons] at hlong
    exact h.long tail htail (by omega)
  malformed := fun hnone => h.malformed (Option.map_eq_none_iff.mp hnone)

theorem binDecodes_nil (hle : dataPos ≤ dataLen) :
    BinDecodes asserts dataLen dataPos data (some []) (.ok dataPos, data) where
  fits := by
    intro bytes hbytes _
    obtain rfl := Option.some.inj hbytes
    rw [put_nil]
    rfl
  long := by
    intro bytes hbytes hlong
    obtain rfl := Option.some.inj hbytes
    exact absurd hlong (Nat.not_lt.mpr hle)
  malformed := fun h => by cases h

theorem decBinLoop_decodes (asserts : Bool) (buf : Nat → Byte) (left bufPos dataPos : Nat)
    (data : Nat → Byte) (hle : dataPos ≤ dataLen) :
    BinDecodes asserts dataLen dataPos data (decodeBin (slice buf bufPos left))
      (decBinLoop asserts buf dataLen left bufPos dataPos data) := by
  induction left using Nat.strong_induction_on generalizing bufPos dataPos data with
  | _ left ih =>
    cases left with
    | zero =>
      rw [slice_zero, decodeBin, decBinLoop]
      exact binDecodes_nil hle
    | succ left =>
      rw [slice_succ]
      by_cases hfull : dataPos ≥ dataLen
      · refine binDecodes_full hfull ?_
        unfold decBinLoop
        rw [if_pos hfull]
      by_cases hescape : buf bufPos = char '}'
      · cases left with
        | zero =>
          -- The escape is the last character.
          unfold decBinLoop
          rw [if_neg hfull, if_pos hescape, slice_zero, decodeBin, if_pos hescape]
          exact ⟨fun _ h => (by cases h), fun _ h => (by cases h), fun _ => rfl⟩
        | succ left =>
          unfold decBinLoop
          rw [if_neg hfull, if_pos hescape, slice_succ, decodeBin, if_pos hescape]
          exact (ih left (by omega) (bufPos + 2) (dataPos + 1) _ (by omega)).cons
      · have hplain : decodeBin (buf bufPos :: slice buf (bufPos + 1) left) =
            (decodeBin (slice buf (bufPos + 1) left)).map (buf bufPos :: ·) := by
          cases left with
          | zero => exact if_neg hescape
          | succ left => rw [slice_succ, decodeBin, if_neg hescape]
        unfold decBinLoop
        rw [if_neg hfull, if_neg hescape, hplain]
        exact (ih left (by omega) (bufPos + 1) (dataPos + 1) _ (by omega)).cons

/-- A decoder fills the first bytes of the scratch buffer, and fails where it should; that of `X` is
content with fewer bytes than announced. -/
def RunEnds (dec : Decoder) (asserts : Bool) (buf data : Nat → Byte) (payload : List Byte)
    (length : Nat) : Prop :=
  (∃ bytes n, decode dec payload = some bytes ∧ ¬ DecoderFails dec asserts payload length ∧
      dec.run asserts buf payload.length data length = (.ok n, put data 0 bytes)) ∨
    DecoderFails dec asserts payload length ∧
      (dec.run asserts buf payload.length data length).1 = .eof ∨
    ¬ DecoderFails dec asserts payload length ∧
      (dec.run asserts buf payload.length data length).1 = .aborted ∧
      ∀ bytes, decode dec payload = some bytes → bytes.length ≠ length

variable {payload : List Byte}

theorem runEnds_hex (asserts : Bool) (data : Nat → Byte)
    (hpayload : slice buf 0 payload.length = payload) (length : Nat) :
    RunEnds .hex asserts buf data payload length := by
  rw [RunEnds, Decoder.run, dbgDecHex, decode, DecoderFails]
  by_cases hcount : payload.length ≠ length * 2
  · rw [if_pos hcount]
    exact .inr (.inl ⟨.inl hcount, rfl⟩)
  rw [if_neg hcount]
  have hloop := decHexLoop_decodes asserts buf length 0 data
  rw [Nat.mul_zero, ← not_not.mp hcount, hpayload] at hloop
  cases hdecode : decodeHex payload with
  | some bytes =>
    rw [hdecode] at hloop
    refine .inl ⟨bytes, 0, rfl, fun h => ?_, hloop⟩
    obtain h | ⟨-, h⟩ := h
    · exact hcount h
    · cases h
  | none =>
    rw [hdecode] at hloop
    cases asserts with
    | true =>
      refine .inr (.inr ⟨fun h => ?_, hloop, fun bytes h => (by cases h)⟩)
      obtain h | ⟨h, -⟩ := h
      · exact hcount h
      · cases h
    | false => exact .inr (.inl ⟨.inr ⟨rfl, rfl⟩, hloop⟩)

theorem runEnds_bin (asserts : Bool) (data : Nat → Byte)
    (hpayload : slice buf 0 payload.length = payload) (length : Nat) :
    RunEnds .bin asserts buf data payload length := by
  rw [RunEnds, Decoder.run, dbgDecBin, decode, DecoderFails]
  have hloop := decBinLoop_decodes asserts buf payload.length 0 0 data (Nat.zero_le length)
  rw [hpayload] at hloop
  by_cases hfits : ∃ bytes, decodeBin payload = some bytes ∧ bytes.length ≤ length
  · obtain ⟨bytes, hbytes, hle⟩ := hfits
    refine .inl ⟨bytes, _, hbytes, fun h => ?_, hloop.fits bytes hbytes (by omega)⟩
    exact absurd (h.2 bytes hbytes) (Nat.not_lt.mpr hle)
  have hlong (bytes : List Byte) (hbytes : decodeBin payload = some bytes) :
      length < bytes.length := by
    by_contra hle
    exact hfits ⟨bytes, hbytes, Nat.le_of_not_lt hle⟩
  have hjunk : (decBinLoop asserts buf length payload.length 0 0 data).1 = junk asserts := by
    cases hdecode : decodeBin payload with
    | none => exact hloop.malformed hdecode
    | some bytes =>
      have hlt := hlong bytes hdecode
      exact hloop.long bytes hdecode (by omega)
  cases asserts with
  | true =>
    refine .inr (.inr ⟨fun h => (by cases h.1), hjunk, fun bytes hbytes => ?_⟩)
    exact Nat.ne_of_gt (hlong bytes hbytes)
  | false => exact .inr (.inl ⟨⟨rfl, hlong⟩, hjunk⟩)

theorem runEnds (dec : Decoder) (asserts : Bool) (data : Nat → Byte)
    (hpayload : slice buf 0 payload.length = payload) (length : Nat) :
    RunEnds dec asserts buf data payload length := by
  cases dec with
  | hex => exact runEnds_hex asserts data hpayload length
  | bin => exact runEnds_bin asserts data hpayload length

end Decoding

/-! ## Writing -/

section Writing

variable {M : Type} {access : Access M} {addr : Word} {asserts : Bool} {scratch : Nat → Byte}

/-- Bytes that can all be written are. -/
theorem writeBytes_all (data : Nat → Byte) (left pos : Nat) {memory after : M}
    (h : writeAll access addr pos (slice data pos left) memory = some after) :
    writeBytes (access.env asserts scratch) data addr left pos memory = after := by
  induction left generalizing pos memory with
  | zero => exact Option.some.inj h
  | succ left ih =>
    rw [slice_succ, writeAll, Option.bind_eq_some_iff] at h
    obtain ⟨next, hwrite, hrest⟩ := h
    have hbyte : (access.env asserts scratch).vMemWrite memory (addr + BitVec.ofNat 32 pos) (data pos) =
        next := by
      dsimp only [Access.env]
      rw [hwrite, Option.getD_some]
    rw [writeBytes, hbyte]
    exact ih (pos + 1) hrest

theorem writeAll_steps {dec : Decoder} {payload bytes : List Byte}
    (hdecode : decode dec payload = some bytes)
    (left : List Byte) (pos : Nat) (hleft : bytes.drop pos = left) {memory after : M}
    (h : writeAll access addr pos left memory = some after) :
    Relation.ReflTransGen (WriteStep access addr dec payload) memory after := by
  induction left generalizing pos memory with
  | nil =>
    obtain rfl := Option.some.inj h
    exact .refl
  | cons b left ih =>
    rw [writeAll, Option.bind_eq_some_iff] at h
    obtain ⟨next, hwrite, hrest⟩ := h
    have hbyte : bytes[pos]? = some b := by
      rw [← List.head?_drop, hleft, List.head?_cons]
    have htail : bytes.drop (pos + 1) = left := by
      rw [← List.tail_drop, hleft, List.tail_cons]
    exact (ih (pos + 1) htail hrest).head ⟨bytes, pos, b, hdecode, hbyte, hwrite⟩

end Writing

/-! ## A turn -/

section Turn

variable {M : Type} {access : Access M} {asserts : Bool} {scratch : Nat → Byte} {s : Server M}
  {buf : Nat → Byte} {noise data rest payload : List Byte} {dec : Decoder} {addr : Word} {length : Nat}

/-- The turn sends this reply and leaves this memory. -/
def Leaves (env : Env M) (s : Server M) (buf : Nat → Byte) (text : List Byte) (memory : M) : Prop :=
  Sends env s buf text ∧ ∃ o, mainTurn env s buf = some o ∧ (Outcome.effect o).1.memory = memory

theorem leaves_of_replied {env : Env M} {p : Peer} {memory : M} {text : List Byte}
    (houtput : p.output = s.peer.output ++ [char '+'])
    (h : Replied { s with peer := p, memory := memory } text (mainTurn env s buf)) :
    Leaves env s buf text memory := by
  obtain ⟨t, ht, hmemory, hsent⟩ := h
  refine ⟨⟨t, ht, ?_⟩, t, ht, hmemory⟩
  rw [hsent, houtput, List.append_assoc, List.singleton_append]

/-- The packet is answered with `OK` when its payload has been decoded, with an error when it is
refused, or an assertion fails. -/
theorem write_cases (access : Access M) (asserts : Bool) (scratch : Nat → Byte)
    (hin : incoming s.peer.input = .packet noise data rest)
    (hclean : ¬ (0xFF ∈ noise ∨ 0xFF ∈ data)) (haccepts : s.peer.Accepting)
    (hwrite : IsWrite buf data dec addr length payload) :
    (∃ bytes, decode dec payload = some bytes ∧ ¬ Refused dec asserts payload length ∧
        Leaves (access.env asserts scratch) s buf okReply
          (writeBytes (access.env asserts scratch) (put scratch 0 bytes) addr length 0 s.memory)) ∨
      Refused dec asserts payload length ∧
        Leaves (access.env asserts scratch) s buf errorReply s.memory ∨
      ¬ Refused dec asserts payload length ∧ mainTurn (access.env asserts scratch) s buf = none ∧
        ∀ bytes, decode dec payload = some bytes → bytes.length ≠ length := by
  obtain ⟨header, stop, hdata, hparse⟩ := hwrite.parsed
  obtain ⟨p, hp, houtput, hturn⟩ := turn_received (access.env asserts scratch) hin hclean haccepts
    hwrite.nonempty hparse
  have hpayload : slice (drop (put buf 0 data) header.length) 0 payload.length = payload := by
    rw [slice_drop, hdata, put_append, Nat.zero_add, Nat.add_zero, slice_put]
  rw [execute, dbgMemWrite] at hturn
  by_cases hroom : 64 < length
  · rw [if_pos hroom] at hturn
    exact .inr (.inl ⟨.inl hroom, leaves_of_replied houtput (hturn ▸ replied_sendError hp)⟩)
  rw [if_neg hroom] at hturn
  have hcases := runEnds dec (access.env asserts scratch).asserts
    (access.env asserts scratch).scratch hpayload length
  unfold RunEnds at hcases
  generalize dec.run (access.env asserts scratch).asserts (drop (put buf 0 data) header.length)
    payload.length (access.env asserts scratch).scratch length = result at hturn hcases
  obtain ⟨bytes, n, hdecode, hno, hrun⟩ | ⟨hfails, hrun⟩ | ⟨hno, hrun, hlength⟩ := hcases
  · rw [hrun] at hturn
    refine .inl ⟨bytes, hdecode, not_or.mpr ⟨hroom, hno⟩, ?_⟩
    exact leaves_of_replied houtput (hturn ▸ replied_sendOk hp)
  · obtain ⟨status, after⟩ := result
    obtain rfl := hrun
    exact .inr (.inl ⟨.inr hfails, leaves_of_replied houtput (hturn ▸ replied_sendError hp)⟩)
  · obtain ⟨status, after⟩ := result
    obtain rfl := hrun
    exact .inr (.inr ⟨not_or.mpr ⟨hroom, hno⟩, hturn, hlength⟩)

theorem not_sends_both {env : Env M} (hok : Sends env s buf okReply)
    (herror : Sends env s buf errorReply) : False := by
  have hlength := sends_length hok herror
  simp [okReply, errorReply, hexOf] at hlength

theorem Correct.of_refused (h : Leaves (access.env asserts scratch) s buf errorReply s.memory) :
    Correct access addr dec payload length asserts scratch s buf where
  ok := fun hok => (not_sends_both hok h.1).elim
  error := fun _ => h.1
  only := by
    intro o ho
    obtain ⟨o', ho', hmemory⟩ := h.2
    obtain rfl := Option.some.inj (ho.symm.trans ho')
    rw [hmemory]

theorem Correct.of_written {bytes : List Byte} {after : M} (hdecode : decode dec payload = some bytes)
    (hlength : bytes.length = length) (hwritten : writeAll access addr 0 bytes s.memory = some after)
    (h : Leaves (access.env asserts scratch) s buf okReply
      (writeBytes (access.env asserts scratch) (put scratch 0 bytes) addr length 0 s.memory)) :
    Correct access addr dec payload length asserts scratch s buf := by
  have hmemory : writeBytes (access.env asserts scratch) (put scratch 0 bytes) addr length 0 s.memory =
      after := by
    refine writeBytes_all _ length 0 ?_
    rw [← hlength, slice_put]
    exact hwritten
  rw [hmemory] at h
  have hall : Written access addr dec payload length s.memory after := ⟨bytes, hdecode, hlength,
    hwritten⟩
  obtain ⟨hok, o, ho, hafter⟩ := h
  refine ⟨fun _ => ⟨o, ho, hafter ▸ hall⟩, fun hno => absurd ⟨after, hall⟩ hno, fun o' ho' => ?_⟩
  obtain rfl := Option.some.inj (ho.symm.trans ho')
  rw [hafter]
  exact writeAll_steps hdecode bytes 0 rfl hwritten

theorem write_correct_iff (hin : incoming s.peer.input = .packet noise data rest)
    (hwrite : IsWrite buf data dec addr length payload) :
    (s.peer.Accepting → Correct access addr dec payload length asserts scratch s buf) ↔
      (s.peer.Accepting → (∃ after, Written access addr dec payload length s.memory after) ∨
        ¬ (0xFF ∈ noise ∨ 0xFF ∈ data) ∧ Refused dec asserts payload length) := by
  refine forall_congr' fun haccepts => ?_
  by_cases hcut : 0xFF ∈ noise ∨ 0xFF ∈ data
  · have hsilent := not_sends_of_cut (access.env asserts scratch) buf hin hcut
    rw [or_iff_left fun h => h.1 hcut]
    constructor
    · intro h
      by_contra hno
      exact hsilent _ (h.error hno)
    · intro hwritten
      refine ⟨fun hok => absurd hok (hsilent _), fun hno => absurd hwritten hno, fun o ho => ?_⟩
      obtain ⟨p, -, hturn⟩ := turn_cut (access.env asserts scratch) buf hin hcut
      obtain rfl := Option.some.inj (hturn.symm.trans ho)
      exact .refl
  rw [and_iff_right hcut]
  obtain ⟨bytes, hdecode, hno, hleaves⟩ | ⟨hrefused, hleaves⟩ | ⟨hno, hturn, hlength⟩ :=
    write_cases access asserts scratch hin hcut haccepts hwrite
  · rw [or_iff_left hno]
    constructor
    · intro h
      by_contra hunwritten
      exact not_sends_both hleaves.1 (h.error hunwritten)
    · rintro ⟨after, bytes', hdecode', hlength, hwritten⟩
      obtain rfl := Option.some.inj (hdecode.symm.trans hdecode')
      exact .of_written hdecode hlength hwritten hleaves
  · exact iff_of_true (.of_refused hleaves) (.inr hrefused)
  · rw [or_iff_left hno]
    refine iff_of_false (fun h => ?_) ?_
    · have hunwritten : ¬ ∃ after, Written access addr dec payload length s.memory after := by
        rintro ⟨after, bytes, hdecode, hall, -⟩
        exact hlength bytes hdecode hall
      obtain ⟨o, ho, -⟩ := h.error hunwritten
      cases hturn.symm.trans ho
    · rintro ⟨after, bytes, hdecode, hall, -⟩
      exact hlength bytes hdecode hall

end Turn

/-- A write of virtual memory is answered as it has to be exactly when its payload can be written, or
the packet comes whole and is refused. -/
theorem memory_write_ok_iff (p : Paging) (m : HostMap) (asserts : Bool) (scratch : Nat → Byte)
    {s : Server Host} {buf : Nat → Byte} {noise data rest payload : List Byte} {dec : Decoder}
    {addr : Word} {length : Nat} (hin : incoming s.peer.input = .packet noise data rest)
    (hwrite : IsWrite buf data dec addr length payload) :
    (s.peer.Accepting → Correct (guest p m) addr dec payload length asserts scratch s buf) ↔
      (s.peer.Accepting → (∃ after, Written (guest p m) addr dec payload length s.memory after) ∨
        ¬ (0xFF ∈ noise ∨ 0xFF ∈ data) ∧ Refused dec asserts payload length) :=
  write_correct_iff hin hwrite

/-- The memory of a large page that begins with its own entry. -/
def writeServer (data : List Byte) : Server Host := ⟨.open (frame data), fun _ => 0, ramWithEntry⟩

def headerOf (command length : Char) : List Byte :=
  [char command, char '1', char '0', char '0', char '0', char ',', char length, char ':']

/-- The digits of four bytes. -/
def fourBytes : List Byte :=
  [char '3', char '1', char '3', char '2', char '3', char '3', char '3', char '4']

theorem write_of_four_bytes :
    Correct (guest ⟨0, 0, 0⟩ ram) 0x1000 .hex fourBytes 4 true (fun _ => 0)
      (writeServer (headerOf 'M' '4' ++ fourBytes)) fun _ => 0 := by
  have hin : incoming (frame (headerOf 'M' '4' ++ fourBytes)) =
      .packet [] (headerOf 'M' '4' ++ fourBytes) [] := by decide
  have hwrite : IsWrite (fun _ => 0) (headerOf 'M' '4' ++ fourBytes) .hex 0x1000 4 fourBytes :=
    ⟨by decide, headerOf 'M' '4', _, rfl, rfl⟩
  exact (memory_write_ok_iff ⟨0, 0, 0⟩ ram true (fun _ => 0) (s := writeServer _) hin hwrite).mpr
    (fun _ => .inl ⟨_, [char '1', char '2', char '3', char '4'], by decide, rfl, rfl⟩) fun _ => rfl

/-- Four bytes are announced and one comes: the answer is `OK`, and three bytes of the scratch buffer
are written. -/
theorem short_payload_accepted :
    Sends ((guest ⟨0, 0, 0⟩ ram).env true fun _ => 0x5a) (writeServer (headerOf 'X' '4' ++ [char 'z']))
        (fun _ => 0) okReply ∧
      ¬ Correct (guest ⟨0, 0, 0⟩ ram) 0x1000 .bin [char 'z'] 4 true (fun _ => 0x5a)
        (writeServer (headerOf 'X' '4' ++ [char 'z'])) fun _ => 0 := by
  have hin : incoming (frame (headerOf 'X' '4' ++ [char 'z'])) =
      .packet [] (headerOf 'X' '4' ++ [char 'z']) [] := by decide
  have hwrite : IsWrite (fun _ => 0) (headerOf 'X' '4' ++ [char 'z']) .bin 0x1000 4 [char 'z'] :=
    ⟨by decide, headerOf 'X' '4', _, rfl, rfl⟩
  refine ⟨⟨_, rfl, rfl⟩, fun h => ?_⟩
  obtain ⟨after, bytes, hdecode, hlength, -⟩ | ⟨-, hroom | ⟨hasserts, -⟩⟩ :=
    (write_correct_iff (s := writeServer _) hin hwrite).mp (fun _ => h) fun _ => rfl
  · obtain rfl : [char 'z'] = bytes := Option.some.inj hdecode
    exact absurd hlength (by decide)
  · exact absurd hroom (by decide)
  · cases hasserts

end OpenXbox.Gdb.MemoryWrite
