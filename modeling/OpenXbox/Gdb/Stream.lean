import OpenXbox.Gdb.OwnBytes
import Mathlib.Data.List.TakeWhile

/-!
# What the client's stream holds next

The stream is cut as the protocol has it: the characters before the start of a packet, its data, and
the two digits of its checksum. The receiver finds a good packet, unless it has received a character
before as `EOF`.
-/

namespace OpenXbox.Gdb.Stream

open OpenXbox.Lib.Buffer OpenXbox.Gdb.Transport OpenXbox.Gdb.Codec OpenXbox.Gdb.Packet
  OpenXbox.Gdb.RoundTrip OpenXbox.Gdb.Main

/-- Two digits in hexadecimal. -/
def hexByte (high low : Byte) : Option Byte :=
  (dbgGetVal high 16).bind fun h => (dbgGetVal low 16).map fun l => BitVec.ofNat 8 (16 * h + l)

/-- The stream ends before a packet does, or a packet comes that is too long or whose checksum is not
its own, or a good one. -/
inductive Incoming where
  | lost
  | bad (rest : List Byte)
  | packet (noise data rest : List Byte)
deriving DecidableEq

/-- The data of a packet has come; the checksum is next. -/
def withChecksum (noise data : List Byte) : List Byte → Incoming
  | high :: low :: rest =>
    if hexByte high low = some (data.foldr (· + ·) 0) then .packet noise data rest else .bad rest
  | _ => .lost

def incoming (input : List Byte) : Incoming :=
  let noise := input.takeWhile (· ≠ char '$')
  let body := (input.dropWhile (· ≠ char '$')).drop 1
  let data := body.takeWhile (· ≠ char '#')
  let after := (body.dropWhile (· ≠ char '#')).drop 1
  if data.length > pktBufLen then .bad (after.drop 2) else withChecksum noise data after

/-- What is done about a bad packet: nothing is sent, or a negative acknowledgement, or an assertion
fails. -/
inductive Refusal where
  | silent
  | nack
  | aborts

/-- The two digits behind data that has been received decide. -/
def refuseChecksum (asserts : Bool) : List Byte → Refusal
  | high :: low :: _ =>
    if high = 0xFF ∨ low = 0xFF then .silent
    else if (hexByte high low).isSome then .nack
    else if asserts then .aborts
    else .silent
  | _ => .silent

/-- Data that has not been received is not answered. -/
def refusal (asserts : Bool) (input : List Byte) : Refusal :=
  let noise := input.takeWhile (· ≠ char '$')
  let body := (input.dropWhile (· ≠ char '$')).drop 1
  let data := body.takeWhile (· ≠ char '#')
  if 0xFF ∈ noise ∨ 0xFF ∈ data ∨ data.length > pktBufLen then .silent
  else refuseChecksum asserts ((body.dropWhile (· ≠ char '#')).drop 1)

/-- What comes after the first character that is received as `EOF`. -/
def afterEof (input : List Byte) : List Byte := (input.dropWhile (· ≠ 0xFF)).drop 1

/-- The connection after a character that is received as `EOF`, or after its end. -/
def atEof (p : Peer) : Peer :=
  if 0xFF ∈ p.input then { p with input := afterEof p.input } else { p with input := [], lost := true }

section Cuts

variable {c : Byte} {l more : List Byte}

theorem passes_of_not_mem (h : c ∉ l) : ∀ b ∈ l, decide (b ≠ c) = true := by
  intro b hb
  rw [decide_eq_true_eq]
  intro heq
  exact h (heq ▸ hb)

theorem takeWhile_of_not_mem (h : c ∉ l) : l.takeWhile (· ≠ c) = l :=
  List.takeWhile_eq_self_iff.mpr (passes_of_not_mem h)

theorem dropWhile_of_not_mem (h : c ∉ l) : l.dropWhile (· ≠ c) = [] :=
  List.dropWhile_eq_nil_iff.mpr (passes_of_not_mem h)

theorem takeWhile_cut (h : c ∉ l) : (l ++ c :: more).takeWhile (· ≠ c) = l := by
  rw [List.takeWhile_append_of_pos (passes_of_not_mem h), List.takeWhile_cons_of_neg (by simp),
    List.append_nil]

theorem dropWhile_cut (h : c ∉ l) : (l ++ c :: more).dropWhile (· ≠ c) = c :: more := by
  rw [List.dropWhile_append_of_pos (passes_of_not_mem h), List.dropWhile_cons_of_neg (by simp)]

theorem afterEof_cons (h : c ≠ 0xFF) : afterEof (c :: l) = afterEof l := by
  rw [afterEof, List.dropWhile_cons_of_pos (by simpa using h), afterEof]

theorem afterEof_append (l more : List Byte) :
    afterEof (l ++ more) = if 0xFF ∈ l then afterEof l ++ more else afterEof more := by
  split
  · next hmem =>
    obtain ⟨before, rest, rfl, hbefore⟩ := List.eq_append_cons_of_mem hmem
    rw [afterEof, afterEof, List.append_assoc, List.cons_append, dropWhile_cut hbefore,
      dropWhile_cut hbefore]
    rfl
  · next hmem =>
    rw [afterEof, List.dropWhile_append_of_pos (passes_of_not_mem hmem), afterEof]

end Cuts

section Shapes

/-- The stream as it is cut: no packet starts, or one starts and does not end, or the data ends. -/
inductive Shape : List Byte → Prop
  | silent {input : List Byte} (hinput : char '$' ∉ input) : Shape input
  | started {noise body : List Byte} (hnoise : char '$' ∉ noise) (hbody : char '#' ∉ body) :
      Shape (noise ++ char '$' :: body)
  | ended {noise data after : List Byte} (hnoise : char '$' ∉ noise) (hdata : char '#' ∉ data) :
      Shape (noise ++ char '$' :: (data ++ char '#' :: after))

theorem shape (input : List Byte) : Shape input := by
  by_cases hstart : char '$' ∈ input
  · obtain ⟨noise, body, rfl, hnoise⟩ := List.eq_append_cons_of_mem hstart
    by_cases hend : char '#' ∈ body
    · obtain ⟨data, after, rfl, hdata⟩ := List.eq_append_cons_of_mem hend
      exact .ended hnoise hdata
    · exact .started hnoise hend
  · exact .silent hstart

variable {noise body data after : List Byte}

theorem incoming_silent {input : List Byte} (hinput : char '$' ∉ input) : incoming input = .lost := by
  rw [incoming, dropWhile_of_not_mem hinput]
  rfl

theorem incoming_started (hnoise : char '$' ∉ noise) (hbody : char '#' ∉ body) :
    incoming (noise ++ char '$' :: body) = if body.length > pktBufLen then .bad [] else .lost := by
  rw [incoming, takeWhile_cut hnoise, dropWhile_cut hnoise]
  have hdrop : (char '$' :: body).drop 1 = body := rfl
  rw [hdrop, takeWhile_of_not_mem hbody, dropWhile_of_not_mem hbody]
  rfl

theorem incoming_ended (hnoise : char '$' ∉ noise) (hdata : char '#' ∉ data) :
    incoming (noise ++ char '$' :: (data ++ char '#' :: after)) =
      if data.length > pktBufLen then .bad (after.drop 2) else withChecksum noise data after := by
  rw [incoming, takeWhile_cut hnoise, dropWhile_cut hnoise]
  have hdrop : (char '$' :: (data ++ char '#' :: after)).drop 1 = data ++ char '#' :: after := rfl
  rw [hdrop, takeWhile_cut hdata, dropWhile_cut hdata]
  rfl

theorem refusal_started (asserts : Bool) (hnoise : char '$' ∉ noise) (hbody : char '#' ∉ body) :
    refusal asserts (noise ++ char '$' :: body) = .silent := by
  have hdrop : (char '$' :: body).drop 1 = body := rfl
  rw [refusal, takeWhile_cut hnoise, dropWhile_cut hnoise, hdrop, takeWhile_of_not_mem hbody,
    dropWhile_of_not_mem hbody]
  split
  · rfl
  · rfl

theorem refusal_ended (asserts : Bool) (hnoise : char '$' ∉ noise) (hdata : char '#' ∉ data) :
    refusal asserts (noise ++ char '$' :: (data ++ char '#' :: after)) =
      if 0xFF ∈ noise ∨ 0xFF ∈ data ∨ data.length > pktBufLen then .silent
      else refuseChecksum asserts after := by
  have hdrop : (char '$' :: (data ++ char '#' :: after)).drop 1 = data ++ char '#' :: after := rfl
  rw [refusal, takeWhile_cut hnoise, dropWhile_cut hnoise, hdrop, takeWhile_cut hdata,
    dropWhile_cut hdata]
  rfl

theorem withChecksum_eq_packet {noise' data' rest : List Byte}
    (h : withChecksum noise data after = .packet noise' data' rest) :
    noise' = noise ∧ data' = data ∧
      ∃ high low, after = high :: low :: rest ∧ hexByte high low = some (data.foldr (· + ·) 0) := by
  match after, h with
  | high :: low :: _, h =>
    rw [withChecksum] at h
    split at h
    · next hsum =>
      cases h
      exact ⟨rfl, rfl, high, low, rfl, hsum⟩
    · cases h

/-- The stream from the start of a good packet on. -/
theorem incoming_eq_packet {input rest : List Byte} (h : incoming input = .packet noise data rest) :
    data.length ≤ pktBufLen ∧
      ∃ high low, input = noise ++ char '$' :: (data ++ char '#' :: high :: low :: rest) := by
  cases shape input with
  | silent hinput =>
    rw [incoming_silent hinput] at h
    cases h
  | started hnoise hbody =>
    rw [incoming_started hnoise hbody] at h
    split at h <;> cases h
  | ended hnoise hdata =>
    rw [incoming_ended hnoise hdata] at h
    split at h
    · cases h
    · next hfit =>
      obtain ⟨rfl, rfl, high, low, rfl, -⟩ := withChecksum_eq_packet h
      exact ⟨Nat.le_of_not_lt hfit, high, low, rfl⟩

/-- A character received as `EOF` before a good packet ends leaves more than what comes after it. -/
theorem afterEof_packet {input rest : List Byte} (h : incoming input = .packet noise data rest)
    (hdirty : 0xFF ∈ noise ∨ 0xFF ∈ data) : rest.length < (afterEof input).length := by
  obtain ⟨-, high, low, rfl⟩ := incoming_eq_packet h
  rw [afterEof_append]
  split
  · simp only [List.length_append, List.length_cons]
    omega
  · next hclean =>
    rw [afterEof_cons (by decide), afterEof_append, if_pos (hdirty.resolve_left hclean)]
    simp only [List.length_append, List.length_cons]
    omega

end Shapes

section Receiver

variable {buf : Nat → Byte} {bufLen pktLen : Nat} {a : List Byte} (p : Peer) (b : List Byte)

theorem toInt_eq_eof_iff {c : Byte} : c.toInt = EOF ↔ c = 0xFF := by
  constructor
  · intro h
    by_contra hne
    exact toInt_ne_eof hne h
  · intro h
    rw [h]
    decide

/-- Characters that do not start a packet. -/
theorem awaitStart_append (h : char '$' ∉ a) : awaitStart p (a ++ b) =
    if 0xFF ∈ a then (false, { p with input := afterEof a ++ b }) else awaitStart p b := by
  induction a with
  | nil => rfl
  | cons c a ih =>
    rw [List.mem_cons, not_or] at h
    rw [List.cons_append, awaitStart, if_neg fun heq => h.1 heq.symm]
    by_cases heof : c = 0xFF
    · rw [if_pos (toInt_eq_eof_iff.mpr heof), heof, if_pos List.mem_cons_self]
      rfl
    · rw [if_neg (mt toInt_eq_eof_iff.mp heof), ih h.2, afterEof_cons heof]
      simp only [List.mem_cons, Ne.symm heof, false_or]

/-- Characters that do not end the data, and that fit. -/
theorem recvData_append (h : char '#' ∉ a) (hfit : pktLen + a.length ≤ bufLen) :
    (0xFF ∈ a → ∃ n after, recvData bufLen p (a ++ b) pktLen buf =
        (false, { p with input := afterEof a ++ b }, n, after)) ∧
      (0xFF ∉ a → recvData bufLen p (a ++ b) pktLen buf =
        recvData bufLen p b (pktLen + a.length) (put buf pktLen a)) := by
  induction a generalizing pktLen buf with
  | nil =>
    refine ⟨fun hmem => ?_, fun _ => ?_⟩
    · cases hmem
    · rw [put_nil]
      rfl
  | cons c a ih =>
    rw [List.mem_cons, not_or] at h
    rw [List.length_cons] at hfit
    rw [List.cons_append, recvData]
    by_cases heof : c = 0xFF
    · rw [if_pos (toInt_eq_eof_iff.mpr heof), heof]
      exact ⟨fun _ => ⟨_, _, rfl⟩, fun hno => absurd List.mem_cons_self hno⟩
    · rw [if_neg (mt toInt_eq_eof_iff.mp heof), if_neg fun heq => h.1 heq.symm, if_neg (by omega),
        afterEof_cons heof, put_cons, List.length_cons, List.mem_cons, or_iff_right (Ne.symm heof),
        show pktLen + (a.length + 1) = pktLen + 1 + a.length by omega]
      exact ih h.2 (by omega)

/-- Data that does not fit is not received, with the connection up. -/
theorem recvData_long (h : char '#' ∉ a) (hlong : bufLen < pktLen + a.length) (hle : pktLen ≤ bufLen) :
    ∃ rest n after, recvData bufLen p (a ++ b) pktLen buf = (false, { p with input := rest }, n, after) := by
  induction a generalizing pktLen buf with
  | nil => exact absurd hlong (by simpa using hle)
  | cons c a ih =>
    rw [List.mem_cons, not_or] at h
    rw [List.length_cons] at hlong
    rw [List.cons_append, recvData]
    split
    · exact ⟨_, _, _, rfl⟩
    · rw [if_neg fun heq => h.1 heq.symm]
      split
      · exact ⟨_, _, _, rfl⟩
      · exact ih h.2 (by omega) (by omega)

end Receiver

section AtEof

variable {p : Peer} {noise body : List Byte}

/-- What comes before does not matter when it is received. -/
theorem atEof_append (hinput : p.input = noise ++ body) (hclean : 0xFF ∉ noise) :
    atEof p = atEof { p with input := body } := by
  rw [atEof, atEof, hinput, afterEof_append, if_neg hclean]
  simp only [List.mem_append, hclean, false_or]

theorem atEof_cons {c : Byte} (hc : c ≠ 0xFF) (hinput : p.input = noise ++ c :: body)
    (hclean : 0xFF ∉ noise) : atEof p = atEof { p with input := body } := by
  have hsplit : p.input = (noise ++ [c]) ++ body := by simp [hinput]
  refine atEof_append hsplit ?_
  rw [List.mem_append, List.mem_singleton]
  exact not_or.mpr ⟨hclean, Ne.symm hc⟩

theorem atEof_lost (p : Peer) : (atEof p).lost = true ↔ p.lost = true ∨ 0xFF ∉ p.input := by
  rw [atEof]
  split
  · next hmem => exact (or_iff_left (not_not.mpr hmem)).symm
  · next hmem => exact iff_of_true rfl (.inr hmem)

end AtEof

section Checksum

variable {p : Peer} {high low : Byte} {rest : List Byte}

theorem getVal_eof : dbgGetVal 0xFF 16 = none := by decide

theorem getVal_lt {c : Byte} {v : Nat} (h : dbgGetVal c 16 = some v) : v < 16 := by
  rw [dbgGetVal, Option.filter_eq_some_iff, decide_eq_true_eq] at h
  exact h.2

theorem nibbles_or : ∀ h l : Fin 16,
    BitVec.ofNat 8 (h.val <<< 4) ||| BitVec.ofNat 8 l.val = BitVec.ofNat 8 (16 * h.val + l.val) := by
  decide

/-- The connection ends before the checksum does. -/
theorem recvChecksum_lost (asserts : Bool) (h : p.input.length < 2) :
    recvChecksum asserts p = (.eof, 0, atEof p) := by
  obtain ⟨input, output, accepts, lost⟩ := p
  rw [recvChecksum]
  cases input with
  | nil => rfl
  | cons c input =>
    obtain rfl : input = [] := List.eq_nil_of_length_eq_zero (Nat.lt_one_iff.mp (Nat.lt_of_succ_lt_succ h))
    rw [dbgRead, getc_cons rfl]
    dsimp only
    by_cases heof : c = 0xFF
    · rw [if_pos (toInt_eq_eof_iff.mpr heof), heof]
      rfl
    · have hclean : 0xFF ∉ [c] := by
        rw [List.mem_singleton]
        exact Ne.symm heof
      rw [if_neg (mt toInt_eq_eof_iff.mp heof), atEof, if_neg hclean]
      rfl

theorem read_two (hhigh : high ≠ 0xFF) (hlow : low ≠ 0xFF) (hinput : p.input = high :: low :: rest) :
    dbgRead 2 p = (some [high, low], { p with input := rest }) := by
  have hcs : ∀ c ∈ [high, low], c ≠ 0xFF := by
    intro c hc
    obtain rfl | hc := List.mem_cons.mp hc
    · exact hhigh
    · rwa [List.mem_singleton.mp hc]
  exact read_input hinput hcs

/-- A byte in hexadecimal, as it is decoded. -/
theorem decHex_one (asserts : Bool) (buf data : Nat → Byte) :
    (∀ c, hexByte (buf 0) (buf 1) = some c → ∃ after, dbgDecHex asserts buf 2 data 1 = (.ok 0, after) ∧
      after 0 = c) ∧
      (hexByte (buf 0) (buf 1) = none → (dbgDecHex asserts buf 2 data 1).1 = junk asserts) := by
  rw [dbgDecHex, if_neg (by decide), decHexLoop, hexByte]
  cases hhigh : dbgGetVal (buf 0) 16 with
  | none =>
    refine ⟨fun c hc => ?_, fun _ => rfl⟩
    cases hc
  | some h =>
    dsimp only
    cases hlow : dbgGetVal (buf 1) 16 with
    | none =>
      refine ⟨fun c hc => ?_, fun _ => rfl⟩
      cases hc
    | some l =>
      refine ⟨fun c hc => ?_, fun hno => ?_⟩
      · obtain rfl := Option.some.inj hc
        refine ⟨_, rfl, ?_⟩
        have hbyte := nibbles_or ⟨h, getVal_lt hhigh⟩ ⟨l, getVal_lt hlow⟩
        simpa [store] using hbyte
      · cases hno

/-- Digits are received. -/
theorem digits_ne_eof {csum : Byte} (h : hexByte high low = some csum) : high ≠ 0xFF ∧ low ≠ 0xFF := by
  obtain ⟨v, hv, hlow⟩ := Option.bind_eq_some_iff.mp h
  obtain ⟨w, hw, -⟩ := Option.map_eq_some_iff.mp hlow
  refine ⟨fun heof => ?_, fun heof => ?_⟩
  · rw [heof, getVal_eof] at hv
    cases hv
  · rw [heof, getVal_eof] at hw
    cases hw

/-- Two digits are the checksum. -/
theorem recvChecksum_digits (asserts : Bool) (hinput : p.input = high :: low :: rest) {csum : Byte}
    (h : hexByte high low = some csum) :
    recvChecksum asserts p = (.ok 0, csum, { p with input := rest }) := by
  obtain ⟨hhigh, hlow⟩ := digits_ne_eof h
  obtain ⟨after, hdec, hafter⟩ := (decHex_one asserts (fun i => [high, low].getD i 0) fun _ => 0).1 csum h
  rw [recvChecksum, read_two hhigh hlow hinput]
  dsimp only
  rw [hdec]
  exact congrArg (fun c => (Status.ok 0, c, { p with input := rest })) hafter

/-- A digit that is received as `EOF`. -/
theorem recvChecksum_eof (asserts : Bool) (hinput : p.input = high :: low :: rest)
    (heof : high = 0xFF ∨ low = 0xFF) : ∃ left, recvChecksum asserts p = (.eof, 0, { p with input := left }) := by
  rw [recvChecksum, dbgRead, getc_cons hinput]
  dsimp only
  by_cases hhigh : high = 0xFF
  · rw [if_pos (toInt_eq_eof_iff.mpr hhigh)]
    exact ⟨_, rfl⟩
  · rw [if_neg (mt toInt_eq_eof_iff.mp hhigh), dbgRead, getc_cons rfl]
    dsimp only
    rw [if_pos (toInt_eq_eof_iff.mpr (heof.resolve_left hhigh))]
    exact ⟨_, rfl⟩

/-- Two characters that are not digits. -/
theorem recvChecksum_junk (asserts : Bool) (hinput : p.input = high :: low :: rest)
    (h : hexByte high low = none) (hclean : ¬ (high = 0xFF ∨ low = 0xFF)) :
    ∃ csum, recvChecksum asserts p = (junk asserts, csum, { p with input := rest }) := by
  rw [not_or] at hclean
  have hdec := (decHex_one asserts (fun i => [high, low].getD i 0) fun _ => 0).2 h
  rw [recvChecksum, read_two hclean.1 hclean.2 hinput]
  dsimp only
  rw [hdec]
  exact ⟨_, rfl⟩

end Checksum

section Receiving

variable {asserts : Bool} {buf after : Nat → Byte} {p q r : Peer} {n : Nat} {csum : Byte} {status : Status}

theorem recvPacket_silent (h : awaitStart p p.input = (false, q)) :
    dbgRecvPacket asserts buf pktBufLen p = (.eof, q) := by
  rw [dbgRecvPacket, h]

theorem recvPacket_started (h : awaitStart p p.input = (true, q))
    (hdata : recvData pktBufLen q q.input 0 buf = (false, r, n, after)) :
    dbgRecvPacket asserts buf pktBufLen p = (.eof, r) := by
  rw [dbgRecvPacket, h]
  dsimp only
  rw [hdata]

/-- The checksum is not received. -/
theorem recvPacket_eof {left : Peer} (h : awaitStart p p.input = (true, q))
    (hdata : recvData pktBufLen q q.input 0 buf = (true, r, n, after))
    (hsum : recvChecksum asserts r = (.eof, csum, left)) :
    dbgRecvPacket asserts buf pktBufLen p = (.eof, left) := by
  rw [dbgRecvPacket, h]
  dsimp only
  rw [hdata]
  dsimp only
  rw [hsum]

theorem recvPacket_aborted {left : Peer} (h : awaitStart p p.input = (true, q))
    (hdata : recvData pktBufLen q q.input 0 buf = (true, r, n, after))
    (hsum : recvChecksum asserts r = (.aborted, csum, left)) :
    dbgRecvPacket asserts buf pktBufLen p = (.aborted, left) := by
  rw [dbgRecvPacket, h]
  dsimp only
  rw [hdata]
  dsimp only
  rw [hsum]

theorem recvPacket_ok {left : Peer} (h : awaitStart p p.input = (true, q))
    (hdata : recvData pktBufLen q q.input 0 buf = (true, r, n, after))
    (hsum : recvChecksum asserts r = (.ok 0, csum, left)) :
    dbgRecvPacket asserts buf pktBufLen p =
      if dbgChecksum after n ≠ csum then (.eof, (dbgSysPutchar (char '-') left).2)
      else (.packet n after, (dbgSysPutchar (char '+') left).2) := by
  rw [dbgRecvPacket, h]
  dsimp only
  rw [hdata]
  dsimp only
  rw [hsum]

end Receiving

section Receives

variable (asserts : Bool) (buf : Nat → Byte) (p : Peer)

/-- A bad packet is not received. -/
def Refuses (rest : List Byte) : Refusal → Prop
  | .silent => ∃ left, dbgRecvPacket asserts buf pktBufLen p = (.eof, { p with input := left })
  | .nack => dbgRecvPacket asserts buf pktBufLen p =
      (.eof, (dbgSysPutchar (char '-') { p with input := rest }).2)
  | .aborts => ∃ left, dbgRecvPacket asserts buf pktBufLen p = (.aborted, { p with input := left })

/-- What the receiver makes of the stream. -/
def Receives : Incoming → Prop
  | .lost => dbgRecvPacket asserts buf pktBufLen p = (.eof, atEof p)
  | .bad rest => Refuses asserts buf p rest (refusal asserts p.input)
  | .packet noise data rest =>
    (0xFF ∈ noise ∨ 0xFF ∈ data →
      dbgRecvPacket asserts buf pktBufLen p = (.eof, { p with input := afterEof p.input })) ∧
    (¬ (0xFF ∈ noise ∨ 0xFF ∈ data) → dbgRecvPacket asserts buf pktBufLen p =
      (.packet data.length (put buf 0 data), (dbgSysPutchar (char '+') { p with input := rest }).2))

variable {asserts buf p}

theorem receives_silent (h : char '$' ∉ p.input) : Receives asserts buf p (incoming p.input) := by
  have hawait := awaitStart_append p [] h
  rw [List.append_nil, List.append_nil] at hawait
  rw [incoming_silent h]
  refine recvPacket_silent (hawait.trans ?_)
  rw [atEof]
  split
  · rfl
  · rfl

section Started

variable {noise body data after : List Byte}

/-- A character before the end of the packet is received as `EOF`. -/
theorem receives_of_eof {i : Incoming} (hmem : 0xFF ∈ p.input)
    (hdirty : ∀ noise data rest, i = .packet noise data rest → 0xFF ∈ noise ∨ 0xFF ∈ data)
    (hbad : ∀ rest, i = .bad rest → refusal asserts p.input = .silent)
    (h : dbgRecvPacket asserts buf pktBufLen p = (.eof, { p with input := afterEof p.input })) :
    Receives asserts buf p i := by
  cases i with
  | lost => rw [Receives, h, atEof, if_pos hmem]
  | bad rest =>
    rw [Receives, hbad rest rfl]
    exact ⟨_, h⟩
  | packet noise data rest => exact ⟨fun _ => h, fun hclean => absurd (hdirty noise data rest rfl) hclean⟩

theorem recvPacket_noise (hinput : p.input = noise ++ char '$' :: body) (hnoise : char '$' ∉ noise)
    (heof : 0xFF ∈ noise) :
    dbgRecvPacket asserts buf pktBufLen p = (.eof, { p with input := afterEof p.input }) := by
  refine recvPacket_silent ?_
  rw [hinput, awaitStart_append _ _ hnoise, if_pos heof, afterEof_append, if_pos heof]

theorem awaitStart_clean (hinput : p.input = noise ++ char '$' :: body) (hnoise : char '$' ∉ noise)
    (hclean : 0xFF ∉ noise) : awaitStart p p.input = (true, { p with input := body }) := by
  rw [hinput, awaitStart_append _ _ hnoise, if_neg hclean, awaitStart, if_pos rfl]

/-- A packet that is too long is not answered. -/
theorem recvPacket_long (hawait : awaitStart p p.input = (true, { p with input := data ++ after }))
    (hdata : char '#' ∉ data) (hlong : data.length > pktBufLen) :
    ∃ left, dbgRecvPacket asserts buf pktBufLen p = (.eof, { p with input := left }) := by
  obtain ⟨left, n, filled, hrecv⟩ : ∃ left n filled,
      recvData pktBufLen { p with input := data ++ after } (data ++ after) 0 buf =
        (false, { p with input := left }, n, filled) :=
    recvData_long _ after hdata (by rwa [Nat.zero_add]) (Nat.zero_le pktBufLen)
  exact ⟨left, recvPacket_started hawait hrecv⟩

/-- The connection ends within the data. -/
theorem recvPacket_unended (hawait : awaitStart p p.input = (true, { p with input := body }))
    (hbody : char '#' ∉ body) (hfit : body.length ≤ pktBufLen) :
    dbgRecvPacket asserts buf pktBufLen p = (.eof, atEof { p with input := body }) := by
  have hall := @recvData_append buf pktBufLen 0 body { p with input := body } [] hbody (by omega)
  rw [List.append_nil, List.append_nil] at hall
  rw [atEof]
  split
  · next hmem =>
    obtain ⟨n, filled, hrecv⟩ := hall.1 hmem
    exact recvPacket_started hawait hrecv
  · next hmem => exact recvPacket_started hawait (hall.2 hmem)

theorem receives_started (hinput : p.input = noise ++ char '$' :: body) (hnoise : char '$' ∉ noise)
    (hbody : char '#' ∉ body) : Receives asserts buf p (incoming p.input) := by
  have hrefusal : refusal asserts p.input = .silent := by
    rw [hinput]
    exact refusal_started asserts hnoise hbody
  rw [(congrArg incoming hinput).trans (incoming_started hnoise hbody)]
  by_cases hnoisy : 0xFF ∈ noise
  · have hmem : 0xFF ∈ p.input := by
      rw [hinput]
      exact List.mem_append_left _ hnoisy
    refine receives_of_eof hmem (fun n d r heq => ?_) (fun _ _ => hrefusal)
      (recvPacket_noise hinput hnoise hnoisy)
    split at heq <;> cases heq
  have hawait := awaitStart_clean hinput hnoise hnoisy
  split
  · next hlong =>
    rw [Receives, hrefusal]
    rw [← List.append_nil body] at hawait
    exact recvPacket_long hawait hbody hlong
  · next hfit =>
    rw [Receives, atEof_cons (by decide) hinput hnoisy]
    exact recvPacket_unended hawait hbody (Nat.le_of_not_lt hfit)

/-- Data that is received as `EOF`. -/
theorem recvPacket_data (hinput : p.input = noise ++ char '$' :: (data ++ char '#' :: after))
    (hnoise : char '$' ∉ noise) (hclean : 0xFF ∉ noise) (hdata : char '#' ∉ data)
    (hfit : data.length ≤ pktBufLen) (heof : 0xFF ∈ data) :
    dbgRecvPacket asserts buf pktBufLen p = (.eof, { p with input := afterEof p.input }) := by
  have hawait := awaitStart_clean hinput hnoise hclean
  obtain ⟨n, filled, hrecv⟩ : ∃ n filled,
      recvData pktBufLen { p with input := data ++ char '#' :: after } (data ++ char '#' :: after) 0 buf =
        (false, { p with input := afterEof data ++ char '#' :: after }, n, filled) :=
    (recvData_append _ (char '#' :: after) hdata (by omega)).1 heof
  rw [hinput, afterEof_append, if_neg hclean, afterEof_cons (by decide), afterEof_append, if_pos heof]
  exact recvPacket_started hawait hrecv

theorem recvData_ended (buf : Nat → Byte) (p : Peer) (after : List Byte) (hdata : char '#' ∉ data)
    (hfit : data.length ≤ pktBufLen) (hclean : 0xFF ∉ data) :
    recvData pktBufLen p (data ++ char '#' :: after) 0 buf =
      (true, { p with input := after }, data.length, put buf 0 data) := by
  rw [(recvData_append p (char '#' :: after) hdata (by omega)).2 hclean, recvData, if_neg (by decide),
    if_pos rfl, Nat.zero_add]

/-- The data has been received, and the checksum is. -/
theorem receives_checksum
    (hawait : awaitStart p p.input = (true, { p with input := data ++ char '#' :: after }))
    (hrecv : recvData pktBufLen { p with input := data ++ char '#' :: after } (data ++ char '#' :: after) 0
      buf = (true, { p with input := after }, data.length, put buf 0 data))
    (hafter : atEof p = atEof { p with input := after })
    (hrefusal : refusal asserts p.input = refuseChecksum asserts after)
    (hnoise : 0xFF ∉ noise) (hdata : 0xFF ∉ data) :
    Receives asserts buf p (withChecksum noise data after) := by
  have hlost (hshort : after.length < 2) :
      dbgRecvPacket asserts buf pktBufLen p = (.eof, atEof p) := by
    rw [hafter]
    exact recvPacket_eof hawait hrecv (recvChecksum_lost asserts hshort)
  match after with
  | [] => exact hlost (by decide)
  | [c] => exact hlost Nat.one_lt_two
  | high :: low :: rest =>
    have hinner : ({ p with input := high :: low :: rest } : Peer).input = high :: low :: rest := rfl
    have hsum : dbgChecksum (put buf 0 data) data.length = data.foldr (· + ·) 0 := by
      rw [checksum_slice, slice_put]
    rw [withChecksum]
    cases hbyte : hexByte high low with
    | none =>
      rw [if_neg (by simp), Receives, hrefusal, refuseChecksum, hbyte]
      by_cases heof : high = 0xFF ∨ low = 0xFF
      · rw [if_pos heof]
        obtain ⟨left, hsum⟩ := recvChecksum_eof asserts hinner heof
        exact ⟨left, recvPacket_eof hawait hrecv hsum⟩
      · rw [if_neg heof, if_neg (by decide)]
        obtain ⟨csum, hsum⟩ := recvChecksum_junk asserts hinner hbyte heof
        cases asserts with
        | true => exact ⟨rest, recvPacket_aborted hawait hrecv hsum⟩
        | false => exact ⟨rest, recvPacket_eof hawait hrecv hsum⟩
    | some csum =>
      have hpacket := recvPacket_ok hawait hrecv (recvChecksum_digits asserts rfl hbyte)
      rw [hsum] at hpacket
      split
      · next heq =>
        obtain rfl := Option.some.inj heq
        rw [if_neg (not_not.mpr rfl)] at hpacket
        refine ⟨fun hdirty => ?_, fun _ => hpacket⟩
        exact absurd hdirty (not_or.mpr ⟨hnoise, hdata⟩)
      · next hne =>
        obtain ⟨hhigh, hlow⟩ := digits_ne_eof hbyte
        rw [if_pos fun hsame => hne (congrArg some hsame.symm)] at hpacket
        rw [Receives, hrefusal, refuseChecksum, hbyte, if_neg (not_or.mpr ⟨hhigh, hlow⟩)]
        exact hpacket

theorem receives_ended (hinput : p.input = noise ++ char '$' :: (data ++ char '#' :: after))
    (hnoise : char '$' ∉ noise) (hdata : char '#' ∉ data) : Receives asserts buf p (incoming p.input) := by
  have hrefusal : refusal asserts p.input = _ :=
    (congrArg (refusal asserts) hinput).trans (refusal_ended asserts hnoise hdata)
  rw [(congrArg incoming hinput).trans (incoming_ended hnoise hdata)]
  by_cases hnoisy : 0xFF ∈ noise
  · have hmem : 0xFF ∈ p.input := by
      rw [hinput]
      exact List.mem_append_left _ hnoisy
    refine receives_of_eof hmem (fun n d r heq => ?_)
      (fun _ _ => hrefusal.trans (if_pos (.inl hnoisy))) (recvPacket_noise hinput hnoise hnoisy)
    split at heq
    · cases heq
    · rw [(withChecksum_eq_packet heq).1]
      exact .inl hnoisy
  have hawait := awaitStart_clean hinput hnoise hnoisy
  split
  · next hlong =>
    rw [Receives, hrefusal, if_pos (.inr (.inr hlong))]
    exact recvPacket_long hawait hdata hlong
  next hlong =>
  have hfit : data.length ≤ pktBufLen := Nat.le_of_not_lt hlong
  by_cases hbad : 0xFF ∈ data
  · have hmem : 0xFF ∈ p.input := by
      rw [hinput]
      exact List.mem_append_right _ (List.mem_cons_of_mem _ (List.mem_append_left _ hbad))
    refine receives_of_eof hmem (fun n d r heq => ?_)
      (fun _ _ => hrefusal.trans (if_pos (.inr (.inl hbad))))
      (recvPacket_data hinput hnoise hnoisy hdata hfit hbad)
    rw [(withChecksum_eq_packet heq).2.1]
    exact .inr hbad
  have hafter : atEof p = atEof { p with input := after } := by
    rw [atEof_cons (by decide) hinput hnoisy]
    have hstart : ({ p with input := data ++ char '#' :: after } : Peer).input = data ++ char '#' :: after := rfl
    exact atEof_cons (by decide) hstart hbad
  rw [if_neg (by tauto)] at hrefusal
  exact receives_checksum hawait (recvData_ended buf _ after hdata hfit hbad) hafter hrefusal hnoisy hbad

end Started

theorem receives : Receives asserts buf p (incoming p.input) := by
  generalize hinput : p.input = input
  cases shape input with
  | silent h =>
    rw [← hinput] at h ⊢
    exact receives_silent h
  | started hnoise hbody =>
    rw [← hinput]
    exact receives_started hinput hnoise hbody
  | ended hnoise hdata =>
    rw [← hinput]
    exact receives_ended hinput hnoise hdata

end Receives

end OpenXbox.Gdb.Stream
