import OpenXbox.Gdb.Main
import OpenXbox.Gdb.RoundTrip

/-!
# A packet is read from its own bytes

A token whose remaining length is computed inside the packet depends on the packet alone. A
separator does not look at the remaining length: where a number ends with the packet, it is
looked for in what the buffer held before.
-/

namespace OpenXbox.Gdb.OwnBytes

open OpenXbox.Lib.Buffer OpenXbox.Gdb.Transport OpenXbox.Gdb.Codec OpenXbox.Gdb.Packet
  OpenXbox.Gdb.Main OpenXbox.Gdb.RoundTrip

/-! ## Numbers -/

section Strtol

variable {str str' : Nat → Byte} {len pos base left : Nat}

theorem strtolLoop_congr (value : Word) (valid : Bool)
    (h : ∀ i, pos ≤ i → i < pos + left → str i = str' i) :
    strtolLoop str base left pos value valid = strtolLoop str' base left pos value valid := by
  induction left generalizing pos value valid with
  | zero => rfl
  | succ left ih =>
    rw [strtolLoop, strtolLoop, h pos (Nat.le_refl pos) (by omega)]
    split
    · rfl
    · split
      · rfl
      · exact ih _ _ fun i hge hlt => h i (by omega) (by omega)

theorem strtolLoop_le (str : Nat → Byte) (base pos left : Nat) (value : Word) (valid : Bool) :
    (strtolLoop str base left pos value valid).1 ≤ pos + left := by
  induction left generalizing pos value valid with
  | zero => exact Nat.le_refl pos
  | succ left ih =>
    rw [strtolLoop]
    split
    · exact Nat.le_add_right _ _
    · split
      · exact Nat.le_add_right _ _
      · exact (ih _ _ _).trans (by omega)

theorem strtolSign_le : (strtolSign str).2 ≤ 1 := by
  unfold strtolSign
  repeat' split
  all_goals decide

theorem strtolBase_le (h : pos ≤ len) : (strtolBase str len pos base).2 ≤ len := by
  unfold strtolBase
  split
  · next hprefix => exact Nat.le_of_lt hprefix.1
  · exact h

theorem strtolBase_congr (h : ∀ i, i < len → str i = str' i) :
    strtolBase str len pos base = strtolBase str' len pos base := by
  unfold strtolBase
  by_cases hlt : pos + 2 < len
  · rw [h pos (by omega), h (pos + 1) (by omega)]
  · simp only [hlt, false_and, if_false]

/-- The number depends on the characters before the end. -/
theorem dbgStrtol_congr (h : ∀ i, i < len → str i = str' i) :
    dbgStrtol str len base = dbgStrtol str' len base := by
  unfold dbgStrtol
  by_cases hlen : len < 1
  · rw [if_pos hlen, if_pos hlen]
  · have hsign : strtolSign str = strtolSign str' := by
      unfold strtolSign
      rw [h 0 (by omega)]
    rw [if_neg hlen, if_neg hlen, hsign]
    dsimp only
    have hpos : (strtolSign str').2 ≤ len := strtolSign_le.trans (by omega)
    rw [strtolBase_congr h]
    have hbase : (strtolBase str' len (strtolSign str').2 base).2 ≤ len := strtolBase_le hpos
    rw [strtolLoop_congr _ _ fun i _ hlt => h i (by omega)]

theorem dbgStrtol_stop {stop : Nat} (h : (dbgStrtol str len base).2 = some stop) : stop ≤ len := by
  unfold dbgStrtol at h
  by_cases hlen : len < 1
  · rw [if_pos hlen] at h
    cases h
  · rw [if_neg hlen] at h
    dsimp only at h
    have hpos : (strtolSign str).2 ≤ len := strtolSign_le.trans (by omega)
    have hbase : (strtolBase str len (strtolSign str).2 base).2 ≤ len := strtolBase_le hpos
    split at h
    · cases h
    · next pos value heq =>
      have hloop := strtolLoop_le str (strtolBase str len (strtolSign str).2 base).1
        (strtolBase str len (strtolSign str).2 base).2
        (len - (strtolBase str len (strtolSign str).2 base).2) 0 false
      rw [heq] at hloop
      cases h
      exact hloop.trans (by omega)

end Strtol

/-! ## Packets -/

/-- The bytes from the start of the buffer on are those of the packet. -/
def Holds (buf : Nat → Byte) (packet : List Byte) : Prop := slice buf 0 packet.length = packet

/-- Where a number that starts at a position of the packet ends. -/
def numberEnd (packet : List Byte) (ptr : Nat) : Option Nat :=
  (dbgStrtol (fun i => packet.getD (ptr + i) 0) (packet.length - ptr) 16).2.map (ptr + ·)

/-- A number that a separator has to follow ends with the packet. -/
def EndsInNumber (packet : List Byte) : Prop :=
  (packet.head? = some (char 'P') ∨ packet.head? = some (char 'm') ∨
      packet.head? = some (char 'M') ∨ packet.head? = some (char 'X')) ∧
    numberEnd packet 1 = some packet.length ∨
  (packet.head? = some (char 'M') ∨ packet.head? = some (char 'X')) ∧
    ∃ stop, numberEnd packet 1 = some stop ∧ packet[stop]? = some (char ',') ∧
      numberEnd packet (stop + 1) = some packet.length

/-- What is done stays inside the packet, and the subtraction does not wrap. -/
def Event.Inside (pktLen : Nat) : Event → Prop
  | .remaining ptr => ptr ≤ pktLen
  | .token _ stop => stop ≤ pktLen

theorem remaining_of_le {pktLen ptr : Nat} (h : ptr ≤ pktLen) (hn : pktLen < 2 ^ 64) :
    tokenRemainingBuf pktLen ptr = pktLen - ptr := by
  rw [tokenRemainingBuf, show pktLen + 2 ^ 64 - ptr = pktLen - ptr + 2 ^ 64 by omega,
    Nat.add_mod_right, Nat.mod_eq_of_lt (by omega)]

section Holds

variable {buf : Nat → Byte} {packet : List Byte} (h : Holds buf packet)

include h

theorem Holds.getElem? {i : Nat} (hi : i < packet.length) : packet[i]? = some (buf i) := by
  have hs : (slice buf 0 packet.length)[i]? = some (buf (0 + i)) := getElem?_slice hi
  rwa [h, Nat.zero_add] at hs

theorem Holds.getD {i : Nat} (hi : i < packet.length) : packet.getD i 0 = buf i := by
  rw [List.getD_eq_getElem?_getD, h.getElem? hi, Option.getD_some]

theorem Holds.head? (hpos : 0 < packet.length) : packet.head? = some (buf 0) := by
  rw [List.head?_eq_getElem?, h.getElem? hpos]

/-- A number inside the packet, as the packet alone has it. -/
theorem Holds.strtol {ptr : Nat} (base : Nat) :
    dbgStrtol (drop buf ptr) (packet.length - ptr) base =
      dbgStrtol (fun i => packet.getD (ptr + i) 0) (packet.length - ptr) base :=
  dbgStrtol_congr fun i hi => (h.getD (by omega)).symm

end Holds

theorem Holds.agree {buf buf' : Nat → Byte} {packet : List Byte} (h : Holds buf packet)
    (h' : Holds buf' packet) {i : Nat} (hi : i < packet.length) : buf i = buf' i := by
  rw [← h.getD hi, h'.getD hi]

/-! ## Parsing from two buffers -/

/-- From a position, two parsers do the same, stay inside the packet and end as `Q` says. -/
structure Sound {α : Type} (pktLen : Nat) (Q : α → Nat → Prop) (x y : Parse α) (ptr : Nat) : Prop where
  same : y ptr = x ptr
  inside : ∀ e ∈ (x ptr).1, Event.Inside pktLen e
  result : ∀ a next, (x ptr).2 = some (a, next) → Q a next

section Sound

variable {α β : Type} {pktLen ptr : Nat}

theorem Sound.pure {Q : α → Nat → Prop} {a : α} (h : Q a ptr) :
    Sound pktLen Q (Pure.pure a) (Pure.pure a) ptr where
  same := rfl
  inside e he := by cases he
  result b next heq := by
    cases heq
    exact h

theorem Sound.error {Q : α → Nat → Prop} : Sound pktLen Q goError goError ptr where
  same := rfl
  inside e he := by cases he
  result b next heq := by cases heq

theorem bind_apply (x : Parse α) (f : α → Parse β) :
    (x >>= f) ptr =
      match x ptr with
      | (events, none) => (events, none)
      | (events, some (a, next)) => (events ++ (f a next).1, (f a next).2) := rfl

theorem Sound.bind {Q : α → Nat → Prop} {R : β → Nat → Prop} {x y : Parse α} {f g : α → Parse β}
    (hx : Sound pktLen Q x y ptr) (hf : ∀ a next, Q a next → Sound pktLen R (f a) (g a) next) :
    Sound pktLen R (x >>= f) (y >>= g) ptr := by
  obtain ⟨hsame, hinside, hresult⟩ := hx
  refine ⟨?_, ?_, ?_⟩
  · rw [bind_apply, bind_apply, hsame]
    split
    · rfl
    · next a next heq =>
      rw [heq] at hresult
      rw [(hf a next (hresult a next rfl)).same]
  · rw [bind_apply]
    split
    · next heq =>
      rw [heq] at hinside
      exact hinside
    · next a next heq =>
      rw [heq] at hinside hresult
      intro e he
      obtain he | he := List.mem_append.mp he
      · exact hinside e he
      · exact (hf a next (hresult a next rfl)).inside e he
  · rw [bind_apply]
    split
    · intro b last hb
      cases hb
    · next a next heq =>
      rw [heq] at hresult
      exact (hf a next (hresult a next rfl)).result

theorem Sound.ite {Q : α → Nat → Prop} {x x' y y' : Parse α} {c : Prop} [Decidable c]
    (ht : c → Sound pktLen Q x y ptr) (hf : ¬ c → Sound pktLen Q x' y' ptr) :
    Sound pktLen Q (if c then x else x') (if c then y else y') ptr := by
  by_cases hc : c
  · rw [if_pos hc, if_pos hc]
    exact ht hc
  · rw [if_neg hc, if_neg hc]
    exact hf hc

theorem Sound.skip : Sound pktLen (fun _ next => next = ptr + 1) Main.skip Main.skip ptr where
  same := rfl
  inside e he := by cases he
  result a next heq := by
    cases heq
    rfl

end Sound

section Tokens

theorem integer_apply (buf : Nat → Byte) (pktLen ptr : Nat) :
    tokenExpectIntegerArg buf pktLen ptr =
      takeNumber ptr (dbgStrtol (drop buf ptr) (tokenRemainingBuf pktLen ptr) 16) := rfl

theorem seperator_apply (buf : Nat → Byte) (c : Byte) (ptr : Nat) :
    tokenExpectSeperator buf c ptr =
      if buf ptr = c then ([.token ptr (ptr + 1)], some ((), ptr + 1)) else ([], none) := rfl

theorem payload_apply (pktLen ptr : Nat) :
    payload pktLen ptr =
      ([.remaining ptr, .token ptr (ptr + tokenRemainingBuf pktLen ptr)],
        some ((ptr, tokenRemainingBuf pktLen ptr), ptr + tokenRemainingBuf pktLen ptr)) := rfl

/-- What a parser has done is inside the packet, when its two events are. -/
theorem token_inside {pktLen ptr stop : Nat} (hptr : ptr ≤ pktLen) (hstop : stop ≤ pktLen) :
    ∀ e ∈ [Event.remaining ptr, .token ptr stop], Event.Inside pktLen e := by
  intro e he
  obtain rfl | he := List.mem_cons.mp he
  · exact hptr
  · obtain rfl := List.mem_singleton.mp he
    exact hstop

variable {buf buf' : Nat → Byte} {packet : List Byte} {ptr : Nat} (h : Holds buf packet)
  (h' : Holds buf' packet)

/-- A number inside the packet as it is parsed. -/
theorem Holds.integer (h : Holds buf packet) (hptr : ptr ≤ packet.length)
    (hn : packet.length < 2 ^ 64) :
    tokenExpectIntegerArg buf packet.length ptr =
      takeNumber ptr (dbgStrtol (fun i => packet.getD (ptr + i) 0) (packet.length - ptr) 16) := by
  rw [integer_apply, remaining_of_le hptr hn, h.strtol]

include h h'

/-- A number that starts inside the packet ends inside it. -/
theorem integer_sound (hptr : ptr ≤ packet.length) (hn : packet.length < 2 ^ 64) :
    Sound packet.length (fun _ next => next ≤ packet.length ∧ numberEnd packet ptr = some next)
      (tokenExpectIntegerArg buf packet.length) (tokenExpectIntegerArg buf' packet.length) ptr := by
  have hx := h.integer hptr hn
  have hy := h'.integer hptr hn
  have hend : numberEnd packet ptr = (dbgStrtol (fun i => packet.getD (ptr + i) 0)
    (packet.length - ptr) 16).2.map (ptr + ·) := rfl
  have hle (stop : Nat) (hs : (dbgStrtol (fun i => packet.getD (ptr + i) 0)
      (packet.length - ptr) 16).2 = some stop) : ptr + stop ≤ packet.length := by
    have hstop := dbgStrtol_stop hs
    omega
  generalize dbgStrtol (fun i => packet.getD (ptr + i) 0) (packet.length - ptr) 16 = r at *
  obtain ⟨value, _ | stop⟩ := r
  · refine ⟨hy.trans hx.symm, ?_, ?_⟩
    · rw [hx]
      intro e he
      obtain rfl := List.mem_singleton.mp he
      exact hptr
    · rw [hx]
      intro a next heq
      cases heq
  · refine ⟨hy.trans hx.symm, ?_, ?_⟩
    · rw [hx]
      exact token_inside hptr (hle stop rfl)
    · rw [hx]
      intro a next heq
      cases heq
      exact ⟨hle stop rfl, hend⟩

/-- A separator that is looked for inside the packet. -/
theorem seperator_sound (c : Byte) (hptr : ptr < packet.length) :
    Sound packet.length (fun _ next => next = ptr + 1 ∧ packet[ptr]? = some c)
      (tokenExpectSeperator buf c) (tokenExpectSeperator buf' c) ptr := by
  have hget := h.getElem? hptr
  refine ⟨?_, ?_, ?_⟩
  · rw [seperator_apply, seperator_apply, h.agree h' hptr]
  · rw [seperator_apply]
    split
    · intro e he
      obtain rfl := List.mem_singleton.mp he
      exact hptr
    · intro e he
      cases he
  · rw [seperator_apply]
    split
    · next heq =>
      intro a next hr
      cases hr
      exact ⟨rfl, hget.trans (congrArg some heq)⟩
    · intro a next hr
      cases hr

end Tokens

theorem payload_sound {pktLen ptr : Nat} (hptr : ptr ≤ pktLen) (hn : pktLen < 2 ^ 64) :
    Sound pktLen (fun range _ => range.1 + range.2 ≤ pktLen) (payload pktLen) (payload pktLen) ptr := by
  have hstop : ptr + (pktLen - ptr) ≤ pktLen := by omega
  refine ⟨rfl, ?_, ?_⟩
  · rw [payload_apply, remaining_of_le hptr hn]
    exact token_inside hptr hstop
  · rw [payload_apply, remaining_of_le hptr hn]
    intro a next heq
    cases heq
    exact hstop

/-- The rest of the packet that a command is given lies in it. -/
def Command.Inside (pktLen : Nat) : Command → Prop
  | .writeRegisters start length => start + length ≤ pktLen
  | .writeRegister _ start length => start + length ≤ pktLen
  | .writeMemory _ _ _ start count => start + count ≤ pktLen
  | _ => True

section Parse

variable {buf buf' : Nat → Byte} {packet : List Byte} (h : Holds buf packet) (h' : Holds buf' packet)
  (hpos : 0 < packet.length) (hn : packet.length < 2 ^ 64)

include h h' hpos hn

theorem register_sound :
    Sound packet.length (fun c _ => Command.Inside packet.length c) (parseRegister buf packet.length)
      (parseRegister buf' packet.length) 0 := by
  refine Sound.skip.bind fun _ next hnext => ?_
  subst hnext
  refine (integer_sound h h' hpos hn).bind fun addr next _ => ?_
  split
  · exact Sound.error
  · exact Sound.pure trivial

theorem writeRegister_sound (hend : numberEnd packet 1 ≠ some packet.length) :
    Sound packet.length (fun c _ => Command.Inside packet.length c)
      (parseWriteRegister buf packet.length) (parseWriteRegister buf' packet.length) 0 := by
  refine Sound.skip.bind fun _ next hnext => ?_
  subst hnext
  refine (integer_sound h h' hpos hn).bind fun addr next hnumber => ?_
  obtain ⟨hle, hnext⟩ := hnumber
  have hlt : next < packet.length := Nat.lt_of_le_of_ne hle fun heq => hend (heq ▸ hnext)
  refine (seperator_sound h h' (char '=') hlt).bind fun _ after hafter => ?_
  obtain ⟨rfl, -⟩ := hafter
  split
  · exact Sound.error
  · refine (payload_sound hlt hn).bind fun range _ hrange => ?_
    exact Sound.pure hrange

theorem range_sound (hend : numberEnd packet 1 ≠ some packet.length) :
    Sound packet.length
      (fun _ next => next ≤ packet.length ∧ ∃ stop, numberEnd packet 1 = some stop ∧
        packet[stop]? = some (char ',') ∧ numberEnd packet (stop + 1) = some next)
      (parseRange buf packet.length) (parseRange buf' packet.length) 0 := by
  refine Sound.skip.bind fun _ next hnext => ?_
  subst hnext
  refine (integer_sound h h' hpos hn).bind fun addr stop hnumber => ?_
  obtain ⟨hle, hstop⟩ := hnumber
  have hlt : stop < packet.length := Nat.lt_of_le_of_ne hle fun heq => hend (heq ▸ hstop)
  refine (seperator_sound h h' (char ',') hlt).bind fun _ after hafter => ?_
  obtain ⟨rfl, hcomma⟩ := hafter
  refine (integer_sound h h' hlt hn).bind fun length next hnumber => ?_
  exact Sound.pure ⟨hnumber.1, stop, hstop, hcomma, hnumber.2⟩

theorem readMemory_sound (hend : numberEnd packet 1 ≠ some packet.length) :
    Sound packet.length (fun c _ => Command.Inside packet.length c)
      (parseReadMemory buf packet.length) (parseReadMemory buf' packet.length) 0 :=
  (range_sound h h' hpos hn hend).bind fun _ _ _ => Sound.pure trivial

theorem writeMemory_sound (dec : Decoder) (hend : numberEnd packet 1 ≠ some packet.length)
    (hend' : ∀ stop, numberEnd packet 1 = some stop → packet[stop]? = some (char ',') →
      numberEnd packet (stop + 1) ≠ some packet.length) :
    Sound packet.length (fun c _ => Command.Inside packet.length c)
      (parseWriteMemory dec buf packet.length) (parseWriteMemory dec buf' packet.length) 0 := by
  refine (range_sound h h' hpos hn hend).bind fun range next hrange => ?_
  obtain ⟨hle, stop, hstop, hcomma, hnext⟩ := hrange
  have hlt : next < packet.length :=
    Nat.lt_of_le_of_ne hle fun heq => hend' stop hstop hcomma (heq ▸ hnext)
  refine (seperator_sound h h' (char ':') hlt).bind fun _ after hafter => ?_
  obtain ⟨rfl, -⟩ := hafter
  refine (payload_sound hlt hn).bind fun rest _ hrest => ?_
  exact Sound.pure hrest

/-- A packet none of whose numbers ends where a separator has to be is parsed from its own
bytes. -/
theorem parse_sound (hend : ¬ EndsInNumber packet) :
    Sound packet.length (fun c _ => Command.Inside packet.length c) (parse buf packet.length)
      (parse buf' packet.length) 0 := by
  have hfirst := h.agree h' hpos
  have hhead := h.head? hpos
  unfold EndsInNumber at hend
  rw [hhead] at hend
  simp only [not_or, not_and, Option.some.injEq] at hend
  unfold parse
  rw [← hfirst]
  refine .ite (fun _ => Sound.pure trivial) fun _ => ?_
  refine .ite (fun _ => ?_) fun _ => ?_
  · refine Sound.skip.bind fun _ next hnext => ?_
    subst hnext
    exact (payload_sound hpos hn).bind fun rest _ hrest => Sound.pure hrest
  refine .ite (fun _ => register_sound h h' hpos hn) fun _ => ?_
  refine .ite (fun hp => writeRegister_sound h h' hpos hn (hend.1 (.inl hp))) fun _ => ?_
  refine .ite (fun hm => readMemory_sound h h' hpos hn (hend.1 (.inr (.inl hm)))) fun _ => ?_
  refine .ite (fun hm => ?_) fun _ => ?_
  · refine writeMemory_sound h h' hpos hn .hex (hend.1 (.inr (.inr (.inl hm)))) fun stop h1 h2 h3 => ?_
    exact hend.2 (.inl hm) ⟨stop, h1, h2, h3⟩
  refine .ite (fun hx => ?_) fun _ => ?_
  · refine writeMemory_sound h h' hpos hn .bin (hend.1 (.inr (.inr (.inr hx)))) fun stop h1 h2 h3 => ?_
    exact hend.2 (.inr hx) ⟨stop, h1, h2, h3⟩
  refine .ite (fun _ => Sound.pure trivial) fun _ => ?_
  refine .ite (fun _ => Sound.pure trivial) fun _ => ?_
  exact .ite (fun _ => Sound.pure trivial) fun _ => Sound.pure trivial

end Parse

/-! ## Decoding and replying -/

section Congr

variable {buf buf' : Nat → Byte}

theorem decHexLoop_congr (asserts : Bool) (left pos : Nat) (data : Nat → Byte)
    (h : ∀ i, i < 2 * (pos + left) → buf i = buf' i) :
    decHexLoop asserts buf left pos data = decHexLoop asserts buf' left pos data := by
  induction left generalizing pos data with
  | zero => rfl
  | succ left ih =>
    rw [decHexLoop, decHexLoop, h (2 * pos) (by omega), h (2 * pos + 1) (by omega)]
    split
    · rfl
    · dsimp only
      split
      · rfl
      · exact ih (pos + 1) _ fun i hi => h i (by omega)

theorem decBinLoop_congr (asserts : Bool) (dataLen left : Nat) : ∀ (bufPos dataPos : Nat)
    (data : Nat → Byte), (∀ i, i < bufPos + left → buf i = buf' i) →
    decBinLoop asserts buf dataLen left bufPos dataPos data =
      decBinLoop asserts buf' dataLen left bufPos dataPos data := by
  induction left using Nat.strong_induction_on with
  | _ left ih =>
    intro bufPos dataPos data h
    cases left with
    | zero => rfl
    | succ left =>
      unfold decBinLoop
      rw [h bufPos (by omega)]
      split
      · rfl
      · split
        · cases left with
          | zero => rfl
          | succ left =>
            dsimp only
            rw [h (bufPos + 1) (by omega)]
            exact ih left (by omega) _ _ _ fun i hi => h i (by omega)
        · exact ih left (by omega) _ _ _ fun i hi => h i (by omega)

/-- A decoder looks at the characters that it is given. -/
theorem decHex_congr (asserts : Bool) {bufLen : Nat} (data : Nat → Byte) (dataLen : Nat)
    (h : ∀ i, i < bufLen → buf i = buf' i) :
    dbgDecHex asserts buf bufLen data dataLen = dbgDecHex asserts buf' bufLen data dataLen := by
  unfold dbgDecHex
  by_cases hlen : bufLen = dataLen * 2
  · rw [if_neg (not_not.mpr hlen), if_neg (not_not.mpr hlen)]
    exact decHexLoop_congr asserts dataLen 0 data fun i hi => h i (by omega)
  · rw [if_pos hlen, if_pos hlen]

theorem decoder_congr (dec : Decoder) (asserts : Bool) {bufLen : Nat} (data : Nat → Byte)
    (dataLen : Nat) (h : ∀ i, i < bufLen → buf i = buf' i) :
    dec.run asserts buf bufLen data dataLen = dec.run asserts buf' bufLen data dataLen := by
  cases dec with
  | hex => exact decHex_congr asserts data dataLen h
  | bin => exact decBinLoop_congr asserts dataLen bufLen 0 0 data fun i hi => h i (by omega)

theorem write_congr {len : Nat} (p : Peer) (h : slice buf 0 len = slice buf' 0 len) :
    dbgWrite buf len p = dbgWrite buf' len p := by
  induction len generalizing buf buf' p with
  | zero => rfl
  | succ len ih =>
    have hshift (b : Nat → Byte) : slice (fun i => b (i + 1)) 0 len = slice b (0 + 1) len := by
      apply List.map_congr_left
      intro i _
      rw [Nat.zero_add, Nat.zero_add, Nat.add_comm]
    rw [slice_succ, slice_succ] at h
    injection h with hfirst hrest
    rw [dbgWrite, dbgWrite, hfirst]
    split
    · rfl
    · exact ih _ (by rw [hshift, hshift, hrest])

/-- A packet is sent as its characters say. -/
theorem sendPacket_congr {len : Nat} (p : Peer) (h : slice buf 0 len = slice buf' 0 len) :
    dbgSendPacket buf len p = dbgSendPacket buf' len p := by
  have hsum : dbgChecksum buf len = dbgChecksum buf' len := by
    rw [checksum_slice, checksum_slice, h]
  have hwrite (q : Peer) : dbgWrite buf len q = dbgWrite buf' len q := write_congr q h
  unfold dbgSendPacket
  simp only [hsum, hwrite]

/-- What a code packet holds does not depend on the buffer that it is made in. -/
theorem sendCode_eq (letter code : Byte) (buf : Nat → Byte) (p : Peer) :
    ∃ after, slice after 0 3 = letter :: hexOf code ∧
      sendCodePacket letter buf pktBufLen code p =
        ((dbgSendPacket after 3 p).1, after, (dbgSendPacket after 3 p).2) := by
  have henc := encHex_fits (fun _ => code) 1 (drop (store buf 0 letter) 1)
    (show 1 * 2 ≤ pktBufLen - 1 by decide)
  refine ⟨putFrom (store buf 0 letter) 1
    (put (drop (store buf 0 letter) 1) 0 ((slice (fun _ => code) 0 1).flatMap hexOf)), rfl, ?_⟩
  rw [sendCodePacket, if_neg (by decide)]
  dsimp only
  rw [henc]

end Congr

/-! ## What a turn does -/

/-- What the loop sends and changes, and the code that it is left with: all but the buffer. -/
def Outcome.effect {M : Type} : Outcome M → Server M × Option Int
  | .next server _ => (server, none)
  | .exit code server => (server, some code)

section Effect

variable {M : Type} (env : Env M) (s : Server M) {buf buf' : Nat → Byte}

theorem afterReply_effect (buf buf' : Nat → Byte) (status : Status) (p : Peer) :
    (afterReply s buf status p).map Outcome.effect = (afterReply s buf' status p).map Outcome.effect := by
  cases status with
  | ok n => rfl
  | eof => rfl
  | aborted => rfl

theorem sendReply_effect (buf buf' : Nat → Byte) {data data' : Nat → Byte} {len : Nat}
    (h : slice data 0 len = slice data' 0 len) :
    (sendReply s buf data len).map Outcome.effect = (sendReply s buf' data' len).map Outcome.effect := by
  unfold sendReply
  rw [sendPacket_congr s.peer h]
  exact afterReply_effect s buf buf' _ _

theorem sendOk_effect (buf buf' : Nat → Byte) :
    (sendOk s buf).map Outcome.effect = (sendOk s buf').map Outcome.effect :=
  afterReply_effect s buf buf' _ _

theorem sendError_effect (buf buf' : Nat → Byte) :
    (sendError s buf).map Outcome.effect = (sendError s buf').map Outcome.effect := by
  obtain ⟨after, hslice, heq⟩ := sendCode_eq (char 'E') 0 buf s.peer
  obtain ⟨after', hslice', heq'⟩ := sendCode_eq (char 'E') 0 buf' s.peer
  have hsend := sendPacket_congr s.peer (hslice.trans hslice'.symm)
  unfold sendError dbgSendErrorPacket
  rw [heq, heq', hsend]
  rfl

theorem sendEncoded_effect (buf buf' data : Nat → Byte) (len : Nat) :
    (sendEncoded s (dbgEncHex buf pktBufLen data len)).map Outcome.effect =
      (sendEncoded s (dbgEncHex buf' pktBufLen data len)).map Outcome.effect := by
  by_cases hfit : len * 2 ≤ pktBufLen
  · rw [encHex_fits data len buf hfit, encHex_fits data len buf' hfit]
    have hlen : ((slice data 0 len).flatMap hexOf).length = len * 2 := by
      rw [length_flatMap_hexOf, length_slice]
    refine sendReply_effect s _ _ ?_
    rw [← hlen, slice_put, slice_put]
  · unfold dbgEncHex
    rw [if_pos (Nat.lt_of_not_le hfit), if_pos (Nat.lt_of_not_le hfit)]
    exact sendError_effect s buf buf'

theorem sendDecoded_effect (buf buf' : Nat → Byte) (decoded : Status × (Nat → Byte)) :
    (sendDecoded s buf decoded).map Outcome.effect = (sendDecoded s buf' decoded).map Outcome.effect := by
  obtain ⟨_ | _, registers⟩ := decoded
  · exact sendOk_effect _ buf buf'
  · exact sendError_effect _ buf buf'
  · rfl

/-- A command that is given bytes of the packet only does the same with both buffers. -/
theorem execute_effect {pktLen : Nat} (h : ∀ i, i < pktLen → buf i = buf' i) (command : Command)
    (hc : Command.Inside pktLen command) :
    (execute env s buf command).map Outcome.effect = (execute env s buf' command).map Outcome.effect := by
  have hdrop {start length : Nat} (hin : start + length ≤ pktLen) (i : Nat) (hi : i < length) :
      drop buf start i = drop buf' start i := h (start + i) (by omega)
  cases command with
  | readRegisters =>
    rw [execute, execute]
    exact sendEncoded_effect s buf buf' _ _
  | writeRegisters start length =>
    rw [execute, execute, decHex_congr env.asserts _ _ (hdrop hc)]
    exact sendDecoded_effect s buf buf' _
  | readRegister addr =>
    rw [execute, execute]
    exact sendEncoded_effect s buf buf' _ _
  | writeRegister addr start length =>
    rw [execute, execute, decHex_congr env.asserts _ _ (hdrop hc)]
    exact sendDecoded_effect s buf buf' _
  | readMemory addr length =>
    rw [execute, execute, dbgMemRead, dbgMemRead]
    split
    · exact sendError_effect s buf buf'
    · exact sendEncoded_effect s buf buf' _ _
  | writeMemory dec addr length start count =>
    have hsame : dbgMemWrite env (drop buf start) count addr length dec s.memory =
        dbgMemWrite env (drop buf' start) count addr length dec s.memory := by
      unfold dbgMemWrite
      rw [decoder_congr dec env.asserts _ _ (hdrop hc)]
    rw [execute, execute, hsame]
    obtain ⟨_ | _, memory⟩ := dbgMemWrite env (drop buf' start) count addr length dec s.memory
    · exact sendOk_effect _ buf buf'
    · exact sendError_effect _ buf buf'
    · rfl
  | «continue» => rfl
  | step => rfl
  | signal =>
    obtain ⟨after, hslice, heq⟩ := sendCode_eq (char 'S') 0 buf s.peer
    obtain ⟨after', hslice', heq'⟩ := sendCode_eq (char 'S') 0 buf' s.peer
    have hsend := sendPacket_congr s.peer (hslice.trans hslice'.symm)
    rw [execute, execute, dbgSendSignalPacket, heq, heq', hsend]
    exact afterReply_effect s _ _ _ _
  | unsupported =>
    rw [execute, execute]
    exact sendReply_effect s buf buf' rfl

/-! ## Reception -/

/-- Reception stores a packet over what the buffer holds; all else is up to the client. -/
theorem recvData_eq (bufLen : Nat) (p : Peer) (input : List Byte) (pktLen : Nat) (hle : pktLen ≤ bufLen) :
    ∃ complete q packet, pktLen + packet.length ≤ bufLen ∧ ∀ buf,
      recvData bufLen p input pktLen buf =
        (complete, q, pktLen + packet.length, put buf pktLen packet) := by
  induction input generalizing pktLen with
  | nil => exact ⟨false, _, [], hle, fun buf => by rw [put_nil]; rfl⟩
  | cons data input ih =>
    by_cases heof : data.toInt = EOF
    · exact ⟨false, { p with input := input }, [], hle, fun buf => by
        rw [recvData, if_pos heof, put_nil]; rfl⟩
    · by_cases hend : data = char '#'
      · refine ⟨true, { p with input := input }, [], hle, fun buf => ?_⟩
        rw [recvData, if_neg heof, if_pos hend, put_nil]
        rfl
      · by_cases hfull : pktLen ≥ bufLen
        · refine ⟨false, { p with input := input }, [], hle, fun buf => ?_⟩
          rw [recvData, if_neg heof, if_neg hend, if_pos hfull, put_nil]
          rfl
        · obtain ⟨complete, q, packet, hlen, heq⟩ := ih (pktLen + 1) (by omega)
          refine ⟨complete, q, data :: packet, by rw [List.length_cons]; omega, fun buf => ?_⟩
          rw [recvData, if_neg heof, if_neg hend, if_neg hfull, heq, put_cons, List.length_cons]
          congr 3
          omega

theorem recvPacket_cases (asserts : Bool) (bufLen : Nat) (p : Peer) :
    (∃ q, ∀ buf, dbgRecvPacket asserts buf bufLen p = (.eof, q)) ∨
    (∃ q, ∀ buf, dbgRecvPacket asserts buf bufLen p = (.aborted, q)) ∨
    ∃ packet q, packet.length ≤ bufLen ∧ ∀ buf,
      dbgRecvPacket asserts buf bufLen p = (.packet packet.length (put buf 0 packet), q) := by
  unfold dbgRecvPacket
  obtain ⟨started, p⟩ := awaitStart p p.input
  cases started with
  | false => exact .inl ⟨_, fun _ => rfl⟩
  | true =>
    obtain ⟨complete, p, packet, hlen, hdata⟩ := recvData_eq bufLen p p.input 0 (Nat.zero_le _)
    simp only [hdata, Nat.zero_add] at hlen ⊢
    cases complete with
    | false => exact .inl ⟨_, fun _ => rfl⟩
    | true =>
      have hsum (buf : Nat → Byte) :
          dbgChecksum (put buf 0 packet) packet.length = packet.foldr (· + ·) 0 := by
        rw [checksum_slice, slice_put]
      dsimp only
      generalize recvChecksum asserts p = checked
      obtain ⟨_ | _, csum, q⟩ := checked
      · by_cases hbad : packet.foldr (· + ·) 0 ≠ csum
        · exact .inl ⟨_, fun buf => by dsimp only; rw [hsum, if_pos hbad]⟩
        · exact .inr (.inr ⟨packet, _, hlen, fun buf => by dsimp only; rw [hsum, if_neg hbad]⟩)
      · exact .inl ⟨_, fun _ => rfl⟩
      · exact .inr (.inl ⟨_, fun _ => rfl⟩)

/-! ## The result -/

/-- Whatever the buffer held before, the turn has the same effect, and parsing stays inside the
packet. -/
def ReadsOwnBytes : Prop :=
  ∀ buf buf' : Nat → Byte,
    (mainTurn env s buf).map Outcome.effect = (mainTurn env s buf').map Outcome.effect ∧
    ∀ pktLen received p, 0 < pktLen →
      dbgRecvPacket env.asserts buf pktBufLen s.peer = (.packet pktLen received, p) →
      ∀ e ∈ (parse received pktLen 0).1, Event.Inside pktLen e

theorem holds_put (buf : Nat → Byte) (packet : List Byte) : Holds (put buf 0 packet) packet := slice_put

theorem readsOwnBytes_of_not_ends {packet : List Byte} {p : Peer} (hlen : packet.length ≤ pktBufLen)
    (hrecv : ∀ buf, dbgRecvPacket env.asserts buf pktBufLen s.peer =
      (.packet packet.length (put buf 0 packet), p))
    (hend : ¬ EndsInNumber packet) : ReadsOwnBytes env s := by
  have hn : packet.length < 2 ^ 64 := hlen.trans_lt (by decide)
  have hsound (buf buf' : Nat → Byte) (hpos : 0 < packet.length) :=
    parse_sound (holds_put buf packet) (holds_put buf' packet) hpos hn hend
  intro buf buf'
  constructor
  · unfold mainTurn
    rw [hrecv, hrecv]
    dsimp only
    unfold handlePacket
    by_cases hzero : packet.length = 0
    · rw [if_pos hzero, if_pos hzero]
      rfl
    · have hparse := hsound buf buf' (Nat.pos_of_ne_zero hzero)
      rw [if_neg hzero, if_neg hzero, hparse.same]
      split
      · next command next heq =>
        refine execute_effect env _ (fun i hi => ?_) command (hparse.result _ _ heq)
        exact (holds_put buf packet).agree (holds_put buf' packet) hi
      · exact sendError_effect _ _ _
  · intro pktLen received q hpos heq
    rw [hrecv] at heq
    cases heq
    exact (hsound buf buf hpos).inside

end Effect

/-! ## A number at the end -/

section Events

variable {α β : Type}

/-- What a parser does from a position. -/
def Does (x : Parse α) (ptr : Nat) (e : Event) : Prop := e ∈ (x ptr).1

/-- The result of a parser that does not fail, and the position after it. -/
def Gives (x : Parse α) (ptr : Nat) (a : α) (next : Nat) : Prop := (x ptr).2 = some (a, next)

variable {x : Parse α} {f : α → Parse β} {ptr next : Nat} {e : Event} {a : α}

theorem gives_skip : Gives skip ptr () (ptr + 1) := rfl

theorem gives_pure : Gives (pure a) ptr a ptr := rfl

theorem Gives.bind (hx : Gives x ptr a next) {b : β} {last : Nat} (hf : Gives (f a) next b last) :
    Gives (x >>= f) ptr b last := by
  unfold Gives at *
  rw [bind_apply]
  generalize x ptr = r at hx
  obtain ⟨events, result⟩ := r
  cases hx
  exact hf

/-- What is done after a step that does not fail is done. -/
theorem Gives.does (hx : Gives x ptr a next) (he : Does (f a) next e) : Does (x >>= f) ptr e := by
  unfold Gives at hx
  unfold Does at *
  rw [bind_apply]
  generalize x ptr = r at hx
  obtain ⟨events, result⟩ := r
  cases hx
  exact List.mem_append_right _ he

/-- What a step does is done. -/
theorem Does.bind (he : Does x ptr e) : Does (x >>= f) ptr e := by
  unfold Does at *
  rw [bind_apply]
  generalize x ptr = r at he
  obtain ⟨events, _ | ⟨a, next⟩⟩ := r
  · exact he
  · exact List.mem_append_left _ he

end Events

/-! ### The parsers of the packets with numbers -/

section First

variable {buf : Nat → Byte} {packet : List Byte} (h : Holds buf packet) (hpos : 0 < packet.length)

include h hpos

theorem parse_first {c : Byte} (hc : packet.head? = some c) : buf 0 = c := by
  rw [h.head? hpos] at hc
  exact Option.some.inj hc

theorem parse_P (hc : packet.head? = some (char 'P')) :
    parse buf packet.length = parseWriteRegister buf packet.length := by
  rw [parse, parse_first h hpos hc, if_neg (show char 'P' ≠ char 'g' by decide),
    if_neg (show char 'P' ≠ char 'G' by decide), if_neg (show char 'P' ≠ char 'p' by decide),
    if_pos rfl]

theorem parse_m (hc : packet.head? = some (char 'm')) :
    parse buf packet.length = parseReadMemory buf packet.length := by
  rw [parse, parse_first h hpos hc, if_neg (show char 'm' ≠ char 'g' by decide),
    if_neg (show char 'm' ≠ char 'G' by decide), if_neg (show char 'm' ≠ char 'p' by decide),
    if_neg (show char 'm' ≠ char 'P' by decide), if_pos rfl]

theorem parse_M (hc : packet.head? = some (char 'M')) :
    parse buf packet.length = parseWriteMemory .hex buf packet.length := by
  rw [parse, parse_first h hpos hc, if_neg (show char 'M' ≠ char 'g' by decide),
    if_neg (show char 'M' ≠ char 'G' by decide), if_neg (show char 'M' ≠ char 'p' by decide),
    if_neg (show char 'M' ≠ char 'P' by decide), if_neg (show char 'M' ≠ char 'm' by decide),
    if_pos rfl]

theorem parse_X (hc : packet.head? = some (char 'X')) :
    parse buf packet.length = parseWriteMemory .bin buf packet.length := by
  rw [parse, parse_first h hpos hc, if_neg (show char 'X' ≠ char 'g' by decide),
    if_neg (show char 'X' ≠ char 'G' by decide), if_neg (show char 'X' ≠ char 'p' by decide),
    if_neg (show char 'X' ≠ char 'P' by decide), if_neg (show char 'X' ≠ char 'm' by decide),
    if_neg (show char 'X' ≠ char 'M' by decide), if_pos rfl]

end First

/-! ### Separators behind the packet -/

section Stale

variable {buf : Nat → Byte} {packet : List Byte} (h : Holds buf packet) (hpos : 0 < packet.length)
  (hn : packet.length < 2 ^ 64)

/-- The separator that is taken from behind the packet. -/
def behind (packet : List Byte) : Event := .token packet.length (packet.length + 1)

theorem seperator_behind {c : Byte} (hc : buf packet.length = c) :
    Does (tokenExpectSeperator buf c) packet.length (behind packet) := by
  rw [Does, seperator_apply, if_pos hc]
  exact List.mem_singleton_self _

include h hn

theorem integer_result {ptr stop : Nat} (hptr : ptr ≤ packet.length)
    (hstop : numberEnd packet ptr = some stop) :
    ∃ value, Gives (tokenExpectIntegerArg buf packet.length) ptr value stop := by
  unfold Gives
  rw [h.integer hptr hn]
  rw [numberEnd] at hstop
  generalize dbgStrtol (fun i => packet.getD (ptr + i) 0) (packet.length - ptr) 16 = r at hstop
  obtain ⟨value, _ | k⟩ := r
  · cases hstop
  · cases hstop
    exact ⟨value, rfl⟩

include hpos

theorem writeRegister_behind (hc : buf packet.length = char '=')
    (hend : numberEnd packet 1 = some packet.length) :
    Does (parseWriteRegister buf packet.length) 0 (behind packet) := by
  obtain ⟨value, hvalue⟩ := integer_result h hn hpos hend
  refine gives_skip.does ?_
  refine hvalue.does ?_
  exact (seperator_behind hc).bind

theorem range_behind (hc : buf packet.length = char ',')
    (hend : numberEnd packet 1 = some packet.length) :
    Does (parseRange buf packet.length) 0 (behind packet) := by
  obtain ⟨value, hvalue⟩ := integer_result h hn hpos hend
  refine gives_skip.does ?_
  refine hvalue.does ?_
  exact (seperator_behind hc).bind

/-- The two numbers of a range, the second of which ends with the packet. -/
theorem range_result {stop : Nat} (hstop : numberEnd packet 1 = some stop)
    (hcomma : packet[stop]? = some (char ',')) (hend : numberEnd packet (stop + 1) = some packet.length) :
    ∃ range, Gives (parseRange buf packet.length) 0 range packet.length := by
  have hlt : stop < packet.length := (List.getElem?_eq_some_iff.mp hcomma).1
  obtain ⟨value, hvalue⟩ := integer_result h hn hpos hstop
  obtain ⟨length, hlength⟩ := integer_result h hn hlt hend
  have hsep : Gives (tokenExpectSeperator buf (char ',')) stop () (stop + 1) := by
    have hget := h.getElem? hlt
    rw [hcomma, Option.some.injEq] at hget
    rw [Gives, seperator_apply, if_pos hget.symm]
  refine ⟨(value, toSize length), ?_⟩
  refine gives_skip.bind ?_
  refine hvalue.bind ?_
  refine hsep.bind ?_
  exact hlength.bind gives_pure

theorem writeMemory_behind (dec : Decoder) (hc : buf packet.length = char ':') {stop : Nat}
    (hstop : numberEnd packet 1 = some stop) (hcomma : packet[stop]? = some (char ','))
    (hend : numberEnd packet (stop + 1) = some packet.length) :
    Does (parseWriteMemory dec buf packet.length) 0 (behind packet) := by
  obtain ⟨range, hrange⟩ := range_result h hpos hn hstop hcomma hend
  refine hrange.does ?_
  exact (seperator_behind hc).bind

omit h hpos hn in
/-- Some character behind the packet is taken as a separator. -/
theorem exists_behind (packet : List Byte) (hpos : 0 < packet.length) (hn : packet.length < 2 ^ 64)
    (hend : EndsInNumber packet) :
    ∃ c, ∀ buf, Holds buf packet → buf packet.length = c →
      Does (parse buf packet.length) 0 (behind packet) := by
  obtain ⟨hfirst, hend⟩ | ⟨hfirst, stop, hstop, hcomma, hend⟩ := hend
  · obtain hc | hc | hc | hc := hfirst
    · refine ⟨char '=', fun buf h hbuf => ?_⟩
      rw [parse_P h hpos hc]
      exact writeRegister_behind h hpos hn hbuf hend
    · refine ⟨char ',', fun buf h hbuf => ?_⟩
      rw [parse_m h hpos hc]
      exact (range_behind h hpos hn hbuf hend).bind
    · refine ⟨char ',', fun buf h hbuf => ?_⟩
      rw [parse_M h hpos hc]
      exact (range_behind h hpos hn hbuf hend).bind
    · refine ⟨char ',', fun buf h hbuf => ?_⟩
      rw [parse_X h hpos hc]
      exact (range_behind h hpos hn hbuf hend).bind
  · obtain hc | hc := hfirst
    · refine ⟨char ':', fun buf h hbuf => ?_⟩
      rw [parse_M h hpos hc]
      exact writeMemory_behind h hpos hn .hex hbuf hstop hcomma hend
    · refine ⟨char ':', fun buf h hbuf => ?_⟩
      rw [parse_X h hpos hc]
      exact writeMemory_behind h hpos hn .bin hbuf hstop hcomma hend

end Stale

/-- An accepted packet is read from its own bytes exactly when no number ends with it where a
separator has to follow. -/
theorem reads_own_bytes_iff {M : Type} (env : Env M) (s : Server M) {buf received : Nat → Byte}
    {pktLen : Nat} {p : Peer}
    (haccept : dbgRecvPacket env.asserts buf pktBufLen s.peer = (.packet pktLen received, p)) :
    ReadsOwnBytes env s ↔ ¬ EndsInNumber (slice received 0 pktLen) := by
  obtain ⟨q, hq⟩ | ⟨q, hq⟩ | ⟨packet, q, hlen, hrecv⟩ := recvPacket_cases env.asserts pktBufLen s.peer
  · cases (hq buf).symm.trans haccept
  · cases (hq buf).symm.trans haccept
  · cases (hrecv buf).symm.trans haccept
    have hn : packet.length < 2 ^ 64 := hlen.trans_lt (by decide)
    rw [slice_put]
    refine ⟨fun hown hend => ?_, readsOwnBytes_of_not_ends env s hlen hrecv⟩
    have hpos : 0 < packet.length := by
      cases packet with
      | nil => simp [EndsInNumber] at hend
      | cons c cs => exact Nat.succ_pos _
    obtain ⟨c, hbehind⟩ := exists_behind packet hpos hn hend
    have hstale : put (fun _ => c) 0 packet packet.length = c := put_of_ge (by omega)
    have hdoes := hbehind _ (holds_put (fun _ => c) packet) hstale
    have hinside := (hown (fun _ => c) (fun _ => c)).2 _ _ _ hpos (hrecv _) _ hdoes
    exact absurd hinside (Nat.not_succ_le_self _)

/-- A session with a guest that has one byte everywhere. -/
def sampleEnv : Env Unit := ⟨true, fun _ _ => some 0x11, fun m _ _ => m, fun _ => 0⟩

def sampleServer (input : List Byte) : Server Unit := ⟨.open input, fun _ => 0, ()⟩

theorem register_read_reads_own_bytes :
    ReadsOwnBytes sampleEnv (sampleServer ([] ++ frame [char 'p', char '3'] ++ [])) ↔
      ¬ EndsInNumber (slice (put (fun _ => 0) 0 [char 'p', char '3']) 0 2) :=
  reads_own_bytes_iff sampleEnv _ (recvPacket_frame true [] [char 'p', char '3'] [] (by decide)
    (by decide) (by decide) fun _ => 0)

/-- `m0` with `,4` left behind it reads memory, and with nothing behind it is an error. -/
theorem stale_bytes_change_reply :
    ¬ ∀ (env : Env Unit) (s : Server Unit) (buf received : Nat → Byte) (pktLen : Nat) (p : Peer),
      dbgRecvPacket env.asserts buf pktBufLen s.peer = (.packet pktLen received, p) →
      ReadsOwnBytes env s := by
  intro h
  have haccept := recvPacket_frame true [] [char 'm', char '0'] [char '+'] (by decide)
    (show 2 ≤ pktBufLen by decide) (by decide) fun _ => 0
  have hown := h sampleEnv (sampleServer ([] ++ frame [char 'm', char '0'] ++ [char '+'])) _ _ _ _ haccept
  have hsame := (hown (put (fun _ => 0) 2 [char ',', char '4']) fun _ => 0).1
  have hreply := congrArg (fun o => (o.map fun e => e.1.peer.output).getD []) hsame
  exact absurd hreply (by decide)

end OpenXbox.Gdb.OwnBytes
