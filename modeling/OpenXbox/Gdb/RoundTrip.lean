import OpenXbox.Gdb.Packet

/-!
# What is sent is received, and what is encoded is decoded

Both encoders store a list made character by character, and each decoder reads such a list
back. The receiver finds the start after any characters that neither start a packet nor are
received as `EOF`.
-/

namespace OpenXbox.Gdb.RoundTrip

open OpenXbox.Lib.Buffer OpenXbox.Gdb.Transport OpenXbox.Gdb.Codec OpenXbox.Gdb.Packet

/-! ## Hexadecimal -/

/-- The two digits of a character. -/
def hexOf (c : Byte) : List Byte := [dbgGetDigit (nibble c 4), dbgGetDigit (nibble c 0)]

theorem getVal_digit : ∀ v, v < 16 → dbgGetVal (dbgGetDigit v) 16 = some v := by decide

theorem nibble_lt (c : Byte) (shift : Nat) : nibble c shift < 16 := by
  rw [nibble, BitVec.toNat_and]
  exact Nat.and_lt_two_pow _ (by decide : (0xf : Word).toNat < 2 ^ 4)

theorem nibbles_eq : ∀ c : Byte,
    BitVec.ofNat 8 (nibble c 4 <<< 4) ||| BitVec.ofNat 8 (nibble c 0) = c := by decide

theorem digit_ne_eof : ∀ v, v < 16 → dbgGetDigit v ≠ 0xFF := by decide

theorem hexOf_ne_eof {c d : Byte} (h : d ∈ hexOf c) : d ≠ 0xFF := by
  simp only [hexOf, List.mem_cons, List.not_mem_nil, or_false] at h
  obtain rfl | rfl := h
  · exact digit_ne_eof _ (nibble_lt c 4)
  · exact digit_ne_eof _ (nibble_lt c 0)

theorem length_flatMap_hexOf (cs : List Byte) : (cs.flatMap hexOf).length = cs.length * 2 := by
  induction cs with
  | nil => rfl
  | cons c cs ih =>
    rw [List.flatMap_cons, List.length_append, ih, List.length_cons]
    simp only [hexOf, List.length_cons, List.length_nil]
    omega

theorem encHexLoop_eq (data : Nat → Byte) (left pos : Nat) (buf : Nat → Byte) :
    encHexLoop data left pos buf = put buf (2 * pos) ((slice data pos left).flatMap hexOf) := by
  induction left generalizing pos buf with
  | zero => simp [encHexLoop]
  | succ left ih =>
    rw [encHexLoop, ih, slice_succ, List.flatMap_cons, put_append, hexOf, put_cons, put_cons, put_nil]
    rfl

theorem store_nibbles (out : Nat → Byte) (pos : Nat) (d : Byte) :
    let high := store out pos (BitVec.ofNat 8 (nibble d 4 <<< 4))
    store high pos (high pos ||| BitVec.ofNat 8 (nibble d 0)) = store out pos d := by
  funext i
  by_cases hi : i = pos
  · simp [store, hi, nibbles_eq]
  · simp [store, hi]

/-- Digits are read back. -/
theorem decHexLoop_hexOf (asserts : Bool) (buf : Nat → Byte) (ds : List Byte) (pos : Nat)
    (out : Nat → Byte) (h : slice buf (2 * pos) (ds.length * 2) = ds.flatMap hexOf) :
    decHexLoop asserts buf ds.length pos out = (.ok 0, put out pos ds) := by
  induction ds generalizing pos out with
  | nil => simp [decHexLoop]
  | cons d ds ih =>
    rw [List.length_cons, show (ds.length + 1) * 2 = ds.length * 2 + 1 + 1 by omega, slice_succ,
      slice_succ, List.flatMap_cons, hexOf,
      List.cons_append, List.cons_append, List.nil_append] at h
    injection h with hhigh h
    injection h with hlow hrest
    have hnext := ih (pos + 1) (store out pos d) hrest
    rw [List.length_cons, decHexLoop, hhigh, hlow, getVal_digit _ (nibble_lt d 4),
      getVal_digit _ (nibble_lt d 0), put_cons, ← hnext]
    dsimp only
    rw [store_nibbles]

section Hex

variable (asserts : Bool) (data : Nat → Byte) (len : Nat) (buf out : Nat → Byte) {bufLen : Nat}

theorem encHex_fits (h : len * 2 ≤ bufLen) :
    dbgEncHex buf bufLen data len = (.ok (len * 2), put buf 0 ((slice data 0 len).flatMap hexOf)) := by
  rw [dbgEncHex, if_neg (by omega), encHexLoop_eq]

/-- The encoder stays inside the buffer. -/
theorem encHex_inside {i : Nat} (hi : bufLen ≤ i) : (dbgEncHex buf bufLen data len).2 i = buf i := by
  by_cases h : bufLen < len * 2
  · rw [dbgEncHex, if_pos h]
  · rw [encHex_fits data len buf (Nat.le_of_not_lt h)]
    have hend : 0 + ((slice data 0 len).flatMap hexOf).length ≤ i := by
      rw [length_flatMap_hexOf, length_slice]
      omega
    exact put_of_ge hend

theorem decHex_encHex (h : len * 2 ≤ bufLen) :
    dbgDecHex asserts (dbgEncHex buf bufLen data len).2 (len * 2) out len =
      (.ok 0, put out 0 (slice data 0 len)) := by
  rw [encHex_fits data len buf h, dbgDecHex, if_neg (by omega)]
  have hlen : (slice data 0 len).length = len := length_slice
  have hdec := decHexLoop_hexOf asserts (put buf 0 ((slice data 0 len).flatMap hexOf))
    (slice data 0 len) 0 out (by rw [← length_flatMap_hexOf]; exact slice_put)
  rwa [hlen] at hdec

end Hex

/-! ## Binary -/

/-- A character, escaped where it has to be. -/
def binOf (c : Byte) : List Byte := if isEscaped c then [char '}', c ^^^ 0x20] else [c]

/-- The characters that must not stand in a packet by themselves. -/
def IsSpecial (c : Byte) : Prop := c = char '$' ∨ c = char '#' ∨ c = char '*'

instance (c : Byte) : Decidable (IsSpecial c) := inferInstanceAs (Decidable (_ ∨ _ ∨ _))

theorem escaped_not_special : ∀ c : Byte, isEscaped c → ¬ IsSpecial (c ^^^ 0x20) := by decide

theorem plain_not_special : ∀ c : Byte, isEscaped c = false → ¬ IsSpecial c := by decide

theorem binOf_not_special {c b : Byte} (h : b ∈ binOf c) : ¬ IsSpecial b := by
  rw [binOf] at h
  cases hesc : isEscaped c with
  | true =>
    rw [hesc, if_pos rfl, List.mem_cons, List.mem_singleton] at h
    obtain rfl | rfl := h
    · decide
    · exact escaped_not_special c hesc
  | false =>
    rw [hesc, if_neg Bool.false_ne_true, List.mem_singleton] at h
    rw [h]
    exact plain_not_special c hesc

theorem not_escaped_ne : ∀ c : Byte, isEscaped c = false → c ≠ char '}' := by decide

theorem length_flatMap_binOf (cs : List Byte) :
    (cs.flatMap binOf).length = cs.length + cs.countP isEscaped := by
  induction cs with
  | nil => rfl
  | cons c cs ih =>
    rw [List.flatMap_cons, List.length_append, ih, List.length_cons, List.countP_cons, binOf]
    cases isEscaped c with
    | true =>
      simp only [if_true, List.length_cons, List.length_nil]
      omega
    | false =>
      simp only [Bool.false_eq_true, if_false, List.length_cons, List.length_nil]
      omega

theorem encBinLoop_fits (asserts : Bool) (bufLen : Nat) (data : Nat → Byte)
    (left dataPos bufPos : Nat) (buf : Nat → Byte)
    (h : bufPos + ((slice data dataPos left).flatMap binOf).length ≤ bufLen) :
    encBinLoop asserts bufLen data left dataPos bufPos buf =
      (.ok (bufPos + ((slice data dataPos left).flatMap binOf).length),
        put buf bufPos ((slice data dataPos left).flatMap binOf)) := by
  induction left generalizing dataPos bufPos buf with
  | zero => simp [encBinLoop]
  | succ left ih =>
    rw [slice_succ, List.flatMap_cons, List.length_append] at h ⊢
    rw [encBinLoop, put_append, binOf] at *
    cases hesc : isEscaped (data dataPos) with
    | true =>
      simp only [hesc, if_true, List.length_cons, List.length_nil] at h ⊢
      rw [if_neg (by omega), ih _ _ _ (by omega), put_cons, put_cons, put_nil]
      congr 2
      omega
    | false =>
      simp only [hesc, Bool.false_eq_true, if_false, List.length_cons, List.length_nil] at h ⊢
      rw [if_neg (by omega), ih _ _ _ (by omega), put_cons, put_nil]
      congr 2
      omega

/-- The encoder stays inside the buffer, also when the data does not fit. -/
theorem encBinLoop_inside (asserts : Bool) {bufLen : Nat} (data : Nat → Byte)
    (left dataPos bufPos : Nat) (buf : Nat → Byte) {i : Nat} (hi : bufLen ≤ i) :
    (encBinLoop asserts bufLen data left dataPos bufPos buf).2 i = buf i := by
  induction left generalizing dataPos bufPos buf with
  | zero => rfl
  | succ left ih =>
    rw [encBinLoop]
    split
    · split
      · rfl
      · rw [ih, store, if_neg (by omega), store, if_neg (by omega)]
    · split
      · rfl
      · rw [ih, store, if_neg (by omega)]

/-- An encoded list is read back. -/
theorem decBinLoop_binOf (asserts : Bool) (buf : Nat → Byte) (dataLen : Nat) (ds : List Byte)
    (bufPos dataPos : Nat) (out : Nat → Byte) (hfit : dataPos + ds.length ≤ dataLen)
    (h : slice buf bufPos (ds.flatMap binOf).length = ds.flatMap binOf) :
    decBinLoop asserts buf dataLen (ds.flatMap binOf).length bufPos dataPos out =
      (.ok (dataPos + ds.length), put out dataPos ds) := by
  induction ds generalizing bufPos dataPos out with
  | nil => simp [decBinLoop]
  | cons d ds ih =>
    rw [List.length_cons] at hfit
    cases hesc : isEscaped d with
    | true =>
      have hlist : (d :: ds).flatMap binOf = char '}' :: (d ^^^ 0x20) :: ds.flatMap binOf := by
        rw [List.flatMap_cons, binOf, hesc]
        rfl
      rw [hlist, List.length_cons, List.length_cons, slice_succ, slice_succ] at h
      injection h with hmark h
      injection h with hchar hrest
      have hnext := ih (bufPos + 2) (dataPos + 1) (store out dataPos d) (by omega) hrest
      rw [hlist, List.length_cons, List.length_cons]
      unfold decBinLoop
      rw [if_neg (by omega), if_pos hmark]
      dsimp only
      rw [hchar, BitVec.xor_assoc, BitVec.xor_self, BitVec.xor_zero, hnext, put_cons, List.length_cons]
      congr 2
      omega
    | false =>
      have hlist : (d :: ds).flatMap binOf = d :: ds.flatMap binOf := by
        rw [List.flatMap_cons, binOf, hesc]
        rfl
      rw [hlist, List.length_cons, slice_succ] at h
      injection h with hchar hrest
      have hnext := ih (bufPos + 1) (dataPos + 1) (store out dataPos d) (by omega) hrest
      rw [hlist, List.length_cons]
      unfold decBinLoop
      rw [if_neg (by omega), hchar, if_neg (not_escaped_ne d hesc), hnext, put_cons, List.length_cons]
      congr 2
      omega

section Bin

variable (asserts : Bool) (data : Nat → Byte) (len : Nat) (buf out : Nat → Byte) {bufLen : Nat}

/-- The number of characters of the binary encoding. -/
def binLength (data : Nat → Byte) (len : Nat) : Nat := len + (slice data 0 len).countP isEscaped

theorem length_bin : ((slice data 0 len).flatMap binOf).length = binLength data len := by
  rw [length_flatMap_binOf, length_slice, binLength]

theorem encBin_fits (h : binLength data len ≤ bufLen) :
    dbgEncBin asserts buf bufLen data len =
      (.ok (binLength data len), put buf 0 ((slice data 0 len).flatMap binOf)) := by
  have henc := encBinLoop_fits asserts bufLen data len 0 0 buf (by rw [length_bin]; omega)
  rwa [length_bin, Nat.zero_add] at henc

theorem encBin_inside {i : Nat} (hi : bufLen ≤ i) :
    (dbgEncBin asserts buf bufLen data len).2 i = buf i :=
  encBinLoop_inside asserts data len 0 0 buf hi

theorem decBin_encBin (h : binLength data len ≤ bufLen) :
    dbgDecBin asserts (dbgEncBin asserts buf bufLen data len).2 (binLength data len) out len =
      (.ok len, put out 0 (slice data 0 len)) := by
  rw [encBin_fits asserts data len buf h, dbgDecBin, ← length_bin]
  have hlen : (slice data 0 len).length = len := length_slice
  have hdec := decBinLoop_binOf asserts (put buf 0 ((slice data 0 len).flatMap binOf)) len
    (slice data 0 len) 0 0 out (by rw [hlen]; omega) slice_put
  rwa [hlen, Nat.zero_add] at hdec

theorem encBin_not_special (h : binLength data len ≤ bufLen) {i : Nat} (hi : i < binLength data len) :
    ¬ IsSpecial ((dbgEncBin asserts buf bufLen data len).2 i) := by
  rw [encBin_fits asserts data len buf h]
  have hlt : i < ((slice data 0 len).flatMap binOf).length := by rwa [length_bin]
  have hget : put buf 0 ((slice data 0 len).flatMap binOf) (0 + i) = _ := put_getElem hlt
  rw [Nat.zero_add] at hget
  change ¬ IsSpecial (put buf 0 _ i)
  rw [hget]
  obtain ⟨c, -, hmem⟩ := List.mem_flatMap.mp (List.getElem_mem hlt)
  exact binOf_not_special hmem

end Bin

/-! ## Packets -/

theorem checksum_slice (buf : Nat → Byte) (len : Nat) :
    dbgChecksum buf len = (slice buf 0 len).foldr (· + ·) 0 := by
  induction len generalizing buf with
  | zero => rfl
  | succ len ih =>
    have hrest : slice (drop buf 1) 0 len = slice buf (0 + 1) len := by
      apply List.map_congr_left
      intro i _
      rw [drop, Nat.zero_add, Nat.zero_add]
    rw [dbgChecksum, ih, hrest, slice_succ]
    rfl

/-- Everything that is sent for a packet. -/
def frame (cs : List Byte) : List Byte :=
  char '$' :: (cs ++ char '#' :: hexOf (cs.foldr (· + ·) 0))

theorem trailer_slice (csum : Byte) : slice (trailer csum) 0 3 = char '#' :: hexOf csum := rfl

theorem sendPacket_output {p : Peer} (h : p.Accepting) (data : Nat → Byte) (len : Nat) :
    (dbgSendPacket data len p).2.output = p.output ++ frame (slice data 0 len) := by
  have hack (q : Peer) : (dbgRecvAck q).2.output = q.output := by
    unfold dbgRecvAck dbgSysGetc
    cases q.input with
    | nil => rfl
    | cons b rest =>
      dsimp only
      repeat' split
      all_goals rfl
  rw [dbgSendPacket, putchar_accepting h]
  dsimp only
  rw [write_accepting (p := { p with output := p.output ++ [char '$'] }) h]
  dsimp only
  rw [write_accepting (p := { p with output := p.output ++ [char '$'] ++ slice data 0 len }) h]
  dsimp only
  rw [hack, trailer_slice, checksum_slice, frame]
  simp only [List.append_assoc, List.cons_append, List.nil_append]

theorem awaitStart_junk {noise : List Byte} (h : ∀ b ∈ noise, b ≠ char '$' ∧ b ≠ 0xFF)
    (p : Peer) (rest : List Byte) :
    awaitStart p (noise ++ char '$' :: rest) = (true, { p with input := rest }) := by
  induction noise with
  | nil => rfl
  | cons b noise ih =>
    obtain ⟨hstart, heof⟩ := h b List.mem_cons_self
    rw [List.cons_append, awaitStart, if_neg hstart, if_neg (toInt_ne_eof heof)]
    exact ih fun c hc => h c (List.mem_cons_of_mem b hc)

theorem recvData_payload {bufLen : Nat} (p : Peer) (cs rest : List Byte) (pktLen : Nat)
    (buf : Nat → Byte) (hfit : pktLen + cs.length ≤ bufLen) (hcs : ∀ c ∈ cs, c ≠ 0xFF ∧ c ≠ char '#') :
    recvData bufLen p (cs ++ char '#' :: rest) pktLen buf =
      (true, { p with input := rest }, pktLen + cs.length, put buf pktLen cs) := by
  induction cs generalizing pktLen buf with
  | nil =>
    rw [List.nil_append, recvData, if_neg (by decide), if_pos rfl, put_nil]
    rfl
  | cons c cs ih =>
    rw [List.length_cons] at hfit
    obtain ⟨heof, hend⟩ := hcs c List.mem_cons_self
    rw [List.cons_append, recvData, if_neg (toInt_ne_eof heof), if_neg hend, if_neg (by omega),
      ih _ _ (by omega) fun d hd => hcs d (List.mem_cons_of_mem c hd), put_cons, List.length_cons]
    congr 3
    omega

theorem recvChecksum_hexOf (asserts : Bool) {p : Peer} {csum : Byte} {rest : List Byte}
    (h : p.input = hexOf csum ++ rest) :
    recvChecksum asserts p = (.ok 0, csum, { p with input := rest }) := by
  have hread : dbgRead 2 p = (some (hexOf csum), { p with input := rest }) :=
    read_input h fun c hc => hexOf_ne_eof hc
  have hdec := decHexLoop_hexOf asserts (fun i => (hexOf csum).getD i 0) [csum] 0
    (fun _ => 0) rfl
  rw [recvChecksum, hread]
  dsimp only
  rw [dbgDecHex, if_neg (by decide)]
  rw [List.length_singleton] at hdec
  rw [hdec]
  rfl

/-- A packet is received as it was sent, and acknowledged. -/
theorem recvPacket_frame (asserts : Bool) (noise cs rest : List Byte) {bufLen : Nat}
    (hnoise : ∀ b ∈ noise, b ≠ char '$' ∧ b ≠ 0xFF) (hfit : cs.length ≤ bufLen)
    (hcs : ∀ c ∈ cs, c ≠ 0xFF ∧ c ≠ char '#') (buf : Nat → Byte) :
    dbgRecvPacket asserts buf bufLen (.open (noise ++ frame cs ++ rest)) =
      (.packet cs.length (put buf 0 cs), { Peer.open rest with output := [char '+'] }) := by
  have hsplit : noise ++ frame cs ++ rest =
      noise ++ char '$' :: (cs ++ char '#' :: (hexOf (cs.foldr (· + ·) 0) ++ rest)) := by
    simp [frame]
  have hsum : dbgChecksum (put buf 0 cs) cs.length = cs.foldr (· + ·) 0 := by
    rw [checksum_slice, slice_put]
  rw [hsplit, dbgRecvPacket]
  dsimp only [Peer.open]
  rw [awaitStart_junk hnoise]
  dsimp only
  rw [recvData_payload _ cs _ 0 buf (by omega) hcs]
  dsimp only
  rw [recvChecksum_hexOf asserts rfl]
  dsimp only
  rw [Nat.zero_add, hsum, if_neg (not_not.mpr rfl), putchar_accepting fun _ => rfl]
  rfl

/-- Framing and both codecs read back what they write. -/
theorem framing_and_codecs_round_trip (asserts : Bool) (data : Nat → Byte) (len : Nat) :
    (∀ (ack noise rest : List Byte) (buf : Nat → Byte), len ≤ 256 →
      (∀ i, i < len → (data i).toNat < 0x80 ∧ data i ≠ char '#') →
      (∀ b ∈ noise, b ≠ char '$' ∧ b ≠ 0xFF) →
      dbgRecvPacket asserts buf 256
          (.open (noise ++ (dbgSendPacket data len (.open ack)).2.output ++ rest)) =
        (.packet len (put buf 0 (slice data 0 len)), { Peer.open rest with output := [char '+'] })) ∧
    (∀ (buf out : Nat → Byte) (bufLen : Nat),
      (∀ i, bufLen ≤ i → (dbgEncHex buf bufLen data len).2 i = buf i) ∧
      (len * 2 ≤ bufLen → (dbgEncHex buf bufLen data len).1 = .ok (len * 2) ∧
        dbgDecHex asserts (dbgEncHex buf bufLen data len).2 (len * 2) out len =
          (.ok 0, put out 0 (slice data 0 len)))) ∧
    (∀ (buf out : Nat → Byte) (bufLen : Nat),
      (∀ i, bufLen ≤ i → (dbgEncBin asserts buf bufLen data len).2 i = buf i) ∧
      (binLength data len ≤ bufLen →
        (dbgEncBin asserts buf bufLen data len).1 = .ok (binLength data len) ∧
        dbgDecBin asserts (dbgEncBin asserts buf bufLen data len).2 (binLength data len) out len =
          (.ok len, put out 0 (slice data 0 len)) ∧
        ∀ i, i < binLength data len → ¬ IsSpecial ((dbgEncBin asserts buf bufLen data len).2 i))) := by
  refine ⟨fun ack noise rest buf hlen hdata hnoise => ?_, fun buf out bufLen => ⟨?_, ?_⟩,
    fun buf out bufLen => ⟨?_, ?_⟩⟩
  · have hcs : ∀ c ∈ slice data 0 len, c ≠ 0xFF ∧ c ≠ char '#' := by
      intro c hc
      obtain ⟨i, hi, rfl⟩ := List.mem_map.mp hc
      rw [Nat.zero_add]
      obtain ⟨hseven, hend⟩ := hdata i (List.mem_range.mp hi)
      refine ⟨fun heq => ?_, hend⟩
      rw [heq] at hseven
      exact absurd hseven (by decide)
    rw [sendPacket_output (p := .open ack) fun _ => rfl]
    have hfit : (slice data 0 len).length ≤ 256 := by rwa [length_slice]
    have hrecv := recvPacket_frame asserts noise (slice data 0 len) rest hnoise hfit hcs buf
    rwa [length_slice] at hrecv
  · exact fun i hi => encHex_inside data len buf hi
  · intro hfit
    exact ⟨by rw [encHex_fits data len buf hfit], decHex_encHex asserts data len buf out hfit⟩
  · exact fun i hi => encBin_inside asserts data len buf hi
  · intro hfit
    refine ⟨by rw [encBin_fits asserts data len buf hfit],
      decBin_encBin asserts data len buf out hfit, fun i hi => ?_⟩
    exact encBin_not_special asserts data len buf hfit hi

theorem ok_packet_round_trips :
    dbgRecvPacket true (fun _ => 0) 256
        (.open ([char '+'] ++ (dbgSendPacket okText 2 (.open [])).2.output ++ [])) =
      (.packet 2 (put (fun _ => 0) 0 (slice okText 0 2)), { Peer.open [] with output := [char '+'] }) :=
  (framing_and_codecs_round_trip true okText 2).1 [] [char '+'] [] (fun _ => 0) (by decide) (by decide)
    (by decide)

/-- A character that is received as `EOF` ends the wait for the start. -/
theorem noise_received_as_eof :
    ¬ ∀ (data : Nat → Byte) (len : Nat) (ack noise rest : List Byte) (buf : Nat → Byte), len ≤ 256 →
      (∀ i, i < len → (data i).toNat < 0x80 ∧ data i ≠ char '#') → (∀ b ∈ noise, b ≠ char '$') →
      dbgRecvPacket true buf 256
          (.open (noise ++ (dbgSendPacket data len (.open ack)).2.output ++ rest)) =
        (.packet len (put buf 0 (slice data 0 len)), { Peer.open rest with output := [char '+'] }) := by
  intro h
  have hrecv := h okText 2 [] [0xFF] [] (fun _ => 0) (by decide) (by decide) (by decide)
  exact Received.noConfusion (congrArg Prod.fst hrecv)

end OpenXbox.Gdb.RoundTrip
