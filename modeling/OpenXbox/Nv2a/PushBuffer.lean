import OpenXbox.Nv2a.Pusher

/-!
# Push-buffer programs

A program is the list of the commands met on the way from GET to PUT. `Runs`
says how such a list is laid out in the memory that `fetch` reads; `entries` is
what it puts into the command cache. The pusher runs every program to its end
and appends exactly its entries.
-/

namespace OpenXbox.Nv2a.PushBuffer

open OpenXbox.Lib.Loop OpenXbox.Lib.Bits OpenXbox.Nv2a.Memory OpenXbox.Nv2a.Pusher

/-- A command; addresses are given without the two low bits, which are zero. -/
inductive Command where
  | methods (nonincreasing : Bool) (method : BitVec 11) (subchannel : BitVec 3) (data : List Word)
  | oldJump (target : BitVec 27)
  | jump (target : BitVec 30)
  | call (target : BitVec 30)
  | ret

/-- The first word of a methods command with `count` data words. -/
def header (nonincreasing : Bool) (method : BitVec 11) (subchannel : BitVec 3)
    (count : BitVec 11) : Word :=
  (if nonincreasing then 0b010#3 else 0b000#3) ++ count ++ 0#2 ++ subchannel ++ method ++ 0#2

def oldJumpWord (target : BitVec 27) : Word := 0b001#3 ++ target ++ 0#2
def jumpWord (target : BitVec 30) : Word := target ++ 0b01#2
def callWord (target : BitVec 30) : Word := target ++ 0b10#2
def retWord : Word := 0x00020000

/-- The entries for the data words of one command, in order. -/
def dataEntries (nonincreasing : Bool) (method : BitVec 14) (subchannel : BitVec 3)
    (data : List Word) : List CacheEntry :=
  data.mapIdx fun i word =>
    ⟨if nonincreasing then method else method + BitVec.ofNat 14 (4 * i), subchannel,
      nonincreasing, word⟩

def Command.entries : Command → List CacheEntry
  | .methods nonincreasing method subchannel data =>
    dataEntries nonincreasing ((method ++ 0#2).setWidth 14) subchannel data
  | _ => []

/-- The words lie one after the other from `get` on, below the limit and before `put`. -/
def WordsAt (fetch : Word → Word) (len put : Word) : Word → List Word → Prop
  | _, [] => True
  | get, w :: ws => get ≠ put ∧ get < len ∧ fetch get = w ∧ WordsAt fetch len put (get + 4) ws

/-- The position after some words. -/
def after : Word → List Word → Word
  | get, [] => get
  | get, _ :: ws => after (get + 4) ws

/-- Control runs from `get` to `put` through the commands, with the return address
of the subroutine it is in. The last command can be cut off by `put`. -/
inductive Runs (fetch : Word → Word) (len put : Word) :
    Word → Option Word → List Command → Prop where
  | done {ret} : Runs fetch len put put ret []
  | methods {get ret nonincreasing method subchannel count data cs}
      (words : WordsAt fetch len put get (header nonincreasing method subchannel count :: data))
      (full : data.length = count.toNat)
      (rest : Runs fetch len put (after (get + 4) data) ret cs) :
      Runs fetch len put get ret (.methods nonincreasing method subchannel data :: cs)
  | cut {get ret nonincreasing method subchannel count data}
      (words : WordsAt fetch len put get (header nonincreasing method subchannel count :: data))
      (short : data.length ≤ count.toNat) (reached : after (get + 4) data = put) :
      Runs fetch len put get ret [.methods nonincreasing method subchannel data]
  | oldJump {get ret target cs} (words : WordsAt fetch len put get [oldJumpWord target])
      (rest : Runs fetch len put (0#3 ++ target ++ 0#2) ret cs) :
      Runs fetch len put get ret (.oldJump target :: cs)
  | jump {get ret target cs} (words : WordsAt fetch len put get [jumpWord target])
      (rest : Runs fetch len put (target ++ 0#2) ret cs) :
      Runs fetch len put get ret (.jump target :: cs)
  | call {get target cs} (words : WordsAt fetch len put get [callWord target])
      (rest : Runs fetch len put (target ++ 0#2) (some (get + 4)) cs) :
      Runs fetch len put get none (.call target :: cs)
  | ret {get back cs} (words : WordsAt fetch len put get [retWord])
      (rest : Runs fetch len put back none cs) :
      Runs fetch len put get (some back) (.ret :: cs)

/-! ## Decoding -/

/-- A mask laid out like the header keeps the parts it covers. -/
theorem header_and (n : Bool) (m : BitVec 11) (s : BitVec 3) (c : BitVec 11) (k : BitVec 3)
    (p l : BitVec 2) :
    header n m s c &&& (k ++ 0#11 ++ p ++ 0#3 ++ 0#11 ++ l) =
      ((if n then 0b010#3 else 0b000#3) &&& k) ++ 0#11 ++ 0#2 ++ 0#3 ++ 0#11 ++ 0#2 := by
  unfold header
  refine (BitVec.and_append (w := 30) (v := 2)).trans ?_
  rw [BitVec.zero_and]
  refine congrArg (· ++ 0#2) ?_
  refine (BitVec.and_append (w := 19) (v := 11)).trans ?_
  rw [BitVec.and_zero]
  refine congrArg (· ++ 0#11) ?_
  refine (BitVec.and_append (w := 16) (v := 3)).trans ?_
  rw [BitVec.and_zero]
  refine congrArg (· ++ 0#3) ?_
  refine (BitVec.and_append (w := 14) (v := 2)).trans ?_
  rw [BitVec.zero_and]
  refine congrArg (· ++ 0#2) ?_
  refine (BitVec.and_append (w := 3) (v := 11)).trans ?_
  rw [BitVec.and_zero]

theorem header_low (n : Bool) (m : BitVec 11) (s : BitVec 3) (c : BitVec 11) :
    header n m s c &&& 3 = 0 := by
  have h := header_and n m s c 0#3 0#2 3#2
  cases n <;> exact h

theorem header_kind (n : Bool) (m : BitVec 11) (s : BitVec 3) (c : BitVec 11) :
    header n m s c &&& 0xe0030003 = if n then 0x40000000 else 0 := by
  have h := header_and n m s c 7#3 3#2 3#2
  cases n <;> exact h

theorem header_jump (n : Bool) (m : BitVec 11) (s : BitVec 3) (c : BitVec 11) :
    header n m s c &&& 0xe0000003 = if n then 0x40000000 else 0 := by
  have h := header_and n m s c 7#3 0#2 3#2
  cases n <;> exact h

theorem getLsbD_header (n : Bool) (m : BitVec 11) (s : BitVec 3) (c : BitVec 11) (i : Nat) :
    (header n m s c).getLsbD i =
      if i < 2 then false
      else if i < 13 then m.getLsbD (i - 2)
      else if i < 16 then s.getLsbD (i - 13)
      else if i < 18 then false
      else if i < 29 then c.getLsbD (i - 18)
      else (if n then 0b010#3 else 0b000#3 : BitVec 3).getLsbD (i - 29) := by
  rw [header, BitVec.getLsbD_append, BitVec.getLsbD_append, BitVec.getLsbD_append,
    BitVec.getLsbD_append, BitVec.getLsbD_append]
  by_cases h2 : i < 2
  · simp [h2]
  rw [if_neg h2, if_neg h2]
  by_cases h13 : i < 13
  · rw [if_pos h13, if_pos (show i - 2 < 11 by omega)]
  rw [if_neg h13, if_neg (show ¬ i - 2 < 11 by omega)]
  by_cases h16 : i < 16
  · rw [if_pos h16, if_pos (show i - 2 - 11 < 3 by omega), show i - 2 - 11 = i - 13 by omega]
  rw [if_neg h16, if_neg (show ¬ i - 2 - 11 < 3 by omega)]
  by_cases h18 : i < 18
  · rw [if_pos h18, if_pos (show i - 2 - 11 - 3 < 2 by omega)]
    exact BitVec.getLsbD_zero
  rw [if_neg h18, if_neg (show ¬ i - 2 - 11 - 3 < 2 by omega)]
  by_cases h29 : i < 29
  · rw [if_pos h29, if_pos (show i - 2 - 11 - 3 - 2 < 11 by omega),
      show i - 2 - 11 - 3 - 2 = i - 18 by omega]
  rw [if_neg h29, if_neg (show ¬ i - 2 - 11 - 3 - 2 < 11 by omega),
    show i - 2 - 11 - 3 - 2 - 11 = i - 29 by omega]

theorem header_method (n : Bool) (m : BitVec 11) (s : BitVec 3) (c : BitVec 11) :
    (header n m s c &&& 0x1fff).setWidth 14 = (m ++ 0#2).setWidth 14 := by
  apply BitVec.eq_of_getLsbD_eq
  intro i hi
  rw [BitVec.getLsbD_setWidth, BitVec.getLsbD_setWidth, BitVec.getLsbD_and, getLsbD_header,
    show (0x1fff : Word) = lowMask 13 from rfl, getLsbD_lowMask (show i < 32 by omega),
    BitVec.getLsbD_append]
  by_cases h2 : i < 2
  · simp [h2]
  by_cases h13 : i < 13
  · simp [h2, h13, hi]
  · simp [h2, h13, BitVec.getLsbD_of_ge m (i - 2) (by omega)]

theorem header_subchannel (n : Bool) (m : BitVec 11) (s : BitVec 3) (c : BitVec 11) :
    ((header n m s c >>> 13) &&& 7).setWidth 3 = s := by
  apply BitVec.eq_of_getLsbD_eq
  intro i hi
  rw [BitVec.getLsbD_setWidth, BitVec.getLsbD_and, BitVec.getLsbD_ushiftRight, getLsbD_header,
    show (7 : Word) = lowMask 3 from rfl, getLsbD_lowMask (show i < 32 by omega)]
  simp [hi, show ¬ 13 + i < 2 by omega, show 13 + i < 16 by omega]

theorem header_count (n : Bool) (m : BitVec 11) (s : BitVec 3) (c : BitVec 11) :
    ((header n m s c >>> 18) &&& 0x7ff).setWidth 24 = c.setWidth 24 := by
  apply BitVec.eq_of_getLsbD_eq
  intro i hi
  rw [BitVec.getLsbD_setWidth, BitVec.getLsbD_setWidth, BitVec.getLsbD_and,
    BitVec.getLsbD_ushiftRight, getLsbD_header, show (0x7ff : Word) = lowMask 11 from rfl,
    getLsbD_lowMask (show i < 32 by omega)]
  by_cases h11 : i < 11
  · simp [h11, show ¬ 18 + i < 2 by omega, show ¬ 18 + i < 13 by omega,
      show ¬ 18 + i < 16 by omega, show ¬ 18 + i < 18 by omega, show 18 + i < 29 by omega]
  · simp [h11, BitVec.getLsbD_of_ge c i (by omega)]

/-- A word that ends in a nonzero tag is not an old jump. -/
theorem not_oldJump_of_low {w : Word} (h : w &&& 3 ≠ 0) : w &&& 0xe0000003 ≠ 0x20000000 := by
  intro he
  apply h
  have h3 : (w &&& 0xe0000003) &&& 3 = w &&& 3 := BitVec.and_assoc w 0xe0000003 3
  rw [← h3, he]
  rfl

theorem tagged_low (target : BitVec 30) (tag : BitVec 2) :
    (target ++ tag : Word) &&& 3 = 0#30 ++ tag := by
  have h : (target ++ tag : Word) &&& (0#30 ++ 3#2) = (target &&& 0#30) ++ (tag &&& 3#2) :=
    BitVec.and_append (w := 30) (v := 2)
  rw [BitVec.and_zero, show tag &&& 3#2 = tag from BitVec.and_allOnes] at h
  exact h

theorem tagged_target (target : BitVec 30) (tag : BitVec 2) :
    (target ++ tag : Word) &&& 0xfffffffc = target ++ 0#2 := by
  have h : (target ++ tag : Word) &&& (BitVec.allOnes 30 ++ 0#2) =
      (target &&& BitVec.allOnes 30) ++ (tag &&& 0#2) := BitVec.and_append (w := 30) (v := 2)
  rw [BitVec.and_zero, BitVec.and_allOnes] at h
  exact h

theorem oldJumpWord_form (target : BitVec 27) : oldJumpWord target &&& 0xe0000003 = 0x20000000 := by
  have h : oldJumpWord target &&& (7#3 ++ 0#27 ++ 3#2) = 0b001#3 ++ 0#27 ++ 0#2 := by
    refine (BitVec.and_append (w := 30) (v := 2)).trans ?_
    rw [BitVec.zero_and]
    refine congrArg (· ++ 0#2) ((BitVec.and_append (w := 3) (v := 27)).trans ?_)
    rw [BitVec.and_zero]
    rfl
  exact h

theorem oldJumpWord_target (target : BitVec 27) :
    oldJumpWord target &&& 0x1fffffff = 0#3 ++ target ++ 0#2 := by
  have h : oldJumpWord target &&& (0#3 ++ BitVec.allOnes 27 ++ 3#2) = 0#3 ++ target ++ 0#2 := by
    refine (BitVec.and_append (w := 30) (v := 2)).trans ?_
    rw [BitVec.zero_and]
    refine congrArg (· ++ 0#2) ((BitVec.and_append (w := 3) (v := 27)).trans ?_)
    rw [BitVec.and_zero, BitVec.and_allOnes]
  exact h

/-! ## One command -/

variable {vram : Nat → Byte} {dma : Nat} {len put : Word}

/-- The word of the push buffer at a position. -/
def fetchAt (vram : Nat → Byte) (dma : Nat) (get : Word) : Word := ldlLeP vram (dma + get.toNat)

/-- The pusher after fetching a word. -/
def PusherState.advance (p : PusherState) (dma : Nat) : PusherState :=
  { p with
    control.dmaGet := p.control.dmaGet + 4
    fetched := p.fetched ++ [dma + p.control.dmaGet.toNat] }

/-- The pusher is at `get` on its way to `put`, without an error, in a subroutine
that returns to `ret` if in one. -/
structure At (put get : Word) (ret : Option Word) (p : PusherState) : Prop where
  get_eq : p.control.dmaGet = get
  put_eq : p.control.dmaPut = put
  error_eq : p.state.error = ERROR_NONE
  active_eq : p.state.subroutineActive = ret.isSome
  return_eq : ∀ r, ret = some r → p.state.subroutineReturn = r

theorem body_of_words {get w : Word} {ws : List Word} {ret : Option Word} {p : PusherState}
    (hp : At put get ret p) (hw : WordsAt (fetchAt vram dma) len put get (w :: ws)) :
    pusherBody vram dma len p =
      if p.state.methodCount ≠ 0 then .next (pushData w (PusherState.advance p dma))
      else startCommand w (PusherState.advance p dma) := by
  obtain ⟨hput, hlen, hf, -⟩ := hw
  subst hf
  rw [pusherBody, hp.get_eq, hp.put_eq, if_neg hput, if_neg (BitVec.not_le.mpr hlen)]
  simp only [fetchAt, PusherState.advance, hp.get_eq]

theorem At.pushData {get w : Word} {ret : Option Word} {p : PusherState} (hp : At put get ret p) :
    At put (get + 4) ret (pushData w (PusherState.advance p dma)) :=
  ⟨congrArg (· + 4) hp.get_eq, hp.put_eq, hp.error_eq, hp.active_eq, hp.return_eq⟩

theorem dataEntries_cons (n : Bool) (method : BitVec 14) (subchannel : BitVec 3) (w : Word)
    (ws : List Word) : dataEntries n method subchannel (w :: ws) =
      ⟨method, subchannel, n, w⟩ ::
        dataEntries n (if n then method else method + 4) subchannel ws := by
  rw [dataEntries, List.mapIdx_cons]
  refine congrArg₂ List.cons ?_ ?_
  · cases n <;> simp
  · rw [dataEntries]
    refine congrArg (fun f => List.mapIdx f ws) (funext fun i => funext fun word => ?_)
    cases n with
    | true => rfl
    | false =>
      have h : BitVec.ofNat 14 (4 * (i + 1)) = 4 + BitVec.ofNat 14 (4 * i) := by
        rw [Nat.mul_add, Nat.add_comm, BitVec.ofNat_add]
        rfl
      simp only [Bool.false_eq_true, if_false, h, BitVec.add_assoc]

/-- The data words of the command in progress are queued one by one. -/
theorem steps_data {get : Word} {ret : Option Word} {data : List Word} {p : PusherState}
    (hp : At put get ret p) (hw : WordsAt (fetchAt vram dma) len put get data)
    (hc : data.length ≤ p.state.methodCount.toNat) :
    ∃ q, Steps (pusherBody vram dma len) p q ∧ At put (after get data) ret q ∧
      q.state.cache = p.state.cache ++
        dataEntries p.state.methodNonincreasing p.state.method p.state.subchannel data ∧
      q.state.methodCount.toNat = p.state.methodCount.toNat - data.length := by
  induction data generalizing get p with
  | nil => exact ⟨p, .refl, hp, (List.append_nil _).symm, rfl⟩
  | cons w ws ih =>
    have hne : p.state.methodCount ≠ 0 := by
      intro h0
      rw [h0] at hc
      exact absurd hc (by simp)
    have hbody := body_of_words hp hw
    rw [if_pos hne] at hbody
    have hcount : (pushData w (PusherState.advance p dma)).state.methodCount.toNat =
        p.state.methodCount.toNat - 1 := by
      have h1 : (1 : BitVec 24) ≤ p.state.methodCount := by
        rw [BitVec.le_def]
        rw [List.length_cons] at hc
        exact (show 1 ≤ p.state.methodCount.toNat by omega)
      exact BitVec.toNat_sub_of_le h1
    rw [List.length_cons] at hc
    obtain ⟨q, hs, hq, hcache, hcnt⟩ := ih (p := pushData w (PusherState.advance p dma))
      hp.pushData hw.2.2.2 (by rw [hcount]; omega)
    refine ⟨q, .head hbody hs, hq, ?_, ?_⟩
    · rw [hcache, dataEntries_cons]
      exact List.append_assoc _ _ _
    · rw [hcnt, hcount, List.length_cons]
      omega

theorem startCommand_header (n : Bool) (m : BitVec 11) (s : BitVec 3) (c : BitVec 11)
    (p : PusherState) : startCommand (header n m s c) p =
      .next (startMethods (header n m s c) n
        { p with state.rsvdShadow := header n m s c }) := by
  have hret : header n m s c ≠ 0x00020000 := by
    intro h
    have hk := header_kind n m s c
    rw [h] at hk
    cases n <;> exact absurd hk (by decide)
  have hj : header n m s c &&& 0xe0000003 ≠ 0x20000000 := by
    rw [header_jump]
    cases n <;> decide
  have hlow := header_low n m s c
  have h1 : ¬ header n m s c &&& 3 = 1 := by rw [hlow]; decide
  have h2 : ¬ header n m s c &&& 3 = 2 := by rw [hlow]; decide
  have hk := header_kind n m s c
  unfold startCommand
  rw [if_neg hj, if_neg h1, if_neg h2, if_neg hret, hk]
  cases n with
  | true =>
    rw [if_neg (by decide), if_pos (by decide)]
  | false => rw [if_pos (by decide)]

theorem startCommand_oldJump (target : BitVec 27) (p : PusherState) :
    startCommand (oldJumpWord target) p = .next { p with
      state.rsvdShadow := oldJumpWord target
      state.getJmpShadow := p.control.dmaGet
      control.dmaGet := 0#3 ++ target ++ 0#2 } := by
  rw [← oldJumpWord_target]
  exact if_pos (oldJumpWord_form target)

theorem startCommand_jump (target : BitVec 30) (p : PusherState) :
    startCommand (jumpWord target) p = .next { p with
      state.rsvdShadow := jumpWord target
      state.getJmpShadow := p.control.dmaGet
      control.dmaGet := target ++ 0#2 } := by
  have hlow : jumpWord target &&& 3 = 1 := tagged_low target 0b01#2
  have hj : jumpWord target &&& 0xe0000003 ≠ 0x20000000 :=
    not_oldJump_of_low (by rw [hlow]; decide)
  rw [← tagged_target target 0b01#2]
  unfold startCommand
  rw [if_neg hj, if_pos hlow]
  rfl

theorem startCommand_call (target : BitVec 30) {p : PusherState}
    (ha : p.state.subroutineActive = false) :
    startCommand (callWord target) p = .next { p with
      state.rsvdShadow := callWord target
      state.subroutineReturn := p.control.dmaGet
      state.subroutineActive := true
      control.dmaGet := target ++ 0#2 } := by
  have hlow : callWord target &&& 3 = 2 := tagged_low target 0b10#2
  have hj : callWord target &&& 0xe0000003 ≠ 0x20000000 :=
    not_oldJump_of_low (by rw [hlow]; decide)
  rw [← tagged_target target 0b10#2]
  unfold startCommand
  rw [if_neg hj, if_neg (by rw [hlow]; decide), if_pos hlow]
  exact if_neg (by rw [ha]; decide)

theorem startCommand_ret {p : PusherState} (ha : p.state.subroutineActive = true) :
    startCommand retWord p = .next { p with
      state.rsvdShadow := retWord
      state.subroutineActive := false
      control.dmaGet := p.state.subroutineReturn } := by
  unfold startCommand
  rw [if_neg (by decide), if_neg (by decide), if_neg (by decide),
    if_pos (show retWord = 0x00020000 from rfl)]
  exact if_neg (by rw [ha]; decide)

/-! ## Whole programs -/

/-- The pusher ends at `put` with the entries appended and no error. -/
def Finishes (vram : Nat → Byte) (dma : Nat) (len put : Word) (entries : List CacheEntry)
    (p : PusherState) : Prop :=
  ∃ t, Ends (pusherBody vram dma len) p t ∧ t.control.dmaGet = put ∧ t.control.dmaPut = put ∧
    t.state.error = ERROR_NONE ∧ t.state.cache = p.state.cache ++ entries

theorem finishes_of_at_put {ret : Option Word} {p : PusherState} (hp : At put put ret p) :
    Finishes vram dma len put [] p := by
  have hexit : pusherBody vram dma len p = .exit p :=
    if_pos (hp.get_eq.trans hp.put_eq.symm)
  exact ⟨p, .of_exit hexit, hp.get_eq, hp.put_eq, hp.error_eq, (List.append_nil _).symm⟩

theorem Finishes.of_steps {p q : PusherState} {before after : List CacheEntry}
    (hs : Steps (pusherBody vram dma len) p q) (hc : q.state.cache = p.state.cache ++ before)
    (hq : Finishes vram dma len put after q) : Finishes vram dma len put (before ++ after) p := by
  obtain ⟨t, ht, hget, hput, herr, hcache⟩ := hq
  refine ⟨t, .of_steps hs ht, hget, hput, herr, ?_⟩
  rw [hcache, hc, List.append_assoc]

/-- A methods command, from its first word to the last of its data words. -/
theorem steps_methods {get : Word} {ret : Option Word} {n : Bool} {m : BitVec 11} {s : BitVec 3}
    {c : BitVec 11} {data : List Word} {p : PusherState} (hp : At put get ret p)
    (hw : WordsAt (fetchAt vram dma) len put get (header n m s c :: data))
    (hz : p.state.methodCount = 0) (hc : data.length ≤ c.toNat) :
    ∃ q, Steps (pusherBody vram dma len) p q ∧ At put (after (get + 4) data) ret q ∧
      q.state.cache = p.state.cache ++ (Command.methods n m s data).entries ∧
      q.state.methodCount.toNat = c.toNat - data.length := by
  have hbody := body_of_words hp hw
  rw [if_neg (not_not.mpr hz), startCommand_header] at hbody
  have hcount : ((header n m s c >>> 18) &&& 0x7ff).setWidth 24 = c.setWidth 24 :=
    header_count n m s c
  have hcnat : (c.setWidth 24).toNat = c.toNat := by
    rw [BitVec.toNat_setWidth]
    exact Nat.mod_eq_of_lt (c.isLt.trans (by decide))
  have hat : At put (get + 4) ret (startMethods (header n m s c) n
      { PusherState.advance p dma with state.rsvdShadow := header n m s c }) :=
    ⟨congrArg (· + 4) hp.get_eq, hp.put_eq, hp.error_eq, hp.active_eq, hp.return_eq⟩
  obtain ⟨q, hs, hq, hcache, hcnt⟩ := steps_data hat hw.2.2.2 (by
    show data.length ≤ (((header n m s c >>> 18) &&& 0x7ff).setWidth 24).toNat
    rw [hcount, hcnat]
    exact hc)
  refine ⟨q, .head hbody hs, hq, ?_, ?_⟩
  · rw [hcache]
    simp only [startMethods, PusherState.advance, header_method, header_subchannel,
      Command.entries]
  · rw [hcnt]
    simp only [startMethods, hcount, hcnat]

/-- A jump, call or return moves the pusher and queues nothing. -/
theorem Finishes.of_control {get : Word} {ret : Option Word} {w : Word} {p q : PusherState}
    {entries : List CacheEntry} (hp : At put get ret p) (hz : p.state.methodCount = 0)
    (hw : WordsAt (fetchAt vram dma) len put get [w])
    (hs : startCommand w (PusherState.advance p dma) = .next q)
    (hc : q.state.cache = p.state.cache) (hq : Finishes vram dma len put entries q) :
    Finishes vram dma len put entries p := by
  have hbody := body_of_words hp hw
  rw [if_neg (not_not.mpr hz), hs] at hbody
  have hnone : q.state.cache = p.state.cache ++ [] := hc.trans (List.append_nil _).symm
  exact Finishes.of_steps (.one hbody) hnone hq

theorem finishes_of_runs {get : Word} {ret : Option Word} {cs : List Command}
    (hr : Runs (fetchAt vram dma) len put get ret cs) {p : PusherState} (hp : At put get ret p)
    (hz : p.state.methodCount = 0) :
    Finishes vram dma len put (cs.flatMap Command.entries) p := by
  induction hr generalizing p with
  | done => exact finishes_of_at_put hp
  | methods words full rest ih =>
    obtain ⟨q, hs, hq, hcache, hcnt⟩ := steps_methods hp words hz full.le
    rw [full, Nat.sub_self] at hcnt
    exact Finishes.of_steps hs hcache (ih hq (BitVec.eq_of_toNat_eq hcnt))
  | cut words short reached =>
    obtain ⟨q, hs, hq, hcache, -⟩ := steps_methods hp words hz short
    rw [reached] at hq
    exact Finishes.of_steps hs hcache (finishes_of_at_put hq)
  | oldJump words rest ih =>
    exact .of_control hp hz words (startCommand_oldJump _ _) rfl
      (ih ⟨rfl, hp.put_eq, hp.error_eq, hp.active_eq, hp.return_eq⟩ hz)
  | jump words rest ih =>
    exact .of_control hp hz words (startCommand_jump _ _) rfl
      (ih ⟨rfl, hp.put_eq, hp.error_eq, hp.active_eq, hp.return_eq⟩ hz)
  | call words rest ih =>
    refine .of_control hp hz words (startCommand_call _ hp.active_eq) rfl
      (ih ⟨rfl, hp.put_eq, hp.error_eq, rfl, fun r hr => ?_⟩ hz)
    rw [← Option.some.inj hr, ← hp.get_eq]
    rfl
  | ret words rest ih =>
    exact .of_control hp hz words (startCommand_ret hp.active_eq) rfl
      (ih ⟨hp.return_eq _ rfl, hp.put_eq, hp.error_eq, rfl, nofun⟩ hz)

/-- What lies ahead of the pusher: data words of the command in progress and then,
if these complete it before `put`, a program. -/
structure Program where
  data : List Word
  commands : List Command

/-- The entries a program puts into the cache when it is run from `p`. -/
def Program.entries (prog : Program) (p : PusherState) : List CacheEntry :=
  dataEntries p.state.methodNonincreasing p.state.method p.state.subchannel prog.data ++
    prog.commands.flatMap Command.entries

/-- The address the pusher returns to, if it is in a subroutine. -/
def returnAddress (p : PusherState) : Option Word :=
  if p.state.subroutineActive then some p.state.subroutineReturn else none

/-- The program is laid out from GET to PUT. -/
def Program.LaidOut (fetch : Word → Word) (len : Word) (p : PusherState) (prog : Program) : Prop :=
  let get := p.control.dmaGet
  let put := p.control.dmaPut
  let count := p.state.methodCount.toNat
  WordsAt fetch len put get prog.data ∧
    (prog.data.length = count ∧
        Runs fetch len put (after get prog.data) (returnAddress p) prog.commands ∨
      prog.data.length ≤ count ∧ after get prog.data = put ∧ prog.commands = [])

theorem at_returnAddress {p : PusherState} (he : p.state.error = ERROR_NONE) :
    At p.control.dmaPut p.control.dmaGet (returnAddress p) p := by
  refine ⟨rfl, rfl, he, ?_, ?_⟩
  · rw [returnAddress]
    cases p.state.subroutineActive <;> rfl
  · intro r hr
    rw [returnAddress] at hr
    cases ha : p.state.subroutineActive with
    | true => rw [ha] at hr; exact Option.some.inj hr
    | false => rw [ha] at hr; cases hr

theorem finishes_of_laidOut {p : PusherState} {prog : Program} (he : p.state.error = ERROR_NONE)
    (hl : prog.LaidOut (fetchAt vram dma) len p) :
    Finishes vram dma len p.control.dmaPut (prog.entries p) p := by
  obtain ⟨words, ⟨full, rest⟩ | ⟨short, reached, none⟩⟩ := hl
  · obtain ⟨q, hs, hq, hcache, hcnt⟩ := steps_data (at_returnAddress he) words full.le
    rw [full, Nat.sub_self] at hcnt
    exact Finishes.of_steps hs hcache (finishes_of_runs rest hq (BitVec.eq_of_toNat_eq hcnt))
  · obtain ⟨q, hs, hq, hcache, -⟩ := steps_data (at_returnAddress he) words short
    rw [reached] at hq
    rw [Program.entries, none]
    exact Finishes.of_steps hs hcache (finishes_of_at_put hq)

/-- The channel is set up for the pusher, over a DMA object at `dma` of length `len`. -/
structure Ready (dma : Nat) (len : Word) (d : Device) : Prop where
  push_enabled : d.cache1.pushEnabled = true
  channel_dma : d.pfifoRegs NV_PFIFO_MODE &&& (1 <<< d.cache1.channelId) ≠ 0
  mode_dma : d.cache1.mode = .dma
  dma_push_enabled : d.cache1.dmaPushEnabled = true
  not_suspended : d.cache1.dmaPushSuspended = false
  no_error : d.cache1.error = ERROR_NONE
  mapped : nvDmaMap d.ramin d.cache1.dmaInstance = some (dma, len)

theorem enter_of_ready {d : Device} (hr : Ready dma len d) : d.enter = .looping dma len := by
  rw [Device.enter, hr.push_enabled, hr.mode_dma, hr.dma_push_enabled, hr.not_suspended,
    hr.no_error, hr.mapped, if_neg (by decide), if_neg hr.channel_dma, if_neg (by decide),
    if_neg (by decide), if_neg (by decide), if_neg (by decide)]

theorem Device.store_control (d : Device) (p : PusherState) :
    (d.store p).channelControl d.cache1.channelId = p.control := if_pos rfl

/-- Every program laid out from GET to PUT is run to its end: the pusher returns with
GET at PUT and no error, and the cache has grown by the entries of the program. -/
theorem pusher_runs_program {d : Device} {prog : Program} (hr : Ready dma len d)
    (hl : prog.LaidOut (fetchAt d.vram dma) len d.pusher) :
    ∃ d' n, (∀ fuel ≥ n, pfifoRunPusher fuel d = some (.returned d')) ∧
      d'.cache1.cache = d.cache1.cache ++ prog.entries d.pusher ∧
      (d'.channelControl d.cache1.channelId).dmaGet =
        (d.channelControl d.cache1.channelId).dmaPut ∧
      (d'.channelControl d.cache1.channelId).dmaPut =
        (d.channelControl d.cache1.channelId).dmaPut ∧
      d'.cache1.error = ERROR_NONE := by
  obtain ⟨t, ⟨n, hn⟩, hget, hput, herr, hcache⟩ :=
    finishes_of_laidOut (p := d.pusher) hr.no_error hl
  refine ⟨d.store t, n, ?_, hcache, ?_, ?_, herr⟩
  · intro fuel hle
    have hloop := loop_mono hn hle
    have hleave : d.leave t = .returned (d.store t) := if_neg (not_not.mpr herr)
    simp only [pfifoRunPusher, enter_of_ready hr, hloop, Option.map_some, hleave]
  · rw [Device.store_control]
    exact hget
  · rw [Device.store_control]
    exact hput

/-- Two increasing data words, a jump over one word, and a non-increasing data word. -/
def sampleBuffer : List Word :=
  [header false 0x40 1 2, 0xAAAA, 0xBBBB, jumpWord 5, 0, header true 0x80 2 1, 0xCCCC]

def sampleProgram : Program :=
  ⟨[], [.methods false 0x40 1 [0xAAAA, 0xBBBB], .jump 5, .methods true 0x80 2 [0xCCCC]]⟩

/-- Channel 0 over a DMA object at 0 with limit 64, GET at the start of the buffer. -/
def sampleDevice : Device :=
  { vram := leBytes sampleBuffer
    ramin := leBytes [0, 64, 0]
    pfifoRegs := fun _ => 1
    cache1 :=
      { channelId := 0, mode := .dma, pushEnabled := true, dmaPushEnabled := true
        dmaPushSuspended := false, dmaInstance := 0, methodNonincreasing := false, method := 0
        subchannel := 0, methodCount := 0, dcount := 0, subroutineActive := false
        subroutineReturn := 0, getJmpShadow := 0, rsvdShadow := 0, dataShadow := 0
        error := ERROR_NONE, cache := [] }
    channelControl := fun _ => { dmaPut := 28, dmaGet := 0, ref := 0 }
    fetched := [] }

theorem sampleDevice_ready : Ready 0 64 sampleDevice :=
  ⟨rfl, by decide, rfl, rfl, rfl, rfl, by decide⟩

theorem sampleProgram_laidOut :
    sampleProgram.LaidOut (fetchAt sampleDevice.vram 0) 64 sampleDevice.pusher := by
  have first : WordsAt (fetchAt sampleDevice.vram 0) 64 28 0
      [header false 0x40 1 2, 0xAAAA, 0xBBBB] :=
    ⟨by decide, by decide, by decide, by decide, by decide, by decide, by decide, by decide,
      by decide, trivial⟩
  have second : WordsAt (fetchAt sampleDevice.vram 0) 64 28 20 [header true 0x80 2 1, 0xCCCC] :=
    ⟨by decide, by decide, by decide, by decide, by decide, by decide, trivial⟩
  refine ⟨trivial, .inl ⟨rfl, ?_⟩⟩
  refine .methods first rfl ?_
  refine .jump ⟨by decide, by decide, by decide, trivial⟩ ?_
  exact .methods second rfl .done

theorem sampleDevice_runs : ∃ d' n,
    (∀ fuel ≥ n, pfifoRunPusher fuel sampleDevice = some (.returned d')) ∧
      d'.cache1.cache =
        [⟨0x100, 1, false, 0xAAAA⟩, ⟨0x104, 1, false, 0xBBBB⟩, ⟨0x200, 2, true, 0xCCCC⟩] ∧
      (d'.channelControl 0).dmaGet = 28 ∧ (d'.channelControl 0).dmaPut = 28 ∧
      d'.cache1.error = ERROR_NONE :=
  pusher_runs_program sampleDevice_ready sampleProgram_laidOut

end OpenXbox.Nv2a.PushBuffer
