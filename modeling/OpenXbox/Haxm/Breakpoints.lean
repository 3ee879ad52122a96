import OpenXbox.Haxm.Vcpu
import OpenXbox.Lib.Run

/-!
# The debug registers encode the last breakpoints

Only the first slot of a set reaches the debug registers, four times, and what earlier sets left in
DR7 stays there until breakpoints are cleared.
-/

namespace OpenXbox.Haxm.Breakpoints

open OpenXbox.Lib.Run OpenXbox.Haxm.Vcpu

local instance slots_neZero : NeZero 4 := ⟨by decide⟩

local instance debugRegisters_neZero : NeZero 8 := ⟨by decide⟩

/-- A call, with the answer of the hypervisor. -/
inductive Call
  | set (breakpoints : HardwareBreakpoints) (accepted : Bool)
  | clear (accepted : Bool)

def Call.accepted : Call → Bool
  | .set _ accepted => accepted
  | .clear accepted => accepted

/-- A slot without a breakpoint. -/
def unused : HardwareBreakpoint := ⟨0, false, false, .execution, .oneByte⟩

/-- What the call asks for. -/
def Call.breakpoints : Call → HardwareBreakpoints
  | .set breakpoints _ => breakpoints
  | .clear _ => fun _ => unused

def call (v : HaxmVCPU) : Call → HaxmVCPU
  | .set breakpoints accepted => setHardwareBreakpoints v breakpoints accepted
  | .clear accepted => clearHardwareBreakpoints v accepted

/-- Every call returns. -/
def step (v : HaxmVCPU) (c : Call) : Option HaxmVCPU := some (call v c)

/-- The bit of DR7 is set by the slot. -/
def slotBit (i : Fin 4) (bp : HardwareBreakpoint) (j : Nat) : Bool :=
  (j == 2 * i.val && bp.localEnable) || (j == 2 * i.val + 1 && bp.globalEnable) ||
    (decide (16 + 4 * i.val ≤ j ∧ j < 16 + 4 * i.val + 2) &&
      bp.trigger.value.getLsbD (j - (16 + 4 * i.val))) ||
    (decide (18 + 4 * i.val ≤ j ∧ j < 18 + 4 * i.val + 2) &&
      bp.length.value.getLsbD (j - (18 + 4 * i.val)))

/-- The bit of DR7 is set by one of the slots. -/
def dr7Bit (breakpoints : HardwareBreakpoints) (j : Nat) : Bool :=
  (List.finRange 4).any fun i => slotBit i (breakpoints i) j

/-- The debug registers are those of the breakpoints, and nothing else is in DR7. -/
structure Encodes (d : HaxDebug) (breakpoints : HardwareBreakpoints) : Prop where
  address : ∀ i, d.dr (addressRegister i) = (breakpoints i).address
  dr7 : ∀ j, (d.dr 7).getLsbD j = dr7Bit breakpoints j

/-- The bit of slot `i` is the lowest one set. -/
def LowestSet (dr6 : QWord) (i : Fin 4) : Prop :=
  dr6.getLsbD i = true ∧ ∀ k < i.val, dr6.getLsbD k = false

/-- The address of the slot that was hit is reported as it was given. -/
def Reports (v : HaxmVCPU) (breakpoints : HardwareBreakpoints) : Prop :=
  ∀ i dr6 rip, LowestSet dr6 i → ∃ address,
    getBreakpointAddress v dr6 rip = some address ∧ address.toNat = (breakpoints i).address.toNat

/-- A call that succeeds leaves the debug registers of the hypervisor as it asked for. -/
def StepOk (v : HaxmVCPU) (c : Call) : Prop :=
  c.accepted = true → Encodes (call v c).given c.breakpoints ∧ Reports (call v c) c.breakpoints

def Enabled (bp : HardwareBreakpoint) : Prop := bp.localEnable = true ∨ bp.globalEnable = true

/-- The slots are all alike, with an address of 32 bits, and set every bit that is left in DR7; or
the first slot is disabled, and no slot has anything in it. -/
def Fits (v : HaxmVCPU) : Call → Prop
  | .set breakpoints accepted => accepted = true →
    (Enabled (breakpoints 0) → (∀ i, breakpoints i = breakpoints 0) ∧
      (breakpoints 0).address.toNat < 2 ^ 32 ∧
      ∀ j, (v.debug.dr 7).getLsbD j = true → dr7Bit (fun _ => breakpoints 0) j = true) ∧
    (¬ Enabled (breakpoints 0) → ∀ i, breakpoints i = unused)
  | .clear _ => True

section Registers

variable {d : HaxDebug} {breakpoints : HardwareBreakpoints}

theorem getLsbD_flag (b : Bool) {k : Nat} (hk : k < 64) (j : Nat) :
    (flag b <<< k).getLsbD j = (j == k && b) := by
  rw [flag, BitVec.getLsbD_shiftLeft]
  cases b with
  | false => simp
  | true =>
    rw [if_pos rfl, show (1 : QWord) = 1#64 from rfl, BitVec.getLsbD_one, Bool.and_true,
      Bool.eq_iff_iff]
    simp only [Bool.and_eq_true, decide_eq_true_eq, Bool.not_eq_true', decide_eq_false_iff_not,
      beq_iff_eq]
    omega

theorem getLsbD_field (v : QWord) {k : Nat} (hk : k + 2 ≤ 64) (j : Nat) :
    ((v &&& 0x3) <<< k).getLsbD j = (decide (k ≤ j ∧ j < k + 2) && v.getLsbD (j - k)) := by
  have hmask (n : Nat) : (0x3 : QWord).getLsbD n = decide (n < 2) := by
    rw [show (0x3 : QWord) = BitVec.setWidth 64 (BitVec.allOnes 2) by decide, BitVec.getLsbD_setWidth,
      BitVec.getLsbD_allOnes]
    by_cases hn : n < 2
    · simp [hn, show n < 64 by omega]
    · simp [hn]
  rw [BitVec.getLsbD_shiftLeft, BitVec.getLsbD_and, hmask, Bool.eq_iff_iff]
  simp only [Bool.and_eq_true, decide_eq_true_eq, Bool.not_eq_true', decide_eq_false_iff_not]
  constructor
  · intro h
    exact ⟨by omega, h.2.1⟩
  · intro h
    exact ⟨by omega, h.2, by omega⟩

theorem getLsbD_slotBits (i : Fin 4) (bp : HardwareBreakpoint) (j : Nat) :
    (slotBits i bp).getLsbD j = slotBit i bp j := by
  have hi := i.isLt
  rw [slotBits, BitVec.getLsbD_or, BitVec.getLsbD_or, BitVec.getLsbD_or, getLsbD_flag _ (by omega),
    getLsbD_flag _ (by omega), getLsbD_field _ (by omega), getLsbD_field _ (by omega), slotBit]
  simp only [Nat.zero_add, Nat.mul_comm i.val, Nat.add_comm 1]

theorem addressRegister_injective : Function.Injective addressRegister :=
  Fin.castLE_injective (by decide)

theorem addressRegister_ne (i : Fin 4) : addressRegister i ≠ 7 := by
  revert i
  decide

/-- The slots of a list have their address in its register and their bits in DR7. -/
theorem foldl_setSlot_address (breakpoints : HardwareBreakpoints) (l : List (Fin 4)) (d : HaxDebug)
    (i : Fin 4) :
    (l.foldl (setSlot breakpoints) d).dr (addressRegister i) =
      if i ∈ l then (breakpoints i).address else d.dr (addressRegister i) := by
  induction l generalizing d with
  | nil => rfl
  | cons k l ih =>
    rw [List.foldl_cons, ih, setSlot]
    dsimp only
    rw [Function.update_of_ne (addressRegister_ne i)]
    by_cases hk : i = k
    · rw [hk, Function.update_self, ite_self, if_pos List.mem_cons_self]
    · rw [Function.update_of_ne fun h => hk (addressRegister_injective h)]
      simp only [List.mem_cons, hk, false_or]

theorem foldl_setSlot_dr7 (breakpoints : HardwareBreakpoints) (l : List (Fin 4)) (d : HaxDebug) (j : Nat) :
    ((l.foldl (setSlot breakpoints) d).dr 7).getLsbD j =
      ((d.dr 7).getLsbD j || l.any fun i => slotBit i (breakpoints i) j) := by
  induction l generalizing d with
  | nil => exact (Bool.or_false _).symm
  | cons k l ih =>
    rw [List.foldl_cons, ih, setSlot]
    dsimp only
    rw [Function.update_self, Function.update_of_ne (addressRegister_ne k).symm, BitVec.getLsbD_or,
      getLsbD_slotBits, List.any_cons, Bool.or_assoc]

/-- The place in DR7 of a bit of a slot: local, global, two of the trigger and two of the length. -/
def position (i : Fin 4) (k : Fin 6) : Nat := if k.val < 2 then 2 * i.val + k.val else 14 + 4 * i.val + k.val

def fieldBit (bp : HardwareBreakpoint) (k : Fin 6) : Bool :=
  match k with
  | 0 => bp.localEnable
  | 1 => bp.globalEnable
  | 2 => bp.trigger.value.getLsbD 0
  | 3 => bp.trigger.value.getLsbD 1
  | 4 => bp.length.value.getLsbD 0
  | 5 => bp.length.value.getLsbD 1

/-- The places of the slots are apart. -/
theorem slotBit_position (i i' : Fin 4) (bp : HardwareBreakpoint) (k : Fin 6) :
    slotBit i bp (position i' k) = (decide (i = i') && fieldBit bp k) := by
  have hi := i.isLt
  have hi' := i'.isLt
  by_cases h : i = i'
  · subst h
    rw [decide_eq_true rfl, Bool.true_and, slotBit, Bool.eq_iff_iff]
    simp only [Bool.or_eq_true, Bool.and_eq_true, beq_iff_eq, decide_eq_true_eq]
    match k with
    | 0 | 1 => grind [position, fieldBit]
    | 2 | 3 | 4 | 5 => grind [position, fieldBit]
  · have hne : i.val ≠ i'.val := fun heq => h (Fin.ext heq)
    rw [decide_eq_false h, Bool.false_and, slotBit, Bool.eq_false_iff]
    simp only [ne_eq, Bool.or_eq_true, Bool.and_eq_true, beq_iff_eq, decide_eq_true_eq]
    rw [position]
    split
    · omega
    · omega

theorem dr7Bit_position (breakpoints : HardwareBreakpoints) (i : Fin 4) (k : Fin 6) :
    dr7Bit breakpoints (position i k) = fieldBit (breakpoints i) k := by
  rw [Bool.eq_iff_iff, dr7Bit, List.any_eq_true]
  simp only [slotBit_position, Bool.and_eq_true, decide_eq_true_eq, List.mem_finRange, true_and]
  constructor
  · intro h
    obtain ⟨i', rfl, hbit⟩ := h
    exact hbit
  · intro hbit
    exact ⟨i, rfl, hbit⟩

/-- A slot is known by its address and its bits. -/
theorem eq_of_fieldBit {bp bp' : HardwareBreakpoint} (address : bp.address = bp'.address)
    (bits : ∀ k, fieldBit bp k = fieldBit bp' k) : bp = bp' := by
  have htrigger : bp.trigger = bp'.trigger := by
    have h0 := bits 2
    have h1 := bits 3
    revert h0 h1
    simp only [fieldBit]
    cases bp.trigger <;> cases bp'.trigger <;> decide
  have hlength : bp.length = bp'.length := by
    have h0 := bits 4
    have h1 := bits 5
    revert h0 h1
    simp only [fieldBit]
    cases bp.length <;> cases bp'.length <;> decide
  have hlocal : bp.localEnable = bp'.localEnable := bits 0
  have hglobal : bp.globalEnable = bp'.globalEnable := bits 1
  cases bp
  cases bp'
  simp_all

theorem dr7Bit_unused (j : Nat) : dr7Bit (fun _ => unused) j = false := by
  rw [dr7Bit, List.any_eq_false]
  intro i _
  simp [slotBit, unused, BreakpointTrigger.value, BreakpointLength.value]

theorem getLsbD_of_zero (h : d.dr = fun _ => 0) (j : Nat) : (d.dr 7).getLsbD j = false := by
  rw [h]
  exact BitVec.getLsbD_zero

/-- A register of zeros is that of no breakpoints only. -/
theorem encodes_zero_iff (hzero : d.dr = fun _ => 0) :
    Encodes d breakpoints ↔ ∀ i, breakpoints i = unused := by
  constructor
  · intro h i
    refine eq_of_fieldBit ?_ fun k => ?_
    · rw [← h.address, hzero]
      rfl
    · rw [← dr7Bit_position, ← h.dr7, getLsbD_of_zero hzero]
      revert k
      decide
  · intro h
    obtain rfl : breakpoints = fun _ => unused := funext h
    refine ⟨fun i => ?_, fun j => ?_⟩
    · rw [hzero]
      rfl
    · rw [getLsbD_of_zero hzero, dr7Bit_unused]

end Registers

section Reports

variable {v : HaxmVCPU} {breakpoints : HardwareBreakpoints}

theorem getLsbD_hardwareBP (dr6 : QWord) (i : Fin 4) : (dr6 &&& 0xF).getLsbD i = dr6.getLsbD i := by
  have hmask : (0xF : QWord).getLsbD i = true := by
    revert i
    decide
  rw [BitVec.getLsbD_and, hmask, Bool.and_true]

theorem getBreakpointAddress_of_lowestSet {dr6 : QWord} {i : Fin 4} (h : LowestSet dr6 i) (rip : QWord) :
    getBreakpointAddress v dr6 rip = some ((v.debug.dr (addressRegister i)).setWidth 32) := by
  have hbit (k : Fin 4) := getLsbD_hardwareBP dr6 k
  have hhit : dr6 &&& 0xF ≠ 0 := by
    intro hzero
    have hi := hbit i
    rw [hzero, h.1] at hi
    simp at hi
  have h0 : (dr6 &&& 0xF).getLsbD 0 = dr6.getLsbD 0 := hbit 0
  have h1 : (dr6 &&& 0xF).getLsbD 1 = dr6.getLsbD 1 := hbit 1
  have h2 : (dr6 &&& 0xF).getLsbD 2 = dr6.getLsbD 2 := hbit 2
  have h3 : (dr6 &&& 0xF).getLsbD 3 = dr6.getLsbD 3 := hbit 3
  rw [getBreakpointAddress]
  simp only [h0, h1, h2, h3, hhit, false_and, if_false]
  obtain ⟨hset, hlow⟩ := h
  match i with
  | 0 =>
    rw [if_pos (show dr6.getLsbD 0 = true from hset)]
    rfl
  | 1 =>
    rw [hlow 0 (by decide), if_neg Bool.false_ne_true, if_pos (show dr6.getLsbD 1 = true from hset)]
    rfl
  | 2 =>
    rw [hlow 0 (by decide), if_neg Bool.false_ne_true, hlow 1 (by decide), if_neg Bool.false_ne_true,
      if_pos (show dr6.getLsbD 2 = true from hset)]
    rfl
  | 3 =>
    rw [hlow 0 (by decide), if_neg Bool.false_ne_true, hlow 1 (by decide), if_neg Bool.false_ne_true,
      hlow 2 (by decide), if_neg Bool.false_ne_true, if_pos (show dr6.getLsbD 3 = true from hset)]
    rfl

theorem lowestSet_twoPow (i : Fin 4) : LowestSet (BitVec.twoPow 64 i) i := by
  have hi := i.isLt
  refine ⟨?_, fun k hk => ?_⟩
  · simp [show i.val < 64 by omega]
  · simp [BitVec.getLsbD_twoPow, show i.val ≠ k by omega]

/-- The addresses are reported when 32 bits are enough for them. -/
theorem reports_iff (haddress : ∀ i, v.debug.dr (addressRegister i) = (breakpoints i).address) :
    Reports v breakpoints ↔ ∀ i, (breakpoints i).address.toNat < 2 ^ 32 := by
  constructor
  · intro h i
    obtain ⟨address, hget, heq⟩ := h i _ 0 (lowestSet_twoPow i)
    rw [← heq]
    exact address.isLt
  · intro h i dr6 rip hlow
    refine ⟨_, getBreakpointAddress_of_lowestSet hlow rip, ?_⟩
    rw [haddress, BitVec.toNat_setWidth]
    exact Nat.mod_eq_of_lt (h i)

end Reports

section Calls

variable {v : HaxmVCPU} {breakpoints : HardwareBreakpoints} {c : Call}

@[simp] theorem setDebug_dr (v : HaxmVCPU) (accepted : Bool) :
    (setDebug v accepted).debug.dr = v.debug.dr := rfl

/-- A successful call has handed the debug state on. -/
theorem call_given (v : HaxmVCPU) (haccepted : c.accepted = true) : (call v c).given = (call v c).debug := by
  cases c with
  | clear accepted =>
    obtain rfl : accepted = true := haccepted
    rfl
  | set breakpoints accepted =>
    obtain rfl : accepted = true := haccepted
    rw [call, setHardwareBreakpoints, HaxmVCPU.setHardwareBreakpoints]
    split <;> rfl

theorem call_clear_dr (v : HaxmVCPU) (accepted : Bool) :
    (call v (.clear accepted)).debug.dr = fun _ => 0 := rfl

theorem call_disabled_dr (v : HaxmVCPU) (h : ¬ Enabled (breakpoints 0)) (accepted : Bool) :
    (call v (.set breakpoints accepted)).debug.dr = fun _ => 0 := by
  have hnone : ∀ _ : Fin 4, !(breakpoints 0).localEnable ∧ !(breakpoints 0).globalEnable := by
    intro _
    rw [Enabled, not_or, Bool.not_eq_true, Bool.not_eq_true] at h
    simp [h]
  rw [call, setHardwareBreakpoints, HaxmVCPU.setHardwareBreakpoints, if_pos hnone]
  rfl

theorem call_enabled_dr (v : HaxmVCPU) (h : Enabled (breakpoints 0)) (accepted : Bool) :
    (call v (.set breakpoints accepted)).debug.dr =
      ((List.finRange 4).foldl (setSlot fun _ => breakpoints 0)
        { v.debug with control := v.debug.control ||| HAX_DEBUG_USE_HW_BP }).dr := by
  have hany : ¬ ∀ _ : Fin 4, !(breakpoints 0).localEnable ∧ !(breakpoints 0).globalEnable := by
    intro hnone
    obtain ⟨hlocal, hglobal⟩ := hnone 0
    cases h with
    | inl h => simp [h] at hlocal
    | inr h => simp [h] at hglobal
  rw [call, setHardwareBreakpoints, HaxmVCPU.setHardwareBreakpoints, if_neg hany]
  rfl

theorem call_enabled_address (v : HaxmVCPU) (h : Enabled (breakpoints 0)) (accepted : Bool) (i : Fin 4) :
    (call v (.set breakpoints accepted)).debug.dr (addressRegister i) = (breakpoints 0).address := by
  rw [call_enabled_dr v h, foldl_setSlot_address, if_pos (List.mem_finRange i)]

theorem call_enabled_dr7 (v : HaxmVCPU) (h : Enabled (breakpoints 0)) (accepted : Bool) (j : Nat) :
    ((call v (.set breakpoints accepted)).debug.dr 7).getLsbD j =
      ((v.debug.dr 7).getLsbD j || dr7Bit (fun _ => breakpoints 0) j) := by
  rw [call_enabled_dr v h, foldl_setSlot_dr7]
  rfl

/-- Every slot has the same fields in DR7. -/
def Uniform (v : HaxmVCPU) : Prop :=
  ∀ i k, (v.debug.dr 7).getLsbD (position i k) = (v.debug.dr 7).getLsbD (position 0 k)

theorem uniform_of_zero (h : v.debug.dr = fun _ => 0) : Uniform v := by
  intro i k
  rw [getLsbD_of_zero h, getLsbD_of_zero h]

theorem uniform_call (uniform : Uniform v) (c : Call) : Uniform (call v c) := by
  cases c with
  | clear accepted => exact uniform_of_zero rfl
  | set breakpoints accepted =>
    by_cases h : Enabled (breakpoints 0)
    · intro i k
      rw [call_enabled_dr7 v h, call_enabled_dr7 v h, uniform i k, dr7Bit_position, dr7Bit_position]
    · exact uniform_of_zero (call_disabled_dr v h accepted)

/-- What an enabled set leaves in the registers encodes it when all slots are alike and nothing is
left over that is not set again. -/
theorem encodes_enabled_iff (uniform : Uniform v) (h : Enabled (breakpoints 0)) (accepted : Bool) :
    Encodes (call v (.set breakpoints accepted)).debug breakpoints ↔
      (∀ i, breakpoints i = breakpoints 0) ∧
        ∀ j, (v.debug.dr 7).getLsbD j = true → dr7Bit (fun _ => breakpoints 0) j = true := by
  constructor
  · intro henc
    have hbits (i : Fin 4) (k : Fin 6) :
        ((v.debug.dr 7).getLsbD (position 0 k) || fieldBit (breakpoints 0) k) = fieldBit (breakpoints i) k := by
      have hdr7 := henc.dr7 (position i k)
      rw [call_enabled_dr7 v h, uniform, dr7Bit_position, dr7Bit_position] at hdr7
      exact hdr7
    have halike (i : Fin 4) : breakpoints i = breakpoints 0 := by
      refine eq_of_fieldBit ?_ fun k => (hbits i k).symm.trans (hbits 0 k)
      exact (henc.address i).symm.trans (call_enabled_address v h accepted i)
    refine ⟨halike, fun j hleft => ?_⟩
    have hdr7 := henc.dr7 j
    rw [call_enabled_dr7 v h, hleft, Bool.true_or] at hdr7
    rw [← funext halike]
    exact hdr7.symm
  · intro hfits
    obtain ⟨halike, hleft⟩ := hfits
    refine ⟨fun i => ?_, fun j => ?_⟩
    · rw [call_enabled_address v h, halike i]
    · rw [call_enabled_dr7 v h, funext halike]
      cases hold : (v.debug.dr 7).getLsbD j with
      | false => rfl
      | true => exact (hleft j hold).symm

/-- A register that encodes the breakpoints reports their addresses when they have 32 bits. -/
theorem encodes_and_reports_iff :
    Encodes v.debug breakpoints ∧ Reports v breakpoints ↔
      Encodes v.debug breakpoints ∧ ∀ i, (breakpoints i).address.toNat < 2 ^ 32 :=
  and_congr_right fun henc => reports_iff henc.address

theorem ok_enabled_iff (uniform : Uniform v) (h : Enabled (breakpoints 0)) (accepted : Bool) :
    Encodes (call v (.set breakpoints accepted)).debug breakpoints ∧
        Reports (call v (.set breakpoints accepted)) breakpoints ↔
      (∀ i, breakpoints i = breakpoints 0) ∧ (breakpoints 0).address.toNat < 2 ^ 32 ∧
        ∀ j, (v.debug.dr 7).getLsbD j = true → dr7Bit (fun _ => breakpoints 0) j = true := by
  rw [encodes_and_reports_iff, encodes_enabled_iff uniform h]
  constructor
  · intro hok
    exact ⟨hok.1.1, hok.2 0, hok.1.2⟩
  · intro hfits
    exact ⟨⟨hfits.1, hfits.2.2⟩, fun i => by rw [hfits.1 i]; exact hfits.2.1⟩

theorem ok_zero_iff (h : v.debug.dr = fun _ => 0) :
    Encodes v.debug breakpoints ∧ Reports v breakpoints ↔ ∀ i, breakpoints i = unused := by
  rw [encodes_and_reports_iff, encodes_zero_iff h]
  refine and_iff_left_of_imp fun hunused i => ?_
  rw [hunused i]
  decide

theorem stepOk_iff (uniform : Uniform v) (c : Call) : StepOk v c ↔ Fits v c := by
  cases c with
  | clear accepted =>
    refine iff_of_true (fun haccepted => ?_) trivial
    rw [call_given v haccepted]
    exact (ok_zero_iff (call_clear_dr v accepted)).mpr fun _ => rfl
  | set breakpoints accepted =>
    refine imp_congr_right fun haccepted => ?_
    rw [call_given v haccepted]
    by_cases h : Enabled (breakpoints 0)
    · refine (ok_enabled_iff uniform h accepted).trans ⟨fun hfits => ?_, fun hfits => hfits.1 h⟩
      exact ⟨fun _ => hfits, fun hno => absurd h hno⟩
    · refine (ok_zero_iff (call_disabled_dr v h accepted)).trans ⟨fun hunused => ?_, fun hfits => hfits.2 h⟩
      exact ⟨fun hyes => absurd hyes h, fun _ => hunused⟩

end Calls

/-- After each successful call of a run the debug registers are those asked for, exactly when the
sets of the run have four equal slots that cover what is left in DR7, or nothing in any slot. -/
theorem breakpoints_ok_iff (calls : List Call) :
    Guarded step StepOk .initial calls ↔ Guarded step Fits .initial calls := by
  refine guarded_congr (I := Uniform) (fun _ c uniform => stepOk_iff uniform c) ?_ (uniform_of_zero rfl)
  intro v c v' uniform _ hstep
  obtain rfl : call v c = v' := Option.some.inj hstep
  exact uniform_call uniform c

/-- Two breakpoints on execution. -/
def twoBreakpoints : HardwareBreakpoints
  | 0 => ⟨0x10000, true, false, .execution, .oneByte⟩
  | 1 => ⟨0x20000, true, false, .execution, .oneByte⟩
  | _ => unused

/-- The second of them is lost. -/
theorem second_breakpoint_lost : ¬ Guarded step StepOk .initial [.set twoBreakpoints true] := by
  intro h
  have haddress := (h.1 rfl).1.address 1
  exact absurd haddress (by decide)

end OpenXbox.Haxm.Breakpoints
