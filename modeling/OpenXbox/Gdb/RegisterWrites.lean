import OpenXbox.Cpu.RegisterCache
import OpenXbox.Gdb.Session

/-!
# Registers that the client writes

`Debug` copies sixteen registers of the CPU in and ten of them back, and only when the loop is left
with the code 0. In between the decoder writes straight to the copy, and stops at the first character
that is no digit.
-/

namespace OpenXbox.Gdb.RegisterWrites

open OpenXbox.Lib.Buffer OpenXbox.Lib.Bits OpenXbox.Gdb.Transport OpenXbox.Gdb.Codec
  OpenXbox.Gdb.Packet OpenXbox.Gdb.Main OpenXbox.Gdb.OwnBytes OpenXbox.Gdb.Stream OpenXbox.Gdb.Session
open OpenXbox.Cpu.Registers (Backend CpuReg General GuestEntry kvm haxm haxmValue)
open OpenXbox.Cpu.RegisterCache (writeAll)

/-! ## The copies -/

section Copies

/-- The registers that are copied both ways. -/
def generals : List General := [.eax, .ecx, .edx, .ebx, .esp, .ebp, .esi, .edi, .eip, .eflags]

/-- The registers that are copied in, in the order of the copy. -/
def cpuRegs : List CpuReg :=
  generals.map .general ++ [.segment .cs, .segment .ss, .segment .ds, .segment .es, .segment .fs, .segment .gs]

def DBG_CPU_I386_REG_PC : Nat := 8

variable {R : Type} (b : Backend R)

/-- The copy in. After a breakpoint instruction EIP is moved back to it. -/
def loadRegisters (signal : Int) (regs : R) : Nat → Byte :=
  let registers := leBytes (cpuRegs.map fun r => (b.read r regs).getD 0)
  if signal = 3 then setReg registers DBG_CPU_I386_REG_PC (reg registers DBG_CPU_I386_REG_PC - 1)
  else registers

/-- The copy back. -/
def restoreRegisters (mem : GuestEntry) (registers : Nat → Byte) (regs : R) : R :=
  writeAll b mem
    (generals.zipIdx.map fun r => (.general r.1, reg registers r.2)) regs

/-- The CPU's registers when `Debug` returns. -/
def resumed (mem : GuestEntry) (code : Int) (registers : Nat → Byte) (regs : R) : R :=
  if code = 0 then restoreRegisters b mem registers regs else regs

end Copies

/-! ## What the packets write -/

section Writes

variable {M : Type} (env : Env M) (s : Server M) (buf : Nat → Byte)

/-- The packet of a turn, if there is one with a command: the command and the buffer. -/
def turnCommand : Option (Command × (Nat → Byte)) :=
  match dbgRecvPacket env.asserts buf pktBufLen s.peer with
  | (.packet pktLen buf, _) =>
    if pktLen = 0 then none else ((parse buf pktLen 0).2).map fun r => (r.1, buf)
  | _ => none

/-- The status of a command that writes registers, and the copy after it. -/
def written : Command → Status × (Nat → Byte)
  | .writeRegisters start length => dbgDecHex env.asserts (drop buf start) length s.registers 64
  | .writeRegister addr start length =>
    let (status, after) :=
      dbgDecHex env.asserts (drop buf start) length (drop s.registers (4 * addr)) 4
    (status, putFrom s.registers (4 * addr) after)
  | _ => (.ok 0, s.registers)

/-- A word of eight digits, least significant byte first. -/
def wordOf (digits : Nat → Byte) : Option Word :=
  (hexByte (digits 0) (digits 1)).bind fun b0 => (hexByte (digits 2) (digits 3)).bind fun b1 =>
    (hexByte (digits 4) (digits 5)).bind fun b2 => (hexByte (digits 6) (digits 7)).map fun b3 =>
      le32 b0 b1 b2 b3

/-- The value that a packet has for a register. -/
def given (buf : Nat → Byte) : Command → Nat → Option Word
  | .writeRegisters start _ => fun i =>
    if i < DBG_CPU_I386_NUM_REGISTERS then wordOf (drop buf (start + 8 * i)) else none
  | .writeRegister addr start _ => fun i => if i = addr then wordOf (drop buf start) else none
  | _ => fun _ => none

/-- The values last written, after the turn: those of its packet when the reply to it is `OK`. -/
def noted (last : Nat → Option Word) : Nat → Option Word :=
  match turnCommand env s buf with
  | some (command, buf) =>
    match (written env s buf command).1 with
    | .ok _ => fun i => (given buf command i).or (last i)
    | _ => last
  | none => last

end Writes

/-! ## What has to hold -/

section Property

variable {M R : Type} (env : Env M)

/-- When the reply is `OK` the registers of the packet have their values and the others are as they
were; when it is an error no register has changed. -/
def WriteOk (s : Server M) (buf : Nat → Byte) (command : Command) : Prop :=
  ((∃ n, (written env s buf command).1 = .ok n) → ∀ i < DBG_CPU_I386_NUM_REGISTERS,
    reg (written env s buf command).2 i = (given buf command i).getD (reg s.registers i)) ∧
  ((written env s buf command).1 = .eof → (written env s buf command).2 = s.registers)

/-- A server, its buffer, and the values last written to the registers. -/
structure State (M : Type) where
  server : Server M
  buf : Nat → Byte
  last : Nat → Option Word

/-- A turn that stays in the loop. -/
def Follows (a a' : State M) : Prop :=
  mainTurn env a.server a.buf = some (.next a'.server a'.buf) ∧ a'.last = noted env a.server a.buf a.last

/-- A state at the head of the loop, in a session for the given signal and registers of the CPU. -/
def Reached (b : Backend R) (signal : Int) (regs : R) (s : Server M) (buf : Nat → Byte) (a : State M) : Prop :=
  ∃ t after, mainStart { s with registers := loadRegisters b signal regs } buf = some (.next t after) ∧
    Relation.ReflTransGen (Follows env) ⟨t, after, fun _ => none⟩ a

/-- `1 << 8`. -/
def trapFlag : Word := 1#32 <<< 8

/-- EFLAGS apart from the trap flag, the other registers as a whole. -/
def Same (i : Nat) (v w : Word) : Prop :=
  if i = DBG_CPU_I386_REG_PS then v ||| trapFlag = w ||| trapFlag else v = w

/-- The CPU's registers are the values last written to them. -/
def Agrees (b : Backend R) (regs : R) (last : Nat → Option Word) : Prop :=
  ∀ i r v, cpuRegs[i]? = some r → last i = some v → ∃ w, b.read r regs = some w ∧ Same i w v

/-- Every packet is written as its reply says, and the registers that the CPU resumes with are the
values last written. -/
def SessionOk (b : Backend R) (mem : GuestEntry) (signal : Int) (regs : R) (s : Server M) (buf : Nat → Byte) :
    Prop :=
  ∀ a, Reached env b signal regs s buf a →
    (∀ command after, turnCommand env a.server a.buf = some (command, after) →
      WriteOk env a.server after command) ∧
    ∀ code t, mainTurn env a.server a.buf = some (.exit code t) →
      Agrees b (resumed b mem code t.registers regs) (noted env a.server a.buf a.last)

end Property

/-! ## When it does -/

section Fits

variable {M R : Type}

/-- A general register holds what is stored for the value written to it, and is written by itself. -/
structure Holds (b : Backend R) where
  stored : General → Word → Word
  write_general : ∀ mem r v regs, ∃ next, b.write mem (.general r) v regs = some next ∧
    b.read (.general r) next = some (stored r v) ∧ ∀ q, q ≠ .general r → b.read q next = b.read q regs
  stored_trap : ∀ v, stored .eflags v ||| trapFlag = stored .eflags (v ||| trapFlag) ||| trapFlag

/-- The byte of two digits. -/
def hexAt (digits : Nat → Byte) (k : Nat) : Option Byte := hexByte (digits (2 * k)) (digits (2 * k + 1))

/-- As far as there are digits, from `pos` on, they are those of the data. -/
def Repeats (digits data : Nat → Byte) (pos stop : Nat) : Prop :=
  ∀ k, pos ≤ k → k < stop → (∀ j, pos ≤ j → j < k → hexAt digits j ≠ none) →
    ∀ h, dbgGetVal (digits (2 * k)) 16 = some h →
      data k = BitVec.ofNat 8 (16 * h + (dbgGetVal (digits (2 * k + 1)) 16).getD 0)

/-- The digits are too few or too many, or all of them are digits, or the assertion ends the program,
or those before the first that is none change nothing. -/
def DigitsFit (asserts : Bool) (digits : Nat → Byte) (length : Nat) (data : Nat → Byte) (n : Nat) : Prop :=
  length ≠ n * 2 ∨ asserts = true ∨ (∀ k < n, hexAt digits k ≠ none) ∨ Repeats digits data 0 n

def WriteFits (env : Env M) (s : Server M) (buf : Nat → Byte) : Command → Prop
  | .writeRegisters start length => DigitsFit env.asserts (drop buf start) length s.registers 64
  | .writeRegister addr start length =>
    DigitsFit env.asserts (drop buf start) length (drop s.registers (4 * addr)) 4
  | _ => True

/-- The back-end stores the values of general registers as they are, and has those of the others. -/
def Restores (b : Backend R) (holds : Holds b) (regs : R) (last : Nat → Option Word) : Prop :=
  ∀ i r v, cpuRegs[i]? = some r → last i = some v →
    match r with
    | .general q => Same i (holds.stored q v) v
    | r => b.read r regs = some v

/-- The loop is left at the reply to a packet. -/
def AtReply (env : Env M) (s : Server M) (buf : Nat → Byte) : Prop :=
  ∃ command after, turnCommand env s buf = some (command, after) ∧ Command.resumes command = false

/-- The packets that write registers have digits only, and when the loop is left the registers can be
restored; when it is left at a reply they are not, and the CPU has to have the values. -/
def SessionFits (env : Env M) (b : Backend R) (holds : Holds b) (signal : Int) (regs : R) (s : Server M)
    (buf : Nat → Byte) : Prop :=
  ∀ a, Reached env b signal regs s buf a →
    (∀ command after, turnCommand env a.server a.buf = some (command, after) →
      WriteFits env a.server after command) ∧
    ∀ code t, mainTurn env a.server a.buf = some (.exit code t) →
      (AtReply env a.server a.buf → Agrees b regs (noted env a.server a.buf a.last)) ∧
      (¬ AtReply env a.server a.buf → Restores b holds regs (noted env a.server a.buf a.last))

end Fits

section Backends

theorem ne_of_general_ne {q r : General} (h : CpuReg.general q ≠ .general r) : q ≠ r :=
  fun heq => h (congrArg CpuReg.general heq)

def kvmHolds : Holds kvm where
  stored _ v := v
  write_general mem r v regs := by
    refine ⟨_, rfl, ?_, fun q hq => ?_⟩
    · exact congrArg some ((congrArg (BitVec.setWidth 32) (if_pos rfl)).trans
        (BitVec.setWidth_setWidth_of_le v (by decide)))
    · cases q with
      | general q => exact congrArg (fun w : BitVec 64 => some (w.setWidth 32)) (if_neg (ne_of_general_ne hq))
      | _ => rfl
  stored_trap v := by rw [BitVec.or_assoc, BitVec.or_self]

theorem setWidth_setLow (reg : BitVec 64) (value : Word) :
    (OpenXbox.Cpu.Registers.setLow reg value).setWidth 32 = value := by
  apply ext32
  intro i hi
  rw [OpenXbox.Cpu.Registers.setLow, BitVec.getLsbD_setWidth, BitVec.getLsbD_append, if_pos hi]
  simp [hi]

def haxmHolds : Holds haxm where
  stored := haxmValue
  write_general mem r v regs := by
    refine ⟨_, rfl, ?_, fun q hq => ?_⟩
    · exact congrArg some ((congrArg (BitVec.setWidth 32) (if_pos rfl)).trans (setWidth_setLow _ _))
    · cases q with
      | general q => exact congrArg (fun w : BitVec 64 => some (w.setWidth 32)) (if_neg (ne_of_general_ne hq))
      | _ => rfl
  stored_trap v := by
    apply ext32
    intro i hi
    rw [haxmValue, if_pos rfl, haxmValue, if_pos rfl]
    simp only [BitVec.getLsbD_or, BitVec.getLsbD_and]
    cases trapFlag.getLsbD i
    · rw [Bool.or_false, Bool.or_false, Bool.or_false]
    · rw [Bool.or_true, Bool.or_true]

end Backends

/-! ## Decoding -/

section Decoding

variable {asserts : Bool} {digits data : Nat → Byte} {left pos : Nat}

theorem hexAt_eq {h l : Nat} (hh : dbgGetVal (digits (2 * pos)) 16 = some h)
    (hl : dbgGetVal (digits (2 * pos + 1)) 16 = some l) :
    hexAt digits pos = some (BitVec.ofNat 8 (16 * h + l)) := by
  rw [hexAt, hexByte, hh, Option.bind_some, hl, Option.map_some]

theorem hexAt_none (h : dbgGetVal (digits (2 * pos)) 16 = none ∨ dbgGetVal (digits (2 * pos + 1)) 16 = none) :
    hexAt digits pos = none := by
  rw [hexAt, hexByte]
  obtain hh | hl := h
  · rw [hh]
    rfl
  · rw [hl]
    exact Option.bind_fun_none _

theorem store_twice (data : Nat → Byte) (pos : Nat) {h l : Nat} (hh : h < 16) (hl : l < 16) :
    store (store data pos (BitVec.ofNat 8 (h <<< 4))) pos
        (store data pos (BitVec.ofNat 8 (h <<< 4)) pos ||| BitVec.ofNat 8 l) =
      store data pos (BitVec.ofNat 8 (16 * h + l)) := by
  have hbyte := nibbles_or ⟨h, hh⟩ ⟨l, hl⟩
  funext i
  by_cases hi : i = pos
  · simpa [store, hi] using hbyte
  · simp [store, hi]

theorem store_eq_self_iff {b : Byte} : store data pos b = data ↔ data pos = b := by
  constructor
  · intro h
    have hat := congrFun h pos
    rwa [store, if_pos rfl, eq_comm] at hat
  · intro h
    funext i
    rw [store]
    split
    · next hi => rw [hi, h]
    · rfl

/-- The loop by what it finds at `pos`: no digit, one digit, or a byte. -/
theorem decHexLoop_cases (asserts : Bool) (digits data : Nat → Byte) (left pos : Nat) :
    (dbgGetVal (digits (2 * pos)) 16 = none ∧
      decHexLoop asserts digits (left + 1) pos data = (junk asserts, data)) ∨
    (∃ h, dbgGetVal (digits (2 * pos)) 16 = some h ∧ dbgGetVal (digits (2 * pos + 1)) 16 = none ∧
      decHexLoop asserts digits (left + 1) pos data =
        (junk asserts, store data pos (BitVec.ofNat 8 (h <<< 4)))) ∨
    ∃ h l, dbgGetVal (digits (2 * pos)) 16 = some h ∧ dbgGetVal (digits (2 * pos + 1)) 16 = some l ∧
      decHexLoop asserts digits (left + 1) pos data =
        decHexLoop asserts digits left (pos + 1) (store data pos (BitVec.ofNat 8 (16 * h + l))) := by
  cases hh : dbgGetVal (digits (2 * pos)) 16 with
  | none => exact .inl ⟨rfl, by rw [decHexLoop, hh]⟩
  | some h =>
    refine .inr ?_
    cases hl : dbgGetVal (digits (2 * pos + 1)) 16 with
    | none =>
      refine .inl ⟨h, rfl, rfl, ?_⟩
      rw [decHexLoop, hh]
      dsimp only
      rw [hl]
    | some l =>
      refine .inr ⟨h, l, rfl, rfl, ?_⟩
      rw [decHexLoop, hh]
      dsimp only
      rw [hl, ← store_twice data pos (getVal_lt hh) (getVal_lt hl)]

/-- Nothing else is written. -/
theorem decHexLoop_outside {i : Nat} (hi : i < pos ∨ pos + left ≤ i) :
    (decHexLoop asserts digits left pos data).2 i = data i := by
  induction left generalizing pos data with
  | zero => rfl
  | succ left ih =>
    obtain ⟨-, heq⟩ | ⟨h, -, -, heq⟩ | ⟨h, l, -, -, heq⟩ := decHexLoop_cases asserts digits data left pos
    · rw [heq]
    · rw [heq]
      exact if_neg (by omega)
    · rw [heq, ih (by omega)]
      exact if_neg (by omega)

/-- A decoder that succeeds has found digits only, and has written their bytes. -/
theorem decHexLoop_ok {n : Nat} (hok : (decHexLoop asserts digits left pos data).1 = .ok n) :
    ∀ k, pos ≤ k → k < pos + left → hexAt digits k = some ((decHexLoop asserts digits left pos data).2 k) := by
  induction left generalizing pos data with
  | zero =>
    intro k hk hlt
    omega
  | succ left ih =>
    have hjunk : junk asserts ≠ .ok n := by
      rw [junk]
      split <;> exact Status.noConfusion
    obtain ⟨-, heq⟩ | ⟨h, -, -, heq⟩ | ⟨h, l, hh, hl, heq⟩ := decHexLoop_cases asserts digits data left pos
    · rw [heq] at hok
      exact absurd hok hjunk
    · rw [heq] at hok
      exact absurd hok hjunk
    · rw [heq] at hok ⊢
      intro k hk hlt
      by_cases hfirst : k = pos
      · rw [hfirst, decHexLoop_outside (.inl (Nat.lt_succ_self pos)), store, if_pos rfl, hexAt_eq hh hl]
      · exact ih hok k (by omega) (by omega)

theorem decHexLoop_digits (h : ∀ k, pos ≤ k → k < pos + left → hexAt digits k ≠ none) :
    (decHexLoop asserts digits left pos data).1 = .ok 0 := by
  induction left generalizing pos data with
  | zero => rfl
  | succ left ih =>
    have hfirst := h pos (Nat.le_refl pos) (by omega)
    obtain ⟨hh, -⟩ | ⟨v, hh, hl, -⟩ | ⟨v, l, -, -, heq⟩ := decHexLoop_cases asserts digits data left pos
    · exact absurd (hexAt_none (.inl hh)) hfirst
    · exact absurd (hexAt_none (.inr hl)) hfirst
    · rw [heq]
      exact ih fun k hk hlt => h k (by omega) (by omega)

/-- No digit comes after `pos` before a character that is none. -/
theorem repeats_last {stop : Nat} (hlt : pos < stop) (hnone : hexAt digits pos = none) :
    Repeats digits data pos stop ↔ ∀ h, dbgGetVal (digits (2 * pos)) 16 = some h →
      data pos = BitVec.ofNat 8 (16 * h + (dbgGetVal (digits (2 * pos + 1)) 16).getD 0) := by
  constructor
  · intro hrep h hh
    exact hrep pos (Nat.le_refl pos) hlt (fun j hj hj' => by omega) h hh
  · intro hfirst k hk _ hbefore
    obtain rfl | hlt := Nat.eq_or_lt_of_le hk
    · exact hfirst
    · exact absurd hnone (hbefore pos (Nat.le_refl pos) hlt)

theorem repeats_next {stop : Nat} (hlt : pos < stop) {h l : Nat}
    (hh : dbgGetVal (digits (2 * pos)) 16 = some h)
    (hl : dbgGetVal (digits (2 * pos + 1)) 16 = some l) :
    Repeats digits data pos stop ↔
      data pos = BitVec.ofNat 8 (16 * h + l) ∧ Repeats digits data (pos + 1) stop := by
  constructor
  · intro hrep
    refine ⟨?_, fun k hk hks hbefore => hrep k (by omega) hks fun j hj hjk => ?_⟩
    · have hfirst := hrep pos (Nat.le_refl pos) hlt (fun j hj hj' => by omega) h hh
      rwa [hl] at hfirst
    · obtain rfl | hj := Nat.eq_or_lt_of_le hj
      · rw [hexAt_eq hh hl]
        exact Option.some_ne_none _
      · exact hbefore j hj hjk
  · intro hrep k hk hks hbefore
    obtain ⟨hfirst, hrest⟩ := hrep
    obtain rfl | hk := Nat.eq_or_lt_of_le hk
    · intro v hv
      rw [hl, ← Option.some.inj (hh.symm.trans hv)]
      exact hfirst
    · exact hrest k hk hks fun j hj hjk => hbefore j (by omega) hjk

/-- What a decoder has written changes nothing exactly when it was there already. -/
theorem decHexLoop_same_iff : (decHexLoop asserts digits left pos data).2 = data ↔
    Repeats digits data pos (pos + left) := by
  induction left generalizing pos data with
  | zero =>
    refine iff_of_true rfl fun k hk hlt => ?_
    omega
  | succ left ih =>
    obtain ⟨hh, heq⟩ | ⟨h, hh, hl, heq⟩ | ⟨h, l, hh, hl, heq⟩ :=
      decHexLoop_cases asserts digits data left pos
    · rw [heq, repeats_last (by omega) (hexAt_none (.inl hh)), hh]
      exact iff_of_true rfl fun v hv => by cases hv
    · rw [heq, repeats_last (by omega) (hexAt_none (.inr hl)), hh, hl]
      dsimp only
      rw [store_eq_self_iff, Nat.shiftLeft_eq, Nat.mul_comm h]
      constructor
      · intro hsame v hv
        rw [← Option.some.inj hv]
        exact hsame
      · exact fun hall => hall h rfl
    · rw [heq, repeats_next (by omega) hh hl]
      constructor
      · intro hsame
        have hfirst : data pos = BitVec.ofNat 8 (16 * h + l) := by
          rw [← congrFun hsame pos, decHexLoop_outside (.inl (Nat.lt_succ_self pos)), store, if_pos rfl]
        rw [store_eq_self_iff.mpr hfirst, ih, Nat.add_right_comm] at hsame
        exact ⟨hfirst, hsame⟩
      · intro hrep
        rw [store_eq_self_iff.mpr hrep.1, ih, Nat.add_right_comm]
        exact hrep.2

theorem decHexLoop_status (asserts : Bool) (digits data : Nat → Byte) (left pos : Nat) :
    (decHexLoop asserts digits left pos data).1 = .ok 0 ∨
      (decHexLoop asserts digits left pos data).1 = junk asserts := by
  induction left generalizing pos data with
  | zero => exact .inl rfl
  | succ left ih =>
    obtain ⟨-, heq⟩ | ⟨h, -, -, heq⟩ | ⟨h, l, -, -, heq⟩ := decHexLoop_cases asserts digits data left pos
    · exact .inr (congrArg Prod.fst heq)
    · exact .inr (congrArg Prod.fst heq)
    · rw [heq]
      exact ih _ _

variable {length n : Nat}

/-- A decoder that ends with an error has changed nothing exactly when the digits fit. -/
theorem decHex_eof_iff : ((dbgDecHex asserts digits length data n).1 = .eof →
    (dbgDecHex asserts digits length data n).2 = data) ↔ DigitsFit asserts digits length data n := by
  rw [dbgDecHex, DigitsFit]
  by_cases hlength : length ≠ n * 2
  · rw [if_pos hlength]
    exact iff_of_true (fun _ => rfl) (.inl hlength)
  rw [if_neg hlength, or_iff_right hlength]
  by_cases hdigits : ∀ k < n, hexAt digits k ≠ none
  · have hok : (decHexLoop asserts digits n 0 data).1 = .ok 0 :=
      decHexLoop_digits fun k _ hk => hdigits k (by omega)
    refine iff_of_true (fun heof => ?_) (.inr (.inl hdigits))
    cases hok.symm.trans heof
  have hjunk : (decHexLoop asserts digits n 0 data).1 = junk asserts := by
    refine (decHexLoop_status asserts digits data n 0).resolve_left fun hok => hdigits fun k hk => ?_
    rw [decHexLoop_ok hok k (Nat.zero_le k) (by omega)]
    exact Option.some_ne_none _
  rw [hjunk, junk, or_iff_right hdigits, decHexLoop_same_iff, Nat.zero_add]
  cases asserts with
  | true => exact iff_of_true Status.noConfusion (.inl rfl)
  | false =>
    rw [or_iff_right Bool.false_ne_true]
    exact forall_prop_of_true rfl

/-- A decoder that succeeds has written the bytes of the digits. -/
theorem decHex_ok {m : Nat} (hok : (dbgDecHex asserts digits length data n).1 = .ok m) :
    (∀ k < n, hexAt digits k = some ((dbgDecHex asserts digits length data n).2 k)) ∧
      ∀ k, n ≤ k → (dbgDecHex asserts digits length data n).2 k = data k := by
  rw [dbgDecHex] at hok ⊢
  by_cases hlength : length ≠ n * 2
  · rw [if_pos hlength] at hok
    cases hok
  · rw [if_neg hlength] at hok ⊢
    exact ⟨fun k hk => decHexLoop_ok hok k (Nat.zero_le k) (by omega),
      fun k hk => decHexLoop_outside (.inr (by omega))⟩

end Decoding

/-! ## A packet -/

section Packet

variable {M : Type} {env : Env M} {s : Server M} {buf : Nat → Byte}

/-- Four bytes that were decoded are the word of their digits. -/
theorem wordOf_eq {digits data : Nat → Byte} {base : Nat}
    (h : ∀ j < 4, hexAt digits (base + j) = some (data j)) :
    wordOf (drop digits (2 * base)) = some (le32 (data 0) (data 1) (data 2) (data 3)) := by
  have hbyte (j : Nat) (hj : j < 4) :
      hexByte (drop digits (2 * base) (2 * j)) (drop digits (2 * base) (2 * j + 1)) = some (data j) := by
    rw [← h j hj, hexAt, drop, drop, Nat.mul_add, Nat.add_assoc]
  rw [wordOf, hbyte 0 (by decide), Option.bind_some, hbyte 1 (by decide), Option.bind_some,
    hbyte 2 (by decide), Option.bind_some, hbyte 3 (by decide), Option.map_some]

theorem drop_drop (buf : Nat → Byte) (a b : Nat) : drop (drop buf a) b = drop buf (a + b) := by
  funext i
  rw [drop, drop, drop, Nat.add_assoc]

theorem putFrom_eq_iff {regs after : Nat → Byte} {pos : Nat} :
    putFrom regs pos after = regs ↔ after = drop regs pos := by
  constructor
  · intro h
    funext i
    have hat := congrFun h (pos + i)
    rwa [putFrom, if_neg (by omega), Nat.add_sub_cancel_left] at hat
  · intro h
    funext i
    rw [putFrom, h, drop]
    split
    · rfl
    · rw [Nat.add_sub_cancel' (by omega)]

theorem given_writeRegisters {start length : Nat} {n : Nat}
    (hok : (written env s buf (.writeRegisters start length)).1 = .ok n) {i : Nat}
    (hi : i < DBG_CPU_I386_NUM_REGISTERS) : given buf (.writeRegisters start length) i =
      some (reg (written env s buf (.writeRegisters start length)).2 i) := by
  have hbytes := (decHex_ok hok).1
  unfold DBG_CPU_I386_NUM_REGISTERS at hi
  have hat : ∀ j < 4, hexAt (drop buf start) (4 * i + j) =
      some (drop (written env s buf (.writeRegisters start length)).2 (4 * i) j) :=
    fun j hj => hbytes (4 * i + j) (by omega)
  have hword := wordOf_eq hat
  rw [drop_drop, show start + 2 * (4 * i) = start + 8 * i by omega] at hword
  exact (if_pos hi).trans hword

theorem putFrom_add (regs after : Nat → Byte) (pos k : Nat) : putFrom regs pos after (pos + k) = after k := by
  rw [putFrom, if_neg (by omega), Nat.add_sub_cancel_left]

theorem written_writeRegister {addr start length : Nat} {n : Nat}
    (hok : (written env s buf (.writeRegister addr start length)).1 = .ok n) :
    wordOf (drop buf start) = some (reg (written env s buf (.writeRegister addr start length)).2 addr) ∧
      ∀ i, i ≠ addr → reg (written env s buf (.writeRegister addr start length)).2 i = reg s.registers i := by
  obtain ⟨hbytes, hrest⟩ := decHex_ok hok
  have hafter : (written env s buf (.writeRegister addr start length)).2 = putFrom s.registers (4 * addr)
      (dbgDecHex env.asserts (drop buf start) length (drop s.registers (4 * addr)) 4).2 := rfl
  rw [hafter]
  generalize (dbgDecHex env.asserts (drop buf start) length (drop s.registers (4 * addr)) 4).2 = after at *
  constructor
  · have hword : wordOf (drop (drop buf start) (2 * 0)) =
        some (le32 (after 0) (after 1) (after 2) (after 3)) := by
      refine wordOf_eq fun j hj => ?_
      rw [Nat.zero_add]
      exact hbytes j hj
    rw [drop_drop, Nat.mul_zero, Nat.add_zero] at hword
    have hfirst := putFrom_add s.registers after (4 * addr) 0
    rw [Nat.add_zero] at hfirst
    rw [hword, reg, hfirst, putFrom_add, putFrom_add, putFrom_add]
  · intro i hi
    have hsame (j : Nat) (hj : j < 4) :
        putFrom s.registers (4 * addr) after (4 * i + j) = s.registers (4 * i + j) := by
      rw [putFrom]
      split
      · rfl
      · rw [hrest _ (by omega), drop, Nat.add_sub_cancel' (by omega)]
    rw [reg, hsame 1 (by decide), hsame 2 (by decide), hsame 3 (by decide)]
    have hzero := hsame 0 (by decide)
    rw [Nat.add_zero] at hzero
    rw [hzero, reg]

/-- A packet is written as its reply says exactly when its digits fit. -/
theorem writeOk_iff (command : Command) : WriteOk env s buf command ↔ WriteFits env s buf command := by
  cases command with
  | writeRegisters start length =>
    refine Iff.trans (and_iff_right fun hok i hi => ?_) decHex_eof_iff
    obtain ⟨n, hok⟩ := hok
    rw [given_writeRegisters hok hi, Option.getD_some]
  | writeRegister addr start length =>
    have heof : (written env s buf (.writeRegister addr start length)).2 = s.registers ↔
        (dbgDecHex env.asserts (drop buf start) length (drop s.registers (4 * addr)) 4).2 =
          drop s.registers (4 * addr) := putFrom_eq_iff
    rw [WriteOk, heof]
    refine Iff.trans (and_iff_right fun hok i _ => ?_) decHex_eof_iff
    obtain ⟨n, hok⟩ := hok
    obtain ⟨hword, hother⟩ := written_writeRegister hok
    have hgiven : given buf (.writeRegister addr start length) i =
        if i = addr then wordOf (drop buf start) else none := rfl
    rw [hgiven]
    split
    · next hi => rw [hi, hword, Option.getD_some]
    · next hi => rw [Option.getD_none, hother i hi]
  | _ => exact iff_of_true ⟨fun _ _ _ => rfl, nofun⟩ trivial

end Packet

/-! ## A turn -/

section Turns

variable {M : Type} {env : Env M} {s : Server M} {buf : Nat → Byte}

/-- The loop goes on with these registers, or is left at the reply. -/
structure Settles (registers : Nat → Byte) (o : Option (Outcome M)) : Prop where
  next : ∀ t after, o = some (.next t after) → t.registers = registers
  exit : ∀ code t, o = some (.exit code t) → code = EOF

theorem settles_aborted (registers : Nat → Byte) : Settles registers (none : Option (Outcome M)) :=
  ⟨nofun, nofun⟩

theorem afterReply_settles (status : Status) (p : Peer) : Settles s.registers (afterReply s buf status p) := by
  cases status with
  | ok n =>
    refine ⟨fun t after h => ?_, nofun⟩
    cases h
    rfl
  | eof =>
    refine ⟨nofun, fun code t h => ?_⟩
    cases h
    rfl
  | aborted => exact settles_aborted _

theorem sendReply_settles (data : Nat → Byte) (len : Nat) : Settles s.registers (sendReply s buf data len) :=
  afterReply_settles _ _

theorem sendError_settles : Settles s.registers (sendError s buf) := by
  refine ⟨fun t after h => ?_, nofun⟩
  cases h
  rfl

theorem sendEncoded_settles (encoded : Status × (Nat → Byte)) :
    Settles s.registers (sendEncoded s encoded) := by
  obtain ⟨n | _ | _, after⟩ := encoded
  · exact sendReply_settles after n
  · exact sendError_settles
  · exact settles_aborted _

theorem sendDecoded_settles (decoded : Status × (Nat → Byte)) :
    Settles decoded.2 (sendDecoded s buf decoded) := by
  obtain ⟨n | _ | _, registers⟩ := decoded
  · exact afterReply_settles (s := { s with registers := registers }) _ _
  · exact sendError_settles (s := { s with registers := registers })
  · exact settles_aborted registers

theorem execute_settles {command : Command} (h : Command.resumes command = false) :
    Settles (written env s buf command).2 (execute env s buf command) := by
  cases command with
  | readRegisters =>
    rw [execute]
    exact sendEncoded_settles (s := s) _
  | writeRegisters start length => exact sendDecoded_settles _
  | readRegister addr =>
    rw [execute]
    exact sendEncoded_settles (s := s) _
  | writeRegister addr start length => exact sendDecoded_settles (_, _)
  | readMemory addr length => exact sendEncoded_settles (s := s) _
  | writeMemory dec addr length start count =>
    rw [execute]
    obtain ⟨n | _ | _, memory⟩ := dbgMemWrite env (drop buf start) count addr length dec s.memory
    · exact afterReply_settles (s := { s with memory := memory }) _ _
    · exact sendError_settles (s := { s with memory := memory })
    · exact settles_aborted _
  | «continue» | step => cases h
  | signal => exact afterReply_settles (s := s) _ _
  | unsupported =>
    rw [execute]
    exact sendReply_settles (s := s) _ _

theorem sendDecoded_aborted {decoded : Status × (Nat → Byte)} (h : decoded.1 = .aborted) :
    sendDecoded s buf decoded = none := by
  obtain ⟨status, registers⟩ := decoded
  cases h
  rfl

/-- An assertion that fails ends the program. -/
theorem execute_aborted {command : Command} (h : (written env s buf command).1 = .aborted) :
    execute env s buf command = none := by
  cases command with
  | writeRegisters start length =>
    rw [written] at h
    rw [execute]
    exact sendDecoded_aborted h
  | writeRegister addr start length =>
    rw [written] at h
    rw [execute]
    exact sendDecoded_aborted h
  | _ => cases h

theorem written_peer (p : Peer) (command : Command) :
    written env { s with peer := p } buf command = written env s buf command := by
  cases command <;> rfl

theorem mainTurn_command {command : Command} {after : Nat → Byte}
    (h : turnCommand env s buf = some (command, after)) :
    ∃ p, mainTurn env s buf = execute env { s with peer := p } after command := by
  rw [turnCommand] at h
  split at h
  · next n filled p hrecv =>
    split at h
    · cases h
    · next hzero =>
      obtain ⟨parsed, hparse, heq⟩ := Option.map_eq_some_iff.mp h
      obtain ⟨c, next⟩ := parsed
      obtain ⟨rfl, rfl⟩ := Prod.mk.inj heq
      refine ⟨p, ?_⟩
      rw [mainTurn_packet hrecv, handlePacket, if_neg hzero, hparse]
  · cases h

/-- A turn without a command changes no register, and leaves with the code 0 if it leaves. -/
theorem mainTurn_none (h : turnCommand env s buf = none) :
    (∀ t after, mainTurn env s buf = some (.next t after) → t.registers = s.registers) ∧
      ∀ code t, mainTurn env s buf = some (.exit code t) → code = 0 ∧ t.registers = s.registers := by
  rw [turnCommand] at h
  split at h
  · next n filled p hrecv =>
    rw [mainTurn_packet hrecv, handlePacket]
    split at h
    · next hzero =>
      rw [if_pos hzero]
      refine ⟨fun t after heq => ?_, fun code t heq => ?_⟩
      · cases heq
        rfl
      · cases heq
    · next hzero =>
      have hparse := Option.map_eq_none_iff.mp h
      rw [if_neg hzero, hparse]
      refine ⟨fun t after heq => ?_, fun code t heq => (sendError_noExit code t heq).elim⟩
      exact (sendError_settles (s := { s with peer := p })).next t after heq
  · next hno =>
    generalize hrecv : dbgRecvPacket env.asserts buf pktBufLen s.peer = r at hno
    obtain ⟨_ | _ | _, p⟩ := r
    · exact (hno _ _ _ rfl).elim
    · rw [mainTurn_eof hrecv]
      refine ⟨fun t after heq => ?_, fun code t heq => ?_⟩
      · cases heq
      · cases heq
        exact ⟨rfl, rfl⟩
    · rw [mainTurn, hrecv]
      refine ⟨fun t after heq => ?_, fun code t heq => ?_⟩
      · cases heq
      · cases heq

/-! ## The values last written -/

variable {last : Nat → Option Word}

/-- The copy has the values last written. -/
def Carries (last : Nat → Option Word) (registers : Nat → Byte) : Prop :=
  ∀ i < DBG_CPU_I386_NUM_REGISTERS, ∀ v, last i = some v → reg registers i = v

theorem noted_none (h : turnCommand env s buf = none) : noted env s buf last = last := by
  rw [noted, h]

theorem noted_ok {command : Command} {after : Nat → Byte} {n : Nat}
    (h : turnCommand env s buf = some (command, after)) (hok : (written env s after command).1 = .ok n) :
    noted env s buf last = fun i => (given after command i).or (last i) := by
  rw [noted, h]
  dsimp only
  rw [hok]

theorem noted_eof {command : Command} {after : Nat → Byte}
    (h : turnCommand env s buf = some (command, after)) (heof : (written env s after command).1 = .eof) :
    noted env s buf last = last := by
  rw [noted, h]
  dsimp only
  rw [heof]

/-- A turn whose packet is written as its reply says keeps the copy. -/
theorem carries_next (hcarries : Carries last s.registers)
    (hok : ∀ command after, turnCommand env s buf = some (command, after) → WriteOk env s after command)
    {t : Server M} {after : Nat → Byte} (hnext : mainTurn env s buf = some (.next t after)) :
    Carries (noted env s buf last) t.registers := by
  cases hcommand : turnCommand env s buf with
  | none =>
    rw [noted_none hcommand, (mainTurn_none hcommand).1 t after hnext]
    exact hcarries
  | some packet =>
    obtain ⟨command, filled⟩ := packet
    obtain ⟨p, hturn⟩ := mainTurn_command hcommand
    have hexec := hturn.symm.trans hnext
    have hresumes : Command.resumes command = false := by
      cases command with
      | «continue» | step => cases hexec
      | _ => rfl
    have hregisters : t.registers = (written env s filled command).2 := by
      rw [(execute_settles hresumes).next t after hexec, written_peer]
    rw [hregisters]
    obtain ⟨hwritten, hfailed⟩ := hok command filled hcommand
    cases hstatus : (written env s filled command).1 with
    | ok n =>
      rw [noted_ok hcommand hstatus]
      intro i hi v hv
      have hvalue : (given filled command i).or (last i) = some v := hv
      rw [hwritten ⟨n, hstatus⟩ i hi]
      cases hgiven : given filled command i with
      | some w =>
        rw [hgiven, Option.some_or] at hvalue
        exact Option.some.inj hvalue
      | none =>
        rw [hgiven, Option.none_or] at hvalue
        exact hcarries i hi v hvalue
    | eof =>
      rw [noted_eof hcommand hstatus, hfailed hstatus]
      exact hcarries
    | aborted =>
      rw [← written_peer p] at hstatus
      rw [execute_aborted hstatus] at hexec
      cases hexec

/-- Along a session whose packets are written as their replies say, the copy has the values last
written. -/
theorem carries_reached {R : Type} {b : Backend R} {signal : Int} {regs : R} {a : State M}
    (hreached : Reached env b signal regs s buf a)
    (hok : ∀ a, Reached env b signal regs s buf a → ∀ command after,
      turnCommand env a.server a.buf = some (command, after) → WriteOk env a.server after command) :
    Carries a.last a.server.registers := by
  obtain ⟨t, after, hstart, hsteps⟩ := hreached
  induction hsteps with
  | refl => exact nofun
  | tail hbefore hstep ih =>
    have hcarries := ih
    rw [hstep.2]
    exact carries_next hcarries (hok _ ⟨t, after, hstart, hbefore⟩) hstep.1

end Turns

/-! ## Leaving the loop -/

section Leaving

theorem setReg_byte (registers : Nat → Byte) (i j k : Nat) (value : Word) (hk : k < 4) :
    setReg registers i value (4 * j + k) = if j = i then leBytes [value] k else registers (4 * j + k) := by
  rw [setReg, put]
  obtain hlt | rfl | hgt := Nat.lt_trichotomy j i
  · rw [if_neg (by omega), if_neg (by omega)]
  · rw [if_pos (by omega), if_pos rfl, Nat.add_sub_cancel_left, List.getElem?_map,
      List.getElem?_range hk, Option.map_some, Option.getD_some]
  · rw [if_pos (by omega), if_neg (by omega), List.getElem?_eq_none, Option.getD_none]
    rw [List.length_map, List.length_range]
    omega

theorem reg_setReg (registers : Nat → Byte) (i j : Nat) (value : Word) :
    reg (setReg registers i value) j = if j = i then value else reg registers j := by
  have hfirst := setReg_byte registers i j 0 value (by decide)
  rw [Nat.add_zero] at hfirst
  rw [reg, hfirst, setReg_byte _ _ _ _ _ (by decide), setReg_byte _ _ _ _ _ (by decide),
    setReg_byte _ _ _ _ _ (by decide)]
  split
  · exact le32_leBytes [value] 0
  · rfl

theorem clear_or (x t : Word) : x &&& ~~~t ||| t = x ||| t := by
  apply ext32
  intro i hi
  rw [BitVec.getLsbD_or, BitVec.getLsbD_and, BitVec.getLsbD_not, BitVec.getLsbD_or, decide_eq_true hi]
  cases t.getLsbD i
  · rw [Bool.not_false, Bool.and_true, Bool.and_true]
  · rw [Bool.or_true, Bool.or_true]

theorem same_refl (i : Nat) (v : Word) : Same i v v := by
  unfold Same
  split <;> rfl

theorem same_setReg {registers : Nat → Byte} {value : Word}
    (h : value ||| trapFlag = reg registers DBG_CPU_I386_REG_PS ||| trapFlag) (i : Nat) :
    Same i (reg (setReg registers DBG_CPU_I386_REG_PS value) i) (reg registers i) := by
  rw [reg_setReg, Same]
  split
  · next hi => rw [hi, h]
  · rfl

/-- A command that resumes changes the trap flag, and nothing else. -/
theorem same_continue (registers : Nat → Byte) (i : Nat) :
    Same i (reg (dbgSysContinue registers) i) (reg registers i) :=
  same_setReg (clear_or _ trapFlag) i

theorem same_step (registers : Nat → Byte) (i : Nat) :
    Same i (reg (dbgSysStep registers) i) (reg registers i) := by
  refine same_setReg ?_ i
  exact (BitVec.or_assoc _ trapFlag trapFlag).trans (congrArg _ (BitVec.or_self))

/-! ### The copy back -/

section Places

variable {i : Nat} {q : General}

/-- The general registers stand first in the list. -/
theorem cpuRegs_general (h : cpuRegs[i]? = some (.general q)) : generals[i]? = some q := by
  rw [cpuRegs] at h
  by_cases hi : i < 10
  · rw [List.getElem?_append_left (by exact hi), List.getElem?_map, Option.map_eq_some_iff] at h
    obtain ⟨p, hp, hq⟩ := h
    rw [hp, CpuReg.general.inj hq]
  · rw [List.getElem?_append_right (Nat.le_of_not_lt hi)] at h
    have hmem := List.mem_of_getElem? h
    simp at hmem

theorem generals_ps (h : generals[i]? = some q) (hi : i = DBG_CPU_I386_REG_PS) : q = .eflags := by
  rw [hi] at h
  exact (Option.some.inj h).symm

theorem cpuRegs_other {r : CpuReg} (h : cpuRegs[i]? = some r) (hr : ∀ q, r ≠ .general q) :
    i ≠ DBG_CPU_I386_REG_PS := by
  intro hi
  rw [hi] at h
  exact hr .eflags (Option.some.inj h).symm

theorem cpuRegs_lt {r : CpuReg} (h : cpuRegs[i]? = some r) : i < DBG_CPU_I386_NUM_REGISTERS :=
  (List.getElem?_eq_some_iff.mp h).1

end Places

section Restore

variable {R : Type} {b : Backend R} (holds : Holds b) (mem : GuestEntry)

include holds

theorem writeAll_other {r : CpuReg} (l : List (General × Word)) (h : ∀ p ∈ l, r ≠ .general p.1) (regs : R) :
    b.read r (writeAll b mem (l.map fun p => (.general p.1, p.2)) regs) = b.read r regs := by
  induction l generalizing regs with
  | nil => rfl
  | cons p l ih =>
    obtain ⟨next, hwrite, -, hother⟩ := holds.write_general mem p.1 p.2 regs
    rw [List.map_cons, writeAll, hwrite]
    dsimp only
    rw [ih (fun q hq => h q (List.mem_cons_of_mem p hq)), hother r (h p List.mem_cons_self)]

theorem writeAll_same {q : General} {v : Word} (l : List (General × Word)) (hmem : (q, v) ∈ l)
    (hnodup : (l.map Prod.fst).Nodup) (regs : R) :
    b.read (.general q) (writeAll b mem (l.map fun p => (.general p.1, p.2)) regs) =
      some (holds.stored q v) := by
  induction l generalizing regs with
  | nil => cases hmem
  | cons p l ih =>
    obtain ⟨next, hwrite, hsame, -⟩ := holds.write_general mem p.1 p.2 regs
    rw [List.map_cons, List.nodup_cons] at hnodup
    rw [List.map_cons, writeAll, hwrite]
    dsimp only
    obtain rfl | hmem := List.mem_cons.mp hmem
    · rw [writeAll_other holds mem l (fun r hr heq => hnodup.1 ?_) next]
      · exact hsame
      · exact List.mem_map.mpr ⟨r, hr, (CpuReg.general.inj heq).symm⟩
    · exact ih hmem hnodup.2 next

omit holds in
/-- The writes of a restore are those of the general registers. -/
theorem restoreRegisters_eq (registers : Nat → Byte) (regs : R) :
    restoreRegisters b mem registers regs = writeAll b mem
      ((generals.zipIdx.map fun r => (r.1, reg registers r.2)).map fun p => (.general p.1, p.2)) regs := by
  rw [restoreRegisters, List.map_map]
  rfl

theorem read_restored_other {r : CpuReg} (h : ∀ q, r ≠ .general q) (registers : Nat → Byte) (regs : R) :
    b.read r (restoreRegisters b mem registers regs) = b.read r regs := by
  rw [restoreRegisters_eq]
  exact writeAll_other holds mem _ (fun p _ => h p.1) regs

theorem read_restored_general {q : General} {i : Nat} (hq : generals[i]? = some q) (registers : Nat → Byte)
    (regs : R) :
    b.read (.general q) (restoreRegisters b mem registers regs) =
      some (holds.stored q (reg registers i)) := by
  have hfirst : (generals.zipIdx.map fun r => (r.1, reg registers r.2)).map Prod.fst = generals := by
    rw [List.map_map]
    exact List.zipIdx_map_fst 0 generals
  rw [restoreRegisters_eq]
  refine writeAll_same holds mem _ ?_ ?_ regs
  · exact List.mem_map_of_mem (f := fun r => (r.1, reg registers r.2))
      (List.mk_mem_zipIdx_iff_getElem?.mpr hq)
  · rw [hfirst]
    decide

theorem same_stored_iff {q : General} {i : Nat} (hq : i = DBG_CPU_I386_REG_PS → q = .eflags) {x v : Word}
    (h : Same i x v) : Same i (holds.stored q x) v ↔ Same i (holds.stored q v) v := by
  unfold Same at *
  split at h
  · next hi =>
    rw [if_pos hi, if_pos hi, hq hi, holds.stored_trap x, holds.stored_trap v, h]
  · rw [h]

/-- A copy with the values last written restores them exactly when the back-end stores them, or has
them. -/
theorem agrees_restored_iff {registers : Nat → Byte} {regs : R} {last : Nat → Option Word}
    (hcopy : ∀ i < DBG_CPU_I386_NUM_REGISTERS, ∀ v, last i = some v → Same i (reg registers i) v) :
    Agrees b (restoreRegisters b mem registers regs) last ↔ Restores b holds regs last := by
  refine forall_congr' fun i => forall_congr' fun r => forall_congr' fun v => ?_
  refine forall_congr' fun hr => forall_congr' fun hv => ?_
  by_cases hgeneral : ∃ q, r = .general q
  · obtain ⟨q, rfl⟩ := hgeneral
    have hq := cpuRegs_general hr
    have hsame : Same i (reg registers i) v := hcopy i (cpuRegs_lt hr) v hv
    rw [read_restored_general holds mem hq]
    dsimp only
    rw [← same_stored_iff holds (generals_ps hq) hsame]
    constructor
    · intro h
      obtain ⟨w, hw, hagrees⟩ := h
      rw [Option.some.inj hw]
      exact hagrees
    · intro h
      exact ⟨_, rfl, h⟩
  · have hother : ∀ q, r ≠ .general q := fun q heq => hgeneral ⟨q, heq⟩
    have hwhole (w : Word) : Same i w v ↔ w = v := by rw [Same, if_neg (cpuRegs_other hr hother)]
    rw [read_restored_other holds mem hother]
    cases r with
    | general q => exact absurd rfl (hother q)
    | _ =>
      dsimp only
      constructor
      · intro h
        obtain ⟨w, hw, hagrees⟩ := h
        rw [hw, (hwhole w).mp hagrees]
      · intro h
        exact ⟨v, h, same_refl i v⟩

end Restore

section Exit

variable {M R : Type} {env : Env M} {s : Server M} {buf : Nat → Byte} {b : Backend R} {last : Nat → Option Word}
  {code : Int} {t : Server M}

/-- Left at the reply to a packet. -/
theorem exit_atReply (hexit : mainTurn env s buf = some (.exit code t)) (hreply : AtReply env s buf) :
    code = EOF := by
  obtain ⟨command, after, hcommand, hresumes⟩ := hreply
  obtain ⟨p, hturn⟩ := mainTurn_command hcommand
  exact (execute_settles hresumes).exit code t (hturn.symm.trans hexit)

/-- Left for another reason. -/
theorem exit_zero (hexit : mainTurn env s buf = some (.exit code t)) (hreply : ¬ AtReply env s buf) :
    code = 0 ∧ noted env s buf last = last ∧ ∀ i, Same i (reg t.registers i) (reg s.registers i) := by
  cases hcommand : turnCommand env s buf with
  | none =>
    obtain ⟨hcode, hregisters⟩ := (mainTurn_none hcommand).2 code t hexit
    refine ⟨hcode, noted_none hcommand, fun i => ?_⟩
    rw [hregisters]
    exact same_refl i _
  | some packet =>
    obtain ⟨command, after⟩ := packet
    obtain ⟨p, hturn⟩ := mainTurn_command hcommand
    have hexec := hturn.symm.trans hexit
    have hresumes : Command.resumes command = true := by
      by_contra hno
      exact hreply ⟨command, after, hcommand, Bool.eq_false_of_not_eq_true hno⟩
    have hnoted : noted env s buf last = last := by
      cases command with
      | «continue» | step => exact noted_ok hcommand rfl
      | _ => cases hresumes
    cases command with
    | «continue» =>
      cases hexec
      exact ⟨rfl, hnoted, same_continue s.registers⟩
    | step =>
      cases hexec
      exact ⟨rfl, hnoted, same_step s.registers⟩
    | _ => cases hresumes

/-- The CPU resumes with the values last written exactly when they can be restored, or are there. -/
theorem leaves_iff (holds : Holds b) (mem : GuestEntry) (regs : R) (hcarries : Carries last s.registers)
    (hexit : mainTurn env s buf = some (.exit code t)) :
    Agrees b (resumed b mem code t.registers regs) (noted env s buf last) ↔
      (AtReply env s buf → Agrees b regs (noted env s buf last)) ∧
        (¬ AtReply env s buf → Restores b holds regs (noted env s buf last)) := by
  by_cases hreply : AtReply env s buf
  · rw [exit_atReply hexit hreply, resumed, if_neg (by decide)]
    exact ⟨fun h => ⟨fun _ => h, fun hno => absurd hreply hno⟩, fun h => h.1 hreply⟩
  · have hzero : code = 0 ∧ noted env s buf last = last ∧ _ := exit_zero hexit hreply
    obtain ⟨hcode, hnoted, hsame⟩ := hzero
    rw [hcode, resumed, if_pos rfl, hnoted]
    have hcopy (i : Nat) (hi : i < DBG_CPU_I386_NUM_REGISTERS) (v : Word) (hv : last i = some v) :
        Same i (reg t.registers i) v := by
      rw [← hcarries i hi v hv]
      exact hsame i
    rw [agrees_restored_iff holds mem hcopy]
    exact ⟨fun h => ⟨fun hno => absurd hno hreply, fun _ => h⟩, fun h => h.2 hreply⟩

end Exit

end Leaving

/-! ## The result -/

section Result

variable {M R : Type}

/-- The packets of a session that write registers do what their replies say, and the CPU resumes with
the values last written, exactly when the packets fit and the values can be restored. -/
theorem register_writes_ok_iff (env : Env M) (b : Backend R) (holds : Holds b) (mem : GuestEntry)
    (signal : Int) (regs : R) (s : Server M) (buf : Nat → Byte) :
    SessionOk env b mem signal regs s buf ↔ SessionFits env b holds signal regs s buf := by
  have hwrite (a : State M) : (∀ command after, turnCommand env a.server a.buf = some (command, after) →
      WriteOk env a.server after command) ↔
      ∀ command after, turnCommand env a.server a.buf = some (command, after) →
        WriteFits env a.server after command :=
    forall_congr' fun command => forall_congr' fun after => imp_congr_right fun _ => writeOk_iff command
  constructor
  · intro h a hreached
    have hcarries := carries_reached hreached fun a hreached => (h a hreached).1
    exact ⟨(hwrite a).mp (h a hreached).1, fun code t hexit =>
      (leaves_iff holds mem regs hcarries hexit).mp ((h a hreached).2 code t hexit)⟩
  · intro h a hreached
    have hcarries := carries_reached hreached fun a hreached => (hwrite a).mpr (h a hreached).1
    exact ⟨(hwrite a).mpr (h a hreached).1, fun code t hexit =>
      (leaves_iff holds mem regs hcarries hexit).mpr ((h a hreached).2 code t hexit)⟩

/-- A CPU whose registers are all zero. -/
def sampleRegs : OpenXbox.Cpu.Registers.KvmRegs :=
  ⟨fun _ => 0, fun _ => ⟨0, 0, 0, 0, 0, 0, 0, 0, 0, 0, 0⟩, fun _ => 0, ⟨0, 0⟩, ⟨0, 0⟩⟩

/-- A client that writes 1 to CS and continues. -/
def segmentWrite : Server Unit :=
  sampleServer ((['+'] ++ "$Pa=01000000#6f".toList ++ ['+'] ++ "$c#63".toList).map char)

/-- The write is confirmed, and CS is not restored. -/
theorem segment_write_lost :
    ¬ ∀ (env : Env Unit) (s : Server Unit) (buf : Nat → Byte),
      SessionOk env kvm (fun _ _ => 0) 1 sampleRegs s buf := by
  intro h
  have hok := h sampleEnv segmentWrite fun _ => 0
  obtain ⟨a, hreached, hlast, hexit⟩ : ∃ a : State Unit,
      Reached sampleEnv kvm 1 sampleRegs segmentWrite (fun _ => 0) a ∧
        noted sampleEnv a.server a.buf a.last 10 = some 1 ∧
        ∃ t, mainTurn sampleEnv a.server a.buf = some (.exit 0 t) :=
    ⟨⟨_, _, _⟩, ⟨_, _, rfl, .single ⟨rfl, rfl⟩⟩, rfl, _, rfl⟩
  obtain ⟨t, hexit⟩ := hexit
  obtain ⟨w, hread, hsame⟩ := (hok a hreached).2 0 t hexit 10 (.segment .cs) 1 rfl hlast
  rw [resumed, if_pos rfl, read_restored_other kvmHolds _ (fun q => CpuReg.noConfusion)] at hread
  cases hread
  rw [Same, if_neg (by decide)] at hsame
  exact absurd hsame (by decide)

end Result

end OpenXbox.Gdb.RegisterWrites
