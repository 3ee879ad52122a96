import OpenXbox.Lib.Buffer
import Mathlib.Data.BitVec

/-!
# The connection of the GDB server

What the client sends before it closes is a list; what the server sends is another. A
character is a signed byte, so that the byte `0xFF` is received as `EOF`.
-/

namespace OpenXbox.Gdb.Transport

open OpenXbox.Lib.Buffer

abbrev Byte := BitVec 8

/-- The character's code. -/
def char (c : Char) : Byte := BitVec.ofNat 8 c.toNat

def EOF : Int := -1

/-- How a call ends: with a number, with `EOF`, or not at all, when an assertion fails. -/
inductive Status where
  | ok (n : Nat)
  | eof
  | aborted
deriving DecidableEq

/-- The connection. `accepts` says which of the coming sends succeed, and `lost` remembers that a send
has failed or that the server has come to the end of what the client sends. -/
structure Peer where
  input : List Byte
  output : List Byte
  accepts : Nat → Bool
  lost : Bool

/-- A connection that takes all that is sent. -/
def Peer.open (input : List Byte) : Peer := ⟨input, [], fun _ => true, false⟩

def dbgSysGetc (p : Peer) : Int × Peer :=
  match p.input with
  | [] => (EOF, { p with lost := true })
  | b :: rest => (b.toInt, { p with input := rest })

/-- Whether the character was sent. -/
def dbgSysPutchar (ch : Byte) (p : Peer) : Bool × Peer :=
  let next := { p with accepts := fun n => p.accepts (n + 1) }
  if p.accepts 0 then (true, { next with output := p.output ++ [ch] })
  else (false, { next with lost := true })

/-- Whether the characters at `buf` were all sent. -/
def dbgWrite (buf : Nat → Byte) : Nat → Peer → Bool × Peer
  | 0, p => (true, p)
  | len + 1, p =>
    match dbgSysPutchar (buf 0) p with
    | (false, p) => (false, p)
    | (true, p) => dbgWrite (fun i => buf (i + 1)) len p

/-- The characters read, or `none` on `EOF`. -/
def dbgRead : Nat → Peer → Option (List Byte) × Peer
  | 0, p => (some [], p)
  | len + 1, p =>
    let (c, p) := dbgSysGetc p
    if c = EOF then (none, p)
    else
      match dbgRead len p with
      | (none, p) => (none, p)
      | (some cs, p) => (some (BitVec.ofInt 8 c :: cs), p)

def dbgRecvAck (p : Peer) : Status × Peer :=
  let (response, p) := dbgSysGetc p
  if response = (char '+').toInt then (.ok 0, p)
  else if response = (char '-').toInt then (.ok 1, p)
  else (.eof, p)

/-! ## A connection that takes all that is sent -/

/-- Every send to come succeeds. -/
def Peer.Accepting (p : Peer) : Prop := ∀ n, p.accepts n = true

theorem putchar_accepting {p : Peer} (h : p.Accepting) (ch : Byte) :
    dbgSysPutchar ch p = (true, { p with output := p.output ++ [ch] }) := by
  have hshift : (fun n => p.accepts (n + 1)) = p.accepts := by
    funext n
    rw [h n, h (n + 1)]
  rw [dbgSysPutchar, h 0, if_pos rfl, hshift]

theorem write_accepting {p : Peer} (h : p.Accepting) (buf : Nat → Byte) (len : Nat) :
    dbgWrite buf len p = (true, { p with output := p.output ++ slice buf 0 len }) := by
  induction len generalizing buf p with
  | zero => simp [dbgWrite]
  | succ len ih =>
    have hnext : Peer.Accepting { p with output := p.output ++ [buf 0] } := h
    have hrest : slice (fun i => buf (i + 1)) 0 len = slice buf (0 + 1) len := by
      apply List.map_congr_left
      intro i _
      rw [Nat.zero_add, Nat.zero_add, Nat.add_comm]
    rw [dbgWrite, putchar_accepting h]
    dsimp only
    rw [ih hnext, slice_succ, hrest, List.append_assoc, List.singleton_append]

/-! ## Any connection -/

theorem putchar_sends {p : Peer} (h : p.accepts 0 = true) (ch : Byte) : dbgSysPutchar ch p =
    (true, { p with output := p.output ++ [ch], accepts := fun n => p.accepts (n + 1) }) := by
  rw [dbgSysPutchar, if_pos h]

theorem putchar_fails {p : Peer} (h : p.accepts 0 = false) (ch : Byte) :
    dbgSysPutchar ch p = (false, { p with accepts := fun n => p.accepts (n + 1), lost := true }) := by
  rw [dbgSysPutchar, h]
  rfl

/-- The sends of a text succeed. -/
theorem write_sends {len : Nat} {p : Peer} (h : ∀ k < len, p.accepts k = true) (buf : Nat → Byte) :
    ∃ output, dbgWrite buf len p =
      (true, { p with output := output, accepts := fun n => p.accepts (n + len) }) := by
  induction len generalizing buf p with
  | zero => exact ⟨p.output, rfl⟩
  | succ len ih =>
    rw [dbgWrite, putchar_sends (h 0 (Nat.succ_pos len))]
    exact ih (p := { p with output := p.output ++ [buf 0], accepts := fun n => p.accepts (n + 1) })
      (fun k hk => h (k + 1) (Nat.succ_lt_succ hk)) fun i => buf (i + 1)

/-- One of them fails. -/
theorem write_fails {len : Nat} {p : Peer} (h : ¬ ∀ k < len, p.accepts k = true) (buf : Nat → Byte) :
    ∃ q, dbgWrite buf len p = (false, q) ∧ q.lost = true := by
  induction len generalizing buf p with
  | zero => exact absurd (fun k hk => absurd hk (Nat.not_lt_zero k)) h
  | succ len ih =>
    rw [dbgWrite]
    cases hfirst : p.accepts 0 with
    | false =>
      rw [putchar_fails hfirst]
      exact ⟨_, rfl, rfl⟩
    | true =>
      rw [putchar_sends hfirst]
      refine ih (p := { p with output := p.output ++ [buf 0], accepts := fun n => p.accepts (n + 1) })
        (fun hrest => h fun k hk => ?_) fun i => buf (i + 1)
      cases k with
      | zero => exact hfirst
      | succ k => exact hrest k (Nat.lt_of_succ_lt_succ hk)

/-- What a character is received as when it is not that of `EOF`. -/
theorem toInt_ne_eof {b : Byte} (h : b ≠ 0xFF) : b.toInt ≠ EOF := by
  intro he
  apply h
  apply BitVec.eq_of_toInt_eq
  rw [he]
  rfl

theorem getc_cons {p : Peer} {b : Byte} {rest : List Byte} (h : p.input = b :: rest) :
    dbgSysGetc p = (b.toInt, { p with input := rest }) := by
  rw [dbgSysGetc, h]

theorem read_input {p : Peer} {cs rest : List Byte} (h : p.input = cs ++ rest)
    (hcs : ∀ c ∈ cs, c ≠ 0xFF) : dbgRead cs.length p = (some cs, { p with input := rest }) := by
  induction cs generalizing p with
  | nil =>
    obtain rfl : p.input = rest := h
    rfl
  | cons c cs ih =>
    rw [List.length_cons, dbgRead, getc_cons h]
    dsimp only
    rw [if_neg (toInt_ne_eof (hcs c List.mem_cons_self)),
      ih rfl fun d hd => hcs d (List.mem_cons_of_mem c hd)]
    dsimp only
    rw [BitVec.ofInt_toInt]

end OpenXbox.Gdb.Transport
