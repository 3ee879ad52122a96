import OpenXbox.Gdb.Stream
import Mathlib.Logic.Relation

/-!
# A session

`dbg_main` sends the signal and takes turns until it is left. The receiver has one code for an error
of the protocol and for the end of the connection, and the loop is left on it; so it is on the answer
to a reply that is neither an acknowledgement nor its negative.
-/

namespace OpenXbox.Gdb.Session

open OpenXbox.Lib.Buffer OpenXbox.Gdb.Transport OpenXbox.Gdb.Codec OpenXbox.Gdb.Packet
  OpenXbox.Gdb.Main OpenXbox.Gdb.OwnBytes OpenXbox.Gdb.Stream

variable {M : Type}

/-! ## The session and what it has to do -/

/-- The start of `dbg_main`, before its loop. -/
def mainStart (s : Server M) (buf : Nat → Byte) : Option (Outcome M) :=
  let (status, buf, p) := dbgSendSignalPacket buf pktBufLen 0 s.peer
  afterReply s buf status p

/-- A turn that stays in the loop. -/
def Turn (env : Env M) (a b : Server M × (Nat → Byte)) : Prop :=
  mainTurn env a.1 a.2 = some (.next b.1 b.2)

/-- A state at the head of the loop. -/
def AtLoop (env : Env M) (s : Server M) (buf : Nat → Byte) (a : Server M × (Nat → Byte)) : Prop :=
  ∃ b : Server M × (Nat → Byte), mainStart s buf = some (.next b.1 b.2) ∧
    Relation.ReflTransGen (Turn env) b a

/-- The connection is lost: a send has failed, or the server has come to the end of what the client
sends. -/
def Lost (t : Server M) : Prop := t.peer.lost = true

/-- A continue or a step command has come. -/
def Resumes (s t : Server M) : Prop :=
  ∃ noise data, incoming s.peer.input = .packet noise data t.peer.input ∧
    (data.head? = some (char 'c') ∨ data.head? = some (char 's'))

/-- A negative acknowledgement, and nothing else. -/
structure Refused (s t : Server M) (rest : List Byte) : Prop where
  input : t.peer.input = rest
  output : s.peer.accepts 0 = true → t.peer.output = s.peer.output ++ [char '-']
  registers : t.registers = s.registers
  memory : t.memory = s.memory

/-- A turn leaves the loop for a command to resume or with the connection lost only; after a bad packet it
goes on, which it has refused, unless the connection is lost. -/
def TurnOk (env : Env M) (s : Server M) (buf : Nat → Byte) : Prop :=
  (∀ code t, mainTurn env s buf = some (.exit code t) → Resumes s t ∨ Lost t) ∧
    ∀ rest, incoming s.peer.input = .bad rest →
      (∃ t after, mainTurn env s buf = some (.next t after) ∧ Refused s t rest) ∨
        ∃ code t, mainTurn env s buf = some (.exit code t) ∧ Lost t

def SessionOk (env : Env M) (s : Server M) (buf : Nat → Byte) : Prop :=
  (∀ code t, mainStart s buf = some (.exit code t) → Lost t) ∧
    ∀ a, AtLoop env s buf a → TurnOk env a.1 a.2

/-! ## When it does -/

/-- What comes after a reply acknowledges it, positively or not; or nothing comes any more. -/
def Acked (input : List Byte) : Prop :=
  input = [] ∨ input.head? = some (char '+') ∨ input.head? = some (char '-')

/-- The connection takes the next characters that are sent. -/
def Takes (p : Peer) (n : Nat) : Prop := ∀ k < n, p.accepts k = true

/-- The number of characters that are ready, if they are. -/
def size : Status → Option Nat
  | .ok n => some n
  | .eof | .aborted => none

/-- The length of the reply to a command, if it is no error. -/
def replyLength (env : Env M) (s : Server M) (buf : Nat → Byte) : Command → Option Nat
  | .readRegisters => size (dbgEncHex buf pktBufLen s.registers 64).1
  | .writeRegisters start length =>
    (size (dbgDecHex env.asserts (drop buf start) length s.registers 64).1).map fun _ => 2
  | .readRegister addr => size (dbgEncHex buf pktBufLen (drop s.registers (4 * addr)) 4).1
  | .writeRegister addr start length =>
    (size (dbgDecHex env.asserts (drop buf start) length (drop s.registers (4 * addr)) 4).1).map fun _ => 2
  | .readMemory addr length => size (dbgMemRead env s.memory buf pktBufLen addr length).1
  | .writeMemory dec addr length start count =>
    (size (dbgMemWrite env (drop buf start) count addr length dec s.memory).1).map fun _ => 2
  | .signal => some 3
  | .unsupported => some 0
  | .continue | .step => none

def Command.resumes : Command → Bool
  | .continue | .step => true
  | _ => false

/-- The packet is answered with a reply of this length that is no error. -/
def Replies (env : Env M) (s : Server M) (buf : Nat → Byte) (pktLen len : Nat) : Prop :=
  pktLen ≠ 0 ∧ ∃ command next, (parse buf pktLen 0).2 = some (command, next) ∧
    replyLength env s buf command = some len

/-- Unless the connection is lost already: the stream ends before a character is received as `EOF`, the
negative acknowledgement of a bad packet cannot be sent, no character of a good one is received as
`EOF`, and a reply that is no error is acknowledged when it can be sent, after the acknowledgement of
the packet. -/
def Fits (env : Env M) (s : Server M) (buf : Nat → Byte) : Prop :=
  match incoming s.peer.input with
  | .lost => Lost s ∨ 0xFF ∉ s.peer.input
  | .bad _ =>
    match refusal env.asserts s.peer.input with
    | .silent => Lost s
    | .nack => Lost s ∨ s.peer.accepts 0 = false
    | .aborts => False
  | .packet noise data rest => Lost s ∨ 0xFF ∉ noise ∧ 0xFF ∉ data ∧
    ∀ len, Replies env s (put buf 0 data) data.length len → Takes s.peer (len + 5) → Acked rest

def SessionFits (env : Env M) (s : Server M) (buf : Nat → Byte) : Prop :=
  (Lost s ∨ (Takes s.peer 7 → Acked s.peer.input)) ∧ ∀ a, AtLoop env s buf a → Fits env a.1 a.2

/-! ## Replies -/

section Reply

variable {env : Env M} {s : Server M} {buf : Nat → Byte} {p : Peer}

/-- The loop is left only with the connection lost. -/
def Stays (o : Option (Outcome M)) : Prop := ∀ code t, o = some (.exit code t) → Lost t

theorem stays_of_not_exit {o : Option (Outcome M)} (h : ∀ code t, o ≠ some (.exit code t)) : Stays o :=
  fun code t heq => absurd heq (h code t)

/-- `$`, the data and the checksum are sent, and an answer is waited for. -/
theorem sendPacket_sends {len : Nat} (h : Takes p (len + 4)) (data : Nat → Byte) :
    ∃ output accepts, dbgSendPacket data len p =
      dbgRecvAck { p with output := output, accepts := accepts } := by
  rw [dbgSendPacket, putchar_sends (h 0 (by omega))]
  dsimp only
  obtain ⟨output, hdata⟩ := write_sends
    (p := { p with output := p.output ++ [char '$'], accepts := fun n => p.accepts (n + 1) })
    (fun k (hk : k < len) => h (k + 1) (by omega)) data
  rw [hdata]
  dsimp only
  obtain ⟨output', htrailer⟩ := write_sends
    (p := { p with output := output, accepts := fun n => p.accepts (n + len + 1) })
    (fun k (hk : k < 3) => h (k + len + 1) (by omega)) (trailer (dbgChecksum data len))
  rw [htrailer]
  exact ⟨output', _, rfl⟩

/-- One of the characters is not sent. -/
theorem sendPacket_fails {len : Nat} (h : ¬ Takes p (len + 4)) (data : Nat → Byte) :
    ∃ q, dbgSendPacket data len p = (.eof, q) ∧ q.lost = true := by
  rw [dbgSendPacket]
  cases hfirst : p.accepts 0 with
  | false =>
    rw [putchar_fails hfirst]
    exact ⟨_, rfl, rfl⟩
  | true =>
    rw [putchar_sends hfirst]
    dsimp only
    by_cases hdata : ∀ k < len, p.accepts (k + 1) = true
    · obtain ⟨output, hwrite⟩ := write_sends
        (p := { p with output := p.output ++ [char '$'], accepts := fun n => p.accepts (n + 1) }) hdata data
      rw [hwrite]
      dsimp only
      have htrailer : ¬ ∀ k < 3, p.accepts (k + len + 1) = true := by
        refine fun hall => h fun k hk => ?_
        cases k with
        | zero => exact hfirst
        | succ k =>
          by_cases hlt : k < len
          · exact hdata k hlt
          · have heq : k + 1 = k - len + len + 1 := by omega
            rw [heq]
            exact hall (k - len) (by omega)
      obtain ⟨q, hfail, hlost⟩ := write_fails
        (p := { p with output := output, accepts := fun n => p.accepts (n + len + 1) }) htrailer
        (trailer (dbgChecksum data len))
      rw [hfail]
      exact ⟨q, rfl, hlost⟩
    · obtain ⟨q, hfail, hlost⟩ := write_fails
        (p := { p with output := p.output ++ [char '$'], accepts := fun n => p.accepts (n + 1) }) hdata data
      rw [hfail]
      exact ⟨q, rfl, hlost⟩

/-- The answer to a reply is taken for `EOF` with the connection up exactly when it is there and
acknowledges nothing. -/
theorem recvAck_iff (p : Peer) :
    (dbgRecvAck p).1 ≠ .aborted ∧
      (((dbgRecvAck p).1 = .eof → (dbgRecvAck p).2.lost = true) ↔ p.lost = true ∨ Acked p.input) := by
  obtain ⟨input, output, accepts, lost⟩ := p
  cases input with
  | nil => exact ⟨Status.noConfusion, iff_of_true (fun _ => rfl) (.inr (.inl rfl))⟩
  | cons c rest =>
    have hplus : c.toInt = (char '+').toInt ↔ c = char '+' := BitVec.toInt_inj
    have hminus : c.toInt = (char '-').toInt ↔ c = char '-' := BitVec.toInt_inj
    rw [dbgRecvAck, getc_cons rfl]
    dsimp only
    rw [Acked, or_iff_right (List.cons_ne_nil c rest), List.head?_cons, Option.some.injEq,
      Option.some.injEq]
    split
    · next h =>
      exact ⟨Status.noConfusion, iff_of_true Status.noConfusion (.inr (.inl (hplus.mp h)))⟩
    · next hno =>
      rw [hplus] at hno
      split
      · next h =>
        exact ⟨Status.noConfusion, iff_of_true Status.noConfusion (.inr (.inr (hminus.mp h)))⟩
      · next hno' =>
        rw [hminus] at hno'
        refine ⟨Status.noConfusion, ?_⟩
        rw [or_iff_left (not_or.mpr ⟨hno, hno'⟩)]
        exact ⟨fun h => h rfl, fun h _ => h⟩

theorem sendReply_stays_iff (data : Nat → Byte) (len : Nat) :
    Stays (sendReply s buf data len) ↔ Lost s ∨ (Takes s.peer (len + 4) → Acked s.peer.input) := by
  by_cases htakes : Takes s.peer (len + 4)
  · obtain ⟨output, accepts, hsend⟩ := sendPacket_sends htakes data
    obtain ⟨hreturns, hack⟩ := recvAck_iff { s.peer with output := output, accepts := accepts }
    have hgoal : Lost s ∨ (Takes s.peer (len + 4) → Acked s.peer.input) ↔
        s.peer.lost = true ∨ Acked s.peer.input :=
      or_congr_right ⟨fun h => h htakes, fun h _ => h⟩
    rw [sendReply, hsend, hgoal, ← hack]
    generalize dbgRecvAck { s.peer with output := output, accepts := accepts } = answer at hreturns ⊢
    obtain ⟨_ | _ | _, q⟩ := answer
    · exact iff_of_true (stays_of_not_exit fun _ _ => nofun) nofun
    · constructor
      · intro hstays _
        exact hstays EOF _ rfl
      · intro heof code t hexit
        cases hexit
        exact heof rfl
    · exact absurd rfl hreturns
  · obtain ⟨q, hsend, hlost⟩ := sendPacket_fails htakes data
    refine iff_of_true (fun code t hexit => ?_) (.inr fun h => absurd h htakes)
    rw [sendReply, hsend] at hexit
    cases hexit
    exact hlost

/-- The loop is not left. -/
def NoExit (o : Option (Outcome M)) : Prop := ∀ code t, o ≠ some (.exit code t)

theorem sendError_noExit : NoExit (sendError s buf) := nofun

theorem noExit_none : NoExit (none : Option (Outcome M)) := nofun

/-- A reply is sent from the same connection. -/
def IsReply (s : Server M) (len : Nat) (o : Option (Outcome M)) : Prop :=
  ∃ (t : Server M) (after data : Nat → Byte), t.peer = s.peer ∧ o = sendReply t after data len

/-- What the length of a reply means for the loop. -/
def Answers (s : Server M) : Option Nat → Option (Outcome M) → Prop
  | some len, o => IsReply s len o
  | none, o => NoExit o

theorem sendEncoded_answers (encoded : Status × (Nat → Byte)) :
    Answers s (size encoded.1) (sendEncoded s encoded) := by
  obtain ⟨n | _ | _, after⟩ := encoded
  · exact ⟨s, after, after, rfl, rfl⟩
  · exact sendError_noExit
  · exact noExit_none

theorem sendDecoded_answers (decoded : Status × (Nat → Byte)) :
    Answers s ((size decoded.1).map fun _ => 2) (sendDecoded s buf decoded) := by
  obtain ⟨n | _ | _, registers⟩ := decoded
  · exact ⟨{ s with registers := registers }, buf, okText, rfl, rfl⟩
  · exact sendError_noExit
  · exact noExit_none

/-- A command that does not resume sends a reply that is no error, or stays in the loop. -/
theorem execute_answers {command : Command} (h : Command.resumes command = false) :
    Answers s (replyLength env s buf command) (execute env s buf command) := by
  cases command with
  | readRegisters => exact sendEncoded_answers (dbgEncHex buf pktBufLen s.registers 64)
  | writeRegisters start length => exact sendDecoded_answers _
  | readRegister addr => exact sendEncoded_answers (dbgEncHex buf pktBufLen (drop s.registers (4 * addr)) 4)
  | writeRegister addr start length =>
    rw [replyLength, execute]
    generalize dbgDecHex env.asserts (drop buf start) length (drop s.registers (4 * addr)) 4 = decoded
    obtain ⟨status, after⟩ := decoded
    dsimp only
    exact sendDecoded_answers (status, _)
  | readMemory addr length => exact sendEncoded_answers (dbgMemRead env s.memory buf pktBufLen addr length)
  | writeMemory dec addr length start count =>
    rw [replyLength, execute]
    obtain ⟨n | _ | _, memory⟩ := dbgMemWrite env (drop buf start) count addr length dec s.memory
    · exact ⟨{ s with memory := memory }, buf, okText, rfl, rfl⟩
    · exact sendError_noExit
    · exact noExit_none
  | «continue» | step => cases h
  | signal =>
    obtain ⟨after, -, heq⟩ := sendCode_eq (char 'S') 0 buf s.peer
    refine ⟨s, after, after, rfl, ?_⟩
    rw [execute, dbgSendSignalPacket, heq]
    rfl
  | unsupported => exact ⟨s, buf, fun _ => 0, rfl, rfl⟩

end Reply

/-! ## Commands -/

section Parsing

variable {α β : Type} {Q : α → Prop} {x : Parse α}

/-- What a parser gives has a property. -/
def Yields (x : Parse α) (Q : α → Prop) : Prop := ∀ ptr a next, (x ptr).2 = some (a, next) → Q a

theorem yields_pure {a : α} (h : Q a) : Yields (pure a) Q := by
  intro ptr b next heq
  cases heq
  exact h

theorem yields_error : Yields goError Q := nofun

theorem yields_bind {y : Parse β} {f : β → Parse α} (h : ∀ b, Yields (f b) Q) : Yields (y >>= f) Q := by
  intro ptr a next heq
  rw [bind_apply] at heq
  split at heq
  · cases heq
  · next b mid _ => exact h b mid a next heq

theorem yields_ite {c : Prop} [Decidable c] {y : Parse α} (hx : c → Yields x Q) (hy : ¬ c → Yields y Q) :
    Yields (if c then x else y) Q := by
  split
  · next hc => exact hx hc
  · next hc => exact hy hc

variable {buf : Nat → Byte} {pktLen : Nat}

theorem parseRegister_yields :
    Yields (parseRegister buf pktLen) fun command => Command.resumes command = false :=
  yields_bind fun _ => yields_bind fun _ => yields_ite (fun _ => yields_error) fun _ => yields_pure rfl

theorem parseWriteRegister_yields :
    Yields (parseWriteRegister buf pktLen) fun command => Command.resumes command = false := by
  refine yields_bind fun _ => yields_bind fun _ => yields_bind fun _ => ?_
  refine yields_ite (fun _ => yields_error) fun _ => yields_bind fun _ => yields_pure rfl

theorem parseReadMemory_yields :
    Yields (parseReadMemory buf pktLen) fun command => Command.resumes command = false :=
  yields_bind fun _ => yields_pure rfl

theorem parseWriteMemory_yields (dec : Decoder) :
    Yields (parseWriteMemory dec buf pktLen) fun command => Command.resumes command = false :=
  yields_bind fun _ => yields_bind fun _ => yields_bind fun _ => yields_pure rfl

theorem yields_other {x : Parse Command} {c : Byte} (hc : buf 0 = c) (hne : ¬ (c = char 'c' ∨ c = char 's'))
    (h : Yields x fun command => Command.resumes command = false) :
    Yields x fun command =>
      (Command.resumes command = true ↔ buf 0 = char 'c' ∨ buf 0 = char 's') := by
  intro ptr command next heq
  rw [hc, h ptr command next heq]
  exact iff_of_false Bool.false_ne_true hne

/-- The first character of the packet alone decides whether its command resumes. -/
theorem parse_resumes : Yields (parse buf pktLen) fun command =>
    (Command.resumes command = true ↔ buf 0 = char 'c' ∨ buf 0 = char 's') := by
  unfold parse
  refine yields_ite (fun hg => yields_other hg (by decide) (yields_pure rfl)) fun _ => ?_
  refine yields_ite (fun hG => yields_other hG (by decide) ?_) fun _ => ?_
  · exact yields_bind fun _ => yields_bind fun _ => yields_pure rfl
  refine yields_ite (fun hp => yields_other hp (by decide) parseRegister_yields) fun _ => ?_
  refine yields_ite (fun hP => yields_other hP (by decide) parseWriteRegister_yields) fun _ => ?_
  refine yields_ite (fun hm => yields_other hm (by decide) parseReadMemory_yields) fun _ => ?_
  refine yields_ite (fun hM => yields_other hM (by decide) (parseWriteMemory_yields .hex)) fun _ => ?_
  refine yields_ite (fun hX => yields_other hX (by decide) (parseWriteMemory_yields .bin)) fun _ => ?_
  refine yields_ite (fun hc => yields_pure (iff_of_true rfl (.inl hc))) fun hc => ?_
  refine yields_ite (fun hs => yields_pure (iff_of_true rfl (.inr hs))) fun hs => ?_
  refine yields_ite (fun hq => yields_other hq (by decide) (yields_pure rfl)) fun _ => ?_
  exact yields_pure (iff_of_false Bool.false_ne_true (not_or.mpr ⟨hc, hs⟩))

end Parsing

/-! ## A turn -/

section Turns

variable {env : Env M} {s : Server M} {buf : Nat → Byte}

theorem first_of_packet (buf : Nat → Byte) {data : List Byte} (h : data.length ≠ 0) (c : Byte) :
    data.head? = some c ↔ put buf 0 data 0 = c := by
  rw [(holds_put buf data).head? (Nat.pos_of_ne_zero h), Option.some.injEq]

/-- A packet is answered by its command. -/
theorem replies_iff_of_parse {pktLen next len : Nat} {command : Command} (hpos : pktLen ≠ 0)
    (hparse : (parse buf pktLen 0).2 = some (command, next)) :
    Replies env s buf pktLen len ↔ replyLength env s buf command = some len := by
  constructor
  · intro h
    obtain ⟨-, c, m, hsome, h⟩ := h
    obtain ⟨rfl, -⟩ := Prod.mk.inj (Option.some.inj (hparse.symm.trans hsome))
    exact h
  · intro h
    exact ⟨hpos, command, next, hparse, h⟩

/-- The loop is left for a command to resume or with the connection lost. -/
def Leaves (s : Server M) (o : Option (Outcome M)) : Prop :=
  ∀ code t, o = some (.exit code t) → Resumes s t ∨ Lost t

/-- A command that does not resume is no reason to leave. -/
theorem leaves_iff_stays {noise data rest : List Byte} {o : Option (Outcome M)}
    (hin : incoming s.peer.input = .packet noise data rest)
    (hhead : ¬ (data.head? = some (char 'c') ∨ data.head? = some (char 's'))) :
    Leaves s o ↔ Stays o := by
  constructor
  · intro h code t hexit
    refine (h code t hexit).resolve_left ?_
    rintro ⟨n, d, hpacket, hresume⟩
    cases hin.symm.trans hpacket
    exact hhead hresume
  · exact fun h code t hexit => .inr (h code t hexit)

/-- A good packet that has been received. -/
theorem handlePacket_leaves_iff (env : Env M) (buf : Nat → Byte) {noise data rest : List Byte} {p : Peer}
    (hin : incoming s.peer.input = .packet noise data rest) (hrest : p.input = rest) :
    Leaves s (handlePacket env { s with peer := p } (put buf 0 data) data.length) ↔
      p.lost = true ∨
        ∀ len, Replies env s (put buf 0 data) data.length len → Takes p (len + 4) → Acked rest := by
  rw [handlePacket]
  by_cases hzero : data.length = 0
  · rw [if_pos hzero]
    exact iff_of_true nofun (.inr fun _ hreplies => absurd hzero hreplies.1)
  rw [if_neg hzero]
  cases hparse : (parse (put buf 0 data) data.length 0).2 with
  | none =>
    refine iff_of_true nofun (.inr fun len hreplies => ?_)
    obtain ⟨-, command, next, hsome, -⟩ := hreplies
    cases hparse.symm.trans hsome
  | some parsed =>
    obtain ⟨command, next⟩ := parsed
    have hfirst := parse_resumes 0 command next hparse
    rw [← first_of_packet buf hzero, ← first_of_packet buf hzero] at hfirst
    dsimp only
    simp only [replies_iff_of_parse hzero hparse]
    cases hresumes : Command.resumes command with
    | true =>
      refine iff_of_true (fun code t hexit => .inl ⟨noise, data, ?_, hfirst.mp hresumes⟩) (.inr ?_)
      · have hpeer : t.peer = p := by
          cases command with
          | «continue» | step => cases hexit; rfl
          | _ => cases hresumes
        rw [hin, hpeer, hrest]
      · cases command with
        | «continue» | step => exact fun _ => nofun
        | _ => cases hresumes
    | false =>
      have hhead : ¬ (data.head? = some (char 'c') ∨ data.head? = some (char 's')) := by
        rw [← hfirst, hresumes]
        exact Bool.false_ne_true
      have hlength : replyLength env { s with peer := p } (put buf 0 data) command =
          replyLength env s (put buf 0 data) command := by
        cases command <;> rfl
      have hanswers : Answers { s with peer := p } _
          (execute env { s with peer := p } (put buf 0 data) command) := execute_answers hresumes
      rw [hlength] at hanswers
      rw [leaves_iff_stays hin hhead]
      cases hreply : replyLength env s (put buf 0 data) command with
      | none =>
        rw [hreply] at hanswers
        exact iff_of_true (stays_of_not_exit hanswers) (.inr fun _ => nofun)
      | some n =>
        rw [hreply] at hanswers
        obtain ⟨t, after, reply, hpeer, hexec⟩ := hanswers
        rw [hexec, sendReply_stays_iff, Lost, hpeer, hrest]
        refine or_congr_right ⟨fun h len hlen => ?_, fun h => h n rfl⟩
        obtain rfl := Option.some.inj hlen
        exact h

theorem mainTurn_eof {p : Peer} (h : dbgRecvPacket env.asserts buf pktBufLen s.peer = (.eof, p)) :
    mainTurn env s buf = some (.exit 0 { s with peer := p }) := by
  rw [mainTurn, h]

theorem mainTurn_packet {p : Peer} {n : Nat} {after : Nat → Byte}
    (h : dbgRecvPacket env.asserts buf pktBufLen s.peer = (.packet n after, p)) :
    mainTurn env s buf = handlePacket env { s with peer := p } after n := by
  rw [mainTurn, h]

/-- The receiver has met the end of the connection, or a character that it takes for it. -/
theorem turnOk_eof_iff {p : Peer} (hbad : ∀ rest, incoming s.peer.input ≠ .bad rest)
    (hrecv : dbgRecvPacket env.asserts buf pktBufLen s.peer = (.eof, p))
    (hpacket : ∀ noise data, incoming s.peer.input ≠ .packet noise data p.input) :
    TurnOk env s buf ↔ p.lost = true := by
  have hturn := mainTurn_eof hrecv
  constructor
  · intro h
    obtain ⟨noise, data, hin, -⟩ | hlost := h.1 0 _ hturn
    · exact absurd hin (hpacket noise data)
    · exact hlost
  · intro h
    refine ⟨fun code t hexit => .inr ?_, fun rest hin => absurd hin (hbad rest)⟩
    cases hturn.symm.trans hexit
    exact h

/-- A bad packet that has not been received. -/
theorem turnOk_bad_iff {rest : List Byte} {p : Peer} (hin : incoming s.peer.input = .bad rest)
    (hrecv : dbgRecvPacket env.asserts buf pktBufLen s.peer = (.eof, p)) :
    TurnOk env s buf ↔ p.lost = true := by
  have hturn := mainTurn_eof hrecv
  constructor
  · intro h
    obtain ⟨t, after, hnext, -⟩ | ⟨code, t, hexit, hlost⟩ := h.2 rest hin
    · cases hturn.symm.trans hnext
    · cases hturn.symm.trans hexit
      exact hlost
  · intro h
    refine ⟨fun code t hexit => .inr ?_, fun _ _ => .inr ⟨0, _, hturn, h⟩⟩
    cases hturn.symm.trans hexit
    exact h

theorem putchar_input (c : Byte) (p : Peer) : (dbgSysPutchar c p).2.input = p.input := by
  rw [dbgSysPutchar]
  split <;> rfl

theorem putchar_accepts (c : Byte) (p : Peer) (n : Nat) :
    (dbgSysPutchar c p).2.accepts n = p.accepts (n + 1) := by
  rw [dbgSysPutchar]
  split <;> rfl

theorem putchar_lost (c : Byte) (p : Peer) :
    (dbgSysPutchar c p).2.lost = true ↔ p.lost = true ∨ p.accepts 0 = false := by
  rw [dbgSysPutchar]
  split
  · next h => exact (or_iff_left (by simp [h])).symm
  · next h => exact iff_of_true rfl (.inr (Bool.eq_false_iff.mpr h))

/-- The characters after the next one are taken. -/
theorem takes_succ_iff {p : Peer} {n : Nat} :
    Takes p (n + 1) ↔ p.accepts 0 = true ∧ ∀ k < n, p.accepts (k + 1) = true := by
  constructor
  · exact fun h => ⟨h 0 (Nat.succ_pos n), fun k hk => h (k + 1) (Nat.succ_lt_succ hk)⟩
  · intro h k hk
    cases k with
    | zero => exact h.1
    | succ k => exact h.2 k (Nat.lt_of_succ_lt_succ hk)

/-- A good packet that is received. -/
theorem turnOk_packet_iff {noise data rest : List Byte} (hin : incoming s.peer.input = .packet noise data rest)
    (hrecv : dbgRecvPacket env.asserts buf pktBufLen s.peer =
      (.packet data.length (put buf 0 data), (dbgSysPutchar (char '+') { s.peer with input := rest }).2)) :
    TurnOk env s buf ↔ Lost s ∨
      ∀ len, Replies env s (put buf 0 data) data.length len → Takes s.peer (len + 5) → Acked rest := by
  have hbad (rest : List Byte) : incoming s.peer.input ≠ .bad rest := by
    rw [hin]
    exact Incoming.noConfusion
  have hleaves := handlePacket_leaves_iff env buf hin
    (putchar_input (char '+') { s.peer with input := rest })
  rw [TurnOk, and_iff_left fun rest hno => absurd hno (hbad rest), mainTurn_packet hrecv]
  refine hleaves.trans ?_
  rw [putchar_lost, or_assoc]
  refine or_congr_right ?_
  have htakes (n : Nat) : Takes (dbgSysPutchar (char '+') { s.peer with input := rest }).2 n ↔
      ∀ k < n, s.peer.accepts (k + 1) = true := by
    simp only [Takes, putchar_accepts]
  simp only [htakes]
  cases hfirst : s.peer.accepts 0 with
  | false =>
    refine iff_of_true (.inl rfl) fun len _ h => ?_
    cases hfirst.symm.trans (h 0 (Nat.succ_pos _))
  | true =>
    rw [or_iff_right (by decide)]
    refine forall_congr' fun len => forall_congr' fun _ => imp_congr_left ?_
    rw [takes_succ_iff, and_iff_right hfirst]

/-- A turn does what it has to exactly when it fits. -/
theorem turnOk_iff (env : Env M) (s : Server M) (buf : Nat → Byte) : TurnOk env s buf ↔ Fits env s buf := by
  have hreceives : Receives env.asserts buf s.peer (incoming s.peer.input) := receives
  rw [Fits]
  cases hin : incoming s.peer.input with
  | lost =>
    rw [hin] at hreceives
    rw [turnOk_eof_iff (by simp [hin]) hreceives (by simp [hin])]
    exact atEof_lost s.peer
  | bad rest =>
    rw [hin, Receives] at hreceives
    cases hrefusal : refusal env.asserts s.peer.input with
    | silent =>
      rw [hrefusal] at hreceives
      obtain ⟨left, hrecv⟩ := hreceives
      rw [turnOk_bad_iff hin hrecv]
      exact Iff.rfl
    | nack =>
      rw [hrefusal] at hreceives
      rw [turnOk_bad_iff hin hreceives]
      exact putchar_lost (char '-') { s.peer with input := rest }
    | aborts =>
      rw [hrefusal] at hreceives
      obtain ⟨left, hrecv⟩ := hreceives
      have hturn : mainTurn env s buf = none := by rw [mainTurn, hrecv]
      refine iff_of_false (fun h => ?_) not_false
      obtain ⟨t, after, hnext, -⟩ | ⟨code, t, hexit, -⟩ := h.2 rest hin
      · cases hturn.symm.trans hnext
      · cases hturn.symm.trans hexit
  | packet noise data rest =>
    rw [hin] at hreceives
    obtain ⟨hdirty, hclean⟩ := hreceives
    by_cases heof : 0xFF ∈ noise ∨ 0xFF ∈ data
    · have hmore := afterEof_packet hin heof
      have hpacket (n d : List Byte) : incoming s.peer.input ≠ .packet n d (afterEof s.peer.input) := by
        intro heq
        obtain ⟨-, -, hrest⟩ := Incoming.packet.inj (hin.symm.trans heq)
        rw [← hrest] at hmore
        exact absurd hmore (Nat.lt_irrefl _)
      rw [turnOk_eof_iff (by simp [hin]) (hdirty heof) hpacket]
      refine (or_iff_left fun h => ?_).symm
      exact absurd heof (not_or.mpr ⟨h.1, h.2.1⟩)
    · rw [turnOk_packet_iff hin (hclean heof)]
      rw [not_or] at heof
      exact or_congr_right ⟨fun h => ⟨heof.1, heof.2, h⟩, fun h => h.2.2⟩

end Turns

/-! ## A session -/

theorem mainStart_ok_iff (s : Server M) (buf : Nat → Byte) :
    (∀ code t, mainStart s buf = some (.exit code t) → Lost t) ↔
      Lost s ∨ (Takes s.peer 7 → Acked s.peer.input) := by
  obtain ⟨after, -, heq⟩ := sendCode_eq (char 'S') 0 buf s.peer
  have hstart : mainStart s buf = sendReply s after after 3 := by
    rw [mainStart, dbgSendSignalPacket, heq]
    rfl
  rw [hstart]
  exact sendReply_stays_iff after 3

/-- A session keeps to the protocol exactly when every turn of it fits, and the signal is acknowledged. -/
theorem session_ok_iff (env : Env M) (s : Server M) (buf : Nat → Byte) :
    SessionOk env s buf ↔ SessionFits env s buf := by
  rw [SessionOk, SessionFits, mainStart_ok_iff]
  refine and_congr_right fun _ => forall_congr' fun a => forall_congr' fun _ => ?_
  exact turnOk_iff env a.1 a.2

/-- `g` with a wrong checksum is refused, and the loop is left. -/
theorem bad_checksum_leaves :
    ¬ ∀ (env : Env Unit) (s : Server Unit) (buf : Nat → Byte), SessionOk env s buf := by
  intro h
  have hok := h sampleEnv (sampleServer [char '+', char '$', char 'g', char '#', char '0', char '0']) fun _ => 0
  obtain ⟨b, hstart, hinput, haccepts, hlost⟩ : ∃ b : Server Unit × (Nat → Byte),
      mainStart (sampleServer [char '+', char '$', char 'g', char '#', char '0', char '0']) (fun _ => 0) =
        some (.next b.1 b.2) ∧
      b.1.peer.input = [char '$', char 'g', char '#', char '0', char '0'] ∧
      b.1.peer.accepts 0 = true ∧ b.1.peer.lost = false := ⟨(_, _), rfl, rfl, rfl, rfl⟩
  have hfits := (turnOk_iff _ _ _).mp (hok.2 b ⟨b, hstart, .refl⟩)
  have hbad : incoming b.1.peer.input = .bad [] := by
    rw [hinput]
    decide
  have hnack : refusal sampleEnv.asserts b.1.peer.input = .nack := by
    rw [hinput]
    rfl
  rw [Fits, hbad] at hfits
  dsimp only at hfits
  rw [hnack] at hfits
  obtain hup | hsend := hfits
  · cases hlost.symm.trans hup
  · cases haccepts.symm.trans hsend

end OpenXbox.Gdb.Session
