import OpenXbox.Cpu.VirtualCopy
import OpenXbox.Gdb.Session

/-!
# The guest's memory behind the server

The server copies single bytes with `VMemRead` and `VMemWrite` and does not look at how the copies
end. A turn that has received a packet acknowledges it, and the frame of one reply follows.
-/

namespace OpenXbox.Gdb.GuestMemory

open OpenXbox.Lib.Buffer OpenXbox.Lib.Loop OpenXbox.Gdb.Transport OpenXbox.Gdb.Codec
  OpenXbox.Gdb.Packet OpenXbox.Gdb.RoundTrip OpenXbox.Gdb.Main OpenXbox.Gdb.OwnBytes
  OpenXbox.Gdb.Stream OpenXbox.Gdb.Session
open OpenXbox.Cpu.VirtualMemory (Host HostMap Paging Copy byteStep byteSteps byteCopy readCopy
  writeCopy copyBody startCopy VMemRead VMemWrite)
open OpenXbox.Cpu.VirtualCopy (ChunkByBytes chunkStep copy_bytes)

/-! ## Memory -/

/-- A byte of memory read and written; either may fail. -/
structure Access (M : Type) where
  read : M → Word → Option Byte
  write : M → Word → Byte → Option M

/-- `dbg_sys_mem_readb` and `dbg_sys_mem_writeb` return zero in any case; a write that has failed
leaves the memory as it is. -/
def Access.env {M : Type} (access : Access M) (asserts : Bool) (scratch : Nat → Byte) : Env M where
  asserts := asserts
  vMemRead := access.read
  vMemWrite := fun memory addr b => (access.write memory addr b).getD memory
  scratch := scratch

/-- Virtual memory, a byte at a time. -/
def guest (p : Paging) (m : HostMap) : Access Host where
  read := fun host addr => (byteStep (readCopy p m host) addr 0 fun _ => 0).map fun value => value 0
  write := fun host addr b => byteStep (writeCopy p m fun _ => b) addr 0 host

section Guest

variable {σ : Type} {p : Paging} {m : HostMap} {host : Host} {addr : Word}

theorem chunkByBytes_one (c : Copy σ) (addr : Word) : ChunkByBytes c addr 1 fun _ _ => True := by
  have hone {i n : Nat} (hn : 0 < n) (hsize : i + n ≤ (1 : Word).toNat) : i = 0 ∧ n = 1 := by
    rw [show (1 : Word).toNat = 1 from rfl] at hsize
    omega
  constructor
  · intro i n e _ hn hsize _ hfail
    obtain ⟨rfl, rfl⟩ := hone hn hsize
    exact hfail
  · intro i n e _ hn hsize _ next hnext
    obtain ⟨rfl, rfl⟩ := hone hn hsize
    have hstep : byteStep c addr 0 e = some next := hnext
    refine ⟨?_, trivial⟩
    rw [byteSteps, hstep]
    rfl

/-- A copy of one byte ends as its step does. -/
theorem copy_one (c : Copy σ) (addr : Word) (changed : σ)
    (o : OpenXbox.Cpu.VirtualMemory.Outcome σ) :
    (∃ t, Ends (copyBody c 1) (startCopy addr 1 changed) t ∧ t.outcome = o) ↔
      byteCopy c addr 1 changed = o := by
  obtain ⟨t, hends, hout⟩ := copy_bytes (chunkByBytes_one c addr) (e := changed) trivial
  constructor
  · rintro ⟨u, hu, rfl⟩
    rw [← hout, hends.unique hu]
  · rintro rfl
    exact ⟨t, hends, hout⟩

theorem byteCopy_one (c : Copy σ) (addr : Word) (changed : σ) :
    byteCopy c addr 1 changed =
      match byteStep c addr 0 changed with
      | some next => ⟨next, .ok, some 1⟩
      | none => ⟨changed, .invalidAddress, none⟩ := by
  rw [byteCopy, show (1 : Word).toNat = 0 + 1 from rfl, byteSteps]
  cases byteStep c addr 0 changed with
  | none => rfl
  | some next => rfl

/-- A byte is read as `VMemRead` stores it, when that succeeds. -/
theorem guest_read_iff {b : Byte} :
    (guest p m).read host addr = some b ↔
      ∃ o, VMemRead p m host addr 1 (fun _ => 0) o ∧ o.status = .ok ∧ o.changed 0 = b := by
  have hcopy := copy_one (readCopy p m host) addr fun _ => 0
  simp only [VMemRead, hcopy, byteCopy_one, guest]
  cases byteStep (readCopy p m host) addr 0 fun _ => 0 with
  | none => simp
  | some next => simp

/-- A byte is written as `VMemWrite` leaves the memory, when that succeeds; else it leaves it as it
is. -/
theorem guest_write_iff {b : Byte} {host' : Host} :
    (((guest p m).write host addr b).getD host = host' ↔
        ∃ o, VMemWrite p m addr 1 (fun _ => b) host o ∧ o.changed = host') ∧
      ((guest p m).write host addr b = some host' ↔
        ∃ o, VMemWrite p m addr 1 (fun _ => b) host o ∧ o.status = .ok ∧ o.changed = host') := by
  have hcopy := copy_one (writeCopy p m fun _ => b) addr host
  simp only [VMemWrite, hcopy, byteCopy_one, guest]
  cases byteStep (writeCopy p m fun _ => b) addr 0 host with
  | none => simp
  | some next => simp

end Guest

/-! ## Replies -/

/-- The turn acknowledges its packet, sends this reply and nothing else. -/
def Sends {M : Type} (env : Env M) (s : Server M) (buf : Nat → Byte) (text : List Byte) : Prop :=
  ∃ o, mainTurn env s buf = some o ∧
    (Outcome.effect o).1.peer.output = s.peer.output ++ char '+' :: frame text

def okReply : List Byte := slice okText 0 2

def errorReply : List Byte := char 'E' :: hexOf 0

/-- The reply is made, and the memory is what it was before. -/
def Replied {M : Type} (s : Server M) (text : List Byte) (o : Option (Outcome M)) : Prop :=
  ∃ t, o = some t ∧ (Outcome.effect t).1.memory = s.memory ∧
    (Outcome.effect t).1.peer.output = s.peer.output ++ frame text

section Replies

variable {M : Type} {env : Env M} {s : Server M} {buf : Nat → Byte} {noise data rest text : List Byte}

theorem replied_sendReply (h : s.peer.Accepting) (buf reply : Nat → Byte) (len : Nat) :
    Replied s (slice reply 0 len) (sendReply s buf reply len) := by
  have houtput := sendPacket_output h reply len
  have hstatus : (dbgSendPacket reply len s.peer).1 ≠ .aborted := by
    obtain ⟨output, accepts, heq⟩ := sendPacket_sends (p := s.peer) (fun k (_ : k < len + 4) => h k) reply
    rw [heq]
    exact (recvAck_iff _).1
  rw [sendReply]
  dsimp only
  cases hsent : (dbgSendPacket reply len s.peer).1 with
  | ok n => exact ⟨_, rfl, rfl, houtput⟩
  | eof => exact ⟨_, rfl, rfl, houtput⟩
  | aborted => exact absurd hsent hstatus

theorem replied_sendOk (h : s.peer.Accepting) : Replied s okReply (sendOk s buf) :=
  replied_sendReply h buf okText 2

theorem replied_sendError (h : s.peer.Accepting) : Replied s errorReply (sendError s buf) := by
  obtain ⟨after, hslice, heq⟩ := sendCode_eq (char 'E') 0 buf s.peer
  have houtput := sendPacket_output h after 3
  rw [hslice] at houtput
  rw [sendError, dbgSendErrorPacket, heq]
  exact ⟨_, rfl, rfl, houtput⟩

/-- A character received as `EOF` before the end of the packet ends the session, and nothing is
sent. -/
theorem turn_cut (env : Env M) (buf : Nat → Byte)
    (hin : incoming s.peer.input = .packet noise data rest)
    (hcut : 0xFF ∈ noise ∨ 0xFF ∈ data) :
    ∃ p, p.output = s.peer.output ∧ mainTurn env s buf = some (.exit 0 { s with peer := p }) := by
  have hreceives : Receives env.asserts buf s.peer (incoming s.peer.input) := receives
  rw [hin] at hreceives
  exact ⟨{ s.peer with input := afterEof s.peer.input }, rfl, mainTurn_eof (hreceives.1 hcut)⟩

/-- A packet that is received is acknowledged, and its command carried out. -/
theorem turn_received (env : Env M) (hin : incoming s.peer.input = .packet noise data rest)
    (hclean : ¬ (0xFF ∈ noise ∨ 0xFF ∈ data)) (haccepts : s.peer.Accepting) (hpos : data ≠ [])
    {command : Command} {stop : Nat}
    (hparse : (parse (put buf 0 data) data.length 0).2 = some (command, stop)) :
    ∃ p, p.Accepting ∧ p.output = s.peer.output ++ [char '+'] ∧
      mainTurn env s buf = execute env { s with peer := p } (put buf 0 data) command := by
  have hreceives : Receives env.asserts buf s.peer (incoming s.peer.input) := receives
  rw [hin] at hreceives
  have hbefore : Peer.Accepting { s.peer with input := rest } := haccepts
  have hturn : mainTurn env s buf = _ := mainTurn_packet (hreceives.2 hclean)
  rw [putchar_accepting hbefore, handlePacket, if_neg (by simpa using hpos), hparse] at hturn
  exact ⟨{ s.peer with input := rest, output := s.peer.output ++ [char '+'] }, haccepts, rfl, hturn⟩

theorem sends_of_replied {p : Peer} {o : Option (Outcome M)}
    (houtput : p.output = s.peer.output ++ [char '+']) (hturn : mainTurn env s buf = o)
    (h : Replied { s with peer := p } text o) : Sends env s buf text := by
  obtain ⟨t, rfl, -, hsent⟩ := h
  refine ⟨t, hturn, ?_⟩
  rw [hsent, houtput, List.append_assoc, List.singleton_append]

/-- Two replies of one turn are of one length. -/
theorem sends_length {text' : List Byte} (h : Sends env s buf text) (h' : Sends env s buf text') :
    text.length = text'.length := by
  obtain ⟨o, ho, hsent⟩ := h
  obtain ⟨o', ho', hsent'⟩ := h'
  obtain rfl := Option.some.inj (ho.symm.trans ho')
  have hlength := congrArg List.length (hsent.symm.trans hsent')
  simp only [List.length_append, List.length_cons, frame, hexOf] at hlength
  omega

theorem not_sends_of_cut (env : Env M) (buf : Nat → Byte)
    (hin : incoming s.peer.input = .packet noise data rest)
    (hcut : 0xFF ∈ noise ∨ 0xFF ∈ data) (text : List Byte) : ¬ Sends env s buf text := by
  rintro ⟨o, ho, hsent⟩
  obtain ⟨p, houtput, hturn⟩ := turn_cut env buf hin hcut
  obtain rfl := Option.some.inj (hturn.symm.trans ho)
  have hlength := congrArg List.length (houtput.symm.trans hsent)
  simp only [List.length_append, List.length_cons] at hlength
  omega

end Replies

end OpenXbox.Gdb.GuestMemory
