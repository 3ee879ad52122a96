import OpenXbox.Gdb.Packet
import OpenXbox.Lib.Bits

/-!
# The debug loop

One turn of `dbg_main` receives a packet into the buffer, takes the tokens of its command
from there and carries it out. Parsing notes every remaining length that it computes and
the range of every token. The buffer is followed by whatever memory lies behind it.
-/

namespace OpenXbox.Gdb.Main

open OpenXbox.Lib.Buffer OpenXbox.Lib.Bits OpenXbox.Gdb.Transport OpenXbox.Gdb.Codec
  OpenXbox.Gdb.Packet

def DBG_CPU_I386_REG_PS : Nat := 9
def DBG_CPU_I386_NUM_REGISTERS : Nat := 16

/-- The size of the packet buffer. -/
def pktBufLen : Nat := 256

/-- The bytes of the register file, and the rest of what a session changes. -/
structure Server (M : Type) where
  peer : Peer
  registers : Nat → Byte
  memory : M

/-- How the program was built, the guest's memory byte by byte, and what the scratch buffer of
a memory access holds before it is filled. -/
structure Env (M : Type) where
  asserts : Bool
  vMemRead : M → Word → Option Byte
  vMemWrite : M → Word → Byte → M
  scratch : Nat → Byte

/-! ## Tokens -/

/-- What parsing does with the buffer: a remaining length is computed for a position, and the
bytes from one position to another are taken as a token. -/
inductive Event where
  | remaining (ptr : Nat)
  | token (start stop : Nat)
deriving DecidableEq

/-- `token_remaining_buf`: an unsigned subtraction. -/
def tokenRemainingBuf (pktLen ptr : Nat) : Nat := (pktLen + 2 ^ 64 - ptr) % 2 ^ 64

/-- From a position: what is done, and the result with the position after it, or `none` for the
jump to the error. -/
def Parse (α : Type) : Type := Nat → List Event × Option (α × Nat)

instance : Monad Parse where
  pure a := fun ptr => ([], some (a, ptr))
  bind x f := fun ptr =>
    match x ptr with
    | (events, none) => (events, none)
    | (events, some (a, next)) => (events ++ (f a next).1, (f a next).2)

def goError {α : Type} : Parse α := fun _ => ([], none)

/-- `ptr_next += 1`. -/
def skip : Parse Unit := fun ptr => ([], some ((), ptr + 1))

def tokenExpectSeperator (buf : Nat → Byte) (c : Byte) : Parse Unit := fun ptr =>
  if buf ptr = c then ([.token ptr (ptr + 1)], some ((), ptr + 1)) else ([], none)

/-- The end of the number is where the next token is looked for. -/
def takeNumber (ptr : Nat) : Word × Option Nat → List Event × Option (Word × Nat)
  | (value, some stop) => ([.remaining ptr, .token ptr (ptr + stop)], some (value, ptr + stop))
  | (_, none) => ([.remaining ptr], none)

def tokenExpectIntegerArg (buf : Nat → Byte) (pktLen : Nat) : Parse Word := fun ptr =>
  takeNumber ptr (dbgStrtol (drop buf ptr) (tokenRemainingBuf pktLen ptr) 16)

/-- The rest of the packet: where it starts and its length. -/
def payload (pktLen : Nat) : Parse (Nat × Nat) := fun ptr =>
  let length := tokenRemainingBuf pktLen ptr
  ([.remaining ptr, .token ptr (ptr + length)], some ((ptr, length), ptr + length))

inductive Decoder where
  | hex
  | bin

inductive Command where
  | readRegisters
  | writeRegisters (start length : Nat)
  | readRegister (addr : Nat)
  | writeRegister (addr start length : Nat)
  | readMemory (addr : Word) (length : Nat)
  | writeMemory (dec : Decoder) (addr : Word) (length start count : Nat)
  | continue
  | step
  | signal
  | unsupported

/-- An `int` that is stored as a `size_t`. -/
def toSize (value : Word) : Nat := (value.signExtend 64).toNat

def parseRegister (buf : Nat → Byte) (pktLen : Nat) : Parse Command := do
  skip
  let addr ← tokenExpectIntegerArg buf pktLen
  if addr.toNat ≥ DBG_CPU_I386_NUM_REGISTERS then goError else pure (.readRegister addr.toNat)

def parseWriteRegister (buf : Nat → Byte) (pktLen : Nat) : Parse Command := do
  skip
  let addr ← tokenExpectIntegerArg buf pktLen
  tokenExpectSeperator buf (char '=')
  if addr.toNat ≥ DBG_CPU_I386_NUM_REGISTERS then goError
  else do
    let (start, length) ← payload pktLen
    pure (.writeRegister addr.toNat start length)

/-- The address and the length of a memory access. -/
def parseRange (buf : Nat → Byte) (pktLen : Nat) : Parse (Word × Nat) := do
  skip
  let addr ← tokenExpectIntegerArg buf pktLen
  tokenExpectSeperator buf (char ',')
  let length ← tokenExpectIntegerArg buf pktLen
  pure (addr, toSize length)

def parseReadMemory (buf : Nat → Byte) (pktLen : Nat) : Parse Command := do
  let (addr, length) ← parseRange buf pktLen
  pure (.readMemory addr length)

def parseWriteMemory (dec : Decoder) (buf : Nat → Byte) (pktLen : Nat) : Parse Command := do
  let (addr, length) ← parseRange buf pktLen
  tokenExpectSeperator buf (char ':')
  let (start, count) ← payload pktLen
  pure (.writeMemory dec addr length start count)

/-- The tokens of a packet, by its first character. -/
def parse (buf : Nat → Byte) (pktLen : Nat) : Parse Command :=
  if buf 0 = char 'g' then pure .readRegisters
  else if buf 0 = char 'G' then do
    skip
    let (start, length) ← payload pktLen
    pure (.writeRegisters start length)
  else if buf 0 = char 'p' then parseRegister buf pktLen
  else if buf 0 = char 'P' then parseWriteRegister buf pktLen
  else if buf 0 = char 'm' then parseReadMemory buf pktLen
  else if buf 0 = char 'M' then parseWriteMemory .hex buf pktLen
  else if buf 0 = char 'X' then parseWriteMemory .bin buf pktLen
  else if buf 0 = char 'c' then pure .continue
  else if buf 0 = char 's' then pure .step
  else if buf 0 = char '?' then pure .signal
  else pure .unsupported

/-! ## Memory and registers -/

/-- The scratch buffer after the reads. A failed read is not reported, and leaves its byte as it
is. -/
def readBytes {M : Type} (env : Env M) (memory : M) (addr : Word) : Nat → Nat → (Nat → Byte) → Nat → Byte
  | 0, _, data => data
  | left + 1, pos, data =>
    let data :=
      match env.vMemRead memory (addr + BitVec.ofNat 32 pos) with
      | some b => store data pos b
      | none => data
    readBytes env memory addr left (pos + 1) data

def dbgMemRead {M : Type} (env : Env M) (memory : M) (buf : Nat → Byte) (bufLen : Nat) (addr : Word)
    (len : Nat) : Status × (Nat → Byte) :=
  if len > 64 then (.eof, buf)
  else dbgEncHex buf bufLen (readBytes env memory addr len 0 env.scratch) len

def writeBytes {M : Type} (env : Env M) (data : Nat → Byte) (addr : Word) : Nat → Nat → M → M
  | 0, _, memory => memory
  | left + 1, pos, memory =>
    writeBytes env data addr left (pos + 1)
      (env.vMemWrite memory (addr + BitVec.ofNat 32 pos) (data pos))

def Decoder.run (dec : Decoder) (asserts : Bool) (buf : Nat → Byte) (bufLen : Nat) (data : Nat → Byte)
    (dataLen : Nat) : Status × (Nat → Byte) :=
  match dec with
  | .hex => dbgDecHex asserts buf bufLen data dataLen
  | .bin => dbgDecBin asserts buf bufLen data dataLen

def dbgMemWrite {M : Type} (env : Env M) (buf : Nat → Byte) (bufLen : Nat) (addr : Word) (len : Nat)
    (dec : Decoder) (memory : M) : Status × M :=
  if len > 64 then (.eof, memory)
  else
    match dec.run env.asserts buf bufLen env.scratch len with
    | (.ok _, data) => (.ok 0, writeBytes env data addr len 0 memory)
    | (status, _) => (status, memory)

def reg (registers : Nat → Byte) (i : Nat) : Word :=
  le32 (registers (4 * i)) (registers (4 * i + 1)) (registers (4 * i + 2)) (registers (4 * i + 3))

def setReg (registers : Nat → Byte) (i : Nat) (value : Word) : Nat → Byte :=
  put registers (4 * i) ((List.range 4).map (leBytes [value]))

def dbgSysContinue (registers : Nat → Byte) : Nat → Byte :=
  setReg registers DBG_CPU_I386_REG_PS (reg registers DBG_CPU_I386_REG_PS &&& ~~~((1 : Word) <<< 8))

def dbgSysStep (registers : Nat → Byte) : Nat → Byte :=
  setReg registers DBG_CPU_I386_REG_PS (reg registers DBG_CPU_I386_REG_PS ||| ((1 : Word) <<< 8))

/-! ## One turn -/

/-- The loop goes on with the buffer as it is, or is left with a code. -/
inductive Outcome (M : Type) where
  | next (server : Server M) (buf : Nat → Byte)
  | exit (code : Int) (server : Server M)

section Turn

variable {M : Type} (env : Env M) (s : Server M) (buf : Nat → Byte)

/-- What the loop does with the status of a reply. -/
def afterReply (status : Status) (p : Peer) : Option (Outcome M) :=
  match status with
  | .ok _ => some (.next { s with peer := p } buf)
  | .eof => some (.exit EOF { s with peer := p })
  | .aborted => none

def sendReply (data : Nat → Byte) (len : Nat) : Option (Outcome M) :=
  let (status, p) := dbgSendPacket data len s.peer
  afterReply s buf status p

def sendOk : Option (Outcome M) :=
  let (status, p) := dbgSendOkPacket s.peer
  afterReply s buf status p

/-- The label `error`: the status of this reply is not looked at. -/
def sendError : Option (Outcome M) :=
  let (_, buf, p) := dbgSendErrorPacket buf pktBufLen 0 s.peer
  some (.next { s with peer := p } buf)

/-- A reply that an encoder makes in the buffer. -/
def sendEncoded (encoded : Status × (Nat → Byte)) : Option (Outcome M) :=
  match encoded with
  | (.ok n, buf) => sendReply s buf buf n
  | (.eof, buf) => sendError s buf
  | (.aborted, _) => none

/-- The registers written from the packet; a decoder that fails has written some of them. -/
def sendDecoded (decoded : Status × (Nat → Byte)) : Option (Outcome M) :=
  match decoded with
  | (.ok _, registers) => sendOk { s with registers := registers } buf
  | (.eof, registers) => sendError { s with registers := registers } buf
  | (.aborted, _) => none

def execute : Command → Option (Outcome M)
  | .readRegisters => sendEncoded s (dbgEncHex buf pktBufLen s.registers 64)
  | .writeRegisters start length =>
    sendDecoded s buf (dbgDecHex env.asserts (drop buf start) length s.registers 64)
  | .readRegister addr => sendEncoded s (dbgEncHex buf pktBufLen (drop s.registers (4 * addr)) 4)
  | .writeRegister addr start length =>
    let (status, after) :=
      dbgDecHex env.asserts (drop buf start) length (drop s.registers (4 * addr)) 4
    sendDecoded s buf (status, putFrom s.registers (4 * addr) after)
  | .readMemory addr length => sendEncoded s (dbgMemRead env s.memory buf pktBufLen addr length)
  | .writeMemory dec addr length start count =>
    match dbgMemWrite env (drop buf start) count addr length dec s.memory with
    | (.ok _, memory) => sendOk { s with memory := memory } buf
    | (.eof, memory) => sendError { s with memory := memory } buf
    | (.aborted, _) => none
  | .continue => some (.exit 0 { s with registers := dbgSysContinue s.registers })
  | .step => some (.exit 0 { s with registers := dbgSysStep s.registers })
  | .signal =>
    let (status, buf, p) := dbgSendSignalPacket buf pktBufLen 0 s.peer
    afterReply s buf status p
  | .unsupported => sendReply s buf (fun _ => 0) 0

/-- A packet that has been received. -/
def handlePacket (pktLen : Nat) : Option (Outcome M) :=
  if pktLen = 0 then some (.next s buf)
  else
    match (parse buf pktLen 0).2 with
    | some (command, _) => execute env s buf command
    | none => sendError s buf

/-- A turn of the loop; `none` when an assertion fails. -/
def mainTurn : Option (Outcome M) :=
  match dbgRecvPacket env.asserts buf pktBufLen s.peer with
  | (.packet pktLen buf, p) => handlePacket env { s with peer := p } buf pktLen
  | (.eof, p) => some (.exit 0 { s with peer := p })
  | (.aborted, _) => none

end Turn

end OpenXbox.Gdb.Main
