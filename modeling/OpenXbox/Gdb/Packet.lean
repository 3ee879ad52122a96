import OpenXbox.Gdb.Codec

/-!
# Packets

A packet is `$`, its data, `#` and the checksum in hexadecimal. The receiver skips what
comes before the start and answers with an acknowledgement.
-/

namespace OpenXbox.Gdb.Packet

open OpenXbox.Lib.Buffer OpenXbox.Gdb.Transport OpenXbox.Gdb.Codec

def dbgChecksum (buf : Nat → Byte) : Nat → Byte
  | 0 => 0
  | len + 1 => buf 0 + dbgChecksum (drop buf 1) len

/-! ## Sending -/

/-- `#` and the checksum. -/
def trailer (csum : Byte) : Nat → Byte :=
  let buf := store (fun _ => 0) 0 (char '#')
  putFrom buf 1 (dbgEncHex (drop buf 1) 2 (fun _ => csum) 1).2

def dbgSendPacket (pktData : Nat → Byte) (pktLen : Nat) (p : Peer) : Status × Peer :=
  match dbgSysPutchar (char '$') p with
  | (false, p) => (.eof, p)
  | (true, p) =>
    match dbgWrite pktData pktLen p with
    | (false, p) => (.eof, p)
    | (true, p) =>
      match dbgWrite (trailer (dbgChecksum pktData pktLen)) 3 p with
      | (false, p) => (.eof, p)
      | (true, p) => dbgRecvAck p

/-- The two characters of `OK`. -/
def okText : Nat → Byte := store (fun _ => char 'K') 0 (char 'O')

def dbgSendOkPacket (p : Peer) : Status × Peer := dbgSendPacket okText 2 p

/-- A letter and a character in hexadecimal, made in the buffer. -/
def sendCodePacket (letter : Byte) (buf : Nat → Byte) (bufLen : Nat) (code : Byte) (p : Peer) :
    Status × (Nat → Byte) × Peer :=
  if bufLen < 4 then (.eof, buf, p)
  else
    let buf := store buf 0 letter
    let (status, after) := dbgEncHex (drop buf 1) (bufLen - 1) (fun _ => code) 1
    let buf := putFrom buf 1 after
    match status with
    | .ok n =>
      let (status, p) := dbgSendPacket buf (1 + n) p
      (status, buf, p)
    | status => (status, buf, p)

def dbgSendSignalPacket := sendCodePacket (char 'S')
def dbgSendErrorPacket := sendCodePacket (char 'E')

/-! ## Receiving -/

/-- Whether a packet starts, and the connection after its start. The characters to come are given
apart. -/
def awaitStart (p : Peer) : List Byte → Bool × Peer
  | [] => (false, { p with input := [], lost := true })
  | data :: rest =>
    if data = char '$' then (true, { p with input := rest })
    else if data.toInt = EOF then (false, { p with input := rest })
    else awaitStart p rest

/-- The data up to the checksum: whether the packet ends, the connection after it, its
length and the buffer. -/
def recvData (bufLen : Nat) (p : Peer) :
    List Byte → Nat → (Nat → Byte) → Bool × Peer × Nat × (Nat → Byte)
  | [], pktLen, buf => (false, { p with input := [], lost := true }, pktLen, buf)
  | data :: rest, pktLen, buf =>
    if data.toInt = EOF then (false, { p with input := rest }, pktLen, buf)
    else if data = char '#' then (true, { p with input := rest }, pktLen, buf)
    else if pktLen ≥ bufLen then (false, { p with input := rest }, pktLen, buf)
    else recvData bufLen p rest (pktLen + 1) (store buf pktLen data)

inductive Received where
  | packet (pktLen : Nat) (buf : Nat → Byte)
  | eof
  | aborted

/-- The checksum that follows the data, as far as it is one. -/
def recvChecksum (asserts : Bool) (p : Peer) : Status × Byte × Peer :=
  match dbgRead 2 p with
  | (none, p) => (.eof, 0, p)
  | (some buf, p) =>
    let (status, data) := dbgDecHex asserts (fun i => buf.getD i 0) 2 (fun _ => 0) 1
    (status, data 0, p)

def dbgRecvPacket (asserts : Bool) (buf : Nat → Byte) (bufLen : Nat) (p : Peer) : Received × Peer :=
  match awaitStart p p.input with
  | (false, p) => (.eof, p)
  | (true, p) =>
    match recvData bufLen p p.input 0 buf with
    | (false, p, _, _) => (.eof, p)
    | (true, p, pktLen, buf) =>
      match recvChecksum asserts p with
      | (.eof, _, p) => (.eof, p)
      | (.aborted, _, p) => (.aborted, p)
      | (.ok _, expectedCsum, p) =>
        if dbgChecksum buf pktLen ≠ expectedCsum then (.eof, (dbgSysPutchar (char '-') p).2)
        else (.packet pktLen buf, (dbgSysPutchar (char '+') p).2)

end OpenXbox.Gdb.Packet
