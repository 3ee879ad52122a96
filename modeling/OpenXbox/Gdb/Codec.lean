import OpenXbox.Gdb.Transport

/-!
# Numbers, and the two encodings of data

Digits, `dbg_strtol`, the hexadecimal and the escaped binary encoding. A decoder is given
the memory that it decodes to and leaves in it what it had decoded when it failed. Its
assertions end the program where they are compiled in.
-/

namespace OpenXbox.Gdb.Codec

open OpenXbox.Lib.Buffer OpenXbox.Gdb.Transport

abbrev Word := BitVec 32

/-! ## Digits -/

def digits : List Byte :=
  ['0', '1', '2', '3', '4', '5', '6', '7', '8', '9', 'a', 'b', 'c', 'd', 'e', 'f'].map char

def dbgGetDigit (val : Nat) : Byte := digits.getD val (BitVec.ofInt 8 EOF)

/-- The value of a digit, or `none` for `EOF`. No character from `0x80` on is a digit. -/
def dbgGetVal (digit : Byte) (base : Nat) : Option Nat :=
  let d := digit.toNat
  let value :=
    if '0'.toNat ≤ d ∧ d ≤ '9'.toNat then some (d - '0'.toNat)
    else if 'a'.toNat ≤ d ∧ d ≤ 'f'.toNat then some (d - 'a'.toNat + 0xa)
    else if 'A'.toNat ≤ d ∧ d ≤ 'F'.toNat then some (d - 'A'.toNat + 0xa)
    else none
  value.filter fun v => v < base

/-! ## Integers -/

/-- The digits from `pos` on, `left` characters before the end. -/
def strtolLoop (str : Nat → Byte) (base : Nat) : Nat → Nat → Word → Bool → Nat × Word × Bool
  | 0, pos, value, valid => (pos, value, valid)
  | left + 1, pos, value, valid =>
    if str pos = 0 then (pos, value, valid)
    else
      match dbgGetVal (str pos) base with
      | none => (pos, value, valid)
      | some tmp =>
        strtolLoop str base left (pos + 1) (value * BitVec.ofNat 32 base + BitVec.ofNat 32 tmp) true

/-- The sign and the position after it. -/
def strtolSign (str : Nat → Byte) : Int × Nat :=
  if str 0 = char '-' then (-1, 1) else if str 0 = char '+' then (1, 1) else (1, 0)

/-- The base and the position after the prefix. -/
def strtolBase (str : Nat → Byte) (len pos base : Nat) : Nat × Nat :=
  if pos + 2 < len ∧ str pos = char '0' ∧ (str (pos + 1) = char 'x' ∨ str (pos + 1) = char 'X') then
    (16, pos + 2)
  else (if base = 0 then 10 else base, pos)

/-- The value, and the offset of the first character after the digits if there are any. -/
def dbgStrtol (str : Nat → Byte) (len base : Nat) : Word × Option Nat :=
  if len < 1 then (0, none)
  else
    let (sign, pos) := strtolSign str
    let (base, pos) := strtolBase str len pos base
    match strtolLoop str base (len - pos) pos 0 false with
    | (_, _, false) => (0, none)
    | (pos, value, true) => (value * BitVec.ofInt 32 sign, some pos)

/-! ## Hexadecimal -/

/-- The two digits of a character, which is extended to an `int` with its sign. -/
def nibble (c : Byte) (shift : Nat) : Nat := (((c.signExtend 32).sshiftRight shift) &&& 0xf).toNat

def encHexLoop (data : Nat → Byte) : Nat → Nat → (Nat → Byte) → Nat → Byte
  | 0, _, buf => buf
  | left + 1, pos, buf =>
    let buf := store buf (2 * pos) (dbgGetDigit (nibble (data pos) 4))
    let buf := store buf (2 * pos + 1) (dbgGetDigit (nibble (data pos) 0))
    encHexLoop data left (pos + 1) buf

def dbgEncHex (buf : Nat → Byte) (bufLen : Nat) (data : Nat → Byte) (dataLen : Nat) :
    Status × (Nat → Byte) :=
  if bufLen < dataLen * 2 then (.eof, buf)
  else (.ok (dataLen * 2), encHexLoop data dataLen 0 buf)

/-- How a decoder ends on junk. -/
def junk (asserts : Bool) : Status := if asserts then .aborted else .eof

def decHexLoop (asserts : Bool) (buf : Nat → Byte) : Nat → Nat → (Nat → Byte) → Status × (Nat → Byte)
  | 0, _, data => (.ok 0, data)
  | left + 1, pos, data =>
    match dbgGetVal (buf (2 * pos)) 16 with
    | none => (junk asserts, data)
    | some high =>
      let data := store data pos (BitVec.ofNat 8 (high <<< 4))
      match dbgGetVal (buf (2 * pos + 1)) 16 with
      | none => (junk asserts, data)
      | some low =>
        decHexLoop asserts buf left (pos + 1) (store data pos (data pos ||| BitVec.ofNat 8 low))

def dbgDecHex (asserts : Bool) (buf : Nat → Byte) (bufLen : Nat) (data : Nat → Byte) (dataLen : Nat) :
    Status × (Nat → Byte) :=
  if bufLen ≠ dataLen * 2 then (.eof, data) else decHexLoop asserts buf dataLen 0 data

/-! ## Binary -/

/-- The characters that are escaped. -/
def isEscaped (c : Byte) : Bool :=
  c == char '$' || c == char '#' || c == char '}' || c == char '*'

def encBinLoop (asserts : Bool) (bufLen : Nat) (data : Nat → Byte) :
    Nat → Nat → Nat → (Nat → Byte) → Status × (Nat → Byte)
  | 0, _, bufPos, buf => (.ok bufPos, buf)
  | left + 1, dataPos, bufPos, buf =>
    if isEscaped (data dataPos) then
      if bufPos + 1 ≥ bufLen then (junk asserts, buf)
      else
        let buf := store buf bufPos (char '}')
        let buf := store buf (bufPos + 1) (data dataPos ^^^ 0x20)
        encBinLoop asserts bufLen data left (dataPos + 1) (bufPos + 2) buf
    else if bufPos ≥ bufLen then (junk asserts, buf)
    else
      encBinLoop asserts bufLen data left (dataPos + 1) (bufPos + 1) (store buf bufPos (data dataPos))

def dbgEncBin (asserts : Bool) (buf : Nat → Byte) (bufLen : Nat) (data : Nat → Byte) (dataLen : Nat) :
    Status × (Nat → Byte) :=
  encBinLoop asserts bufLen data dataLen 0 0 buf

/-- The loop with `left` characters of the buffer before its end. -/
def decBinLoop (asserts : Bool) (buf : Nat → Byte) (dataLen : Nat) :
    Nat → Nat → Nat → (Nat → Byte) → Status × (Nat → Byte)
  | 0, _, dataPos, data => (.ok dataPos, data)
  | left + 1, bufPos, dataPos, data =>
    if dataPos ≥ dataLen then (junk asserts, data)
    else if buf bufPos = char '}' then
      match left with
      | 0 => (junk asserts, data)
      | left + 1 =>
        decBinLoop asserts buf dataLen left (bufPos + 2) (dataPos + 1)
          (store data dataPos (buf (bufPos + 1) ^^^ 0x20))
    else
      decBinLoop asserts buf dataLen left (bufPos + 1) (dataPos + 1) (store data dataPos (buf bufPos))

def dbgDecBin (asserts : Bool) (buf : Nat → Byte) (bufLen : Nat) (data : Nat → Byte) (dataLen : Nat) :
    Status × (Nat → Byte) :=
  decBinLoop asserts buf dataLen bufLen 0 0 data

end OpenXbox.Gdb.Codec
