import OpenXbox.Ata.Channel

/-!
# The ports of the two ATA channels

Each channel has eight command ports and a control port. A command port is turned into a register
by subtracting a base port. For reads of the secondary channel this is the base of the primary one.
-/

namespace OpenXbox.Ata.Ports

open OpenXbox.Ata.Device OpenXbox.Ata.Channel

def kPrimaryIRQ : Byte := 14
def kPrimaryCommandBasePort : Word := 0x1F0
def kPrimaryCommandLastPort : Word := 0x1F7
def kPrimaryControlPort : Word := 0x3F6

def kSecondaryIRQ : Byte := 15
def kSecondaryCommandBasePort : Word := 0x170
def kSecondaryCommandLastPort : Word := 0x177
def kSecondaryControlPort : Word := 0x376

inductive Channel
  | primary
  | secondary
  deriving DecidableEq

structure ATA where
  channels : Channel → ATAChannel

def ATA.initial (drivers : Channel → Fin 2 → ATADeviceDriver) : ATA where
  channels
    | .primary => .initial (drivers .primary) kPrimaryIRQ
    | .secondary => .initial (drivers .secondary) kSecondaryIRQ

/-- The ATA object after a call on one of its channels. -/
def ATA.onChannel (a : ATA) (c : Channel) (r : ATAChannel × Response) : ATA × Response :=
  (⟨Function.update a.channels c r.1⟩, r.2)

theorem ATA.onChannel_self (a : ATA) (c : Channel) (r : ATAChannel × Response) :
    (a.onChannel c r).1.channels c = r.1 := by
  simp only [ATA.onChannel, Function.update_self]

theorem ATA.onChannel_of_ne (a : ATA) {c d : Channel} (h : d ≠ c) (r : ATAChannel × Response) :
    (a.onChannel c r).1.channels d = a.channels d := by
  simp only [ATA.onChannel, Function.update_of_ne h]

/-- The cast of a port number, less a base port, to `Register`. -/
def toRegister (port base : Word) : Byte := (port - base).setWidth 8

def ioRead (a : ATA) (port value : Word) (size : Nat) : ATA × Response :=
  if port ≥ kPrimaryCommandBasePort ∧ port ≤ kPrimaryCommandLastPort then
    a.onChannel .primary
      (readCommandPort (a.channels .primary) (toRegister port kPrimaryCommandBasePort) value size)
  else if port = kPrimaryControlPort then
    a.onChannel .primary (readControlPort (a.channels .primary) value)
  else if port ≥ kSecondaryCommandBasePort ∧ port ≤ kSecondaryCommandLastPort then
    a.onChannel .secondary
      (readCommandPort (a.channels .secondary) (toRegister port kPrimaryCommandBasePort) value size)
  else if port = kSecondaryControlPort then
    a.onChannel .secondary (readControlPort (a.channels .secondary) value)
  else (a, ⟨some 0, false, false⟩)

def ioWrite (a : ATA) (port value : Word) : ATA × Response :=
  if port ≥ kPrimaryCommandBasePort ∧ port ≤ kPrimaryCommandLastPort then
    a.onChannel .primary
      (writeCommandPort (a.channels .primary) (toRegister port kPrimaryCommandBasePort) value)
  else if port = kPrimaryControlPort then
    a.onChannel .primary (writeControlPort (a.channels .primary) value)
  else if port ≥ kSecondaryCommandBasePort ∧ port ≤ kSecondaryCommandLastPort then
    a.onChannel .secondary
      (writeCommandPort (a.channels .secondary) (toRegister port kSecondaryCommandBasePort) value)
  else if port = kSecondaryControlPort then
    a.onChannel .secondary (writeControlPort (a.channels .secondary) value)
  else (a, ⟨none, false, false⟩)

/-- A port access; a read is made into a variable that holds `value`. -/
inductive PortAccess
  | read (port value : Word) (size : Nat)
  | write (port value : Word) (size : Nat)
  deriving DecidableEq

def PortAccess.port : PortAccess → Word
  | .read port _ _ => port
  | .write port _ _ => port

def io (a : ATA) : PortAccess → ATA × Response
  | .read port value size => ioRead a port value size
  | .write port value _ => ioWrite a port value

end OpenXbox.Ata.Ports
