import OpenXbox.Lib.Parts
import OpenXbox.Smbus.Bus
import Mathlib.Data.List.GetD

/-!
# Transactions through the ports

A guest has the controller run a transaction by writing its registers one after the other, and takes
the reply out of them. The device then does what it does when it is called itself, whatever the
registers held before and whatever else the guest does with them between two transactions.
-/

namespace OpenXbox.Smbus.Transactions

open OpenXbox.Smbus.Devices OpenXbox.Smbus.Bus OpenXbox.Lib.Run OpenXbox.Lib.Parts

/-! ## Requests -/

/-- The data of a block write, as long as the block buffer at most. -/
structure Block where
  bytes : List Byte
  fits : bytes.length ≤ 32

/-- What a guest can have a device do. -/
inductive Request where
  | quick (read : Bool)
  | sendByte (data : Byte)
  | receiveByte
  | readByte (command : Byte)
  | writeByte (command value : Byte)
  | readWord (command : Byte)
  | writeWord (command : Byte) (value : BitVec 16)
  | readBlock (command : Byte)
  | writeBlock (command : Byte) (block : Block)

inductive Reply where
  | failed
  | done
  | value (value : Word)
deriving DecidableEq

namespace Request

def isRead : Request → Bool
  | quick read => read
  | receiveByte | readByte _ | readWord _ | readBlock _ => true
  | _ => false

def prot : Request → Nat
  | quick _ => AMD756_QUICK
  | sendByte _ | receiveByte => AMD756_BYTE
  | readByte _ | writeByte _ _ => AMD756_BYTE_DATA
  | readWord _ | writeWord _ _ => AMD756_WORD_DATA
  | readBlock _ | writeBlock _ _ => AMD756_BLOCK_DATA

def command : Request → Byte
  | quick _ | receiveByte => 0
  | sendByte data => data
  | readByte c | writeByte c _ | readWord c | writeWord c _ | readBlock c | writeBlock c _ => c

/-- The size of the access that takes the reply out of the data register. -/
def replySize : Request → Option Nat
  | receiveByte | readByte _ | readBlock _ => some 1
  | readWord _ => some 2
  | _ => none

/-- The device called itself. -/
def call (d : SMDevice) : Request → Reply × SMDevice
  | quick read => (.done, d.quickCommand read)
  | sendByte data => (.done, d.sendByte data)
  | receiveByte => (.value (d.receiveByte.setWidth 32), d)
  | readByte c =>
    let (value, d) := (d.readByte c).result
    (.value (value.setWidth 32), d)
  | writeByte c value => (.done, (d.writeByte c value).result)
  | readWord c => (.value ((d.readWord c).result.setWidth 32), d)
  | writeWord c value => (.done, (d.writeWord c value).result)
  | readBlock c => (.value ((BitVec.ofNat 8 (d.readBlock c)).setWidth 32), d)
  | writeBlock c block =>
    (.done, (d.writeBlock c (fun i => block.bytes.getD i 0) block.bytes.length).result)

end Request

/-! ## The ports -/

/-- One access after the other. -/
def after (s : SMBus) (ops : List Op) : SMBus := ops.foldl (fun s op => (op.apply s).result) s

/-- The ports of the controller may lie anywhere. -/
def portAt (base : BitVec 26) (reg : Nat) : Word := base ++ BitVec.ofNat 6 reg

/-- A transaction with a device, with the interrupt at its end or without. -/
structure Transaction where
  base : BitVec 26
  addr : BitVec 7
  interrupt : Bool
  request : Request

namespace Transaction

variable (t : Transaction)

def device : Byte := t.addr.setWidth 8

def addressByte : Byte := t.addr ++ BitVec.ofBool t.request.isRead

def enableByte : Byte :=
  BitVec.ofNat 8 t.request.prot ||| GE_HOST_STC ||| if t.interrupt then GE_HCYC_EN else 0

def write (reg : Nat) (value : Word) (size : Nat) : Op := .write 1 (portAt t.base reg) value size

/-- The data that goes to the device. -/
def dataWrites : List Op :=
  match t.request with
  | .writeByte _ value => [t.write SMB_HOST_DATA (value.setWidth 32) 1]
  | .writeWord _ value => [t.write SMB_HOST_DATA (value.setWidth 32) 2]
  | .writeBlock _ block =>
    t.write SMB_HOST_DATA (BitVec.ofNat 32 block.bytes.length) 1 ::
      block.bytes.map fun value => t.write SMB_HOST_BLOCK_DATA (value.setWidth 32) 1
  | _ => []

/-- The flags are cleared first, which also takes the block buffer back to its start. -/
def addressWrites : List Op :=
  [t.write SMB_GLOBAL_STATUS (GS_CLEAR_STS.setWidth 32) 1,
    t.write SMB_HOST_ADDRESS (t.addressByte.setWidth 32) 1,
    t.write SMB_HOST_COMMAND (t.request.command.setWidth 32) 1]

def writes : List Op :=
  t.addressWrites ++ t.dataWrites ++ [t.write SMB_GLOBAL_ENABLE (t.enableByte.setWidth 32) 1]

def read (s : SMBus) (reg size : Nat) : Word × SMBus :=
  (s.pciIORead 1 (portAt t.base reg) size).result

/-- The transaction through the ports. -/
def transact (s : SMBus) : Reply × SMBus :=
  let s := after s t.writes
  let (status, s) := t.read s SMB_GLOBAL_STATUS 1
  if has (status.setWidth 8) GS_HCYC_STS then
    match t.request.replySize with
    | some size =>
      let (value, s) := t.read s SMB_HOST_DATA size
      (.value value, s)
    | none => (.done, s)
  else (.failed, s)

end Transaction

/-! ## The devices alone -/

abbrev DeviceMap := Byte → Option SMDevice

namespace DeviceMap

def set (ds : DeviceMap) (addr : Byte) (d : SMDevice) : DeviceMap :=
  fun a => if a = addr then some d else ds a

/-- A second device at an address is not connected. -/
def connect (ds : DeviceMap) (addr : Byte) (d : SMDevice) : DeviceMap :=
  match ds ((addr >>> 1) &&& 0x7f) with
  | some _ => ds
  | none => ds.set ((addr >>> 1) &&& 0x7f) d.init

/-- The device is called; at an address without one nothing answers. -/
def serve (ds : DeviceMap) (t : Transaction) : Reply × DeviceMap :=
  match ds t.device with
  | none => (.failed, ds)
  | some d => ((t.request.call d).1, ds.set t.device (t.request.call d).2)

end DeviceMap

/-! ## Runs -/

/-- The access starts a transaction. -/
def Starts : Op → Prop
  | .write barIndex port value _ =>
    barIndex = 1 ∧ register port = SMB_GLOBAL_ENABLE ∧ has (value.setWidth 8) GE_HOST_STC
  | _ => False

/-- What happens between transactions. -/
structure Aside where
  op : Op
  idle : ¬ Starts op

inductive Event where
  | transaction (t : Transaction)
  | aside (a : Aside)

/-- The controller, with the replies that the guest gets. -/
def step (s : SMBus) : Event → Option SMBus
  | .transaction t => some (t.transact s).2
  | .aside a => some (a.op.apply s).result

def replies (s : SMBus) : Event → List Reply
  | .transaction t => [(t.transact s).1]
  | .aside _ => []

def deviceStep (ds : DeviceMap) : Event → Option DeviceMap
  | .transaction t => some (ds.serve t).2
  | .aside ⟨.connect addr d, _⟩ => some (ds.connect addr d)
  | .aside _ => some ds

def deviceReplies (ds : DeviceMap) : Event → List Reply
  | .transaction t => [(ds.serve t).1]
  | .aside _ => []

/-! ## The registers when the transaction starts -/

section Prepare

variable {t : Transaction} {s : SMBus} {ds : DeviceMap}

theorem register_portAt (base : BitVec 26) {reg : Nat} (h : reg < 64) :
    register (portAt base reg) = reg := by
  have hmask : (0x3f : Word).toNat = 2 ^ 6 - 1 := rfl
  unfold register portAt
  rw [BitVec.toNat_and, hmask, Nat.and_two_pow_sub_one_eq_mod, BitVec.toNat_append,
    BitVec.toNat_ofNat, Nat.or_mod_two_pow, Nat.shiftLeft_eq, Nat.mul_mod_left, Nat.zero_or,
    Nat.mod_mod, Nat.mod_eq_of_lt h]

/-- A byte that a register is written with. -/
theorem setWidth_byte (x : Byte) : (x.setWidth 32 : Word).setWidth 8 = x := by
  rw [BitVec.setWidth_setWidth_of_le x (by decide), BitVec.setWidth_eq]

/-- The low byte of a value. -/
theorem setWidth_low {w : Nat} (x : BitVec w) (h : 8 ≤ w) :
    (x &&& BitVec.ofNat w 0xFF).setWidth 8 = x.setWidth 8 := by
  have hall : (BitVec.ofNat w 0xFF).setWidth 8 = BitVec.allOnes 8 := by
    rw [BitVec.setWidth_ofNat_of_le h]
    rfl
  rw [BitVec.setWidth_and, hall, BitVec.and_allOnes]

/-- The two data registers take a word apart. -/
theorem append_halves {w : Nat} (x : BitVec w) :
    ((x >>> 8).setWidth 8 : Byte) ++ (x.setWidth 8 : Byte) = x.setWidth 16 := by
  apply BitVec.eq_of_getLsbD_eq
  intro i hi
  rw [BitVec.getLsbD_append]
  by_cases hlow : i < 8
  · simp [hlow, hi]
  · have hbound : i - 8 < 8 := by omega
    have hback : 8 + (i - 8) = i := by omega
    simp [hlow, hbound, hback, hi]

@[simp] theorem after_nil (s : SMBus) : after s [] = s := rfl

@[simp] theorem after_cons (s : SMBus) (op : Op) (ops : List Op) :
    after s (op :: ops) = after (op.apply s).result ops := rfl

@[simp] theorem after_append (s : SMBus) (ops ops' : List Op) :
    after s (ops ++ ops') = after (after s ops) ops' := List.foldl_append

theorem write_apply (t : Transaction) (s : SMBus) (reg : Nat) (value : Word) (size : Nat) :
    ((t.write reg value size).apply s).result =
      (s.pciIOWrite 1 (portAt t.base reg) value size).result := rfl

section Writes

variable (t : Transaction) (s : SMBus) (value : Word)

theorem write_status : ((t.write SMB_GLOBAL_STATUS value 1).apply s).result =
    s.writeStatus (value.setWidth 8) := by
  rw [write_apply, SMBus.pciIOWrite_status _ _ (register_portAt _ (by decide))]
  rfl

theorem write_enable : ((t.write SMB_GLOBAL_ENABLE value 1).apply s).result =
    (s.writeEnable (value.setWidth 8)).result := by
  rw [write_apply, SMBus.pciIOWrite_enable _ _ (register_portAt _ (by decide))]

theorem write_address : ((t.write SMB_HOST_ADDRESS value 1).apply s).result =
    { s with address := value.setWidth 8 } := by
  have hport : register (portAt t.base SMB_HOST_ADDRESS) = SMB_HOST_ADDRESS :=
    register_portAt _ (by decide)
  rw [write_apply, SMBus.pciIOWrite, hport]
  rfl

theorem write_command : ((t.write SMB_HOST_COMMAND value 1).apply s).result =
    { s with command := value.setWidth 8 } := by
  have hport : register (portAt t.base SMB_HOST_COMMAND) = SMB_HOST_COMMAND :=
    register_portAt _ (by decide)
  rw [write_apply, SMBus.pciIOWrite, hport]
  rfl

theorem write_data (size : Nat) : ((t.write SMB_HOST_DATA value size).apply s).result =
    s.writeData value size := by
  have hport : register (portAt t.base SMB_HOST_DATA) = SMB_HOST_DATA :=
    register_portAt _ (by decide)
  rw [write_apply, SMBus.pciIOWrite, hport]
  rfl

theorem write_block : ((t.write SMB_HOST_BLOCK_DATA value 1).apply s).result =
    SMBus.advance { s with
      data := fun i => if i = s.index.toNat then value.setWidth 8 else s.data i } := by
  have hport : register (portAt t.base SMB_HOST_BLOCK_DATA) = SMB_HOST_BLOCK_DATA :=
    register_portAt _ (by decide)
  rw [write_apply, SMBus.pciIOWrite, hport]
  rfl

end Writes

/-- The data for the device lies in the registers. -/
def Payload (s : SMBus) : Request → Prop
  | .writeByte _ value => s.data0 = value
  | .writeWord _ value => s.data1 ++ s.data0 = value
  | .writeBlock _ block => s.data0.toNat = block.bytes.length ∧
    ∀ i < block.bytes.length, s.data i = block.bytes.getD i 0
  | _ => True

/-- What the writes that select the device and the command leave in the registers. -/
structure Addressed (t : Transaction) (ds : DeviceMap) (s : SMBus) : Prop where
  status : s.status = 0
  address : s.address = t.addressByte
  command : s.command = t.request.command
  devices : s.devices = ds

theorem after_addressed (t : Transaction) (s : SMBus) :
    Addressed t s.devices (after s t.addressWrites) ∧ (after s t.addressWrites).index = 0 := by
  have hclear : has GS_CLEAR_STS GS_CLEAR_STS = true := by decide
  simp only [Transaction.addressWrites, after_cons, after_nil, write_status, write_address,
    write_command, setWidth_byte, SMBus.writeStatus, hclear, if_pos]
  split
  · exact ⟨⟨rfl, rfl, rfl, rfl⟩, trivial⟩
  · exact ⟨⟨rfl, rfl, rfl, rfl⟩, trivial⟩

/-- The block buffer after the first bytes have been written to it. -/
structure Filled (s : SMBus) (bytes : List Byte) (s' : SMBus) : Prop where
  index : s'.index.toNat = bytes.length % 32
  data : ∀ i < bytes.length, s'.data i = bytes.getD i 0
  data0 : s'.data0 = s.data0
  addressed : ∀ t ds, Addressed t ds s → Addressed t ds s'

theorem toNat_advance (h : s.index.toNat < 32) :
    s.advance.index.toNat = (s.index.toNat + 1) % 32 := by
  have hnext : (s.index + 1).toNat = s.index.toNat + 1 := by
    rw [BitVec.toNat_add]
    exact Nat.mod_eq_of_lt (by simp; omega)
  unfold SMBus.advance
  dsimp only
  by_cases hlast : s.index + 1 > 31
  · have hgt : 31 < (s.index + 1).toNat := hlast
    rw [if_pos hlast]
    simp
    omega
  · have hle : ¬ 31 < (s.index + 1).toNat := hlast
    rw [if_neg hlast, hnext, Nat.mod_eq_of_lt (by omega)]

theorem after_filled (t : Transaction) (hi : s.index = 0) (bytes : List Byte)
    (h : bytes.length ≤ 32) : Filled s bytes
      (after s (bytes.map fun value => t.write SMB_HOST_BLOCK_DATA (value.setWidth 32) 1)) := by
  induction bytes using List.reverseRecOn with
  | nil => exact ⟨by simp [hi], by simp, rfl, fun _ _ => id⟩
  | append_singleton bytes value ih =>
    rw [List.length_append, List.length_singleton] at h
    have hfilled := ih (by omega)
    rw [List.map_append, List.map_singleton, after_append, after_cons, after_nil, write_block,
      setWidth_byte]
    generalize after s (bytes.map fun value => t.write SMB_HOST_BLOCK_DATA (value.setWidth 32) 1) = u
      at hfilled ⊢
    have hindex : u.index.toNat = bytes.length := by
      rw [hfilled.index]
      exact Nat.mod_eq_of_lt h
    refine ⟨?_, ?_, hfilled.data0, fun t ds ha => ?_⟩
    · rw [toNat_advance (hindex ▸ h), hindex, List.length_append]
      rfl
    · intro i hi
      rw [List.length_append, List.length_singleton] at hi
      change (if i = u.index.toNat then value else u.data i) = _
      rw [hindex]
      by_cases hlast : i = bytes.length
      · simp [hlast]
      · have hlt : i < bytes.length := by omega
        rw [if_neg hlast, hfilled.data i hlt, List.getD_append _ _ _ _ hlt]
    · rcases hfilled.addressed t ds ha with ⟨hstatus, haddress, hcommand, hdevices⟩
      exact ⟨hstatus, haddress, hcommand, hdevices⟩

/-- The registers are ready for the transaction. -/
structure Prepared (t : Transaction) (ds : DeviceMap) (s : SMBus) : Prop
    extends Addressed t ds s where
  payload : Payload s t.request

theorem after_prepared (ha : Addressed t ds s) (hi : s.index = 0) :
    Prepared t ds (after s t.dataWrites) := by
  unfold Transaction.dataWrites
  split
  · next hreq =>
    rw [after_cons, after_nil, write_data]
    refine ⟨⟨ha.status, ha.address, ha.command, ha.devices⟩, ?_⟩
    rw [hreq]
    exact setWidth_byte _
  · next value hreq =>
    rw [after_cons, after_nil, write_data]
    refine ⟨⟨ha.status, ha.address, ha.command, ha.devices⟩, ?_⟩
    rw [hreq]
    have hback : (value.setWidth 32 : Word).setWidth 16 = value := by
      rw [BitVec.setWidth_setWidth_of_le value (by decide), BitVec.setWidth_eq]
    refine Eq.trans ?_ ((append_halves (value.setWidth 32 : Word)).trans hback)
    exact congrArg₂ _ (setWidth_low ((value.setWidth 32 : Word) >>> 8) (by decide))
      (setWidth_low (value.setWidth 32 : Word) (by decide))
  · next block hreq =>
    rw [after_cons, write_data]
    have hfilled := after_filled (s := s.writeData (BitVec.ofNat 32 block.bytes.length) 1) t hi
      block.bytes block.fits
    refine ⟨hfilled.addressed t ds ⟨ha.status, ha.address, ha.command, ha.devices⟩, ?_⟩
    rw [hreq]
    refine ⟨?_, hfilled.data⟩
    rw [hfilled.data0]
    have hfits := block.fits
    simp [SMBus.writeData]
    omega
  · next hbyte hword hblock =>
    refine ⟨ha, ?_⟩
    cases hreq : t.request with
    | writeByte c value => exact absurd hreq (hbyte c value)
    | writeWord c value => exact absurd hreq (hword c value)
    | writeBlock c block => exact absurd hreq (hblock c block)
    | _ => trivial

end Prepare

/-! ## The transaction -/

section Execute

variable {t : Transaction} {s : SMBus} {ds : DeviceMap} {d : SMDevice}

theorem deviceAddress_eq (h : s.address = t.addressByte) : s.deviceAddress = t.device := by
  have hkey : ∀ (addr : BitVec 7) (read : Bool),
      ((addr ++ BitVec.ofBool read : Byte) >>> 1) &&& 0x7f = addr.setWidth 8 := by decide
  unfold SMBus.deviceAddress
  rw [h]
  exact hkey _ _

theorem isRead_eq (h : s.address = t.addressByte) : s.isRead = t.request.isRead := by
  have hkey : ∀ (addr : BitVec 7) (read : Bool),
      has (addr ++ BitVec.ofBool read : Byte) 0x01 = read := by decide
  unfold SMBus.isRead
  rw [h]
  exact hkey _ _

/-- The value of the enable register for the protocols that are known. -/
theorem enable_fields : ∀ prot < 6, ∀ interrupt : Bool,
    let value := BitVec.ofNat 8 prot ||| GE_HOST_STC ||| if interrupt then GE_HCYC_EN else 0
    (value &&& GE_CYC_TYPE_MASK).toNat = prot ∧ has value GE_HOST_STC = true ∧
      has value GE_ABORT = false := by decide

theorem prot_lt (r : Request) : r.prot < 6 := by
  cases r <;> exact of_decide_eq_true rfl

theorem prot_eq (h : s.control = t.enableByte) : s.prot = t.request.prot := by
  unfold SMBus.prot
  rw [h]
  exact (enable_fields _ (prot_lt t.request) t.interrupt).1

theorem set_self {ds : DeviceMap} {a : Byte} (h : ds a = some d) : ds.set a d = ds := by
  funext b
  unfold DeviceMap.set
  split
  · next hb => rw [hb, h]
  · rfl

/-- The reply is in the data registers, where one is taken out of them. -/
def Holds (s : SMBus) (reply : Reply) : Option Nat → Prop
  | some size => reply = .value (s.readData size)
  | none => reply = .done

/-- What the device has done, as the controller has it. -/
structure Called (addr : Byte) (request : Request) (d : SMDevice) (s s' : SMBus) : Prop where
  status : s'.status = s.status
  devices : s'.devices = DeviceMap.set s.devices addr (request.call d).2
  reply : Holds s' (request.call d).1 request.replySize

/-- A block write takes nothing from behind the block. -/
theorem memcpy_congr {mem data data' : Nat → Byte} {offset length : Nat}
    (h : ∀ i < length, data i = data' i) :
    memcpy mem offset data length = memcpy mem offset data' length := by
  funext k
  unfold memcpy
  split
  · next hk => exact h _ (by omega)
  · rfl

theorem writeBlock_congr {command : Byte} {data data' : Nat → Byte} {length : Nat}
    (h : ∀ i < length, data i = data' i) :
    (d.writeBlock command data length).result = (d.writeBlock command data' length).result := by
  cases d with
  | eeprom mem => exact congrArg SMDevice.eeprom (memcpy_congr h)
  | smc d => rfl
  | encoder regs => exact congrArg SMDevice.encoder (memcpy_congr h)

/-- The controller calls the device as the request says. -/
theorem transfer_called {request : Request} (hread : s.isRead = request.isRead)
    (hprot : s.prot = request.prot) (hcommand : s.command = request.command)
    (hpayload : Payload s request) (hd : s.devices s.deviceAddress = some d) :
    ∃ call, s.transfer d = some call ∧ Called s.deviceAddress request d s call.result := by
  have hself : s.devices = DeviceMap.set s.devices s.deviceAddress d := (set_self hd).symm
  unfold SMBus.transfer
  rw [hread, hprot, hcommand]
  cases request with
  | quick read => exact ⟨_, rfl, rfl, rfl, rfl⟩
  | sendByte data => exact ⟨_, rfl, rfl, rfl, rfl⟩
  | receiveByte => exact ⟨_, rfl, rfl, hself, rfl⟩
  | readByte command => exact ⟨_, rfl, rfl, rfl, rfl⟩
  | writeByte command value =>
    have hvalue : s.data0 = value := hpayload
    exact ⟨_, rfl, rfl, hvalue ▸ rfl, rfl⟩
  | readWord command =>
    refine ⟨_, rfl, rfl, hself, ?_⟩
    have hvalue := append_halves (d.readWord command).result
    rw [BitVec.setWidth_eq] at hvalue
    refine congrArg Reply.value (congrArg (BitVec.setWidth 32) ?_)
    exact hvalue.symm.trans (congrArg _ (setWidth_low _ (by decide)).symm)
  | writeWord command value =>
    have hvalue : s.data1 ++ s.data0 = value := hpayload
    exact ⟨_, rfl, rfl, hvalue ▸ rfl, rfl⟩
  | readBlock command => exact ⟨_, rfl, rfl, hself, rfl⟩
  | writeBlock command block =>
    rcases hpayload with ⟨hlength, hdata⟩
    refine ⟨_, rfl, rfl, ?_, rfl⟩
    have hblock : (d.writeBlock command s.data s.data0.toNat).result =
        (d.writeBlock command (fun i => block.bytes.getD i 0) block.bytes.length).result := by
      rw [hlength]
      exact writeBlock_congr hdata
    exact congrArg (DeviceMap.set s.devices s.deviceAddress) hblock

/-- What the guest takes the reply from. -/
structure SameReply (s s' : SMBus) : Prop where
  status : s'.status = s.status
  data : ∀ size, s'.readData size = s.readData size
  devices : s'.devices = s.devices

theorem signal_sameReply (s : SMBus) (value : Byte) : SameReply s (s.signal value) := by
  unfold SMBus.signal
  split
  · exact ⟨rfl, fun _ => rfl, rfl⟩
  · exact ⟨rfl, fun _ => rfl, rfl⟩

/-- The transaction starts, with its protocol in the enable register. -/
theorem writeEnable_sameReply (h : Prepared t ds s) : ∃ u, Prepared t ds u ∧ u.control = t.enableByte ∧
    SameReply u.executeTransaction.result (s.writeEnable t.enableByte).result := by
  rcases (enable_fields _ (prot_lt t.request) t.interrupt).2 with ⟨hstart, habort⟩
  have hcontrol : s.writeControl t.enableByte = { s with control := t.enableByte } := by
    unfold SMBus.writeControl
    exact if_neg (Bool.eq_false_iff.mp habort)
  refine ⟨s.writeControl t.enableByte, ?_, ?_, ?_⟩
  · rw [hcontrol]
    exact ⟨⟨h.status, h.address, h.command, h.devices⟩, h.payload⟩
  · rw [hcontrol]
  · unfold SMBus.writeEnable
    dsimp only
    rw [if_pos (show has t.enableByte GE_HOST_STC = true from hstart)]
    exact signal_sameReply _ _

theorem after_writes (t : Transaction) (s : SMBus) : ∃ u, Prepared t s.devices u ∧
    u.control = t.enableByte ∧ SameReply u.executeTransaction.result (after s t.writes) := by
  rcases after_addressed t s with ⟨haddressed, hindex⟩
  have hstarted := writeEnable_sameReply (after_prepared haddressed hindex)
  rw [← setWidth_byte t.enableByte, ← write_enable] at hstarted
  rw [Transaction.writes, after_append, after_append, after_cons, after_nil]
  simpa only [setWidth_byte] using hstarted

theorem read_status (t : Transaction) (s : SMBus) :
    t.read s SMB_GLOBAL_STATUS 1 = (s.status.setWidth 32, s) := by
  have hport : register (portAt t.base SMB_GLOBAL_STATUS) = SMB_GLOBAL_STATUS :=
    register_portAt _ (by decide)
  rw [Transaction.read, SMBus.pciIORead, hport]
  rfl

theorem read_data (t : Transaction) (s : SMBus) (size : Nat) :
    t.read s SMB_HOST_DATA size = (s.readData size, s) := by
  have hport : register (portAt t.base SMB_HOST_DATA) = SMB_HOST_DATA :=
    register_portAt _ (by decide)
  rw [Transaction.read, SMBus.pciIORead, hport]
  rfl

/-- The reads take out what the writes have left. -/
theorem transact_fst (t : Transaction) (s : SMBus) : (t.transact s).1 =
    if has (after s t.writes).status GS_HCYC_STS then
      match t.request.replySize with
      | some size => .value ((after s t.writes).readData size)
      | none => .done
    else .failed := by
  unfold Transaction.transact
  generalize after s t.writes = s'
  dsimp only
  rw [read_status]
  dsimp only
  rw [setWidth_byte]
  split
  · cases t.request.replySize with
    | none => rfl
    | some size =>
      dsimp only
      rw [read_data]
  · rfl

theorem transact_snd (t : Transaction) (s : SMBus) : (t.transact s).2 = after s t.writes := by
  unfold Transaction.transact
  generalize after s t.writes = s'
  dsimp only
  rw [read_status]
  dsimp only
  split
  · cases t.request.replySize with
    | none => rfl
    | some size =>
      dsimp only
      rw [read_data]
  · rfl

theorem executeTransaction_none (h : s.devices s.deviceAddress = none) :
    s.executeTransaction.result = s.setStatus GS_PRERR_STS := by
  unfold SMBus.executeTransaction
  rw [h]
  rfl

theorem executeTransaction_some {call : Touching SMBus} (h : s.devices s.deviceAddress = some d)
    (hcall : s.transfer d = some call) :
    s.executeTransaction.result = call.result.setStatus GS_HCYC_STS := by
  unfold SMBus.executeTransaction
  rw [h]
  dsimp only
  rw [hcall]
  rfl

/-- A transaction through the ports is a call of the device. -/
theorem transact_serve (t : Transaction) (s : SMBus) :
    (t.transact s).1 = (DeviceMap.serve s.devices t).1 ∧
      (t.transact s).2.devices = (DeviceMap.serve s.devices t).2 := by
  rcases after_writes t s with ⟨u, h, hcontrol, hsame⟩
  rw [transact_fst, transact_snd, hsame.status, hsame.devices]
  simp only [hsame.data]
  have hdevice := deviceAddress_eq h.address
  have hmap : u.devices u.deviceAddress = s.devices t.device := by rw [hdevice, h.devices]
  unfold DeviceMap.serve
  cases hd : s.devices t.device with
  | none =>
    rw [executeTransaction_none (hmap.trans hd)]
    have hfailed : has (u.status ||| GS_PRERR_STS) GS_HCYC_STS = false := by
      rw [h.status]
      rfl
    exact ⟨if_neg (Bool.eq_false_iff.mp hfailed), h.devices⟩
  | some d =>
    rcases transfer_called (isRead_eq h.address) (prot_eq hcontrol) h.command h.payload
      (hmap.trans hd) with ⟨call, hcall, hcalled⟩
    rw [executeTransaction_some (hmap.trans hd) hcall]
    have hdone : has (call.result.status ||| GS_HCYC_STS) GS_HCYC_STS = true := by
      rw [hcalled.status, h.status]
      rfl
    have hreply := hcalled.reply
    refine ⟨(if_pos hdone).trans ?_, ?_⟩
    · unfold Holds at hreply
      split at hreply
      · exact hreply.symm
      · exact hreply.symm
    · rw [← h.devices, ← hdevice]
      exact hcalled.devices

end Execute

/-! ## Between transactions -/

section Aside

variable {s : SMBus}

theorem advance_devices (s : SMBus) : s.advance.devices = s.devices := rfl

theorem read_devices (s : SMBus) (barIndex : Nat) (port : Word) (size : Nat) :
    (s.pciIORead barIndex port size).result.2.devices = s.devices := by
  refine SMBus.pciIORead_cases (motive := fun call => call.result.2.devices = s.devices) s barIndex port
    size (fun _ => rfl) ?_
  simp only [result_bind, result_pure, advance_devices]

theorem writeStatus_devices (s : SMBus) (value : Byte) : (s.writeStatus value).devices = s.devices := by
  unfold SMBus.writeStatus
  dsimp only
  split <;> split <;> first | rfl | (split <;> rfl)

theorem writeEnable_devices {value : Byte} (h : has value GE_HOST_STC = false) :
    (s.writeEnable value).result.devices = s.devices := by
  unfold SMBus.writeEnable SMBus.writeControl
  dsimp only
  rw [if_neg (Bool.eq_false_iff.mp h)]
  split <;> rfl

/-- An access that starts no transaction leaves the devices alone. -/
theorem write_devices {barIndex : Nat} {port value : Word} {size : Nat}
    (h : ¬ Starts (.write barIndex port value size)) :
    (s.pciIOWrite barIndex port value size).result.devices = s.devices := by
  refine SMBus.pciIOWrite_cases (motive := fun call => call.result.devices = s.devices) s barIndex port
    value size (fun _ _ => writeStatus_devices s _) (fun hbar hport => writeEnable_devices ?_)
    (fun _ _ _ _ => rfl) (fun _ => rfl)
  exact Bool.eq_false_iff.mpr fun hstart => h ⟨hbar, hport, hstart⟩

theorem reset_devices (s : SMBus) : s.reset.devices = s.devices := by
  funext a
  unfold SMBus.reset
  dsimp only
  cases s.devices a <;> rfl

theorem connectDevice_devices (s : SMBus) (addr : Byte) (d : SMDevice) :
    (s.connectDevice addr d).devices = DeviceMap.connect s.devices addr d := by
  unfold SMBus.connectDevice DeviceMap.connect
  dsimp only
  cases s.devices ((addr >>> 1) &&& 0x7f) <;> rfl

theorem step_devices (s : SMBus) (e : Event) :
    ∃ s', step s e = some s' ∧ deviceStep s.devices e = some s'.devices := by
  rcases e with t | ⟨op, hidle⟩
  · exact ⟨_, rfl, congrArg some (transact_serve t s).2.symm⟩
  · refine ⟨_, rfl, ?_⟩
    cases op with
    | connect addr d => exact congrArg some (connectDevice_devices s addr d).symm
    | reset => exact congrArg some (reset_devices s).symm
    | read barIndex port size => exact congrArg some (read_devices s barIndex port size).symm
    | write barIndex port value size => exact congrArg some (write_devices hidle).symm

end Aside

/-! ## Every run -/

theorem step_share {s s' : SMBus} {e : Event} (h : step s e = some s') :
    exec deviceStep s.devices [e] = some s'.devices := by
  rcases step_devices s e with ⟨u, hu, hdevices⟩
  rw [h, Option.some.injEq] at hu
  rw [exec_cons, hdevices, hu]
  rfl

theorem replies_share (s : SMBus) (e : Event) :
    replies s e = outputs deviceStep deviceReplies s.devices [e] := by
  rw [outputs_singleton]
  cases e with
  | transaction t => exact congrArg (fun r => [r]) (transact_serve t s).1
  | aside a => rfl

theorem exec_step (s : SMBus) (es : List Event) : ∃ s', exec step s es = some s' := by
  induction es generalizing s with
  | nil => exact ⟨s, rfl⟩
  | cons e es ih =>
    rcases step_devices s e with ⟨u, hu, -⟩
    rcases ih u with ⟨s', hs'⟩
    exact ⟨s', by rw [exec_cons, hu, Option.bind_some, hs']⟩

/-- In every run the devices and the replies are what they are when the devices are called
themselves. -/
theorem transactions_refine_calls (s : SMBus) (es : List Event) :
    ∃ s', exec step s es = some s' ∧ exec deviceStep s.devices es = some s'.devices ∧
      outputs step replies s es = outputs deviceStep deviceReplies s.devices es := by
  rcases exec_step s es with ⟨s', hs'⟩
  refine ⟨s', hs', ?_, ?_⟩
  · have hpart := exec_share (fun _ _ _ h => step_share h) hs'
    simpa using hpart
  · have hpart := outputs_share (fun _ _ _ h => step_share h) (fun s e _ _ => replies_share s e) hs'
    simpa using hpart

end OpenXbox.Smbus.Transactions
