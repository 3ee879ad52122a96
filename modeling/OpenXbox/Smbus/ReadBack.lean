import OpenXbox.Lib.Latch
import OpenXbox.Smbus.Transactions

/-!
# What the devices keep

A guest reads back from an EEPROM, an encoder or the system management controller what its own
transactions have stored there, and nothing else that it does through the ports changes that.
-/

namespace OpenXbox.Smbus.ReadBack

open OpenXbox.Smbus.Bus hiding step
open OpenXbox.Smbus.Devices OpenXbox.Smbus.Transactions OpenXbox.Lib.Run OpenXbox.Lib.Latch

/-! ## One device -/

/-- What becomes of the device at an address. -/
def Event.act (addr : BitVec 7) (d : SMDevice) : Event → SMDevice
  | .transaction t => if t.addr = addr then (t.request.call d).2 else d
  | .aside _ => d

section Device

variable {addr : BitVec 7} {s s' : SMBus} {d : SMDevice} {e : Event}

theorem setWidth_inj {a b : BitVec 7} : (a.setWidth 8 : Byte) = b.setWidth 8 ↔ a = b := by
  revert a b
  decide

/-- Every event leaves a device where it was, and only a transaction with it changes it. -/
theorem step_device (hd : s.devices (addr.setWidth 8) = some d) (h : step s e = some s') :
    s'.devices (addr.setWidth 8) = some (Event.act addr d e) := by
  rcases step_devices s e with ⟨u, hu, hdevices⟩
  obtain rfl : s' = u := Option.some.inj (h.symm.trans hu)
  cases e with
  | transaction t =>
    have hserve : (DeviceMap.serve s.devices t).2 = s'.devices := Option.some.inj hdevices
    rw [← hserve]
    unfold DeviceMap.serve Event.act Transaction.device
    by_cases haddr : t.addr = addr
    · rw [haddr, hd]
      dsimp only
      rw [if_pos haddr]
      exact if_pos rfl
    · have hne : ¬ addr.setWidth 8 = (t.addr.setWidth 8 : Byte) := fun heq =>
        haddr (setWidth_inj.mp heq).symm
      cases s.devices (t.addr.setWidth 8) with
      | none => simpa [haddr] using hd
      | some d' => simpa [haddr, DeviceMap.set, hne] using hd
  | aside a =>
    rcases a with ⟨op, hidle⟩
    cases op with
    | connect addr' d' =>
      have hconnect : DeviceMap.connect s.devices addr' d' = s'.devices := Option.some.inj hdevices
      rw [← hconnect]
      unfold DeviceMap.connect
      cases hfree : s.devices ((addr' >>> 1) &&& 0x7f) with
      | some d'' => exact hd
      | none =>
        have hne : ¬ addr.setWidth 8 = ((addr' >>> 1) &&& 0x7f : Byte) := by
          intro heq
          rw [← heq, hd] at hfree
          cases hfree
        exact (if_neg hne).trans hd
    | _ =>
      have hsame : s.devices = s'.devices := Option.some.inj hdevices
      exact hsame ▸ hd

/-- The guest gets the reply of the device. -/
theorem transact_reply {t : Transaction} (hd : s.devices (t.addr.setWidth 8) = some d) :
    (t.transact s).1 = (t.request.call d).1 := by
  rw [(transact_serve t s).1]
  unfold DeviceMap.serve Transaction.device
  rw [hd]

end Device

/-! ## Arrays of bytes -/

/-- The array of an EEPROM or an encoder. -/
def bytesOf : SMDevice → Option (Nat → Byte)
  | .eeprom mem => some mem
  | .encoder regs => some regs
  | .smc _ => none

/-- The byte that a request stores at an offset of the array. -/
def Request.stores (k : Nat) : Request → Option Byte
  | .writeByte c value => if c.toNat = k then some value else none
  | .writeWord c value =>
    if c.toNat = k then some (value.setWidth 8)
    else if c.toNat + 1 = k then some ((value >>> 8).setWidth 8)
    else none
  | .writeBlock c block =>
    if c.toNat ≤ k ∧ k < c.toNat + block.bytes.length then some (block.bytes.getD (k - c.toNat) 0)
    else none
  | _ => none

def Event.stores (addr : BitVec 7) (k : Nat) : Event → Option Byte
  | .transaction t => if t.addr = addr then Request.stores k t.request else none
  | .aside _ => none

/-- The last byte stored at an offset in a run, or the one that was there before. -/
def stored (addr : BitVec 7) (mem : Nat → Byte) (s : SMBus) (es : List Event) (k : Nat) : Byte :=
  (lastUpdate step (fun _ e => Event.stores addr k e) s es).getD (mem k)

section Bytes

variable {addr : BitVec 7} {s s' : SMBus} {d : SMDevice} {mem : Nat → Byte} {e : Event} {k : Nat}

theorem eq_of_bytesOf (hd : bytesOf d = some mem) : d = .eeprom mem ∨ d = .encoder mem := by
  cases d with
  | eeprom _ => cases hd; exact .inl rfl
  | encoder _ => cases hd; exact .inr rfl
  | smc _ => cases hd

theorem call_bytes (request : Request) (hd : bytesOf d = some mem) :
    ∃ mem', bytesOf (request.call d).2 = some mem' ∧
      ∀ k, mem' k = (Request.stores k request).getD (mem k) := by
  cases request with
  | writeByte c value =>
    have hstored (k : Nat) : memcpy mem c.toNat (fun _ => value) 1 k =
        (Request.stores k (.writeByte c value)).getD (mem k) := by
      unfold Request.stores memcpy
      dsimp only
      by_cases hk : c.toNat = k
      · rw [if_pos (by omega), if_pos hk]
        rfl
      · rw [if_neg (by omega), if_neg hk]
        rfl
    rcases eq_of_bytesOf hd with rfl | rfl
    · exact ⟨_, rfl, hstored⟩
    · exact ⟨_, rfl, hstored⟩
  | writeWord c value =>
    have hstored (k : Nat) : store16 mem c.toNat value k =
        (Request.stores k (.writeWord c value)).getD (mem k) := by
      unfold Request.stores store16 memcpy
      dsimp only
      by_cases hlow : c.toNat = k
      · rw [if_pos (by omega), if_pos hlow, hlow, Nat.sub_self]
        simp
      rw [if_neg hlow]
      by_cases hhigh : c.toNat + 1 = k
      · rw [if_pos (by omega), if_pos hhigh, ← hhigh, Nat.add_sub_cancel_left]
        rfl
      · rw [if_neg (by omega), if_neg hhigh]
        rfl
    rcases eq_of_bytesOf hd with rfl | rfl
    · exact ⟨_, rfl, hstored⟩
    · exact ⟨_, rfl, hstored⟩
  | writeBlock c block =>
    have hstored (k : Nat) : memcpy mem c.toNat (fun i => block.bytes.getD i 0) block.bytes.length k =
        (Request.stores k (.writeBlock c block)).getD (mem k) := by
      unfold Request.stores memcpy
      dsimp only
      by_cases hk : c.toNat ≤ k ∧ k < c.toNat + block.bytes.length
      · rw [if_pos hk, if_pos hk]
        rfl
      · rw [if_neg hk, if_neg hk]
        rfl
    rcases eq_of_bytesOf hd with rfl | rfl
    · exact ⟨_, rfl, hstored⟩
    · exact ⟨_, rfl, hstored⟩
  | readByte c =>
    rcases eq_of_bytesOf hd with rfl | rfl
    · exact ⟨mem, rfl, fun _ => rfl⟩
    · exact ⟨mem, rfl, fun _ => rfl⟩
  | _ => exact ⟨mem, hd, fun _ => rfl⟩

/-- The array at an address. -/
def arrayAt (addr : BitVec 7) (s : SMBus) : Option (Nat → Byte) :=
  (s.devices (addr.setWidth 8)).bind bytesOf

theorem step_bytes (hmem : arrayAt addr s = some mem) (h : step s e = some s') :
    ∃ mem', arrayAt addr s' = some mem' ∧
      ∀ k, mem' k = (Event.stores addr k e).getD (mem k) := by
  rcases Option.bind_eq_some_iff.mp hmem with ⟨d, hd, hbytes⟩
  have hd' := step_device hd h
  unfold arrayAt
  rw [hd', Option.bind_some]
  cases e with
  | aside a => exact ⟨mem, hbytes, fun _ => rfl⟩
  | transaction t =>
    dsimp only [Event.act, Event.stores]
    by_cases haddr : t.addr = addr
    · rw [if_pos haddr]
      simp only [if_pos haddr]
      exact call_bytes t.request hbytes
    · rw [if_neg haddr]
      simp only [if_neg haddr]
      exact ⟨mem, hbytes, fun _ => rfl⟩

/-- After a run the array holds what has been stored. -/
theorem exec_bytes {es : List Event} (hmem : arrayAt addr s = some mem) (h : exec step s es = some s') :
    arrayAt addr s' = some (stored addr mem s es) := by
  have hkeep (s : SMBus) (e : Event) (s' : SMBus) (hi : (arrayAt addr s).isSome)
      (hs : step s e = some s') : (arrayAt addr s').isSome := by
    rcases Option.isSome_iff_exists.mp hi with ⟨mem, hmem⟩
    rcases step_bytes hmem hs with ⟨mem', hmem', -⟩
    exact Option.isSome_iff_exists.mpr ⟨mem', hmem'⟩
  have hupdate (k : Nat) (s : SMBus) (e : Event) (s' : SMBus) (hi : (arrayAt addr s).isSome)
      (hs : step s e = some s') : (arrayAt addr s').getD (fun _ => 0) k =
        (Event.stores addr k e).getD ((arrayAt addr s).getD (fun _ => 0) k) := by
    rcases Option.isSome_iff_exists.mp hi with ⟨mem, hmem⟩
    rcases step_bytes hmem hs with ⟨mem', hmem', hk⟩
    rw [hmem', hmem]
    exact hk k
  have hsome : (arrayAt addr s).isSome := by simp [hmem]
  rcases Option.isSome_iff_exists.mp (exec_invariant hkeep hsome h) with ⟨mem', hmem'⟩
  rw [hmem', Option.some.injEq]
  funext k
  have hk := reg_eq_lastUpdate hkeep (hupdate k) hsome h
  rw [hmem', hmem] at hk
  exact hk

end Bytes

/-- What a guest reads from an array after a run: the byte stored last at each offset. -/
structure ArrayReads (addr : BitVec 7) (mem : Nat → Byte) (s s' : SMBus) (es : List Event) : Prop where
  byte : ∀ base interrupt c,
    (Transaction.transact ⟨base, addr, interrupt, .readByte c⟩ s').1 =
      .value ((stored addr mem s es c.toNat).setWidth 32)
  /-- A word at the last offset would lie half behind the array. -/
  word : ∀ base interrupt c, c ≠ 0xFF →
    (Transaction.transact ⟨base, addr, interrupt, .readWord c⟩ s').1 =
      .value ((stored addr mem s es (c.toNat + 1) ++ stored addr mem s es c.toNat).setWidth 32)

/-- After every run a guest reads from an EEPROM or an encoder what was stored there last, through
whatever protocol. -/
theorem array_reads_back {s : SMBus} {addr : BitVec 7} {d : SMDevice} {mem : Nat → Byte}
    (hd : s.devices (addr.setWidth 8) = some d) (hmem : bytesOf d = some mem) (es : List Event) :
    ∃ s', exec step s es = some s' ∧ ArrayReads addr mem s s' es := by
  rcases exec_step s es with ⟨s', hs'⟩
  have harray : arrayAt addr s = some mem := by
    unfold arrayAt
    rw [hd, Option.bind_some, hmem]
  rcases Option.bind_eq_some_iff.mp (exec_bytes harray hs') with ⟨d', hd', hbytes⟩
  refine ⟨s', hs', fun base interrupt c => ?_, fun base interrupt c _ => ?_⟩
  · rw [transact_reply (t := ⟨base, addr, interrupt, .readByte c⟩) hd']
    rcases eq_of_bytesOf hbytes with rfl | rfl <;> rfl
  · rw [transact_reply (t := ⟨base, addr, interrupt, .readWord c⟩) hd']
    rcases eq_of_bytesOf hbytes with rfl | rfl <;> rfl

/-- An EEPROM that has been connected, with a byte and a word written over its neighbour. -/
def written : List Event :=
  [.transaction ⟨0, 0x54, false, .writeByte 4 7⟩, .transaction ⟨0, 0x54, true, .writeWord 3 0x0506⟩,
    .transaction ⟨0, 0x54, false, .readByte 9⟩]

theorem written_reads_back : ∃ s',
    exec step ((SMBus.new fun _ => 0).connectDevice 0xA8 (.eeprom fun _ => 0)) written = some s' ∧
    ArrayReads 0x54 (fun _ => 0) ((SMBus.new fun _ => 0).connectDevice 0xA8 (.eeprom fun _ => 0)) s'
      written :=
  array_reads_back rfl rfl written

/-! ## The system management controller -/

/-- The controller keeps what is written to the register, unless it takes it as an order. -/
def Kept (c value : Byte) : Prop :=
  c ≠ 0x01 ∧ c ≠ 0x02 ∧ c ≠ 0x07 ∧
    ¬ (c = 0x1B ∧ (value = 0x01 ∨ value = 0x02 ∨ value = 0x04 ∨ value = 0x08))

instance (c value : Byte) : Decidable (Kept c value) := inferInstanceAs (Decidable (_ ∧ _))

def Request.keeps (k : Nat) : Request → Option Byte
  | .writeByte c value => if c.toNat = k ∧ Kept c value then some value else none
  | _ => none

def Event.keeps (addr : BitVec 7) (k : Nat) : Event → Option Byte
  | .transaction t => if t.addr = addr then Request.keeps k t.request else none
  | .aside _ => none

/-- The reads of the version since it was last started again. -/
def Request.countVersion (n : Nat) : Request → Nat
  | .readByte c => if c = 0x01 then n + 1 else n
  | .writeByte c value => if c = 0x01 ∧ value = 0 then 0 else n
  | _ => n

def Event.countVersion (addr : BitVec 7) (n : Nat) : Event → Nat
  | .transaction t => if t.addr = addr then Request.countVersion n t.request else n
  | .aside _ => n

/-- What a request makes of the controller. -/
def Request.act (d : SMCDevice) : Request → SMCDevice
  | .readByte c => (d.readByte c).result.2
  | .writeByte c value => (d.writeByte c value).result
  | _ => d

section Smc

variable {addr : BitVec 7} {s s' : SMBus} {d : SMCDevice} {e : Event} {k : Nat}

theorem call_smc (d : SMCDevice) (request : Request) :
    (request.call (.smc d)).2 = .smc (Request.act d request) := by
  cases request <;> rfl

theorem byte_eq_iff {c : Byte} (n : Nat) (hn : n < 256) : c = BitVec.ofNat 8 n ↔ c.toNat = n := by
  rw [← BitVec.toNat_inj, BitVec.toNat_ofNat, Nat.mod_eq_of_lt hn]

/-- A read changes nothing but the place in the version. -/
theorem readByte_act (d : SMCDevice) (c : Byte) : (d.readByte c).result.2 =
    if c = 0x01 then { d with picVersionStringIndex := (d.picVersionStringIndex + 1) % 3 } else d := by
  have hversion : c = 0x01 ↔ c.toNat = 1 := byte_eq_iff 1 (by decide)
  simp only [hversion]
  unfold SMCDevice.readByte
  split
  case h_1 h => rw [if_pos h]; rfl
  all_goals rw [if_neg (by omega)]; rfl

/-- A write either is kept or may start the version again. -/
theorem writeByte_act (d : SMCDevice) (c value : Byte) : (d.writeByte c value).result =
    if Kept c value then { d with buffer := fun k => if k = c.toNat then value else d.buffer k }
    else if c = 0x01 ∧ value = 0 then { d with picVersionStringIndex := 0 }
    else d := by
  have h01 : c = 0x01 ↔ c.toNat = 1 := byte_eq_iff 1 (by decide)
  have h02 : c = 0x02 ↔ c.toNat = 2 := byte_eq_iff 2 (by decide)
  have h07 : c = 0x07 ↔ c.toNat = 7 := byte_eq_iff 7 (by decide)
  have h1B : c = 0x1B ↔ c.toNat = 0x1B := byte_eq_iff 0x1B (by decide)
  unfold SMCDevice.writeByte Kept
  simp only [ne_eq, h01, h02, h07, h1B]
  split
  · next h =>
    by_cases hzero : value = 0
    · rw [if_pos hzero, if_neg fun hkept => hkept.1 h, if_pos ⟨h, hzero⟩]
      rfl
    · rw [if_neg hzero, if_neg fun hkept => hkept.1 h, if_neg fun hno => hzero hno.2]
      rfl
  · next h =>
    rw [if_neg fun hkept => hkept.2.1 h, if_neg (by omega)]
    rfl
  · next h =>
    rw [if_neg fun hkept => hkept.2.2.1 h, if_neg (by omega)]
    rfl
  · next h =>
    by_cases horder : value = 0x01 ∨ value = 0x02 ∨ value = 0x04 ∨ value = 0x08
    · rw [if_pos horder, if_neg fun hkept => hkept.2.2.2 ⟨h, horder⟩, if_neg (by omega)]
      rfl
    · rw [if_neg horder, if_pos ⟨by omega, by omega, by omega, fun hno => horder hno.2⟩, h]
      rfl
  · next h1 h2 h7 h1B =>
    rw [if_pos ⟨h1, h2, h7, fun hno => h1B hno.1⟩]
    rfl

/-- The system management controller at an address. -/
def smcAt (addr : BitVec 7) (s : SMBus) : Option SMCDevice :=
  match s.devices (addr.setWidth 8) with
  | some (.smc d) => some d
  | _ => none

theorem smcAt_eq_some : smcAt addr s = some d ↔ s.devices (addr.setWidth 8) = some (.smc d) := by
  unfold smcAt
  split
  · next h => simp [h]
  · next h =>
    constructor
    · intro hno
      cases hno
    · exact fun hd => absurd hd (h d)

/-- What is left of the controller, with the count of the version reads and what is kept. -/
structure SmcStep (d d' : SMCDevice) (count : Nat → Nat) (keeps : Nat → Option Byte) : Prop where
  revision : d'.revision = d.revision
  index : ∀ n, d.picVersionStringIndex = n % 3 → d'.picVersionStringIndex = count n % 3
  buffer : ∀ k, d'.buffer k = (keeps k).getD (d.buffer k)

theorem SmcStep.refl (d : SMCDevice) : SmcStep d d (fun n => n) fun _ => none :=
  ⟨rfl, fun _ hn => hn, fun _ => rfl⟩

theorem readByte_smcStep (d : SMCDevice) (c : Byte) : SmcStep d (d.readByte c).result.2
    (fun n => Request.countVersion n (.readByte c)) fun k => Request.keeps k (.readByte c) := by
  rw [readByte_act]
  dsimp only [Request.countVersion, Request.keeps]
  by_cases hc : c = 0x01
  · simp only [if_pos hc]
    refine ⟨rfl, fun n hn => ?_, fun _ => rfl⟩
    dsimp only
    omega
  · simp only [if_neg hc]
    exact .refl d

theorem writeByte_smcStep (d : SMCDevice) (c value : Byte) : SmcStep d (d.writeByte c value).result
    (fun n => Request.countVersion n (.writeByte c value))
    fun k => Request.keeps k (.writeByte c value) := by
  rw [writeByte_act]
  dsimp only [Request.countVersion, Request.keeps]
  by_cases hkept : Kept c value
  · have hno : ¬ (c = 0x01 ∧ value = 0) := fun h => hkept.1 h.1
    simp only [if_pos hkept, if_neg hno]
    refine ⟨rfl, fun n hn => hn, fun k => ?_⟩
    by_cases hk : k = c.toNat
    · simp [hk, hkept]
    · simp [hk, Ne.symm hk]
  · simp only [hkept, and_false, if_false]
    by_cases hzero : c = 0x01 ∧ value = 0
    · simp only [if_pos hzero]
      exact ⟨rfl, fun _ _ => rfl, fun _ => rfl⟩
    · simp only [if_neg hzero]
      exact .refl d

theorem act_smcStep (d : SMCDevice) (request : Request) : SmcStep d (Request.act d request)
    (fun n => Request.countVersion n request) fun k => Request.keeps k request := by
  cases request with
  | readByte c => exact readByte_smcStep d c
  | writeByte c value => exact writeByte_smcStep d c value
  | _ => exact .refl d

theorem step_smc (hd : smcAt addr s = some d) (h : step s e = some s') :
    ∃ d', smcAt addr s' = some d' ∧
      SmcStep d d' (fun n => Event.countVersion addr n e) fun k => Event.keeps addr k e := by
  have hd' := step_device (smcAt_eq_some.mp hd) h
  cases e with
  | aside a => exact ⟨d, smcAt_eq_some.mpr hd', .refl d⟩
  | transaction t =>
    dsimp only [Event.act, Event.countVersion, Event.keeps] at hd' ⊢
    by_cases haddr : t.addr = addr
    · rw [if_pos haddr, call_smc] at hd'
      simp only [if_pos haddr]
      exact ⟨_, smcAt_eq_some.mpr hd', act_smcStep d t.request⟩
    · rw [if_neg haddr] at hd'
      simp only [if_neg haddr]
      exact ⟨d, smcAt_eq_some.mpr hd', .refl d⟩

end Smc

/-- The byte that a register of the controller keeps after a run. -/
def kept (addr : BitVec 7) (d : SMCDevice) (s : SMBus) (es : List Event) (k : Nat) : Byte :=
  (lastUpdate step (fun _ e => Event.keeps addr k e) s es).getD (d.buffer k)

/-- What a guest reads from the system management controller after a run. -/
structure SmcReads (addr : BitVec 7) (d : SMCDevice) (s s' : SMBus) (es : List Event) : Prop where
  /-- The version comes character by character. -/
  version : ∀ base interrupt,
    (Transaction.transact ⟨base, addr, interrupt, .readByte 0x01⟩ s').1 =
      .value ((d.revision.versionString.getD (es.foldl (Event.countVersion addr) 0 % 3) 0).setWidth 32)
  /-- The error code that was written to a register is read from the one behind it. -/
  errorCode : ∀ base interrupt,
    (Transaction.transact ⟨base, addr, interrupt, .readByte 0x0F⟩ s').1 =
      .value ((kept addr d s es 0x0E).setWidth 32)
  challenge : ∀ base interrupt, ∀ p ∈ [((0x1C : Byte), (0x52 : Word)), (0x1D, 0x72), (0x1E, 0xea),
      (0x1F, 0x46)],
    (Transaction.transact ⟨base, addr, interrupt, .readByte p.1⟩ s').1 = .value p.2
  register : ∀ base interrupt (c : Byte), c.toNat ∉ [0x01, 0x0F, 0x1C, 0x1D, 0x1E, 0x1F] →
    (Transaction.transact ⟨base, addr, interrupt, .readByte c⟩ s').1 =
      .value ((kept addr d s es c.toNat).setWidth 32)

section Run

variable {addr : BitVec 7} {s s' : SMBus} {d : SMCDevice} {es : List Event}

theorem exec_smc (hd : smcAt addr s = some d) (hzero : d.picVersionStringIndex = 0)
    (h : exec step s es = some s') : ∃ d', smcAt addr s' = some d' ∧ d'.revision = d.revision ∧
      d'.picVersionStringIndex = es.foldl (Event.countVersion addr) 0 % 3 ∧
      ∀ k, d'.buffer k = kept addr d s es k := by
  have hcount (s : SMBus) (e : Event) (s' : SMBus) (n : Nat)
      (hi : ∃ d', smcAt addr s = some d' ∧ d'.revision = d.revision ∧ d'.picVersionStringIndex = n % 3)
      (hs : step s e = some s') : ∃ d', smcAt addr s' = some d' ∧ d'.revision = d.revision ∧
        d'.picVersionStringIndex = Event.countVersion addr n e % 3 := by
    rcases hi with ⟨u, hu, hrevision, hindex⟩
    rcases step_smc hu hs with ⟨u', hu', hstep⟩
    exact ⟨u', hu', hstep.revision.trans hrevision, hstep.index n hindex⟩
  have hkeep (s : SMBus) (e : Event) (s' : SMBus) (hi : (smcAt addr s).isSome)
      (hs : step s e = some s') : (smcAt addr s').isSome := by
    rcases Option.isSome_iff_exists.mp hi with ⟨u, hu⟩
    rcases step_smc hu hs with ⟨u', hu', -⟩
    exact Option.isSome_iff_exists.mpr ⟨u', hu'⟩
  have hupdate (k : Nat) (s : SMBus) (e : Event) (s' : SMBus) (hi : (smcAt addr s).isSome)
      (hs : step s e = some s') : ((smcAt addr s').getD d).buffer k =
        (Event.keeps addr k e).getD (((smcAt addr s).getD d).buffer k) := by
    rcases Option.isSome_iff_exists.mp hi with ⟨u, hu⟩
    rcases step_smc hu hs with ⟨u', hu', hstep⟩
    rw [hu', hu]
    exact hstep.buffer k
  rcases exec_foldl (b := 0) hcount ⟨d, hd, rfl, hzero⟩ h with ⟨d', hd', hrevision, hindex⟩
  refine ⟨d', hd', hrevision, hindex, fun k => ?_⟩
  have hk := reg_eq_lastUpdate hkeep (hupdate k) (by simp [hd]) h
  rw [hd', hd] at hk
  exact hk

theorem readByte_kept {c : Byte} (hc : c.toNat ∉ [0x01, 0x0F, 0x1C, 0x1D, 0x1E, 0x1F]) :
    (d.readByte c).result.1 = d.buffer c.toNat := by
  simp only [List.mem_cons, List.not_mem_nil, or_false, not_or] at hc
  unfold SMCDevice.readByte
  split
  all_goals first | rfl | omega

end Run

/-- After every run that starts with the controller just connected, a guest reads the version, the
answers to the challenge and what it has written last to the other registers. -/
theorem smc_reads_back {s : SMBus} {addr : BitVec 7} {d : SMCDevice}
    (hd : s.devices (addr.setWidth 8) = some (SMDevice.init (.smc d))) (es : List Event) :
    ∃ s', exec step s es = some s' ∧ SmcReads addr d.init s s' es := by
  rcases exec_step s es with ⟨s', hs'⟩
  rcases exec_smc (smcAt_eq_some.mpr hd) rfl hs' with ⟨d', hd', hrevision, hindex, hbuffer⟩
  have hread (base : BitVec 26) (interrupt : Bool) (c : Byte) :
      (Transaction.transact ⟨base, addr, interrupt, .readByte c⟩ s').1 =
        .value ((d'.readByte c).result.1.setWidth 32) :=
    transact_reply (t := ⟨base, addr, interrupt, .readByte c⟩) (smcAt_eq_some.mp hd')
  refine ⟨s', hs', fun base interrupt => ?_, fun base interrupt => ?_, fun base interrupt p hp => ?_,
    fun base interrupt c hc => ?_⟩
  · rw [hread, ← hrevision, ← hindex]
    rfl
  · rw [hread, ← hbuffer]
    rfl
  · rw [hread]
    simp only [List.mem_cons, List.not_mem_nil, or_false] at hp
    rcases hp with rfl | rfl | rfl | rfl <;> rfl
  · rw [hread, readByte_kept hc, hbuffer]

/-- Two characters of the version, an error code and a version started again. -/
def asked : List Event :=
  [.transaction ⟨0, 0x10, false, .readByte 0x01⟩, .transaction ⟨0, 0x10, true, .readByte 0x01⟩,
    .transaction ⟨0, 0x10, false, .writeByte 0x0E 13⟩, .transaction ⟨0, 0x10, false, .writeByte 0x01 0⟩]

theorem asked_reads_back : ∃ s',
    exec step ((SMBus.new fun _ => 0).connectDevice 0x20 (.smc ⟨.P01, 2, fun _ => 5⟩)) asked = some s' ∧
    SmcReads 0x10 (SMCDevice.init ⟨.P01, 2, fun _ => 5⟩)
      ((SMBus.new fun _ => 0).connectDevice 0x20 (.smc ⟨.P01, 2, fun _ => 5⟩)) s' asked :=
  smc_reads_back rfl asked

end OpenXbox.Smbus.ReadBack
