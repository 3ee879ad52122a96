import OpenXbox.Lib.Latch
import OpenXbox.Lib.Parts
import OpenXbox.Pci.BaseAddress

/-!
# Accesses to the functions of the PCI bus

An access that is not one of the configuration is made by the first function, in the order of their
numbers, with a BAR that claims the address. What the functions do is a parameter; the guest places
the BARs through the configuration ports.
-/

namespace OpenXbox.Machine.PciBus

open OpenXbox.Lib.Run OpenXbox.Lib.Latch OpenXbox.Lib.Parts OpenXbox.Pci.Device OpenXbox.Pci.ConfigSpace
  OpenXbox.Pci.BaseAddress

/-- A read into a variable that holds `value`, or a write of `value`. -/
structure Transfer where
  write : Bool
  value : Word
  size : Nat
  allowed : size = 1 ∨ size = 2 ∨ size = 4

/-- What a function makes of an access: what the variable holds then, the function, and the levels
that it gives its interrupt line. -/
structure Served (φ : Type*) where
  value : Word
  next : φ
  levels : List Bool

/-- `PCIIORead` to `PCIMMIOWrite`, by the type of the BAR, with its index and the offset from its
base; `none` for an access that does not come back. -/
abbrev Handler (φ : Type*) := φ → BarType → Nat → Word → Transfer → Option (Served φ)

/-- `m_Devices`, in the order of its keys. -/
structure Bus (φ : Type*) where
  config : PCIBus
  ids : List Word
  function : Word → φ
  sorted : ids.Pairwise (· < ·)
  connected : ∀ id, id ∈ ids ↔ (config.devices id).isSome

/-- What the guest sees: the value, and whether the access is handled. -/
structure Answer where
  value : Word
  handled : Bool
  deriving DecidableEq

/-- What an access leaves. The levels come with the number of the function. -/
structure Result (φ : Type*) where
  answer : Answer
  bus : Bus φ
  levels : List (Word × Bool)

def PORT_PCI_CONFIG_ADDRESS : Word := 0xCF8
def PORT_PCI_CONFIG_DATA : Word := 0xCFC

variable {φ : Type*}

/-! ## The functions of the source -/

namespace Bus

/-- The loops over the devices, with `GetIOBar` or `GetMMIOBar`: the device, the BAR and its base. -/
def claim (b : Bus φ) (kind : BarType) (addr : Word) : Option (Word × Nat × Word) :=
  b.ids.findSome? fun id =>
    ((b.config.devices id).bind fun d => d.getBar kind addr).map fun r => (id, r)

/-- The default case of `IORead` and `IOWrite`; `MMIORead` and `MMIOWrite`. -/
def route (serve : Handler φ) (b : Bus φ) (kind : BarType) (addr : Word) (t : Transfer) :
    Option (Result φ) :=
  match b.claim kind addr with
  | some (id, i, base) =>
    (serve (b.function id) kind i (addr - base) t).map fun r =>
      ⟨⟨r.value, true⟩, { b with function := Function.update b.function id r.next },
        r.levels.map fun level => (id, level)⟩
  | none => some ⟨⟨t.value, false⟩, b, []⟩

end Bus

theorem writeConfigData_isSome {c c' : PCIBus} {value : Word} {size : Nat} {port : Nat}
    (h : c.ioWriteConfigData value size port = .ok c') (id : Word) :
    (c'.devices id).isSome = (c.devices id).isSome := by
  unfold PCIBus.ioWriteConfigData at h
  split at h
  · next d hd =>
    cases hw : d.writeConfig (c.register port) value size with
    | error e =>
      rw [hw] at h
      cases h
    | ok d' =>
      rw [hw] at h
      cases h
      dsimp only
      by_cases hid : id = c.selected
      · rw [hid, Function.update_self, hd]
        rfl
      · rw [Function.update_of_ne hid]
  · cases h
    rfl

/-- No access to the configuration connects or removes a device. -/
theorem step_isSome {c c' : PCIBus} {a : ConfigAccess} (h : Pci.ConfigSpace.step c a = some c')
    (id : Word) : (c'.devices id).isSome = (c.devices id).isSome := by
  cases a with
  | address value size allowed =>
    cases h
    rfl
  | read port size allowed =>
    simp only [Pci.ConfigSpace.step] at h
    cases hr : c.ioReadConfigData size port with
    | error e =>
      rw [hr] at h
      cases h
    | ok value =>
      rw [hr] at h
      cases h
      rfl
  | write port value size allowed =>
    simp only [Pci.ConfigSpace.step] at h
    cases hw : c.ioWriteConfigData value size port with
    | error e =>
      rw [hw] at h
      cases h
    | ok d =>
      rw [hw] at h
      cases h
      exact writeConfigData_isSome hw id

namespace Bus

/-- An access to the configuration. -/
def configure (b : Bus φ) (a : ConfigAccess) : Option (Bus φ) :=
  match h : Pci.ConfigSpace.step b.config a with
  | some config => some { b with
      config := config
      connected := fun id => (b.connected id).trans (by rw [step_isSome h id]) }
  | none => none

/-- The access that a transfer at a port of the configuration is, if it is one. -/
def configAccess (port : Word) (t : Transfer) : Option ConfigAccess :=
  if h : PORT_PCI_CONFIG_DATA ≤ port ∧ port ≤ PORT_PCI_CONFIG_DATA + 3 then
    let offset : Fin 4 := ⟨(port - PORT_PCI_CONFIG_DATA).toNat, by
      have h1 := BitVec.le_def.mp h.1
      have h2 := BitVec.le_def.mp h.2
      have h3 : (PORT_PCI_CONFIG_DATA + 3).toNat = PORT_PCI_CONFIG_DATA.toNat + 3 := by decide
      rw [BitVec.toNat_sub_of_le h.1]
      omega⟩
    some (if t.write then .write offset t.value t.size t.allowed else .read offset t.size t.allowed)
  else if port = PORT_PCI_CONFIG_ADDRESS ∧ t.write then some (.address t.value t.size t.allowed)
  else none

/-- What is read from the configuration; a write leaves the value of the caller. -/
def configValue (b : Bus φ) (t : Transfer) : ConfigAccess → Word
  | .read port size _ => (b.config.ioReadConfigData size port).toOption.getD t.value
  | _ => t.value

/-- `IORead` and `IOWrite`. -/
def io (serve : Handler φ) (b : Bus φ) (port : Word) (t : Transfer) : Option (Result φ) :=
  match configAccess port t with
  | some a => (b.configure a).map fun c => ⟨⟨b.configValue t a, true⟩, c, []⟩
  | none => b.route serve .io port t

/-- `MMIORead` and `MMIOWrite`. -/
def mmio (serve : Handler φ) (b : Bus φ) (addr : Word) (t : Transfer) : Option (Result φ) :=
  b.route serve .memory addr t

end Bus

/-! ## Runs -/

inductive Op where
  | io (port : Word) (t : Transfer)
  | mmio (addr : Word) (t : Transfer)

def access (serve : Handler φ) (b : Bus φ) : Op → Option (Result φ)
  | .io port t => b.io serve port t
  | .mmio addr t => b.mmio serve addr t

def step (serve : Handler φ) (b : Bus φ) (op : Op) : Option (Bus φ) :=
  (access serve b op).map Result.bus

/-- The access is one to the configuration. -/
def Op.config : Op → Option ConfigAccess
  | .io port t => Bus.configAccess port t
  | .mmio _ _ => none

/-- The address of any other. -/
def Op.target : Op → BarType × Word × Transfer
  | .io port t => (.io, port, t)
  | .mmio addr t => (.memory, addr, t)

/-! ## Where an access goes -/

/-- The BARs of the devices are those that they have been given. -/
def Described (bars : Word → Nat → Option BAR) (b : Bus φ) : Prop :=
  ∀ id d, b.config.devices id = some d → Decodes d (bars id)

/-- The BAR `i` of the device is the lowest one that covers the address, at `base`, and no device
before it has one that does. -/
def Owns (bars : Word → Nat → Option BAR) (b : Bus φ) (kind : BarType) (addr id : Word) (i : Nat)
    (base : Word) : Prop :=
  (∃ d, b.config.devices id = some d ∧ First d (bars id) kind addr i base) ∧
    ∀ id' d', id' < id → b.config.devices id' = some d' →
      ∀ j base', ¬ Covers d' (bars id') kind addr j base'

/-- No BAR that covers the address ends at the top of the address space. -/
def AllBelowTop (bars : Word → Nat → Option BAR) (b : Bus φ) (kind : BarType) (addr : Word) : Prop :=
  ∀ id d, b.config.devices id = some d → BelowTop d (bars id) kind addr

/-- The bit that a write to the configuration puts in a byte of the space of a device. -/
def wrote (id : Word) (k j : Nat) (b : Bus φ) (op : Op) : Option Bool :=
  match op.config with
  | some (.write port value size _) =>
    if b.config.selected = id ∧ b.config.register port ≤ k ∧ k < b.config.register port + size then
      some (value.getLsbD (8 * (k - b.config.register port) + j))
    else none
  | _ => none

/-- The value that is written to the address port. -/
def addressed (_ : Bus φ) (op : Op) : Option Word :=
  match op.config with
  | some (.address value _ _) => some value
  | _ => none

/-- A bit of the space of a device. -/
def spaceBit (b : Bus φ) (id : Word) (k j : Nat) : Bool :=
  (b.config.devices id).elim false fun d => (d.configSpace k).getLsbD j

/-- What a function gets of an access: the type of the BAR, its index, the offset and the transfer. -/
def share (id : Word) (b : Bus φ) (op : Op) : List (BarType × Nat × Word × Transfer) :=
  match op.config, b.claim op.target.1 op.target.2.1 with
  | none, some (owner, i, base) =>
    if owner = id then [(op.target.1, i, op.target.2.1 - base, op.target.2.2)] else []
  | _, _ => []

/-- A function alone. -/
def serveStep (serve : Handler φ) (f : φ) (a : BarType × Nat × Word × Transfer) : Option φ :=
  (serve f a.1 a.2.1 a.2.2.1 a.2.2.2).map Served.next

/-- What is to hold of the bus after a run. -/
structure Routes (serve : Handler φ) (bars : Word → Nat → Option BAR) (start : Bus φ) (ops : List Op)
    (b : Bus φ) : Prop where
  /-- The address port holds what was last written to it. -/
  address : b.config.configAddress =
    (lastUpdate (step serve) addressed start ops).getD start.config.configAddress
  /-- A BAR is where the bits last written to it place it. -/
  base : ∀ id d i r, b.config.devices id = some d → bars id i = some r → ∀ n < 32,
    (baseOf d i r).getLsbD n = (decide (r.bits ≤ n) &&
      (lastUpdate (step serve) (wrote id (barOffset i + n / 8) (n % 8)) start ops).getD
        (spaceBit start id (barOffset i + n / 8) (n % 8)))
  /-- An address is claimed for the first device with a BAR that covers it. -/
  claim : ∀ kind addr, AllBelowTop bars b kind addr → ∀ id i base,
    b.claim kind addr = some (id, i, base) ↔ Owns bars b kind addr id i base
  /-- Each function does what it does alone with the accesses that are claimed for it. -/
  function : ∀ id, exec (serveStep serve) (start.function id)
    (outputs (step serve) (share id) start ops) = some (b.function id)

/-! ## Steps -/

section Steps

variable {serve : Handler φ} {bars : Word → Nat → Option BAR} {b b' : Bus φ} {op : Op}

/-- What an access to the configuration does. -/
theorem config_cases {c c' : PCIBus} {a : ConfigAccess} (h : Pci.ConfigSpace.step c a = some c') :
    (∃ value size allowed, a = .address value size allowed ∧ c' = { c with configAddress := value }) ∨
    (∃ port size allowed, a = .read port size allowed ∧ c' = c) ∨
    ∃ port value size allowed, a = .write port value size allowed ∧
      ((c.devices c.selected = none ∧ c' = c) ∨ ∃ d d', c.devices c.selected = some d ∧
        d.writeConfig (c.register port) value size = .ok d' ∧
        c' = { c with devices := Function.update c.devices c.selected (some d') }) := by
  cases a with
  | address value size allowed =>
    cases h
    exact .inl ⟨value, size, allowed, rfl, rfl⟩
  | read port size allowed =>
    simp only [Pci.ConfigSpace.step] at h
    cases hr : c.ioReadConfigData size port with
    | error e =>
      rw [hr] at h
      cases h
    | ok value =>
      rw [hr] at h
      cases h
      exact .inr (.inl ⟨port, size, allowed, rfl, rfl⟩)
  | write port value size allowed =>
    refine .inr (.inr ⟨port, value, size, allowed, rfl, ?_⟩)
    simp only [Pci.ConfigSpace.step, PCIBus.ioWriteConfigData] at h
    cases hd : c.devices c.selected with
    | none =>
      rw [hd] at h
      cases h
      exact .inl ⟨rfl, rfl⟩
    | some d =>
      simp only [hd] at h
      cases hw : d.writeConfig (c.register port) value size with
      | error e =>
        rw [hw] at h
        cases h
      | ok d' =>
        rw [hw] at h
        cases h
        exact .inr ⟨d, d', rfl, hw, rfl⟩

theorem configure_spec {a : ConfigAccess} (h : b.configure a = some b') :
    Pci.ConfigSpace.step b.config a = some b'.config ∧ b'.ids = b.ids ∧ b'.function = b.function := by
  unfold Bus.configure at h
  split at h
  · next config hc =>
    cases h
    exact ⟨hc, rfl, rfl⟩
  · cases h

/-- An access is one to the configuration, or is made by the function that claims it, or by none. -/
theorem step_cases (h : step serve b op = some b') :
    (∃ a, op.config = some a ∧ b.configure a = some b') ∨
    (op.config = none ∧ ∃ owner i base r, b.claim op.target.1 op.target.2.1 = some (owner, i, base) ∧
      serve (b.function owner) op.target.1 i (op.target.2.1 - base) op.target.2.2 = some r ∧
      b' = { b with function := Function.update b.function owner r.next }) ∨
    (op.config = none ∧ b.claim op.target.1 op.target.2.1 = none ∧ b' = b) := by
  have hroute {kind : BarType} {addr : Word} {t : Transfer}
      (h : (b.route serve kind addr t).map Result.bus = some b') :
      (∃ owner i base r, b.claim kind addr = some (owner, i, base) ∧
        serve (b.function owner) kind i (addr - base) t = some r ∧
        b' = { b with function := Function.update b.function owner r.next }) ∨
      (b.claim kind addr = none ∧ b' = b) := by
    unfold Bus.route at h
    split at h
    · next owner i base hclaim =>
      simp only [Option.map_map, Option.map_eq_some_iff, Function.comp_apply] at h
      obtain ⟨r, hr, rfl⟩ := h
      exact .inl ⟨owner, i, base, r, hclaim, hr, rfl⟩
    · next hclaim =>
      cases h
      exact .inr ⟨hclaim, rfl⟩
  cases op with
  | io port t =>
    unfold step access Bus.io at h
    dsimp only at h
    cases ha : Bus.configAccess port t with
    | some a =>
      simp only [ha, Option.map_map, Option.map_eq_some_iff, Function.comp_apply] at h
      obtain ⟨c, hc, rfl⟩ := h
      exact .inl ⟨a, ha, hc⟩
    | none =>
      simp only [ha] at h
      rcases hroute h with hserved | hnone
      · exact .inr (.inl ⟨ha, hserved⟩)
      · exact .inr (.inr ⟨ha, hnone⟩)
  | mmio addr t =>
    rcases hroute h with hserved | hnone
    · exact .inr (.inl ⟨rfl, hserved⟩)
    · exact .inr (.inr ⟨rfl, hnone⟩)

/-- What an access does to the configuration of the devices. -/
theorem step_config (h : step serve b op = some b') :
    b'.config = b.config ∨ ∃ a, op.config = some a ∧
      Pci.ConfigSpace.step b.config a = some b'.config := by
  rcases step_cases h with ⟨a, ha, hconf⟩ | ⟨-, owner, i, base, r, -, -, rfl⟩ | ⟨-, -, rfl⟩
  · exact .inr ⟨a, ha, (configure_spec hconf).1⟩
  · exact .inl rfl
  · exact .inl rfl

/-- Whatever the guest does, the BARs keep their form. -/
theorem described_step (hd : Described bars b) (h : step serve b op = some b') : Described bars b' := by
  rcases step_config h with hsame | ⟨a, -, hconf⟩
  · intro id d hid
    exact hd id d (hsame ▸ hid)
  rcases config_cases hconf with ⟨value, size, allowed, -, hc⟩ | ⟨port, size, allowed, -, hc⟩ |
    ⟨port, value, size, allowed, -, ⟨-, hc⟩ | ⟨d, d', hsel, hw, hc⟩⟩
  · intro id d hid
    rw [hc] at hid
    exact hd id d hid
  · intro id d hid
    rw [hc] at hid
    exact hd id d hid
  · intro id d hid
    rw [hc] at hid
    exact hd id d hid
  · intro id d₁ hid
    rw [hc] at hid
    dsimp only at hid
    by_cases hsame : id = b.config.selected
    · rw [hsame, Function.update_self] at hid
      obtain rfl := Option.some.inj hid
      have hdec := hd _ d hsel
      rw [hsame]
      exact decodes_written hdec (written_of_ok hdec.apart hw)
    · rw [Function.update_of_ne hsame] at hid
      exact hd id d₁ hid

theorem isSome_step (h : step serve b op = some b') (id : Word) :
    (b'.config.devices id).isSome = (b.config.devices id).isSome := by
  rcases step_config h with hsame | ⟨a, -, hconf⟩
  · rw [hsame]
  · exact step_isSome hconf id

/-- A bit of a BAR above its type takes what is written to it. -/
theorem spaceBit_step (hd : Described bars b) (h : step serve b op = some b') {id : Word} {d : PCIDevice}
    (hid : b.config.devices id = some d) {i n : Nat} {r : BAR} (hr : bars id i = some r) (hn : n < 32)
    (hbits : r.bits ≤ n) :
    spaceBit b' id (barOffset i + n / 8) (n % 8) =
      (wrote id (barOffset i + n / 8) (n % 8) b op).getD
        (spaceBit b id (barOffset i + n / 8) (n % 8)) := by
  have hdec := hd id d hid
  have hwrite : (d.writeMask (barOffset i + n / 8)).getLsbD (n % 8) = true := by
    rw [← getLsbD_read32 _ _ hn, hdec.mask i r hr, BitVec.getLsbD_not, Lib.Bits.getLsbD_lowMask hn]
    simp [hn, hbits]
  have hkept (hsame : b'.config.devices id = b.config.devices id)
      (hnone : wrote id (barOffset i + n / 8) (n % 8) b op = none) :
      spaceBit b' id (barOffset i + n / 8) (n % 8) =
        (wrote id (barOffset i + n / 8) (n % 8) b op).getD
          (spaceBit b id (barOffset i + n / 8) (n % 8)) := by
    rw [hnone, spaceBit, spaceBit, hsame]
    rfl
  rcases step_cases h with ⟨a, ha, hconf⟩ | ⟨ha, owner, i, base, s, -, -, rfl⟩ | ⟨ha, -, rfl⟩
  · obtain ⟨hstep, -⟩ := configure_spec hconf
    rcases config_cases hstep with ⟨value, size, allowed, rfl, hc⟩ | ⟨port, size, allowed, rfl, hc⟩ |
      ⟨port, value, size, allowed, rfl, ⟨hnone, hc⟩ | ⟨d₁, d', hsel, hw, hc⟩⟩
    · exact hkept (by rw [hc]) (by simp only [wrote, ha])
    · exact hkept (by rw [hc]) (by simp only [wrote, ha])
    · refine hkept (by rw [hc]) ?_
      have hne : b.config.selected ≠ id := by
        intro heq
        rw [heq, hid] at hnone
        cases hnone
      simp [wrote, ha, hne]
    · by_cases hne : b.config.selected = id
      · obtain rfl : d₁ = d := Option.some.inj (hsel.symm.trans (hne ▸ hid))
        have hwritten := written_of_ok hdec.apart hw
        have hnew : spaceBit b' id (barOffset i + n / 8) (n % 8) =
            (d'.configSpace (barOffset i + n / 8)).getLsbD (n % 8) := by
          rw [spaceBit, hc]
          simp [hne]
        have hold : spaceBit b id (barOffset i + n / 8) (n % 8) =
            (d₁.configSpace (barOffset i + n / 8)).getLsbD (n % 8) := by
          rw [spaceBit, hid]
          rfl
        rw [hnew, hold, hwritten.bits _ _ (Nat.mod_lt n (by decide)), writtenBit]
        simp only [wrote, ha, hne, true_and, hwrite, if_true]
        split <;> rfl
      · refine hkept ?_ (by simp [wrote, ha, hne])
        rw [hc]
        exact Function.update_of_ne (Ne.symm hne) _ _
  · exact hkept rfl (by simp [wrote, ha])
  · exact hkept rfl (by simp [wrote, ha])

theorem address_step (h : step serve b op = some b') :
    b'.config.configAddress = (addressed b op).getD b.config.configAddress := by
  rcases step_cases h with ⟨a, ha, hconf⟩ | ⟨ha, owner, i, base, s, -, -, rfl⟩ | ⟨ha, -, rfl⟩
  · obtain ⟨hstep, -⟩ := configure_spec hconf
    rcases config_cases hstep with ⟨value, size, allowed, rfl, hc⟩ | ⟨port, size, allowed, rfl, hc⟩ |
      ⟨port, value, size, allowed, rfl, ⟨-, hc⟩ | ⟨d₁, d', -, -, hc⟩⟩
    · rw [hc]
      simp [addressed, ha]
    · rw [hc]
      simp [addressed, ha]
    · rw [hc]
      simp [addressed, ha]
    · rw [hc]
      simp [addressed, ha]
  · simp [addressed, ha]
  · simp [addressed, ha]

/-- A function gets what is claimed for it, and stays as it is otherwise. -/
theorem share_step (h : step serve b op = some b') (id : Word) :
    exec (serveStep serve) (b.function id) (share id b op) = some (b'.function id) := by
  rcases step_cases h with ⟨a, ha, hconf⟩ | ⟨ha, owner, i, base, r, hclaim, hserve, rfl⟩ |
    ⟨ha, hclaim, rfl⟩
  · rw [share, ha, (configure_spec hconf).2.2]
    rfl
  · rw [share, ha, hclaim]
    dsimp only
    by_cases hid : owner = id
    · subst hid
      rw [if_pos rfl, exec_cons, serveStep, hserve, Function.update_self]
      rfl
    · rw [if_neg hid, Function.update_of_ne (Ne.symm hid)]
      rfl
  · rw [share, ha, hclaim]
    rfl

end Steps

/-! ## Claims -/

section Claims

variable {bars : Word → Nat → Option BAR} {b : Bus φ}

/-- A device before another one comes before it in the loop. -/
theorem before_iff {pre post : List Word} {id x : Word} (hids : b.ids = pre ++ id :: post)
    (hx : x ∈ b.ids) : x ∈ pre ↔ x < id := by
  have hsorted := b.sorted
  rw [hids, List.pairwise_append, List.pairwise_cons] at hsorted
  obtain ⟨-, ⟨hpost, -⟩, hpre⟩ := hsorted
  constructor
  · exact fun hmem => hpre x hmem id List.mem_cons_self
  · intro hlt
    rw [hids, List.mem_append, List.mem_cons] at hx
    rcases hx with hmem | rfl | hmem
    · exact hmem
    · exact absurd hlt (BitVec.lt_irrefl _)
    · exact absurd (hpost x hmem) (BitVec.lt_asymm hlt)

theorem claim_iff (hd : Described bars b) {kind : BarType} {addr : Word}
    (htop : AllBelowTop bars b kind addr) (id : Word) (i : Nat) (base : Word) :
    b.claim kind addr = some (id, i, base) ↔ Owns bars b kind addr id i base := by
  have hfirst {id : Word} {d : PCIDevice} (hid : b.config.devices id = some d) (i : Nat) (base : Word) :
      d.getBar kind addr = some (i, base) ↔ First d (bars id) kind addr i base :=
    (getBar_first_iff (hd id d hid) kind addr).mpr (htop id d hid) i base
  have hnone {id : Word} {d : PCIDevice} (hid : b.config.devices id = some d) :
      d.getBar kind addr = none ↔ ∀ j base, ¬ Covers d (bars id) kind addr j base := by
    rw [Option.eq_none_iff_forall_ne_some]
    constructor
    · intro h j base hcovers
      obtain ⟨k, -, other, hlow⟩ := exists_first hcovers
      exact h (k, other) ((hfirst hid k other).mpr hlow)
    · rintro h ⟨j, base⟩ hbar
      exact h j base ((hfirst hid j base).mp hbar).1
  unfold Bus.claim
  rw [List.findSome?_eq_some_iff]
  constructor
  · rintro ⟨pre, x, post, hids, hx, hbefore⟩
    obtain ⟨⟨j, base'⟩, hbar, hpair⟩ := Option.map_eq_some_iff.mp hx
    obtain ⟨d, hid, hbar⟩ := Option.bind_eq_some_iff.mp hbar
    obtain ⟨rfl, rfl, rfl⟩ : x = id ∧ j = i ∧ base' = base := by simpa using hpair
    refine ⟨⟨d, hid, (hfirst hid _ _).mp hbar⟩, fun id' d' hlt hid' => ?_⟩
    have hmem : id' ∈ b.ids := (b.connected id').mpr (by rw [hid']; rfl)
    have hmiss := hbefore id' ((before_iff hids hmem).mpr hlt)
    rw [hid', Option.bind_some, Option.map_eq_none_iff] at hmiss
    exact (hnone hid').mp hmiss
  · rintro ⟨⟨d, hid, hlow⟩, hbefore⟩
    have hmem : id ∈ b.ids := (b.connected id).mpr (by rw [hid]; rfl)
    obtain ⟨pre, post, hids⟩ := List.append_of_mem hmem
    refine ⟨pre, id, post, hids, ?_, fun x hx => ?_⟩
    · rw [hid, Option.bind_some, (hfirst hid i base).mpr hlow]
      rfl
    · have hxmem : x ∈ b.ids := by
        rw [hids]
        exact List.mem_append_left _ hx
      obtain ⟨d', hid'⟩ := Option.isSome_iff_exists.mp ((b.connected x).mp hxmem)
      rw [hid', Option.bind_some, Option.map_eq_none_iff]
      exact (hnone hid').mpr (hbefore x d' ((before_iff hids hxmem).mp hx) hid')

/-- The base of a BAR is made of the bits of its register above the type. -/
theorem baseOf_bit {d : PCIDevice} {id : Word} (hid : b.config.devices id = some d) (i : Nat) (r : BAR)
    {n : Nat} (hn : n < 32) : (baseOf d i r).getLsbD n =
      (decide (r.bits ≤ n) && spaceBit b id (barOffset i + n / 8) (n % 8)) := by
  rw [baseOf, BitVec.getLsbD_and, BitVec.getLsbD_not, size_sub_one, Lib.Bits.getLsbD_lowMask hn,
    getLsbD_read32 _ _ hn, spaceBit, hid]
  by_cases hbits : r.bits ≤ n
  · simp [hbits, hn]
  · simp [hbits, Nat.lt_of_not_le hbits]

end Claims

/-- The accesses that the guest makes go where it has last placed the BARs: to the first device with
one that covers the address, and to it only. -/
theorem accesses_routed {serve : Handler φ} {bars : Word → Nat → Option BAR} {start b : Bus φ}
    (hstart : Described bars start) {ops : List Op} (hrun : exec (step serve) start ops = some b) :
    Routes serve bars start ops b := by
  have hkeep (s : Bus φ) (op : Op) (s' : Bus φ) (hs : Described bars s)
      (h : step serve s op = some s') : Described bars s' := described_step hs h
  have hdesc : Described bars b := exec_invariant hkeep hstart hrun
  refine ⟨?_, fun id d i r hid hr n hn => ?_,
    fun kind addr htop id i base => claim_iff hdesc htop id i base,
    fun id => ?_⟩
  · have hupdate (s : Bus φ) (op : Op) (s' : Bus φ) (_ : Described bars s)
        (h : step serve s op = some s') :
        s'.config.configAddress = (addressed s op).getD s.config.configAddress := address_step h
    exact reg_eq_lastUpdate hkeep hupdate hstart hrun
  · rw [baseOf_bit hid i r hn]
    by_cases hbits : r.bits ≤ n
    · have hthere (s : Bus φ) (op : Op) (s' : Bus φ)
          (hs : Described bars s ∧ (s.config.devices id).isSome) (h : step serve s op = some s') :
          Described bars s' ∧ (s'.config.devices id).isSome :=
        ⟨hkeep s op s' hs.1 h, by rw [isSome_step h]; exact hs.2⟩
      have hupdate (s : Bus φ) (op : Op) (s' : Bus φ)
          (hs : Described bars s ∧ (s.config.devices id).isSome) (h : step serve s op = some s') :
          spaceBit s' id (barOffset i + n / 8) (n % 8) =
            (wrote id (barOffset i + n / 8) (n % 8) s op).getD
              (spaceBit s id (barOffset i + n / 8) (n % 8)) := by
        obtain ⟨d', hd'⟩ := Option.isSome_iff_exists.mp hs.2
        exact spaceBit_step hs.1 h hd' hr hn hbits
      have hsome : (start.config.devices id).isSome := by
        have hsame : (b.config.devices id).isSome = (start.config.devices id).isSome :=
          exec_invariant (I := fun s => (s.config.devices id).isSome = (start.config.devices id).isSome)
            (fun s op s' hs h => (isSome_step h id).trans hs) rfl hrun
        rw [← hsame, hid]
        rfl
      rw [reg_eq_lastUpdate hthere hupdate ⟨hstart, hsome⟩ hrun]
    · simp [hbits]
  · have hshare (s : Bus φ) (op : Op) (s' : Bus φ) (_ : Described bars s)
        (h : step serve s op = some s') :
        exec (serveStep serve) (s.function id) (share id s op) = some (s'.function id) := share_step h id
    exact exec_part hkeep hshare hstart hrun

/-- A USB controller alone on the bus; the function counts its accesses. -/
def usbOnly : Bus Nat where
  config := ⟨fun id => if id = 0x18 then some usb else none, 0⟩
  ids := [0x18]
  function _ := 0
  sorted := List.pairwise_singleton _ _
  connected id := by
    by_cases h : id = 0x18 <;> simp [h]

def counted : Handler Nat := fun f _ _ _ _ => some ⟨0, f + 1, []⟩

/-- A transfer of four bytes. -/
def dword (write : Bool) (value : Word) : Transfer := ⟨write, value, 4, .inr (.inr rfl)⟩

/-- The BAR is placed, and then an address in it is read. -/
def placedAndRead : List Op :=
  [.io 0xCF8 (dword true 0x80001810), .io 0xCFC (dword true 0xFED00000),
  .mmio 0xFED00010 (dword false 0)]

theorem usbOnly_described :
    Described (fun _ => Function.update (fun _ => none) 0 (some usbBar)) usbOnly := by
  intro id d hid
  simp only [usbOnly] at hid
  split at hid
  · cases hid
    exact reached_decodes usb_reached
  · cases hid

theorem usb_accesses_routed : ∃ b, exec (step counted) usbOnly placedAndRead = some b ∧
    Routes counted (fun _ => Function.update (fun _ => none) 0 (some usbBar)) usbOnly placedAndRead b :=
  have hrun : (exec (step counted) usbOnly placedAndRead).isSome := by decide +kernel
  ⟨_, (Option.some_get hrun).symm, accesses_routed usbOnly_described (Option.some_get hrun).symm⟩

end OpenXbox.Machine.PciBus
