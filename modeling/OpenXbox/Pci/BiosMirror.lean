import OpenXbox.Lib.Run
import OpenXbox.Pci.Device
import Mathlib.Data.List.DropRight

/-!
# The ROM area of the LPC bridge

A reset replicates the BIOS image over the 16 MiB of the area and lays the MCPX ROM over its
last 512 bytes; a write to a configuration register puts the BIOS back there. What the area
holds is told by one law for all addresses, whatever the order of resets and writes.
-/

namespace OpenXbox.Pci.BiosMirror

open OpenXbox.Lib.Run
open OpenXbox.Pci.Device

def KiB (x : Nat) : Nat := x * 1024
def MiB (x : Nat) : Nat := x * KiB 1024

def XBOX_ROM_AREA_SIZE : Nat := MiB 16
/-- The size of the MCPX ROM. -/
def mcpxSize : Nat := 512
def mcpxStart : Nat := XBOX_ROM_AREA_SIZE - mcpxSize

/-! ## The images -/

/-- A BIOS image of a size that fills the area in whole copies and has a tail for the overlay
to be taken from. -/
structure BiosImage where
  size : Nat
  bytes : Nat → Byte
  divides : size ∣ MiB 16
  tail : mcpxSize ≤ size

/-- What `InitROM` makes of a BIOS file; `none` for a file of another size. -/
def BiosImage.load (sz : Nat) (bytes : Nat → Byte) : Option BiosImage :=
  if h : sz ≠ KiB 256 ∧ sz ≠ MiB 1 then none
  else
    have hsz : sz = KiB 256 ∨ sz = MiB 1 := by tauto
    some
      { size := sz
        bytes
        divides := by rcases hsz with rfl | rfl <;> decide
        tail := by rcases hsz with rfl | rfl <;> decide }

/-- The sizes that are accepted. -/
theorem BiosImage.isSome_load {sz : Nat} {bytes : Nat → Byte} :
    (BiosImage.load sz bytes).isSome = true ↔ sz = KiB 256 ∨ sz = MiB 1 := by
  rw [BiosImage.load]
  split
  · next h => exact iff_of_false (by simp) (by tauto)
  · next h => exact iff_of_true rfl (by tauto)

namespace BiosImage

variable (bios : BiosImage)

theorem size_pos : 0 < bios.size := Nat.lt_of_lt_of_le (by decide) bios.tail

theorem size_le : bios.size ≤ MiB 16 := Nat.le_of_dvd (by decide) bios.divides

/-- A copy that starts inside the area, at a multiple of the size, ends inside it. -/
theorem copy_fits {addr : Nat} (haddr : addr % bios.size = 0) (hlt : addr < MiB 16) :
    addr + bios.size ≤ MiB 16 := by
  obtain ⟨n, hn⟩ := bios.divides
  obtain ⟨k, rfl⟩ := Nat.dvd_of_mod_eq_zero haddr
  rw [hn] at hlt ⊢
  have hk : k < n := Nat.lt_of_mul_lt_mul_left hlt
  calc bios.size * k + bios.size = bios.size * (k + 1) := (Nat.mul_succ _ _).symm
    _ ≤ bios.size * n := Nat.mul_le_mul_left _ hk

/-- The last bytes of the area mirror the last bytes of the image. -/
theorem tail_mirror {a : Nat} (hlo : mcpxStart ≤ a) (hhi : a < XBOX_ROM_AREA_SIZE) :
    bios.size - mcpxSize + (a - mcpxStart) = a % bios.size := by
  obtain ⟨n, hn⟩ := bios.divides
  have htail := bios.tail
  have hbelow : mcpxStart = XBOX_ROM_AREA_SIZE - mcpxSize := rfl
  have harea : XBOX_ROM_AREA_SIZE = bios.size * n := hn
  obtain ⟨m, rfl⟩ : ∃ m, n = m + 1 := by
    refine ⟨n - 1, (Nat.succ_pred_eq_of_ne_zero fun h => ?_).symm⟩
    rw [h, Nat.mul_zero] at hn
    cases hn
  have hcopies : bios.size * (m + 1) = bios.size * m + bios.size := Nat.mul_succ _ _
  have ha : a = bios.size - mcpxSize + (a - mcpxStart) + bios.size * m := by omega
  conv_rhs => rw [ha]
  rw [Nat.add_mul_mod_self_left, Nat.mod_eq_of_lt (by omega)]

end BiosImage

/-! ## The device -/

/-- `LPCDevice` with what the constructor is given of images. The memory from `m_rom` on is a
function of the offset, also beyond the area. -/
structure LPCDevice where
  pci : PCIDevice
  rom : Nat → Byte
  bios : BiosImage
  mcpxROM : Nat → Byte
  initMcpxROM : Bool

/-- `memcpy` to an offset. -/
def copy (rom : Nat → Byte) (addr : Nat) (src : Nat → Byte) (count : Nat) : Nat → Byte := fun i =>
  if addr ≤ i ∧ i < addr + count then src (i - addr) else rom i

/-- The replication from `addr` on. The sum does not leave 32 bits: the size is at most 16 MiB. -/
def replicate (bios : BiosImage) (rom : Nat → Byte) (addr : Nat) : Nat → Byte :=
  if addr < MiB 16 then replicate bios (copy rom addr rom bios.size) (addr + bios.size) else rom
termination_by MiB 16 - addr
decreasing_by
  have := bios.size_pos
  omega

def LPCDevice.reset (d : LPCDevice) : LPCDevice :=
  let rom := copy d.rom 0 d.bios.bytes d.bios.size
  let rom := replicate d.bios rom d.bios.size
  { d with rom := if d.initMcpxROM then copy rom mcpxStart d.mcpxROM mcpxSize else rom }

/-- `Init`; `none` when it does not return. -/
def LPCDevice.init (d : LPCDevice) : Option LPCDevice :=
  (d.pci.registerBAR 0 0x100 BarType.io.code).toOption.map fun r => { d with pci := r.1 }.reset

/-- The writes that disable the MCPX ROM. -/
def disablesMcpx (reg : Nat) (value : Word) : Bool := reg == 0x80 && value &&& 2 != 0

/-- `WriteConfig`; `none` when that of the base class does not return. -/
def LPCDevice.writeConfig (d : LPCDevice) (reg : Nat) (value : Word) (size : Nat) : Option LPCDevice :=
  (d.pci.writeConfig reg value size).toOption.map fun pci =>
    { d with
      pci
      rom :=
        if disablesMcpx reg value then
          copy d.rom mcpxStart (fun i => d.bios.bytes (d.bios.size - mcpxSize + i)) mcpxSize
        else d.rom }

inductive Op where
  | reset
  | writeConfig (reg : Nat) (value : Word) (size : Nat)
deriving DecidableEq

def LPCDevice.step (d : LPCDevice) : Op → Option LPCDevice
  | .reset => some d.reset
  | .writeConfig reg value size => d.writeConfig reg value size

/-- `Init`, then resets and writes. -/
def LPCDevice.run (d : LPCDevice) (ops : List Op) : Option LPCDevice :=
  d.init.bind fun d' => exec LPCDevice.step d' ops

/-! ## The law -/

def Op.disables : Op → Bool
  | .reset => false
  | .writeConfig reg value _ => disablesMcpx reg value

/-- Whether the MCPX ROM is there: the device has one and no write has disabled it since the last
reset. -/
def mcpxEnabled (initMcpxROM : Bool) (ops : List Op) : Bool :=
  initMcpxROM && (ops.rtakeWhile (· ≠ .reset)).all fun op => !op.disables

/-- The byte of the area at an address. -/
def romByte (bios : BiosImage) (mcpxROM : Nat → Byte) (enabled : Bool) (a : Nat) : Byte :=
  if enabled = true ∧ mcpxStart ≤ a then mcpxROM (a - mcpxStart) else bios.bytes (a % bios.size)

/-- What the memory holds from `m_rom` on: beyond the area, what it held before. -/
def romLaw (d : LPCDevice) (enabled : Bool) (a : Nat) : Byte :=
  if a < XBOX_ROM_AREA_SIZE then romByte d.bios d.mcpxROM enabled a else d.rom a

section Copies

variable {rom src : Nat → Byte} {addr count a : Nat}

theorem copy_of_mem (hlo : addr ≤ a) (hhi : a < addr + count) :
    copy rom addr src count a = src (a - addr) :=
  if_pos ⟨hlo, hhi⟩

theorem copy_of_lt (h : a < addr) : copy rom addr src count a = rom a := if_neg (by omega)

theorem copy_of_ge (h : addr + count ≤ a) : copy rom addr src count a = rom a := if_neg (by omega)

variable {bios : BiosImage}

/-- The copies from `addr` on fill the rest of the area with what its start holds, which they do
not touch, and end where the area ends. -/
theorem replicate_apply (hstart : addr % bios.size = 0) (hsize : bios.size ≤ addr) (a : Nat) :
    replicate bios rom addr a = if addr ≤ a ∧ a < MiB 16 then rom (a % bios.size) else rom a := by
  induction rom, addr using replicate.induct bios with
  | case1 rom addr hlt ih =>
    have hfits := bios.copy_fits hstart hlt
    have hnext : (addr + bios.size) % bios.size = 0 := by rw [Nat.add_mod_right, hstart]
    have hmod : a % bios.size < addr := Nat.lt_of_lt_of_le (Nat.mod_lt _ bios.size_pos) hsize
    rw [replicate, if_pos hlt, ih hnext (by omega), copy_of_lt hmod]
    by_cases hlo : addr ≤ a
    · by_cases hcopied : a < addr + bios.size
      · have hoff : a % bios.size = a - addr := by
          obtain ⟨k, hk⟩ := Nat.dvd_of_mod_eq_zero hstart
          rw [show a = a - addr + bios.size * k by omega, Nat.add_mul_mod_self_left,
            Nat.mod_eq_of_lt (by omega)]
          omega
        rw [if_neg (by omega), if_pos ⟨hlo, by omega⟩, copy_of_mem hlo hcopied, hoff]
      · rw [copy_of_ge (by omega)]
        exact if_congr (by omega) rfl rfl
    · rw [copy_of_lt (by omega), if_neg (by omega), if_neg (by omega)]
  | case2 rom addr hge =>
    rw [replicate, if_neg hge, if_neg (by omega)]

end Copies

section Operations

/-- The reset before the overlay. -/
theorem mirrored_apply (d : LPCDevice) (a : Nat) :
    replicate d.bios (copy d.rom 0 d.bios.bytes d.bios.size) d.bios.size a =
      if a < XBOX_ROM_AREA_SIZE then d.bios.bytes (a % d.bios.size) else d.rom a := by
  have hmod := Nat.mod_lt a d.bios.size_pos
  have hle := d.bios.size_le
  have harea : XBOX_ROM_AREA_SIZE = MiB 16 := rfl
  have hfirst :
      copy d.rom 0 d.bios.bytes d.bios.size (a % d.bios.size) = d.bios.bytes (a % d.bios.size) :=
    copy_of_mem (Nat.zero_le _) (by omega)
  rw [replicate_apply (Nat.mod_self _) (Nat.le_refl _), hfirst]
  by_cases hcopied : d.bios.size ≤ a
  · rw [copy_of_ge (by omega)]
    exact if_congr (by omega) rfl rfl
  · have hself : a % d.bios.size = a := Nat.mod_eq_of_lt (by omega)
    rw [hself] at hfirst
    rw [if_neg (by omega), if_pos (by omega), hfirst, hself]

/-- What the operations keep: the images, and the law with the MCPX ROM there or not. -/
structure Holds (before d : LPCDevice) (enabled : Bool) : Prop where
  bios : d.bios = before.bios
  mcpxROM : d.mcpxROM = before.mcpxROM
  initMcpxROM : d.initMcpxROM = before.initMcpxROM
  rom : d.rom = romLaw before enabled

/-- A reset brings the law about whatever the area holds. -/
theorem holds_reset (d : LPCDevice) : Holds d d.reset d.initMcpxROM := by
  refine ⟨rfl, rfl, rfl, funext fun a => ?_⟩
  have harea : mcpxStart + mcpxSize = XBOX_ROM_AREA_SIZE := by decide
  have hmirror := mirrored_apply d a
  rw [LPCDevice.reset, romLaw, romByte]
  dsimp only
  by_cases hinit : d.initMcpxROM = true
  · rw [if_pos hinit]
    by_cases hlo : mcpxStart ≤ a
    · by_cases hhi : a < XBOX_ROM_AREA_SIZE
      · rw [copy_of_mem hlo (by omega), if_pos hhi, if_pos ⟨hinit, hlo⟩]
      · rw [copy_of_ge (by omega), hmirror, if_neg hhi, if_neg hhi]
    · rw [copy_of_lt (by omega), hmirror, if_neg (c := _ ∧ _) (fun h => hlo h.2)]
  · rw [if_neg hinit, hmirror, if_neg (c := _ ∧ _) (fun h => hinit h.1)]

/-- The memory beyond the area is that before the first reset also after later ones. -/
theorem Holds.reset {before d : LPCDevice} {enabled : Bool} (h : Holds before d enabled) :
    Holds before d.reset before.initMcpxROM := by
  have hreset := holds_reset d
  refine ⟨hreset.bios.trans h.bios, hreset.mcpxROM.trans h.mcpxROM,
    hreset.initMcpxROM.trans h.initMcpxROM, hreset.rom.trans (funext fun a => ?_)⟩
  rw [romLaw, romLaw, h.bios, h.mcpxROM, h.initMcpxROM, h.rom]
  by_cases hhi : a < XBOX_ROM_AREA_SIZE
  · rw [if_pos hhi, if_pos hhi]
  · rw [if_neg hhi, if_neg hhi, romLaw, if_neg hhi]

/-- A write that disables the MCPX ROM takes the overlay off, another one leaves the area. -/
theorem Holds.writeConfig {before d d' : LPCDevice} {enabled : Bool} {reg size : Nat} {value : Word}
    (h : Holds before d enabled) (hw : d.writeConfig reg value size = some d') :
    Holds before d' (enabled && !disablesMcpx reg value) := by
  obtain ⟨pci, -, rfl⟩ := Option.map_eq_some_iff.mp hw
  refine ⟨h.bios, h.mcpxROM, h.initMcpxROM, funext fun a => ?_⟩
  dsimp only
  by_cases hd : disablesMcpx reg value = true
  · have harea : mcpxStart + mcpxSize = XBOX_ROM_AREA_SIZE := by decide
    rw [if_pos hd, hd, Bool.not_true, Bool.and_false, h.bios, h.rom, romLaw, romByte,
      if_neg (c := _ ∧ _) (fun hf => Bool.false_ne_true hf.1)]
    by_cases hlo : mcpxStart ≤ a
    · by_cases hhi : a < XBOX_ROM_AREA_SIZE
      · rw [copy_of_mem hlo (by omega), if_pos hhi, before.bios.tail_mirror hlo hhi]
      · rw [copy_of_ge (by omega), romLaw, if_neg hhi, if_neg hhi]
    · rw [copy_of_lt (by omega), romLaw, romByte, if_neg (c := _ ∧ _) (fun hf => hlo hf.2)]
  · rw [if_neg hd, Bool.eq_false_iff.mpr hd, Bool.not_false, Bool.and_true, h.rom]

end Operations

/-! ## Runs -/

theorem mcpxEnabled_reset (init : Bool) (ops : List Op) : mcpxEnabled init (ops ++ [.reset]) = init := by
  rw [mcpxEnabled, List.rtakeWhile_concat_neg _ _ _ (by decide), List.all_nil, Bool.and_true]

theorem mcpxEnabled_writeConfig (init : Bool) (ops : List Op) (reg : Nat) (value : Word) (size : Nat) :
    mcpxEnabled init (ops ++ [.writeConfig reg value size]) =
      (mcpxEnabled init ops && !disablesMcpx reg value) := by
  rw [mcpxEnabled, mcpxEnabled, List.rtakeWhile_concat_pos _ _ _ (by simp), List.all_append,
    List.all_cons, List.all_nil, Bool.and_true, Bool.and_assoc]
  rfl

theorem holds_exec {d d' : LPCDevice} {ops : List Op} (h : exec LPCDevice.step d.reset ops = some d') :
    Holds d d' (mcpxEnabled d.initMcpxROM ops) := by
  induction ops using List.reverseRecOn generalizing d' with
  | nil =>
    obtain rfl : d.reset = d' := by simpa using h
    simpa [mcpxEnabled] using holds_reset d
  | append_singleton ops op ih =>
    rw [exec_append, Option.bind_eq_some_iff] at h
    obtain ⟨t, ht, hstep⟩ := h
    rw [exec_cons, Option.bind_eq_some_iff] at hstep
    obtain ⟨u, hop, hu⟩ := hstep
    obtain rfl : u = d' := by simpa using hu
    cases op with
    | reset =>
      obtain rfl : t.reset = u := by simpa [LPCDevice.step] using hop
      rw [mcpxEnabled_reset]
      exact (ih ht).reset
    | writeConfig reg value size =>
      rw [mcpxEnabled_writeConfig]
      exact (ih ht).writeConfig hop

/-- After every run from `Init` the area holds the copies of the BIOS image, with the MCPX ROM over
the last of them exactly while it is enabled, and the memory beyond the area is as it was. -/
theorem rom_of_run {d d' : LPCDevice} {ops : List Op} (h : d.run ops = some d') (a : Nat) :
    d'.rom a =
      if a < XBOX_ROM_AREA_SIZE then
        if mcpxEnabled d.initMcpxROM ops = true ∧ XBOX_ROM_AREA_SIZE - 512 ≤ a then
          d.mcpxROM (a - (XBOX_ROM_AREA_SIZE - 512))
        else d.bios.bytes (a % d.bios.size)
      else d.rom a := by
  obtain ⟨t, hinit, hrun⟩ := Option.bind_eq_some_iff.mp h
  obtain ⟨r, -, rfl⟩ := Option.map_eq_some_iff.mp hinit
  exact congrFun (holds_exec hrun).rom a

/-- The bridge as the console builds it, with a BIOS of 256 KiB of the byte 0x55 and an MCPX ROM of
the byte 0xaa. -/
def retail : LPCDevice :=
  { pci := PCIDevice.new ⟨PCI_HEADER_TYPE_BRIDGE, 0x10de, 0x01b2, 0xd4, 0x06, 0x01, 0x00, 0, 0⟩
    rom := fun _ => 0
    bios := ⟨KiB 256, fun _ => 0x55, by decide, by decide⟩
    mcpxROM := fun _ => 0xaa
    initMcpxROM := true }

theorem rom_of_run_retail :
    (∃ d', retail.run [.writeConfig 0x80 2 4, .reset] = some d' ∧ d'.rom 0xffffff = 0xaa) ∧
      ∃ d', retail.run [.reset, .writeConfig 0x80 2 4] = some d' ∧ d'.rom 0xffffff = 0x55 := by
  have hreset : (retail.run [.writeConfig 0x80 2 4, .reset]).isSome = true := by decide
  have hwrite : (retail.run [.reset, .writeConfig 0x80 2 4]).isSome = true := by decide
  obtain ⟨d, hd⟩ := Option.isSome_iff_exists.mp hreset
  obtain ⟨e, he⟩ := Option.isSome_iff_exists.mp hwrite
  exact ⟨⟨d, hd, rom_of_run hd 0xffffff⟩, e, he, rom_of_run he 0xffffff⟩

end OpenXbox.Pci.BiosMirror
