import OpenXbox.Cpu.PageWalk

/-!
# When the translation is the page walk

The code's walk and the architecture's are compared entry by entry. They agree,
whatever the unread locals hold, exactly under `Sound`: with a clean CR3 the
tables must be mapped and a large directory entry present and without bits
21..12 that the address lacks; with flag bits in CR3 the entry that is read
instead must lead to the same page.
-/

namespace OpenXbox.Cpu.WalkAgreement

open OpenXbox.Lib.Bits OpenXbox.Cpu.Memory OpenXbox.Cpu.PageWalk

/-- The table entry that a directory entry leads to. -/
def tableEntry (m : PhysMemMap) (vaddr : Word) (pde : Pte) : Option Pte :=
  wordAt m (entryAddr (frame pde) (tableIndex vaddr))

/-- The directory entry maps the address to the page frame `f`. -/
def MapsTo (m : PhysMemMap) (vaddr : Word) (pde : Option Pte) (f : BitVec 20) : Prop :=
  ∃ e, pde = some e ∧ e.valid = true ∧
    ((e.largePage = true ∧ largeFrame e ++ tableIndex vaddr = f) ∨
      (e.largePage = false ∧ ∃ t, tableEntry m vaddr e = some t ∧ t.valid = true ∧ frame t = f))

/-- The directory entry does not map the address. -/
def NotMapped (m : PhysMemMap) (vaddr : Word) (pde : Option Pte) : Prop :=
  ∀ e, pde = some e → e.valid = true →
    e.largePage = false ∧ ∀ t, tableEntry m vaddr e = some t → t.valid = false

theorem walkFrom_none (m : PhysMemMap) (vaddr : Word) : walkFrom m vaddr none = none := rfl

theorem walkFrom_some (m : PhysMemMap) (vaddr : Word) (e : Pte) :
    walkFrom m vaddr (some e) =
      if !e.valid then none
      else if e.largePage then
        some ((largeFrame e ++ tableIndex vaddr : BitVec 20) ++ pageOffset vaddr)
      else (tableEntry m vaddr e).bind fun t =>
        if !t.valid then none else some (frame t ++ pageOffset vaddr) := by
  rw [← largeFrame_append]
  rfl

theorem walkFrom_eq_some_iff {m : PhysMemMap} {vaddr : Word} {pde : Option Pte} {f : BitVec 20} :
    walkFrom m vaddr pde = some (f ++ pageOffset vaddr) ↔ MapsTo m vaddr pde f := by
  cases pde with
  | none => simp [walkFrom_none, MapsTo]
  | some e =>
    rw [walkFrom_some]
    cases hv : e.valid with
    | false => simp [MapsTo, hv]
    | true =>
      cases hl : e.largePage with
      | true => simp [MapsTo, hv, hl, append_pageOffset_inj]
      | false =>
        cases ht : tableEntry m vaddr e with
        | none => simp [MapsTo, hv, hl, ht]
        | some t =>
          cases htv : t.valid with
          | false => simp [MapsTo, hv, hl, ht, htv]
          | true => simp [MapsTo, hv, hl, ht, htv, append_pageOffset_inj]

theorem walkFrom_eq_none_iff {m : PhysMemMap} {vaddr : Word} {pde : Option Pte} :
    walkFrom m vaddr pde = none ↔ NotMapped m vaddr pde := by
  cases pde with
  | none => simp [walkFrom_none, NotMapped]
  | some e =>
    rw [walkFrom_some]
    cases hv : e.valid with
    | false => simp [NotMapped, hv]
    | true =>
      cases hl : e.largePage with
      | true => simp [NotMapped, hv, hl]
      | false =>
        cases ht : tableEntry m vaddr e with
        | none => simp [NotMapped, hv, hl, ht]
        | some t => cases htv : t.valid <;> simp [NotMapped, hv, hl, ht, htv]

/-! ## The code's walk by the entries it reads -/

/-- The directory entry that the code reads: CR3 is used with its low bits. -/
def codePde (m : PhysMemMap) (cr3 vaddr : Word) : Option Pte :=
  (memRead m (cr3 + (vaddr >>> 22) <<< 2) 4).map toWord

theorem virtualToPhysical_eq (m : PhysMemMap) (cr3 vaddr pde₀ pte₀ : Word) :
    virtualToPhysical m cr3 vaddr pde₀ pte₀ =
      let pde : Pte := (codePde m cr3 vaddr).getD pde₀
      if pde.largePage then some (mixedFrame pde vaddr ++ pageOffset vaddr)
      else if !pde.valid then none
      else
        let pte : Pte := (tableEntry m vaddr pde).getD pte₀
        if !pte.valid then none else some (frame pte ++ pageOffset vaddr) := by
  simp only [virtualToPhysical, memRead32, codePde, tableEntry, pteAddr_eq, smallPage_eq,
    largePage_eq, memRead_eq_wordAt m (entryAddr_toNat_lt _ _)]
  rfl

/-- The entry read in place of `pde` leads where `pde` leads, through entries that
are all read from mapped memory. -/
structure SameOutcome (m : PhysMemMap) (vaddr : Word) (pde : Option Pte) (p : Pte) : Prop where
  large : p.largePage = true → MapsTo m vaddr pde (mixedFrame p vaddr)
  absent : p.largePage = false → p.valid = false → NotMapped m vaddr pde
  table : p.largePage = false → p.valid = true → ∃ q, tableEntry m vaddr p = some q ∧
    (q.valid = true → MapsTo m vaddr pde (frame q)) ∧ (q.valid = false → NotMapped m vaddr pde)

theorem sameOutcome_large {m : PhysMemMap} {vaddr : Word} {pde : Option Pte} {p : Pte}
    (hl : p.largePage = true) :
    SameOutcome m vaddr pde p ↔ MapsTo m vaddr pde (mixedFrame p vaddr) := by
  refine ⟨fun h => h.large hl, fun h => ⟨fun _ => h, fun hf => ?_, fun hf => ?_⟩⟩
  · rw [hl] at hf
    cases hf
  · rw [hl] at hf
    cases hf

theorem sameOutcome_absent {m : PhysMemMap} {vaddr : Word} {pde : Option Pte} {p : Pte}
    (hl : p.largePage = false) (hv : p.valid = false) :
    SameOutcome m vaddr pde p ↔ NotMapped m vaddr pde := by
  refine ⟨fun h => h.absent hl hv, fun h => ⟨fun ht => ?_, fun _ _ => h, fun _ ht => ?_⟩⟩
  · rw [hl] at ht
    cases ht
  · rw [hv] at ht
    cases ht

theorem sameOutcome_table {m : PhysMemMap} {vaddr : Word} {pde : Option Pte} {p : Pte}
    (hl : p.largePage = false) (hv : p.valid = true) :
    SameOutcome m vaddr pde p ↔ ∃ q, tableEntry m vaddr p = some q ∧
      (q.valid = true → MapsTo m vaddr pde (frame q)) ∧
      (q.valid = false → NotMapped m vaddr pde) := by
  refine ⟨fun h => h.table hl hv, fun h => ⟨fun ht => ?_, fun _ hf => ?_, fun _ _ => h⟩⟩
  · rw [hl] at ht
    cases ht
  · rw [hv] at hf
    cases hf

/-- The code and a walk from `pde` give one result for all contents of the unread
locals exactly when the entry is read and has the same outcome. -/
theorem agrees_iff {m : PhysMemMap} {cr3 vaddr : Word} {pde : Option Pte} :
    (∀ pde₀ pte₀, virtualToPhysical m cr3 vaddr pde₀ pte₀ = walkFrom m vaddr pde) ↔
      ∃ p, codePde m cr3 vaddr = some p ∧ SameOutcome m vaddr pde p := by
  simp only [virtualToPhysical_eq]
  cases hc : codePde m cr3 vaddr with
  | none =>
    -- an unread entry can be absent or large
    simp only [reduceCtorEq, false_and, exists_false, iff_false]
    intro h
    have h0 := h 0 0
    have h1 := h 0x80 0
    rw [← h0] at h1
    exact absurd h1 (by simp [Pte.largePage, Pte.valid])
  | some p =>
    simp only [Option.getD_some, Option.some.injEq, exists_eq_left']
    cases hl : p.largePage with
    | true =>
      rw [sameOutcome_large hl, ← walkFrom_eq_some_iff]
      exact ⟨fun h => (h 0 0).symm, fun h _ _ => h.symm⟩
    | false =>
      cases hv : p.valid with
      | false =>
        rw [sameOutcome_absent hl hv, ← walkFrom_eq_none_iff]
        exact ⟨fun h => (h 0 0).symm, fun h _ _ => h.symm⟩
      | true =>
        rw [sameOutcome_table hl hv]
        cases ht : tableEntry m vaddr p with
        | none =>
          simp only [reduceCtorEq, false_and, exists_false, iff_false]
          intro h
          have h0 := h 0 0
          have h1 := h 0 1
          rw [← h0] at h1
          exact absurd h1 (by simp [Pte.valid])
        | some q =>
          simp only [Option.getD_some, Option.some.injEq, exists_eq_left']
          cases hq : q.valid with
          | true =>
            rw [← walkFrom_eq_some_iff]
            exact ⟨fun h => ⟨fun _ => (h 0 0).symm, nofun⟩, fun h _ _ => (h.1 rfl).symm⟩
          | false =>
            rw [← walkFrom_eq_none_iff]
            exact ⟨fun h => ⟨nofun, fun _ => (h 0 0).symm⟩, fun h _ _ => (h.2 rfl).symm⟩

/-! ## The exact condition -/

/-- The tables of the walk from `pde` are mapped, and a large entry is present and
has no bit among 21..12 that the address lacks. -/
structure CleanWalk (m : PhysMemMap) (vaddr : Word) (pde : Pte) : Prop where
  large : pde.largePage = true → pde.valid = true ∧
    ∀ i, 12 ≤ i → i < 22 → pde.getLsbD i = true → vaddr.getLsbD i = true
  table : pde.largePage = false → pde.valid = true → tableEntry m vaddr pde ≠ none

theorem sameOutcome_self_iff {m : PhysMemMap} {vaddr : Word} {p : Pte} :
    SameOutcome m vaddr (some p) p ↔ CleanWalk m vaddr p := by
  constructor
  · intro h
    refine ⟨fun hl => ?_, fun hl hv => ?_⟩
    · obtain ⟨e, he, hv, ⟨-, hf⟩ | ⟨hf, -⟩⟩ := h.large hl
      · obtain rfl := Option.some.inj he
        exact ⟨hv, mixedFrame_eq_iff.mp hf.symm⟩
      · obtain rfl := Option.some.inj he
        rw [hl] at hf
        cases hf
    · obtain ⟨q, hq, -⟩ := h.table hl hv
      rw [hq]
      exact Option.some_ne_none q
  · intro h
    refine ⟨fun hl => ?_, fun hl hv e he hv' => ?_, fun hl hv => ?_⟩
    · obtain ⟨hv, hb⟩ := h.large hl
      exact ⟨p, rfl, hv, .inl ⟨hl, (mixedFrame_eq_iff.mpr hb).symm⟩⟩
    · obtain rfl := Option.some.inj he
      rw [hv] at hv'
      cases hv'
    · obtain ⟨q, hq⟩ := Option.ne_none_iff_exists'.mp (h.table hl hv)
      refine ⟨q, hq, fun hqv => ⟨p, rfl, hv, .inr ⟨hl, q, hq, hqv, rfl⟩⟩, fun hqv e he _ => ?_⟩
      obtain rfl := Option.some.inj he
      refine ⟨hl, fun t ht => ?_⟩
      rw [hq] at ht
      obtain rfl := Option.some.inj ht
      exact hqv

/-- The directory entry of the architecture. -/
def directoryEntry (m : PhysMemMap) (cr3 vaddr : Word) : Option Pte :=
  wordAt m (entryAddr (frame cr3) (directoryIndex vaddr))

/-- The inputs on which the code walks the tables rightly. -/
structure Sound (m : PhysMemMap) (cr3 vaddr : Word) : Prop where
  clean : cr3 &&& lowMask 12 = 0 →
    ∃ pde, directoryEntry m cr3 vaddr = some pde ∧ CleanWalk m vaddr pde
  flagged : cr3 &&& lowMask 12 ≠ 0 →
    ∃ p, codePde m cr3 vaddr = some p ∧ SameOutcome m vaddr (directoryEntry m cr3 vaddr) p

theorem codePde_eq_directoryEntry {m : PhysMemMap} {cr3 vaddr : Word}
    (hc : cr3 &&& lowMask 12 = 0) : codePde m cr3 vaddr = directoryEntry m cr3 vaddr := by
  rw [codePde, pdeAddr_eq hc, memRead_eq_wordAt m (entryAddr_toNat_lt _ _)]
  rfl

theorem sound_iff {m : PhysMemMap} {cr3 vaddr : Word} :
    Sound m cr3 vaddr ↔
      ∃ p, codePde m cr3 vaddr = some p ∧ SameOutcome m vaddr (directoryEntry m cr3 vaddr) p := by
  have hself : cr3 &&& lowMask 12 = 0 → ((∃ p, codePde m cr3 vaddr = some p ∧
      SameOutcome m vaddr (directoryEntry m cr3 vaddr) p) ↔
      ∃ pde, directoryEntry m cr3 vaddr = some pde ∧ CleanWalk m vaddr pde) := by
    intro hc
    rw [codePde_eq_directoryEntry hc]
    refine exists_congr fun p => and_congr_right fun hp => ?_
    rw [hp, sameOutcome_self_iff]
  by_cases hc : cr3 &&& lowMask 12 = 0
  · rw [hself hc]
    exact ⟨fun h => h.clean hc, fun h => ⟨fun _ => h, fun hn => absurd hc hn⟩⟩
  · exact ⟨fun h => h.flagged hc, fun h => ⟨fun hn => absurd hn hc, fun _ => h⟩⟩

/-- The translation is the page walk of the architecture exactly on sound inputs. -/
theorem virtualToPhysical_eq_pageWalk_iff (m : PhysMemMap) (cr3 vaddr : Word) :
    (∀ pde₀ pte₀, virtualToPhysical m cr3 vaddr pde₀ pte₀ = pageWalk m cr3 vaddr) ↔
      Sound m cr3 vaddr := by
  rw [sound_iff, ← agrees_iff]
  rfl

/-- A page of RAM whose first directory entry has the large bit but not the present bit. -/
def absentLargePage : PhysMemMap := [⟨0, 0xFFF, fun i => if i = 0 then 0x80 else 0⟩]

/-- Address zero is translated although its directory entry is not present. -/
theorem absent_large_page_translated :
    ¬ ∀ pde₀ pte₀, virtualToPhysical absentLargePage 0 0 pde₀ pte₀ =
      pageWalk absentLargePage 0 0 := by
  intro h
  exact absurd (h 0 0) (by decide)

end OpenXbox.Cpu.WalkAgreement
