import OpenXbox.Common.Overlap

/-!
# Runs of mapping calls

A run is a sequence of `MapIODevice` and `MapMMIODevice` calls. The history
keeps, beside the mapper, the calls that returned `true`. `CallOk` is what each
call should do; it holds along a run exactly as long as every overlap of a call
is one that the neighbour test notices.
-/

namespace OpenXbox.Common.MapRun

open OpenXbox.Lib OpenXbox.Lib.Run OpenXbox.Common.IOMapper OpenXbox.Common.Overlap

variable {δ : Type*}

/-- The mapper with the calls it accepted, oldest first. -/
structure History (δ : Type*) where
  mapper : Mapper δ
  accepted : List (Call δ)

def History.initial : History δ := ⟨Mapper.initial, []⟩

def History.step (h : History δ) (c : Call δ) : History δ :=
  let r := c.apply h.mapper
  ⟨r.1, if r.2 then h.accepted ++ [c] else h.accepted⟩

def step (h : History δ) (c : Call δ) : Option (History δ) := some (h.step c)

def Call.Contains (c : Call δ) (sp : Space) (addr : Nat) : Prop :=
  c.space = sp ∧ c.base ≤ addr ∧ addr ≤ c.last

/-- Lookups answer by the accepted calls, and no address belongs to two of them. -/
structure LookupOk (h : History δ) : Prop where
  found : ∀ a ∈ h.accepted, ∀ sp addr, Call.Contains a sp addr →
    lookupDevice (h.mapper.map sp) addr = some a.device
  missing : ∀ sp addr, (∀ a ∈ h.accepted, ¬ Call.Contains a sp addr) →
    lookupDevice (h.mapper.map sp) addr = none
  unique : h.accepted.Pairwise fun a b =>
    ∀ sp addr, Call.Contains a sp addr → ¬ Call.Contains b sp addr

/-- One call decides its overlap rightly and leaves disjoint ranges behind. -/
structure CallOk (h : History δ) (c : Call δ) : Prop where
  rejects : Intersects (h.mapper.map c.space) c.base c.last → c.apply h.mapper = (h.mapper, false)
  accepts : ¬ Intersects (h.mapper.map c.space) c.base c.last → (c.apply h.mapper).2 = true
  disjoint : ∀ sp, PairwiseDisjoint ((h.step c).mapper.map sp)
  lookup : LookupOk (h.step c)

/-- The entry that an accepted call leaves in its map. -/
def Call.entry (c : Call δ) : Nat × MappedDevice δ := (c.base, ⟨c.base, c.last, c.device⟩)

/-- Each map holds the accepted calls of its space and keeps its ranges apart. -/
structure Faithful (h : History δ) : Prop where
  ranges : ∀ sp, Ranges (h.mapper.map sp)
  mem_iff : ∀ sp e, e ∈ h.mapper.map sp ↔ ∃ a ∈ h.accepted, a.space = sp ∧ e = Call.entry a
  unique : h.accepted.Pairwise fun a b =>
    ∀ sp addr, Call.Contains a sp addr → ¬ Call.Contains b sp addr

theorem Call.base_le_last (c : Call δ) : c.base ≤ c.last := by
  have h := c.size_pos
  unfold Call.last
  omega

theorem Call.covers_entry {c : Call δ} {sp : Space} {addr : Nat} (hc : Call.Contains c sp addr) :
    Covers (Call.entry c) addr := hc.2

theorem faithful_initial : Faithful (History.initial : History δ) := by
  refine ⟨?_, ?_, List.Pairwise.nil⟩
  · intro sp
    cases sp with
    | io => exact Ranges.empty
    | mmio => exact Ranges.empty
  · intro sp e
    have hno : e ∉ (History.initial : History δ).mapper.map sp := by
      cases sp with
      | io => exact SortedMap.not_mem_empty e
      | mmio => exact SortedMap.not_mem_empty e
    simp only [hno, false_iff]
    intro h
    obtain ⟨a, ha, -⟩ := h
    cases ha

theorem Faithful.lookupOk {h : History δ} (hf : Faithful h) : LookupOk h := by
  refine ⟨?_, ?_, hf.unique⟩
  · intro a ha sp addr hc
    have he : Call.entry a ∈ h.mapper.map sp := (hf.mem_iff sp _).mpr ⟨a, ha, hc.1, rfl⟩
    exact lookupDevice_of_covers (hf.ranges sp) he (Call.covers_entry hc)
  · intro sp addr hno
    cases hl : lookupDevice (h.mapper.map sp) addr with
    | none => rfl
    | some d =>
      obtain ⟨e, he, hcov, -⟩ := lookupDevice_eq_some hl
      obtain ⟨a, ha, hs, rfl⟩ := (hf.mem_iff sp e).mp he
      exact absurd ⟨hs, hcov⟩ (hno a ha)

/-! ## One call -/

theorem apply_snd (c : Call δ) (s : Mapper δ) :
    (c.apply s).2 = (mapDevice (s.map c.space) c.base c.size c.device).2 := by
  unfold Call.apply
  cases c.space with
  | io => rfl
  | mmio => rfl

theorem apply_map (c : Call δ) (s : Mapper δ) (sp : Space) :
    (c.apply s).1.map sp =
      if sp = c.space then (mapDevice (s.map c.space) c.base c.size c.device).1 else s.map sp := by
  unfold Call.apply
  cases c.space with
  | io => cases sp <;> rfl
  | mmio => cases sp <;> rfl

theorem apply_of_rejects {c : Call δ} {s : Mapper δ}
    (hr : Rejects (s.map c.space) c.base c.last) : c.apply s = (s, false) := by
  have he := (mapDevice_eq c.size_pos c.fits c.device).1 hr
  unfold Call.apply mapIODevice mapMMIODevice
  cases hs : c.space with
  | io =>
    rw [hs] at he
    simp only [Mapper.map] at he
    simp only [he]
  | mmio =>
    rw [hs] at he
    simp only [Mapper.map] at he
    simp only [he]

theorem apply_snd_of_not_rejects {c : Call δ} {s : Mapper δ}
    (hr : ¬ Rejects (s.map c.space) c.base c.last) : (c.apply s).2 = true := by
  rw [apply_snd, (mapDevice_eq c.size_pos c.fits c.device).2 hr]

/-- The neighbour test finds the overlap of a call exactly when it is a noticed one. -/
theorem noticed_iff {m : IOMap δ} (hm : Ranges m) {base last : Nat} (hbl : base ≤ last) :
    Noticed m base last ↔ (Intersects m base last → Rejects m base last) := by
  rw [intersects_iff_top hm hbl]
  constructor
  · rintro hn ⟨h, hh, hb⟩
    exact (rejects_iff hm hbl hh hb).mpr (hn h hh hb)
  · intro hr h hh hb
    exact (rejects_iff hm hbl hh hb).mp (hr ⟨h, hh, hb⟩)

theorem ranges_insert {m : IOMap δ} (hm : Ranges m) {base last : Nat} (hbl : base ≤ last)
    {device : δ} (hno : ¬ Intersects m base last) : Ranges (m.insert base ⟨base, last, device⟩) := by
  have hapart : ∀ e ∈ m, e.2.lastAddress < base ∨ last < e.1 := by
    intro e he
    by_contra hc
    apply hno
    rw [intersects_iff hm hbl]
    exact ⟨e, he, by omega, by omega⟩
  constructor
  · intro e he
    rw [SortedMap.mem_insert] at he
    rcases he with rfl | ⟨he, -⟩
    · rfl
    · exact hm.base_eq e he
  · intro e he
    rw [SortedMap.mem_insert] at he
    rcases he with rfl | ⟨he, -⟩
    · exact hbl
    · exact hm.ordered e he
  · intro a ha b hb hlt
    rw [SortedMap.mem_insert] at ha hb
    rcases ha with rfl | ⟨ha, -⟩
    · rcases hb with rfl | ⟨hb, -⟩
      · exact absurd hlt (lt_irrefl _)
      · have hd := hapart b hb
        have ho := hm.ordered b hb
        simp only at hlt ⊢
        omega
    · have hd := hapart a ha
      have ho := hm.ordered a ha
      rcases hb with rfl | ⟨hb, -⟩
      · simp only at hlt ⊢
        omega
      · exact hm.disjoint a ha b hb hlt

/-- No call accepted before has an address in common with a call that meets no mapped range. -/
theorem Faithful.fresh_of_apart {h : History δ} (hf : Faithful h) {c : Call δ}
    (hno : ¬ Intersects (h.mapper.map c.space) c.base c.last) {a : Call δ} (ha : a ∈ h.accepted)
    (sp : Space) (addr : Nat) (hca : Call.Contains a sp addr) : ¬ Call.Contains c sp addr := by
  intro hcc
  apply hno
  have hsp : a.space = c.space := hca.1.trans hcc.1.symm
  exact ⟨Call.entry a, (hf.mem_iff _ _).mpr ⟨a, ha, hsp, rfl⟩, addr, hcc.2.1, hcc.2.2, hca.2⟩

/-- A call that meets no mapped range adds its own entry and nothing else changes. -/
theorem Faithful.step_of_apart {h : History δ} (hf : Faithful h) {c : Call δ}
    (hno : ¬ Intersects (h.mapper.map c.space) c.base c.last) : Faithful (h.step c) := by
  have hrej : ¬ Rejects (h.mapper.map c.space) c.base c.last :=
    fun hr => hno (intersects_of_rejects (Call.base_le_last c) hr)
  have hmap : ∀ sp, (h.step c).mapper.map sp = if sp = c.space then
      (h.mapper.map c.space).insert c.base ⟨c.base, c.last, c.device⟩ else h.mapper.map sp := by
    intro sp
    have he := (mapDevice_eq c.size_pos c.fits c.device).2 hrej
    rw [History.step, apply_map, he]
    rfl
  have hacc : (h.step c).accepted = h.accepted ++ [c] := by
    rw [History.step]
    simp only [apply_snd_of_not_rejects hrej, if_true]
  refine ⟨?_, ?_, ?_⟩
  · intro sp
    rw [hmap]
    split
    · exact ranges_insert (hf.ranges _) (Call.base_le_last c) hno
    · exact hf.ranges sp
  · intro sp e
    rw [hmap, hacc]
    simp only [List.mem_append, List.mem_singleton]
    by_cases hsp : sp = c.space
    · subst hsp
      rw [if_pos rfl, SortedMap.mem_insert, hf.mem_iff]
      constructor
      · intro h'
        rcases h' with rfl | ⟨⟨a, ha, hs, he⟩, -⟩
        · exact ⟨c, .inr rfl, rfl, rfl⟩
        · exact ⟨a, .inl ha, hs, he⟩
      · intro h'
        obtain ⟨a, ha | rfl, hs, he⟩ := h'
        · refine .inr ⟨⟨a, ha, hs, he⟩, fun hk => ?_⟩
          have hb : a.base = c.base := by rw [he] at hk; exact hk
          refine hf.fresh_of_apart hno ha c.space c.base ⟨hs, hb.le, ?_⟩
            ⟨rfl, le_refl _, Call.base_le_last c⟩
          rw [← hb]
          exact Call.base_le_last a
        · exact .inl he
    · rw [if_neg hsp, hf.mem_iff]
      constructor
      · intro h'
        obtain ⟨a, ha, hs, he⟩ := h'
        exact ⟨a, .inl ha, hs, he⟩
      · intro h'
        obtain ⟨a, ha | rfl, hs, he⟩ := h'
        · exact ⟨a, ha, hs, he⟩
        · exact absurd hs.symm hsp
  · rw [hacc, List.pairwise_append]
    refine ⟨hf.unique, List.pairwise_singleton _ _, ?_⟩
    intro a ha b hb
    obtain rfl := List.mem_singleton.mp hb
    exact hf.fresh_of_apart hno ha

theorem step_of_rejects {h : History δ} {c : Call δ}
    (hr : Rejects (h.mapper.map c.space) c.base c.last) : h.step c = h := by
  rw [History.step, apply_of_rejects hr]
  rfl

/-- The overlap of a call, when there is one, is noticed. -/
def CallNoticed (h : History δ) (c : Call δ) : Prop :=
  Noticed (h.mapper.map c.space) c.base c.last

theorem Faithful.step {h : History δ} (hf : Faithful h) {c : Call δ} (hn : CallNoticed h c) :
    Faithful (h.step c) := by
  by_cases hi : Intersects (h.mapper.map c.space) c.base c.last
  · have hr := (noticed_iff (hf.ranges _) (Call.base_le_last c)).mp hn hi
    rw [step_of_rejects hr]
    exact hf
  · exact hf.step_of_apart hi

theorem callOk_iff {h : History δ} (hf : Faithful h) (c : Call δ) :
    CallOk h c ↔ CallNoticed h c := by
  constructor
  · intro hok
    refine (noticed_iff (hf.ranges _) (Call.base_le_last c)).mpr fun hi => ?_
    by_contra hr
    have ht := apply_snd_of_not_rejects hr
    rw [hok.rejects hi] at ht
    cases ht
  · intro hn
    have hnext := hf.step hn
    refine ⟨?_, ?_, fun sp => (hnext.ranges sp).pairwiseDisjoint, hnext.lookupOk⟩
    · intro hi
      exact apply_of_rejects ((noticed_iff (hf.ranges _) (Call.base_le_last c)).mp hn hi)
    · intro hi
      exact apply_snd_of_not_rejects
        fun hr => hi (intersects_of_rejects (Call.base_le_last c) hr)

/-! ## Runs -/

/-- Every call of a run is decided rightly, with lookups answered by the accepted
calls, exactly when every overlap on the way is a noticed one. -/
theorem calls_ok_iff_noticed (cs : List (Call δ)) :
    Guarded step CallOk History.initial cs ↔ Guarded step CallNoticed History.initial cs := by
  apply guarded_congr (I := Faithful)
  · intro h c hf
    exact callOk_iff hf c
  · intro h c h' hf hn hs
    obtain rfl := Option.some.inj hs
    exact hf.step hn
  · exact faithful_initial

/-- The call that maps the two ports `0x20` and `0x21`. -/
def twoPorts : Call Bool := ⟨.io, 0x20, 2, true, by decide, by decide⟩

/-- Mapping the same two ports twice is accepted both times. -/
theorem same_ports_twice_accepted :
    ¬ Guarded step CallOk History.initial [twoPorts, twoPorts] := by
  intro h
  have h2 := h.2 _ rfl
  have hi : Intersects ((History.initial.step twoPorts).mapper.map twoPorts.space)
      twoPorts.base twoPorts.last :=
    ⟨Call.entry twoPorts, List.mem_cons_self, 0x20, by decide, by decide, by decide, by decide⟩
  have hr := congrArg Prod.snd (h2.1.rejects hi)
  exact absurd hr (by decide)

end OpenXbox.Common.MapRun
