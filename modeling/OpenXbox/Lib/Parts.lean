import OpenXbox.Lib.Run

/-!
# Parts of a system

Each step of a system gives one of its parts some inputs of that part, in order, and none when the
step is about other parts. Then a run of the system is a run of the part over all that it has been
given, and the part answers in the system as it does alone.
-/

namespace OpenXbox.Lib.Parts

open OpenXbox.Lib.Run

variable {σ τ ι κ α : Type*} {step : σ → ι → Option σ} {stepPart : τ → κ → Option τ}
  {part : σ → τ} {share : σ → ι → List κ}

theorem exec_append_some {t u v : τ} {ks js : List κ} (h : exec stepPart t ks = some u)
    (h' : exec stepPart u js = some v) : exec stepPart t (ks ++ js) = some v := by
  rw [exec_append, h, Option.bind_some, h']

theorem outputs_append {out : τ → κ → List α} {t u : τ} {ks : List κ} (js : List κ)
    (h : exec stepPart t ks = some u) :
    outputs stepPart out t (ks ++ js) = outputs stepPart out t ks ++ outputs stepPart out u js := by
  induction ks generalizing t with
  | nil =>
    obtain rfl : t = u := by simpa using h
    rfl
  | cons k ks ih =>
    obtain ⟨t', ht, hrest⟩ := Option.bind_eq_some_iff.mp h
    simp only [List.cons_append, outputs, ht, Option.elim_some, ih hrest, List.append_assoc]

theorem outputs_cons {out : σ → ι → List α} {s s' : σ} {i : ι} {is : List ι}
    (hs : step s i = some s') :
    outputs step out s (i :: is) = out s i ++ outputs step out s' is := by
  rw [outputs, hs, Option.elim_some]

theorem outputs_singleton (out : τ → κ → List α) (t : τ) (k : κ) :
    outputs stepPart out t [k] = out t k := by
  cases h : stepPart t k <;> simp [outputs, h]

/-- What does not depend on the states is given out input by input. -/
theorem outputs_const {f : ι → List κ} {s t : σ} {is : List ι} (ht : exec step s is = some t) :
    outputs step (fun _ i => f i) s is = is.flatMap f := by
  induction is generalizing s with
  | nil => rfl
  | cons i is ih =>
    obtain ⟨s', hs, hrest⟩ := Option.bind_eq_some_iff.mp ht
    rw [outputs_cons hs, ih hrest, List.flatMap_cons]

/-- A part need not be seen in the state of the system: it is enough that the two stay related. -/
theorem exec_simulates {R : τ → σ → Prop}
    (hshare : ∀ t s i s', R t s → step s i = some s' →
      ∃ t', exec stepPart t (share s i) = some t' ∧ R t' s')
    {s s' : σ} {t : τ} {is : List ι} (hr : R t s) (hs : exec step s is = some s') :
    ∃ t', exec stepPart t (outputs step share s is) = some t' ∧ R t' s' := by
  induction is generalizing s t with
  | nil =>
    obtain rfl : s = s' := by simpa using hs
    exact ⟨t, rfl, hr⟩
  | cons i is ih =>
    obtain ⟨s₁, hs₁, hrest⟩ := Option.bind_eq_some_iff.mp hs
    rcases hshare t s i s₁ hr hs₁ with ⟨t₁, ht₁, hr₁⟩
    rcases ih hr₁ hrest with ⟨t', ht', hr'⟩
    rw [outputs_cons hs₁]
    exact ⟨t', exec_append_some ht₁ ht', hr'⟩

/-- What the part makes of its inputs is the same step by step and in one run. -/
theorem exec_part {I : σ → Prop} (hkeep : ∀ s i s', I s → step s i = some s' → I s')
    (hshare : ∀ s i s', I s → step s i = some s' →
      exec stepPart (part s) (share s i) = some (part s'))
    {s t : σ} {is : List ι} (hi : I s) (ht : exec step s is = some t) :
    exec stepPart (part s) (outputs step share s is) = some (part t) := by
  have hsim : ∀ u s i s', (I s ∧ part s = u) → step s i = some s' →
      ∃ u', exec stepPart u (share s i) = some u' ∧ I s' ∧ part s' = u' := by
    rintro u s i s' ⟨hi, rfl⟩ hs
    exact ⟨part s', hshare s i s' hi hs, hkeep s i s' hi hs, rfl⟩
  rcases exec_simulates hsim ⟨hi, rfl⟩ ht with ⟨u, hu, -, rfl⟩
  exact hu

/-- What the part gives out in the system is what it gives out alone. -/
theorem outputs_part {I : σ → Prop} {out : τ → κ → List α} {answers : σ → ι → List α}
    (hkeep : ∀ s i s', I s → step s i = some s' → I s')
    (hshare : ∀ s i s', I s → step s i = some s' →
      exec stepPart (part s) (share s i) = some (part s'))
    (hanswer : ∀ s i s', I s → step s i = some s' →
      answers s i = outputs stepPart out (part s) (share s i))
    {s t : σ} {is : List ι} (hi : I s) (ht : exec step s is = some t) :
    outputs step answers s is = outputs stepPart out (part s) (outputs step share s is) := by
  induction is generalizing s with
  | nil => rfl
  | cons i is ih =>
    obtain ⟨s', hs, hrest⟩ := Option.bind_eq_some_iff.mp ht
    rw [outputs_cons hs, outputs_cons hs, outputs_append _ (hshare s i s' hi hs),
      ← hanswer s i s' hi hs, ih (hkeep s i s' hi hs) hrest]

/-! ## Shares that the input alone decides -/

section Shares

variable {f : ι → List κ} {s t : σ} {is : List ι}

theorem exec_share
    (hshare : ∀ s i s', step s i = some s' → exec stepPart (part s) (f i) = some (part s'))
    (ht : exec step s is = some t) :
    exec stepPart (part s) (is.flatMap f) = some (part t) := by
  rw [← outputs_const ht]
  exact exec_part (I := fun _ => True) (fun _ _ _ _ _ => trivial) (fun s i s' _ h => hshare s i s' h)
    trivial ht

theorem outputs_share {out : τ → κ → List α} {answers : σ → ι → List α}
    (hshare : ∀ s i s', step s i = some s' → exec stepPart (part s) (f i) = some (part s'))
    (hanswer : ∀ s i s', step s i = some s' → answers s i = outputs stepPart out (part s) (f i))
    (ht : exec step s is = some t) :
    outputs step answers s is = outputs stepPart out (part s) (is.flatMap f) := by
  rw [← outputs_const ht]
  exact outputs_part (I := fun _ => True) (fun _ _ _ _ _ => trivial) (fun s i s' _ h => hshare s i s' h)
    (fun s i s' _ h => hanswer s i s' h) trivial ht

end Shares

end OpenXbox.Lib.Parts
