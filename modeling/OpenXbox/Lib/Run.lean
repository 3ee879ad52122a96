import Mathlib.Data.List.Basic

/-!
# Runs of a partial deterministic machine

A machine is `step : σ → ι → Option σ`; `none` means that the step does not
return (a failed assertion, or a call that never comes back). A run is a list of
inputs, processed until the list ends or a step does not return. `Guarded` says
that every step taken meets a condition on its input and the state before it,
`Always` that every state visited has a property.
-/

namespace OpenXbox.Lib.Run

variable {σ ι : Type*} {step : σ → ι → Option σ}

/-- Every step of the run meets `P` in the state it is taken from. -/
def Guarded (step : σ → ι → Option σ) (P : σ → ι → Prop) : σ → List ι → Prop
  | _, [] => True
  | s, i :: is => P s i ∧ ∀ s', step s i = some s' → Guarded step P s' is

/-- Every state the run visits, the first one included, has `Q`. -/
def Always (step : σ → ι → Option σ) (Q : σ → Prop) : σ → List ι → Prop
  | s, [] => Q s
  | s, i :: is => Q s ∧ ∀ s', step s i = some s' → Always step Q s' is

/-- The state after the whole run, when every step returns. -/
def exec (step : σ → ι → Option σ) : σ → List ι → Option σ
  | s, [] => some s
  | s, i :: is => (step s i).bind fun s' => exec step s' is

section Decidable

variable (step)

/-- Both can be decided along the run. -/
def decideGuarded (P : σ → ι → Prop) [∀ s i, Decidable (P s i)] :
    ∀ (s : σ) (is : List ι), Decidable (Guarded step P s is)
  | _, [] => isTrue trivial
  | s, i :: is =>
    have (s' : σ) : Decidable (Guarded step P s' is) := decideGuarded P s' is
    inferInstanceAs (Decidable (P s i ∧ ∀ s', s' ∈ step s i → Guarded step P s' is))

def decideAlways (Q : σ → Prop) [∀ s, Decidable (Q s)] :
    ∀ (s : σ) (is : List ι), Decidable (Always step Q s is)
  | s, [] => inferInstanceAs (Decidable (Q s))
  | s, i :: is =>
    have (s' : σ) : Decidable (Always step Q s' is) := decideAlways Q s' is
    inferInstanceAs (Decidable (Q s ∧ ∀ s', s' ∈ step s i → Always step Q s' is))

end Decidable

instance (P : σ → ι → Prop) [∀ s i, Decidable (P s i)] (s : σ) (is : List ι) :
    Decidable (Guarded step P s is) := decideGuarded step P s is

instance (Q : σ → Prop) [∀ s, Decidable (Q s)] (s : σ) (is : List ι) :
    Decidable (Always step Q s is) := decideAlways step Q s is

@[simp] theorem guarded_nil (P : σ → ι → Prop) (s : σ) : Guarded step P s [] := trivial

@[simp] theorem exec_nil (s : σ) : exec step s [] = some s := rfl

theorem exec_cons (s : σ) (i : ι) (is : List ι) :
    exec step s (i :: is) = (step s i).bind fun s' => exec step s' is := rfl

theorem exec_append (s : σ) (is js : List ι) :
    exec step s (is ++ js) = (exec step s is).bind fun s' => exec step s' js := by
  induction is generalizing s with
  | nil => rfl
  | cons i is ih =>
    simp only [List.cons_append, exec_cons, Option.bind_assoc]
    exact Option.bind_congr fun s' _ => ih s'

/-- A run is guarded exactly when each of its steps is. -/
theorem guarded_iff_exec {P : σ → ι → Prop} {s : σ} {is : List ι} :
    Guarded step P s is ↔
      ∀ pre i post, is = pre ++ i :: post → ∀ t, exec step s pre = some t → P t i := by
  induction is generalizing s with
  | nil => simp
  | cons i is ih =>
    constructor
    · rintro ⟨hp, hg⟩ pre j post he t ht
      cases pre with
      | nil =>
        obtain ⟨rfl, rfl⟩ : i = j ∧ is = post := by simpa using he
        obtain rfl : s = t := by simpa using ht
        exact hp
      | cons k pre =>
        obtain ⟨rfl, rfl⟩ : i = k ∧ is = pre ++ j :: post := by simpa using he
        obtain ⟨s', hs, hr⟩ := Option.bind_eq_some_iff.mp ht
        exact ih.mp (hg s' hs) pre j post rfl t hr
    · intro h
      refine ⟨h [] i is rfl s rfl, fun s' hs => ih.mpr ?_⟩
      rintro pre j post rfl t ht
      exact h (i :: pre) j post rfl t (by rw [exec_cons, hs]; exact ht)

theorem guarded_append {P : σ → ι → Prop} {s : σ} {is js : List ι} :
    Guarded step P s (is ++ js) ↔
      Guarded step P s is ∧ ∀ t, exec step s is = some t → Guarded step P t js := by
  induction is generalizing s with
  | nil => simp
  | cons i is ih =>
    rw [List.cons_append, Guarded, Guarded, and_assoc]
    refine and_congr_right fun _ => ?_
    constructor
    · intro h
      refine ⟨fun s' hs => (ih.mp (h s' hs)).1, fun t ht => ?_⟩
      obtain ⟨s', hs, hr⟩ := Option.bind_eq_some_iff.mp ht
      exact (ih.mp (h s' hs)).2 t hr
    · rintro ⟨hg, ht⟩ s' hs
      refine ih.mpr ⟨hg s' hs, fun t hr => ht t ?_⟩
      rw [exec_cons, hs]
      exact hr

theorem Guarded.mono {P Q : σ → ι → Prop} (h : ∀ s i, P s i → Q s i) {s : σ} {is : List ι}
    (hg : Guarded step P s is) : Guarded step Q s is := by
  induction is generalizing s with
  | nil => trivial
  | cons i is ih => exact ⟨h s i hg.1, fun s' hs => ih (hg.2 s' hs)⟩

/-- A condition that invariant states meet guards every run from one of them. -/
theorem guarded_of_invariant {P : σ → ι → Prop} {I : σ → Prop} (hmeets : ∀ s i, I s → P s i)
    (hstep : ∀ s i s', I s → step s i = some s' → I s')
    {s : σ} (hi : I s) (is : List ι) : Guarded step P s is := by
  induction is generalizing s with
  | nil => trivial
  | cons i is ih => exact ⟨hmeets s i hi, fun s' hs => ih (hstep s i s' hi hs)⟩

/-- An invariant that guarded steps keep holds in every state of a guarded run. -/
theorem always_of_guarded {P : σ → ι → Prop} {I : σ → Prop}
    (hstep : ∀ s i s', I s → P s i → step s i = some s' → I s')
    {s : σ} {is : List ι} (hi : I s) (hg : Guarded step P s is) : Always step I s is := by
  induction is generalizing s with
  | nil => exact hi
  | cons i is ih => exact ⟨hi, fun s' hs => ih (hstep s i s' hi hg.1 hs) (hg.2 s' hs)⟩

theorem Always.head {Q : σ → Prop} {s : σ} {is : List ι} (h : Always step Q s is) : Q s := by
  cases is with
  | nil => exact h
  | cons i is => exact h.1

theorem Always.mono {Q R : σ → Prop} (h : ∀ s, Q s → R s) {s : σ} {is : List ι}
    (ha : Always step Q s is) : Always step R s is := by
  induction is generalizing s with
  | nil => exact h s ha
  | cons i is ih => exact ⟨h s ha.1, fun s' hs => ih (ha.2 s' hs)⟩

theorem Always.exec {Q : σ → Prop} {s t : σ} {is : List ι} (h : Always step Q s is)
    (ht : exec step s is = some t) : Q t := by
  induction is generalizing s with
  | nil =>
    obtain rfl : s = t := by simpa using ht
    exact h
  | cons i is ih =>
    obtain ⟨s', hs, hr⟩ := Option.bind_eq_some_iff.mp ht
    exact ih (h.2 s' hs) hr

/-- Where `E` holds throughout, so does an invariant that steps keep where `E` holds; and the
steps meet what they meet there. -/
theorem Always.invariant {E I : σ → Prop} {P : σ → ι → Prop}
    (hstep : ∀ s i s', E s → I s → step s i = some s' → I s') (hmeets : ∀ s i, E s → I s → P s i)
    {s : σ} {is : List ι} (hi : I s) (h : Always step E s is) :
    Always step I s is ∧ Guarded step P s is := by
  induction is generalizing s with
  | nil => exact ⟨hi, trivial⟩
  | cons i is ih =>
    have hnext (s' : σ) (hs : step s i = some s') := ih (hstep s i s' h.1 hi hs) (h.2 s' hs)
    exact ⟨⟨hi, fun s' hs => (hnext s' hs).1⟩, hmeets s i h.1 hi, fun s' hs => (hnext s' hs).2⟩

/-- When the steps that keep an invariant are those that meet `P`, the runs that keep it are
those whose steps do. What all steps keep may be used to tell them. -/
theorem always_iff_guarded_of {P : σ → ι → Prop} {I J : σ → Prop}
    (hkeep : ∀ s i s', J s → step s i = some s' → J s')
    (hiff : ∀ s i, J s → I s → ((∀ s', step s i = some s' → I s') ↔ P s i))
    {s : σ} {is : List ι} (hj : J s) (hi : I s) : Always step I s is ↔ Guarded step P s is := by
  induction is generalizing s with
  | nil => exact iff_of_true hi trivial
  | cons i is ih =>
    constructor
    · intro h
      have hstep : ∀ s', step s i = some s' → I s' := fun s' hs => (h.2 s' hs).head
      exact ⟨(hiff s i hj hi).mp hstep,
        fun s' hs => (ih (hkeep s i s' hj hs) (hstep s' hs)).mp (h.2 s' hs)⟩
    · intro h
      have hstep := (hiff s i hj hi).mpr h.1
      exact ⟨hi, fun s' hs => (ih (hkeep s i s' hj hs) (hstep s' hs)).mpr (h.2 s' hs)⟩

theorem always_iff_guarded {P : σ → ι → Prop} {I : σ → Prop}
    (hiff : ∀ s i, I s → ((∀ s', step s i = some s' → I s') ↔ P s i))
    {s : σ} {is : List ι} (hi : I s) : Always step I s is ↔ Guarded step P s is :=
  always_iff_guarded_of (J := fun _ => True) (fun _ _ _ _ _ => trivial) (fun s i _ => hiff s i)
    trivial hi

/-- An invariant that every step keeps holds in the state a run ends in. -/
theorem exec_invariant {I : σ → Prop} (hstep : ∀ s i s', I s → step s i = some s' → I s')
    {s t : σ} {is : List ι} (hi : I s) (ht : exec step s is = some t) : I t := by
  induction is generalizing s with
  | nil =>
    obtain rfl : s = t := by simpa using ht
    exact hi
  | cons i is ih =>
    obtain ⟨s', hs, hr⟩ := Option.bind_eq_some_iff.mp ht
    exact ih (hstep s i s' hi hs) hr

/-- What the inputs that meet `p` add at most `c` to, and the others nothing. -/
theorem exec_le_countP {I : σ → Prop} {f : σ → Nat} {p : ι → Bool} {c : Nat}
    (hkeep : ∀ s i s', I s → step s i = some s' → I s')
    (hstep : ∀ s i s', I s → step s i = some s' → f s' ≤ f s + if p i then c else 0)
    {s t : σ} {is : List ι} (hi : I s) (ht : exec step s is = some t) :
    f t ≤ f s + is.countP p * c := by
  induction is generalizing s with
  | nil =>
    obtain rfl : s = t := by simpa using ht
    exact Nat.le_add_right _ _
  | cons i is ih =>
    obtain ⟨s', hs, hr⟩ := Option.bind_eq_some_iff.mp ht
    have hrest := ih (hkeep s i s' hi hs) hr
    have hone := hstep s i s' hi hs
    rw [List.countP_cons]
    split at hone
    · next hp => rw [if_pos hp, Nat.add_mul, Nat.one_mul]; omega
    · next hp => rw [if_neg hp, Nat.add_zero]; omega

/-- What every input adds something to at the end of. -/
theorem exec_append_flatMap {α : Type*} {f : σ → List α} {g : ι → List α}
    (hstep : ∀ s i s', step s i = some s' → f s' = f s ++ g i)
    {s t : σ} {is : List ι} (ht : exec step s is = some t) : f t = f s ++ is.flatMap g := by
  induction is generalizing s with
  | nil =>
    obtain rfl : s = t := by simpa using ht
    exact (List.append_nil _).symm
  | cons i is ih =>
    obtain ⟨s', hs, hr⟩ := Option.bind_eq_some_iff.mp ht
    rw [ih hr, hstep s i s' hs, List.flatMap_cons, List.append_assoc]

/-- Two step conditions that agree on invariant states guard the same runs, when
the invariant survives the steps that meet them. -/
theorem guarded_congr {P G : σ → ι → Prop} {I : σ → Prop}
    (hiff : ∀ s i, I s → (G s i ↔ P s i))
    (hstep : ∀ s i s', I s → P s i → step s i = some s' → I s')
    {s : σ} {is : List ι} (hi : I s) : Guarded step G s is ↔ Guarded step P s is := by
  induction is generalizing s with
  | nil => exact Iff.rfl
  | cons i is ih =>
    simp only [Guarded, hiff s i hi]
    refine and_congr_right fun hp => forall_congr' fun s' => imp_congr_right fun hs => ?_
    exact ih (hstep s i s' hi hp hs)

/-- Inputs that leave the state as it is can be taken out of a run. -/
theorem exec_filterMap {κ : Type*} {stepK : σ → κ → Option σ} {f : κ → Option ι} {P : σ → κ → Prop}
    (hkept : ∀ s k i s', f k = some i → stepK s k = some s' → step s i = some s')
    (hout : ∀ s k s', f k = none → P s k → stepK s k = some s' → s' = s)
    {s t : σ} {ks : List κ} (hg : Guarded stepK P s ks) (h : exec stepK s ks = some t) :
    exec step s (ks.filterMap f) = some t := by
  induction ks generalizing s with
  | nil => exact h
  | cons k ks ih =>
    rw [exec_cons, Option.bind_eq_some_iff] at h
    obtain ⟨s', hs', ht⟩ := h
    have hrest := ih (hg.2 s' hs') ht
    cases hf : f k with
    | none =>
      rw [List.filterMap_cons_none hf, ← hout s k s' hf hg.1 hs']
      exact hrest
    | some i =>
      rw [List.filterMap_cons_some hf, exec_cons, hkept s k i s' hf hs']
      exact hrest

/-- What is computed from the inputs step by step goes along with the states of a run. -/
theorem exec_foldl {β : Type*} {R : σ → β → Prop} {g : β → ι → β}
    (hstep : ∀ s i s' b, R s b → step s i = some s' → R s' (g b i))
    {s t : σ} {is : List ι} {b : β} (hr : R s b) (ht : exec step s is = some t) :
    R t (is.foldl g b) := by
  induction is generalizing s b with
  | nil =>
    obtain rfl : s = t := by simpa using ht
    exact hr
  | cons i is ih =>
    obtain ⟨s', hs, htail⟩ := Option.bind_eq_some_iff.mp ht
    exact ih (hstep s i s' b hr hs) htail

/-- What the steps of a run give out, in order. -/
def outputs {α : Type*} (step : σ → ι → Option σ) (out : σ → ι → List α) : σ → List ι → List α
  | _, [] => []
  | s, i :: is => out s i ++ (step s i).elim [] fun s' => outputs step out s' is

/-- When each step keeps the order of what goes in before what comes out, so does a run. -/
theorem exec_conserves {α : Type*} {queue : σ → List α} {inn out : σ → ι → List α}
    (hstep : ∀ s i s', step s i = some s' → queue s ++ inn s i = out s i ++ queue s')
    {s t : σ} {is : List ι} (ht : exec step s is = some t) :
    queue s ++ outputs step inn s is = outputs step out s is ++ queue t := by
  induction is generalizing s with
  | nil =>
    obtain rfl : s = t := by simpa using ht
    simp [outputs]
  | cons i is ih =>
    obtain ⟨s', hs, hr⟩ := Option.bind_eq_some_iff.mp ht
    have hone := hstep s i s' hs
    have hrest := ih hr
    simp only [outputs, hs, Option.elim_some]
    rw [← List.append_assoc, hone, List.append_assoc, hrest, List.append_assoc]

end OpenXbox.Lib.Run
