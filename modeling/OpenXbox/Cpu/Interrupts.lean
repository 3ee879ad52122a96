import OpenXbox.Lib.Run
import Mathlib.Data.BitVec

/-!
# Pending interrupts of the CPU

`Interrupt` puts a vector in a queue, and each `Run` or `Step` takes at most one vector
out of it. Interrupts come at any time, also while the queue is being looked at: the call
of `HandleInterruptQueue` is cut wherever it reads the queue. The credits belong to the
thread that runs the CPU.
-/

namespace OpenXbox.Cpu.Interrupts

open OpenXbox.Lib.Run

abbrev Vector := BitVec 8

/-- The constants differ with `_DEBUG`. -/
inductive Build where
  | debug
  | release

def kInterruptHandlerMaxCredits : Build → BitVec 8
  | .debug => 25
  | .release => 200

def kInterruptHandlerCost : Build → BitVec 8
  | .debug => 5
  | .release => 2

def kInterruptHandlerIncrement : Build → BitVec 8
  | .debug => 1
  | .release => 1

/-- How far the call of `HandleInterruptQueue` has come. -/
inductive Phase where
  /-- Not in the call. -/
  | idle
  /-- Before the test whether there are pending interrupts. -/
  | pending
  /-- Before the question whether the VCPU can take one. -/
  | ready
  /-- Before the call of `InjectPendingInterrupt`. -/
  | inject
  deriving DecidableEq

/-- What is asked of the VCPU. -/
inductive Event where
  | injectInterrupt (vector : Vector)
  | requestInterruptWindow

structure Pending where
  pendingInterrupts : List Vector
  interruptHandlerCredits : BitVec 8
  phase : Phase
  events : List Event

/-- The state that `Initialize` leaves. -/
def initialized (build : Build) : Pending :=
  ⟨[], kInterruptHandlerMaxCredits build, .idle, []⟩

/-- A call of `Interrupt`, a call of `Run` or `Step`, or the next part of that call with
the answer of the VCPU. -/
inductive Input where
  | interrupt (vector : Vector)
  | run
  | step
  | advance (canInjectInterrupt : Bool)

def Pending.emit (s : Pending) (e : Event) : Pending := { s with events := s.events ++ [e] }

/-- The credits recovered when `HandleInterruptQueue` is called. -/
def recover (build : Build) (s : Pending) : Pending :=
  if s.interruptHandlerCredits < kInterruptHandlerMaxCredits build then
    { s with
      interruptHandlerCredits := s.interruptHandlerCredits + kInterruptHandlerIncrement build }
  else s

def injectPendingInterrupt (build : Build) (s : Pending) : Pending :=
  match s.pendingInterrupts with
  | [] => s
  | vector :: rest =>
    if s.interruptHandlerCredits < kInterruptHandlerCost build then s
    else
      { s with
        interruptHandlerCredits := s.interruptHandlerCredits - kInterruptHandlerCost build
        pendingInterrupts := rest }.emit (.injectInterrupt vector)

/-- The next part of `HandleInterruptQueue`. -/
def handleInterruptQueue (build : Build) (canInjectInterrupt : Bool) (s : Pending) : Option Pending :=
  match s.phase with
  | .idle => none
  | .pending => some { s with phase := if s.pendingInterrupts.length > 0 then .ready else .idle }
  | .ready =>
    if canInjectInterrupt then some { s with phase := .inject }
    else some { s.emit .requestInterruptWindow with phase := .idle }
  | .inject => some { injectPendingInterrupt build s with phase := .idle }

/-- One thread runs the CPU: it makes no call during another one. -/
def step (build : Build) (s : Pending) (i : Input) : Option Pending :=
  match i with
  | .interrupt vector => some { s with pendingInterrupts := s.pendingInterrupts ++ [vector] }
  | .run | .step => if s.phase = .idle then some { recover build s with phase := .pending } else none
  | .advance canInjectInterrupt => handleInterruptQueue build canInjectInterrupt s

/-! ## What a run does -/

def injectedVector : Event → Option Vector
  | .injectInterrupt vector => some vector
  | .requestInterruptWindow => none

/-- The vectors handed to `InjectInterrupt`. -/
def Pending.injected (s : Pending) : List Vector := s.events.filterMap injectedVector

/-- The vectors that an input enqueues. -/
def Input.enqueued : Input → List Vector
  | .interrupt vector => [vector]
  | _ => []

/-- A call of `Run` or `Step`. -/
def Input.isCall : Input → Bool
  | .run | .step => true
  | _ => false

/-- The calls of `HandleInterruptQueue` that are not over: none or one. -/
def Pending.calls (s : Pending) : Nat := if s.phase = .idle then 0 else 1

/-- What an input adds to the credits. -/
def gain (build : Build) (s : Pending) (i : Input) : Nat :=
  if i.isCall ∧ s.interruptHandlerCredits < kInterruptHandlerMaxCredits build then
    (kInterruptHandlerIncrement build).toNat
  else 0

/-- The credits before and after, as numbers: the byte does not wrap. -/
def Accounted (build : Build) (s : Pending) (i : Input) : Prop :=
  ∀ t, step build s i = some t →
    t.interruptHandlerCredits.toNat + t.injected.length * (kInterruptHandlerCost build).toNat =
      s.interruptHandlerCredits.toNat + gain build s i +
        s.injected.length * (kInterruptHandlerCost build).toNat

/-! ## Steps -/

section Steps

variable {build : Build} {s t : Pending}

theorem injected_emit (s : Pending) (e : Event) :
    (s.emit e).injected = s.injected ++ (injectedVector e).toList := by
  rw [Pending.injected, Pending.emit, List.filterMap_append]
  cases e <;> rfl

/-- `InjectPendingInterrupt` takes the first vector and pays for it, or does nothing. -/
theorem injectPendingInterrupt_cases (build : Build) (s : Pending) :
    injectPendingInterrupt build s = s ∨
      ∃ vector rest, s.pendingInterrupts = vector :: rest ∧
        (kInterruptHandlerCost build).toNat ≤ s.interruptHandlerCredits.toNat ∧
        injectPendingInterrupt build s =
          { s with
            interruptHandlerCredits := s.interruptHandlerCredits - kInterruptHandlerCost build
            pendingInterrupts := rest }.emit (.injectInterrupt vector) := by
  rw [injectPendingInterrupt]
  cases hp : s.pendingInterrupts with
  | nil => exact .inl rfl
  | cons vector rest =>
    dsimp only
    split
    · exact .inl rfl
    · next hcost => exact .inr ⟨vector, rest, rfl, BitVec.not_lt.mp hcost, rfl⟩

/-- What a step can do to the queue, the credits and what has been injected. -/
theorem step_cases {i : Input} (h : step build s i = some t) :
    (∃ vector, i = .interrupt vector ∧
      t = { s with pendingInterrupts := s.pendingInterrupts ++ [vector] }) ∨
    (i.isCall = true ∧ i.enqueued = [] ∧ s.phase = .idle ∧
      t = { recover build s with phase := .pending }) ∨
    (i.isCall = false ∧ i.enqueued = [] ∧ s.phase ≠ .idle ∧
      t.pendingInterrupts = s.pendingInterrupts ∧
      t.interruptHandlerCredits = s.interruptHandlerCredits ∧ t.injected = s.injected) ∨
    (i.isCall = false ∧ i.enqueued = [] ∧ s.phase = .inject ∧ t.phase = .idle ∧
      ∃ vector, s.pendingInterrupts = vector :: t.pendingInterrupts ∧
        (kInterruptHandlerCost build).toNat ≤ s.interruptHandlerCredits.toNat ∧
        t.interruptHandlerCredits = s.interruptHandlerCredits - kInterruptHandlerCost build ∧
        t.injected = s.injected ++ [vector]) := by
  have hcall (hi : step build s i = if s.phase = .idle then
      some { recover build s with phase := .pending } else none) : s.phase = .idle ∧
      t = { recover build s with phase := .pending } := by
    rw [hi] at h
    split at h
    · next hidle => exact ⟨hidle, (Option.some.inj h).symm⟩
    · cases h
  cases i with
  | interrupt vector => exact .inl ⟨vector, rfl, (Option.some.inj h).symm⟩
  | run => exact .inr (.inl ⟨rfl, rfl, hcall rfl⟩)
  | step => exact .inr (.inl ⟨rfl, rfl, hcall rfl⟩)
  | advance can =>
    refine .inr (.inr ?_)
    rw [step, handleInterruptQueue] at h
    cases hp : s.phase with
    | idle => simp [hp] at h
    | pending =>
      simp only [hp, Option.some.injEq] at h
      subst h
      exact .inl ⟨rfl, rfl, by simp, rfl, rfl, rfl⟩
    | ready =>
      refine .inl ⟨rfl, rfl, by simp, ?_⟩
      simp only [hp] at h
      split at h
      · obtain rfl := Option.some.inj h
        exact ⟨rfl, rfl, rfl⟩
      · obtain rfl := Option.some.inj h
        exact ⟨rfl, rfl, (injected_emit s .requestInterruptWindow).trans (List.append_nil _)⟩
    | inject =>
      simp only [hp, Option.some.injEq] at h
      subst h
      rcases injectPendingInterrupt_cases build s with hnone | ⟨vector, rest, hq, hcost, htake⟩
      · rw [hnone]
        exact .inl ⟨rfl, rfl, by simp, rfl, rfl, rfl⟩
      · refine .inr ⟨rfl, rfl, rfl, rfl, vector, ?_, hcost, ?_, ?_⟩
        · rw [htake, hq]
          rfl
        · rw [htake]
          rfl
        · rw [htake]
          exact injected_emit _ _

/-- The credits never leave the range that they start in. -/
def Limited (build : Build) (s : Pending) : Prop :=
  s.interruptHandlerCredits.toNat ≤ (kInterruptHandlerMaxCredits build).toNat

theorem max_add_increment_lt (build : Build) :
    (kInterruptHandlerMaxCredits build).toNat + (kInterruptHandlerIncrement build).toNat < 2 ^ 8 := by
  cases build <;> decide

theorem increment_eq_one (build : Build) : (kInterruptHandlerIncrement build).toNat = 1 := by
  cases build <;> rfl

/-- Below the maximum there is room for the increment. -/
theorem recover_credits (hs : Limited build s) {i : Input} (hi : i.isCall = true) :
    (recover build s).interruptHandlerCredits.toNat =
        s.interruptHandlerCredits.toNat + gain build s i ∧
      Limited build (recover build s) := by
  have hroom := max_add_increment_lt build
  have hone := increment_eq_one build
  by_cases hlt : s.interruptHandlerCredits < kInterruptHandlerMaxCredits build
  · have hlt' := BitVec.lt_def.mp hlt
    have hadd : (s.interruptHandlerCredits + kInterruptHandlerIncrement build).toNat =
        s.interruptHandlerCredits.toNat + (kInterruptHandlerIncrement build).toNat := by
      rw [BitVec.toNat_add, Nat.mod_eq_of_lt (by omega)]
    rw [recover, if_pos hlt, gain, if_pos ⟨hi, hlt⟩, Limited]
    exact ⟨hadd, by dsimp only; omega⟩
  · rw [recover, if_neg hlt, gain, if_neg fun h => hlt h.2]
    exact ⟨rfl, hs⟩

theorem recover_injected (build : Build) (s : Pending) :
    (recover build s).injected = s.injected ∧
      (recover build s).pendingInterrupts = s.pendingInterrupts := by
  rw [recover]
  split
  · exact ⟨rfl, rfl⟩
  · exact ⟨rfl, rfl⟩

/-- A step counts the credits exactly, and stays within the maximum. -/
theorem step_credits {i : Input} (hs : Limited build s) (h : step build s i = some t) :
    t.interruptHandlerCredits.toNat + t.injected.length * (kInterruptHandlerCost build).toNat =
        s.interruptHandlerCredits.toNat + gain build s i +
          s.injected.length * (kInterruptHandlerCost build).toNat ∧
      Limited build t := by
  rcases step_cases h with ⟨vector, rfl, rfl⟩ | ⟨hcall, -, -, rfl⟩ | ⟨hcall, -, -, -, hcred, hinj⟩ |
    ⟨hcall, -, -, -, vector, -, hcost, hcred, hinj⟩
  · exact ⟨rfl, hs⟩
  · obtain ⟨hcred, hlimit⟩ := recover_credits hs hcall
    have hinj := (recover_injected build s).1
    refine ⟨?_, hlimit⟩
    rw [Pending.injected] at hinj ⊢
    dsimp only
    rw [hcred, hinj]
  · rw [Limited, hcred, hinj, gain, if_neg (by simp [hcall])]
    exact ⟨rfl, hs⟩
  · have hsub : (s.interruptHandlerCredits - kInterruptHandlerCost build).toNat =
        s.interruptHandlerCredits.toNat - (kInterruptHandlerCost build).toNat :=
      BitVec.toNat_sub_of_le hcost
    rw [Limited] at hs
    rw [Limited, hcred, hinj, hsub, gain, if_neg (by simp [hcall]), List.length_append,
      List.length_singleton, Nat.add_mul, Nat.one_mul]
    omega

/-- What has been injected and what is pending, in the order of arrival. -/
theorem step_queue {i : Input} (h : step build s i = some t) :
    t.injected ++ t.pendingInterrupts = s.injected ++ s.pendingInterrupts ++ i.enqueued := by
  rcases step_cases h with ⟨vector, rfl, rfl⟩ | ⟨-, hnone, -, rfl⟩ | ⟨-, hnone, -, hpend, -, hinj⟩ |
    ⟨-, hnone, -, -, vector, hpend, -, -, hinj⟩
  · rw [List.append_assoc]
    rfl
  · obtain ⟨hinj, hpend⟩ := recover_injected build s
    rw [hnone, List.append_nil]
    exact congrArg₂ (· ++ ·) hinj hpend
  · rw [hnone, hpend, hinj, List.append_nil]
  · rw [hnone, hinj, hpend, List.append_nil, List.append_assoc]
    rfl

/-- An injection ends the call that makes it. -/
theorem step_injections {i : Input} (h : step build s i = some t) :
    t.injected.length + t.calls ≤ s.injected.length + s.calls + if i.isCall then 1 else 0 := by
  have hcalls (u : Pending) : u.calls ≤ 1 := by
    rw [Pending.calls]
    split <;> decide
  rcases step_cases h with ⟨vector, rfl, rfl⟩ | ⟨hcall, -, hidle, rfl⟩ |
    ⟨hcall, -, hbusy, -, -, hinj⟩ | ⟨hcall, -, hphase, hidle, vector, -, -, -, hinj⟩
  · exact le_rfl
  · have hzero : s.calls = 0 := if_pos hidle
    have hinj : Pending.injected { recover build s with phase := .pending } = s.injected :=
      (recover_injected build s).1
    rw [hinj, hzero, hcall, if_pos rfl]
    exact Nat.add_le_add_left (hcalls _) _
  · have hone : s.calls = 1 := if_neg hbusy
    rw [hinj, hone, hcall]
    exact Nat.add_le_add_left (hcalls t) _
  · have hone : s.calls = 1 := if_neg (by rw [hphase]; decide)
    have hzero : t.calls = 0 := if_pos hidle
    rw [hinj, hone, hzero, List.length_append, List.length_singleton, hcall]
    exact le_rfl

end Steps

/-! ## Runs -/

/-- The vectors that a run enqueues. -/
def enqueued (is : List Input) : List Vector := is.flatMap Input.enqueued

/-- The number of calls of `Run` and `Step`. -/
def calls (is : List Input) : Nat := is.countP Input.isCall

theorem limited_initialized (build : Build) : Limited build (initialized build) := le_rfl

section Runs

variable {build : Build} {s t : Pending} {is : List Input}

theorem limited_exec (hs : Limited build s) (ht : exec (step build) s is = some t) :
    Limited build t :=
  exec_invariant (fun _ _ _ hu hstep => (step_credits hu hstep).2) hs ht

theorem injected_prefix (ht : exec (step build) s is = some t) : s.injected <+: t.injected := by
  refine exec_invariant (I := fun u => s.injected <+: u.injected) (fun u i v hu hstep => ?_)
    (List.prefix_refl _) ht
  refine hu.trans ?_
  rcases step_cases hstep with ⟨vector, rfl, rfl⟩ | ⟨-, -, -, rfl⟩ | ⟨-, -, -, -, -, hinj⟩ |
    ⟨-, -, -, -, vector, -, -, -, hinj⟩
  · exact List.prefix_refl _
  · exact (recover_injected build u).1 ▸ List.prefix_refl _
  · exact hinj ▸ List.prefix_refl _
  · exact hinj ▸ List.prefix_append _ _

/-- The credits of a stretch of a run pay for its injections. -/
theorem credits_exec (hs : Limited build s) (ht : exec (step build) s is = some t) :
    t.interruptHandlerCredits.toNat + t.injected.length * (kInterruptHandlerCost build).toNat ≤
      s.interruptHandlerCredits.toNat + s.injected.length * (kInterruptHandlerCost build).toNat +
        calls is * (kInterruptHandlerIncrement build).toNat := by
  refine exec_le_countP (I := Limited build)
    (f := fun u => u.interruptHandlerCredits.toNat +
      u.injected.length * (kInterruptHandlerCost build).toNat)
    (fun u i v hu hstep => (step_credits hu hstep).2) (fun u i v hu hstep => ?_) hs ht
  have hgain : gain build u i ≤
      if i.isCall then (kInterruptHandlerIncrement build).toNat else 0 := by
    rw [gain]
    split
    · next hcall => rw [if_pos hcall.1]
    · exact Nat.zero_le _
  have hcount := (step_credits hu hstep).1
  omega

/-- At most one injection for each call. -/
theorem injections_exec (ht : exec (step build) s is = some t) :
    t.injected.length + t.calls ≤ s.injected.length + s.calls + calls is := by
  have h := exec_le_countP (I := fun _ => True) (f := fun u => u.injected.length + u.calls)
    (p := Input.isCall) (c := 1) (fun _ _ _ _ _ => trivial)
    (fun u i v _ hstep => step_injections hstep) trivial ht
  rw [Nat.mul_one] at h
  exact h

end Runs

/-- In every state that a run from the initial one visits, and for every stretch of the run
that starts there: the injected and the pending vectors are those enqueued, in order; the
credits are counted without a wrap and stay within their maximum; there is at most one
injection for each call, and the credits pay for all of them. -/
theorem injected_in_order (build : Build) (before is : List Input) {s t : Pending}
    (hs : exec (step build) (initialized build) before = some s)
    (ht : exec (step build) s is = some t) :
    s.injected ++ s.pendingInterrupts = enqueued before ∧
      Limited build s ∧ Guarded (step build) (Accounted build) s is ∧
      ∃ injected, t.injected = s.injected ++ injected ∧
        injected.length ≤ s.calls + calls is ∧
        injected.length * (kInterruptHandlerCost build).toNat ≤
          s.interruptHandlerCredits.toNat + calls is * (kInterruptHandlerIncrement build).toNat := by
  have hlimit := limited_exec (limited_initialized build) hs
  refine ⟨exec_append_flatMap (f := fun u => u.injected ++ u.pendingInterrupts)
    (fun u i v hstep => step_queue hstep) hs, hlimit, ?_, ?_⟩
  · exact guarded_of_invariant (I := Limited build)
      (fun u i hu v hstep => (step_credits hu hstep).1)
      (fun u i v hu hstep => (step_credits hu hstep).2) hlimit is
  · obtain ⟨new, hnew⟩ := injected_prefix ht
    have hcredits := credits_exec hlimit ht
    have hcalls := injections_exec ht
    rw [← hnew, List.length_append, Nat.add_mul] at hcredits
    rw [← hnew, List.length_append] at hcalls
    exact ⟨new, hnew.symm, by omega, by omega⟩

/-- Two interrupts and one call: the first vector is injected. -/
theorem first_of_two_injected : ∃ s t,
    exec (step .debug) (initialized .debug) [.interrupt 0x30, .interrupt 0x31] = some s ∧
      exec (step .debug) s [.run, .advance true, .advance true, .advance true] = some t ∧
      t.injected = [0x30] ∧
      ∃ injected, t.injected = s.injected ++ injected ∧
        injected.length * 5 ≤ s.interruptHandlerCredits.toNat + 1 * 1 :=
  ⟨_, _, rfl, rfl, rfl,
    (injected_in_order .debug [.interrupt 0x30, .interrupt 0x31]
      [.run, .advance true, .advance true, .advance true] rfl rfl).2.2.2.imp
      fun _ h => ⟨h.1, h.2.2⟩⟩

end OpenXbox.Cpu.Interrupts
