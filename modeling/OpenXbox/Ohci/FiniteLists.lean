import OpenXbox.Ohci.ListWalk

/-!
# Finite lists

When the walk comes to an end, told from memory as it lies before the walk: all descriptors are
mapped, none is read after a store to its bytes or to its page table entries, no queue runs into
a null pointer before its TailP, and the data of every OUT descriptor can be sent in packets of
the endpoint's size. What a descriptor that ends its queue links to does not matter.
-/

namespace OpenXbox.Ohci.FiniteLists

open OpenXbox.Lib.Loop OpenXbox.Ohci.Memory OpenXbox.Ohci.Service OpenXbox.Ohci.Layout
  OpenXbox.Ohci.Progress OpenXbox.Ohci.ListWalk

/-! ## Memory after stores -/

/-- Memory has changed in the places `ps` only. -/
structure Agrees (ps : List Nat) (mem mem' : GuestMemory) : Prop where
  paging : mem'.paging = mem.paging
  map : mem'.map = mem.map
  host : ∀ x, x ∉ ps → mem'.host x = mem.host x

/-- A variable is read as it lies in memory once the places `ps` have been written to. -/
structure Readable (mem : GuestMemory) (ps : List Nat) (addr : Word) (n : Nat) : Prop where
  mapped : mapped mem addr n = true
  bytes : ∀ x ∈ places mem addr n, x ∉ ps
  table : ∀ x ∈ entries mem addr n, x ∉ ps

/-- A store then goes where it would have gone before. -/
structure Storable (mem : GuestMemory) (ps : List Nat) (addr : Word) (n : Nat) : Prop where
  keeps : Keeps mem addr n
  table : ∀ x ∈ entries mem addr n, x ∉ ps

section Memory

variable {ps qs : List Nat} {mem mem' mem'' : GuestMemory} {addr : Word} {n : Nat}

theorem Agrees.refl (mem : GuestMemory) : Agrees [] mem mem := ⟨rfl, rfl, fun _ _ => rfl⟩

theorem Agrees.mono (h : Agrees ps mem mem') (hsub : ps ⊆ qs) : Agrees qs mem mem' :=
  ⟨h.paging, h.map, fun x hx => h.host x fun hin => hx (hsub hin)⟩

theorem Storable.mono (h : Storable mem qs addr n) (hsub : ps ⊆ qs) : Storable mem ps addr n :=
  ⟨h.keeps, fun x hx hin => h.table x hx (hsub hin)⟩

theorem Readable.storable (h : Readable mem ps addr n) (hkeeps : Keeps mem addr n) :
    Storable mem ps addr n := ⟨hkeeps, h.table⟩

/-- A store can be repeated. -/
theorem Storable.again (h : Storable mem ps addr n) : Storable mem (ps ++ places mem addr n) addr n := by
  refine ⟨h.keeps, fun x hx hin => ?_⟩
  rcases List.mem_append.mp hin with hin | hin
  · exact h.table x hx hin
  · exact h.keeps x hin hx

theorem Agrees.table_eq (h : Agrees ps mem mem') (htable : ∀ x ∈ entries mem addr n, x ∉ ps) {i : Nat}
    (hi : i < n) : ∀ x ∈ tablePlaces mem (addr + BitVec.ofNat 32 i), mem'.host x = mem.host x :=
  fun x hx => h.host x (htable x (mem_entries.mpr ⟨i, hi, mem_tablePlaces.mp hx⟩))

theorem Agrees.place_eq (h : Agrees ps mem mem') (htable : ∀ x ∈ entries mem addr n, x ∉ ps) {i : Nat}
    (hi : i < n) : place mem' (addr + BitVec.ofNat 32 i) = place mem (addr + BitVec.ofNat 32 i) :=
  place_congr h.paging h.map (h.table_eq htable hi)

theorem Agrees.places_eq (h : Agrees ps mem mem') (htable : ∀ x ∈ entries mem addr n, x ∉ ps) :
    places mem' addr n = places mem addr n :=
  List.filterMap_congr fun _ hi => h.place_eq htable (List.mem_range.mp hi)

theorem Agrees.entries_eq (h : Agrees ps mem mem') (htable : ∀ x ∈ entries mem addr n, x ∉ ps) :
    entries mem' addr n = entries mem addr n :=
  List.flatMap_congr fun _ hi =>
    tablePlaces_congr h.paging h.map (h.table_eq htable (List.mem_range.mp hi))

theorem Agrees.keeps (h : Agrees ps mem mem') (hs : Storable mem ps addr n) : Keeps mem' addr n := by
  rw [Keeps, h.places_eq hs.table, h.entries_eq hs.table]
  exact hs.keeps

theorem Agrees.mapped (h : Agrees ps mem mem') (hr : Readable mem ps addr n) :
    mapped mem' addr n = true := by
  refine mapped_iff.mpr fun i hi => ?_
  rw [h.place_eq hr.table hi]
  exact mapped_iff.mp hr.mapped i hi

theorem Agrees.byteAt_eq (h : Agrees ps mem mem') (hr : Readable mem ps addr n) {i : Nat} (hi : i < n) :
    byteAt mem' (addr + BitVec.ofNat 32 i) = byteAt mem (addr + BitVec.ofNat 32 i) := by
  obtain ⟨x, hx⟩ := exists_place hr.mapped hi
  rw [byteAt_of_place ((h.place_eq hr.table hi).trans hx), byteAt_of_place hx]
  exact h.host x (hr.bytes x (mem_places.mpr ⟨i, hi, hx⟩))

theorem Agrees.vmemRead_eq (h : Agrees ps mem mem') (hr : Readable mem ps addr n) (hn : n < 2 ^ 32)
    {i : Nat} (hi : i < n) (old old' : Nat → Byte) :
    vmemRead mem' addr n old i = vmemRead mem addr n old' i :=
  calc vmemRead mem' addr n old i
      = byteAt mem' (addr + BitVec.ofNat 32 i) := vmemRead_of_mapped hn (h.mapped hr) hi old
    _ = byteAt mem (addr + BitVec.ofNat 32 i) := h.byteAt_eq hr hi
    _ = vmemRead mem addr n old' i := (vmemRead_of_mapped hn hr.mapped hi old').symm

theorem Agrees.readED_eq (h : Agrees ps mem mem') (hr : Readable mem ps addr 16)
    (old : EndpointDescriptor) : readED mem' addr old = edAt mem addr :=
  ed_ofBytes_congr fun _ hj => h.vmemRead_eq hr (by decide) hj _ _

theorem Agrees.tdAt_eq (h : Agrees ps mem mem') (hr : Readable mem ps addr 16) :
    tdAt mem' addr = tdAt mem addr :=
  td_ofBytes_congr fun _ hj => h.vmemRead_eq hr (by decide) hj _ _

/-- What the walk goes by of an isochronous descriptor. -/
theorem Agrees.isoAt_eq (h : Agrees ps mem mem') (hr : Readable mem ps addr 32) :
    (isoAt mem' addr).flags = (isoAt mem addr).flags ∧
      (isoAt mem' addr).nextTD = (isoAt mem addr).nextTD := by
  have hbytes (j : Nat) (hj : j < 32) := h.vmemRead_eq hr (by decide) hj (fun _ => 0) fun _ => 0
  exact ⟨wordAt_congr hbytes (by decide), wordAt_congr hbytes (by decide)⟩

/-- A store after others. -/
theorem Agrees.store (h : Agrees ps mem mem') (hs : Storable mem ps addr n) (hn : n ≤ 4096)
    (hw : Writes [(addr, n)] mem' mem'') : Agrees (ps ++ places mem addr n) mem mem'' := by
  rcases hw.eq_or_store with rfl | ⟨bytes, rfl⟩
  · exact h.mono (List.subset_append_left _ _)
  · refine ⟨h.paging, h.map, fun x hx => ?_⟩
    obtain ⟨hps, hplaces⟩ := not_or.mp (mt List.mem_append.mpr hx)
    rw [← h.places_eq hs.table] at hplaces
    exact (vmemWrite_out hn (h.keeps hs) hplaces).trans (h.host x hps)

end Memory

/-! ## What is known of the walk -/

/-- What is known of `m_AsyncTD` and `m_AsyncComplete`: all of it, or nothing once the
device may have put a packet off. -/
inductive Wait where
  | known (asyncTD : Word) (complete : Bool)
  | unknown

def Wait.Holds (hc : Controller) : Wait → Prop
  | .known a c => hc.asyncTD = a ∧ hc.asyncComplete = c
  | .unknown => True

/-- After the descriptor at `addr` has been serviced without a wait. -/
def Wait.after (hc : Controller) (addr : Word) : Wait → Wait
  | .known a c => .known 0 (if a = addr then false else c)
  | .unknown => if hc.asyncComplete then .unknown else .known 0 false

/-- After a skipped endpoint whose HeadP points to `addr`. -/
def Wait.cancelled (addr : Word) : Wait → Wait
  | .known a c => .known (if a ≠ 0 ∧ addr = a then 0 else a) c
  | .unknown => .unknown

/-- The places that may have been written to, and the pending packet. -/
structure Known where
  written : List Nat
  wait : Wait

def Known.store (k : Known) (mem : GuestMemory) (addr : Word) (n : Nat) : Known :=
  { k with written := k.written ++ places mem addr n }

/-- The walk has got from `hc` to `hc'`. -/
structure Since (ps : List Nat) (hc hc' : Controller) : Prop where
  mem : Agrees ps hc.mem hc'.mem
  frame : hc'.hcFmNumber = hc.hcFmNumber
  complete : hc'.asyncComplete = true → hc.asyncComplete = true

structure Known.Holds (k : Known) (hc hc' : Controller) : Prop where
  since : Since k.written hc hc'
  wait : k.wait.Holds hc'

section Known

variable {ps qs : List Nat} {hc hc' hc'' : Controller} {addr : Word} {n : Nat} {wait : Wait} {k : Known}

theorem Since.mono (h : Since ps hc hc') (hsub : ps ⊆ qs) : Since qs hc hc' :=
  ⟨h.mem.mono hsub, h.frame, h.complete⟩

theorem Since.served (h : Since ps hc hc') (hs : Storable hc.mem ps addr n) (hn : n ≤ 4096)
    (hserved : Served [(addr, n)] hc' hc'') : Since (ps ++ places hc.mem addr n) hc hc'' :=
  ⟨h.mem.store hs hn hserved.mem, hserved.frame.trans h.frame, fun hd => h.complete (hserved.complete hd)⟩

theorem Since.quiet (h : Since ps hc hc') (hserved : Served [] hc' hc'') : Since ps hc hc'' := by
  refine ⟨?_, hserved.frame.trans h.frame, fun hd => h.complete (hserved.complete hd)⟩
  rw [hserved.mem_eq]
  exact h.mem

theorem Wait.Holds.congr (h : wait.Holds hc) (ha : hc'.asyncTD = hc.asyncTD)
    (hd : hc'.asyncComplete = hc.asyncComplete) : wait.Holds hc' := by
  cases wait with
  | known a c => exact ⟨ha.trans h.1, hd.trans h.2⟩
  | unknown => trivial

theorem Wait.Holds.after (h0 : addr ≠ 0) (h : wait.Holds hc') (hp : Passed addr hc' hc'')
    (hd : hc''.asyncComplete = true → hc.asyncComplete = true) : (wait.after hc addr).Holds hc'' := by
  obtain ⟨hzero, hwas⟩ := hp
  cases wait with
  | known a c =>
    obtain ⟨rfl, rfl⟩ := h
    refine ⟨hzero, ?_⟩
    obtain ⟨hown, hdone⟩ | ⟨hidle, hsame⟩ := hwas
    · rw [if_pos hown]
      exact hdone
    · rw [if_neg fun hown => h0 (hown.symm.trans hidle)]
      exact hsame
  | unknown =>
    rw [Wait.after]
    split
    · trivial
    · next hc =>
      refine ⟨hzero, ?_⟩
      cases hcomplete : hc''.asyncComplete with
      | false => rfl
      | true => exact absurd (hd hcomplete) hc

theorem Wait.Holds.cancelled (h : wait.Holds hc) (ed : EndpointDescriptor) :
    (wait.cancelled (ed.headP &&& OHCI_DPTR_MASK)).Holds (cancelPending hc ed) := by
  cases wait with
  | known a c =>
    obtain ⟨rfl, rfl⟩ := h
    rw [cancelPending, Wait.cancelled]
    split
    · exact ⟨rfl, rfl⟩
    · exact ⟨rfl, rfl⟩
  | unknown => trivial

end Known

/-! ## Lists as they lie in memory -/

/-- After some packets of the size of the endpoint the rest of the data fits in one. -/
def Sendable (ed : EndpointDescriptor) (td : TransferDescriptor) : Prop :=
  direction ed td = OHCI_TD_DIR_IN ∨
    ∃ j, bufferLength ((partlySent ed)^[j] td) ≤ maxPacketSize ed

/-- The queue of `ed` from `addr` on comes to an end; with what is known before and after it. -/
inductive Queue (hc : Controller) (ed : EndpointDescriptor) : Known → Word → Known → Prop where
  | tail {k : Known} {addr : Word} (ht : addr = ed.tailP) : Queue hc ed k addr k
  | null {ps : List Nat} (hg : IsGeneral ed) : Queue hc ed ⟨ps, .known 0 false⟩ 0 ⟨ps, .known 0 false⟩
  | blocked {ps : List Nat} {a addr : Word} {c : Bool} (hg : IsGeneral ed) (ha : a ≠ 0) (h0 : addr ≠ 0)
      (hown : addr = a → c = false) : Queue hc ed ⟨ps, .known a c⟩ addr ⟨ps, .known a c⟩
  | reserved {k : Known} {addr : Word} (hg : IsGeneral ed) (h0 : addr ≠ 0)
      (hr : Readable hc.mem k.written addr 16)
      (hd : direction ed (tdAt hc.mem addr) = OHCI_TD_DIR_RESERVED) : Queue hc ed k addr k
  | passes {k k' : Known} {addr : Word} (hg : IsGeneral ed) (h0 : addr ≠ 0)
      (hr : Readable hc.mem k.written addr 16) (hk : Keeps hc.mem addr 16)
      (hs : Sendable ed (tdAt hc.mem addr))
      (next : Queue hc ed { k.store hc.mem addr 16 with wait := k.wait.after hc addr }
        ((tdAt hc.mem addr).nextTD &&& OHCI_DPTR_MASK) k') :
      Queue hc ed k addr { k' with wait := .unknown }
  | early {k : Known} {addr : Word} (hi : ¬ IsGeneral ed) (h0 : addr ≠ 0)
      (hr : Readable hc.mem k.written addr 32) (he : relativeFrame hc (isoAt hc.mem addr) < 0) :
      Queue hc ed k addr k
  | due {k : Known} {addr : Word} (hi : ¬ IsGeneral ed) (h0 : addr ≠ 0)
      (hr : Readable hc.mem k.written addr 32) (hk : Keeps hc.mem addr 32)
      (hd : ¬ Expired hc (isoAt hc.mem addr)) : Queue hc ed k addr (k.store hc.mem addr 32)
  | expired {k k' : Known} {addr : Word} (hi : ¬ IsGeneral ed) (h0 : addr ≠ 0)
      (hr : Readable hc.mem k.written addr 32) (hk : Keeps hc.mem addr 32)
      (next : Queue hc ed (k.store hc.mem addr 32) ((isoAt hc.mem addr).nextTD &&& OHCI_DPTR_MASK) k') :
      Queue hc ed k addr k'

/-- The list from `current` on comes to an end. -/
inductive Chain (hc : Controller) : Known → Word → Prop where
  | nil {k : Known} : Chain hc k 0
  | skipped {k : Known} {current : Word} (h0 : current ≠ 0) (hr : Readable hc.mem k.written current 16)
      (hs : Skipped (edAt hc.mem current))
      (next : Chain hc
        { k with wait := k.wait.cancelled ((edAt hc.mem current).headP &&& OHCI_DPTR_MASK) }
        ((edAt hc.mem current).nextED &&& OHCI_DPTR_MASK)) : Chain hc k current
  | serves {k k' : Known} {current : Word} (h0 : current ≠ 0) (hr : Readable hc.mem k.written current 16)
      (hs : ¬ Skipped (edAt hc.mem current))
      (queue : Queue hc (edAt hc.mem current) k ((edAt hc.mem current).headP &&& OHCI_DPTR_MASK) k')
      (hk : Storable hc.mem k'.written current 4)
      (next : Chain hc (k'.store hc.mem current 4) ((edAt hc.mem current).nextED &&& OHCI_DPTR_MASK)) :
      Chain hc k current

/-- The list that starts at `head` is finite. -/
def FiniteList (hc : Controller) (head : Word) : Prop :=
  Chain hc ⟨[], .known hc.asyncTD hc.asyncComplete⟩ head

/-! ## One turn -/

/-- The walk gets from `w` to the list loop again, at `nextED`. -/
def Leaves (env : Nat → Answer) (completion : Bool) (hc : Controller) (w : Walk) (nextED : Word)
    (k : Known) : Prop :=
  ∃ w', Steps (walkBody env completion) w w' ∧ w'.position = .list nextED ∧ k.Holds hc w'.hc

/-- The walk is at `addr` in the queue of `ed`. -/
structure InQueue (ed : EndpointDescriptor) (current nextED addr : Word) (w : Walk) : Prop where
  position : w.position = .queue current nextED
  kept : w.ed = { ed with headP := w.ed.headP }
  head : w.ed.headP &&& OHCI_DPTR_MASK = addr

section Turns

variable {env : Nat → Answer} {completion : Bool} {hc : Controller} {w : Walk}
  {ed : EndpointDescriptor} {current nextED addr : Word} {k : Known}

theorem Leaves.after {w' : Walk} (h : Leaves env completion hc w' nextED k)
    (hsteps : Steps (walkBody env completion) w w') : Leaves env completion hc w nextED k := by
  obtain ⟨w'', hsteps', hpos, hk⟩ := h
  exact ⟨w'', hsteps.trans hsteps', hpos, hk⟩

/-- The first word of the endpoint is written when its queue is left. -/
theorem Known.Holds.leave (h : k.Holds hc w.hc) (hk : Storable hc.mem k.written current 4)
    (env : Nat → Answer) (nextED : Word) :
    (k.store hc.mem current 4).Holds hc (leaveED env w current nextED).hc :=
  ⟨h.since.served hk (by decide) (leaveED_served env w current nextED), h.wait.congr rfl rfl⟩

theorem InQueue.general (h : InQueue ed current nextED addr w) : IsGeneral w.ed ↔ IsGeneral ed := by
  rw [h.kept]
  rfl

theorem InQueue.not_tail (h : InQueue ed current nextED addr w) (ht : addr ≠ ed.tailP) :
    w.ed.headP &&& OHCI_DPTR_MASK ≠ w.ed.tailP := by
  rw [h.head, h.kept]
  exact ht

theorem InQueue.leaves_at_tail (h : InQueue ed current nextED addr w) (ht : addr = ed.tailP)
    (hk : Storable hc.mem k.written current 4) (hw : k.Holds hc w.hc) :
    Leaves env completion hc w nextED (k.store hc.mem current 4) := by
  have htail : w.ed.headP &&& OHCI_DPTR_MASK = w.ed.tailP := by
    rw [h.head, h.kept]
    exact ht
  exact ⟨_, .one (walkBody_tail h.position htail), rfl, hw.leave hk env nextED⟩

theorem InQueue.leaves_of_stop (h : InQueue ed current nextED addr w) (ht : addr ≠ ed.tailP)
    (hs : (serviceHead env w completion).stop = true) (hk : Storable hc.mem k.written current 4)
    (hw : k.Holds hc (serviceHead env w completion).hc) :
    Leaves env completion hc w nextED (k.store hc.mem current 4) := by
  have hafter : k.Holds hc (afterService env completion w).hc := hw
  exact ⟨_, .one (walkBody_stop h.position (h.not_tail ht) hs), rfl, hafter.leave hk env nextED⟩

theorem InQueue.leaves_of_stops (h : InQueue ed current nextED addr w)
    (hs : Stops w.hc (serviceHead env w completion)) (hk : Storable hc.mem k.written current 4)
    (hw : k.Holds hc w.hc) : Leaves env completion hc w nextED (k.store hc.mem current 4) := by
  by_cases ht : addr = ed.tailP
  · exact h.leaves_at_tail ht hk hw
  · exact h.leaves_of_stop ht hs.stop hk
      ⟨hw.since.quiet hs.served, hw.wait.congr hs.asyncTD hs.asyncComplete⟩

/-- The next turn services the descriptor and goes on in the queue. -/
theorem InQueue.goes (h : InQueue ed current nextED addr w) (ht : addr ≠ ed.tailP)
    (hgo : (serviceHead env w completion).stop = false) {next : Word}
    (hnext : (serviceHead env w completion).ed.headP &&& OHCI_DPTR_MASK = next) :
    Steps (walkBody env completion) w (afterService env completion w) ∧
      InQueue ed current nextED next (afterService env completion w) := by
  refine ⟨.one (walkBody_go h.position (h.not_tail ht) hgo), h.position, ?_, hnext⟩
  have hkept := (serviceHead_wrote env w completion).2
  rw [h.kept] at hkept
  exact hkept

end Turns

section General

variable {completion : Bool} {hc : Controller} {w : Walk} {ed : EndpointDescriptor}
  {current nextED addr : Word} {ps : List Nat} {td : TransferDescriptor}

/-- The walk is at the general descriptor `td`. -/
structure Serving (hc : Controller) (ps : List Nat) (ed : EndpointDescriptor)
    (current nextED addr : Word) (td : TransferDescriptor) (w : Walk) : Prop where
  inQueue : InQueue ed current nextED addr w
  since : Since ps hc w.hc
  mapped : mapped w.hc.mem addr 16 = true
  td : tdAt w.hc.mem addr = td

/-- The walk has left the descriptor at `addr` behind and is at `next`. -/
def MovesOn (env : Nat → Answer) (completion : Bool) (hc : Controller) (ps : List Nat)
    (ed : EndpointDescriptor) (current nextED addr : Word) (w : Walk) (next : Word) : Prop :=
  ∃ w', Steps (walkBody env completion) w w' ∧ Passed addr w.hc w'.hc ∧ Since ps hc w'.hc ∧
    InQueue ed current nextED next w'

/-- What one turn does with a general descriptor that is mapped. -/
theorem general_turn (env : Nat → Answer) (h : Serving hc ps ed current nextED addr td w)
    (hg : IsGeneral ed) (ht : addr ≠ ed.tailP) (h0 : addr ≠ 0) (hs : Storable hc.mem ps addr 16)
    (hsub : places hc.mem addr 16 ⊆ ps) (hk : Storable hc.mem ps current 4) :
    Leaves env completion hc w nextED ((Known.mk ps .unknown).store hc.mem current 4) ∨
      MovesOn env completion hc ps ed current nextED addr w (td.nextTD &&& OHCI_DPTR_MASK) ∨
      ∃ w', Steps (walkBody env completion) w w' ∧ Passed addr w.hc w'.hc ∧
        Serving hc ps ed current nextED addr (partlySent ed td) w' ∧
        direction ed td ≠ OHCI_TD_DIR_IN ∧ maxPacketSize ed < bufferLength td := by
  obtain ⟨hin, hsince, hm, htd⟩ := h
  have hkeeps := hsince.mem.keeps hs
  have hserves := serviceTD_serves env w.hc w.ed (hin.head ▸ h0) (hin.head ▸ hm)
  rw [← serviceHead_general env completion (hin.general.mpr hg), hin.head, htd] at hserves
  have hsince' : Since ps hc (serviceHead env w completion).hc :=
    (hsince.served hs (by decide) hserves.served).mono
      (List.append_subset.mpr ⟨List.Subset.refl ps, hsub⟩)
  cases hstop : (serviceHead env w completion).stop with
  | true =>
    have hw : (Known.mk ps .unknown).Holds hc (serviceHead env w completion).hc := ⟨hsince', trivial⟩
    exact .inl (hin.leaves_of_stop ht hstop hk hw)
  | false =>
    have hpassed : Passed addr w.hc (afterService env completion w).hc := by
      obtain hs | hs := hserves.passed
      · rw [hstop] at hs
        cases hs
      · exact hs
    refine .inr ?_
    cases hserves.turned with
    | stops hs =>
      rw [hstop] at hs
      cases hs
    | moves hnext =>
      obtain ⟨hsteps, hin'⟩ := hin.goes ht hstop hnext
      exact .inl ⟨_, hsteps, hpassed, hsince', hin'⟩
    | stays hed hdir hlen hmem =>
      have hhead : (serviceHead env w completion).ed.headP &&& OHCI_DPTR_MASK = addr := by
        rw [hed, hin.head]
      obtain ⟨hsteps, hin'⟩ := hin.goes ht hstop hhead
      rw [hin.kept] at hdir hlen hmem
      refine .inr ⟨_, hsteps, hpassed, ⟨hin', hsince', ?_, ?_⟩, hdir, hlen⟩
      · rw [afterService, hmem, writeTD, hkeeps.mapped_eq (by decide) le_rfl]
        exact hm
      · rw [afterService, hmem]
        exact tdAt_writeTD hkeeps hm _

/-- A general descriptor whose data can be sent is left behind, or its queue is. -/
theorem sendable_moves (env : Nat → Answer) (j : Nat) (h : Serving hc ps ed current nextED addr td w)
    (hg : IsGeneral ed) (ht : addr ≠ ed.tailP) (h0 : addr ≠ 0) (hs : Storable hc.mem ps addr 16)
    (hsub : places hc.mem addr 16 ⊆ ps) (hk : Storable hc.mem ps current 4)
    (hj : direction ed td = OHCI_TD_DIR_IN ∨
      bufferLength ((partlySent ed)^[j] td) ≤ maxPacketSize ed) :
    Leaves env completion hc w nextED ((Known.mk ps .unknown).store hc.mem current 4) ∨
      MovesOn env completion hc ps ed current nextED addr w (td.nextTD &&& OHCI_DPTR_MASK) := by
  induction j generalizing w td with
  | zero =>
    obtain hleaves | hmoves | ⟨w', -, -, -, hdir, hlen⟩ := general_turn env h hg ht h0 hs hsub hk
    · exact .inl hleaves
    · exact .inr hmoves
    · exact absurd hlen (Nat.not_lt.mpr (hj.resolve_left hdir))
  | succ j ih =>
    obtain hleaves | hmoves | ⟨w', hsteps, hpassed, hserving, hdir, hlen⟩ :=
      general_turn env h hg ht h0 hs hsub hk
    · exact .inl hleaves
    · exact .inr hmoves
    have hrest := hj.resolve_left hdir
    rw [Function.iterate_succ_apply] at hrest
    obtain hleaves | ⟨w'', hsteps', hpassed', hgone⟩ := ih hserving (.inr hrest)
    · exact .inl (hleaves.after hsteps)
    · exact .inr ⟨w'', hsteps.trans hsteps', hpassed.trans h0 hpassed', hgone⟩

end General

/-- An isochronous descriptor is left behind once it has expired, or its queue is. -/
theorem iso_moves (env : Nat → Answer) (completion : Bool) {hc : Controller} {w : Walk}
    {ed : EndpointDescriptor} {current nextED addr : Word} {k : Known}
    (h : InQueue ed current nextED addr w) (hi : ¬ IsGeneral ed) (ht : addr ≠ ed.tailP) (h0 : addr ≠ 0)
    (hr : Readable hc.mem k.written addr 32) (hkeeps : Keeps hc.mem addr 32)
    (hk : Storable hc.mem (k.store hc.mem addr 32).written current 4) (hw : k.Holds hc w.hc) :
    Leaves env completion hc w nextED ((k.store hc.mem addr 32).store hc.mem current 4) ∨
      Expired hc (isoAt hc.mem addr) ∧ ∃ w', Steps (walkBody env completion) w w' ∧
        (k.store hc.mem addr 32).Holds hc w'.hc ∧
        InQueue ed current nextED ((isoAt hc.mem addr).nextTD &&& OHCI_DPTR_MASK) w' := by
  have hm := hw.since.mem.mapped hr
  obtain ⟨hkept, hnext⟩ := serviceIsoTD_kept env w.hc w.ed completion (h.head ▸ h0) (h.head ▸ hm)
  obtain ⟨hflags, hnextTD⟩ := hw.since.mem.isoAt_eq hr
  rw [← serviceHead_iso env completion (mt h.general.mp hi), h.head, hnextTD,
    expired_congr hw.since.frame hflags] at hnext
  rw [← serviceHead_iso env completion (mt h.general.mp hi), h.head] at hkept
  have hw' : (k.store hc.mem addr 32).Holds hc (serviceHead env w completion).hc :=
    ⟨hw.since.served (hr.storable hkeeps) (by decide) hkept.served,
      hw.wait.congr hkept.asyncTD hkept.asyncComplete⟩
  cases hstop : (serviceHead env w completion).stop with
  | true => exact .inl (h.leaves_of_stop ht hstop hk hw')
  | false =>
    obtain hs | ⟨hexpired, hhead⟩ := hnext
    · rw [hstop] at hs
      cases hs
    · obtain ⟨hsteps, hin⟩ := h.goes ht hstop hhead
      exact .inr ⟨hexpired, _, hsteps, hw', hin⟩

/-! ## Queues -/

section Queues

variable {hc : Controller} {ed : EndpointDescriptor} {k k' : Known} {addr : Word}

theorem Queue.written_subset (q : Queue hc ed k addr k') : k.written ⊆ k'.written := by
  induction q with
  | tail | null | blocked | reserved | early => exact List.Subset.refl _
  | due => exact List.subset_append_left _ _
  | passes hg h0 hr hk hs next ih => exact List.Subset.trans (List.subset_append_left _ _) ih
  | expired hi h0 hr hk next ih => exact List.Subset.trans (List.subset_append_left _ _) ih

/-- No packet of an isochronous endpoint waits. -/
theorem Queue.wait_eq (q : Queue hc ed k addr k') (hi : ¬ IsGeneral ed) : k'.wait = k.wait := by
  induction q with
  | tail | null | blocked | reserved | early => rfl
  | due => rfl
  | passes hg => exact absurd hg hi
  | expired _ h0 hr hk next ih => exact ih

/-- More may have been written to, and less known of the packet. -/
theorem Leaves.mono {env : Nat → Answer} {completion : Bool} {w : Walk} {current nextED : Word}
    (h : Leaves env completion hc w nextED (k.store hc.mem current 4)) (hsub : k.written ⊆ k'.written)
    (hwait : k'.wait = k.wait ∨ k'.wait = .unknown) :
    Leaves env completion hc w nextED (k'.store hc.mem current 4) := by
  obtain ⟨w', hsteps, hpos, hsince, hw⟩ := h
  have hall : (k.store hc.mem current 4).written ⊆ (k'.store hc.mem current 4).written := by
    refine List.append_subset.mpr ⟨?_, List.subset_append_right _ _⟩
    exact List.Subset.trans hsub (List.subset_append_left _ _)
  refine ⟨w', hsteps, hpos, hsince.mono hall, ?_⟩
  rw [Known.store] at hw ⊢
  rcases hwait with hwait | hwait
  · rw [hwait]
    exact hw
  · rw [hwait]
    trivial

/-- A queue that comes to an end is left. -/
theorem Queue.leaves (q : Queue hc ed k addr k') (env : Nat → Answer) (completion : Bool)
    {w : Walk} {current nextED : Word} (h : InQueue ed current nextED addr w) (hw : k.Holds hc w.hc)
    (hl : Storable hc.mem k'.written current 4) :
    Leaves env completion hc w nextED (k'.store hc.mem current 4) := by
  induction q generalizing w with
  | tail ht => exact h.leaves_at_tail ht hl hw
  | null hg =>
    refine h.leaves_of_stops ?_ hl hw
    rw [serviceHead_general env completion (h.general.mpr hg),
      serviceTD_null env w.hc w.ed h.head, if_pos ⟨hw.wait.1, hw.wait.2⟩]
    exact ⟨rfl, .of_eq rfl rfl rfl, rfl, rfl⟩
  | @blocked ps a addr c hg ha h0 hown =>
    refine h.leaves_of_stops ?_ hl hw
    obtain ⟨rfl, rfl⟩ := hw.wait
    rw [serviceHead_general env completion (h.general.mpr hg)]
    refine serviceTD_blocked env w.hc w.ed (h.head ▸ h0) ha ?_
    rw [h.head]
    exact hown
  | @reserved k addr hg h0 hr hd =>
    refine h.leaves_of_stops ?_ hl hw
    have hdir : direction w.ed (tdAt w.hc.mem addr) = OHCI_TD_DIR_RESERVED := by
      rw [hw.since.mem.tdAt_eq hr, h.kept]
      exact hd
    rw [serviceHead_general env completion (h.general.mpr hg)]
    exact serviceTD_reserved env w.hc w.ed (h.head ▸ hw.since.mem.mapped hr) (h.head ▸ h0)
      (h.head ▸ hdir)
  | @passes k k' addr hg h0 hr hk hs next ih =>
    have hsub := next.written_subset
    have hsub' : k.written ⊆ k'.written := List.Subset.trans (List.subset_append_left _ _) hsub
    by_cases ht : addr = ed.tailP
    · exact (h.leaves_at_tail ht (hl.mono hsub') hw).mono hsub' (.inr rfl)
    obtain ⟨j, hj⟩ : ∃ j, direction ed (tdAt hc.mem addr) = OHCI_TD_DIR_IN ∨
        bufferLength ((partlySent ed)^[j] (tdAt hc.mem addr)) ≤ maxPacketSize ed := by
      obtain hin | ⟨j, hj⟩ := hs
      · exact ⟨0, .inl hin⟩
      · exact ⟨j, .inr hj⟩
    have hserving : Serving hc (k.store hc.mem addr 16).written ed current nextED addr
        (tdAt hc.mem addr) w :=
      ⟨h, hw.since.mono (List.subset_append_left _ _), hw.since.mem.mapped hr, hw.since.mem.tdAt_eq hr⟩
    have hmoves : Leaves env completion hc w nextED _ ∨
        MovesOn env completion hc _ ed current nextED addr w _ :=
      sendable_moves env j hserving hg ht h0 (hr.storable hk).again (List.subset_append_right _ _)
        (hl.mono hsub) hj
    obtain hleaves | ⟨w', hsteps, hpassed, hsince, hin⟩ := hmoves
    · exact hleaves.mono hsub (.inr rfl)
    · have hrest := ih hin ⟨hsince, hw.wait.after h0 hpassed hsince.complete⟩ hl
      exact (hrest.after hsteps).mono (List.Subset.refl _) (.inr rfl)
  | @early k addr hi h0 hr he =>
    refine h.leaves_of_stops ?_ hl hw
    rw [← relativeFrame_congr hw.since.frame (hw.since.mem.isoAt_eq hr).1] at he
    rw [serviceHead_iso env completion (mt h.general.mp hi)]
    exact serviceIsoTD_early env w.hc w.ed completion (h.head ▸ h0)
      (h.head ▸ hw.since.mem.mapped hr) (h.head ▸ he)
  | @due k addr hi h0 hr hk hd =>
    by_cases ht : addr = ed.tailP
    · have hsub : k.written ⊆ (k.store hc.mem addr 32).written := List.subset_append_left _ _
      exact (h.leaves_at_tail ht (hl.mono hsub) hw).mono hsub (.inl rfl)
    obtain hleaves | ⟨hexpired, -⟩ := iso_moves env completion h hi ht h0 hr hk hl hw
    · exact hleaves
    · exact absurd hexpired hd
  | @expired k k' addr hi h0 hr hk next ih =>
    have hsub := next.written_subset
    have hsub' : k.written ⊆ k'.written := List.Subset.trans (List.subset_append_left _ _) hsub
    have hwait : k'.wait = k.wait := next.wait_eq hi
    by_cases ht : addr = ed.tailP
    · exact (h.leaves_at_tail ht (hl.mono hsub') hw).mono hsub' (.inl hwait)
    obtain hleaves | ⟨-, w', hsteps, hw', hin⟩ :=
      iso_moves env completion h hi ht h0 hr hk (hl.mono hsub) hw
    · exact hleaves.mono hsub (.inl hwait)
    · exact (ih hin hw' hl).after hsteps

end Queues

/-! ## Lists -/

/-- The walk over a list that comes to an end is left. -/
theorem Chain.ends {hc : Controller} {k : Known} {head : Word} (c : Chain hc k head)
    (env : Nat → Answer) (completion : Bool) {w : Walk} (hpos : w.position = .list head)
    (hw : k.Holds hc w.hc) : ∃ t, Ends (walkBody env completion) w t := by
  induction c generalizing w with
  | nil =>
    refine ⟨w, .of_exit ?_⟩
    rw [walkBody, hpos]
    rfl
  | @skipped k current h0 hr hs next ih =>
    have henter := walkBody_enter env completion hpos h0
    rw [enterED_skipped (hw.since.mem.readED_eq hr w.ed) hs] at henter
    have hw' : Known.Holds { k with
        wait := k.wait.cancelled ((edAt hc.mem current).headP &&& OHCI_DPTR_MASK) } hc
        (cancelPending w.hc (edAt hc.mem current)) :=
      ⟨hw.since.quiet (cancelPending_served [] w.hc _), hw.wait.cancelled _⟩
    obtain ⟨t, ht⟩ := ih (w := { w with
        hc := cancelPending w.hc (edAt hc.mem current), ed := edAt hc.mem current
        position := .list ((edAt hc.mem current).nextED &&& OHCI_DPTR_MASK) }) rfl hw'
    exact ⟨t, ht.of_next henter⟩
  | @serves k k' current h0 hr hs queue hk next ih =>
    have henter := walkBody_enter env completion hpos h0
    rw [enterED_serves (hw.since.mem.readED_eq hr w.ed) hs] at henter
    obtain ⟨w', hsteps, hpos', hw'⟩ := queue.leaves env completion (w := { w with
        ed := edAt hc.mem current
        position := .queue current ((edAt hc.mem current).nextED &&& OHCI_DPTR_MASK) })
      ⟨rfl, rfl, rfl⟩ hw hk
    obtain ⟨t, ht⟩ := ih hpos' hw'
    exact ⟨t, (ht.of_steps hsteps).of_next henter⟩

/-- A finite list is walked to its end, whatever the device answers. -/
theorem finite_list_returns {hc : Controller} {head : Word} (h : FiniteList hc head)
    (env : Nat → Answer) (ed : EndpointDescriptor) (completion : Bool) :
    ∃ n, ∀ fuel, n ≤ fuel → (serviceEDlist fuel env hc ed head completion).isSome = true := by
  obtain ⟨t, n, hn⟩ := h.ends env completion (w := ⟨hc, ed, false, .list head⟩) rfl
    ⟨⟨.refl hc.mem, rfl, id⟩, rfl, rfl⟩
  refine ⟨n, fun fuel hfuel => ?_⟩
  rw [serviceEDlist, loop_mono hn hfuel]
  rfl

/-- An endpoint that sends 20 bytes in packets of eight, and a skipped one. -/
def twoEndpoints : Controller :=
  controllerOver [0x80800, 0x130, 0x120, 0x110, 0x4000, 0, 0, 0, 0, 0x1000, 0x130, 0x1013]

example : FiniteList twoEndpoints 0x100 := by
  have hsent : Sendable (edAt twoEndpoints.mem 0x100) (tdAt twoEndpoints.mem 0x120) :=
    .inr ⟨2, by decide⟩
  have hqueue : Queue twoEndpoints (edAt twoEndpoints.mem 0x100) ⟨[], .known 0 false⟩ 0x120
      ⟨places twoEndpoints.mem 0x120 16, .unknown⟩ :=
    .passes (by decide) (by decide) ⟨by decide, by decide, by decide⟩ (by decide) hsent
      (.tail (by decide))
  refine .serves (by decide) ⟨by decide, by decide, by decide⟩ (by decide) hqueue
    ⟨by decide, by decide⟩ ?_
  exact .skipped (by decide) ⟨by decide, by decide, by decide⟩ (by decide) .nil

end OpenXbox.Ohci.FiniteLists
