import LibGTop.Base.Circles
import LibGTop.FreeBsd.ProcMap

/-!
# The turns of the walk over a memory map

How many turns the loop of `glibtop_get_proc_map_p` of FreeBSD (`sysdeps/freebsd/procmap.c:300–398`)
takes over the circular list of map entries: a turn whose read of the next entry fails starts again
from the entry that it has.
-/

namespace LibGTop.FreeBsd

open Base Bsd

/-- The link of the entry at an address. -/
def linkAt (memory : BitVec 64 → VmMapEntry) (a : BitVec 64) : BitVec 64 := (memory a).next

/-- The kernel has these entries at their addresses. A read of one that fails leaves the link in the
buffer, which is the address that was read, or has already overwritten it. -/
structure Serves (kernel : MapKernel) (memory : BitVec 64 → VmMapEntry) : Prop where
  ok : ∀ i a entry, kernel.entry i a = .ok entry → entry = memory a
  error : ∀ i a buffer, kernel.entry i a = .error buffer →
    buffer.next = a ∨ buffer.next = linkAt memory a

/-- The reads of these entries, each with the number that it has when it is its turn, bring the
links: they succeed, or have overwritten the link when they fail. -/
def LinksRead (kernel : MapKernel) (memory : BitVec 64 → VmMapEntry) :
    List (BitVec 64) → Process → Prop
  | [], _ => True
  | a :: rest, p =>
    match kernel.entry p.reads a with
    | .ok entry => ∀ added p', (mapTurn kernel entry).run { p with reads := p.reads + 1 } =
        .ok (added, p') → LinksRead kernel memory rest p'
    | .error buffer =>
      buffer.next = linkAt memory a ∧
        LinksRead kernel memory rest { p with reads := p.reads + 1 }

theorem returns_inodeDevice (kernel : MapKernel) (tag : List UInt8) (inode : Inode) :
    Returns (inodeDevice kernel tag inode) := by
  unfold inodeDevice
  split
  · refine returns_bind (returns_kvmRead _ _) fun answer ↦ ?_
    cases answer with
    | none => exact returns_pure _
    | some root => exact returns_pure _
  · refine returns_bind (returns_kvmRead _ _) fun answer ↦ ?_
    cases answer with
    | none => exact returns_pure _
    | some dev =>
      refine returns_bind (returns_kvmRead _ _) fun answer ↦ ?_
      cases answer with
      | none => exact returns_pure _
      | some cdp => exact returns_pure _

theorem returns_sysdepsFreebsdDevInode (kernel : MapKernel) (handle : BitVec 64) (vn : Vnode) :
    Returns (sysdepsFreebsdDevInode kernel handle vn) := by
  unfold sysdepsFreebsdDevInode
  refine returns_bind (returns_kvmRead _ _) fun answer ↦ ?_
  cases answer with
  | none => exact returns_pure _
  | some tagptr =>
    refine returns_bind (returns_kvmRead _ _) fun answer ↦ ?_
    cases answer with
    | none => exact returns_pure _
    | some tagstr =>
      dsimp only
      split
      · exact returns_pure _
      refine returns_bind (returns_kvmRead _ _) fun answer ↦ ?_
      cases answer with
      | none => exact returns_pure _
      | some inode => exact returns_inodeDevice kernel _ inode

/-- A turn from the test of the entry on never ends the process. -/
theorem returns_mapTurn (kernel : MapKernel) (entry : VmMapEntry) :
    Returns (mapTurn kernel entry) := by
  unfold mapTurn
  split
  · exact returns_pure _
  split
  · exact returns_pure _
  refine returns_bind (returns_kvmRead _ _) fun answer ↦ ?_
  cases answer with
  | none => exact returns_pure _
  | some object =>
    dsimp only
    split
    · exact returns_pure _
    split
    · exact returns_pure _
    refine returns_bind (returns_kvmRead _ _) fun answer ↦ ?_
    cases answer with
    | none => exact returns_pure _
    | some vnode =>
      dsimp only
      split
      · exact returns_pure _
      · exact returns_bind (returns_sysdepsFreebsdDevInode kernel _ vnode) fun _ ↦ returns_pure _

section

variable {kernel : MapKernel} {memory : BitVec 64 → VmMapEntry} {first a : BitVec 64}
  {rest : List (BitVec 64)} {buffer : VmMapEntry} {maps : List MapEntry} {p : Process}

/-- A turn with a read that succeeds goes on with the entry that was read. -/
theorem run_walk_ok {fuel : Nat} {entry : VmMapEntry} {added : Option MapEntry} {p' : Process}
    (ha : buffer.next = a) (he : kernel.entry p.reads a = .ok entry)
    (ht : (mapTurn kernel entry).run { p with reads := p.reads + 1 } = .ok (added, p')) :
    (walk kernel first (fuel + 1) true buffer maps).run p =
      (if entry.next = first then pure (maps ++ added.toList)
        else walk kernel first fuel true entry (maps ++ added.toList)).run p' := by
  have hw : (walkTurn kernel true buffer).run p = .ok ((entry, added), p') := by
    rw [walkTurn, if_pos rfl, run_kvmRead_bind, ha, he]
    exact run_bind_of_ok ht
  rw [walk, run_bind_of_ok hw]

/-- A turn with a read that fails goes on with what the read left in the buffer. -/
theorem run_walk_error {fuel : Nat} {left : VmMapEntry} (ha : buffer.next = a)
    (he : kernel.entry p.reads a = .error left) :
    (walk kernel first (fuel + 1) true buffer maps).run p =
      (if left.next = first then pure maps else walk kernel first fuel true left maps).run
        { p with reads := p.reads + 1 } := by
  have hw : (walkTurn kernel true buffer).run p =
      .ok ((left, none), { p with reads := p.reads + 1 }) := by
    rw [walkTurn, if_pos rfl, run_kvmRead_bind, ha, he]
    rfl
  rw [walk, run_bind_of_ok hw]
  simp only [Option.toList_none, List.append_nil]

/-- As many turns as there are nodes before the end do not end the loop, as each of them goes on by
one node at most. -/
theorem run_walk_running (hs : Serves kernel memory) {fuel : Nat}
    (hl : Leads (linkAt memory) a rest first) (hf : first ∉ a :: rest) (ha : buffer.next = a)
    (hn : fuel ≤ rest.length) :
    (walk kernel first fuel true buffer maps).run p = .error .running := by
  induction fuel generalizing a rest buffer maps p with
  | zero => rfl
  | succ fuel ih =>
    cases rest with
    | nil => exact absurd hn (Nat.not_succ_le_zero fuel)
    | cons b rest =>
      have hb : (memory a).next ≠ first := hl.next_ne fun hm ↦ hf (List.mem_cons_of_mem a hm)
      have hfb : first ∉ b :: rest := fun hm ↦ hf (List.mem_cons_of_mem a hm)
      have hstep : fuel ≤ rest.length := Nat.le_of_succ_le_succ hn
      cases he : kernel.entry p.reads a with
      | ok entry =>
        obtain rfl := hs.ok p.reads a entry he
        obtain ⟨added, p', ht⟩ := returns_mapTurn kernel (memory a) { p with reads := p.reads + 1 }
        rw [run_walk_ok ha he ht, if_neg hb]
        exact ih hl.2 hfb hl.1 hstep
      | error left =>
        rw [run_walk_error ha he]
        rcases hs.error p.reads a left he with hold | hnew
        · rw [if_neg fun h ↦ hf (hold.symm.trans h ▸ List.mem_cons_self)]
          exact ih hl hf hold (Nat.le_succ_of_le hstep)
        · rw [if_neg (hnew ▸ hb)]
          exact ih hl.2 hfb (hnew.trans hl.1) hstep

/-- Where the read succeeds, the links are read if those behind it are. -/
theorem linksRead_ok {entry : VmMapEntry} {added : Option MapEntry} {p' : Process}
    (he : kernel.entry p.reads a = .ok entry)
    (ht : (mapTurn kernel entry).run { p with reads := p.reads + 1 } = .ok (added, p')) :
    LinksRead kernel memory (a :: rest) p ↔ LinksRead kernel memory rest p' := by
  rw [LinksRead, he]
  dsimp only
  constructor
  · exact fun h ↦ h added p' ht
  · intro h other p'' hr
    obtain ⟨-, rfl⟩ := Prod.mk.inj (Except.ok.inj (ht.symm.trans hr))
    exact h

/-- Where the read fails, it has to have brought the link. -/
theorem linksRead_error {left : VmMapEntry} (he : kernel.entry p.reads a = .error left) :
    LinksRead kernel memory (a :: rest) p ↔ left.next = linkAt memory a ∧
      LinksRead kernel memory rest { p with reads := p.reads + 1 } := by
  rw [LinksRead, he]

/-- What is left of the loop once the buffer has the link of a node. -/
def behind (kernel : MapKernel) (first : BitVec 64) (fuel : Nat) (buffer : VmMapEntry)
    (maps : List MapEntry) : Prog Process (List MapEntry) :=
  if buffer.next = first then pure maps else walk kernel first fuel true buffer maps

/-- A node adds one turn to those that are left behind its link. -/
theorem run_turn_iff (hs : Serves kernel memory) (hl : Leads (linkAt memory) a rest first)
    (hf : (first :: a :: rest).Nodup) (ha : buffer.next = a)
    (hr : ∀ {buffer : VmMapEntry} {maps : List MapEntry} {p : Process},
      buffer.next = linkAt memory a →
        ((behind kernel first rest.length buffer maps).run p ≠ .error .running ↔
          LinksRead kernel memory rest p)) :
    (walk kernel first (rest.length + 1) true buffer maps).run p ≠ .error .running ↔
      LinksRead kernel memory (a :: rest) p := by
  have hn : first ∉ a :: rest := (List.nodup_cons.mp hf).1
  cases he : kernel.entry p.reads a with
  | ok entry =>
    obtain rfl := hs.ok p.reads a entry he
    obtain ⟨added, p', ht⟩ := returns_mapTurn kernel (memory a) { p with reads := p.reads + 1 }
    rw [run_walk_ok ha he ht, linksRead_ok he ht]
    exact hr rfl
  | error left =>
    rw [run_walk_error ha he, linksRead_error he]
    by_cases hb : left.next = linkAt memory a
    · rw [and_iff_right hb]
      exact hr hb
    · have hold : left.next = a := (hs.error p.reads a left he).resolve_right hb
      rw [if_neg fun h ↦ hn (hold.symm.trans h ▸ List.mem_cons_self)]
      exact iff_of_false (not_not.mpr (run_walk_running hs hl hn hold le_rfl)) fun h ↦ hb h.1

/-- Behind the link of a node, in as many turns as there are nodes left the loop ends if and only if
each of their reads brings a link. -/
theorem run_behind_iff (hs : Serves kernel memory) (hl : Leads (linkAt memory) a rest first)
    (hf : (first :: rest).Nodup) (hb : buffer.next = linkAt memory a) :
    (behind kernel first rest.length buffer maps).run p ≠ .error .running ↔
      LinksRead kernel memory rest p := by
  induction rest generalizing a buffer maps p with
  | nil =>
    rw [behind, if_pos (hb.trans hl.next_last)]
    exact iff_of_true nofun trivial
  | cons b rest ih =>
    have hn : (first :: rest).Nodup :=
      hf.sublist ((List.sublist_cons_self b rest).cons_cons first)
    rw [behind, if_neg (hb ▸ hl.next_ne (List.nodup_cons.mp hf).1)]
    exact run_turn_iff hs hl.2 hf (hb.trans hl.1) fun hb ↦ ih hl.2 hn hb

end

/-- The state in which the loop starts. -/
def atLoop (p : Process) : Process := { suid := p.suid.enter, reads := p.reads + 2 }

/-- The loop is entered: the process is found, with a map whose first entry can be read. -/
structure Entered (kernel : MapKernel) (p : Process) (pid : BitVec 32) (first : BitVec 64) :
    Prop where
  pid_ne : pid ≠ 0
  found : ∃ count addr vmspace entry, kernel.procs = some (count, addr) ∧ ¬count < 1 ∧
    kernel.vmspace p.reads addr = some vmspace ∧ vmspace.first = first ∧
      kernel.entry (p.reads + 1) first = .ok entry

/-- Each read of an entry that the loop makes brings its link. -/
def LoopLinksRead (kernel : MapKernel) (memory : BitVec 64 → VmMapEntry) (first : BitVec 64)
    (rest : List (BitVec 64)) (p : Process) : Prop :=
  ∀ added p', (mapTurn kernel (memory first)).run (atLoop p) = .ok (added, p') →
    LinksRead kernel memory rest p'

section

variable {kernel : MapKernel} {memory : BitVec 64 → VmMapEntry} {first : BitVec 64}
  {rest : List (BitVec 64)} {p : Process} {pid : BitVec 32}

/-- To drop the privileges may end the process, but does not run on. -/
theorem run_suidLeave_ne_running (p : Process) : suidLeave.run p ≠ .error .running := by
  change (orExit p.suid.leave >>= fun suid ↦ set { p with suid := suid } :
    Prog Process Unit).run p ≠ .error .running
  cases p.suid.leave with
  | none => exact nofun
  | some suid => exact nofun

/-- Where the loop is entered, the function runs on if and only if the loop does. -/
theorem run_glibtopGetProcMapP_iff (hs : Serves kernel memory) (he : Entered kernel p pid first)
    (fuel : Nat) :
    (glibtopGetProcMapP kernel fuel pid).run p ≠ .error .running ↔
      (walk kernel first fuel false (memory first) []).run (atLoop p) ≠ .error .running := by
  obtain ⟨count, addr, vmspace, entry, hp, hc, hv, rfl, hentry⟩ := he.found
  obtain rfl := hs.ok _ _ entry hentry
  have hrun : (glibtopGetProcMapP kernel fuel pid).run p =
      (walk kernel vmspace.first fuel false (memory vmspace.first) [] >>= fun maps ↦ do
        suidLeave
        pure (procMapOf (BitVec.ofNat 64 maps.length), some maps)).run (atLoop p) := by
    rw [glibtopGetProcMapP, if_neg he.pid_ne, run_suidEnter_bind, hp]
    dsimp only
    rw [if_neg hc, run_kvmRead_bind, hv]
    dsimp only
    rw [run_kvmRead_bind, hentry]
    rfl
  rw [hrun]
  refine run_bind_ne_running fun maps p ↦ ?_
  refine (run_bind_ne_running fun _ _ ↦ ?_).mpr (run_suidLeave_ne_running p)
  exact nofun

/-- The first turn reads no entry. -/
theorem run_walk_first (hs : Serves kernel memory) (hc : Circle (linkAt memory) first rest) :
    (walk kernel first (rest.length + 1) false (memory first) []).run (atLoop p) ≠
      .error .running ↔ LoopLinksRead kernel memory first rest p := by
  obtain ⟨added, p', ht⟩ := returns_mapTurn kernel (memory first) (atLoop p)
  have hw : (walkTurn kernel false (memory first)).run (atLoop p) =
      .ok ((memory first, added), p') := by
    rw [walkTurn, if_neg Bool.false_ne_true]
    exact run_bind_of_ok ht
  rw [walk, run_bind_of_ok hw]
  refine (run_behind_iff hs hc.leads hc.nodup rfl).trans
    ⟨fun h other p'' ho ↦ ?_, fun h ↦ h added p' ht⟩
  obtain ⟨-, rfl⟩ := Prod.mk.inj (Except.ok.inj (ht.symm.trans ho))
  exact h

/-- In as many turns as the circular list has nodes the function ends if and only if each read of an
entry in its loop brings the link: after one that fails the loop is behind. -/
theorem glibtopGetProcMapP_ends_iff (hs : Serves kernel memory)
    (hc : Circle (linkAt memory) first rest) (he : Entered kernel p pid first) :
    (glibtopGetProcMapP kernel (first :: rest).length pid).run p ≠ .error .running ↔
      LoopLinksRead kernel memory first rest p :=
  (run_glibtopGetProcMapP_iff hs he _).trans (run_walk_first hs hc)

end

/-- A map of one entry and its header. -/
def oneEntry (a : BitVec 64) : VmMapEntry where
  next := if a = 8 then 16 else 8
  start := 0
  stop := 4096
  offset := 0
  isSubMap := true
  object := 0
  protection := 0

/-- A kernel with one process and this map, whose answer to the read of an entry is given. -/
def oneEntryKernel (entry : Nat → BitVec 64 → Except VmMapEntry VmMapEntry) : MapKernel where
  procs := some (1, 4)
  vmspace _ _ := some { first := 8, nentries := 1 }
  entry := entry
  object _ _ := none
  vnode _ _ := none
  tagptr _ _ := none
  tagstr _ _ := none
  inode _ _ := none
  zRoot _ _ := none
  umDev _ _ := none
  cdpInode _ _ := none

/-- All reads of entries succeed. -/
def serving (_ : Nat) (a : BitVec 64) : Except VmMapEntry VmMapEntry := .ok (oneEntry a)

/-- The reads of entries after the second read of the process fail. -/
def failing (i : Nat) (a : BitVec 64) : Except VmMapEntry VmMapEntry :=
  if i ≤ 1 then .ok (oneEntry a) else .error { oneEntry a with next := a }

/-- A process that has the server open. -/
def walkingProcess : Process := { suid := Suid.opened 20 2 }

theorem circle_oneEntry : Circle (linkAt oneEntry) 8 [16] where
  nodup := by decide
  leads := by decide

theorem glibtopGetProcMapP_serving_ends :
    (glibtopGetProcMapP (oneEntryKernel serving) 2 1).run walkingProcess ≠ .error .running :=
  have hs : Serves (oneEntryKernel serving) oneEntry :=
    { ok := fun _ _ _ h ↦ (Except.ok.inj h).symm
      error := fun _ _ _ h ↦ absurd h nofun }
  have he : Entered (oneEntryKernel serving) walkingProcess 1 8 :=
    { pid_ne := by decide
      found := ⟨1, 4, _, _, rfl, by decide, rfl, rfl, rfl⟩ }
  (glibtopGetProcMapP_ends_iff hs circle_oneEntry he).mpr fun _ _ _ _ _ _ ↦ trivial

/-- Where all reads of a node fail, the loop never passes it. -/
theorem run_walk_stuck {kernel : MapKernel} {first a : BitVec 64} {buffer : VmMapEntry}
    {maps : List MapEntry} {p : Process} (ha : buffer.next = a) (hf : a ≠ first)
    (hr : ∀ i, p.reads ≤ i → ∃ left, kernel.entry i a = .error left ∧ left.next = a)
    (fuel : Nat) : (walk kernel first fuel true buffer maps).run p = .error .running := by
  induction fuel generalizing buffer maps p with
  | zero => rfl
  | succ fuel ih =>
    obtain ⟨left, he, hl⟩ := hr p.reads le_rfl
    rw [run_walk_error ha he, if_neg (hl ▸ hf)]
    exact ih hl fun i hi ↦ hr i (Nat.le_of_succ_le hi)

/-- With the reads that fail, the loop over two nodes does not end in any number of turns. -/
theorem glibtopGetProcMapP_failing_runs_on :
    Serves (oneEntryKernel failing) oneEntry ∧ Circle (linkAt oneEntry) 8 [16] ∧
      Entered (oneEntryKernel failing) walkingProcess 1 8 ∧
      ¬∃ fuel, (glibtopGetProcMapP (oneEntryKernel failing) fuel 1).run walkingProcess ≠
        .error .running := by
  have hs : Serves (oneEntryKernel failing) oneEntry := by
    constructor <;> intro i a entry h <;> change failing i a = _ at h <;> rw [failing] at h <;>
      split at h
    · exact (Except.ok.inj h).symm
    · exact absurd h nofun
    · exact absurd h nofun
    · exact .inl (Except.error.inj h ▸ rfl)
  have he : Entered (oneEntryKernel failing) walkingProcess 1 8 :=
    { pid_ne := by decide
      found := ⟨1, 4, _, _, rfl, by decide, rfl, rfl, rfl⟩ }
  refine ⟨hs, circle_oneEntry, he, ?_⟩
  rintro ⟨fuel, hne⟩
  refine (run_glibtopGetProcMapP_iff hs he fuel).mp hne ?_
  cases fuel with
  | zero => rfl
  | succ fuel =>
    have hfirst : (walk (oneEntryKernel failing) 8 (fuel + 1) false (oneEntry 8) []).run
        (atLoop walkingProcess) = (walk (oneEntryKernel failing) 8 fuel true (oneEntry 8) []).run
          (atLoop walkingProcess) := rfl
    have hstuck : ∀ i, (atLoop walkingProcess).reads ≤ i →
        ∃ left, (oneEntryKernel failing).entry i 16 = .error left ∧ left.next = 16 :=
      fun i hi ↦ ⟨{ oneEntry 16 with next := 16 }, if_neg (Nat.not_le.mpr hi), rfl⟩
    rw [hfirst]
    exact run_walk_stuck rfl (by decide) hstuck fuel

end LibGTop.FreeBsd
