import LibGTop.Base.Circles
import LibGTop.Bsd.ProcMem

/-!
# The entries that the walks over a memory map visit

Over the circular list of a process, from the first entry through the others to the head, the loop
of `glibtop_get_proc_map_p` (`sysdeps/bsd/procmap.c:163–302`) turns to all of its nodes, and the
loop of `glibtop_get_proc_mem_p` (`sysdeps/bsd/procmem.c:208–289`) to all but the first one. Every
read of the kernel succeeds here. -/

namespace LibGTop.Bsd

open Base
open Linux (ProcMap)

/-- The map of a process in the memory of the kernel: its first entry, the other ones and the head.
-/
structure AddressSpace where
  entry : BitVec 64 → VmMapEntry
  vnode : BitVec 64 → MemVnode
  inode : BitVec 64 → Inode
  first : BitVec 64
  others : List (BitVec 64)
  head : BitVec 64
  circle : Circle (fun a ↦ (entry a).next) first (others ++ [head])
  nentries : BitVec 64
  uvmVnodeValid : Option (BitVec 32)

namespace AddressSpace

variable (s : AddressSpace)

/-- The link of the entry at an address. -/
def link (a : BitVec 64) : BitVec 64 := (s.entry a).next

/-- What the kernel answers to the reads for the map. -/
def mapKernel (vmspace : BitVec 64) : MapKernel where
  procs := some (1, vmspace)
  vmspace _ _ := some { first := s.first, nentries := s.nentries }
  entry _ a := some (s.entry a)
  vnode _ a := some (s.vnode a).toVnode
  inode _ a := some (s.inode a)
  uvmVnodeValid := s.uvmVnodeValid

/-- What the kernel answers to the reads for the memory. -/
def memKernel (pinfo : KinfoMem) (rlimit : BitVec 64) : MemKernel where
  procs := some (1, pinfo)
  plimit _ _ := some rlimit
  vmspace _ _ := some { first := s.first, nentries := s.nentries }
  entry _ a := some (s.entry a)
  vnode _ a := some (s.vnode a)
  uvmVnodeValid := s.uvmVnodeValid

/-- The mapping at an address, if a vnode of a file backs it. -/
def mapping (a : BitVec 64) : Option MapEntry :=
  let entry := s.entry a
  let vnode := s.vnode entry.object
  let inode := s.inode vnode.data
  if entry.isSubMap then none
  else if entry.object = 0 then none
  else if notValid s.uvmVnodeValid vnode.toVnode then none
  else if vnode.type ≠ .vreg ∨ vnode.isUfs = false ∨ vnode.data = 0 then none
  else some (mapEntryOf entry inode.number inode.dev)

/-- The bytes that the mapping at an address shares. -/
def share (pageshift : Nat) (a : BitVec 64) : BitVec 64 :=
  let entry := s.entry a
  if entry.isSubMap then 0
  else if entry.object = 0 then 0
  else shareOf pageshift s.uvmVnodeValid (s.vnode entry.object)

/-- The addresses of the entries. -/
def entries : List (BitVec 64) := s.first :: s.others

/-- The number of the nodes, with the head. -/
def nodes : Nat := (s.entries ++ [s.head]).length

end AddressSpace

/-- The sum of numbers. -/
def total (numbers : List (BitVec 64)) : BitVec 64 := numbers.foldl (· + ·) 0

theorem total_append_singleton (numbers : List (BitVec 64)) (b : BitVec 64) :
    total (numbers ++ [b]) = total numbers + b := by
  rw [total, List.foldl_append]
  rfl

/-- A number that the sum starts from may be added at the end. -/
theorem foldl_add_start (numbers : List (BitVec 64)) (a b : BitVec 64) :
    numbers.foldl (· + ·) (a + b) = numbers.foldl (· + ·) a + b := by
  induction numbers generalizing a with
  | nil => rfl
  | cons c numbers ih =>
    rw [List.foldl_cons, List.foldl_cons, ← ih, BitVec.add_assoc, BitVec.add_comm b c,
      ← BitVec.add_assoc]

theorem total_cons (b : BitVec 64) (numbers : List (BitVec 64)) :
    total (b :: numbers) = total numbers + b := foldl_add_start numbers 0 b

section

variable {s : AddressSpace} {vmspace : BitVec 64} {pinfo : KinfoMem} {rlimit : BitVec 64}
  {pageshift : Nat}

/-- A turn of the loop for the map adds the mapping of its entry. -/
theorem run_mapTurn (a : BitVec 64) (p : Process) :
    ∃ p', (mapTurn (s.mapKernel vmspace) (s.entry a)).run p = .ok (.next (s.mapping a), p') := by
  unfold mapTurn AddressSpace.mapping
  dsimp only
  split
  · exact ⟨p, rfl⟩
  split
  · exact ⟨p, rfl⟩
  rw [run_kvmRead_bind]
  change ∃ p', StateT.run (if notValid s.uvmVnodeValid (s.vnode (s.entry a).object).toVnode then _
    else _) _ = _
  split
  · exact ⟨_, rfl⟩
  split
  · exact ⟨_, rfl⟩
  · exact ⟨_, rfl⟩

/-- A turn of the loop for the memory adds the bytes that its entry shares. -/
theorem run_memTurn (a : BitVec 64) (p : Process) :
    ∃ p', (memTurn (s.memKernel pinfo rlimit) pageshift (s.entry a)).run p =
      .ok (some (s.share pageshift a), p') := by
  unfold memTurn AddressSpace.share
  dsimp only
  split
  · exact ⟨p, rfl⟩
  split
  · exact ⟨p, rfl⟩
  · exact ⟨_, rfl⟩

theorem filterMap_cons_eq {α β : Type} (f : α → Option β) (a : α) (l : List α) :
    (a :: l).filterMap f = (f a).toList ++ l.filterMap f := by
  rw [List.filterMap_cons]
  cases f a <;> rfl

/-- The loop for the map turns to the nodes that are visited when the link is tested behind each. -/
theorem run_walk {fuel : Nat} {update : Bool} {a : BitVec 64} {buffer : VmMapEntry}
    {maps : List MapEntry} {p q : Process}
    (hb : (nextEntry (s.mapKernel vmspace) update buffer).run p = .ok (s.entry a, q))
    {visited : List (BitVec 64)} (hv : visitsDo s.link s.first fuel a = some visited) :
    ∃ p', (walk (s.mapKernel vmspace) s.first fuel update buffer maps).run p =
      .ok (some (maps ++ visited.filterMap s.mapping), p') := by
  induction fuel generalizing update a buffer maps p q visited with
  | zero => exact absurd hv nofun
  | succ fuel ih =>
    obtain ⟨r, ht⟩ := @run_mapTurn s vmspace a q
    rw [visitsDo] at hv
    rw [walk, run_bind_of_ok hb, run_bind_of_ok ht]
    change ∃ p', (if s.link a = s.first then
      pure (some (maps ++ (s.mapping a).toList)) else _ : Prog Process _).run r = _
    split at hv
    · next hl =>
      obtain rfl := Option.some.inj hv
      rw [if_pos hl]
      rw [filterMap_cons_eq, List.filterMap_nil, List.append_nil]
      exact ⟨r, rfl⟩
    · next hl =>
      obtain ⟨others, ho, rfl⟩ := Option.map_eq_some_iff.mp hv
      obtain ⟨p', hr⟩ := @ih true (s.link a) (s.entry a) (maps ++ (s.mapping a).toList) r _ rfl
        others ho
      refine ⟨p', ?_⟩
      rw [if_neg hl, hr, filterMap_cons_eq, List.append_assoc]

/-- The loop for the memory turns to the nodes that are visited when the link is tested before each.
-/
theorem run_memWalk {fuel : Nat} {a : BitVec 64} {sum : BitVec 64} {p : Process}
    {visited : List (BitVec 64)} (hv : visitsWhile s.link s.first fuel a = some visited) :
    ∃ p', (memWalk (s.memKernel pinfo rlimit) pageshift s.first fuel (s.entry a) sum).run p =
      .ok (((visited.map (s.share pageshift)).foldl (· + ·) sum, true), p') := by
  induction fuel generalizing a sum p visited with
  | zero => exact absurd hv nofun
  | succ fuel ih =>
    rw [visitsWhile] at hv
    rw [memWalk]
    change ∃ p', (if s.link a = s.first then pure (sum, true) else _ : Prog Process _).run p = _
    split at hv
    · next hl =>
      obtain rfl := Option.some.inj hv
      rw [if_pos hl]
      exact ⟨p, rfl⟩
    · next hl =>
      obtain ⟨others, ho, rfl⟩ := Option.map_eq_some_iff.mp hv
      obtain ⟨r, ht⟩ := @run_memTurn s pinfo rlimit pageshift (s.link a)
        { p with reads := p.reads + 1 }
      obtain ⟨p', hr⟩ := @ih (s.link a) (sum + s.share pageshift (s.link a)) r others ho
      refine ⟨p', ?_⟩
      rw [if_neg hl, run_kvmRead_bind]
      exact (run_bind_of_ok ht).trans hr

end

namespace AddressSpace

variable {s : AddressSpace} {vmspace : BitVec 64} {pinfo : KinfoMem} {rlimit : BitVec 64}
  {pageshift fuel : Nat} {pid : BitVec 32} {p : Process}

/-- The loop for the map turns to all nodes. -/
theorem visitsDo_nodes (hf : s.nodes ≤ fuel) :
    visitsDo s.link s.first fuel s.first = some (s.entries ++ [s.head]) :=
  visitsDo_eq s.circle.leads (List.nodup_cons.mp s.circle.nodup).1 hf

/-- The loop for the memory turns to all nodes but the first one. -/
theorem visitsWhile_nodes (hf : s.nodes ≤ fuel) :
    visitsWhile s.link s.first fuel s.first = some (s.others ++ [s.head]) :=
  visitsWhile_eq s.circle.leads (List.nodup_cons.mp s.circle.nodup).1 hf

/-- The map of these mappings. -/
def mapOf (s : AddressSpace) (nodes : List (BitVec 64)) : ProcMap × Option (List MapEntry) :=
  (procMapOf (BitVec.ofNat 64 (nodes.filterMap s.mapping).length), some (nodes.filterMap s.mapping))

/-- The memory with the bytes that these mappings share. -/
def memOf (s : AddressSpace) (pageshift : Nat) (rlimit : BitVec 64) (pinfo : KinfoMem)
    (nodes : List (BitVec 64)) : ProcMem :=
  { memSizes pageshift rlimit pinfo with
    share := total (nodes.map (s.share pageshift))
    flags := sysdepsProcMem }

theorem run_glibtopGetProcMapP (hp : pid ≠ 0) (hf : s.nodes ≤ fuel) :
    ∃ p', (glibtopGetProcMapP (s.mapKernel vmspace) fuel pid).run p =
      .ok (s.mapOf (s.entries ++ [s.head]), p') := by
  have hb (q : Process) : (nextEntry (s.mapKernel vmspace) false (s.entry s.first)).run q =
      .ok (s.entry s.first, q) := rfl
  obtain ⟨p', hr⟩ := @run_walk s vmspace fuel false s.first (s.entry s.first) [] _ _
    (hb { suid := p.suid.enter, reads := p.reads + 2 }) _ (visitsDo_nodes hf)
  refine ⟨p', ?_⟩
  rw [glibtopGetProcMapP, if_neg hp, run_suidEnter_bind]
  change (if (1 : Int) < 1 then _ else kvmRead (s.mapKernel vmspace).vmspace vmspace >>= _ :
    Prog Process _).run _ = _
  rw [if_neg (by decide), run_kvmRead_bind]
  refine (run_orExit_bind _ _ _).trans ?_
  rw [run_kvmRead_bind]
  refine (run_orExit_bind _ _ _).trans ?_
  exact run_bind_of_ok hr

theorem run_glibtopGetProcMemP (hp : pid ≠ 0) (hf : s.nodes ≤ fuel) :
    ∃ p', (glibtopGetProcMemP (s.memKernel pinfo rlimit) pageshift fuel pid).run p =
      .ok (s.memOf pageshift rlimit pinfo (s.others ++ [s.head]), p') := by
  obtain ⟨p', hr⟩ := @run_memWalk s pinfo rlimit pageshift fuel s.first 0
    { p with reads := p.reads + 3 } _ (visitsWhile_nodes hf)
  refine ⟨p', ?_⟩
  rw [glibtopGetProcMemP, if_neg hp]
  change (if (1 : Int) < 1 then _
    else kvmRead (s.memKernel pinfo rlimit).plimit pinfo.vmspace >>= _ : Prog Process _).run _ = _
  rw [if_neg (by decide), run_kvmRead_bind]
  change (kvmRead (s.memKernel pinfo rlimit).vmspace pinfo.vmspace >>= _ :
    Prog Process _).run _ = _
  rw [run_kvmRead_bind]
  change (kvmRead (s.memKernel pinfo rlimit).entry s.first >>= _ : Prog Process _).run _ = _
  rw [run_kvmRead_bind]
  exact run_bind_of_ok hr

/-- The results are those of the entries. -/
structure ReportsEntries (s : AddressSpace) (vmspace : BitVec 64) (pinfo : KinfoMem)
    (rlimit : BitVec 64) (pageshift fuel : Nat) (pid : BitVec 32) (p : Process) : Prop where
  map : ∃ p', (glibtopGetProcMapP (s.mapKernel vmspace) fuel pid).run p =
    .ok (s.mapOf s.entries, p')
  mem : ∃ p', (glibtopGetProcMemP (s.memKernel pinfo rlimit) pageshift fuel pid).run p =
    .ok (s.memOf pageshift rlimit pinfo s.entries, p')

/-- Both loops turn to each entry once, in their order, and to nothing else, and so the results are
those of the entries. -/
structure VisitsEntries (s : AddressSpace) (vmspace : BitVec 64) (pinfo : KinfoMem)
    (rlimit : BitVec 64) (pageshift fuel : Nat) (pid : BitVec 32) (p : Process) : Prop where
  map : visitsDo s.link s.first fuel s.first = some s.entries
  mem : visitsWhile s.link s.first fuel s.first = some s.entries
  reports : s.ReportsEntries vmspace pinfo rlimit pageshift fuel pid p

/-- The mappings are those of the entries if the head has none. -/
theorem mapOf_append_head_iff :
    s.mapOf (s.entries ++ [s.head]) = s.mapOf s.entries ↔ s.mapping s.head = none := by
  constructor
  · intro h
    have hl := Option.some.inj (Prod.mk.inj h).2
    rw [List.filterMap_append, List.append_right_eq_self] at hl
    exact List.filterMap_eq_nil_iff.mp hl s.head List.mem_cons_self
  · intro h
    rw [mapOf, List.filterMap_append, List.filterMap_cons_none h, List.filterMap_nil,
      List.append_nil]
    rfl

/-- The shares are those of the entries if the head has that of the first one. -/
theorem memOf_others_iff :
    s.memOf pageshift rlimit pinfo (s.others ++ [s.head]) =
        s.memOf pageshift rlimit pinfo s.entries ↔
      s.share pageshift s.head = s.share pageshift s.first := by
  have ht : total ((s.others ++ [s.head]).map (s.share pageshift)) =
      total (s.entries.map (s.share pageshift)) ↔
        s.share pageshift s.head = s.share pageshift s.first := by
    rw [List.map_append, List.map_singleton, total_append_singleton, entries, List.map_cons,
      total_cons, BitVec.add_right_inj]
  rw [← ht]
  exact ⟨congrArg ProcMem.share, fun h ↦ by rw [memOf, h]; rfl⟩

theorem reportsEntries_iff (hp : pid ≠ 0) (hf : s.nodes ≤ fuel) :
    s.ReportsEntries vmspace pinfo rlimit pageshift fuel pid p ↔
      s.mapping s.head = none ∧ s.share pageshift s.head = s.share pageshift s.first := by
  obtain ⟨q, hq⟩ := @run_glibtopGetProcMapP s vmspace fuel pid p hp hf
  obtain ⟨r, hr⟩ := @run_glibtopGetProcMemP s pinfo rlimit pageshift fuel pid p hp hf
  rw [← mapOf_append_head_iff, ← @memOf_others_iff s pinfo rlimit pageshift]
  constructor
  · rintro ⟨⟨q', hm⟩, ⟨r', hs⟩⟩
    exact ⟨(Prod.mk.inj (Except.ok.inj (hq.symm.trans hm))).1,
      (Prod.mk.inj (Except.ok.inj (hr.symm.trans hs))).1⟩
  · rintro ⟨hm, hs⟩
    exact ⟨⟨q, hm ▸ hq⟩, ⟨r, hs ▸ hr⟩⟩

/-- Neither loop turns to exactly the entries of any process: that for the map turns to the head as
well, and that for the memory to the head in place of the first entry. The results are those of the
entries if and only if the head has no mapping and shares as many bytes as the first entry does. -/
theorem not_visitsEntries (hp : pid ≠ 0) (hf : s.nodes ≤ fuel) :
    ¬s.VisitsEntries vmspace pinfo rlimit pageshift fuel pid p ∧
      visitsDo s.link s.first fuel s.first = some (s.entries ++ [s.head]) ∧
      visitsWhile s.link s.first fuel s.first = some (s.entries.tail ++ [s.head]) ∧
      (s.ReportsEntries vmspace pinfo rlimit pageshift fuel pid p ↔
        s.mapping s.head = none ∧ s.share pageshift s.head = s.share pageshift s.first) := by
  refine ⟨fun h ↦ ?_, visitsDo_nodes hf, visitsWhile_nodes hf, reportsEntries_iff hp hf⟩
  have hl := congrArg List.length (Option.some.inj ((visitsDo_nodes hf).symm.trans h.map))
  rw [List.length_append, List.length_singleton] at hl
  omega

end AddressSpace

/-- A map with one entry, of a vnode with five pages that two refer to. -/
def oneVnode : AddressSpace where
  entry a :=
    { next := if a = 8 then 16 else 8
      start := 0
      stop := 0
      offset := 0
      isSubMap := false
      object := if a = 8 then 100 else 0
      protection := 1 }
  vnode _ := { uFlags := 1, type := .vreg, isUfs := true, data := 200, usecount := 2, npages := 5 }
  inode _ := { number := 7, dev := 3 }
  first := 8
  others := []
  head := 16
  circle := { nodup := by decide, leads := by decide }
  nentries := 1
  uvmVnodeValid := some 4

/-- The process of this map. -/
def oneVnodeProcess : KinfoMem where
  vmspace := 4
  tsize := 1
  dsize := 1
  ssize := 1
  rssize := 2

theorem not_visitsEntries_oneVnode :
    ¬oneVnode.VisitsEntries 4 oneVnodeProcess 0 2 2 1 { suid := .opened 20 2 } :=
  (@AddressSpace.not_visitsEntries oneVnode 4 oneVnodeProcess 0 2 2 1 { suid := .opened 20 2 }
    (by decide) (by decide)).1

/-- The five pages are not in the sum. -/
theorem not_reportsEntries_oneVnode :
    ¬oneVnode.VisitsEntries 4 oneVnodeProcess 0 2 2 1 { suid := .opened 20 2 } ∧
      ¬oneVnode.ReportsEntries 4 oneVnodeProcess 0 2 2 1 { suid := .opened 20 2 } ∧
      (oneVnode.memOf 2 0 oneVnodeProcess (oneVnode.others ++ [oneVnode.head])).share = 0 ∧
      (oneVnode.memOf 2 0 oneVnodeProcess oneVnode.entries).share = 20480 := by
  have hr : ¬oneVnode.ReportsEntries 4 oneVnodeProcess 0 2 2 1 { suid := .opened 20 2 } := by
    rw [@AddressSpace.reportsEntries_iff oneVnode 4 oneVnodeProcess 0 2 2 1 { suid := .opened 20 2 }
      (by decide) (by decide)]
    exact fun h ↦ absurd h.2 (by decide)
  exact ⟨fun h ↦ hr h.reports, hr, by decide, by decide⟩

end LibGTop.Bsd
