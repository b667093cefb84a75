import LibGTop.Base.Sums
import LibGTop.Darwin.ProcMem

/-!
# The shared objects of a process on Darwin

The totals of `glibtop_get_proc_mem_p` (`sysdeps/darwin/procmem.c:121–245`) against a reference
without a table, in which each registered object is counted once. The reference counts of the nodes
are of 32 bits.
-/

namespace LibGTop.Darwin

open Base

variable {w : Nat} (mach : MachConstants w)

/-! ### What a region adds by itself -/

/-- The number of bytes of a number of pages. -/
def bytesOf (pages : BitVec 32) : Nat := pages.toNat * mach.vmPageSize.toNat

/-- A region is accounted by its share mode unless it is in the segments and not private. -/
def isAccounted (r : Region w) : Bool := !inSegments mach r || r.shareMode = smPrivate

/-- The object of a region is registered. -/
def isRegistered (r : Region w) : Bool :=
  isAccounted mach r && (r.shareMode = smCow && r.refCount ≠ 1 || r.shareMode = smShared)

/-- An empty region of the segments that is reserved. -/
def isSplit (r : Region w) : Bool := inSegments mach r && r.shareMode = smEmpty && r.reserved

/-- The private bytes of a region itself. -/
def privOf (r : Region w) : Nat :=
  if r.shareMode = smCow ∧ r.refCount = 1 ∧ isAccounted mach r then
    bytesOf mach r.privatePagesResident + bytesOf mach r.sharedPagesResident
  else if r.shareMode = smPrivate then bytesOf mach r.privatePagesResident
  else 0

/-- The private virtual bytes of a region itself. -/
def vprivateOf (r : Region w) : Nat :=
  if r.shareMode = smCow ∧ isAccounted mach r then
    if r.refCount = 1 then r.size.toNat else bytesOf mach r.privatePagesResident
  else if r.shareMode = smPrivate then r.size.toNat
  else 0

/-! ### The reference -/

/-- The regions whose object is registered. -/
def registered (regions : List (Region w)) : List (Region w) :=
  regions.filter (isRegistered mach)

/-- The registered objects, each by its first region. -/
def objects (regions : List (Region w)) : List (Region w) :=
  firstsBy (·.objId) (registered mach regions)

/-- The number of the registered regions of an object. -/
def taskRefs (regions : List (Region w)) (object : Region w) : Nat :=
  (registered mach regions).countP (·.objId = object.objId)

/-- An object is private where it is shared and all references to it are of the task, by how a
number of references and a number of regions are compared. -/
def isOwn (same : BitVec 32 → Nat → Bool) (regions : List (Region w)) (object : Region w) : Bool :=
  object.shareMode = smShared && same object.refCount (taskRefs mach regions object)

/-- The numbers are the same. -/
def sameNumber (refCount : BitVec 32) (taskRefs : Nat) : Bool := refCount.toNat = taskRefs

/-- The numbers are the same as an `unsigned`. -/
def sameWord (refCount : BitVec 32) (taskRefs : Nat) : Bool := refCount = BitVec.ofNat 32 taskRefs

/-- The totals in which each object is counted once. -/
def referenceTotals (same : BitVec 32 → Nat → Bool) (regions : List (Region w)) : MemTotals w where
  priv := BitVec.ofNat w <| sumOf (privOf mach) regions +
    sumOf (fun r ↦ if isOwn mach same regions r then bytesOf mach r.sharedPagesResident else 0)
      (objects mach regions)
  vprivate := BitVec.ofNat w <| sumOf (vprivateOf mach) regions +
    sumOf (fun r ↦ if isOwn mach same regions r then r.size.toNat else 0) (objects mach regions)
  shared := BitVec.ofNat w <|
    sumOf (fun r ↦ if isOwn mach same regions r then 0 else bytesOf mach r.sharedPagesResident)
      (objects mach regions)

/-- The call returns, with the totals of the reference, and frees each node once. -/
def TotalsRight (same : BitVec 32 → Nat → Bool) (basic : TaskBasicInfo w)
    (regions : List (Region w)) : Prop :=
  ∃ run, glibtopGetProcMemP mach (some basic) regions = some run ∧
    run.buf = memReport mach basic (regions.any (isSplit mach))
      (referenceTotals mach same regions) ∧
    run.freed.Perm run.obtained

/-! ### The loop over the regions -/

section

variable {mach}

theorem add_pagesBytes (s : BitVec w) (pages : BitVec 32) :
    s + pagesBytes mach pages = s + BitVec.ofNat w (bytesOf mach pages) := by
  rw [pagesBytes, bytesOf, BitVec.ofNat_mul, BitVec.ofNat_toNat, BitVec.ofNat_toNat,
    BitVec.setWidth_eq]

theorem accountMode_eq (s : Accounts w) {r : Region w} (hr : isAccounted mach r) :
    accountMode mach s r =
      (if isRegistered mach r then sharedTableRegister r s.table else some s.table).map fun table ↦
        { table
          split := s.split
          priv := s.priv + BitVec.ofNat w (privOf mach r)
          vprivate := s.vprivate + BitVec.ofNat w (vprivateOf mach r) } := by
  have hpc : smPrivate ≠ smCow := by decide
  have hsc : smShared ≠ smCow := by decide
  have hsp : smShared ≠ smPrivate := by decide
  by_cases hcow : r.shareMode = smCow
  · by_cases hone : r.refCount = 1#32
    · simp [accountMode, isRegistered, privOf, vprivateOf, hcow, hone, hr, hsc.symm,
        BitVec.ofNat_add, add_pagesBytes, BitVec.add_assoc, BitVec.setWidth_eq]
    · simp [accountMode, isRegistered, privOf, vprivateOf, hcow, hone, hr, hpc.symm,
        add_pagesBytes, Option.map_eq_bind]
  · by_cases hprivate : r.shareMode = smPrivate
    · simp [accountMode, isRegistered, privOf, vprivateOf, hprivate, hpc, hsp.symm, add_pagesBytes,
        BitVec.setWidth_eq]
    · by_cases hshared : r.shareMode = smShared
      · simp [accountMode, isRegistered, privOf, vprivateOf, hr, hshared, hsc, hsp,
          Option.map_eq_bind]
      · simp [accountMode, isRegistered, privOf, vprivateOf, hcow, hprivate, hshared]

theorem setSplit (s : Accounts w) (a b : Bool) :
    (if !s.split && a && b then { s with split := true } else s) =
      { s with split := s.split || a && b } := by
  obtain ⟨table, split, priv, vprivate⟩ := s
  cases split <;> cases a <;> cases b <;> rfl

/-- What one region does to the variables. -/
theorem account_eq (s : Accounts w) (r : Region w) :
    account mach s r =
      (if isRegistered mach r then sharedTableRegister r s.table else some s.table).map fun table ↦
        { table
          split := s.split || isSplit mach r
          priv := s.priv + BitVec.ofNat w (privOf mach r)
          vprivate := s.vprivate + BitVec.ofNat w (vprivateOf mach r) } := by
  have hpe : smPrivate ≠ smEmpty := by decide
  by_cases hin : inSegments mach r
  · by_cases hprivate : r.shareMode = smPrivate
    · have hr : isAccounted mach r := by simp [isAccounted, hprivate]
      have hs : isSplit mach r = false := by simp [isSplit, hprivate, hpe]
      simp [account, hin, hprivate, hpe, accountMode_eq s hr, hs]
    · have hr : isAccounted mach r = false := by simp [isAccounted, hprivate, hin]
      have hs : isSplit mach r = (decide (r.shareMode = smEmpty) && r.reserved) := by
        simp [isSplit, hin]
      rw [account, if_pos hin, if_pos hprivate, setSplit]
      simp [isRegistered, hr, hs, privOf, vprivateOf, hprivate]
  · have hr : isAccounted mach r := by simp [isAccounted, hin]
    have hs : isSplit mach r = false := by simp [isSplit, hin]
    simp [account, hin, accountMode_eq s hr, hs]

/-- The variables when some of the regions have been accounted. -/
structure Accounted (mach : MachConstants w) (s : Accounts w) (regions : List (Region w)) :
    Prop where
  table : (sharedTable w).Holds s.table
    (TableLayout.counted (·.objId) sharedInfo (registered mach regions))
  split : s.split = regions.any (isSplit mach)
  priv : s.priv = BitVec.ofNat w (sumOf (privOf mach) regions)
  vprivate : s.vprivate = BitVec.ofNat w (sumOf (vprivateOf mach) regions)

theorem counting_sharedTable :
    TableLayout.Counting (sharedTable w) (·.objId) sharedInfo addTaskRef where
  key_entry _ _ := rfl
  again_entry r n := by
    simp [addTaskRef, sharedInfo, BitVec.ofNat_add]
  key_again _ := rfl

theorem accounted_nil : Accounted mach (startAccounts w) [] where
  table := TableLayout.holds_empty
  split := rfl
  priv := rfl
  vprivate := rfl

/-- A region with an object is accounted. -/
theorem Accounted.account {s : Accounts w} {regions : List (Region w)}
    (h : Accounted mach s regions) {r : Region w} (hr : r.objId ≠ 0) :
    ∃ s', account mach s r = some s' ∧ Accounted mach s' (regions ++ [r]) := by
  have htable : ∃ table, (if isRegistered mach r then sharedTableRegister r s.table
        else some s.table) = some table ∧ (sharedTable w).Holds table
      (TableLayout.counted (·.objId) sharedInfo (registered mach (regions ++ [r]))) := by
    rw [registered, List.filter_append, List.filter_singleton]
    cases isRegistered mach r with
    | false => exact ⟨s.table, rfl, by simpa [registered] using h.table⟩
    | true =>
      obtain ⟨table, hregister, hholds⟩ :=
        h.table.register (sharedInfo r 1) counting_sharedTable.key_again hr.symm
      rw [counting_sharedTable.noted_counted] at hholds
      exact ⟨table, hregister, hholds⟩
  obtain ⟨table, hregister, hholds⟩ := htable
  refine ⟨_, by rw [account_eq, hregister, Option.map_some], hholds, ?_, ?_, ?_⟩
  · rw [h.split, List.any_append, List.any_cons, List.any_nil, Bool.or_false]
  · rw [h.priv, sumOf_append, sumOf_cons, sumOf_nil, Nat.add_zero, BitVec.ofNat_add]
  · rw [h.vprivate, sumOf_append, sumOf_cons, sumOf_nil, Nat.add_zero, BitVec.ofNat_add]

/-- All regions are accounted. -/
theorem foldlM_account (mach : MachConstants w) {regions : List (Region w)}
    (hr : ∀ r ∈ regions, r.objId ≠ 0) :
    ∃ s, regions.foldlM (account mach) (startAccounts w) = some s ∧
      Accounted mach s regions := by
  induction regions using List.reverseRecOn with
  | nil => exact ⟨_, rfl, accounted_nil⟩
  | append_singleton regions r ih =>
    obtain ⟨s, hs, haccounted⟩ := ih fun x hx ↦ hr x (List.mem_append_left _ hx)
    obtain ⟨s', hs', haccounted'⟩ :=
      haccounted.account (hr r (List.mem_append_right _ List.mem_cons_self))
    refine ⟨s', ?_, haccounted'⟩
    rw [List.foldlM_append, hs, Option.bind_eq_bind, Option.bind_some, List.foldlM_cons, hs']
    rfl

/-! ### The sum over the table -/

/-- A node is counted as private. -/
def isOwnNode (sinfo : SharedInfo w) : Bool :=
  sinfo.shareMode = smShared && sinfo.refCount = sinfo.taskRefCount

theorem addNode_eq (s : MemTotals w) (sinfo : SharedInfo w) :
    addNode mach s sinfo =
      { priv := s.priv +
          BitVec.ofNat w (if isOwnNode sinfo then bytesOf mach sinfo.pageCount else 0)
        vprivate := s.vprivate + BitVec.ofNat w (if isOwnNode sinfo then sinfo.size.toNat else 0)
        shared := s.shared +
          BitVec.ofNat w (if isOwnNode sinfo then 0 else bytesOf mach sinfo.pageCount) } := by
  by_cases h : sinfo.shareMode = smShared ∧ sinfo.refCount = sinfo.taskRefCount
  · have hown : isOwnNode sinfo := by simp [isOwnNode, h]
    simp [addNode, h, hown, add_pagesBytes, BitVec.setWidth_eq]
  · have hown : isOwnNode sinfo = false := by simpa [isOwnNode] using h
    simp [addNode, h, hown, add_pagesBytes]

theorem foldl_addNode (nodes : List (SharedInfo w)) (s : MemTotals w) :
    nodes.foldl (addNode mach) s =
      { priv := s.priv + BitVec.ofNat w
          (sumOf (fun sinfo ↦ if isOwnNode sinfo then bytesOf mach sinfo.pageCount else 0) nodes)
        vprivate := s.vprivate + BitVec.ofNat w
          (sumOf (fun sinfo ↦ if isOwnNode sinfo then sinfo.size.toNat else 0) nodes)
        shared := s.shared + BitVec.ofNat w
          (sumOf (fun sinfo ↦ if isOwnNode sinfo then 0 else bytesOf mach sinfo.pageCount)
            nodes) } := by
  induction nodes generalizing s with
  | nil => simp
  | cons sinfo nodes ih =>
    rw [List.foldl_cons, ih, addNode_eq]
    simp only [sumOf_cons, BitVec.ofNat_add, BitVec.add_assoc]

/-- The nodes of the table are summed as the reference has it, with the counts as they are there. -/
theorem foldAll_addNode {s : Accounts w} {regions : List (Region w)}
    (h : Accounted mach s regions) :
    (sharedTable w).foldAll (addNode mach) ⟨s.priv, s.vprivate, 0⟩ s.table =
      some (referenceTotals mach sameWord regions) := by
  have hhead : ∀ totals : MemTotals w, addNode mach totals (sharedTable w).head = totals := by
    intro totals
    have hown : isOwnNode (sharedTable w).head = false := rfl
    have hpages : bytesOf mach (sharedTable w).head.pageCount = 0 := Nat.zero_mul _
    rw [addNode_eq, hown, hpages]
    simp
  obtain ⟨order, horder, hfold⟩ := h.table.foldAll hhead ⟨s.priv, s.vprivate, 0⟩
  rw [hfold, foldl_addNode, sumOf_perm _ horder, sumOf_perm _ horder, sumOf_perm _ horder,
    TableLayout.counted, sumOf_map, sumOf_map, sumOf_map, h.priv, h.vprivate]
  refine congrArg some ?_
  rw [referenceTotals, BitVec.ofNat_add, BitVec.ofNat_add]
  have hzero : ∀ a : BitVec w, 0 + a = a := BitVec.zero_add
  rw [hzero]
  rfl

/-- The counts of the table are those of the reference as an `unsigned`. -/
theorem totalsRight_sameWord (mach : MachConstants w) (basic : TaskBasicInfo w)
    {regions : List (Region w)} (hr : ∀ r ∈ regions, r.objId ≠ 0) :
    TotalsRight mach sameWord basic regions := by
  obtain ⟨s, hs, haccounted⟩ := foldlM_account mach hr
  obtain ⟨rest, freed, hrelease, hperm⟩ := haccounted.table.releaseBehind
  rw [sharedTable_size] at hrelease hperm
  refine ⟨⟨memReport mach basic s.split (referenceTotals mach sameWord regions),
    List.range' sharedTableSize (s.table.fresh - sharedTableSize), freed⟩, ?_, ?_, ?_⟩
  · simp only [glibtopGetProcMemP, hs, Option.bind_eq_bind, Option.bind_some,
      foldAll_addNode haccounted, hrelease]
  · rw [haccounted.split]
  · dsimp only
    exact hperm

/-- Below 2 ^ 32 regions an `unsigned` has their number. -/
theorem isOwn_sameWord_eq {regions : List (Region w)} {object : Region w}
    (h : taskRefs mach regions object < 2 ^ 32) :
    isOwn mach sameWord regions object = isOwn mach sameNumber regions object := by
  have hsame : sameWord object.refCount (taskRefs mach regions object) =
      sameNumber object.refCount (taskRefs mach regions object) := by
    rw [sameWord, sameNumber, decide_eq_decide, ← BitVec.toNat_inj, BitVec.toNat_ofNat,
      Nat.mod_eq_of_lt h]
  rw [isOwn, isOwn, hsame]

theorem referenceTotals_sameWord {regions : List (Region w)}
    (h : ∀ r ∈ regions, taskRefs mach regions r < 2 ^ 32) :
    referenceTotals mach sameWord regions = referenceTotals mach sameNumber regions := by
  have hown : ∀ r ∈ objects mach regions,
      isOwn mach sameWord regions r = isOwn mach sameNumber regions r := by
    intro r hr
    have hmem : r ∈ regions := (List.mem_filter.mp (mem_of_mem_firstsBy _ hr)).1
    exact isOwn_sameWord_eq (h r hmem)
  have hsum : ∀ f g : Region w → Nat,
      sumOf (fun r ↦ if isOwn mach sameWord regions r then f r else g r) (objects mach regions) =
        sumOf (fun r ↦ if isOwn mach sameNumber regions r then f r else g r)
          (objects mach regions) :=
    fun f g ↦ sumOf_congr fun r hr ↦ by rw [hown r hr]
  rw [referenceTotals, referenceTotals, hsum, hsum, hsum]

end

/-- For each sequence of regions the totals are those in which each registered object is counted
once, and private where its references are all of the task as an `unsigned` counts them, which is
their number below 2 ^ 32 regions; each node is freed once. -/
theorem proc_mem_totals (basic : TaskBasicInfo w) (regions : List (Region w))
    (hr : ∀ r ∈ regions, r.objId ≠ 0) :
    TotalsRight mach sameWord basic regions ∧
      ((∀ r ∈ regions, taskRefs mach regions r < 2 ^ 32) →
        TotalsRight mach sameNumber basic regions) := by
  have hword := totalsRight_sameWord mach basic hr
  refine ⟨hword, fun hrefs ↦ ?_⟩
  rw [TotalsRight, ← referenceTotals_sameWord hrefs]
  exact hword

/-- The constants on a machine of 64 bits with pages of 4096 bytes. -/
def machConstants64 : MachConstants 64 := ⟨4096, 0x90000000, 0xb0000000⟩

/-- Three regions of two objects in one bucket, the first of them all of the task. -/
def collidingRegions : List (Region 64) :=
  [⟨0x1000, 0x1000, false, 1, 2, 0, 1, smShared⟩, ⟨0x2000, 0x1000, false, 138, 3, 1, 1, smCow⟩,
    ⟨0x3000, 0x1000, false, 1, 2, 0, 1, smShared⟩]

theorem proc_mem_totals_colliding :
    TotalsRight machConstants64 sameNumber ⟨0x100000, 0x4000⟩ collidingRegions :=
  (proc_mem_totals machConstants64 ⟨0x100000, 0x4000⟩ collidingRegions (by decide)).2 (by decide)

/-! ### More regions than an `unsigned` counts -/

/-- A page of one object that is shared, the one with this number. -/
def sharedPage (k : Nat) : Region 64 where
  address := BitVec.ofNat 64 (2 ^ 33 + 4096 * k)
  size := 4096
  reserved := false
  objId := 1
  refCount := 0
  privatePagesResident := 0
  sharedPagesResident := 1
  shareMode := smShared

theorem isRegistered_sharedPage {k : Nat} (hk : k < 2 ^ 32) :
    isRegistered machConstants64 (sharedPage k) := by
  have haddress : (sharedPage k).address.toNat = 2 ^ 33 + 4096 * k :=
    (BitVec.toNat_ofNat _ _).trans (Nat.mod_eq_of_lt (by omega))
  have hend : machConstants64.dataSegmentEnd.toNat < 2 ^ 33 := by decide
  have hin : inSegments machConstants64 (sharedPage k) = false := by
    rw [inSegments, Bool.and_eq_false_iff]
    refine Or.inr (decide_eq_false ?_)
    rw [BitVec.lt_def, haddress]
    omega
  rw [isRegistered, isAccounted, hin]
  rfl

/-- The shared bytes of the reference for so many pages. -/
theorem shared_sharedPages (same : BitVec 32 → Nat → Bool) {n : Nat} (hpos : 0 < n)
    (hn : n ≤ 2 ^ 32) :
    (referenceTotals machConstants64 same ((List.range n).map sharedPage)).shared =
      if same 0 n then 0 else 4096 := by
  have hregistered : registered machConstants64 ((List.range n).map sharedPage) =
      (List.range n).map sharedPage := by
    refine List.filter_eq_self.mpr fun r hr ↦ ?_
    obtain ⟨k, hk, rfl⟩ := List.mem_map.mp hr
    exact isRegistered_sharedPage (Nat.lt_of_lt_of_le (List.mem_range.mp hk) hn)
  have hobjects : objects machConstants64 ((List.range n).map sharedPage) = [sharedPage 0] := by
    obtain ⟨m, rfl⟩ := Nat.exists_eq_succ_of_ne_zero (Nat.ne_of_gt hpos)
    rw [objects, hregistered, List.range_succ_eq_map, List.map_cons]
    refine firstsBy_eq_singleton _ fun r hr ↦ ?_
    obtain ⟨k, -, rfl⟩ := List.mem_map.mp hr
    rfl
  have hrefs : taskRefs machConstants64 ((List.range n).map sharedPage) (sharedPage 0) = n := by
    have hall : ∀ r ∈ (List.range n).map sharedPage,
        decide (r.objId = (sharedPage 0).objId) = true := by
      intro r hr
      obtain ⟨k, -, rfl⟩ := List.mem_map.mp hr
      rfl
    rw [taskRefs, hregistered, List.countP_eq_length.mpr hall, List.length_map, List.length_range]
  have hown : isOwn machConstants64 same ((List.range n).map sharedPage) (sharedPage 0) =
      same 0 n := by
    rw [isOwn, hrefs]
    rfl
  simp only [referenceTotals, hobjects, sumOf_cons, sumOf_nil, hown]
  cases same 0 n <;> rfl

/-- 2 ^ 32 pages of an object without references are counted as private. -/
theorem proc_mem_totals_wrapped :
    ¬TotalsRight machConstants64 sameNumber ⟨0, 0⟩ ((List.range (2 ^ 32)).map sharedPage) := by
  intro h
  have hr : ∀ r ∈ (List.range (2 ^ 32)).map sharedPage, r.objId ≠ 0 := by
    intro r hr
    obtain ⟨k, -, rfl⟩ := List.mem_map.mp hr
    show (1 : BitVec 32) ≠ 0
    decide
  have hword := totalsRight_sameWord machConstants64 ⟨0, 0⟩ hr
  generalize hregions : (List.range (2 ^ 32)).map sharedPage = regions at h hword
  obtain ⟨run, hrun, hbuf, -⟩ := h
  obtain ⟨run', hrun', hbuf', -⟩ := hword
  have hsame : run' = run := Option.some.inj (hrun'.symm.trans hrun)
  subst hsame
  have hshare := congrArg Bsd.ProcMem.share (hbuf'.symm.trans hbuf)
  have hpos : 0 < 2 ^ 32 := by decide
  rw [memReport, memReport] at hshare
  dsimp only at hshare
  rw [← hregions, shared_sharedPages _ hpos (Nat.le_refl _),
    shared_sharedPages _ hpos (Nat.le_refl _)] at hshare
  exact absurd hshare (by decide)

end LibGTop.Darwin
