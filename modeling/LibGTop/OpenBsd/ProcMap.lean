import LibGTop.OpenBsd.VmMapTree

/-!
# The memory map of a process

`glibtop_get_proc_map_p` of OpenBSD (`sysdeps/openbsd/procmap.c:174–314`), and what it finds of the
tree that it has copied: the copy has no links, and the local root stays a null pointer.
-/

namespace LibGTop.OpenBsd

open Base
open Bsd (Suid Vnode Inode MapEntry notValid sysdepsMapEntry permOf procMapOf)
open Linux (ProcMap)

/-- `glibtop_suid_enter (server)`. -/
def suidEnter : Prog Process Unit := modify fun p ↦ { p with suid := p.suid.enter }

/-- `glibtop_suid_leave (server)`. -/
def suidLeave : Prog Process Unit := do
  let p ← get
  let suid ← orExit p.suid.leave
  set { p with suid := suid }

/-- The entry that is appended to the array. -/
def mapEntryOf (entry : EntryData) (inode : Inode) : MapEntry :=
  { flags := sysdepsMapEntry
    start := entry.start
    stop := entry.stop
    offset := entry.offset
    device := inode.dev
    inode := inode.number
    perm := permOf entry.protection }

/-- The body of the loop, `sysdeps/openbsd/procmap.c:245–302`: what it appends, without a value
where it returns from the function. -/
def mapTurn (kernel : MapKernel) (entry : EntryData) : Prog Process (Option (Option MapEntry)) :=
  if entry.isSubMap then pure (some none)
  else if entry.object = 0 then pure (some none)
  else do
    match ← kvmRead kernel.vnode entry.object with
    | none => pure none
    | some vnode =>
      if notValid kernel.uvmVnodeValid vnode then pure (some none)
      else if vnode.type ≠ .vreg ∨ vnode.isUfs = false ∨ vnode.data = 0 then pure (some none)
      else do
        match ← kvmRead kernel.inode vnode.data with
        | none => pure none
        | some inode => pure (some (some (mapEntryOf entry inode)))

/-- The loop over the entries. -/
def collect (kernel : MapKernel) : List EntryData → List MapEntry →
    Prog Process (Option (List MapEntry))
  | [], maps => pure (some maps)
  | entry :: entries, maps => do
    match ← mapTurn kernel entry with
    | none => pure none
    | some added => collect kernel entries (maps ++ added.toList)

/-- The entries that `RBT_FOREACH` goes over from the local root. -/
def foreach (root : Nat) : Prog Process (List EntryData) := do
  let p ← get
  pure (inOrder p.blocks (p.blocks.length + 1) root)

/-- `glibtop_get_proc_map_p`, `sysdeps/openbsd/procmap.c:174–314`, of a server that is
initialised. -/
def glibtopGetProcMapP (kernel : MapKernel) (fuel : Nat) (pid : BitVec 32) :
    Prog Process (ProcMap × Option (List MapEntry)) :=
  if pid = 0 then pure ({}, none)
  else do
    suidEnter
    match kernel.procs with
    | none =>
      suidLeave
      pure ({}, none)
    | some vmspaceAddr =>
      match ← kvmRead kernel.vmspace vmspaceAddr with
      | none =>
        suidLeave
        pure ({}, none)
      | some kptr => do
        let (nentries, root) ← loadTree kernel fuel kptr
        if nentries = -1 then do
          unloadVmmapEntries fuel root
          throw .exited
        else do
          match ← collect kernel (← foreach root) [] with
          | none =>
            unloadVmmapEntries fuel root
            suidLeave
            pure (procMapOf (BitVec.ofInt 64 nentries), none)
          | some maps =>
            suidLeave
            unloadVmmapEntries fuel root
            pure (procMapOf (BitVec.ofNat 64 maps.length), some maps)

/-- What the copy is for: when it succeeds the local root leads to a copy of the tree, of which the
number of nodes is returned and which the loop goes over in their order; when it fails the root
leads to all blocks that were allocated for it. -/
structure CopiesTree (memory : BitVec 64 → VmMapEntry (BitVec 64)) (tree : BinaryTree (BitVec 64))
    (before after : Process) (size : Int) (root : Nat) : Prop where
  copied : size ≠ -1 → IsCopy memory after.blocks root tree
  counted : size ≠ -1 → size = tree.numNodes
  visited : size ≠ -1 → inOrder after.blocks (after.blocks.length + 1) root =
    (nodes tree).map fun a ↦ (memory a).data
  kept : size = -1 → ∀ pointer block, before.blocks.length < pointer →
    blockAt after.blocks pointer = some block → block ≠ .freed →
      Reachable after.blocks root pointer

section

variable {kernel : MapKernel} {memory : BitVec 64 → VmMapEntry (BitVec 64)} {fuel : Nat}
  {kptr : BitVec 64} {tree : BinaryTree (BitVec 64)} {blocks : List Block}

/-- Nothing is reached from a null pointer. -/
theorem not_reachable_null (target : Nat) : ¬Reachable blocks 0 target := by
  intro h
  cases h with
  | here pointer block found => exact Option.some_ne_none _ found.symm
  | left pointer target e found => exact Option.some_ne_none _ found.symm
  | right pointer target e found => exact Option.some_ne_none _ found.symm

/-- A null pointer leads to no tree but the empty one. -/
theorem isCopy_null_iff : IsCopy memory blocks 0 tree ↔ tree = .nil := by
  cases tree with
  | nil => exact iff_of_true rfl rfl
  | node a l r =>
    refine iff_of_false ?_ nofun
    rintro ⟨e, he, -⟩
    exact Option.some_ne_none _ he.symm

theorem inOrder_null (depth : Nat) : inOrder blocks depth 0 = [] := by
  cases depth <;> rfl

theorem run_loadTree {p p' : Process} {size : Int}
    (h : (loadVmmapEntries kernel fuel kptr 0 0).run p = .ok (size, p')) :
    (loadTree kernel fuel kptr).run p = .ok ((size, 0), p') := run_bind_of_ok h

theorem copyOf_ne_freed (parent : Nat) (e : VmMapEntry (BitVec 64)) : copyOf parent e ≠ .freed :=
  nofun

/-- Behind an entry that has been read its block is one that no link leads to. -/
theorem not_copiesTree {p p' : Process} {size : Int} {a : BitVec 64} {l r : BinaryTree (BitVec 64)}
    {block : Block} (hb : block ≠ .freed) (hp : p.blocks ++ [block] <+: p'.blocks) :
    ¬CopiesTree memory (.node a l r) p p' size 0 := by
  intro h
  by_cases hs : size = -1
  · obtain ⟨more, hm⟩ := hp
    have hat : blockAt p'.blocks (p.blocks.length + 1) = some block := by
      rw [blockAt, ← hm, List.append_assoc, List.getElem?_append_right le_rfl, Nat.sub_self]
      rfl
    exact not_reachable_null _ (h.kept hs _ block (Nat.lt_succ_self _) hat hb)
  · exact absurd (isCopy_null_iff.mp (h.copied hs)) nofun

/-- Where the blocks that are new are freed, a copy that failed has kept none. -/
theorem copiesTree_of_freed {p p' : Process} {root : Nat} {more : List Block}
    (hp : p'.blocks = p.blocks ++ more) (hf : ∀ block ∈ more, block = .freed) :
    CopiesTree memory tree p p' (-1) root where
  copied := fun h ↦ absurd rfl h
  counted := fun h ↦ absurd rfl h
  visited := fun h ↦ absurd rfl h
  kept := by
    rintro - pointer block hlt hat hb
    obtain ⟨n, rfl⟩ := Nat.exists_eq_succ_of_ne_zero (Nat.ne_zero_of_lt hlt)
    rw [blockAt, hp, List.getElem?_append_right (Nat.le_of_lt_succ hlt)] at hat
    exact absurd (hf block (List.mem_of_getElem? hat)) hb

/-- An empty tree is copied by the null pointer. -/
theorem loadTree_copies_nil (p : Process) :
    ∃ size root p', (loadTree kernel (fuel + 1) 0).run p = .ok ((size, root), p') ∧
      CopiesTree memory .nil p p' size root := by
  refine ⟨0, 0, p, ?_, ?_⟩
  · refine run_loadTree ?_
    rw [loadVmmapEntries, if_pos rfl]
    rfl
  · exact
      { copied := fun _ ↦ rfl
        counted := fun _ ↦ rfl
        visited := fun _ ↦ inOrder_null _
        kept := fun h ↦ absurd h (by decide) }

/-- Once its first node has been read a tree is not copied. -/
theorem not_loadTree_copies (ha : Answers kernel memory) {l r : BinaryTree (BitVec 64)}
    (h0 : kptr ≠ 0) (hleft : Represents memory (memory kptr).left l)
    (hright : Represents memory (memory kptr).right r) (hf : max l.height r.height < fuel)
    {p : Process} {e : VmMapEntry (BitVec 64)} (hm : kernel.malloc p.mallocs = true)
    (he : kernel.entry p.reads kptr = some e) :
    ¬∃ size root p', (loadTree kernel (fuel + 1) kptr).run p = .ok ((size, root), p') ∧
      CopiesTree memory (.node kptr l r) p p' size root := by
  obtain rfl := ha p.reads kptr e he
  obtain ⟨size, p', hrun, -, hp⟩ := @run_load_entry kernel fuel kptr 0 0 p _ h0 hm he _ _
    (loads_tree ha hleft ((le_max_left _ _).trans_lt hf))
    (loads_tree ha hright ((le_max_right _ _).trans_lt hf))
  rintro ⟨size', root, q, hq, hc⟩
  obtain ⟨hr, rfl⟩ := Prod.mk.inj (Except.ok.inj (hq.symm.trans (run_loadTree hrun)))
  obtain ⟨rfl, rfl⟩ := Prod.mk.inj hr
  exact not_copiesTree (copyOf_ne_freed 0 (memory kptr)) hp hc

/-- The copy is right, for every tree and all outcomes, if and only if the tree is empty or not even
its first node can be allocated and read: the local root does not lead to what is copied. -/
theorem loadTree_copies_iff (ha : Answers kernel memory) (ht : Represents memory kptr tree)
    (hf : tree.height < fuel) (p : Process) :
    (∃ size root p', (loadTree kernel fuel kptr).run p = .ok ((size, root), p') ∧
        CopiesTree memory tree p p' size root) ↔
      kptr = 0 ∨ kernel.malloc p.mallocs = false ∨ kernel.entry p.reads kptr = none := by
  obtain ⟨fuel, rfl⟩ := Nat.exists_eq_succ_of_ne_zero (Nat.ne_zero_of_lt hf)
  cases tree with
  | nil =>
    obtain rfl : kptr = 0 := ht
    exact iff_of_true (loadTree_copies_nil p) (.inl rfl)
  | node a l r =>
    obtain ⟨rfl, h0, hleft, hright⟩ := ht
    have hheight : max l.height r.height < fuel := Nat.lt_of_succ_lt_succ hf
    cases hm : kernel.malloc p.mallocs with
    | false =>
      refine iff_of_true ⟨-1, 0, _, run_loadTree (run_load_noMemory h0 hm), ?_⟩ (.inr (.inl rfl))
      exact copiesTree_of_freed (List.append_nil _).symm fun _ hb ↦ absurd hb List.not_mem_nil
    | true =>
      cases he : kernel.entry p.reads kptr with
      | none =>
        refine iff_of_true ⟨-1, 0, _, run_loadTree (run_load_noEntry h0 hm he), ?_⟩
          (.inr (.inr rfl))
        exact copiesTree_of_freed rfl fun block hb ↦ List.mem_singleton.mp hb
      | some e =>
        refine iff_of_false (not_loadTree_copies ha h0 hleft hright hheight hm he) ?_
        rintro (h | h | h)
        · exact h0 h
        · exact Bool.noConfusion h
        · exact Option.some_ne_none _ h

end

section

variable {kernel : MapKernel} {fuel : Nat}

theorem ensures_any {Value : Type} (m : Prog Process Value) :
    Ensures (fun _ ↦ True) m fun _ _ ↦ True := fun _ _ _ _ _ ↦ trivial

theorem ensures_of_fact {Value : Type} {fact : Prop} {m : Prog Process Value}
    {post : Value → Process → Prop} (h : fact → Ensures (fun _ ↦ True) m post) :
    Ensures (fun _ ↦ fact) m post := fun p hf ↦ h hf p trivial

theorem ensures_loadTree (kptr : BitVec 64) :
    Ensures (fun _ ↦ True) (loadTree kernel fuel kptr) fun result _ ↦ result.2 = 0 :=
  ensures_bind (ensures_any _) fun _ ↦ ensures_pure fun _ _ ↦ rfl

theorem ensures_foreach_null :
    Ensures (fun _ ↦ True) (foreach 0) fun entries _ ↦ entries = [] := by
  intro p _ entries p' hr
  obtain ⟨rfl, rfl⟩ := Prod.mk.inj (Except.ok.inj hr)
  exact inOrder_null _

/-- A map that the function returns has no entries, whatever the process has mapped. -/
theorem ensures_glibtopGetProcMapP (pid : BitVec 32) :
    Ensures (fun _ ↦ True) (glibtopGetProcMapP kernel fuel pid) fun result _ ↦
      result.2 = none ∨ result.2 = some [] := by
  have hnone (map : ProcMap) {m : Prog Process Unit} :
      Ensures (fun _ ↦ True) (m >>= fun _ ↦ pure (map, none)) fun result _ ↦
        result.2 = (none : Option (List MapEntry)) ∨ result.2 = some [] :=
    ensures_bind (ensures_any m) fun _ ↦ ensures_pure fun _ _ ↦ .inl rfl
  unfold glibtopGetProcMapP
  split
  · exact ensures_pure fun _ _ ↦ .inl rfl
  refine ensures_bind (ensures_any suidEnter) fun _ ↦ ?_
  split
  · exact hnone _
  refine ensures_bind (ensures_any _) fun answer ↦ ?_
  cases answer with
  | none => exact hnone _
  | some kptr =>
    refine ensures_bind (ensures_loadTree kptr) fun result ↦ ?_
    obtain ⟨size, root⟩ := result
    refine ensures_of_fact fun (hroot : root = 0) ↦ ?_
    subst hroot
    dsimp only
    split
    · exact ensures_bind (ensures_any _) fun _ ↦ ensures_throw .exited
    refine ensures_bind ensures_foreach_null fun entries ↦ ensures_of_fact fun he ↦ ?_
    subst he
    have hc : Ensures (fun _ ↦ True) (collect kernel [] []) fun maps _ ↦ maps = some [] :=
      ensures_pure fun _ _ ↦ rfl
    refine ensures_bind hc fun maps ↦ ensures_of_fact fun hm ↦ ?_
    subst hm
    refine ensures_bind (ensures_any _) fun _ ↦ ?_
    exact ensures_bind (ensures_any _) fun _ ↦ ensures_pure fun _ _ ↦ .inr rfl

end

/-- The node of a tree at the address 8. -/
def oneNode (_ : BitVec 64) : VmMapEntry (BitVec 64) where
  left := 0
  right := 0
  parent := 0
  data :=
    { start := 4096
      stop := 8192
      offset := 0
      isSubMap := false
      object := 0
      protection := 1 }

/-- A kernel with this node, and the calls of `malloc` that find memory. -/
def oneNodeKernel (malloc : Nat → Bool) : MapKernel where
  procs := some 4
  vmspace _ _ := some 8
  entry _ a := some (oneNode a)
  vnode _ _ := none
  inode _ _ := none
  malloc := malloc
  uvmVnodeValid := none

theorem answers_oneNode (malloc : Nat → Bool) : Answers (oneNodeKernel malloc) oneNode :=
  fun _ _ _ h ↦ (Option.some.inj h).symm

theorem represents_oneNode : Represents oneNode 8 (.node 8 .nil .nil) := by
  simp only [Represents, oneNode]
  decide

theorem loadTree_copies_noMemory :
    ∃ size root p', (loadTree (oneNodeKernel fun _ ↦ false) 2 8).run { suid := .opened 20 2 } =
        .ok ((size, root), p') ∧
      CopiesTree oneNode (.node 8 .nil .nil) { suid := .opened 20 2 } p' size root :=
  (loadTree_copies_iff (answers_oneNode _) represents_oneNode (by decide) _).mpr (.inr (.inl rfl))

/-- A tree of one node is loaded, with the number 1, and the local root stays a null pointer. -/
theorem loadTree_oneNode :
    ∃ p', (loadTree (oneNodeKernel fun _ ↦ true) 2 8).run { suid := .opened 20 2 } =
        .ok ((1, 0), p') ∧
      p'.blocks = [copyOf 0 (oneNode 8)] ∧
      ¬IsCopy oneNode p'.blocks 0 (.node 8 .nil .nil) ∧
      ¬CopiesTree oneNode (.node 8 .nil .nil) { suid := .opened 20 2 } p' 1 0 := by
  refine ⟨_, rfl, rfl, fun h ↦ ?_, fun h ↦ ?_⟩
  · exact absurd (isCopy_null_iff.mp h) nofun
  · exact absurd (isCopy_null_iff.mp (h.copied (by decide))) nofun

end LibGTop.OpenBsd
