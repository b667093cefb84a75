import LibGTop.Bsd.ProcMap
import Mathlib.Data.Tree.Basic

/-!
# The copy of a tree of map entries

`load_vmmap_entries` and `unload_vmmap_entries` of OpenBSD (`sysdeps/openbsd/procmap.c:88–166`),
with the blocks that a process has from `malloc`. The tree in the memory of the kernel is one of the
addresses of its nodes. -/

namespace LibGTop.OpenBsd

open Base
open Bsd (Suid Vnode Inode)

/-- The fields of `struct vm_map_entry` but its links. -/
structure EntryData where
  start : BitVec 64
  stop : BitVec 64
  offset : BitVec 64
  isSubMap : Bool
  object : BitVec 64
  protection : BitVec 32
  deriving DecidableEq

/-- `struct vm_map_entry`, with links to addresses of the kernel or of the process. -/
structure VmMapEntry (Addr : Type) where
  left : Addr
  right : Addr
  parent : Addr
  data : EntryData

/-- A block of memory: freed, as `malloc` returned it, or with an entry. -/
inductive Block
  | freed
  | raw
  | entry (e : VmMapEntry Nat)

/-- A process, with the numbers of its reads of the kernel and of its calls of `malloc`. A pointer
to the block of number `n` is `n + 1`, and zero is the null pointer. -/
structure Process where
  suid : Suid
  reads : Nat := 0
  mallocs : Nat := 0
  blocks : List Block := []

/-- What the process is given: the address of its `vmspace`, what the kernel answers to each read,
and whether there is memory for each call of `malloc`; and `UVM_VNODE_VALID` where it is defined. -/
structure MapKernel where
  procs : Option (BitVec 64)
  vmspace : Nat → BitVec 64 → Option (BitVec 64)
  entry : Nat → BitVec 64 → Option (VmMapEntry (BitVec 64))
  vnode : Nat → BitVec 64 → Option Vnode
  inode : Nat → BitVec 64 → Option Inode
  malloc : Nat → Bool
  uvmVnodeValid : Option (BitVec 32)

/-- `kvm_read`. -/
def kvmRead {Value : Type} (answer : Nat → BitVec 64 → Value) (addr : BitVec 64) :
    Prog Process Value := do
  let p ← get
  set { p with reads := p.reads + 1 }
  pure (answer p.reads addr)

/-- `malloc` of one entry. -/
def malloc (kernel : MapKernel) : Prog Process Nat := do
  let p ← get
  if kernel.malloc p.mallocs then do
    set { p with mallocs := p.mallocs + 1, blocks := p.blocks ++ [Block.raw] }
    pure (p.blocks.length + 1)
  else do
    set { p with mallocs := p.mallocs + 1 }
    pure 0

/-- A block is overwritten. -/
def write (pointer : Nat) (block : Block) : Prog Process Unit :=
  modify fun p ↦ { p with blocks := p.blocks.set (pointer - 1) block }

/-- `free`. -/
def free (pointer : Nat) : Prog Process Unit :=
  if pointer = 0 then pure () else write pointer .freed

/-- The block that a pointer leads to. -/
def blockAt (blocks : List Block) : Nat → Option Block
  | 0 => none
  | n + 1 => blocks[n]?

/-- The entry that a pointer leads to. -/
def entryAt (blocks : List Block) (pointer : Nat) : Option (VmMapEntry Nat) :=
  match blockAt blocks pointer with
  | some (.entry e) => some e
  | _ => none

/-- `RBT_LEFT`. -/
def rbtLeft (pointer : Nat) : Prog Process Nat := do
  let p ← get
  pure ((entryAt p.blocks pointer).elim 0 VmMapEntry.left)

/-- `RBT_RIGHT`. -/
def rbtRight (pointer : Nat) : Prog Process Nat := do
  let p ← get
  pure ((entryAt p.blocks pointer).elim 0 VmMapEntry.right)

/-- `load_vmmap_entries`. The assignment `rptr = entry` is one to the parameter. -/
def loadVmmapEntries (kernel : MapKernel) : Nat → BitVec 64 → Nat → Nat → Prog Process Int
  | 0, _, _, _ => throw .running
  | fuel + 1, kptr, _rptr, parent =>
    if kptr = 0 then pure 0
    else do
      let entry ← malloc kernel
      if entry = 0 then pure (-1)
      else do
        match ← kvmRead kernel.entry kptr with
        | none =>
          free entry
          pure (-1)
        | some e => do
          write entry (.entry { left := 0, right := 0, parent := parent, data := e.data })
          let _rptr := entry
          let leftSz ← loadVmmapEntries kernel fuel e.left (← rbtLeft entry) entry
          if leftSz = -1 then pure (-1)
          else do
            let rightSz ← loadVmmapEntries kernel fuel e.right (← rbtRight entry) entry
            if rightSz = -1 then pure (-1) else pure (1 + leftSz + rightSz)

/-- `unload_vmmap_entries`. -/
def unloadVmmapEntries : Nat → Nat → Prog Process Unit
  | 0, _ => throw .running
  | fuel + 1, entry =>
    if entry = 0 then pure ()
    else do
      unloadVmmapEntries fuel (← rbtLeft entry)
      unloadVmmapEntries fuel (← rbtRight entry)
      free entry

/-- The part of `glibtop_get_proc_map_p` that copies the tree, `sysdeps/openbsd/procmap.c:219–222`:
the number of entries, and the local `root` behind the call. -/
def loadTree (kernel : MapKernel) (fuel : Nat) (kptr : BitVec 64) : Prog Process (Int × Nat) := do
  let root := 0
  let nentries ← loadVmmapEntries kernel fuel kptr root 0
  pure (nentries, root)

/-- The entries in the order of `RBT_FOREACH`. -/
def inOrder (blocks : List Block) : Nat → Nat → List EntryData
  | 0, _ => []
  | depth + 1, pointer =>
    match entryAt blocks pointer with
    | none => []
    | some e => inOrder blocks depth e.left ++ e.data :: inOrder blocks depth e.right

/-- The nodes of a tree in their order. -/
def nodes {Addr : Type} : BinaryTree Addr → List Addr
  | .nil => []
  | .node a l r => nodes l ++ a :: nodes r

/-- A link leads to a tree in the memory of the kernel. -/
def Represents (memory : BitVec 64 → VmMapEntry (BitVec 64)) :
    BitVec 64 → BinaryTree (BitVec 64) → Prop
  | kptr, .nil => kptr = 0
  | kptr, .node a l r =>
    kptr = a ∧ a ≠ 0 ∧ Represents memory (memory a).left l ∧ Represents memory (memory a).right r

/-- A pointer leads to a tree of the same shape, whose entries are those of the kernel but for the
links. -/
def IsCopy (memory : BitVec 64 → VmMapEntry (BitVec 64)) (blocks : List Block) :
    Nat → BinaryTree (BitVec 64) → Prop
  | pointer, .nil => pointer = 0
  | pointer, .node a l r =>
    ∃ e, entryAt blocks pointer = some e ∧ e.data = (memory a).data ∧
      IsCopy memory blocks e.left l ∧ IsCopy memory blocks e.right r

/-- A pointer leads over links to a block that is not freed. -/
inductive Reachable (blocks : List Block) : Nat → Nat → Prop
  | here (pointer : Nat) (block : Block) (found : blockAt blocks pointer = some block)
      (live : block ≠ .freed) : Reachable blocks pointer pointer
  | left (pointer target : Nat) (e : VmMapEntry Nat) (found : entryAt blocks pointer = some e)
      (rest : Reachable blocks e.left target) : Reachable blocks pointer target
  | right (pointer target : Nat) (e : VmMapEntry Nat) (found : entryAt blocks pointer = some e)
      (rest : Reachable blocks e.right target) : Reachable blocks pointer target

/-- What a copied entry is at first. -/
def copyOf (parent : Nat) (e : VmMapEntry (BitVec 64)) : Block :=
  .entry { left := 0, right := 0, parent := parent, data := e.data }

/-- The process when it has read an entry, or tried to, with the block for it. -/
def Process.withBlock (p : Process) (block : Block) : Process :=
  { p with reads := p.reads + 1, mallocs := p.mallocs + 1, blocks := p.blocks ++ [block] }

/-- Whatever the outcomes, a program that loads a tree returns -1 or the number of its nodes, and
keeps the blocks that were there. -/
def Loads (m : Prog Process Int) (size : Nat) : Prop :=
  ∀ p, ∃ n p', m.run p = .ok (n, p') ∧ (n = -1 ∨ n = size) ∧ p.blocks <+: p'.blocks

section

variable {kernel : MapKernel} {memory : BitVec 64 → VmMapEntry (BitVec 64)} {fuel : Nat}
  {kptr : BitVec 64} {rptr parent : Nat} {p : Process}

theorem run_kvmRead_bind {Value Result : Type} (answer : Nat → BitVec 64 → Value)
    (addr : BitVec 64) (f : Value → Prog Process Result) (p : Process) :
    (kvmRead answer addr >>= f).run p =
      (f (answer p.reads addr)).run { p with reads := p.reads + 1 } := rfl

theorem run_rbtLeft (pointer : Nat) (p : Process) :
    ∃ left, (rbtLeft pointer).run p = .ok (left, p) := ⟨_, rfl⟩

theorem run_rbtRight (pointer : Nat) (p : Process) :
    ∃ right, (rbtRight pointer).run p = .ok (right, p) := ⟨_, rfl⟩

/-- The last of the blocks is overwritten. -/
theorem run_write (blocks : List Block) (old new : Block) (p : Process) :
    (write (blocks.length + 1) new).run { p with blocks := blocks ++ [old] } =
      .ok ((), { p with blocks := blocks ++ [new] }) := by
  have hs : (blocks ++ [old]).set (blocks.length + 1 - 1) new = blocks ++ [new] := by
    rw [Nat.add_sub_cancel, List.set_append_right _ _ le_rfl, Nat.sub_self]
    rfl
  rw [← hs]
  rfl

theorem run_malloc_none (hm : kernel.malloc p.mallocs = false) :
    (malloc kernel).run p = .ok (0, { p with mallocs := p.mallocs + 1 }) := by
  change (if kernel.malloc p.mallocs then _ else _ : Prog Process Nat).run p = _
  rw [hm]
  rfl

theorem run_malloc (hm : kernel.malloc p.mallocs = true) :
    (malloc kernel).run p = .ok (p.blocks.length + 1,
      { p with mallocs := p.mallocs + 1, blocks := p.blocks ++ [Block.raw] }) := by
  change (if kernel.malloc p.mallocs then _ else _ : Prog Process Nat).run p = _
  rw [hm]
  rfl

/-- Without memory nothing is loaded. -/
theorem run_load_noMemory (h0 : kptr ≠ 0) (hm : kernel.malloc p.mallocs = false) :
    (loadVmmapEntries kernel (fuel + 1) kptr rptr parent).run p =
      .ok (-1, { p with mallocs := p.mallocs + 1 }) := by
  rw [loadVmmapEntries, if_neg h0, run_bind_of_ok (run_malloc_none hm)]
  rfl

/-- An entry that cannot be read is freed. -/
theorem run_load_noEntry (h0 : kptr ≠ 0) (hm : kernel.malloc p.mallocs = true)
    (he : kernel.entry p.reads kptr = none) :
    (loadVmmapEntries kernel (fuel + 1) kptr rptr parent).run p =
      .ok (-1, p.withBlock .freed) := by
  rw [loadVmmapEntries, if_neg h0, run_bind_of_ok (run_malloc hm), if_neg (Nat.succ_ne_zero _),
    run_kvmRead_bind]
  dsimp only
  rw [he]
  dsimp only
  rw [free, if_neg (Nat.succ_ne_zero _)]
  exact run_bind_of_ok (run_write p.blocks .raw .freed (p.withBlock .raw))

/-- What follows where the entry has been read. -/
theorem run_load_entry {e : VmMapEntry (BitVec 64)} (h0 : kptr ≠ 0)
    (hm : kernel.malloc p.mallocs = true) (he : kernel.entry p.reads kptr = some e) {m n : Nat}
    (hl : ∀ rptr parent, Loads (loadVmmapEntries kernel fuel e.left rptr parent) m)
    (hr : ∀ rptr parent, Loads (loadVmmapEntries kernel fuel e.right rptr parent) n) :
    ∃ size p', (loadVmmapEntries kernel (fuel + 1) kptr rptr parent).run p = .ok (size, p') ∧
      (size = -1 ∨ size = (m + n + 1 : Nat)) ∧
      p.blocks ++ [copyOf parent e] <+: p'.blocks := by
  rw [loadVmmapEntries, if_neg h0, run_bind_of_ok (run_malloc hm), if_neg (Nat.succ_ne_zero _),
    run_kvmRead_bind]
  dsimp only
  rw [he]
  dsimp only
  have hw : (write (p.blocks.length + 1)
      (.entry { left := 0, right := 0, parent := parent, data := e.data })).run
        { p with reads := p.reads + 1, mallocs := p.mallocs + 1, blocks := p.blocks ++ [.raw] } =
      .ok ((), p.withBlock (copyOf parent e)) :=
    run_write p.blocks .raw (copyOf parent e) (p.withBlock .raw)
  obtain ⟨left, hleft⟩ := run_rbtLeft (p.blocks.length + 1) (p.withBlock (copyOf parent e))
  obtain ⟨leftSz, q, hq, hm, hpq⟩ := hl left (p.blocks.length + 1) (p.withBlock (copyOf parent e))
  rw [run_bind_of_ok hw, run_bind_of_ok hleft, run_bind_of_ok hq]
  split
  · exact ⟨-1, q, rfl, .inl rfl, hpq⟩
  obtain ⟨right, hright⟩ := run_rbtRight (p.blocks.length + 1) q
  rw [run_bind_of_ok hright]
  obtain ⟨rightSz, r, hr, hn, hqr⟩ := hr right (p.blocks.length + 1) q
  rw [run_bind_of_ok hr]
  split
  · exact ⟨-1, r, rfl, .inl rfl, hpq.trans hqr⟩
  · next hl1 hr1 =>
    refine ⟨1 + leftSz + rightSz, r, rfl, .inr ?_, hpq.trans hqr⟩
    rw [hm.resolve_left hl1, hn.resolve_left hr1]
    omega

/-- The kernel has these entries at their addresses, whichever reads of them fail. -/
def Answers (kernel : MapKernel) (memory : BitVec 64 → VmMapEntry (BitVec 64)) : Prop :=
  ∀ i a e, kernel.entry i a = some e → e = memory a

/-- Over every tree and for all outcomes the copy ends with -1 or the number of nodes. -/
theorem loads_tree (ha : Answers kernel memory) {tree : BinaryTree (BitVec 64)}
    (ht : Represents memory kptr tree) (hf : tree.height < fuel) (rptr parent : Nat) :
    Loads (loadVmmapEntries kernel fuel kptr rptr parent) tree.numNodes := by
  intro p
  induction tree generalizing kptr fuel rptr parent p with
  | nil =>
    obtain ⟨fuel, rfl⟩ := Nat.exists_eq_succ_of_ne_zero (Nat.ne_zero_of_lt hf)
    refine ⟨0, p, ?_, .inr rfl, List.prefix_rfl⟩
    rw [loadVmmapEntries, if_pos (show kptr = 0 from ht)]
    rfl
  | node a l r ihl ihr =>
    obtain ⟨fuel, rfl⟩ := Nat.exists_eq_succ_of_ne_zero (Nat.ne_zero_of_lt hf)
    obtain ⟨rfl, h0, hleft, hright⟩ := ht
    have hheight : max l.height r.height < fuel := Nat.lt_of_succ_lt_succ hf
    cases hm : kernel.malloc p.mallocs with
    | false => exact ⟨-1, _, run_load_noMemory h0 hm, .inl rfl, List.prefix_rfl⟩
    | true =>
      cases he : kernel.entry p.reads kptr with
      | none => exact ⟨-1, _, run_load_noEntry h0 hm he, .inl rfl, List.prefix_append _ _⟩
      | some e =>
        obtain rfl := ha p.reads kptr e he
        obtain ⟨size, p', hrun, hsize, hp⟩ := run_load_entry h0 hm he
          (fun rptr parent ↦ ihl hleft ((le_max_left _ _).trans_lt hheight) rptr parent)
          (fun rptr parent ↦ ihr hright ((le_max_right _ _).trans_lt hheight) rptr parent)
        exact ⟨size, p', hrun, hsize, (List.prefix_append _ _).trans hp⟩

end

end LibGTop.OpenBsd
