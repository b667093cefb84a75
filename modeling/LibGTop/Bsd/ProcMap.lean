import LibGTop.Bsd.Suid
import LibGTop.Linux.ProcMap

/-!
# The memory map of a process

`glibtop_get_proc_map_p` of NetBSD (`sysdeps/bsd/procmap.c:96–311`), which walks the list of
map entries in the kernel's memory. What the kernel answers to the reads is an argument.
-/

namespace LibGTop.Bsd

open Base
open Linux (ProcMap sysdepsProcMap mapEntrySize)

/-- `enum vtype`. -/
inductive VType
  | vnon
  | vreg
  | vdir
  | vblk
  | vchr
  | vlnk
  | vsock
  | vfifo
  | vbad
  deriving DecidableEq

/-- `struct vmspace`: the header's `next` and `nentries`. -/
structure Vmspace where
  first : BitVec 64
  nentries : BitVec 64

/-- `struct vm_map_entry`. -/
structure VmMapEntry where
  next : BitVec 64
  start : BitVec 64
  stop : BitVec 64
  offset : BitVec 64
  isSubMap : Bool
  object : BitVec 64
  protection : BitVec 32

/-- `struct vnode`. -/
structure Vnode where
  uFlags : BitVec 32
  type : VType
  isUfs : Bool
  data : BitVec 64

/-- `struct inode`. -/
structure Inode where
  number : BitVec 64
  dev : BitVec 64

/-- What the kernel answers: the number of processes and the address of the first one's `vmspace`,
and for each read the structure, or that it was cut; and `UVM_VNODE_VALID` where it is defined. -/
structure MapKernel where
  procs : Option (Int × BitVec 64)
  vmspace : Nat → BitVec 64 → Option Vmspace
  entry : Nat → BitVec 64 → Option VmMapEntry
  vnode : Nat → BitVec 64 → Option Vnode
  inode : Nat → BitVec 64 → Option Inode
  uvmVnodeValid : Option (BitVec 32)

/-- The fields of `glibtop_map_entry` that are set. -/
structure MapEntry where
  flags : BitVec 64
  start : BitVec 64
  stop : BitVec 64
  offset : BitVec 64
  device : BitVec 64
  inode : BitVec 64
  perm : BitVec 64

/-- `_glibtop_sysdeps_map_entry`: `START`, `END`, `OFFSET`, `PERM`, `INODE` and `DEVICE`. -/
def sysdepsMapEntry : BitVec 64 := Linux.flagBits [0, 1, 2, 3, 4, 5]

/-- The permissions of an entry, from `VM_PROT_READ`, `VM_PROT_WRITE` and `VM_PROT_EXECUTE`. -/
def permOf (protection : BitVec 32) : BitVec 64 :=
  (if protection.getLsbD 0 then 1 else 0) ||| (if protection.getLsbD 1 then 2 else 0) |||
    (if protection.getLsbD 2 then 4 else 0)

/-- The entry that is appended to the array. -/
def mapEntryOf (entry : VmMapEntry) (inum dev : BitVec 64) : MapEntry :=
  { flags := sysdepsMapEntry
    start := entry.start
    stop := entry.stop
    offset := entry.offset
    device := dev
    inode := inum
    perm := permOf entry.protection }

/-- How a turn of the loop ends: with the entry that it appended, if it did not `continue` before
it, or with a return from the function. -/
inductive MapTurn
  | next (added : Option MapEntry)
  | leave

/-- `!vnode.v_uvm.u_flags & UVM_VNODE_VALID`, where the negation binds stronger. -/
def notValid (valid : Option (BitVec 32)) (vnode : Vnode) : Bool :=
  valid.elim false fun bit ↦ (if vnode.uFlags = 0 then 1 else 0) &&& bit ≠ 0

/-- A turn of the loop from the test of the entry on, `sysdeps/bsd/procmap.c:184–300`. -/
def mapTurn (kernel : MapKernel) (entry : VmMapEntry) : Prog Process MapTurn :=
  if entry.isSubMap then pure (.next none)
  else if entry.object = 0 then pure (.next none)
  else do
    match ← kvmRead kernel.vnode entry.object with
    | none => pure .leave
    | some vnode =>
      if notValid kernel.uvmVnodeValid vnode then pure (.next none)
      else if vnode.type ≠ .vreg ∨ vnode.isUfs = false ∨ vnode.data = 0 then pure (.next none)
      else do
        let inode ← orExit (← kvmRead kernel.inode vnode.data)
        pure (.next (some (mapEntryOf entry inode.number inode.dev)))

/-- The entry of a turn. -/
def nextEntry (kernel : MapKernel) (update : Bool) (entry : VmMapEntry) :
    Prog Process VmMapEntry :=
  if update then do orExit (← kvmRead kernel.entry entry.next) else pure entry

/-- The loop, `sysdeps/bsd/procmap.c:163–302`; without a value where it returns from the function.
-/
def walk (kernel : MapKernel) (first : BitVec 64) :
    Nat → Bool → VmMapEntry → List MapEntry → Prog Process (Option (List MapEntry))
  | 0, _, _, _ => throw .running
  | fuel + 1, update, entry, maps => do
    let entry ← nextEntry kernel update entry
    match ← mapTurn kernel entry with
    | .leave => pure none
    | .next added =>
      if entry.next = first then pure (some (maps ++ added.toList))
      else walk kernel first fuel true entry (maps ++ added.toList)

/-- The numbers of a map. -/
def procMapOf (number : BitVec 64) : ProcMap :=
  { flags := sysdepsProcMap
    number := number
    total := number * mapEntrySize
    size := mapEntrySize }

/-- `glibtop_get_proc_map_p`, `sysdeps/bsd/procmap.c:96–311`, of a server that is initialised. -/
def glibtopGetProcMapP (kernel : MapKernel) (fuel : Nat) (pid : BitVec 32) :
    Prog Process (ProcMap × Option (List MapEntry)) :=
  if pid = 0 then pure ({}, none)
  else do
    suidEnter
    match kernel.procs with
    | none => pure ({}, none)
    | some (count, vmspaceAddr) =>
      if count < 1 then pure ({}, none)
      else do
        let vmspace ← orExit (← kvmRead kernel.vmspace vmspaceAddr)
        let entry ← orExit (← kvmRead kernel.entry vmspace.first)
        match ← walk kernel vmspace.first fuel false entry [] with
        | none => pure (procMapOf vmspace.nentries, none)
        | some maps => pure (procMapOf (BitVec.ofNat 64 maps.length), some maps)

section

variable {u : Suid}

theorem ensures_mapTurn (kernel : MapKernel) (entry : VmMapEntry) :
    Ensures (HasSuid u) (mapTurn kernel entry) fun _ ↦ HasSuid u := by
  unfold mapTurn
  split
  · exact ensures_same _
  split
  · exact ensures_same _
  refine ensures_bind (ensures_kvmRead _ _ u) fun answer ↦ ?_
  cases answer with
  | none => exact ensures_same _
  | some vnode =>
    dsimp only
    split
    · exact ensures_same _
    split
    · exact ensures_same _
    refine ensures_bind (ensures_kvmRead _ _ u) fun answer ↦ ?_
    exact ensures_bind (ensures_orExit_same answer) fun inode ↦ ensures_same _

theorem ensures_nextEntry (kernel : MapKernel) (update : Bool) (entry : VmMapEntry) :
    Ensures (HasSuid u) (nextEntry kernel update entry) fun _ ↦ HasSuid u := by
  unfold nextEntry
  split
  · exact ensures_bind (ensures_kvmRead _ _ u) fun answer ↦ ensures_orExit_same answer
  · exact ensures_same _

/-- The loop neither raises the privileges nor drops them. -/
theorem ensures_walk (kernel : MapKernel) (first : BitVec 64) (fuel : Nat) (update : Bool)
    (entry : VmMapEntry) (maps : List MapEntry) :
    Ensures (HasSuid u) (walk kernel first fuel update entry maps) fun _ ↦ HasSuid u := by
  induction fuel generalizing update entry maps with
  | zero => exact ensures_throw .running
  | succ fuel ih =>
    unfold walk
    refine ensures_bind (ensures_nextEntry kernel update entry) fun entry ↦ ?_
    refine ensures_bind (ensures_mapTurn kernel entry) fun turn ↦ ?_
    cases turn with
    | leave => exact ensures_same _
    | next added =>
      dsimp only
      split
      · exact ensures_same _
      · exact ih _ _ _

/-- Whenever the function returns, the privileges are as it raised them: for no process but the
swapper, for which it does nothing, does it drop them. -/
theorem ensures_glibtopGetProcMapP (kernel : MapKernel) (fuel : Nat) (pid : BitVec 32) :
    Ensures (HasSuid u) (glibtopGetProcMapP kernel fuel pid) fun _ ↦
      HasSuid (if pid = 0 then u else u.enter) := by
  unfold glibtopGetProcMapP
  split
  · exact ensures_same _
  refine ensures_bind (ensures_suidEnter u) fun _ ↦ ?_
  split
  · exact ensures_same _
  split
  · exact ensures_same _
  refine ensures_bind (ensures_kvmRead _ _ u.enter) fun answer ↦ ?_
  refine ensures_bind (ensures_orExit_same answer) fun vmspace ↦ ?_
  refine ensures_bind (ensures_kvmRead _ _ u.enter) fun answer ↦ ?_
  refine ensures_bind (ensures_orExit_same answer) fun entry ↦ ?_
  refine ensures_bind (ensures_walk kernel vmspace.first fuel false entry []) fun maps ↦ ?_
  cases maps with
  | none => exact ensures_same _
  | some maps => exact ensures_same _

end

end LibGTop.Bsd
