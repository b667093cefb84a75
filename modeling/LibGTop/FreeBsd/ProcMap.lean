import LibGTop.Bsd.ProcMap

/-!
# The memory map of a process

`glibtop_get_proc_map_p` of FreeBSD (`sysdeps/freebsd/procmap.c:236–407`), for the versions
from 11.1 on. A read that is cut ends no process here, and its buffer goes on to be used.
-/

namespace LibGTop.FreeBsd

open Base Bsd
open Linux (ProcMap)

/-- `struct vm_object`. -/
structure VmObject where
  isVnode : Bool
  handle : BitVec 64

/-- `struct vnode`. -/
structure Vnode where
  type : VType
  data : BitVec 64

/-- `struct inode`: its own fields, and those of a `znode_t` in its place. -/
structure Inode where
  number : BitVec 64
  ump : BitVec 64
  zfsvfs : BitVec 64
  id : BitVec 64

/-- What the kernel answers: the number of processes and the address of the first one's `vmspace`,
and for each read the structure, or that it was cut; of an entry also what is in the buffer then. -/
structure MapKernel where
  procs : Option (Int × BitVec 64)
  vmspace : Nat → BitVec 64 → Option Vmspace
  entry : Nat → BitVec 64 → Except VmMapEntry VmMapEntry
  object : Nat → BitVec 64 → Option VmObject
  vnode : Nat → BitVec 64 → Option Vnode
  tagptr : Nat → BitVec 64 → Option (BitVec 64)
  tagstr : Nat → BitVec 64 → Option (List UInt8)
  inode : Nat → BitVec 64 → Option Inode
  zRoot : Nat → BitVec 64 → Option (BitVec 64)
  umDev : Nat → BitVec 64 → Option (BitVec 64)
  cdpInode : Nat → BitVec 64 → Option (BitVec 64)

/-- The tag of a filesystem. -/
def ufsTag : List UInt8 := asciiBytes ['u', 'f', 's']

/-- The tag of the other one. -/
def zfsTag : List UInt8 := asciiBytes ['z', 'f', 's']

/-- The device of an inode that is the second number, `sysdeps/freebsd/procmap.c:125–220`. -/
def inodeDevice (kernel : MapKernel) (tag : List UInt8) (inode : Inode) :
    Prog Process (BitVec 64 × BitVec 64) :=
  if tag = zfsTag then do
    match ← kvmRead kernel.zRoot inode.zfsvfs with
    | none => pure (inode.id, 0)
    | some root => pure (inode.id, root)
  else do
    match ← kvmRead kernel.umDev inode.ump with
    | none => pure (inode.number, 0)
    | some dev =>
      match ← kvmRead kernel.cdpInode dev with
      | none => pure (inode.number, 0)
      | some cdp => pure (inode.number, cdp)

/-- `_glibtop_sysdeps_freebsd_dev_inode`, `sysdeps/freebsd/procmap.c:83–224`: the numbers of the
inode and the device. -/
def sysdepsFreebsdDevInode (kernel : MapKernel) (handle : BitVec 64) (vn : Vnode) :
    Prog Process (BitVec 64 × BitVec 64) := do
  match ← kvmRead kernel.tagptr handle with
  | none => pure (0, 0)
  | some tagptr =>
    match ← kvmRead kernel.tagstr tagptr with
    | none => pure (0, 0)
    | some tagstr =>
      let tag := cString (tagstr.take 11)
      if tag ≠ ufsTag ∧ tag ≠ zfsTag then pure (0, 0)
      else do
        match ← kvmRead kernel.inode vn.data with
        | none => pure (0, 0)
        | some inode => inodeDevice kernel tag inode

/-- A turn of the loop from the test of the entry on, `sysdeps/freebsd/procmap.c:322–393`: the entry
that it appends. -/
def mapTurn (kernel : MapKernel) (entry : VmMapEntry) : Prog Process (Option MapEntry) :=
  if entry.isSubMap then pure none
  else if entry.object = 0 then pure none
  else do
    match ← kvmRead kernel.object entry.object with
    | none => pure none
    | some object =>
      if object.isVnode = false then pure none
      else if object.handle = 0 then pure none
      else do
        match ← kvmRead kernel.vnode object.handle with
        | none => pure none
        | some vnode =>
          if vnode.type = .vnon ∨ vnode.type = .vbad then pure none
          else do
            let (inum, dev) ← sysdepsFreebsdDevInode kernel object.handle vnode
            pure (some (mapEntryOf entry inum dev))

/-- A turn of the loop: the entry in the buffer and the one that is appended. -/
def walkTurn (kernel : MapKernel) (update : Bool) (entry : VmMapEntry) :
    Prog Process (VmMapEntry × Option MapEntry) :=
  if update then do
    match ← kvmRead kernel.entry entry.next with
    | .error entry => pure (entry, none)
    | .ok entry => do
      let added ← mapTurn kernel entry
      pure (entry, added)
  else do
    let added ← mapTurn kernel entry
    pure (entry, added)

/-- The loop, `sysdeps/freebsd/procmap.c:300–398`. -/
def walk (kernel : MapKernel) (first : BitVec 64) :
    Nat → Bool → VmMapEntry → List MapEntry → Prog Process (List MapEntry)
  | 0, _, _, _ => throw .running
  | fuel + 1, update, entry, maps => do
    let (entry, added) ← walkTurn kernel update entry
    if entry.next = first then pure (maps ++ added.toList)
    else walk kernel first fuel true entry (maps ++ added.toList)

/-- `glibtop_get_proc_map_p`, `sysdeps/freebsd/procmap.c:236–407`. -/
def glibtopGetProcMapP (kernel : MapKernel) (fuel : Nat) (pid : BitVec 32) :
    Prog Process (ProcMap × Option (List MapEntry)) :=
  if pid = 0 then pure ({}, none)
  else do
    suidEnter
    match kernel.procs with
    | none =>
      suidLeave
      pure ({}, none)
    | some (count, vmspaceAddr) =>
      if count < 1 then do
        suidLeave
        pure ({}, none)
      else do
        match ← kvmRead kernel.vmspace vmspaceAddr with
        | none =>
          suidLeave
          pure ({}, none)
        | some vmspace =>
          match ← kvmRead kernel.entry vmspace.first with
          | .error _ =>
            suidLeave
            pure ({}, none)
          | .ok entry => do
            let maps ← walk kernel vmspace.first fuel false entry []
            suidLeave
            pure (procMapOf (BitVec.ofNat 64 maps.length), some maps)

section

variable {u : Suid}

theorem ensures_inodeDevice (kernel : MapKernel) (tag : List UInt8) (inode : Inode) :
    Ensures (HasSuid u) (inodeDevice kernel tag inode) fun _ ↦ HasSuid u := by
  unfold inodeDevice
  split
  · refine ensures_bind (ensures_kvmRead _ _ u) fun answer ↦ ?_
    cases answer with
    | none => exact ensures_same _
    | some root => exact ensures_same _
  · refine ensures_bind (ensures_kvmRead _ _ u) fun answer ↦ ?_
    cases answer with
    | none => exact ensures_same _
    | some dev =>
      refine ensures_bind (ensures_kvmRead _ _ u) fun answer ↦ ?_
      cases answer with
      | none => exact ensures_same _
      | some cdp => exact ensures_same _

theorem ensures_sysdepsFreebsdDevInode (kernel : MapKernel) (handle : BitVec 64) (vn : Vnode) :
    Ensures (HasSuid u) (sysdepsFreebsdDevInode kernel handle vn) fun _ ↦ HasSuid u := by
  unfold sysdepsFreebsdDevInode
  refine ensures_bind (ensures_kvmRead _ _ u) fun answer ↦ ?_
  cases answer with
  | none => exact ensures_same _
  | some tagptr =>
    refine ensures_bind (ensures_kvmRead _ _ u) fun answer ↦ ?_
    cases answer with
    | none => exact ensures_same _
    | some tagstr =>
      dsimp only
      split
      · exact ensures_same _
      refine ensures_bind (ensures_kvmRead _ _ u) fun answer ↦ ?_
      cases answer with
      | none => exact ensures_same _
      | some inode => exact ensures_inodeDevice kernel _ inode

theorem ensures_mapTurn (kernel : MapKernel) (entry : VmMapEntry) :
    Ensures (HasSuid u) (mapTurn kernel entry) fun _ ↦ HasSuid u := by
  unfold mapTurn
  split
  · exact ensures_same _
  split
  · exact ensures_same _
  refine ensures_bind (ensures_kvmRead _ _ u) fun answer ↦ ?_
  cases answer with
  | none => exact ensures_same _
  | some object =>
    dsimp only
    split
    · exact ensures_same _
    split
    · exact ensures_same _
    refine ensures_bind (ensures_kvmRead _ _ u) fun answer ↦ ?_
    cases answer with
    | none => exact ensures_same _
    | some vnode =>
      dsimp only
      split
      · exact ensures_same _
      · exact ensures_bind (ensures_sysdepsFreebsdDevInode kernel _ vnode) fun _ ↦ ensures_same _

theorem ensures_walkTurn (kernel : MapKernel) (update : Bool) (entry : VmMapEntry) :
    Ensures (HasSuid u) (walkTurn kernel update entry) fun _ ↦ HasSuid u := by
  unfold walkTurn
  split
  · refine ensures_bind (ensures_kvmRead _ _ u) fun answer ↦ ?_
    cases answer with
    | error entry => exact ensures_same _
    | ok entry => exact ensures_bind (ensures_mapTurn kernel entry) fun _ ↦ ensures_same _
  · exact ensures_bind (ensures_mapTurn kernel entry) fun _ ↦ ensures_same _

/-- The loop neither raises the privileges nor drops them. -/
theorem ensures_walk (kernel : MapKernel) (first : BitVec 64) (fuel : Nat) (update : Bool)
    (entry : VmMapEntry) (maps : List MapEntry) :
    Ensures (HasSuid u) (walk kernel first fuel update entry maps) fun _ ↦ HasSuid u := by
  induction fuel generalizing update entry maps with
  | zero => exact ensures_throw .running
  | succ fuel ih =>
    unfold walk
    refine ensures_bind (ensures_walkTurn kernel update entry) fun turn ↦ ?_
    dsimp only
    split
    · exact ensures_same _
    · exact ih _ _ _

/-- Wherever the function returns, it has dropped the privileges that it raised. -/
theorem ensures_glibtopGetProcMapP (kernel : MapKernel) (fuel : Nat) (pid : BitVec 32) :
    Ensures (HasSuid u) (glibtopGetProcMapP kernel fuel pid) fun _ p ↦
      p.suid = u ∨ u.enter.leave = some p.suid := by
  have hleave : ∀ result : ProcMap × Option (List MapEntry),
      Ensures (HasSuid u.enter) (do suidLeave; pure result) fun _ p ↦
        p.suid = u ∨ u.enter.leave = some p.suid := fun result ↦
    ensures_bind (ensures_suidLeave u.enter) fun _ ↦ ensures_pure fun _ hp ↦ .inr hp
  unfold glibtopGetProcMapP
  split
  · exact ensures_pure fun _ hp ↦ .inl hp
  refine ensures_bind (ensures_suidEnter u) fun _ ↦ ?_
  split
  · exact hleave _
  split
  · exact hleave _
  refine ensures_bind (ensures_kvmRead _ _ u.enter) fun answer ↦ ?_
  cases answer with
  | none => exact hleave _
  | some vmspace =>
    refine ensures_bind (ensures_kvmRead _ _ u.enter) fun answer ↦ ?_
    cases answer with
    | error entry => exact hleave _
    | ok entry =>
      exact ensures_bind (ensures_walk kernel vmspace.first fuel false entry []) fun maps ↦
        hleave _

end

end LibGTop.FreeBsd
