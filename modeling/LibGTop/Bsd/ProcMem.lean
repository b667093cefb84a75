import LibGTop.Bsd.ProcMap

/-!
# The memory of a process

`glibtop_get_proc_mem_p` of NetBSD (`sysdeps/bsd/procmem.c:115–293`), which adds up the pages of the
vnodes that the map entries of a process refer to. What the kernel answers to the reads is an
argument, and so is the number of bits by which a page is larger than 1024 bytes.
-/

namespace LibGTop.Bsd

open Base

/-- `glibtop_proc_mem`. -/
structure ProcMem where
  flags : BitVec 64 := 0
  size : BitVec 64 := 0
  vsize : BitVec 64 := 0
  resident : BitVec 64 := 0
  share : BitVec 64 := 0
  rss : BitVec 64 := 0
  rssRlim : BitVec 64 := 0
  deriving DecidableEq

/-- `struct vnode` with its `v_usecount`, or `uo_refs` in its place, and its `uo_npages`. -/
structure MemVnode extends Vnode where
  usecount : BitVec 32
  npages : BitVec 32

/-- `struct kinfo_proc`: the address of the `vmspace` and the sizes in `e_vm`. -/
structure KinfoMem where
  vmspace : BitVec 64
  tsize : BitVec 32
  dsize : BitVec 32
  ssize : BitVec 32
  rssize : BitVec 32

/-- What the kernel answers: the number of processes and the first one, and for each read the
structure, or that it was cut; of `plimit` that is the limit of the resident set. -/
structure MemKernel where
  procs : Option (Int × KinfoMem)
  plimit : Nat → BitVec 64 → Option (BitVec 64)
  vmspace : Nat → BitVec 64 → Option Vmspace
  entry : Nat → BitVec 64 → Option VmMapEntry
  vnode : Nat → BitVec 64 → Option MemVnode
  uvmVnodeValid : Option (BitVec 32)

/-- `_glibtop_sysdeps_proc_mem | _glibtop_sysdeps_proc_mem_share`. -/
def sysdepsProcMem : BitVec 64 := Linux.flagBits [0, 1, 2, 4, 5] ||| Linux.flagBits [3]

/-- `pagetok`, of a signed number. -/
def pagetok (pageshift : Nat) (size : BitVec 32) : BitVec 32 := size <<< pageshift

/-- `(guint64) pagetok (size) << LOG1024`. -/
def pageBytes (pageshift : Nat) (size : BitVec 32) : BitVec 64 :=
  (pagetok pageshift size).signExtend 64 <<< 10

/-- `pagetok (npages) << LOG1024`, which is shifted before it is added to a `guint64`. -/
def sharedBytes (pageshift : Nat) (npages : BitVec 32) : BitVec 64 :=
  (pagetok pageshift npages <<< 10).signExtend 64

/-- What a vnode adds to the shared memory, `sysdeps/bsd/procmem.c:261–280`. -/
def shareOf (pageshift : Nat) (valid : Option (BitVec 32)) (vnode : MemVnode) : BitVec 64 :=
  if notValid valid vnode.toVnode then 0
  else if vnode.type ≠ .vreg ∨ vnode.isUfs = false ∨ vnode.data = 0 then 0
  else if vnode.usecount.sle 1 then 0
  else sharedBytes pageshift vnode.npages

/-- The body of the loop behind the read of the entry: what it adds, without a value where it
returns from the function. -/
def memTurn (kernel : MemKernel) (pageshift : Nat) (entry : VmMapEntry) :
    Prog Process (Option (BitVec 64)) :=
  if entry.isSubMap then pure (some 0)
  else if entry.object = 0 then pure (some 0)
  else do
    match ← kvmRead kernel.vnode entry.object with
    | none => pure none
    | some vnode => pure (some (shareOf pageshift kernel.uvmVnodeValid vnode))

/-- The loop, `sysdeps/bsd/procmem.c:208–289`: the sum, and whether the loop was run to its end. -/
def memWalk (kernel : MemKernel) (pageshift : Nat) (first : BitVec 64) :
    Nat → VmMapEntry → BitVec 64 → Prog Process (BitVec 64 × Bool)
  | 0, _, _ => throw .running
  | fuel + 1, entry, share =>
    if entry.next = first then pure (share, true)
    else do
      match ← kvmRead kernel.entry entry.next with
      | none => pure (share, false)
      | some entry =>
        match ← memTurn kernel pageshift entry with
        | none => pure (share, false)
        | some added => memWalk kernel pageshift first fuel entry (share + added)

/-- The fields that are set before the loop. -/
def memSizes (pageshift : Nat) (rlimit : BitVec 64) (pinfo : KinfoMem) : ProcMem :=
  let size := pageBytes pageshift (pinfo.tsize + pinfo.dsize + pinfo.ssize)
  let resident := pageBytes pageshift pinfo.rssize
  { size := size, vsize := size, resident := resident, rss := resident, rssRlim := rlimit }

/-- `glibtop_get_proc_mem_p`, `sysdeps/bsd/procmem.c:115–293`, of a server that is initialised. -/
def glibtopGetProcMemP (kernel : MemKernel) (pageshift fuel : Nat) (pid : BitVec 32) :
    Prog Process ProcMem :=
  if pid = 0 then pure {}
  else
    match kernel.procs with
    | none => pure {}
    | some (count, pinfo) =>
      if count < 1 then pure {}
      else do
        match ← kvmRead kernel.plimit pinfo.vmspace with
        | none => pure {}
        | some rlimit =>
          let buf := memSizes pageshift rlimit pinfo
          match ← kvmRead kernel.vmspace pinfo.vmspace with
          | none => pure buf
          | some vmspace =>
            match ← kvmRead kernel.entry vmspace.first with
            | none => pure buf
            | some entry => do
              let (share, through) ← memWalk kernel pageshift vmspace.first fuel entry 0
              let buf := { buf with share := share }
              pure (if through then { buf with flags := sysdepsProcMem } else buf)

end LibGTop.Bsd
