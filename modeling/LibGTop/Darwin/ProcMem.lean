import LibGTop.Base.FirstOccurrences
import LibGTop.Bsd.ProcMem

/-!
# The memory of a process on Darwin

`glibtop_get_proc_mem_p` (`sysdeps/darwin/procmem.c:50–245`), which counts each shared object once
by a table with chains, and as private where the task has all references to it. What the Mach
calls return is an argument, with the regions in order up to the first call that fails.
-/

namespace LibGTop.Darwin

open Base

/-- `SHARED_TABLE_SIZE`. -/
def sharedTableSize : Nat := 137

/-- `SM_COW`. -/
def smCow : BitVec 32 := 1

/-- `SM_PRIVATE`. -/
def smPrivate : BitVec 32 := 2

/-- `SM_EMPTY`. -/
def smEmpty : BitVec 32 := 3

/-- `SM_SHARED`. -/
def smShared : BitVec 32 := 4

/-- `struct shared_info` without its link; `w` is the width of a `vm_size_t`. -/
structure SharedInfo (w : Nat) where
  objId : BitVec 32 := 0
  shareMode : BitVec 32 := 0
  pageCount : BitVec 32 := 0
  refCount : BitVec 32 := 0
  taskRefCount : BitVec 32 := 0
  size : BitVec w := 0
  deriving DecidableEq

/-- A region: its place, and what of `vm_region_basic_info_data_64_t` and of
`vm_region_top_info_data_t` is read. -/
structure Region (w : Nat) where
  address : BitVec w
  size : BitVec w
  reserved : Bool
  objId : BitVec 32
  refCount : BitVec 32
  privatePagesResident : BitVec 32
  sharedPagesResident : BitVec 32
  shareMode : BitVec 32

/-- The constants of the system: `vm_page_size`, `TEXT_SEGMENT_START` and `DATA_SEGMENT_END`. -/
structure MachConstants (w : Nat) where
  vmPageSize : BitVec w
  textSegmentStart : BitVec w
  dataSegmentEnd : BitVec w

/-- `task_basic_info_data_t`. -/
structure TaskBasicInfo (w : Nat) where
  virtualSize : BitVec w
  residentSize : BitVec w

variable {w : Nat}

theorem mod_sharedTableSize_lt (objId : BitVec 32) :
    objId.toNat % sharedTableSize < sharedTableSize :=
  Nat.mod_lt _ (by decide)

/-- `shared_table` behind `shared_table_init`. -/
def sharedTable (w : Nat) : TableLayout (SharedInfo w) (BitVec 32) where
  size := sharedTableSize
  head := {}
  key info := info.objId
  hash objId := objId.toNat % sharedTableSize
  hash_lt := mod_sharedTableSize_lt

theorem sharedTable_size : (sharedTable w).size = sharedTableSize := rfl

/-- `info->task_ref_count++`. -/
def addTaskRef (info : SharedInfo w) : SharedInfo w :=
  { info with taskRefCount := info.taskRefCount + 1 }

/-- What a new node of a region has, by the count of its references. -/
def sharedInfo (top : Region w) (taskRefs : Nat) : SharedInfo w where
  objId := top.objId
  shareMode := top.shareMode
  pageCount := top.sharedPagesResident
  refCount := top.refCount
  taskRefCount := BitVec.ofNat 32 taskRefs
  size := top.size

/-- `shared_table_register`, `sysdeps/darwin/procmem.c:86–117`. -/
def sharedTableRegister (top : Region w) (table : Heap (SharedInfo w)) :
    Option (Heap (SharedInfo w)) :=
  (sharedTable w).register addTaskRef (sharedInfo top 1) table

/-- The variables of the loop over the regions. -/
structure Accounts (w : Nat) where
  table : Heap (SharedInfo w)
  split : Bool
  priv : BitVec w
  vprivate : BitVec w

/-- The variables before the loop. -/
def startAccounts (w : Nat) : Accounts w := ⟨(sharedTable w).empty, false, 0, 0⟩

variable (mach : MachConstants w)

/-- `pages * vm_page_size`. -/
def pagesBytes (pages : BitVec 32) : BitVec w := pages.setWidth w * mach.vmPageSize

/-- The region is in the shared segments. -/
def inSegments (r : Region w) : Bool :=
  mach.textSegmentStart ≤ r.address && r.address < mach.dataSegmentEnd

/-- The `switch` on the share mode, `sysdeps/darwin/procmem.c:187–207`. -/
def accountMode (s : Accounts w) (r : Region w) : Option (Accounts w) :=
  if r.shareMode = smCow then
    if r.refCount = 1 then
      some { s with
        priv := s.priv + pagesBytes mach r.privatePagesResident +
          pagesBytes mach r.sharedPagesResident
        vprivate := s.vprivate + r.size }
    else do
      let table ← sharedTableRegister r s.table
      some { s with
        table
        vprivate := s.vprivate + pagesBytes mach r.privatePagesResident }
  else if r.shareMode = smPrivate then
    some { s with
      priv := s.priv + pagesBytes mach r.privatePagesResident
      vprivate := s.vprivate + r.size }
  else if r.shareMode = smShared then do
    let table ← sharedTableRegister r s.table
    some { s with table }
  else some s

/-- The body of the loop, `sysdeps/darwin/procmem.c:177–209`. -/
def account (s : Accounts w) (r : Region w) : Option (Accounts w) :=
  if inSegments mach r then
    let s := if !s.split && r.shareMode = smEmpty && r.reserved then { s with split := true } else s
    if r.shareMode ≠ smPrivate then some s else accountMode mach s r
  else accountMode mach s r

/-- `private`, `vprivate` and `shared`. -/
structure MemTotals (w : Nat) where
  priv : BitVec w
  vprivate : BitVec w
  shared : BitVec w

/-- What a node adds, `sysdeps/darwin/procmem.c:220–226`. -/
def addNode (s : MemTotals w) (sinfo : SharedInfo w) : MemTotals w :=
  if sinfo.shareMode = smShared ∧ sinfo.refCount = sinfo.taskRefCount then
    { s with
      priv := s.priv + pagesBytes mach sinfo.pageCount
      vprivate := s.vprivate + sinfo.size }
  else { s with shared := s.shared + pagesBytes mach sinfo.pageCount }

/-- `_glibtop_sysdeps_proc_mem`. -/
def sysdepsProcMem : BitVec 64 := Linux.flagBits [0, 1, 2, 3, 4]

/-- What the call returns, the nodes that it obtained and those that it freed, by address. -/
structure MemRun where
  buf : Bsd.ProcMem := {}
  obtained : List Nat := []
  freed : List Nat := []

/-- The `glibtop_proc_mem` of the totals. -/
def memReport (basic : TaskBasicInfo w) (split : Bool) (totals : MemTotals w) : Bsd.ProcMem :=
  let vsize :=
    if split then basic.virtualSize - (mach.dataSegmentEnd - mach.textSegmentStart)
    else basic.virtualSize
  { size := totals.vprivate.setWidth 64
    vsize := vsize.setWidth 64
    resident := basic.residentSize.setWidth 64
    share := totals.shared.setWidth 64
    rss := totals.priv.setWidth 64
    flags := sysdepsProcMem }

/-- `glibtop_get_proc_mem_p`, `sysdeps/darwin/procmem.c:121–245`, by the information on the task
where `task_for_pid` and `task_info` have it; absent where a loop over a chain does not end or
leaves the nodes that there are. -/
def glibtopGetProcMemP (basic : Option (TaskBasicInfo w)) (regions : List (Region w)) :
    Option MemRun := do
  match basic with
  | none => some {}
  | some basic =>
    let s ← regions.foldlM (account mach) (startAccounts w)
    let totals ← (sharedTable w).foldAll (addNode mach) ⟨s.priv, s.vprivate, 0⟩ s.table
    let (_, freed) ← s.table.releaseBehind (List.range sharedTableSize)
    some {
      buf := memReport mach basic s.split totals
      obtained := List.range' sharedTableSize (s.table.fresh - sharedTableSize)
      freed }

end LibGTop.Darwin
