import LibGTop.Base.Scan
import LibGTop.Common.PidBlocks

/-!
# The list of processes of Solaris

`glibtop_get_proclist_s` (`sysdeps/solaris/proclist.c:60–240`), with the files of the system that
have `<procfs.h>`. The selection of one process by its pid is apart from the loop over `/proc`,
which collects the pids in blocks. -/

namespace LibGTop.Solaris

open Base
open Linux (ProcList sysdepsProclist kernProcMask KernProc excludeIdle excludeSystem excludeNotty)
open Common (PidArray returned pidList returned_collect_iff unsignedSizes)

/-- The fields of `struct psinfo` by which a process is listed; `system` is `pr_flag & SSYS`. -/
structure PsInfo where
  pctcpu : BitVec 16
  system : Bool
  ttydev : BitVec 64
  pgid : BitVec 32
  sid : BitVec 32
  euid : BitVec 32
  uid : BitVec 32
  deriving DecidableEq

/-- The names in `/proc`, absent when it cannot be opened; what `stat` tells of a path, whether it
is a directory and its owner; and what `glibtop_get_proc_data_psinfo_s` reads of a process. -/
structure ProcFs where
  names : Option (List (List UInt8))
  stat : List UInt8 → Option (Bool × BitVec 32)
  psinfo : BitVec 32 → Option PsInfo

/-- `PRNODEV`. -/
def prnodev : BitVec 64 := -1

/-- The path that is written for a process. -/
def procPath (pid : Int) : List UInt8 := asciiBytes "/proc/".toList ++ signedDecimal pid

section

variable (fs : ProcFs) (mask : BitVec 32) (which arg : BitVec 64)

/-- The exclusions, `sysdeps/solaris/proclist.c:87–92` and `146–155`. -/
def drops (psinfo : PsInfo) : Bool :=
  mask.getLsbD excludeIdle && psinfo.pctcpu = 0 || mask.getLsbD excludeSystem && psinfo.system ||
    mask.getLsbD excludeNotty && psinfo.ttydev = prnodev

/-- The `switch` over the selector, `sysdeps/solaris/proclist.c:156–175`: the process is not passed
over. -/
def selects (psinfo : PsInfo) : Bool :=
  if which = KernProc.pgrp.value then psinfo.pgid.signExtend 64 = arg
  else if which = KernProc.session.value then psinfo.sid.signExtend 64 = arg
  else if which = KernProc.tty.value then psinfo.ttydev = arg
  else if which = KernProc.uid.value then psinfo.euid.setWidth 64 = arg
  else if which = KernProc.ruid.value then psinfo.uid.setWidth 64 = arg
  else true

/-- Without exclusions, the owner of the directory is looked at first,
`sysdeps/solaris/proclist.c:130–138`. -/
def skipsByOwner (pid : BitVec 32) : Bool :=
  mask = 0 && which = KernProc.ruid.value &&
    match fs.stat (procPath pid.toInt) with
    | none => true
    | some (isDir, uid) => !isDir || uid.setWidth 64 ≠ arg

/-- The process is passed over for what is read of it, `sysdeps/solaris/proclist.c:140–176`. -/
def skipsByInfo (pid : BitVec 32) : Bool :=
  (mask ≠ 0 || which ≠ KernProc.all.value) &&
    match fs.psinfo pid with
    | none => true
    | some psinfo => drops mask psinfo || !selects which arg psinfo

/-- The body of the loop up to the block: the pid that is added for a name. -/
def entryPid (name : List UInt8) : Option (BitVec 32) :=
  if name.head? = some 46 then none
  else
    let pid := BitVec.ofInt 32 (strtol 10 name).1
    if skipsByOwner fs mask which arg pid then none
    else if skipsByInfo fs mask which arg pid then none
    else some pid

/-- The loop over the names, `sysdeps/solaris/proclist.c:110–206`. -/
def readEntries (s : Collecting 32 (BitVec 32)) :
    List (List UInt8) → Except Mishap (Collecting 32 (BitVec 32))
  | [] => .ok s
  | name :: names =>
    match entryPid fs mask which arg name with
    | none => readEntries s names
    | some pid => s.put unsignedSizes pid >>= fun s ↦ readEntries s names

/-- The selection of one process, `sysdeps/solaris/proclist.c:78–104`. -/
def selectProcess : PidArray :=
  let pid : BitVec 32 := 0
  if mask ≠ 0 then
    match fs.psinfo pid with
    | none => none
    | some psinfo => if drops mask psinfo then none else some [some pid]
  else
    match fs.stat (procPath arg.toInt) with
    | none => none
    | some _ => some [some pid]

/-- `mask = which & ~GLIBTOP_KERN_PROC_MASK`. -/
def maskOf : BitVec 32 := (which &&& ~~~kernProcMask).setWidth 32

/-- `glibtop_get_proclist_s`. -/
def glibtopGetProclistS : Except Mishap (ProcList × PidArray) :=
  let mask := maskOf which
  let selector := which &&& kernProcMask
  if selector = KernProc.pid.value then .ok ({}, selectProcess fs mask arg)
  else
    match fs.names with
    | none => .ok ({}, none)
    | some names =>
      (readEntries fs mask selector arg {} names >>= fun s ↦ s.finish unsignedSizes).map
        (returned fun total ↦ total.setWidth 64)

/-- The pids that are accepted, in the order of the names. -/
def accepted (names : List (List UInt8)) : List (BitVec 32) :=
  names.filterMap (entryPid fs (maskOf which) (which &&& kernProcMask) arg)

end

section

variable {fs : ProcFs} {mask : BitVec 32} {which arg : BitVec 64}

/-- The loop adds the accepted pids one after the other. -/
theorem readEntries_eq (s : Collecting 32 (BitVec 32)) (names : List (List UInt8)) :
    readEntries fs mask which arg s names =
      s.putAll unsignedSizes (names.filterMap (entryPid fs mask which arg)) := by
  induction names generalizing s with
  | nil => rfl
  | cons name names ih =>
    rw [readEntries, List.filterMap_cons]
    cases entryPid fs mask which arg name with
    | none => exact ih s
    | some pid => exact congrArg _ (funext fun s ↦ ih s)

/-- What the loop and the end of the function make of the accepted pids. -/
theorem glibtopGetProclistS_eq {names : List (List UInt8)} (hn : fs.names = some names)
    (hs : which &&& kernProcMask ≠ KernProc.pid.value) :
    glibtopGetProclistS fs which arg =
      (Collecting.collect unsignedSizes (accepted fs which arg names)).map
        (returned fun total ↦ total.setWidth 64) := by
  simp only [glibtopGetProclistS, if_neg hs, hn, readEntries_eq]
  rfl

/-- The list is that of the accepted pids if and only if there are fewer of them than an `unsigned`
can tell the bytes of. -/
theorem glibtopGetProclistS_lists_iff {names : List (List UInt8)} (hn : fs.names = some names)
    (hs : which &&& kernProcMask ≠ KernProc.pid.value) :
    glibtopGetProclistS fs which arg = .ok (pidList (accepted fs which arg names)) ↔
      (accepted fs which arg names).length < 2 ^ 30 := by
  rw [glibtopGetProclistS_eq hn hs, returned_collect_iff]
  · change _ * 4 < 2 ^ 32 ↔ _
    omega
  · intro hb
    have hlt : _ * 4 < 2 ^ 32 := hb
    exact BitVec.setWidth_ofNat_of_le_of_lt (by decide) (by omega)

end

end LibGTop.Solaris
