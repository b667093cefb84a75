import LibGTop.Linux.Readers

/-!
# The list of processes

`glibtop_get_proclist_s` (`sysdeps/linux/proclist.c:58–169`). Every look at the
files of a process is one of its own, so an entry comes with what each of them
finds.
-/

namespace LibGTop.Linux

open Base

/-- What a look at a process finds: the owner of its directory, its status file and its stat
file. -/
structure Look where
  owner : Option (UInt32 × UInt32)
  status : Option (List UInt8)
  stat : Option (List UInt8)

/-- An entry of `/proc` as `readdir` returns it, with what the looks at it find, in the order the
loop takes them. -/
structure Entry where
  isDir : Bool
  name : List UInt8
  selector : Look
  notty : Look
  idle : Look
  system : Look

/-- `glibtop_proclist`, `include/glibtop/proclist.h`. -/
structure ProcList where
  flags : BitVec 64 := 0
  number : BitVec 64 := 0
  total : BitVec 64 := 0
  size : BitVec 64 := 0

/-- `_glibtop_sysdeps_proclist`: `TOTAL`, `NUMBER` and `SIZE`. -/
def sysdepsProclist : BitVec 64 := flagBits [1, 0, 2]

/-- `GLIBTOP_KERN_PROC_*`, `include/glibtop/proclist.h:45–90`. -/
inductive KernProc
  | all
  | pid
  | pgrp
  | session
  | tty
  | uid
  | ruid
  deriving DecidableEq, Repr

/-- The value of a selector. -/
def KernProc.value : KernProc → BitVec 64
  | all => 0
  | pid => 1
  | pgrp => 2
  | session => 3
  | tty => 4
  | uid => 5
  | ruid => 6

/-- `GLIBTOP_KERN_PROC_MASK`. -/
def kernProcMask : BitVec 64 := 15

/-- The bits of `GLIBTOP_EXCLUDE_IDLE`, `GLIBTOP_EXCLUDE_SYSTEM` and `GLIBTOP_EXCLUDE_NOTTY`,
`include/glibtop/proclist.h:93–111`. -/
def excludeIdle : Nat := 12

@[inherit_doc excludeIdle] def excludeSystem : Nat := 13

@[inherit_doc excludeIdle] def excludeNotty : Nat := 14

/-- A field of `glibtop_get_proc_uid_s` is compared only when its flag is set,
`sysdeps/linux/proclist.c:110–137`. -/
def fieldPasses (procuid : ProcUid) (flag : Nat) (field : Int) (arg : BitVec 64) : Bool :=
  !hasFlag procuid.flags flag || toInt32 arg.toInt = field

/-- The `switch` over the selector, `sysdeps/linux/proclist.c:89–138`: the process is not passed
over. -/
def selects (osVersionCode : Nat) (which arg : BitVec 64) (pid : Int) (look : Look) : Bool :=
  let procuid := glibtopGetProcUidS osVersionCode look.status look.stat
  if which &&& kernProcMask = KernProc.all.value then true
  else if which &&& kernProcMask = KernProc.pid.value then toInt32 arg.toInt = pid
  else if which &&& kernProcMask = KernProc.uid.value then
    match look.owner with
    | none => false
    | some (uid, _) => arg.setWidth 32 = uid.toBitVec
  else if which &&& kernProcMask = KernProc.pgrp.value then
    fieldPasses procuid procUidPgrp procuid.pgrp arg
  else if which &&& kernProcMask = KernProc.session.value then
    fieldPasses procuid procUidSession procuid.session arg
  else if which &&& kernProcMask = KernProc.tty.value then
    fieldPasses procuid procUidTty procuid.tty arg
  else if which &&& kernProcMask = KernProc.ruid.value then
    fieldPasses procuid procUidEuid procuid.euid arg
  else true

/-- `GLIBTOP_EXCLUDE_NOTTY` passes the process over, `sysdeps/linux/proclist.c:140–144`. -/
def dropsNotty (osVersionCode : Nat) (which : BitVec 64) (look : Look) : Bool :=
  let procuid := glibtopGetProcUidS osVersionCode look.status look.stat
  which.getLsbD excludeNotty && hasFlag procuid.flags procUidTty && procuid.tty = -1

/-- `GLIBTOP_EXCLUDE_IDLE` passes the process over, `sysdeps/linux/proclist.c:146–150`. -/
def dropsIdle (which : BitVec 64) (look : Look) : Except Fault Bool :=
  if which.getLsbD excludeIdle then
    (glibtopGetProcStateS look.owner look.stat).map fun procstate ↦
      hasFlag procstate.flags procStateState && procstate.state ≠ processRunning
  else .ok false

/-- `GLIBTOP_EXCLUDE_SYSTEM` passes the process over, `sysdeps/linux/proclist.c:152–156`. -/
def dropsSystem (osVersionCode : Nat) (which : BitVec 64) (look : Look) : Bool :=
  let procuid := glibtopGetProcUidS osVersionCode look.status look.stat
  which.getLsbD excludeSystem && hasFlag procuid.flags procUidUid && procuid.uid = 0

/-- The body of the loop, `sysdeps/linux/proclist.c:80–158`: the process that is appended. -/
def listedPid (osVersionCode : Nat) (which arg : BitVec 64) (entry : Entry) :
    Except Fault (Option Int) :=
  let pid := toInt32 (strtoull 10 entry.name).1.toInt
  if !entry.isDir then .ok none
  else if pid = 0 then .ok none
  else if !selects osVersionCode which arg pid entry.selector then .ok none
  else if dropsNotty osVersionCode which entry.notty then .ok none
  else
    match dropsIdle which entry.idle with
    | .error fault => .error fault
    | .ok true => .ok none
    | .ok false =>
      if dropsSystem osVersionCode which entry.system then .ok none
      else .ok (some pid)

/-- The loop over the directory. -/
def listedPids (osVersionCode : Nat) (which arg : BitVec 64) : List Entry → Except Fault (List Int)
  | [] => .ok []
  | entry :: entries =>
    match listedPid osVersionCode which arg entry with
    | .error fault => .error fault
    | .ok pid => (listedPids osVersionCode which arg entries).map fun pids ↦ pid.toList ++ pids

/-- `glibtop_get_proclist_s`, `sysdeps/linux/proclist.c:58–169`; the directory is absent when it
cannot be opened. The list is absent when a null pointer is returned. -/
def glibtopGetProclistS (osVersionCode : Nat) (proc : Option (List Entry))
    (which arg : BitVec 64) : Except Fault (ProcList × Option (List Int)) :=
  match proc with
  | none => .ok ({}, none)
  | some entries =>
    (listedPids osVersionCode which arg entries).map fun pids ↦
      let number := (BitVec.ofNat 32 pids.length).setWidth 64
      ({ flags := sysdepsProclist, size := 4, number := number, total := number * 4 }, some pids)

end LibGTop.Linux
