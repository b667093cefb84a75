import LibGTop.Base.Masks
import LibGTop.Linux.Text

/-!
# The readers of a process

`glibtop_get_proc_state_s` (`sysdeps/linux/procstate.c:48–123`),
`glibtop_get_proc_uid_s` (`sysdeps/linux/procuid.c:51–124`) and
`glibtop_get_proc_time_s` (`sysdeps/linux/proctime.c:53–132`), on the contents of
the files of the process. A file that cannot be opened or read is absent; `stat`
and each file fail on their own.
-/

namespace LibGTop.Linux

open Base

/-- `BUFSIZ` of the GNU C library. -/
def bufsiz : Nat := 8192

/-- `LINUX_VERSION_CODE`, `sysdeps/linux/glibtop_private.h:33`. -/
def linuxVersionCode (x y z : Nat) : Nat := 0x10000 * x + 0x100 * y + z

/-- A mask written as the sum of `1L << bit`. -/
def flagBits (bits : List Nat) : BitVec 64 := sumMasks 64 id (fun _ ↦ true) bits

/-- A test `flags & (1L << bit)`. -/
def hasFlag (flags : BitVec 64) (bit : Nat) : Bool := flags.getLsbD bit

/-- `glibtop_proc_state`, `include/glibtop/procstate.h:55–73`, without the fields that are not
used on this system. -/
structure ProcState where
  flags : BitVec 64 := 0
  cmd : List UInt8 := []
  state : UInt32 := 0
  uid : Int := 0
  gid : Int := 0
  lastProcessor : Int := 0
  deriving DecidableEq

/-- `_glibtop_sysdeps_proc_state`: `CMD` and `STATE`. -/
def sysdepsProcState : BitVec 64 := flagBits [0, 1]

/-- `_glibtop_sysdeps_proc_state_uid`: `UID` and `GID`. -/
def sysdepsProcStateUid : BitVec 64 := flagBits [2, 3]

/-- `GLIBTOP_PROC_STATE_STATE`. -/
def procStateState : Nat := 1

/-- `GLIBTOP_PROCESS_RUNNING`. -/
def processRunning : UInt32 := 1

/-- The `switch` of `sysdeps/linux/procstate.c:81–110`: the `GLIBTOP_PROCESS_*` of the byte at a
pointer; any other byte leaves 0. -/
def processState (p : List UInt8) : UInt32 :=
  match p.head? with
  | some 82 => processRunning
  | some 90 => 8
  | some 83 => 2
  | some 84 => 16
  | some 68 => 4
  | some 87 => 32
  | some 88 => 64
  | _ => 0

/-- How a reader fails to return: `glibtop_error_r`, or a null pointer that is followed. -/
inductive Fault
  | badData
  | nullPointer
  deriving DecidableEq, Repr

/-- `glibtop_get_proc_state_s`, `sysdeps/linux/procstate.c:48–123`; `owner` is what `stat` gives for
the directory. -/
def glibtopGetProcStateS (owner : Option (UInt32 × UInt32)) (stat : Option (List UInt8)) :
    Except Fault ProcState :=
  match owner with
  | none => .ok {}
  | some (uid, gid) =>
    let buf : ProcState :=
      { uid := toInt32 uid.toNat, gid := toInt32 gid.toNat, flags := sysdepsProcStateUid }
    match tryFileToBuffer bufsiz stat with
    | none => .ok buf
    | some buffer =>
      match procStatAfterCmd buffer with
      | none => .error .nullPointer
      | some (before, p) =>
        let p := nextToken p
        let state := processState p
        let p := skipMultipleToken p 36
        let lastProcessor := toInt32 (strtol 10 p).1
        match skipToken before with
        | 40 :: cmd => .ok { buf with
            state := state
            lastProcessor := lastProcessor
            cmd := cmd.take 39
            flags := buf.flags ||| sysdepsProcState }
        | _ => .error .badData

/-- `glibtop_proc_uid`, `include/glibtop/procuid.h:58–81`, without the fields that are not used on
this system. -/
structure ProcUid where
  flags : BitVec 64 := 0
  uid : Int := 0
  euid : Int := 0
  gid : Int := 0
  egid : Int := 0
  pid : Int := 0
  ppid : Int := 0
  pgrp : Int := 0
  session : Int := 0
  tty : Int := 0
  tpgid : Int := 0
  priority : Int := 0
  nice : Int := 0
  deriving DecidableEq

/-- `_glibtop_sysdeps_proc_uid`: `UID`, `EUID`, `GID` and `EGID`. -/
def sysdepsProcUid : BitVec 64 := flagBits [0, 1, 2, 3]

/-- `_glibtop_sysdeps_proc_uid_stat`: `PID`, `PPID`, `PGRP`, `SESSION`, `TTY`, `TPGID`, `PRIORITY`
and `NICE`. -/
def sysdepsProcUidStat : BitVec 64 := flagBits [8, 9, 10, 11, 12, 13, 14, 15]

/-- `GLIBTOP_PROC_UID_UID`, `GLIBTOP_PROC_UID_EUID`, `GLIBTOP_PROC_UID_PGRP`,
`GLIBTOP_PROC_UID_SESSION` and `GLIBTOP_PROC_UID_TTY`, `include/glibtop/procuid.h:30–42`. -/
def procUidUid : Nat := 0

@[inherit_doc procUidUid] def procUidEuid : Nat := 1

@[inherit_doc procUidUid] def procUidPgrp : Nat := 10

@[inherit_doc procUidUid] def procUidSession : Nat := 11

@[inherit_doc procUidUid] def procUidTty : Nat := 12

/-- The first part of `glibtop_get_proc_uid_s`, on the status file,
`sysdeps/linux/procuid.c:60–93`: what it has stored, and whether it goes on. -/
def readStatus (buffer : List UInt8) : ProcUid × Bool :=
  let buf : ProcUid := {}
  match strstr (asciiBytes ['\n', 'P', 'i', 'd', ':']) buffer with
  | none => (buf, false)
  | some p =>
    let (pid, p) := strtol 0 (skipToken p)
    let (ppid, p) := strtol 0 (skipToken p)
    let buf := { buf with pid := toInt32 pid, ppid := toInt32 ppid }
    match strstr (asciiBytes ['\n', 'U', 'i', 'd', ':']) p with
    | none => (buf, false)
    | some p =>
      let (uid, p) := strtol 0 (skipToken p)
      let (euid, p) := strtol 0 p
      let buf := { buf with uid := toInt32 uid, euid := toInt32 euid }
      match strstr (asciiBytes ['\n', 'G', 'i', 'd', ':']) p with
      | none => (buf, false)
      | some p =>
        let (gid, p) := strtol 0 (skipToken p)
        let (egid, _) := strtol 0 p
        ({ buf with gid := toInt32 gid, egid := toInt32 egid, flags := sysdepsProcUid }, true)

/-- The second part, on the text behind the command in the stat file,
`sysdeps/linux/procuid.c:95–123`. -/
def readStatFields (osVersionCode : Nat) (buf : ProcUid) (p : List UInt8) : ProcUid :=
  let p := skipMultipleToken p 2
  let (pgrp, p) := strtol 0 p
  let (session, p) := strtol 0 p
  let (tty, p) := strtol 0 p
  let (tpgid, p) := strtol 0 p
  let p := skipMultipleToken p 9
  let (priority, p) := strtol 0 p
  let (nice, _) := strtol 0 p
  let buf : ProcUid := { buf with
    pgrp := toInt32 pgrp
    session := toInt32 session
    tty := toInt32 tty
    tpgid := toInt32 tpgid
    priority := toInt32 priority
    nice := toInt32 nice }
  let buf : ProcUid := if buf.tty = 0 then { buf with tty := -1 } else buf
  let buf : ProcUid :=
    if osVersionCode < linuxVersionCode 1 3 39 then
      { buf with priority := toInt32 (30 - buf.priority), nice := toInt32 (15 - buf.nice) }
    else if osVersionCode < linuxVersionCode 1 1 30 ∧ buf.tty ≠ -1 then
      { buf with tty := toInt32 (4 * (0x100 : Int) + buf.tty) }
    else buf
  { buf with flags := buf.flags ||| sysdepsProcUidStat }

/-- `glibtop_get_proc_uid_s`, `sysdeps/linux/procuid.c:51–124`. -/
def glibtopGetProcUidS (osVersionCode : Nat) (status stat : Option (List UInt8)) : ProcUid :=
  match tryFileToBuffer bufsiz status with
  | none => {}
  | some buffer =>
    let (buf, on) := readStatus buffer
    if on then
      match tryFileToBuffer bufsiz stat with
      | none => buf
      | some buffer =>
        match procStatAfterCmd buffer with
        | none => buf
        | some (_, p) => readStatFields osVersionCode buf p
    else buf

/-- `glibtop_proc_time`, `include/glibtop/proctime.h:73–89`; of the arrays the entries that are
stored, both of one CPU together. -/
structure ProcTime where
  flags : BitVec 64 := 0
  startTime : BitVec 64 := 0
  rtime : BitVec 64 := 0
  utime : BitVec 64 := 0
  stime : BitVec 64 := 0
  cutime : BitVec 64 := 0
  cstime : BitVec 64 := 0
  itRealValue : BitVec 64 := 0
  frequency : BitVec 64 := 0
  xcpu : List (BitVec 64 × BitVec 64) := []
  deriving DecidableEq

/-- `_glibtop_sysdeps_proc_time`, all but `XCPU_UTIME` and `XCPU_STIME`. -/
def sysdepsProcTime : BitVec 64 := flagBits [2, 4, 1, 3, 5, 8, 6, 7, 0]

/-- `_glibtop_sysdeps_proc_time_smp`: `XCPU_UTIME` and `XCPU_STIME`. -/
def sysdepsProcTimeSmp : BitVec 64 := flagBits [9, 10]

/-- `read_boot_time`, `sysdeps/linux/glibtop_private.c:154–178`, on the lines of `/proc/stat`. -/
def readBootTime : List (List UInt8) → BitVec 64
  | [] => 0
  | line :: rest =>
    if (asciiBytes ['b', 't', 'i', 'm', 'e']).isPrefixOf line then
      (strtoull 10 (skipToken (cString line))).1
    else readBootTime rest

/-- `get_boot_time`, `sysdeps/linux/glibtop_private.c:182–193`, with its static variable; absent
when `glibtop_error_io_r` ends the process. -/
def getBootTime (cached : BitVec 64) (procStat : Option (List UInt8)) : Option (BitVec 64) :=
  if cached = 0 then procStat.map fun content ↦ readBootTime (lines content) else some cached

/-- The loop of `sysdeps/linux/proctime.c:122–130`, from CPU `i` on. -/
def readCpuTimes (p : List UInt8) (i : Nat) : Nat → List (BitVec 64 × BitVec 64)
  | 0 => []
  | count + 1 =>
    if checkCpuLine (p.drop 1) i then
      let (utime, p) := strtoull 0 (skipToken p)
      let (stime, p) := strtoull 0 p
      (utime, stime) :: readCpuTimes p (i + 1) count
    else []

/-- The part of `glibtop_get_proc_time_s` on the text behind the command in the stat file,
`sysdeps/linux/proctime.c:67–109`, with the pointer it ends at. -/
def readTimes (boot : BitVec 64) (p : List UInt8) : ProcTime × List UInt8 :=
  let p := skipMultipleToken p 11
  let (utime, p) := strtoull 0 p
  let (stime, p) := strtoull 0 p
  let (cutime, p) := strtoull 0 p
  let (cstime, p) := strtoull 0 p
  let p := skipMultipleToken p 3
  let (itRealValue, p) := strtoull 0 p
  let (start, p) := strtoull 0 p
  ({ utime := utime
     stime := stime
     rtime := utime + stime
     cutime := cutime
     cstime := cstime
     itRealValue := itRealValue
     startTime := boot + start / 100
     frequency := 100
     flags := sysdepsProcTime }, p)

/-- `glibtop_get_proc_time_s`, `sysdeps/linux/proctime.c:53–132`; absent when the process ends. The
pointer into the stat file is used on the buffer that holds the file `cpu` by then; `stack` is what
the buffer held at first. -/
def glibtopGetProcTimeS (ncpu : Int) (boot : Option (BitVec 64)) (stack : List UInt8)
    (stat cpu : Option (List UInt8)) : Option ProcTime :=
  match tryFileToBuffer bufsiz stat with
  | none => some {}
  | some buffer =>
    match procStatAfterCmd buffer with
    | none => some {}
    | some (before, after) =>
      boot.map fun boot ↦
        let (buf, p) := readTimes boot after
        if ncpu = 0 then buf
        else
          match tryFileToBuffer bufsiz cpu with
          | none => buf
          | some text =>
            let memory := overlay (overlay stack (before ++ 0 :: (after ++ [0]))) (text ++ [0])
            let p := memory.drop (before.length + 1 + (after.length - p.length))
            { buf with
              xcpu := readCpuTimes (skipMultipleToken p 3) 0 (ncpu + 1).toNat
              flags := buf.flags ||| sysdepsProcTimeSmp }

end LibGTop.Linux
