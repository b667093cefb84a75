import LibGTop.Base.Neighbours
import LibGTop.Linux.ProcList
import Mathlib.Data.List.Perm.Subperm

/-!
# The list of processes

`glibtop_get_proclist_p` of FreeBSD (`sysdeps/freebsd/proclist.c:64–165`) on the records of
`kern.proc.all`, which has one for each thread. A process is in the list once and as documented
(`include/glibtop/proclist.h:42–111`) where its records stand next to each other and the selector
compares the right field.
-/

namespace LibGTop.FreeBsd

open Base
open Linux (ProcList sysdepsProclist KernProc kernProcMask excludeIdle excludeSystem excludeNotty
  ProcState procStateState processRunning hasFlag flagBits)

/-- `ki_stat`. -/
inductive KiStat
  | idl
  | run
  | sleep
  | stop
  | zomb
  | wait
  | lock
  deriving DecidableEq, Repr

/-- The fields of `struct kinfo_proc` by which a process is listed. -/
structure ProcRecord where
  pid : BitVec 32
  ppid : BitVec 32
  pgid : BitVec 32
  sid : BitVec 32
  tdev : BitVec 64
  uid : BitVec 32
  ruid : BitVec 32
  comm : List UInt8
  pid_nonneg : pid.toNat < 2 ^ 31
  deriving DecidableEq

/-- The fields of `struct kinfo_proc` by which its state is given. -/
structure KvmProc where
  stat : KiStat
  ruid : BitVec 32
  rgid : BitVec 32
  comm : List UInt8

/-- The records of `kern.proc.all`, which agree where they are of one process. -/
structure ProcTable where
  records : List ProcRecord
  agree : ∀ a ∈ records, ∀ b ∈ records, a.pid = b.pid → a = b

/-- `_glibtop_sysdeps_proc_state`: `CMD`, `STATE`, `UID` and `GID`. -/
def sysdepsProcState : BitVec 64 := flagBits [0, 1, 2, 3]

/-- The `switch` of `sysdeps/freebsd/procstate.c:67–88`. -/
def stateOf : KiStat → UInt32
  | .run => processRunning
  | .sleep => 2
  | .stop => 16
  | .zomb => 8
  | .wait => 4
  | .lock => 4
  | .idl => 0

/-- `glibtop_get_proc_state_p`, `sysdeps/freebsd/procstate.c:45–91`, with the number of processes
that `kvm_getprocs` finds and the first one. -/
def glibtopGetProcStateP (pinfo : Option (Int × KvmProc)) : ProcState :=
  match pinfo with
  | none => {}
  | some (count, p) =>
    if count ≠ 1 then {}
    else
      { flags := sysdepsProcState
        cmd := p.comm.take 39
        state := stateOf p.stat
        uid := p.ruid.toInt
        gid := p.rgid.toInt }

section

variable (kvm : BitVec 32 → Option (Int × KvmProc)) (which arg : BitVec 64)

/-- The `switch` over the selector, `sysdeps/freebsd/proclist.c:108–135`: the record is not passed
over. -/
def selects (r : ProcRecord) : Bool :=
  if which &&& kernProcMask = KernProc.all.value then true
  else if which &&& kernProcMask = KernProc.pid.value then arg.setWidth 32 = r.pid
  else if which &&& kernProcMask = KernProc.uid.value then arg.setWidth 32 = r.ruid
  else if which &&& kernProcMask = KernProc.pgrp.value then arg.setWidth 32 = r.pgid
  else if which &&& kernProcMask = KernProc.session.value then arg.setWidth 32 = r.sid
  else if which &&& kernProcMask = KernProc.tty.value then arg = r.tdev
  else if which &&& kernProcMask = KernProc.ruid.value then arg.setWidth 32 = r.ruid
  else true

/-- `GLIBTOP_EXCLUDE_NOTTY` passes the record over. -/
def dropsNotty (r : ProcRecord) : Bool := which.getLsbD excludeNotty && r.tdev = -1

/-- The command of the kernel's idle process. -/
def idleName : List UInt8 := asciiBytes "idle".toList

/-- `GLIBTOP_EXCLUDE_IDLE` passes the record over, `sysdeps/freebsd/proclist.c:140–147`. -/
def dropsIdle (r : ProcRecord) : Bool :=
  let procstate := glibtopGetProcStateP (kvm r.pid)
  which.getLsbD excludeIdle &&
    ((hasFlag procstate.flags procStateState && procstate.state ≠ processRunning) ||
      (r.ppid = 0 && r.comm = idleName))

/-- `GLIBTOP_EXCLUDE_SYSTEM` passes the record over. -/
def dropsSystem (r : ProcRecord) : Bool := which.getLsbD excludeSystem && r.ruid = 0

/-- A record that is not passed over. -/
def passes (r : ProcRecord) : Bool :=
  selects which arg r && !dropsNotty which r && !dropsIdle kvm which r && !dropsSystem which r

/-- The loop, `sysdeps/freebsd/proclist.c:91–153`, with the pid of the record before. -/
def listed : Option (BitVec 32) → List ProcRecord → List (BitVec 32)
  | _, [] => []
  | prev, r :: records =>
    if prev = some r.pid then listed prev records
    else if passes kvm which arg r then r.pid :: listed (some r.pid) records
    else listed (some r.pid) records

/-- `glibtop_get_proclist_p`; the records are absent when `sysctlbyname` fails, and the list is
absent when no array is made. -/
def glibtopGetProclistP (pinfo : Option (List ProcRecord)) : ProcList × Option (List (BitVec 32)) :=
  match pinfo with
  | none => ({}, none)
  | some records =>
    let pids := listed kvm which arg none records
    let number := (BitVec.ofNat 32 pids.length).setWidth 64
    ({ flags := sysdepsProclist, size := 4, number := number, total := number * 4 }, some pids)

end

namespace ProcRecord

/-- The documented meaning of a selector. -/
def Selected (r : ProcRecord) (arg : BitVec 64) : KernProc → Prop
  | .all => True
  | .pid => arg = r.pid.signExtend 64
  | .pgrp => arg = r.pgid.signExtend 64
  | .session => arg = r.sid.signExtend 64
  | .tty => arg = r.tdev
  | .uid => arg = r.uid.setWidth 64
  | .ruid => arg = r.ruid.setWidth 64

/-- The process is known not to run, or is the idle one of the kernel. -/
def Idle (r : ProcRecord) (kvm : BitVec 32 → Option (Int × KvmProc)) : Prop :=
  (∃ p, kvm r.pid = some (1, p) ∧ p.stat ≠ .run) ∨ r.ppid = 0 ∧ r.comm = idleName

/-- The documented meaning of the exclusions. -/
def Excluded (r : ProcRecord) (kvm : BitVec 32 → Option (Int × KvmProc)) (which : BitVec 64) :
    Prop :=
  which.getLsbD excludeNotty ∧ r.tdev = -1 ∨ which.getLsbD excludeIdle ∧ r.Idle kvm ∨
    which.getLsbD excludeSystem ∧ r.ruid = 0

/-- The process is to be listed. -/
def Wanted (r : ProcRecord) (kvm : BitVec 32 → Option (Int × KvmProc)) (which arg : BitVec 64)
    (sel : KernProc) : Prop :=
  r.Selected arg sel ∧ ¬r.Excluded kvm which

/-- The comparison of a selector comes out as documented: cut to 32 bits, the argument is equal to
the field only if it is so uncut, and the real user is the one that is asked for if and only if the
effective one is. -/
def Served (r : ProcRecord) (arg : BitVec 64) : KernProc → Prop
  | .all => True
  | .pid => arg.setWidth 32 = r.pid → arg = r.pid.signExtend 64
  | .pgrp => arg.setWidth 32 = r.pgid → arg = r.pgid.signExtend 64
  | .session => arg.setWidth 32 = r.sid → arg = r.sid.signExtend 64
  | .tty => True
  | .uid => arg.setWidth 32 = r.ruid ↔ arg = r.uid.setWidth 64
  | .ruid => arg.setWidth 32 = r.ruid → arg = r.ruid.setWidth 64

/-- The comparison that is made for a selector. -/
def Compared (r : ProcRecord) (arg : BitVec 64) : KernProc → Prop
  | .all => True
  | .pid => arg.setWidth 32 = r.pid
  | .pgrp => arg.setWidth 32 = r.pgid
  | .session => arg.setWidth 32 = r.sid
  | .tty => arg = r.tdev
  | .uid => arg.setWidth 32 = r.ruid
  | .ruid => arg.setWidth 32 = r.ruid

section

variable {r : ProcRecord} {arg : BitVec 64}

/-- Uncut, an argument that is equal to a signed field is so cut. -/
theorem setWidth_of_signExtend {field : BitVec 32} (h : arg = field.signExtend 64) :
    arg.setWidth 32 = field := by
  rw [h]
  ext i hi
  simp [BitVec.getLsbD_signExtend, hi]
  omega

theorem setWidth_of_setWidth {field : BitVec 32} (h : arg = field.setWidth 64) :
    arg.setWidth 32 = field := by
  rw [h, BitVec.setWidth_setWidth_of_le field (by decide), BitVec.setWidth_eq]

/-- What the comparison has to be like is that it comes out as documented. -/
theorem served_iff (sel : KernProc) :
    r.Served arg sel ↔ (r.Compared arg sel ↔ r.Selected arg sel) := by
  cases sel with
  | all => exact iff_of_true trivial Iff.rfl
  | pid => exact ⟨fun h ↦ ⟨h, setWidth_of_signExtend⟩, fun h ↦ h.mp⟩
  | pgrp => exact ⟨fun h ↦ ⟨h, setWidth_of_signExtend⟩, fun h ↦ h.mp⟩
  | session => exact ⟨fun h ↦ ⟨h, setWidth_of_signExtend⟩, fun h ↦ h.mp⟩
  | tty => exact iff_of_true trivial Iff.rfl
  | uid => exact Iff.rfl
  | ruid => exact ⟨fun h ↦ ⟨h, setWidth_of_setWidth⟩, fun h ↦ h.mp⟩

end

end ProcRecord

section

variable {kvm : BitVec 32 → Option (Int × KvmProc)} {which arg : BitVec 64} {sel : KernProc}
  {r : ProcRecord} {records : List ProcRecord}

theorem selects_iff (hs : which &&& kernProcMask = sel.value) :
    selects which arg r = true ↔ r.Compared arg sel := by
  rw [selects, hs]
  cases sel <;> simp [KernProc.value, ProcRecord.Compared]

theorem dropsNotty_iff :
    dropsNotty which r = true ↔ which.getLsbD excludeNotty ∧ r.tdev = -1 := by
  rw [dropsNotty, Bool.and_eq_true, decide_eq_true_iff]

theorem dropsSystem_iff :
    dropsSystem which r = true ↔ which.getLsbD excludeSystem ∧ r.ruid = 0 := by
  rw [dropsSystem, Bool.and_eq_true, decide_eq_true_iff]

theorem stateOf_ne_running (stat : KiStat) : stateOf stat ≠ processRunning ↔ stat ≠ .run := by
  cases stat <;> decide

/-- A state is given where exactly one process is found. -/
theorem state_iff (pinfo : Option (Int × KvmProc)) :
    (hasFlag (glibtopGetProcStateP pinfo).flags procStateState = true ∧
        (glibtopGetProcStateP pinfo).state ≠ processRunning) ↔
      ∃ p, pinfo = some (1, p) ∧ p.stat ≠ .run := by
  have hn : hasFlag 0#64 procStateState = false := by decide
  have hs : hasFlag sysdepsProcState procStateState = true := by decide
  rcases pinfo with _ | ⟨count, p⟩
  · simp [glibtopGetProcStateP, hn]
  · by_cases hc : count = 1
    · simp [glibtopGetProcStateP, hc, hs, stateOf_ne_running]
    · simp [glibtopGetProcStateP, hc, hn]

theorem dropsIdle_iff :
    dropsIdle kvm which r = true ↔ which.getLsbD excludeIdle ∧ r.Idle kvm := by
  rw [dropsIdle, ProcRecord.Idle, ← state_iff]
  simp

/-- A record passes that the comparison and no exclusion passes over. -/
theorem passes_iff (hs : which &&& kernProcMask = sel.value) :
    passes kvm which arg r = true ↔ r.Compared arg sel ∧ ¬r.Excluded kvm which := by
  rw [passes, ProcRecord.Excluded, ← selects_iff hs, ← @dropsNotty_iff which r,
    ← @dropsIdle_iff kvm which r, ← @dropsSystem_iff which r]
  simp only [Bool.and_eq_true, Bool.not_eq_true', Bool.not_eq_true, not_or]
  tauto

/-- The list has the records that start and pass. -/
theorem listed_eq (prev : Option (BitVec 32)) (records : List ProcRecord) :
    listed kvm which arg prev records =
      ((starts ProcRecord.pid prev records).filter (passes kvm which arg)).map ProcRecord.pid := by
  induction records generalizing prev with
  | nil => rfl
  | cons r records ih =>
    rw [listed, starts]
    split
    · exact ih prev
    · split
      · next hp => rw [List.filter_cons_of_pos hp, List.map_cons, ih]
      · next hp => rw [List.filter_cons_of_neg hp, ih]

/-- A record passes exactly if its process is to be listed where it is excluded or its comparison
comes out as documented. -/
theorem passes_iff_wanted_iff (hs : which &&& kernProcMask = sel.value) :
    (passes kvm which arg r = true ↔ r.Wanted kvm which arg sel) ↔
      r.Excluded kvm which ∨ r.Served arg sel := by
  rw [passes_iff hs, ProcRecord.Wanted, ProcRecord.served_iff]
  tauto

end

section

variable (kvm : BitVec 32 → Option (Int × KvmProc)) (which arg : BitVec 64) (sel : KernProc)
  (table : ProcTable)

/-- The processes are listed once each, as documented and with the sizes of the list. -/
def ListsExactly : Prop :=
  ∃ pids, glibtopGetProclistP kvm which arg (some table.records) =
      ({ flags := sysdepsProclist
         size := 4
         number := BitVec.ofNat 64 pids.length
         total := BitVec.ofNat 64 (4 * pids.length) }, some pids) ∧
    pids.Nodup ∧
    ∀ pid, pid ∈ pids ↔ ∃ r ∈ table.records, r.pid = pid ∧ r.Wanted kvm which arg sel

end

section

variable {kvm : BitVec 32 → Option (Int × KvmProc)} {which arg : BitVec 64} {sel : KernProc}
  {table : ProcTable}

theorem mem_listed_iff (pid : BitVec 32) :
    pid ∈ listed kvm which arg none table.records ↔
      ∃ r ∈ table.records, passes kvm which arg r ∧ r.pid = pid := by
  rw [listed_eq, mem_filter_starts_iff table.agree]

theorem nodup_listed_iff :
    (listed kvm which arg none table.records).Nodup ↔
      ∀ r ∈ table.records, passes kvm which arg r →
        Adjacent ProcRecord.pid table.records r.pid := by
  rw [listed_eq, nodup_filter_starts_iff table.agree]

/-- There are no more pids than not negative ones. -/
theorem length_listed_le (h : (listed kvm which arg none table.records).Nodup) :
    (listed kvm which arg none table.records).length ≤ 2 ^ 31 := by
  have hsub : (listed kvm which arg none table.records).map BitVec.toNat ⊆ List.range (2 ^ 31) := by
    intro n hn
    obtain ⟨pid, hp, rfl⟩ := List.mem_map.mp hn
    obtain ⟨r, -, -, rfl⟩ := (mem_listed_iff pid).mp hp
    exact List.mem_range.mpr r.pid_nonneg
  have hle := ((h.map fun _ _ ↦ BitVec.eq_of_toNat_eq).subperm hsub).length_le
  rwa [List.length_map, List.length_range] at hle

/-- As long as the number fits, it is the length of the list. -/
theorem glibtopGetProclistP_eq (h : (listed kvm which arg none table.records).length ≤ 2 ^ 31) :
    glibtopGetProclistP kvm which arg (some table.records) =
      ({ flags := sysdepsProclist
         size := 4
         number := BitVec.ofNat 64 (listed kvm which arg none table.records).length
         total := BitVec.ofNat 64 (4 * (listed kvm which arg none table.records).length) },
        some (listed kvm which arg none table.records)) := by
  have hn : (listed kvm which arg none table.records).length < 2 ^ 32 := by omega
  rw [glibtopGetProclistP, BitVec.setWidth_ofNat_of_le_of_lt (by decide) hn, Nat.mul_comm,
    BitVec.ofNat_mul]
  rfl

/-- The list is right for exactly the records that are compared as documented and whose processes,
if to be listed, have theirs next to each other. -/
theorem listsExactly_iff_adjacent (hs : which &&& kernProcMask = sel.value) :
    ListsExactly kvm which arg sel table ↔
      (∀ r ∈ table.records, r.Excluded kvm which ∨ r.Served arg sel) ∧
        ∀ r ∈ table.records, r.Wanted kvm which arg sel →
          Adjacent ProcRecord.pid table.records r.pid := by
  constructor
  · rintro ⟨pids, he, hn, hm⟩
    obtain rfl : listed kvm which arg none table.records = pids :=
      Option.some.inj (congrArg Prod.snd he)
    have hw : ∀ r ∈ table.records,
        (passes kvm which arg r = true ↔ r.Wanted kvm which arg sel) := by
      intro r hr
      constructor
      · intro hp
        obtain ⟨r', hr', hpid, hw⟩ := (hm r.pid).mp ((mem_listed_iff r.pid).mpr ⟨r, hr, hp, rfl⟩)
        exact table.agree r' hr' r hr hpid ▸ hw
      · intro hw
        obtain ⟨r', hr', hp, hpid⟩ := (mem_listed_iff r.pid).mp ((hm r.pid).mpr ⟨r, hr, rfl, hw⟩)
        exact table.agree r' hr' r hr hpid ▸ hp
    exact ⟨fun r hr ↦ (passes_iff_wanted_iff hs).mp (hw r hr),
      fun r hr h ↦ nodup_listed_iff.mp hn r hr ((hw r hr).mpr h)⟩
  · rintro ⟨hserved, hadj⟩
    have hw : ∀ r ∈ table.records, (passes kvm which arg r = true ↔ r.Wanted kvm which arg sel) :=
      fun r hr ↦ (passes_iff_wanted_iff hs).mpr (hserved r hr)
    have hn : (listed kvm which arg none table.records).Nodup :=
      nodup_listed_iff.mpr fun r hr hp ↦ hadj r hr ((hw r hr).mp hp)
    refine ⟨_, glibtopGetProclistP_eq (length_listed_le hn), hn, fun pid ↦ ?_⟩
    rw [mem_listed_iff]
    constructor
    · rintro ⟨r, hr, hp, hpid⟩
      exact ⟨r, hr, hpid, (hw r hr).mp hp⟩
    · rintro ⟨r, hr, hpid, h⟩
      exact ⟨r, hr, (hw r hr).mpr h, hpid⟩

/-- The record of a process with a pid and with a real and an effective user. -/
def recordOf (pid : BitVec 32) (h : pid.toNat < 2 ^ 31) (ruid uid : BitVec 32) : ProcRecord where
  pid := pid
  ppid := 1
  pgid := pid
  sid := pid
  tdev := -1
  uid := uid
  ruid := ruid
  comm := []
  pid_nonneg := h

theorem five_nonneg : (5 : BitVec 32).toNat < 2 ^ 31 := by decide

theorem six_nonneg : (6 : BitVec 32).toNat < 2 ^ 31 := by decide

/-- Two threads of a process, and another process in between. -/
def interleavedRecords : List ProcRecord :=
  [recordOf 5 five_nonneg 0 0, recordOf 6 six_nonneg 0 0, recordOf 5 five_nonneg 0 0]

theorem interleavedRecords_agree :
    ∀ a ∈ interleavedRecords, ∀ b ∈ interleavedRecords, a.pid = b.pid → a = b := by
  decide

/-- A process that runs a program of the superuser. -/
def setuidRecords : List ProcRecord := [recordOf 5 five_nonneg 1000 0]

theorem setuidRecords_agree :
    ∀ a ∈ setuidRecords, ∀ b ∈ setuidRecords, a.pid = b.pid → a = b := by
  decide

/-- The listing of all processes is right where a process has one record. -/
theorem listsExactly_setuid :
    ListsExactly (fun _ ↦ none) KernProc.all.value 0 .all ⟨setuidRecords, setuidRecords_agree⟩ := by
  refine (listsExactly_iff_adjacent (by decide)).mpr ⟨fun _ _ ↦ .inr trivial, fun r hr _ ↦ ?_⟩
  intro a b c h _ _
  have hl := h.length_le
  simp [setuidRecords] at hl

/-- With another process in between, a process is listed twice; asked for the processes of the
superuser, the one that runs its program for another user is not listed. -/
theorem not_listsExactly :
    ¬ListsExactly (fun _ ↦ none) KernProc.all.value 0 .all
        ⟨interleavedRecords, interleavedRecords_agree⟩ ∧
      ¬ListsExactly (fun _ ↦ none) KernProc.uid.value 0 .uid
        ⟨setuidRecords, setuidRecords_agree⟩ := by
  constructor
  · rintro ⟨pids, he, hn, -⟩
    obtain rfl : ([5, 6, 5] : List (BitVec 32)) = pids := Option.some.inj (congrArg Prod.snd he)
    exact absurd hn (by decide)
  · rintro ⟨pids, he, -, hm⟩
    obtain rfl : ([] : List (BitVec 32)) = pids := Option.some.inj (congrArg Prod.snd he)
    have hw : (recordOf 5 five_nonneg 1000 0).Wanted (fun _ ↦ none) KernProc.uid.value 0 .uid := by
      refine ⟨rfl, ?_⟩
      rintro (⟨h, -⟩ | ⟨h, -⟩ | ⟨h, -⟩)
      all_goals exact absurd h (by decide)
    exact List.not_mem_nil ((hm 5).mpr ⟨_, List.mem_singleton_self _, rfl, hw⟩)

end

end LibGTop.FreeBsd
