import LibGTop.Base.Filters
import LibGTop.Solaris.ProcList

/-!
# The selection of a process by its pid

What `glibtop_get_proclist_s` of Solaris makes of `GLIBTOP_KERN_PROC_PID` on the files of a table of
processes (`sysdeps/solaris/proclist.c:76–104`). It looks at process 0 where it should look at the
one that is asked for, and does not say how long the list is. -/

namespace LibGTop.Solaris

open Base
open Linux (ProcList sysdepsProclist kernProcMask KernProc)
open Common (PidArray pidList)

/-- The processes, what can be read of them and their owners. -/
structure ProcTable where
  pids : List (BitVec 32)
  psinfo : BitVec 32 → Option PsInfo
  owner : BitVec 32 → BitVec 32
  distinct : pids.Nodup
  pid_nonneg : ∀ pid ∈ pids, pid.toNat < 2 ^ 31

namespace ProcTable

/-- The names in `/proc`. -/
def names (t : ProcTable) : List (List UInt8) :=
  [46] :: [46, 46] :: t.pids.map fun pid ↦ signedDecimal pid.toInt

/-- The files of the processes. -/
def fs (t : ProcTable) : ProcFs where
  names := some t.names
  stat path := (t.pids.find? fun pid ↦ procPath pid.toInt = path).map fun pid ↦ (true, t.owner pid)
  psinfo pid := if pid ∈ t.pids then t.psinfo pid else none

/-- The process exists and no exclusion applies; where there are some, it can be read. -/
def Passes (t : ProcTable) (mask pid : BitVec 32) : Prop :=
  pid ∈ t.pids ∧ (mask = 0 ∨ ∃ psinfo, t.psinfo pid = some psinfo ∧ ¬drops mask psinfo)

/-- The process that is asked for is in the list if it passes, and otherwise there is no list. -/
def SelectsPid (t : ProcTable) (which arg : BitVec 64) : Prop :=
  (∀ pid, arg = pid.signExtend 64 → t.Passes (maskOf which) pid →
      glibtopGetProclistS t.fs which arg = .ok (pidList [pid])) ∧
    ((∀ pid, arg = pid.signExtend 64 → ¬t.Passes (maskOf which) pid) →
      glibtopGetProclistS t.fs which arg = .ok (pidList []))

/-- The pids that the loop accepts for `GLIBTOP_KERN_PROC_ALL` with the same exclusions. -/
def allPids (t : ProcTable) (which arg : BitVec 64) : List (BitVec 32) :=
  accepted t.fs (which &&& ~~~kernProcMask) arg t.names

end ProcTable

section

variable {t : ProcTable} {which arg : BitVec 64} {mask pid : BitVec 32}

theorem toInt_signExtend (pid : BitVec 32) : (pid.signExtend 64).toInt = pid.toInt :=
  BitVec.toInt_signExtend_of_le (by decide)

theorem procPath_inj {first second : Int} (h : procPath first = procPath second) :
    first = second :=
  signedDecimal_inj (List.append_cancel_left h)

/-- What is asked for is found by its path if and only if it is a process. -/
theorem stat_fs_isSome_iff :
    (t.fs.stat (procPath arg.toInt)).isSome ↔ ∃ pid ∈ t.pids, arg = pid.signExtend 64 := by
  have hiff : ∀ pid : BitVec 32,
      procPath pid.toInt = procPath arg.toInt ↔ arg = pid.signExtend 64 := by
    intro pid
    constructor
    · intro h
      apply BitVec.eq_of_toInt_eq
      rw [toInt_signExtend, procPath_inj h]
    · rintro rfl
      rw [toInt_signExtend]
  rw [ProcTable.fs, Option.isSome_map, List.find?_isSome]
  simp only [decide_eq_true_eq, hiff]

/-- With exclusions, a process passes if and only if it is read and not dropped. -/
theorem passes_iff_psinfo (hm : mask ≠ 0) :
    t.Passes mask pid ↔ ∃ psinfo, t.fs.psinfo pid = some psinfo ∧ ¬drops mask psinfo := by
  change t.Passes mask pid ↔
    ∃ psinfo, (if pid ∈ t.pids then t.psinfo pid else none) = some psinfo ∧ ¬drops mask psinfo
  by_cases hp : pid ∈ t.pids
  · rw [if_pos hp, ProcTable.Passes, and_iff_right hp, or_iff_right hm]
  · rw [if_neg hp]
    refine iff_of_false (fun h ↦ hp h.1) ?_
    rintro ⟨psinfo, h, -⟩
    exact Option.some_ne_none psinfo h.symm

/-- A null pointer is returned if and only if the test that is made fails: of the process that is
asked for without exclusions, and of process 0 with them. -/
theorem selectProcess_eq_none_iff :
    selectProcess t.fs mask arg = none ↔
      if mask = 0 then ∀ pid, arg = pid.signExtend 64 → pid ∉ t.pids else ¬t.Passes mask 0 := by
  by_cases hm : mask = 0
  · rw [if_pos hm, selectProcess, if_neg (not_not.mpr hm)]
    have hs := @stat_fs_isSome_iff t arg
    cases hstat : t.fs.stat (procPath arg.toInt) with
    | none =>
      rw [hstat] at hs
      simp only [Option.isSome_none, Bool.false_eq_true, false_iff, not_exists, not_and] at hs
      exact iff_of_true rfl fun pid ha hp ↦ hs pid hp ha
    | some found =>
      rw [hstat] at hs
      obtain ⟨pid, hp, ha⟩ := hs.mp rfl
      exact iff_of_false (Option.some_ne_none _) fun h ↦ h pid ha hp
  · rw [if_neg hm, selectProcess, if_pos hm, passes_iff_psinfo hm]
    cases t.fs.psinfo 0 with
    | none => simp
    | some psinfo => by_cases hd : drops mask psinfo <;> simp [hd]

/-- The function does not say that there is a list. -/
theorem glibtopGetProclistS_pid (hs : which &&& kernProcMask = KernProc.pid.value) :
    glibtopGetProclistS t.fs which arg = .ok ({}, selectProcess t.fs (maskOf which) arg) := by
  rw [glibtopGetProclistS]
  exact if_pos hs

theorem pidList_singleton_ne (pid : BitVec 32) (chain : PidArray) :
    (.ok ({}, chain) : Except Mishap (ProcList × PidArray)) ≠ .ok (pidList [pid]) := by
  intro h
  have hn : (0 : BitVec 64) = BitVec.ofNat 64 1 :=
    congrArg (fun listing ↦ listing.1.number) (Except.ok.inj h)
  exact absurd hn (by decide)

/-- The selection is right if and only if the process that is asked for does not exist or is
excluded, and with exclusions so is process 0. -/
theorem selectsPid_iff_none (hs : which &&& kernProcMask = KernProc.pid.value) :
    t.SelectsPid which arg ↔
      (∀ pid, arg = pid.signExtend 64 → ¬t.Passes (maskOf which) pid) ∧
        (maskOf which ≠ 0 → ¬t.Passes (maskOf which) 0) := by
  rw [ProcTable.SelectsPid, glibtopGetProclistS_pid hs]
  have hnil : (.ok ({}, selectProcess t.fs (maskOf which) arg) : Except Mishap _) =
      .ok (pidList []) ↔ selectProcess t.fs (maskOf which) arg = none := by
    constructor
    · exact fun h ↦ congrArg Prod.snd (Except.ok.inj h)
    · intro h
      rw [h]
      rfl
  rw [hnil, selectProcess_eq_none_iff]
  constructor
  · rintro ⟨hone, hnone⟩
    have hno : ∀ pid, arg = pid.signExtend 64 → ¬t.Passes (maskOf which) pid :=
      fun pid ha hp ↦ pidList_singleton_ne pid _ (hone pid ha hp)
    refine ⟨hno, fun hm ↦ ?_⟩
    have h0 := hnone hno
    rwa [if_neg hm] at h0
  · rintro ⟨hno, h0⟩
    refine ⟨fun pid ha hp ↦ absurd hp (hno pid ha), fun _ ↦ ?_⟩
    split
    · next hm => exact fun pid ha hp ↦ hno pid ha ⟨hp, .inl hm⟩
    · next hm => exact h0 hm

theorem signExtend_inj {first second : BitVec 32}
    (h : first.signExtend 64 = second.signExtend 64) : first = second := by
  apply BitVec.eq_of_toInt_eq
  rw [← toInt_signExtend first, h, toInt_signExtend]

/-- The name of a process is read back as its pid. -/
theorem ofInt_strtol_name (pid : BitVec 32) :
    BitVec.ofInt 32 (strtol 10 (signedDecimal pid.toInt)).1 = pid := by
  have hread := @strtol_signedDecimal 10 (.inr rfl) [] spaces_nil pid.toInt [] stops_nil
  rw [List.nil_append, List.append_nil] at hread
  have hle := pid.le_two_mul_toInt
  have hlt := pid.two_mul_toInt_lt
  have hclamp : clampLong pid.toInt = pid.toInt := by
    rw [clampLong]
    omega
  rw [hread, hclamp, BitVec.ofInt_toInt]

theorem head_name (h : pid ∈ t.pids) : (signedDecimal pid.toInt).head? ≠ some 46 := by
  have hlt := t.pid_nonneg pid h
  rw [BitVec.toInt_eq_toNat_of_lt (by omega), signedDecimal_natCast]
  exact fun he ↦ notMem_decimal (by decide) pid.toNat (List.mem_of_mem_head? he)

/-- A process is not passed over for what is read of it if and only if it passes. -/
theorem not_skipsByInfo_iff (hp : pid ∈ t.pids) :
    ¬skipsByInfo t.fs mask KernProc.all.value arg pid ↔ t.Passes mask pid := by
  by_cases hm : mask = 0
  · refine iff_of_true ?_ ⟨hp, .inl hm⟩
    rw [skipsByInfo, hm]
    exact Bool.false_ne_true
  · have hall : ∀ psinfo, selects KernProc.all.value arg psinfo = true := fun _ ↦ rfl
    rw [passes_iff_psinfo hm, skipsByInfo, decide_eq_true hm, Bool.true_or, Bool.true_and]
    cases t.fs.psinfo pid with
    | none => simp
    | some psinfo => simp [hall]

/-- Without a selector, the owner of the directory is not looked at. -/
theorem entryPid_name (hp : pid ∈ t.pids) :
    entryPid t.fs mask KernProc.all.value arg (signedDecimal pid.toInt) =
      if skipsByInfo t.fs mask KernProc.all.value arg pid then none else some pid := by
  have howner : skipsByOwner t.fs mask KernProc.all.value arg pid = false := by
    rw [skipsByOwner, show decide (KernProc.all.value = KernProc.ruid.value) = false from rfl,
      Bool.and_false, Bool.false_and]
  simp only [entryPid, if_neg (head_name hp), ofInt_strtol_name, howner, Bool.false_eq_true,
    if_false]

theorem compl_and_mask : ~~~kernProcMask &&& kernProcMask = 0#64 := by decide

/-- The loop accepts the processes that pass. -/
theorem allPids_eq :
    t.allPids which arg =
      t.pids.filter fun pid ↦ !skipsByInfo t.fs (maskOf which) KernProc.all.value arg pid := by
  have hsel : which &&& ~~~kernProcMask &&& kernProcMask = KernProc.all.value := by
    rw [BitVec.and_assoc, compl_and_mask]
    exact BitVec.and_zero
  have hmask : maskOf (which &&& ~~~kernProcMask) = maskOf which := by
    rw [maskOf, BitVec.and_assoc, BitVec.and_self]
    rfl
  rw [ProcTable.allPids, accepted, hsel, hmask, ProcTable.names,
    List.filterMap_cons_none rfl, List.filterMap_cons_none rfl, List.filterMap_map,
    ← List.filterMap_eq_filter]
  refine List.filterMap_congr fun pid hp ↦ ?_
  rw [Function.comp_apply, entryPid_name hp]
  cases hskip : skipsByInfo t.fs (maskOf which) KernProc.all.value arg pid <;>
    simp [Option.guard, hskip]

theorem mem_allPids_iff : pid ∈ t.allPids which arg ↔ t.Passes (maskOf which) pid := by
  rw [allPids_eq, List.mem_filter]
  constructor
  · rintro ⟨hp, h⟩
    exact (not_skipsByInfo_iff hp).mp (by simpa using h)
  · intro h
    exact ⟨h.1, by simpa using (not_skipsByInfo_iff h.1).mpr h⟩

theorem nodup_allPids : (t.allPids which arg).Nodup := by
  rw [allPids_eq]
  exact t.distinct.filter _

/-- The selection is right if and only if it is what a filter leaves of the list of all. -/
theorem selectsPid_iff_filter :
    t.SelectsPid which arg ↔
      glibtopGetProclistS t.fs which arg =
        .ok (pidList ((t.allPids which arg).filter fun pid ↦ arg = pid.signExtend 64)) := by
  by_cases h : ∃ pid, arg = pid.signExtend 64 ∧ t.Passes (maskOf which) pid
  · obtain ⟨pid, ha, hp⟩ := h
    have hf : ((t.allPids which arg).filter fun pid ↦ arg = pid.signExtend 64) = [pid] :=
      filter_eq_singleton nodup_allPids (mem_allPids_iff.mpr hp) (decide_eq_true ha)
        fun other _ ho ↦ signExtend_inj ((of_decide_eq_true ho).symm.trans ha)
    rw [hf]
    constructor
    · exact fun hsel ↦ hsel.1 pid ha hp
    · intro hl
      refine ⟨fun other ho _ ↦ ?_, fun hno ↦ absurd hp (hno pid ha)⟩
      rw [signExtend_inj (ho.symm.trans ha)]
      exact hl
  · have hno : ∀ pid, arg = pid.signExtend 64 → ¬t.Passes (maskOf which) pid :=
      fun pid ha hp ↦ h ⟨pid, ha, hp⟩
    have hf : ((t.allPids which arg).filter fun pid ↦ arg = pid.signExtend 64) = [] :=
      List.filter_eq_nil_iff.mpr fun pid hp ha ↦
        hno pid (of_decide_eq_true ha) (mem_allPids_iff.mp hp)
    rw [hf]
    exact ⟨fun hsel ↦ hsel.2 hno, fun hl ↦ ⟨fun pid ha hp ↦ absurd hp (hno pid ha), fun _ ↦ hl⟩⟩

/-- The list of all processes that the function returns, unless there are too many. -/
theorem glibtopGetProclistS_all (h : (t.allPids which arg).length < 2 ^ 30) :
    glibtopGetProclistS t.fs (which &&& ~~~kernProcMask) arg =
      .ok (pidList (t.allPids which arg)) := by
  refine (glibtopGetProclistS_lists_iff rfl ?_).mpr h
  rw [BitVec.and_assoc, compl_and_mask, BitVec.and_zero]
  decide

/-- The selection by pid is what a filter leaves of the list of all processes if and only if the
process that is asked for does not exist or is excluded, and with exclusions so is process 0. -/
theorem selectsPid_iff (hs : which &&& kernProcMask = KernProc.pid.value) :
    (t.SelectsPid which arg ↔
        glibtopGetProclistS t.fs which arg =
          .ok (pidList ((t.allPids which arg).filter fun pid ↦ arg = pid.signExtend 64))) ∧
      (t.SelectsPid which arg ↔
        (∀ pid, arg = pid.signExtend 64 → ¬t.Passes (maskOf which) pid) ∧
          (maskOf which ≠ 0 → ¬t.Passes (maskOf which) 0)) :=
  ⟨selectsPid_iff_filter, selectsPid_iff_none hs⟩

end

theorem nodup_one : ([1] : List (BitVec 32)).Nodup := by decide

theorem one_nonneg : ∀ pid ∈ ([1] : List (BitVec 32)), pid.toNat < 2 ^ 31 := by
  intro pid hp
  obtain rfl := List.mem_singleton.mp hp
  decide

/-- A table of one process. -/
def oneProcess : ProcTable where
  pids := [1]
  psinfo _ := none
  owner _ := 0
  distinct := nodup_one
  pid_nonneg := one_nonneg

/-- Another process than the one there is is not found. -/
theorem selectsPid_absent : oneProcess.SelectsPid KernProc.pid.value 7 := by
  refine (selectsPid_iff (by decide)).2.mpr ⟨fun pid ha hp ↦ ?_, fun hm ↦ absurd rfl hm⟩
  obtain rfl : pid = 1 := List.mem_singleton.mp hp.1
  exact absurd ha (by decide)

/-- The process there is is found, but it is not said that there is a list, and in it is 0. -/
theorem not_selectsPid_present : ¬oneProcess.SelectsPid KernProc.pid.value 1 := by
  intro h
  have hl := h.1 1 (by decide) ⟨List.mem_cons_self, .inl (by decide)⟩
  rw [glibtopGetProclistS_pid (by decide)] at hl
  exact pidList_singleton_ne 1 _ hl

end LibGTop.Solaris
