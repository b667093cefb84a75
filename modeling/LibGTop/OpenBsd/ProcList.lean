import LibGTop.Bsd.ProcList

/-!
# The list of processes of OpenBSD

`glibtop_get_proclist_p` (`sysdeps/openbsd/proclist.c:59–106`), which gives `kvm_getprocs` the size
of a record and is like that of NetBSD otherwise. -/

namespace LibGTop.OpenBsd

open Base
open Linux (ProcList kernProcMask KernProc)
open Bsd (KinfoProc KvmProcs listProcs ListsExactly wanted listsExactly_listProcs_iff)

/-- `glibtop_get_proclist_p`. -/
def glibtopGetProclistP (realWhich : BitVec 64)
    (kvmGetprocs : BitVec 32 → BitVec 32 → Nat → Option (List KinfoProc)) (size : Nat)
    (fresh : Nat → BitVec 32) (arg : BitVec 64) : ProcList × Option (List (BitVec 32)) :=
  listProcs realWhich fresh
    (kvmGetprocs ((realWhich &&& kernProcMask).setWidth 32) (arg.setWidth 32) size)

/-- On both systems the list is right if and only if the last process that is found is excluded and
the others are passed over as documented. -/
theorem glibtopGetProclistP_exact_iff {realWhich : BitVec 64}
    {kvmGetprocs : BitVec 32 → BitVec 32 → Option (List KinfoProc)}
    {kvmGetprocsSized : BitVec 32 → BitVec 32 → Nat → Option (List KinfoProc)} {size : Nat}
    (fresh : Nat → BitVec 32) {arg : BitVec 64} {procs : KvmProcs} {init : List KinfoProc}
    {last : KinfoProc}
    (hb : kvmGetprocs ((realWhich &&& kernProcMask).setWidth 32) (arg.setWidth 32) =
      some procs.pinfo)
    (ho : kvmGetprocsSized ((realWhich &&& kernProcMask).setWidth 32) (arg.setWidth 32) size =
      some procs.pinfo)
    (h : procs.pinfo = init ++ [last]) :
    (ListsExactly realWhich procs.pinfo (Bsd.glibtopGetProclistP realWhich kvmGetprocs fresh arg) ↔
        last.Excluded realWhich ∧ ∀ p ∈ init, p.Served realWhich) ∧
      (ListsExactly realWhich procs.pinfo
          (glibtopGetProclistP realWhich kvmGetprocsSized size fresh arg) ↔
        last.Excluded realWhich ∧ ∀ p ∈ init, p.Served realWhich) := by
  rw [Bsd.glibtopGetProclistP, hb, glibtopGetProclistP, ho]
  exact ⟨listsExactly_listProcs_iff fresh h, listsExactly_listProcs_iff fresh h⟩

/-- A process of a user at a terminal, which can run. -/
def runnable : KinfoProc := ⟨5, .run, 1000, 0⟩

/-- A process without a terminal that waits. -/
def waiting : KinfoProc := ⟨6, .sleep, 0, -1⟩

theorem distinct_both : ([runnable, waiting].map KinfoProc.pid).Nodup := by decide

theorem distinct_runnable : ([runnable].map KinfoProc.pid).Nodup := by decide

theorem length_both_lt : [runnable, waiting].length < 2 ^ 31 := by decide

theorem length_runnable_lt : [runnable].length < 2 ^ 31 := by decide

/-- The process that can run, and one that does not. -/
def bothProcs : KvmProcs := ⟨[runnable, waiting], distinct_both, length_both_lt⟩

/-- The process that can run. -/
def runnableProcs : KvmProcs := ⟨[runnable], distinct_runnable, length_runnable_lt⟩

/-- The mask of `GLIBTOP_EXCLUDE_IDLE`. -/
def idleMask : BitVec 64 := 0x1000

/-- With the last process excluded, the other one is listed. -/
theorem glibtopGetProclistP_exact_idle :
    ListsExactly idleMask bothProcs.pinfo
        (Bsd.glibtopGetProclistP idleMask (fun _ _ ↦ some bothProcs.pinfo) (fun _ ↦ 0) 0) ∧
      ListsExactly idleMask bothProcs.pinfo
        (glibtopGetProclistP idleMask (fun _ _ _ ↦ some bothProcs.pinfo) 644 (fun _ ↦ 0) 0) := by
  have hw : waiting.Excluded idleMask ∧ ∀ p ∈ [runnable], p.Served idleMask := by
    refine ⟨by decide, fun p hp ↦ ?_⟩
    obtain rfl := List.mem_singleton.mp hp
    exact ⟨fun h ↦ absurd h (by decide), fun _ h ↦ absurd h (by decide)⟩
  have hiff := @glibtopGetProclistP_exact_iff idleMask (fun _ _ ↦ some bothProcs.pinfo)
    (fun _ _ _ ↦ some bothProcs.pinfo) 644 (fun _ ↦ 0) 0 bothProcs [runnable] waiting rfl rfl rfl
  exact ⟨hiff.1.mpr hw, hiff.2.mpr hw⟩

/-- A process that is asked for by its pid is not listed. -/
theorem glibtopGetProclistP_loses_process :
    ¬ListsExactly KernProc.pid.value runnableProcs.pinfo
        (Bsd.glibtopGetProclistP KernProc.pid.value (fun _ _ ↦ some runnableProcs.pinfo)
          (fun _ ↦ 0) 5) ∧
      ¬ListsExactly KernProc.pid.value runnableProcs.pinfo
        (glibtopGetProclistP KernProc.pid.value (fun _ _ _ ↦ some runnableProcs.pinfo) 644
          (fun _ ↦ 0) 5) := by
  have hw : wanted KernProc.pid.value runnableProcs.pinfo = [5] := by decide
  constructor
  all_goals
    rintro ⟨hl, -⟩
    rw [hw] at hl
    exact absurd hl (by decide)

end LibGTop.OpenBsd
