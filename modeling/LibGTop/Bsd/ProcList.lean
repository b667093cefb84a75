import LibGTop.Base.Filters
import LibGTop.Linux.ProcList

/-!
# The list of processes of NetBSD

`glibtop_get_proclist_p` (`sysdeps/bsd/proclist.c:59–113`). The last process that `kvm_getprocs`
finds is never listed, and not all exclusions are made as documented
(`include/glibtop/proclist.h:93–111`). -/

namespace LibGTop.Bsd

open Base
open Linux (ProcList sysdepsProclist kernProcMask KernProc excludeIdle excludeSystem excludeNotty)

/-- `p_stat`. -/
inductive ProcStat
  | idl
  | run
  | sleep
  | stop
  | zomb
  | dead
  | onproc
  deriving DecidableEq, Repr

/-- The fields of `struct kinfo_proc` by which a process is listed. -/
structure KinfoProc where
  pid : BitVec 32
  stat : ProcStat
  ruid : BitVec 32
  tdev : BitVec 32
  deriving DecidableEq

/-- What `kvm_getprocs` finds: one record for each process, and the number of them is an `int`. -/
structure KvmProcs where
  pinfo : List KinfoProc
  distinct : (pinfo.map KinfoProc.pid).Nodup
  length_lt : pinfo.length < 2 ^ 31

section

variable (realWhich : BitVec 64)

/-- The conditions on which the loop passes a process over. -/
def drops (p : KinfoProc) : Bool :=
  if realWhich.getLsbD excludeIdle && p.stat ≠ .run then true
  else realWhich.getLsbD excludeSystem && p.ruid = 0

/-- The loop, `sysdeps/bsd/proclist.c:89–106`: the pids in their array and the number of them. -/
def copyPids (pids : List (BitVec 32)) (j : Nat) : List KinfoProc → List (BitVec 32) × Nat
  | [] => (pids, j)
  | p :: ps =>
    if drops realWhich p then copyPids pids j ps else copyPids (pids.set j p.pid) (j + 1) ps

/-- What is done with the answer of `kvm_getprocs`; `fresh` is what the allocated memory holds. A
null pointer is returned when nothing is found, and when memory of no bytes is allocated. -/
def listProcs (fresh : Nat → BitVec 32) :
    Option (List KinfoProc) → ProcList × Option (List (BitVec 32))
  | none => ({}, none)
  | some pinfo =>
    if pinfo.length < 1 then ({}, none)
    else
      let count := pinfo.length - 1
      let (pids, j) := copyPids realWhich ((List.range count).map fresh) 0 (pinfo.take count)
      ({ flags := sysdepsProclist
         number := BitVec.ofNat 64 j
         size := 4
         total := BitVec.ofNat 64 (j * 4) }, if count = 0 then none else some pids)

/-- `glibtop_get_proclist_p`. -/
def glibtopGetProclistP (kvmGetprocs : BitVec 32 → BitVec 32 → Option (List KinfoProc))
    (fresh : Nat → BitVec 32) (arg : BitVec 64) : ProcList × Option (List (BitVec 32)) :=
  listProcs realWhich fresh
    (kvmGetprocs ((realWhich &&& kernProcMask).setWidth 32) (arg.setWidth 32))

end

namespace KinfoProc

/-- A process that waits, has not begun to run or does not run any more. -/
def Idle (p : KinfoProc) : Prop := p.stat ≠ .run ∧ p.stat ≠ .onproc

instance decidableIdle (p : KinfoProc) : Decidable p.Idle :=
  inferInstanceAs (Decidable (_ ∧ _))

/-- The documented meaning of the exclusions. -/
def Excluded (realWhich : BitVec 64) (p : KinfoProc) : Prop :=
  realWhich.getLsbD excludeIdle ∧ p.Idle ∨ realWhich.getLsbD excludeSystem ∧ p.ruid = 0 ∨
    realWhich.getLsbD excludeNotty ∧ p.tdev = -1

instance decidableExcluded (realWhich : BitVec 64) (p : KinfoProc) :
    Decidable (p.Excluded realWhich) :=
  inferInstanceAs (Decidable (_ ∨ _ ∨ _))

/-- No exclusion but the one for a terminal applies that is missing, and none that is made for a
process on a processor. -/
structure Served (realWhich : BitVec 64) (p : KinfoProc) : Prop where
  notty : realWhich.getLsbD excludeNotty → p.tdev = -1 →
    realWhich.getLsbD excludeIdle ∧ p.stat ≠ .run ∨ realWhich.getLsbD excludeSystem ∧ p.ruid = 0
  onproc : realWhich.getLsbD excludeIdle → p.stat = .onproc →
    realWhich.getLsbD excludeSystem ∧ p.ruid = 0 ∨ realWhich.getLsbD excludeNotty ∧ p.tdev = -1

end KinfoProc

/-- The processes that are to be listed. -/
def wanted (realWhich : BitVec 64) (pinfo : List KinfoProc) : List (BitVec 32) :=
  (pinfo.filter fun p ↦ ¬p.Excluded realWhich).map KinfoProc.pid

/-- The caller reads as many pids as it is told, and these are the ones to be listed. -/
def ListsExactly (realWhich : BitVec 64) (pinfo : List KinfoProc)
    (result : ProcList × Option (List (BitVec 32))) : Prop :=
  (result.2.getD []).take result.1.number.toNat = wanted realWhich pinfo ∧
    result.1 =
      { flags := sysdepsProclist
        number := BitVec.ofNat 64 (wanted realWhich pinfo).length
        size := 4
        total := BitVec.ofNat 64 ((wanted realWhich pinfo).length * 4) }

section

variable {realWhich : BitVec 64} {p : KinfoProc}

theorem drops_iff :
    drops realWhich p ↔ realWhich.getLsbD excludeIdle ∧ p.stat ≠ .run ∨
      realWhich.getLsbD excludeSystem ∧ p.ruid = 0 := by
  rw [drops]
  split <;> simp_all

/-- A process is passed over as documented. -/
theorem not_drops_iff_not_excluded_iff :
    (¬drops realWhich p ↔ ¬p.Excluded realWhich) ↔ p.Served realWhich := by
  rw [drops_iff, KinfoProc.Excluded, KinfoProc.Idle]
  constructor
  · intro h
    refine ⟨fun hn ht ↦ ?_, fun hi ho ↦ ?_⟩
    · by_contra hd
      exact h.mp hd (.inr (.inr ⟨hn, ht⟩))
    · have hr : p.stat ≠ .run := ho ▸ ProcStat.noConfusion
      by_contra hd
      refine h.mpr ?_ (.inl ⟨hi, hr⟩)
      rintro (⟨-, -, hno⟩ | hs | hn)
      · exact hno ho
      · exact hd (.inl hs)
      · exact hd (.inr hn)
  · rintro ⟨hnotty, honproc⟩
    refine not_congr ⟨?_, ?_⟩
    · rintro (⟨hi, hr⟩ | hs)
      · by_cases ho : p.stat = .onproc
        · exact .inr (honproc hi ho)
        · exact .inl ⟨hi, hr, ho⟩
      · exact .inr (.inl hs)
    · rintro (⟨hi, hr, -⟩ | hs | ⟨hn, ht⟩)
      · exact .inl ⟨hi, hr⟩
      · exact .inr hs
      · exact hnotty hn ht

/-- The array has the pids that are not passed over, behind those it had before. -/
theorem copyPids_eq {pids : List (BitVec 32)} {j : Nat} (ps : List KinfoProc)
    (h : j + ps.length ≤ pids.length) :
    (copyPids realWhich pids j ps).2 = j + (ps.filter fun p ↦ !drops realWhich p).length ∧
      (copyPids realWhich pids j ps).1.take (copyPids realWhich pids j ps).2 =
        pids.take j ++ (ps.filter fun p ↦ !drops realWhich p).map KinfoProc.pid := by
  induction ps generalizing pids j with
  | nil => exact ⟨rfl, (List.append_nil _).symm⟩
  | cons p ps ih =>
    rw [List.length_cons] at h
    rw [copyPids]
    split
    · next hd =>
      rw [List.filter_cons_of_neg (by simp [hd])]
      exact ih (by omega)
    · next hd =>
      obtain ⟨hj, ht⟩ := @ih (pids.set j p.pid) (j + 1) (by rw [List.length_set]; omega)
      rw [List.filter_cons_of_pos (by simp [hd]), List.length_cons, List.map_cons]
      refine ⟨by omega, ?_⟩
      have hlt : j < pids.length := by omega
      rw [ht, List.take_add_one, List.getElem?_set_self hlt, List.take_set,
        List.set_eq_of_length_le (by rw [List.length_take]; omega), List.append_assoc]
      rfl

/-- What the caller reads: the pids of all processes but the last that are not passed over. -/
theorem listProcs_eq (fresh : Nat → BitVec 32) {init : List KinfoProc} {last : KinfoProc}
    (h : (init ++ [last]).length < 2 ^ 31) :
    let listed := (init.filter fun p ↦ !drops realWhich p).map KinfoProc.pid
    let result := listProcs realWhich fresh (some (init ++ [last]))
    (result.2.getD []).take result.1.number.toNat = listed ∧
      result.1 =
        { flags := sysdepsProclist
          number := BitVec.ofNat 64 listed.length
          size := 4
          total := BitVec.ofNat 64 (listed.length * 4) } := by
  have hinit : (init ++ [last]).take init.length = init := List.take_left
  have hlen : (init ++ [last]).length - 1 = init.length := by simp
  have hfresh : 0 + init.length ≤ ((List.range init.length).map fresh).length := by simp
  obtain ⟨hj, ht⟩ := @copyPids_eq realWhich ((List.range init.length).map fresh) 0 init hfresh
  have hle : (init.filter fun p ↦ !drops realWhich p).length ≤ init.length :=
    List.length_filter_le _ _
  simp only [listProcs, hlen, hinit, List.length_map]
  rw [if_neg (by simp), hj, Nat.zero_add]
  refine ⟨?_, rfl⟩
  have hn : (BitVec.ofNat 64 (init.filter fun p ↦ !drops realWhich p).length).toNat =
      (init.filter fun p ↦ !drops realWhich p).length := by
    rw [BitVec.toNat_ofNat, Nat.mod_eq_of_lt]
    rw [List.length_append] at h
    omega
  rw [hj, Nat.zero_add] at ht
  rw [hn]
  split
  · next h0 => simp [List.length_eq_zero_iff.mp h0]
  · rw [Option.getD_some, ht, List.take_zero, List.nil_append]

/-- The list is right if and only if the last process is excluded and the others are passed over as
documented. -/
theorem listsExactly_listProcs_iff (fresh : Nat → BitVec 32) {procs : KvmProcs}
    {init : List KinfoProc} {last : KinfoProc} (h : procs.pinfo = init ++ [last]) :
    ListsExactly realWhich procs.pinfo (listProcs realWhich fresh (some procs.pinfo)) ↔
      last.Excluded realWhich ∧ ∀ p ∈ init, p.Served realWhich := by
  have hn : ((init ++ [last]).map KinfoProc.pid).Nodup := h ▸ procs.distinct
  have hiff := @map_filter_concat_eq_iff _ _ KinfoProc.pid (fun p ↦ !drops realWhich p)
    (fun p ↦ decide ¬p.Excluded realWhich) init last hn
  obtain ⟨hl, hr⟩ := listProcs_eq fresh (h ▸ procs.length_lt)
  have hserved : (last.Excluded realWhich ∧ ∀ p ∈ init, p.Served realWhich) ↔
      (init.filter fun p ↦ !drops realWhich p).map KinfoProc.pid =
        wanted realWhich (init ++ [last]) := by
    rw [wanted, hiff]
    simp [← not_drops_iff_not_excluded_iff]
  rw [h, ListsExactly, hserved, hl, hr]
  constructor
  · exact fun he ↦ he.1
  · exact fun he ↦ ⟨he, by rw [he]⟩

end

end LibGTop.Bsd
