import LibGTop.Solaris.ProcList

/-!
# The list of processes of AIX

`glibtop_get_proclist_s` (`sysdeps/aix/proclist.c:49–247`), which collects pids in blocks like the
function of Solaris, but keeps the sizes in an `int`.
-/

namespace LibGTop.Aix

open Base
open Linux (ProcList kernProcMask KernProc excludeIdle excludeSystem excludeNotty)
open Common (PidArray returned pidList returned_collect_iff intSizes)

/-- The fields of `struct procsinfo` by which a process is listed; `idl`, `kproc` and `tty` are
`pi_state & SIDL`, `pi_flags & SKPROC` and `pi_ttyp`. -/
structure ProcsInfo where
  pid : BitVec 32
  idl : Bool
  kproc : Bool
  tty : Bool
  pgrp : BitVec 32
  sid : BitVec 32
  ttyd : BitVec 64
  uid : BitVec 32
  ruid : BitVec 32
  deriving DecidableEq

section

variable (which arg : BitVec 64)

/-- The `switch` over the selector, `sysdeps/aix/proclist.c:101–189`: the process is not passed
over. -/
def selects (pinfo : ProcsInfo) : Bool :=
  if which &&& kernProcMask = KernProc.all.value then true
  else if which &&& kernProcMask = KernProc.pid.value then pinfo.pid.signExtend 64 = arg
  else if which &&& kernProcMask = KernProc.pgrp.value then pinfo.pgrp.signExtend 64 = arg
  else if which &&& kernProcMask = KernProc.session.value then pinfo.sid.signExtend 64 = arg
  else if which &&& kernProcMask = KernProc.tty.value then pinfo.ttyd = arg
  else if which &&& kernProcMask = KernProc.uid.value then pinfo.uid.setWidth 64 = arg
  else if which &&& kernProcMask = KernProc.ruid.value then pinfo.ruid.setWidth 64 = arg
  else true

/-- A process is passed over. -/
def skips (pinfo : ProcsInfo) : Bool :=
  if which.getLsbD excludeIdle && pinfo.idl then true
  else if which.getLsbD excludeSystem && pinfo.kproc then true
  else if which.getLsbD excludeNotty && !pinfo.tty then true
  else !selects which arg pinfo

/-- The loop over what `getprocs` finds, `sysdeps/aix/proclist.c:66–216`. -/
def readProcs (s : Collecting 32 (BitVec 32)) :
    List ProcsInfo → Except Mishap (Collecting 32 (BitVec 32))
  | [] => .ok s
  | pinfo :: procs =>
    if skips which arg pinfo then readProcs s procs
    else s.put intSizes pinfo.pid >>= fun s ↦ readProcs s procs

/-- `glibtop_get_proclist_s`, with the processes that `getprocs` finds and whether it fails behind
them; then the program ends. -/
def glibtopGetProclistS (procs : List ProcsInfo) (fails : Bool) :
    Except Mishap (Option (ProcList × PidArray)) :=
  readProcs which arg {} procs >>= fun s ↦
    if fails then .ok none
    else (s.finish intSizes).map fun collected ↦
      some (returned (fun total ↦ total.signExtend 64) collected)

/-- The pids that are accepted, in the order of the processes. -/
def accepted (procs : List ProcsInfo) : List (BitVec 32) :=
  (procs.filter fun pinfo ↦ !skips which arg pinfo).map ProcsInfo.pid

end

section

variable {which arg : BitVec 64}

/-- The loop adds the accepted pids one after the other. -/
theorem readProcs_eq (s : Collecting 32 (BitVec 32)) (procs : List ProcsInfo) :
    readProcs which arg s procs = s.putAll intSizes (accepted which arg procs) := by
  induction procs generalizing s with
  | nil => rfl
  | cons pinfo procs ih =>
    rw [readProcs, accepted]
    split
    · next hs =>
      rw [List.filter_cons_of_neg (by simp [hs])]
      exact ih s
    · next hs =>
      rw [List.filter_cons_of_pos (by simp [hs]), List.map_cons, Collecting.putAll]
      exact congrArg _ (funext fun s ↦ ih s)

theorem signExtend_length {pids : List (BitVec 32)} (h : pids.length < 2 ^ 31) :
    (BitVec.ofNat 32 pids.length).signExtend 64 = BitVec.ofNat 64 pids.length := by
  apply BitVec.eq_of_toNat_eq
  rw [BitVec.toNat_ofNat, Nat.mod_eq_of_lt (by omega)]
  exact Common.intSize_ofNat_of_lt pids.length h

/-- What the loop and the end of the function make of the accepted pids. -/
theorem glibtopGetProclistS_eq (procs : List ProcsInfo) :
    glibtopGetProclistS which arg procs false =
      ((Collecting.collect intSizes (accepted which arg procs)).map
        (returned fun total ↦ total.signExtend 64)).map some := by
  rw [glibtopGetProclistS, readProcs_eq, Collecting.collect]
  cases ({} : Collecting 32 (BitVec 32)).putAll intSizes (accepted which arg procs) with
  | error mishap => rfl
  | ok s =>
    change (s.finish intSizes).map _ = ((s.finish intSizes).map _).map some
    cases s.finish intSizes <;> rfl

theorem map_some_eq_ok_iff {result : Except Mishap (ProcList × PidArray)}
    {listing : ProcList × PidArray} :
    result.map some = .ok (some listing) ↔ result = .ok listing := by
  cases result <;> simp [Except.map]

/-- The list is that of the accepted pids if and only if there are fewer of them than an `int` can
tell the bytes of. -/
theorem glibtopGetProclistS_lists_iff (procs : List ProcsInfo) :
    glibtopGetProclistS which arg procs false =
        .ok (some (pidList (accepted which arg procs))) ↔
      (accepted which arg procs).length < 2 ^ 29 := by
  rw [glibtopGetProclistS_eq, map_some_eq_ok_iff, returned_collect_iff]
  · change _ * 4 < 2 ^ 31 ↔ _
    omega
  · intro hb
    have hlt : _ * 4 < 2 ^ 31 := hb
    exact signExtend_length (by omega)

/-- A failing scan ends the program. -/
theorem glibtopGetProclistS_fails {procs : List ProcsInfo}
    (h : (accepted which arg procs).length < 2 ^ 29) :
    glibtopGetProclistS which arg procs true = .ok none := by
  obtain ⟨s, flushed, hall, -⟩ := @Collecting.putAll_empty _ _ intSizes (accepted which arg procs)
    (by change _ * 4 ≤ 2 ^ 31; omega)
  rw [glibtopGetProclistS, readProcs_eq, hall]
  rfl

/-- The blocks of Solaris and AIX come out as the list of the accepted pids, in the order of the
scan, if and only if there are not too many for the words of their sizes. -/
theorem pidBlocks_iff {fs : Solaris.ProcFs} {names : List (List UInt8)} (hn : fs.names = some names)
    (hs : which &&& kernProcMask ≠ KernProc.pid.value) (which' arg' : BitVec 64)
    (procs : List ProcsInfo) :
    (Solaris.glibtopGetProclistS fs which arg =
          .ok (pidList (Solaris.accepted fs which arg names)) ↔
        (Solaris.accepted fs which arg names).length < 2 ^ 30) ∧
      (glibtopGetProclistS which' arg' procs false =
          .ok (some (pidList (accepted which' arg' procs))) ↔
        (accepted which' arg' procs).length < 2 ^ 29) :=
  ⟨Solaris.glibtopGetProclistS_lists_iff hn hs, glibtopGetProclistS_lists_iff procs⟩

end

/-- A directory of the first processes. -/
def numberedFs (count : Nat) : Solaris.ProcFs where
  names := some ((List.range count).map decimal)
  stat _ := none
  psinfo _ := none

/-- The first processes. -/
def numberedProcs (count : Nat) : List ProcsInfo :=
  (List.range count).map fun pid ↦
    { pid := BitVec.ofNat 32 pid, idl := false, kproc := false, tty := true, pgrp := 0, sid := 0
      ttyd := 0, uid := 0, ruid := 0 }

/-- Without exclusions all processes are accepted. -/
theorem length_accepted_numberedFs (count : Nat) :
    (Solaris.accepted (numberedFs count) 0 0 ((List.range count).map decimal)).length = count := by
  have hall : ∀ name ∈ (List.range count).map decimal,
      (Solaris.entryPid (numberedFs count) (Solaris.maskOf 0) (0 &&& kernProcMask) 0
        name).isSome := by
    intro name hname
    obtain ⟨pid, -, rfl⟩ := List.mem_map.mp hname
    have hdot : (decimal pid).head? ≠ some 46 := fun he ↦
      notMem_decimal (by decide) pid (List.mem_of_mem_head? he)
    rw [Solaris.entryPid, if_neg hdot]
    rfl
  rw [Solaris.accepted, List.filterMap_length_eq_length.mpr hall, List.length_map,
    List.length_range]

theorem length_accepted_numberedProcs (count : Nat) :
    (accepted 0 0 (numberedProcs count)).length = count := by
  have hall : (numberedProcs count).filter (fun pinfo ↦ !skips 0 0 pinfo) =
      numberedProcs count := by
    rw [List.filter_eq_self]
    intro pinfo hp
    obtain ⟨pid, -, rfl⟩ := List.mem_map.mp hp
    rfl
  rw [accepted, hall, List.length_map, numberedProcs, List.length_map, List.length_range]

/-- One more process than a block has is no problem. -/
theorem pidBlocks_flushed :
    Solaris.glibtopGetProclistS (numberedFs 257) 0 0 =
        .ok (pidList (Solaris.accepted (numberedFs 257) 0 0 ((List.range 257).map decimal))) ∧
      glibtopGetProclistS 0 0 (numberedProcs 257) false =
        .ok (some (pidList (accepted 0 0 (numberedProcs 257)))) := by
  have hiff := @pidBlocks_iff 0 0 (numberedFs 257) _ rfl (by decide) 0 0 (numberedProcs 257)
  rw [length_accepted_numberedFs, length_accepted_numberedProcs] at hiff
  exact ⟨hiff.1.mpr (by decide), hiff.2.mpr (by decide)⟩

/-- With `2 ^ 30` processes on Solaris and `2 ^ 29` on AIX, the size in bytes is no size any more.
-/
theorem not_pidBlocks :
    ¬(Solaris.glibtopGetProclistS (numberedFs (2 ^ 30)) 0 0 =
        .ok (pidList (Solaris.accepted (numberedFs (2 ^ 30)) 0 0
          ((List.range (2 ^ 30)).map decimal)))) ∧
      ¬(glibtopGetProclistS 0 0 (numberedProcs (2 ^ 29)) false =
        .ok (some (pidList (accepted 0 0 (numberedProcs (2 ^ 29)))))) := by
  constructor
  · rw [@Solaris.glibtopGetProclistS_lists_iff (numberedFs (2 ^ 30)) 0 0 _ rfl (by decide),
      length_accepted_numberedFs]
    exact Nat.lt_irrefl _
  · rw [glibtopGetProclistS_lists_iff, length_accepted_numberedProcs]
    exact Nat.lt_irrefl _

end LibGTop.Aix
