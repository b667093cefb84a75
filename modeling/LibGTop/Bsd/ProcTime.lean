import LibGTop.Bsd.Suid
import LibGTop.Linux.Readers

/-!
# The times of a process

`glibtop_get_proc_time_p` of NetBSD (`sysdeps/bsd/proctime.c:113–251`), with `calcru`.
-/

namespace LibGTop.Bsd

open Base

/-- `struct timeval`. -/
structure Timeval where
  sec : BitVec 64
  usec : BitVec 64

/-- `tv2sec`. -/
def Timeval.micros (tv : Timeval) : BitVec 64 := tv.sec * 1000000 + tv.usec

/-- The fields of `glibtop_proc_time` that are set. -/
structure ProcTime where
  flags : BitVec 64 := 0
  startTime : BitVec 64 := 0
  rtime : BitVec 64 := 0
  utime : BitVec 64 := 0
  stime : BitVec 64 := 0
  cutime : BitVec 64 := 0
  cstime : BitVec 64 := 0
  frequency : BitVec 64 := 0

/-- `_glibtop_sysdeps_proc_time`: `RTIME` and `FREQUENCY`. -/
def sysdepsProcTime : BitVec 64 := Linux.flagBits [1, 8]

/-- `_glibtop_sysdeps_proc_time_user`: `UTIME`, `STIME`, `CUTIME`, `CSTIME` and `START_TIME`. -/
def sysdepsProcTimeUser : BitVec 64 := Linux.flagBits [2, 3, 4, 5, 0]

/-- `struct proc`: the running time and the ticks. -/
structure Proc where
  rtime : Timeval
  uticks : BitVec 64
  sticks : BitVec 64
  iticks : BitVec 64
  stats : BitVec 64

/-- `struct pstats`: the times of the children and the start. -/
structure Pstats where
  cutime : Timeval
  cstime : Timeval
  start : Timeval

/-- What the kernel answers: the number of processes with the first one, and what is at the address
of its statistics, unless the read is cut. -/
structure TimeKernel where
  procs : Option (Int × Proc)
  pstats : BitVec 64 → Option Pstats

/-- The process, where there is just one. -/
def TimeKernel.process (kernel : TimeKernel) : Option Proc :=
  kernel.procs.bind fun (count, proc) ↦ if count = 1 then some proc else none

/-- A number of microseconds. -/
def timevalOf (micros : BitVec 64) : Timeval :=
  { sec := micros / 1000000
    usec := micros % 1000000 }

/-- What `calcru` stores: the user time, the system time and, when asked, the time of interrupts. -/
structure Usage where
  user : Timeval
  system : Timeval
  interrupt : Option Timeval

/-- `calcru`, `sysdeps/bsd/proctime.c:58–105`; the time of interrupts is asked for where `ip` is not
`NULL`. -/
def calcru (p : Proc) (ip : Bool) : Usage :=
  let st := p.sticks
  let ut := p.uticks
  let it := p.iticks
  let tot := st + ut + it
  let (st, tot) := if tot = 0 then (1, 1) else (st, tot)
  let totusec := p.rtime.sec * 1000000 + p.rtime.usec
  let totusec := if totusec.slt 0 then 0 else totusec
  let u := totusec
  { system := timevalOf (u * st / tot)
    user := timevalOf (u * ut / tot)
    interrupt := if ip then some (timevalOf (u * it / tot)) else none }

/-- `glibtop_get_proc_time_p`, `sysdeps/bsd/proctime.c:113–251`, of a server that is initialised and
whose features have this value. -/
def glibtopGetProcTimeP (features : BitVec 64) (kernel : TimeKernel) (pid : BitVec 32) :
    Prog Process ProcTime :=
  if pid = 0 then pure {}
  else if features = 0 then pure {}
  else
    match kernel.process with
    | none => pure {}
    | some proc => do
      let buf : ProcTime :=
        { rtime := proc.rtime.micros
          frequency := 1000000
          flags := sysdepsProcTime }
      suidEnter
      match kernel.pstats proc.stats with
      | none => pure buf
      | some pstats =>
        suidLeave
        let usage := calcru proc false
        pure { buf with
          utime := usage.user.micros
          stime := usage.system.micros
          cutime := pstats.cutime.micros
          cstime := pstats.cstime.micros
          startTime := pstats.start.sec
          flags := sysdepsProcTime ||| sysdepsProcTimeUser }

/-- The read of the statistics is cut, after the privileges are raised. -/
def StatsCut (features : BitVec 64) (kernel : TimeKernel) (pid : BitVec 32) : Prop :=
  pid ≠ 0 ∧ features ≠ 0 ∧ ∃ proc ∈ kernel.process, kernel.pstats proc.stats = none

/-- The privileges stay raised where the read of the statistics is cut, and only there. -/
theorem ensures_glibtopGetProcTimeP {u : Suid} (features : BitVec 64) (kernel : TimeKernel)
    (pid : BitVec 32) :
    Ensures (HasSuid u) (glibtopGetProcTimeP features kernel pid) fun _ p ↦
      (StatsCut features kernel pid ∧ p.suid = u.enter) ∨
        ¬StatsCut features kernel pid ∧ (p.suid = u ∨ u.enter.leave = some p.suid) := by
  unfold glibtopGetProcTimeP
  split
  · next h => exact ensures_pure fun _ hp ↦ .inr ⟨fun hc ↦ hc.1 h, .inl hp⟩
  next hpid =>
  split
  · next h => exact ensures_pure fun _ hp ↦ .inr ⟨fun hc ↦ hc.2.1 h, .inl hp⟩
  next hfeatures =>
  cases hprocess : kernel.process with
  | none =>
    refine ensures_pure fun _ hp ↦ .inr ⟨?_, .inl hp⟩
    rintro ⟨-, -, proc, h, -⟩
    rw [hprocess] at h
    exact absurd h nofun
  | some proc =>
    refine ensures_bind (ensures_suidEnter u) fun _ ↦ ?_
    cases hstats : kernel.pstats proc.stats with
    | none =>
      have hcut : StatsCut features kernel pid := ⟨hpid, hfeatures, proc, hprocess, hstats⟩
      exact ensures_pure fun _ hp ↦ .inl ⟨hcut, hp⟩
    | some pstats =>
      have hcut : ¬StatsCut features kernel pid := by
        rintro ⟨-, -, other, ho, hn⟩
        obtain rfl := Option.some.inj (hprocess.symm.trans ho)
        rw [hstats] at hn
        exact absurd hn nofun
      refine ensures_bind (ensures_suidLeave u.enter) fun _ ↦ ?_
      exact ensures_pure fun _ hp ↦ .inr ⟨hcut, .inr hp⟩

end LibGTop.Bsd
