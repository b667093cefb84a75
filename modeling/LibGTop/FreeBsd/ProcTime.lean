import LibGTop.Bsd.ProcTime

/-!
# The times of a process

`glibtop_get_proc_time_p` of FreeBSD (`sysdeps/freebsd/proctime.c:60–114`).
-/

namespace LibGTop.FreeBsd

open Base Bsd

/-- `struct kinfo_proc`. -/
structure KinfoProc where
  runtime : BitVec 64
  utime : Timeval
  stime : Timeval
  childtime : Timeval
  childStime : Timeval
  start : Timeval

/-- `struct clockinfo`. -/
structure Clockinfo where
  hz : BitVec 32
  stathz : BitVec 32

/-- What the kernel answers: the number of processes with the first one, and the clock rates, unless
`sysctlbyname` fails. -/
structure TimeKernel where
  procs : Option (Int × KinfoProc)
  clockrate : Option Clockinfo

/-- The process, where there is just one. -/
def TimeKernel.process (kernel : TimeKernel) : Option KinfoProc :=
  kernel.procs.bind fun (count, proc) ↦ if count = 1 then some proc else none

/-- `tv2sec_freq`, `sysdeps/freebsd/proctime.c:41–44`. -/
def tv2secFreq (tv : Timeval) (freq : BitVec 64) : BitVec 64 :=
  tv.sec * freq + tv.usec * freq / 1000000

/-- `glibtop_get_proc_time_p`, `sysdeps/freebsd/proctime.c:60–114`. -/
def glibtopGetProcTimeP (kernel : TimeKernel) (pid : BitVec 32) : Prog Process ProcTime :=
  if pid = 0 then pure {}
  else do
    suidEnter
    match kernel.process with
    | none =>
      suidLeave
      pure {}
    | some proc =>
      suidLeave
      match kernel.clockrate with
      | none =>
        suidLeave
        pure {}
      | some ci =>
        let frequency := (if ci.stathz ≠ 0 then ci.stathz else ci.hz).signExtend 64
        pure
          { frequency := frequency
            rtime := proc.runtime * frequency / 1000000
            utime := tv2secFreq proc.utime frequency
            stime := tv2secFreq proc.stime frequency
            cutime := tv2secFreq proc.childtime frequency
            cstime := tv2secFreq proc.childStime frequency
            startTime := tv2secFreq proc.start 1
            flags := sysdepsProcTime ||| sysdepsProcTimeUser }

/-- The clock rates are not read, after the privileges are dropped. -/
def ClockFailed (kernel : TimeKernel) (pid : BitVec 32) : Prop :=
  pid ≠ 0 ∧ kernel.process.isSome ∧ kernel.clockrate = none

/-- The privileges are dropped once more where the clock rates are not read, and only there. -/
theorem ensures_glibtopGetProcTimeP {u : Suid} (kernel : TimeKernel) (pid : BitVec 32) :
    Ensures (HasSuid u) (glibtopGetProcTimeP kernel pid) fun _ p ↦
      (ClockFailed kernel pid ∧ ∃ v, u.enter.leave = some v ∧ v.leave = some p.suid) ∨
        ¬ClockFailed kernel pid ∧ (p.suid = u ∨ u.enter.leave = some p.suid) := by
  unfold glibtopGetProcTimeP
  split
  · next h => exact ensures_pure fun _ hp ↦ .inr ⟨fun hc ↦ hc.1 h, .inl hp⟩
  next hpid =>
  refine ensures_bind (ensures_suidEnter u) fun _ ↦ ?_
  cases hprocess : kernel.process with
  | none =>
    refine ensures_bind (ensures_suidLeave u.enter) fun _ ↦ ?_
    refine ensures_pure fun _ hp ↦ .inr ⟨?_, .inr hp⟩
    rintro ⟨-, h, -⟩
    rw [hprocess] at h
    exact absurd h nofun
  | some proc =>
    refine ensures_bind (ensures_suidLeave u.enter) fun _ ↦ ?_
    cases hclock : kernel.clockrate with
    | none =>
      have hfailed : ClockFailed kernel pid := ⟨hpid, by rw [hprocess]; rfl, hclock⟩
      intro p hp
      have hleave := ensures_suidLeave p.suid
      refine ensures_bind hleave (fun _ ↦ ?_) p rfl
      exact ensures_pure fun _ hq ↦ .inl ⟨hfailed, p.suid, hp, hq⟩
    | some ci =>
      refine ensures_pure fun _ hp ↦ .inr ⟨?_, .inr hp⟩
      rintro ⟨-, -, h⟩
      rw [hclock] at h
      exact absurd h nofun

end LibGTop.FreeBsd
