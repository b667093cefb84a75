import LibGTop.Base.Scaling
import LibGTop.Bsd.ProcTime

/-!
# The times of a process on OpenBSD

`glibtop_get_proc_time_p` (`sysdeps/openbsd/proctime.c:65–107`), and when the times that it returns
are in the units of the frequency that it returns.
-/

namespace LibGTop.OpenBsd

open Base Bsd

/-- A time in the fields `_sec` and `_usec` of a process. -/
structure KernelTime where
  sec : BitVec 32
  usec : BitVec 32

/-- `struct kinfo_proc`: the running time, the user time, the system time, the time of the children,
and the start. -/
structure KinfoProc where
  rtime : KernelTime
  uutime : KernelTime
  ustime : KernelTime
  uctime : KernelTime
  ustartSec : BitVec 64

/-- `clockrate` behind `_glibtop_init_proc_time_p`, by what `sysctl` answers. -/
def initClockrate (hz : Option (BitVec 32)) : BitVec 32 :=
  let clockrate := hz.getD 0
  if clockrate = 0 then 1 else clockrate

/-- A time in ticks of the clock. -/
def KernelTime.ticks (clockrate : BitVec 32) (time : KernelTime) : BitVec 64 :=
  (time.sec * clockrate + time.usec * clockrate / 1000000).setWidth 64

/-- A time in microseconds. -/
def KernelTime.micros (time : KernelTime) : BitVec 64 :=
  (time.sec * 1000000 + time.usec).setWidth 64

/-- `glibtop_get_proc_time_p`, `sysdeps/openbsd/proctime.c:65–107`, by what `kvm_getprocs` finds. -/
def glibtopGetProcTimeP (clockrate : BitVec 32) (pid : BitVec 32) (pinfo : Option KinfoProc) :
    ProcTime :=
  if pid = 0 then {}
  else
    match pinfo with
    | none => {}
    | some pinfo =>
      { rtime := pinfo.rtime.ticks clockrate
        frequency := clockrate.setWidth 64
        utime := pinfo.uutime.micros
        stime := pinfo.ustime.micros
        cutime := pinfo.uctime.micros
        cstime := 0
        startTime := pinfo.ustartSec
        flags := sysdepsProcTime ||| sysdepsProcTimeUser }

/-- The microseconds of a time. -/
def KernelTime.total (time : KernelTime) : Nat := time.sec.toNat * 1000000 + time.usec.toNat

/-- A value that is divided by a frequency is the time up to one unit. -/
def InUnits (frequency value : BitVec 64) (time : KernelTime) : Prop :=
  value.toNat * 1000000 ≤ time.total * frequency.toNat + 1000000 ∧
    time.total * frequency.toNat ≤ value.toNat * 1000000 + 1000000

/-- The times are in the units of the frequency, and none of them has wrapped. -/
structure TimesRight (pinfo : KinfoProc) (buf : ProcTime) : Prop where
  rtime : InUnits buf.frequency buf.rtime pinfo.rtime
  utime : InUnits buf.frequency buf.utime pinfo.uutime
  stime : InUnits buf.frequency buf.stime pinfo.ustime
  cutime : InUnits buf.frequency buf.cutime pinfo.uctime
  rtime_exact : buf.rtime.toNat = pinfo.rtime.sec.toNat * buf.frequency.toNat +
    pinfo.rtime.usec.toNat * buf.frequency.toNat / 1000000
  utime_exact : buf.utime.toNat = pinfo.uutime.total
  stime_exact : buf.stime.toNat = pinfo.ustime.total
  cutime_exact : buf.cutime.toNat = pinfo.uctime.total

/-- A time in microseconds fits, and a frequency is as close to one million as it has to be. -/
def KernelTime.MicrosRight (clockrate : BitVec 32) (time : KernelTime) : Prop :=
  time.total < 2 ^ 32 ∧ time.total * ((clockrate.toNat : Int) - 1000000).natAbs ≤ 1000000

instance KernelTime.decidableMicrosRight (clockrate : BitVec 32) (time : KernelTime) :
    Decidable (time.MicrosRight clockrate) := inferInstanceAs (Decidable (_ ∧ _))

/-- A time in ticks fits, and so does the product that is divided. -/
def KernelTime.TicksRight (clockrate : BitVec 32) (time : KernelTime) : Prop :=
  time.usec.toNat * clockrate.toNat < 2 ^ 32 ∧
    time.sec.toNat * clockrate.toNat + time.usec.toNat * clockrate.toNat / 1000000 < 2 ^ 32

instance KernelTime.decidableTicksRight (clockrate : BitVec 32) (time : KernelTime) :
    Decidable (time.TicksRight clockrate) := inferInstanceAs (Decidable (_ ∧ _))

section

variable {clockrate : BitVec 32} {time : KernelTime}

theorem toNat_widen (word : BitVec 32) : (word.setWidth 64).toNat = word.toNat := by
  rw [BitVec.toNat_setWidth, Nat.mod_eq_of_lt (Nat.lt_trans word.isLt (by decide))]

theorem micros_exact_iff : time.micros.toNat = time.total ↔ time.total < 2 ^ 32 := by
  have hmicros : time.micros.toNat = time.total % 2 ^ 32 := by
    rw [KernelTime.micros, toNat_widen, BitVec.toNat_add, BitVec.toNat_mul, Nat.mod_add_mod]
    rfl
  rw [hmicros]
  exact ⟨fun h ↦ h ▸ Nat.mod_lt _ (Nat.two_pow_pos 32), Nat.mod_eq_of_lt⟩

/-- The ticks are exact where neither the product that is divided nor the sum wraps. -/
theorem ticks_exact_iff :
    (time.ticks clockrate).toNat = time.sec.toNat * clockrate.toNat +
        time.usec.toNat * clockrate.toNat / 1000000 ↔
      time.TicksRight clockrate := by
  have hticks : (time.ticks clockrate).toNat =
      (time.sec.toNat * clockrate.toNat +
        time.usec.toNat * clockrate.toNat % 2 ^ 32 / 1000000) % 2 ^ 32 := by
    rw [KernelTime.ticks, toNat_widen, BitVec.toNat_add, BitVec.toNat_mul, BitVec.toNat_udiv,
      BitVec.toNat_mul, Nat.mod_add_mod]
    rfl
  have hquotient : time.usec.toNat * clockrate.toNat % 2 ^ 32 / 1000000 ≤
      time.usec.toNat * clockrate.toNat / 1000000 := Nat.div_le_div_right (Nat.mod_le _ _)
  rw [hticks, KernelTime.TicksRight, ← div_mod_eq_iff (t := 1000000) (by decide) (by decide)]
  generalize time.usec.toNat * clockrate.toNat % 2 ^ 32 / 1000000 = wrapped at *
  generalize time.usec.toNat * clockrate.toNat / 1000000 = quotient at *
  generalize time.sec.toNat * clockrate.toNat = ticks at *
  constructor
  · intro h
    have hle := Nat.mod_le (ticks + wrapped) (2 ^ 32)
    have hlt := Nat.mod_lt (ticks + wrapped) (Nat.two_pow_pos 32)
    rw [h] at hle hlt
    exact ⟨by omega, hlt⟩
  · rintro ⟨rfl, hlt⟩
    exact Nat.mod_eq_of_lt hlt

/-- Exact microseconds are in units of the frequency where it is close to one million. -/
theorem inUnits_micros (h : time.total < 2 ^ 32) :
    InUnits (clockrate.setWidth 64) time.micros time ↔
      time.total * ((clockrate.toNat : Int) - 1000000).natAbs ≤ 1000000 := by
  rw [InUnits, micros_exact_iff.mpr h, toNat_widen]
  obtain hle | hle := Nat.le_total clockrate.toNat 1000000
  · have habs : ((clockrate.toNat : Int) - 1000000).natAbs = 1000000 - clockrate.toNat := by omega
    have hmul := Nat.mul_le_mul_left time.total hle
    rw [habs, Nat.mul_sub]
    omega
  · have habs : ((clockrate.toNat : Int) - 1000000).natAbs = clockrate.toNat - 1000000 := by omega
    have hmul := Nat.mul_le_mul_left time.total hle
    rw [habs, Nat.mul_sub]
    omega

/-- Exact ticks are in units of the clock. -/
theorem inUnits_ticks (h : time.TicksRight clockrate) :
    InUnits (clockrate.setWidth 64) (time.ticks clockrate) time := by
  have hdiv := Nat.div_add_mod (time.usec.toNat * clockrate.toNat) 1000000
  have hmod := Nat.mod_lt (time.usec.toNat * clockrate.toNat) (by decide : 0 < 1000000)
  have htotal : time.total * clockrate.toNat =
      time.sec.toNat * clockrate.toNat * 1000000 + time.usec.toNat * clockrate.toNat := by
    rw [KernelTime.total, Nat.add_mul, Nat.mul_right_comm]
  rw [InUnits, ticks_exact_iff.mpr h, toNat_widen, htotal]
  generalize time.usec.toNat * clockrate.toNat = product at *
  generalize time.sec.toNat * clockrate.toNat = ticks at *
  omega

end

/-- The times are in the units of the frequency exactly when the running time fits in ticks and
every other time is so short that a microsecond may be taken for a tick. -/
theorem proc_time_units_iff (hz : Option (BitVec 32)) (pinfo : KinfoProc) {pid : BitVec 32}
    (hp : pid ≠ 0) :
    TimesRight pinfo (glibtopGetProcTimeP (initClockrate hz) pid (some pinfo)) ↔
      pinfo.rtime.TicksRight (initClockrate hz) ∧ pinfo.uutime.MicrosRight (initClockrate hz) ∧
        pinfo.ustime.MicrosRight (initClockrate hz) ∧
        pinfo.uctime.MicrosRight (initClockrate hz) := by
  generalize initClockrate hz = clockrate
  rw [glibtopGetProcTimeP, if_neg hp]
  constructor
  · intro h
    have hexact := h.rtime_exact
    rw [toNat_widen] at hexact
    have huser := micros_exact_iff.mp h.utime_exact
    have hsystem := micros_exact_iff.mp h.stime_exact
    have hchildren := micros_exact_iff.mp h.cutime_exact
    exact ⟨ticks_exact_iff.mp hexact, ⟨huser, (inUnits_micros huser).mp h.utime⟩,
      ⟨hsystem, (inUnits_micros hsystem).mp h.stime⟩,
      ⟨hchildren, (inUnits_micros hchildren).mp h.cutime⟩⟩
  · rintro ⟨hr, hu, hs, hc⟩
    exact {
      rtime := inUnits_ticks hr
      utime := (inUnits_micros hu.1).mpr hu.2
      stime := (inUnits_micros hs.1).mpr hs.2
      cutime := (inUnits_micros hc.1).mpr hc.2
      rtime_exact := by
        rw [toNat_widen]
        exact ticks_exact_iff.mpr hr
      utime_exact := micros_exact_iff.mpr hu.1
      stime_exact := micros_exact_iff.mpr hs.1
      cutime_exact := micros_exact_iff.mpr hc.1 }

/-- A process that ran for a time and was in user mode for another. -/
def userProc (rtime utime : KernelTime) : KinfoProc := ⟨rtime, utime, ⟨0, 0⟩, ⟨0, 0⟩, 0⟩

/-- A process that ran for two seconds, with a microsecond in user mode. -/
theorem proc_time_units_microsecond :
    TimesRight (userProc ⟨2, 0⟩ ⟨0, 1⟩) (glibtopGetProcTimeP (initClockrate (some 100)) 1
      (some (userProc ⟨2, 0⟩ ⟨0, 1⟩))) :=
  (@proc_time_units_iff (some 100) (userProc ⟨2, 0⟩ ⟨0, 1⟩) 1 (by decide)).mpr
    ⟨by decide, by decide, by decide, by decide⟩

/-- A process that ran for two seconds, all of them in user mode. -/
def twoSeconds : KinfoProc := userProc ⟨2, 0⟩ ⟨2, 0⟩

/-- Two seconds are 200 ticks, and reported as two million units of user time. -/
theorem proc_time_twoSeconds :
    (glibtopGetProcTimeP (initClockrate (some 100)) 1 (some twoSeconds)).rtime = 200 ∧
      (glibtopGetProcTimeP (initClockrate (some 100)) 1 (some twoSeconds)).utime = 2000000 ∧
      (glibtopGetProcTimeP (initClockrate (some 100)) 1 (some twoSeconds)).frequency = 100 ∧
      ¬TimesRight twoSeconds
        (glibtopGetProcTimeP (initClockrate (some 100)) 1 (some twoSeconds)) :=
  ⟨by decide, by decide, by decide, fun h ↦ absurd h.utime.1 (by decide)⟩

end LibGTop.OpenBsd
