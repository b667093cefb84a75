import LibGTop.Linux.Readers

/-!
# The times of the CPUs

`glibtop_open_s` counts the CPUs (`sysdeps/linux/open.c:70–104`), and
`glibtop_get_cpu_s` reads their times (`sysdeps/linux/cpu.c:71–151`), both from
`/proc/stat`. Either goes from line to line and looks for the next label at the
start.
-/

namespace LibGTop.Linux

open Base

/-- `STAT_BUFSIZ`. -/
def statBufsiz : Nat := 81920

/-- `GLIBTOP_NCPU`, `include/glibtop/cpu.h:57`. -/
def glibtopNcpu : Nat := 1024

theorem skipLine_length_lt {p : List UInt8} (h : p ≠ []) (h0 : p.head? ≠ some 0) :
    (skipLine p).length < p.length := by
  cases p with
  | nil => exact absurd rfl h
  | cons b p =>
    have hb : b ≠ 0 := fun he ↦ h0 (by rw [he, List.head?_cons])
    have hd := (List.dropWhile_suffix (l := p) fun b ↦ b ≠ 0 && b ≠ 10).length_le
    unfold skipLine
    by_cases hn : b = 10
    · subst hn
      exact Nat.lt_succ_self _
    · rw [List.dropWhile_cons_of_pos (by simp [hb, hn])]
      split
      · next rest he =>
        rw [he, List.length_cons] at hd
        rw [List.length_cons]
        omega
      · rw [List.length_cons]
        omega

/-- A line that starts with the label of a CPU is not empty. -/
theorem checkCpuLine_ne {p : List UInt8} {i : Nat} (h : checkCpuLine p i = true) :
    p ≠ [] ∧ p.head? ≠ some 0 := by
  obtain ⟨rest, rfl⟩ := List.isPrefixOf_iff_prefix.mp h
  constructor
  · exact List.cons_ne_nil _ _
  · exact fun he ↦ absurd (Option.some.inj he) (by decide)

/-- The loop of `sysdeps/linux/open.c:85–93`: `real_ncpu` at its end. -/
def countCpus (p : List UInt8) (realNcpu : Nat) : Int :=
  if h : checkCpuLine p realNcpu then countCpus (skipLine p) (realNcpu + 1)
  else realNcpu - 1
termination_by p.length
decreasing_by exact skipLine_length_lt (checkCpuLine_ne h).1 (checkCpuLine_ne h).2

/-- What `glibtop_open_s` finds in `/proc/stat`: `real_ncpu` and `ncpu`,
`sysdeps/linux/open.c:81–95`; absent when the file cannot be read, which ends the process. -/
def glibtopOpenS (procStat : Option (List UInt8)) : Option (Int × Int) :=
  (tryFileToBuffer statBufsiz procStat).map fun buffer ↦
    let realNcpu := countCpus (skipLine buffer) 0
    (realNcpu, min (glibtopNcpu - 1) realNcpu)

/-- The times of all CPUs or of one, `include/glibtop/cpu.h:61–86`. -/
structure CpuTimes where
  total : BitVec 64 := 0
  user : BitVec 64 := 0
  nice : BitVec 64 := 0
  sys : BitVec 64 := 0
  idle : BitVec 64 := 0
  iowait : BitVec 64 := 0
  irq : BitVec 64 := 0
  softirq : BitVec 64 := 0
  deriving DecidableEq

/-- `glibtop_cpu`, `include/glibtop/cpu.h:61–86`; of the `xcpu_*` arrays the entries that are
stored, from index 0 on. The others are 0. -/
structure Cpu where
  flags : BitVec 64 := 0
  times : CpuTimes := {}
  frequency : BitVec 64 := 0
  xcpu : List CpuTimes := []

/-- `_glibtop_sysdeps_cpu` and, for more than one CPU, `_glibtop_sysdeps_cpu_smp`. -/
def sysdepsCpu : BitVec 64 := flagBits [0, 1, 2, 3, 4, 5]

@[inherit_doc sysdepsCpu] def sysdepsCpuSmp : BitVec 64 := flagBits [6, 7, 8, 9, 10]

/-- `_glibtop_sysdeps_cpu_2_6` and `_glibtop_sysdeps_cpu_smp_2_6`. -/
def sysdepsCpu26 : BitVec 64 := flagBits [12, 13, 14]

@[inherit_doc sysdepsCpu26] def sysdepsCpuSmp26 : BitVec 64 := flagBits [15, 16, 17]

/-- The columns of a line from the first number on, `sysdeps/linux/cpu.c:87–102` and `119–140`. -/
def readTimesOfCpu (osVersionCode : Nat) (p : List UInt8) : CpuTimes × List UInt8 :=
  let (user, p) := strtoull 0 p
  let (nice, p) := strtoull 0 p
  let (sys, p) := strtoull 0 p
  let (idle, p) := strtoull 0 p
  let buf : CpuTimes :=
    { user := user, nice := nice, sys := sys, idle := idle, total := user + nice + sys + idle }
  if linuxVersionCode 2 6 0 ≤ osVersionCode then
    let (iowait, p) := strtoull 0 p
    let (irq, p) := strtoull 0 p
    let (softirq, p) := strtoull 0 p
    ({ buf with
        iowait := iowait
        irq := irq
        softirq := softirq
        total := buf.total + (iowait + irq + softirq) }, p)
  else (buf, p)

/-- The loop of `sysdeps/linux/cpu.c:110–141` from CPU `i` on, for `count` turns at most; the
pointer is in the line before. -/
def xcpuTimes (osVersionCode : Nat) : Nat → Nat → List UInt8 → List CpuTimes
  | 0, _, _ => []
  | count + 1, i, p =>
    let p := skipLine p
    if checkCpuLine p i then
      let (times, p) := readTimesOfCpu osVersionCode (skipToken p)
      times :: xcpuTimes osVersionCode count (i + 1) p
    else []

/-- `glibtop_get_cpu_s`, `sysdeps/linux/cpu.c:71–151`; absent when the process ends. -/
def glibtopGetCpuS (osVersionCode : Nat) (ncpu : Int) (procStat : Option (List UInt8)) :
    Option Cpu :=
  (tryFileToBuffer statBufsiz procStat).map fun buffer ↦
    let (times, p) := readTimesOfCpu osVersionCode (skipToken buffer)
    let smp := if ncpu = 0 then 0 else sysdepsCpuSmp
    let cpu26 :=
      if linuxVersionCode 2 6 0 ≤ osVersionCode then
        sysdepsCpu26 ||| (if ncpu = 0 then 0 else sysdepsCpuSmp26)
      else 0
    { flags := sysdepsCpu ||| smp ||| cpu26
      times := times
      frequency := 100
      xcpu := xcpuTimes osVersionCode (ncpu + 1).toNat 0 p }

end LibGTop.Linux
