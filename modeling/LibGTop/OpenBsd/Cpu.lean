import LibGTop.Base.Ledger
import LibGTop.Linux.Readers

/-!
# The processors of OpenBSD

`glibtop_get_cpu_s` (`sysdeps/openbsd/cpu.c:59–148`): what it reports of each processor, and what it
does with the buffers for their times.
-/

namespace LibGTop.OpenBsd

open Base

/-- The times of `CP_USER`, `CP_NICE`, `CP_SYS`, `CP_IDLE` and `CP_INTR`. -/
structure CpTimes where
  user : BitVec 64
  nice : BitVec 64
  sys : BitVec 64
  idle : BitVec 64
  intr : BitVec 64

/-- `struct clockinfo`. -/
structure Clockinfo where
  hz : BitVec 32
  stathz : BitVec 32

/-- The fields `xcpu_user`, `xcpu_nice`, `xcpu_sys`, `xcpu_idle`, `xcpu_irq` and `xcpu_total` of a
processor. -/
structure Xcpu where
  user : BitVec 64
  nice : BitVec 64
  sys : BitVec 64
  idle : BitVec 64
  irq : BitVec 64
  total : BitVec 64

/-- `glibtop_cpu`. -/
structure Cpu where
  flags : BitVec 64 := 0
  total : BitVec 64 := 0
  user : BitVec 64 := 0
  nice : BitVec 64 := 0
  sys : BitVec 64 := 0
  idle : BitVec 64 := 0
  irq : BitVec 64 := 0
  frequency : BitVec 64 := 0
  xcpu : List Xcpu := []

/-- `_glibtop_sysdeps_cpu`: `TOTAL`, `USER`, `NICE`, `SYS`, `IDLE`, `FREQUENCY` and `IRQ`. -/
def sysdepsCpu : BitVec 64 := Linux.flagBits [0, 1, 2, 3, 4, 5, 13]

/-- `_glibtop_sysdeps_cpu_smp`: the same for each processor, without `FREQUENCY`. -/
def sysdepsCpuSmp : BitVec 64 := Linux.flagBits [6, 7, 8, 9, 10, 16]

/-- `_glibtop_init_cpu_s`. -/
def initCpu (ncpu : Nat) : BitVec 64 :=
  if ncpu = 0 then sysdepsCpu else sysdepsCpu ||| sysdepsCpuSmp

/-- What the kernel answers. A released buffer has bytes of its own in it. -/
structure CpuKernel where
  cptime : Option CpTimes
  clockrate : Option Clockinfo
  cptime2 : Nat → Option CpTimes
  stale : Nat → CpTimes

/-- The times of a processor with their total. -/
def CpTimes.xcpu (times : CpTimes) : Xcpu :=
  { user := times.user
    nice := times.nice
    sys := times.sys
    idle := times.idle
    irq := times.intr
    total := times.user + times.nice + times.sys + times.idle + times.intr }

/-- The times of all processors, divided by their number. -/
def CpTimes.share (cpts : CpTimes) (ncpu : Nat) : CpTimes :=
  { user := cpts.user.sdiv (BitVec.ofNat 64 ncpu)
    nice := cpts.nice.sdiv (BitVec.ofNat 64 ncpu)
    sys := cpts.sys.sdiv (BitVec.ofNat 64 ncpu)
    idle := cpts.idle.sdiv (BitVec.ofNat 64 ncpu)
    intr := cpts.intr.sdiv (BitVec.ofNat 64 ncpu) }

/-- The variables of the loop, with what has been done with the buffers; each turn obtains one,
which has its number. -/
structure CpuLoop where
  cpTimes : Option Nat := none
  events : List (BufferEvent Nat) := []
  xcpu : List Xcpu := []

/-- A turn of the loop, `sysdeps/openbsd/cpu.c:117–139`. -/
def cpuTurn (kernel : CpuKernel) (cpts : CpTimes) (ncpu : Nat) (s : CpuLoop) (i : Nat) : CpuLoop :=
  let cpTimes := some i
  let events : List (BufferEvent Nat) := s.events ++ [.obtained i]
  -- The variable still points to the buffer that is released.
  let (contents, events) : CpTimes × List (BufferEvent Nat) :=
    match kernel.cptime2 i with
    | some times => (times, events)
    | none => (kernel.stale i, events ++ [.released i])
  match cpTimes with
  | some buffer =>
    { cpTimes
      events := events ++ [.used buffer]
      xcpu := s.xcpu ++ [contents.xcpu] }
  | none =>
    { cpTimes
      events
      xcpu := s.xcpu ++ [(cpts.share ncpu).xcpu] }

/-- `glibtop_get_cpu_s`, `sysdeps/openbsd/cpu.c:59–148`, with what it does with the buffers. -/
def glibtopGetCpuS (serverNcpu : Nat) (features : BitVec 64) (kernel : CpuKernel) :
    Cpu × List (BufferEvent Nat) :=
  if features = 0 then ({}, [])
  else
    match kernel.cptime with
    | none => ({}, [])
    | some cpts =>
      match kernel.clockrate with
      | none => ({}, [])
      | some ci =>
        let ncpu := serverNcpu + 1
        let s := (List.range ncpu).foldl (cpuTurn kernel cpts ncpu) {}
        ({ user := cpts.user
           nice := cpts.nice
           sys := cpts.sys
           idle := cpts.idle
           irq := cpts.intr
           frequency := (if ci.stathz ≠ 0 then ci.stathz else ci.hz).signExtend 64
           total := cpts.user + cpts.nice + cpts.sys + cpts.idle + cpts.intr
           xcpu := s.xcpu
           flags := if 1 < ncpu then sysdepsCpu ||| sysdepsCpuSmp else sysdepsCpu },
          s.events ++ (s.cpTimes.elim [] fun buffer ↦ [.released buffer]))

/-- What a turn does with its buffer. -/
def turnEvents (kernel : CpuKernel) (i : Nat) : List (BufferEvent Nat) :=
  match kernel.cptime2 i with
  | some _ => [.obtained i, .used i]
  | none => [.obtained i, .released i, .used i]

/-- What a turn reports. -/
def turnXcpu (kernel : CpuKernel) (i : Nat) : Xcpu :=
  ((kernel.cptime2 i).getD (kernel.stale i)).xcpu

section

variable {kernel : CpuKernel} {cpts : CpTimes} {ncpu : Nat}

theorem cpuTurn_eq (s : CpuLoop) (i : Nat) :
    cpuTurn kernel cpts ncpu s i =
      { cpTimes := some i
        events := s.events ++ turnEvents kernel i
        xcpu := s.xcpu ++ [turnXcpu kernel i] } := by
  cases h : kernel.cptime2 i <;> simp [cpuTurn, turnEvents, turnXcpu, h]

/-- The loop over the processors. -/
theorem foldl_cpuTurn (count : Nat) :
    (List.range count).foldl (cpuTurn kernel cpts ncpu) {} =
      { cpTimes := if count = 0 then none else some (count - 1)
        events := (List.range count).flatMap (turnEvents kernel)
        xcpu := (List.range count).map (turnXcpu kernel) } := by
  induction count with
  | zero => rfl
  | succ count ih =>
    rw [List.range_succ, List.foldl_append, ih, List.foldl_cons, List.foldl_nil, cpuTurn_eq]
    simp

end

/-- Each processor has its own times, or its share of those of all where it has none. -/
structure XcpuRight (kernel : CpuKernel) (cpts : CpTimes) (ncpu : Nat) (buf : Cpu) : Prop where
  times : buf.xcpu = (List.range ncpu).map fun i ↦
    ((kernel.cptime2 i).getD (cpts.share ncpu)).xcpu
  total : ∀ x ∈ buf.xcpu, x.total = x.user + x.nice + x.sys + x.idle + x.irq

section

variable (kernel : CpuKernel) {cpts : CpTimes} {ci : Clockinfo} (serverNcpu : Nat)

theorem initCpu_ne_zero : initCpu serverNcpu ≠ 0 := by
  unfold initCpu
  split <;> decide

/-- What `glibtop_get_cpu_s` reports of the processors, and what it does with the buffers. -/
theorem glibtopGetCpuS_eq (hcpts : kernel.cptime = some cpts) (hci : kernel.clockrate = some ci) :
    (glibtopGetCpuS serverNcpu (initCpu serverNcpu) kernel).1.xcpu =
        (List.range (serverNcpu + 1)).map (turnXcpu kernel) ∧
      (glibtopGetCpuS serverNcpu (initCpu serverNcpu) kernel).2 =
        (List.range (serverNcpu + 1)).flatMap (turnEvents kernel) ++ [.released serverNcpu] := by
  rw [glibtopGetCpuS, if_neg (initCpu_ne_zero serverNcpu), hcpts, hci]
  simp only [foldl_cpuTurn]
  exact ⟨trivial, rfl⟩

variable {kernel serverNcpu}

/-- A failed query leaves a buffer that is used behind its release. -/
theorem not_disciplined_of_failed {i : Nat} (hi : i < serverNcpu + 1)
    (h : kernel.cptime2 i = none) (last : List (BufferEvent Nat)) :
    ¬Disciplined ((List.range (serverNcpu + 1)).flatMap (turnEvents kernel) ++ last) := by
  intro hd
  obtain ⟨front, back, hsplit⟩ := List.append_of_mem (List.mem_range.mpr hi)
  have hturn : turnEvents kernel i = [.obtained i, .released i, .used i] := by
    rw [turnEvents, h]
  have hlive := hd.live
  rw [hsplit, List.flatMap_append, List.flatMap_cons, hturn] at hlive
  have horder : (front.flatMap (turnEvents kernel) ++ [.obtained i]) ++
      .released i :: ([] ++ .used i :: (back.flatMap (turnEvents kernel) ++ last)) =
        front.flatMap (turnEvents kernel) ++
          ([.obtained i, .released i, .used i] ++ back.flatMap (turnEvents kernel)) ++ last := by
    simp
  exact not_live i (horder ▸ hlive)

/-- A successful query leaves its buffer, which is not released unless it is the last one. -/
theorem eq_zero_of_disciplined (h : ∀ i < serverNcpu + 1, (kernel.cptime2 i).isSome)
    (hd : Disciplined ((List.range (serverNcpu + 1)).flatMap (turnEvents kernel) ++
      [.released serverNcpu])) : serverNcpu = 0 := by
  have hturn : ∀ i ∈ List.range (serverNcpu + 1),
      turnEvents kernel i = [.obtained i, .used i] := by
    intro i hi
    obtain ⟨times, ht⟩ := Option.isSome_iff_exists.mp (h i (List.mem_range.mp hi))
    rw [turnEvents, ht]
  rw [List.flatMap_congr hturn] at hd
  have hone := hd.once 0 (by simp)
  have hnone : ((List.range (serverNcpu + 1)).flatMap
      fun i ↦ [BufferEvent.obtained i, .used i]).count (.released 0) = 0 := by
    rw [List.count_eq_zero]
    simp
  rw [List.count_append, hnone, Nat.zero_add] at hone
  by_contra hn
  have hother : [BufferEvent.released serverNcpu].count (.released 0) = 0 := by
    rw [List.count_eq_zero]
    simp [eq_comm, hn]
  rw [hother] at hone
  exact Nat.zero_ne_one hone

theorem cpu_right_iff_of (kernel : CpuKernel) (hcpts : kernel.cptime = some cpts)
    (hci : kernel.clockrate = some ci) :
    (XcpuRight kernel cpts (serverNcpu + 1)
        (glibtopGetCpuS serverNcpu (initCpu serverNcpu) kernel).1 ∧
      Disciplined (glibtopGetCpuS serverNcpu (initCpu serverNcpu) kernel).2) ↔
      serverNcpu + 1 = 1 ∧ (kernel.cptime2 0).isSome := by
  obtain ⟨hxcpu, hevents⟩ := glibtopGetCpuS_eq kernel serverNcpu hcpts hci
  rw [hevents]
  constructor
  · rintro ⟨-, hd⟩
    have hall : ∀ i < serverNcpu + 1, (kernel.cptime2 i).isSome := by
      intro i hi
      rw [Option.isSome_iff_ne_none]
      exact fun hn ↦ not_disciplined_of_failed hi hn _ hd
    exact ⟨congrArg (· + 1) (eq_zero_of_disciplined hall hd), hall 0 (Nat.zero_lt_succ _)⟩
  · rintro ⟨hone, hsome⟩
    obtain rfl : serverNcpu = 0 := Nat.succ.inj hone
    obtain ⟨times, ht⟩ := Option.isSome_iff_exists.mp hsome
    refine ⟨⟨?_, ?_⟩, ?_⟩
    · rw [hxcpu]
      simp [turnXcpu, ht]
    · rw [hxcpu]
      intro x hx
      obtain ⟨i, -, rfl⟩ := List.mem_map.mp hx
      rfl
    · have hevents : (List.range (0 + 1)).flatMap (turnEvents kernel) ++ [.released 0] =
          [BufferEvent.obtained 0, .used 0, .released 0] := by
        simp [turnEvents, ht]
      rw [hevents]
      refine ⟨by simp, fun b hb ↦ ?_⟩
      obtain rfl : b = 0 := by simpa using hb
      decide

end

/-- The times and the buffers are right exactly with one processor whose query succeeds. -/
theorem cpu_right_iff (cpts : CpTimes) (ci : Clockinfo) (cptime2 : Nat → Option CpTimes)
    (stale : Nat → CpTimes) (serverNcpu : Nat) :
    (XcpuRight ⟨some cpts, some ci, cptime2, stale⟩ cpts (serverNcpu + 1)
        (glibtopGetCpuS serverNcpu (initCpu serverNcpu)
          ⟨some cpts, some ci, cptime2, stale⟩).1 ∧
      Disciplined (glibtopGetCpuS serverNcpu (initCpu serverNcpu)
        ⟨some cpts, some ci, cptime2, stale⟩).2) ↔
      serverNcpu + 1 = 1 ∧ (cptime2 0).isSome :=
  cpu_right_iff_of ⟨some cpts, some ci, cptime2, stale⟩ rfl rfl

/-- Times that are all the same. -/
def evenTimes (ticks : BitVec 64) : CpTimes := ⟨ticks, ticks, ticks, ticks, ticks⟩

/-- A kernel with two processors, of which the second has no times. -/
def offlineKernel : CpuKernel :=
  { cptime := some (evenTimes 10)
    clockrate := some ⟨100, 0⟩
    cptime2 := fun i ↦ if i = 0 then some (evenTimes 6) else none
    stale := fun _ ↦ evenTimes 77 }

/-- The second processor has the bytes of the released buffer in place of its share, the first
buffer is never released and the second one twice. -/
theorem cpu_offline :
    (glibtopGetCpuS 1 (initCpu 1) offlineKernel).1.xcpu.map Xcpu.user = [6, 77] ∧
      ((evenTimes 10).share 2).user = 5 ∧
      (glibtopGetCpuS 1 (initCpu 1) offlineKernel).2 =
        [.obtained 0, .used 0, .obtained 1, .released 1, .used 1, .released 1] ∧
      ¬Disciplined (glibtopGetCpuS 1 (initCpu 1) offlineKernel).2 :=
  ⟨by decide, by decide, by decide, fun h ↦ absurd (h.once 0 (by decide)) (by decide)⟩

end LibGTop.OpenBsd
