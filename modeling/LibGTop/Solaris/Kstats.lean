import LibGTop.Linux.Cpu

/-!
# The kernel statistics of Solaris

`glibtop_get_kstats` looks the kstats up again when their chain has changed, and the getters of
processors, memory and load read through what it stores (`sysdeps/solaris/open.c:40–129`, `cpu.c`,
`mem.c`, `loadavg.c`). A kstat that was looked up before the chain was last updated is gone. What
`sysconf` and `p_online` say of the processors may be ahead of the chain.
-/

namespace LibGTop.Solaris

open Linux (glibtopNcpu)

/-- The kstats that are looked up by name. -/
inductive KstatName
  | cpuStat (cpu : Nat)
  | systemMisc
  | systemPages
  | mempages
  | interface (name : List UInt8)
  deriving DecidableEq

/-- A kernel: what is in each of its chains, which it numbers as they change. The numbers of the
processors leave room in `cpu_stat_kstat`. -/
structure KstatKernel where
  has : Nat → KstatName → Bool
  cpu_lt : ∀ kid cpu, has kid (.cpuStat cpu) → cpu < 63

/-- What the kernel says of its processors while kstats are looked up: how many are configured
(`sysconf (_SC_NPROCESSORS_CONF)`), and which of them `p_online` knows. -/
structure Processors where
  conf : Nat
  conf_pos : 0 < conf
  known : Nat → Bool

/-- A kstat, and the chain that it was looked up in. -/
structure Kstat where
  name : KstatName
  kid : Nat
  deriving DecidableEq

namespace KstatKernel

/-- The numbers of the configured processors. -/
def cpus (K : KstatKernel) (kid : Nat) : List Nat :=
  (List.range' 0 64).filter fun cpu ↦ K.has kid (.cpuStat cpu)

/-- How many there are. -/
def nprocessors (K : KstatKernel) (kid : Nat) : Nat := (K.cpus kid).length

/-- `kstat_lookup`. -/
def lookup (K : KstatKernel) (kid : Nat) (name : KstatName) : Option Kstat :=
  if K.has kid name then some ⟨name, kid⟩ else none

end KstatKernel

/-- The processors are still those of the chain. -/
structure Processors.Of (now : Processors) (K : KstatKernel) (kid : Nat) : Prop where
  conf : now.conf = K.nprocessors kid
  known : ∀ p, now.known p = K.has kid (.cpuStat p)

/-- The passes of a lookup: what the kernel says of its processors at the first of them and, for the
others, how often the chain has changed when it is updated behind the one before, and what the
kernel says then. -/
structure KstatPasses where
  first : Processors
  later : List (Nat × Processors)

/-- The part of `glibtop_machine` that has to do with kstats, with the number of the chain that
`kc` has and the `ncpu` of the server. -/
structure KstatMachine where
  kid : Nat
  ncpu : Nat
  cpuStat : List (Option Kstat)
  system : Option Kstat
  syspages : Option Kstat
  bunyip : Option Kstat

/-- The loop of `glibtop_get_kstats` over the processors that it has no kstat of: whether it ended
without a lookup that failed, and the array; absent when it goes on behind the array. -/
def checkSlots (K : KstatKernel) (kid newNcpu : Nat) :
    Nat → Nat → List (Option Kstat) → Option (Bool × List (Option Kstat))
  | i, checked, [] => if i < glibtopNcpu ∨ checked = newNcpu then none else some (true, [])
  | i, checked, slot :: slots =>
    if i < glibtopNcpu ∨ checked = newNcpu then
      match slot with
      | some ksp => (checkSlots K kid newNcpu (i + 1) checked slots).map fun r ↦
          (r.1, some ksp :: r.2)
      | none =>
        match K.lookup kid (.cpuStat i) with
        | none => some (false, none :: slots)
        | some ksp => (checkSlots K kid newNcpu (i + 1) (checked + 1) slots).map fun r ↦
            (r.1, some ksp :: r.2)
    else some (true, slot :: slots)

/-- The loop of `glibtop_get_kstats` over the processors that `p_online` knows. -/
def findSlots (K : KstatKernel) (kid : Nat) (known : Nat → Bool) (newNcpu : Nat) :
    Nat → Nat → List (Option Kstat) → Option (List (Option Kstat))
  | p, found, [] => if p < glibtopNcpu ∧ found ≠ newNcpu then none else some []
  | p, found, slot :: slots =>
    if p < glibtopNcpu ∧ found ≠ newNcpu then
      if known p then
        (findSlots K kid known newNcpu (p + 1) (found + 1) slots).map
          (K.lookup kid (.cpuStat p) :: ·)
      else (findSlots K kid known newNcpu (p + 1) found slots).map (none :: ·)
    else some (slot :: slots)

/-- The loop of `glibtop_get_cpu_s`: the kstats that it reads. -/
def cpuReads (online : Nat → Bool) (ncpu : Nat) :
    Nat → Nat → List (Option Kstat) → Option (List Kstat)
  | cpu, found, [] => if cpu < glibtopNcpu ∧ found ≠ ncpu then none else some []
  | cpu, found, slot :: slots =>
    if cpu < glibtopNcpu ∧ found ≠ ncpu then
      match slot with
      | none => cpuReads online ncpu (cpu + 1) found slots
      | some ksp => (cpuReads online ncpu (cpu + 1) (found + 1) slots).map fun reads ↦
          if online cpu then ksp :: reads else reads
    else some []

namespace KstatMachine

variable (K : KstatKernel)

/-- The body of the `do` loop of `glibtop_get_kstats`, where `nproc_same` starts as the number of
processors, and so as true, also when that is another one than before. -/
def pass (now : Processors) (m : KstatMachine) : Option KstatMachine := do
  let newNcpu := now.conf
  let (same, slots) ←
    if newNcpu = m.ncpu then checkSlots K m.kid newNcpu 0 0 m.cpuStat else some (true, m.cpuStat)
  let ncpu := if same then m.ncpu else min newNcpu glibtopNcpu
  let slots ← if same then some slots else findSlots K m.kid now.known ncpu 0 0 slots
  return { m with
    ncpu := ncpu
    cpuStat := slots
    system := K.lookup m.kid .systemMisc
    syspages := K.lookup m.kid .systemPages
    bunyip := K.lookup m.kid .mempages }

/-- The other passes of the loop; none is behind one during which the chain has not changed. -/
def passes : List (Nat × Processors) → KstatMachine → Option KstatMachine
  | [], m => some m
  | (changes, now) :: later, m =>
    if changes = 0 then some m
    else ({ m with kid := m.kid + changes }.pass K now).bind (passes later)

/-- `glibtop_get_kstats`. -/
def getKstats (p : KstatPasses) (m : KstatMachine) : Option KstatMachine :=
  ({ m with ncpu := p.first.conf }.pass K p.first).bind (passes K p.later)

/-- What `glibtop_open_s` makes of a chain that it opens. -/
def openS (kid : Nat) (p : KstatPasses) : Option KstatMachine :=
  getKstats K p ⟨kid, 0, List.replicate 64 none, none, none, none⟩

/-- The `switch` of the getters on `kstat_chain_update`. -/
def update (changes : Nat) (p : KstatPasses) (m : KstatMachine) : Option KstatMachine :=
  if changes = 0 then some m else getKstats K p { m with kid := m.kid + changes }

end KstatMachine

/-- The calls that update the chain; each with how often it has changed when they do. The status of
the processors is what `p_online` says of them. -/
inductive KstatCall
  | cpu (changes : Nat) (passes : KstatPasses) (online : Nat → Bool)
  | mem (changes : Nat) (passes : KstatPasses)
  | loadavg (changes : Nat) (passes : KstatPasses)
  | netload (changes : List Nat) (interface : List UInt8)

/-- The loop of `solaris_stats` that updates the chain until it stays as it is. -/
def updateAll : List Nat → Nat → Nat
  | [], kid => kid
  | changes :: later, kid => if changes = 0 then kid else updateAll later (kid + changes)

/-- What a call reads, and the chain that is there then. -/
structure KstatReads where
  kid : Nat
  reads : List Kstat

namespace KstatMachine

variable (K : KstatKernel)

/-- A call: the machine behind it, and what it reads. -/
def call (m : KstatMachine) : KstatCall → Option (KstatMachine × List Kstat)
  | .cpu changes passes online => do
    let m ← m.update K changes passes
    let reads ← cpuReads online (min glibtopNcpu m.ncpu) 0 0 m.cpuStat
    return (m, reads)
  | .mem changes passes =>
    (m.update K changes passes).map fun m ↦ (m, m.syspages.toList ++ m.bunyip.toList)
  | .loadavg changes passes => (m.update K changes passes).map fun m ↦ (m, m.system.toList)
  | .netload changes interface =>
    let m := { m with kid := updateAll changes m.kid }
    some (m, (K.lookup m.kid (.interface interface)).toList)

/-- A run of calls. -/
def run : List KstatCall → KstatMachine → Option (List KstatReads)
  | [], _ => some []
  | c :: calls, m => do
    let (m, reads) ← m.call K c
    let rest ← run calls m
    return ⟨m.kid, reads⟩ :: rest

end KstatMachine

/-- The history of the chain as far as it matters: the chain that is there, the one that the kstats
of the processors were looked up in, and the one of the other kstats. -/
structure KstatHistory where
  kid : Nat
  cpus : Nat
  system : Nat

namespace KstatHistory

variable (K : KstatKernel)

/-- Another pass. It leaves the processors alone when their number has changed. -/
def pass (s : KstatHistory) (changes : Nat) : KstatHistory where
  kid := s.kid + changes
  cpus := if K.nprocessors (s.kid + changes) = K.nprocessors s.cpus then s.kid + changes else s.cpus
  system := s.kid + changes

/-- The passes of a loop. -/
def passes : List (Nat × Processors) → KstatHistory → KstatHistory
  | [], s => s
  | (changes, _) :: later, s => if changes = 0 then s else passes later (s.pass K changes)

/-- All kstats are of one chain. -/
def fresh (kid : Nat) (p : KstatPasses) : KstatHistory := passes K p.later ⟨kid, kid, kid⟩

/-- A getter updates the chain. -/
def update (changes : Nat) (p : KstatPasses) (s : KstatHistory) : KstatHistory :=
  if changes = 0 then s else fresh K (s.kid + changes) p

/-- A call: what is behind it, and what it reads. -/
def call (s : KstatHistory) : KstatCall → KstatHistory × List Kstat
  | .cpu changes passes online =>
    let s := s.update K changes passes
    (s, ((K.cpus s.cpus).filter online).map fun cpu ↦ ⟨.cpuStat cpu, s.cpus⟩)
  | .mem changes passes =>
    let s := s.update K changes passes
    (s, (K.lookup s.system .systemPages).toList ++ (K.lookup s.system .mempages).toList)
  | .loadavg changes passes =>
    let s := s.update K changes passes
    (s, (K.lookup s.system .systemMisc).toList)
  | .netload changes interface =>
    let s := { s with kid := updateAll changes s.kid }
    (s, (K.lookup s.kid (.interface interface)).toList)

/-- A run of calls. -/
def run : List KstatCall → KstatHistory → List KstatReads
  | [], _ => []
  | c :: calls, s => ⟨(s.call K c).1.kid, (s.call K c).2⟩ :: run calls (s.call K c).1

end KstatHistory

/-- At each of the other passes the processors are still those of its chain. -/
def LaterAgree (K : KstatKernel) : List (Nat × Processors) → Nat → Prop
  | [], _ => True
  | (changes, now) :: later, kid =>
    changes ≠ 0 → now.Of K (kid + changes) ∧ LaterAgree K later (kid + changes)

/-- At each pass they are. -/
def KstatPasses.Agree (p : KstatPasses) (K : KstatKernel) (kid : Nat) : Prop :=
  p.first.Of K kid ∧ LaterAgree K p.later kid

/-- Whenever a call that finds the chain `kid` looks kstats up, they are. -/
def KstatCall.Agrees (K : KstatKernel) (kid : Nat) : KstatCall → Prop
  | .cpu changes passes _ | .mem changes passes | .loadavg changes passes =>
    changes ≠ 0 → passes.Agree K (kid + changes)
  | .netload _ _ => True

/-- No processor comes or goes between an update of the chain and the lookups behind it. -/
def RunAgrees (K : KstatKernel) : List KstatCall → KstatHistory → Prop
  | [], _ => True
  | c :: calls, s => c.Agrees K s.kid ∧ RunAgrees K calls (s.call K c).1

/-- The processors among the `count` numbers from `p` on. -/
def KstatKernel.cpusFrom (K : KstatKernel) (kid p count : Nat) : List Nat :=
  (List.range' p count).filter fun cpu ↦ K.has kid (.cpuStat cpu)

/-- The pointer to a processor. -/
def cpuKstat (kid cpu : Nat) : Kstat := ⟨.cpuStat cpu, kid⟩

section

variable {K : KstatKernel} {kid p : Nat}

theorem not_has_last : K.has kid (.cpuStat 63) = false := by
  by_contra h
  exact absurd (K.cpu_lt kid 63 (Bool.not_eq_false _ ▸ h)) (Nat.lt_irrefl 63)

theorem lookup_of_has {name : KstatName} (h : K.has kid name = true) :
    K.lookup kid name = some ⟨name, kid⟩ := if_pos h

theorem lookup_of_not_has {name : KstatName} (h : K.has kid name = false) :
    K.lookup kid name = none := by
  rw [KstatKernel.lookup, h]
  rfl

theorem cpusFrom_of_has (h : K.has kid (.cpuStat p) = true) (count : Nat) :
    K.cpusFrom kid p (count + 1) = p :: K.cpusFrom kid (p + 1) count := by
  rw [KstatKernel.cpusFrom, List.range'_succ]
  exact List.filter_cons_of_pos h

theorem cpusFrom_of_not_has (h : K.has kid (.cpuStat p) = false) (count : Nat) :
    K.cpusFrom kid p (count + 1) = K.cpusFrom kid (p + 1) count := by
  rw [KstatKernel.cpusFrom, List.range'_succ]
  exact List.filter_cons_of_neg (by rw [h]; exact Bool.false_ne_true)

end

section

variable {K : KstatKernel} {kid : Nat}

/-- The first loop ends with a lookup that fails, at the last place if not before. -/
theorem checkSlots_eq (K : KstatKernel) (kid ncpu : Nat) (front : List (Option Kstat)) :
    ∀ i checked, i + front.length = 63 → ∃ front', front'.length = front.length ∧
      checkSlots K kid ncpu i checked (front ++ [none]) = some (false, front' ++ [none]) := by
  induction front with
  | nil =>
    intro i checked hi
    obtain rfl : i = 63 := hi
    refine ⟨[], rfl, ?_⟩
    rw [List.nil_append, checkSlots, if_pos (.inl (by decide)), lookup_of_not_has not_has_last]
  | cons slot front ih =>
    intro i checked hi
    rw [List.length_cons] at hi
    have hlt : i < glibtopNcpu ∨ checked = ncpu := .inl (by rw [glibtopNcpu]; omega)
    cases slot with
    | some ksp =>
      obtain ⟨front', hl, he⟩ := ih (i + 1) checked (by omega)
      refine ⟨some ksp :: front', congrArg (· + 1) hl, ?_⟩
      rw [List.cons_append, checkSlots, if_pos hlt, he]
      rfl
    | none =>
      cases hlook : K.lookup kid (.cpuStat i) with
      | none =>
        refine ⟨none :: front, rfl, ?_⟩
        rw [List.cons_append, checkSlots, if_pos hlt, hlook]
      | some ksp =>
        obtain ⟨front', hl, he⟩ := ih (i + 1) (checked + 1) (by omega)
        refine ⟨some ksp :: front', congrArg (· + 1) hl, ?_⟩
        rw [List.cons_append, checkSlots, if_pos hlt, hlook]
        simp only [he]
        rfl

/-- The loop over the array reads the kstats of these processors. -/
def ReadsCpus (K : KstatKernel) (kid p : Nat) (slots : List (Option Kstat)) : Prop :=
  ∀ online found, cpuReads online (found + (K.cpusFrom kid p slots.length).length) p found slots =
    some (((K.cpusFrom kid p slots.length).filter online).map (cpuKstat kid))

theorem readsCpus_of_nil {p : Nat} {slots : List (Option Kstat)}
    (h : K.cpusFrom kid p slots.length = []) : ReadsCpus K kid p slots := by
  intro online found
  rw [h, List.length_nil, Nat.add_zero]
  cases slots with
  | nil => exact if_neg fun hc ↦ hc.2 rfl
  | cons slot slots => exact if_neg fun hc ↦ hc.2 rfl

theorem ReadsCpus.cons_of_has {p : Nat} {slots : List (Option Kstat)} (hlt : p < glibtopNcpu)
    (hhas : K.has kid (.cpuStat p) = true) (hr : ReadsCpus K kid (p + 1) slots) :
    ReadsCpus K kid p (some (cpuKstat kid p) :: slots) := by
  intro online found
  have hr' := hr online (found + 1)
  rw [List.length_cons, cpusFrom_of_has hhas, List.length_cons, cpuReads, if_pos ⟨hlt, by omega⟩,
    ← Nat.add_assoc, Nat.add_right_comm, hr']
  by_cases ho : online p
  · rw [List.filter_cons_of_pos ho, List.map_cons]
    simp only [Option.map_some, ho, if_true]
  · rw [List.filter_cons_of_neg ho]
    rw [Option.map_some, if_neg ho]

theorem ReadsCpus.cons_of_not_has {p : Nat} {slots : List (Option Kstat)} (hlt : p < glibtopNcpu)
    (hhas : K.has kid (.cpuStat p) = false) (hr : ReadsCpus K kid (p + 1) slots) :
    ReadsCpus K kid p (none :: slots) := by
  intro online found
  have hr' := hr online found
  rw [List.length_cons, cpusFrom_of_not_has hhas, cpuReads]
  by_cases hend : K.cpusFrom kid (p + 1) slots.length = []
  · rw [hend, if_neg fun hc ↦ hc.2 (by simp)]
    rfl
  · have hpos := List.length_pos_iff.mpr hend
    rw [if_pos ⟨hlt, by omega⟩]
    exact hr'

/-- Where `p_online` knows the processors of the chain, the second loop fills in the kstats of them
all, and leaves what is behind them. -/
theorem findSlots_eq (K : KstatKernel) (kid : Nat) {known : Nat → Bool}
    (hk : ∀ p, known p = K.has kid (.cpuStat p)) (front : List (Option Kstat)) :
    ∀ p found, p + front.length = 63 → ∃ front', front'.length = front.length ∧
      findSlots K kid known (found + (K.cpusFrom kid p (front.length + 1)).length) p found
        (front ++ [none]) = some (front' ++ [none]) ∧
      ReadsCpus K kid p (front' ++ [none]) := by
  induction front with
  | nil =>
    intro p found hp
    obtain rfl : p = 63 := hp
    have hnil : K.cpusFrom kid 63 1 = [] := cpusFrom_of_not_has not_has_last 0
    refine ⟨[], rfl, ?_, readsCpus_of_nil hnil⟩
    rw [List.length_nil, hnil]
    exact if_neg fun hc ↦ hc.2 rfl
  | cons slot front ih =>
    intro p found hp
    rw [List.length_cons] at hp
    have hlt : p < glibtopNcpu := by rw [glibtopNcpu]; omega
    by_cases hnil : K.cpusFrom kid p (front.length + 1 + 1) = []
    · refine ⟨slot :: front, rfl, ?_, readsCpus_of_nil ?_⟩
      · rw [List.length_cons, hnil]
        exact if_neg fun hc ↦ hc.2 rfl
      · rw [List.length_append]
        exact hnil
    cases hhas : K.has kid (.cpuStat p) with
    | true =>
      obtain ⟨front', hl, hf, hr⟩ := ih (p + 1) (found + 1) (by omega)
      have hcpus := cpusFrom_of_has hhas (front.length + 1)
      have hne : p < glibtopNcpu ∧
          found ≠ found + (K.cpusFrom kid p (front.length + 1 + 1)).length :=
        ⟨hlt, by rw [hcpus, List.length_cons]; omega⟩
      refine ⟨some (cpuKstat kid p) :: front', congrArg (· + 1) hl, ?_, hr.cons_of_has hlt hhas⟩
      rw [List.length_cons, List.cons_append, findSlots, if_pos hne, if_pos ((hk p).trans hhas),
        hcpus, List.length_cons, ← Nat.add_assoc, Nat.add_right_comm, hf, lookup_of_has hhas]
      rfl
    | false =>
      obtain ⟨front', hl, hf, hr⟩ := ih (p + 1) found (by omega)
      have hcpus := cpusFrom_of_not_has hhas (front.length + 1)
      have hne : p < glibtopNcpu ∧
          found ≠ found + (K.cpusFrom kid p (front.length + 1 + 1)).length :=
        ⟨hlt, by have := List.length_pos_iff.mpr hnil; omega⟩
      refine ⟨none :: front', congrArg (· + 1) hl, ?_, hr.cons_of_not_has hlt hhas⟩
      rw [List.length_cons, List.cons_append, findSlots, if_pos hne, (hk p).trans hhas,
        if_neg nofun, hcpus, hf]
      rfl

/-- The second loop keeps to the array exactly when `p_online` knows as many processors of those
that have a place in it as are to be found. -/
theorem findSlots_isSome_iff (K : KstatKernel) (kid : Nat) (known : Nat → Bool) (ncpu : Nat)
    (slots : List (Option Kstat)) :
    ∀ p found, p + slots.length = 64 → found ≤ ncpu →
      ((findSlots K kid known ncpu p found slots).isSome ↔
        ncpu ≤ found + ((List.range' p slots.length).filter known).length) := by
  induction slots with
  | nil =>
    intro p found hp hle
    have hlt : p < glibtopNcpu := by rw [glibtopNcpu]; rw [List.length_nil] at hp; omega
    rw [findSlots]
    by_cases hfound : found = ncpu
    · rw [if_neg fun hc ↦ hc.2 hfound]
      exact iff_of_true rfl (Nat.le_of_eq hfound.symm)
    · rw [if_pos ⟨hlt, hfound⟩]
      refine iff_of_false nofun ?_
      simp only [List.length_nil, List.range'_zero, List.filter_nil]
      omega
  | cons slot slots ih =>
    intro p found hp hle
    rw [List.length_cons] at hp
    have hlt : p < glibtopNcpu := by rw [glibtopNcpu]; omega
    rw [findSlots, List.length_cons, List.range'_succ]
    by_cases hfound : found = ncpu
    · rw [if_neg fun hc ↦ hc.2 hfound]
      exact iff_of_true rfl (by omega)
    rw [if_pos ⟨hlt, hfound⟩]
    by_cases hknown : known p
    · rw [if_pos hknown, Option.isSome_map, ih (p + 1) (found + 1) (by omega) (by omega),
        List.filter_cons_of_pos hknown, List.length_cons, Nat.add_right_comm, Nat.add_assoc]
    · rw [if_neg hknown, Option.isSome_map, ih (p + 1) found (by omega) hle,
        List.filter_cons_of_neg hknown]

end

/-- The array has a last place that is free. -/
def LastFree (slots : List (Option Kstat)) : Prop :=
  ∃ front : List (Option Kstat), front.length = 63 ∧ slots = front ++ [none]

/-- What the machine has stored is what the history says. -/
structure Follows (K : KstatKernel) (m : KstatMachine) (s : KstatHistory) : Prop where
  kid : m.kid = s.kid
  ncpu : m.ncpu = K.nprocessors s.cpus
  lastFree : LastFree m.cpuStat
  readsCpus : ReadsCpus K s.cpus 0 m.cpuStat
  system : m.system = K.lookup s.system .systemMisc
  syspages : m.syspages = K.lookup s.system .systemPages
  bunyip : m.bunyip = K.lookup s.system .mempages

section

variable {K : KstatKernel} {m : KstatMachine} {s : KstatHistory}

theorem nprocessors_le (K : KstatKernel) (kid : Nat) : K.nprocessors kid ≤ glibtopNcpu := by
  have hl := List.length_filter_le (fun cpu ↦ K.has kid (.cpuStat cpu)) (List.range' 0 64)
  rw [List.length_range'] at hl
  exact Nat.le_trans hl (by decide)

/-- A pass with the number of processors of before looks all kstats up. -/
theorem pass_same {now : Processors} (hof : now.Of K m.kid) (hs : LastFree m.cpuStat)
    (hn : now.conf = m.ncpu) :
    ∃ m', m.pass K now = some m' ∧ Follows K m' ⟨m.kid, m.kid, m.kid⟩ := by
  obtain ⟨front, hl, hslots⟩ := hs
  obtain ⟨checked, hc, hcheck⟩ := checkSlots_eq K m.kid now.conf front 0 0 (by omega)
  obtain ⟨front', hl', hfind, hreads⟩ := findSlots_eq K m.kid hof.known checked 0 0 (by omega)
  have hcount : 0 + (K.cpusFrom m.kid 0 (checked.length + 1)).length = now.conf := by
    rw [Nat.zero_add, hc, hl, hof.conf]
    rfl
  rw [hcount] at hfind
  have hpass : m.pass K now = some ⟨m.kid, now.conf, front' ++ [none],
      K.lookup m.kid .systemMisc, K.lookup m.kid .systemPages, K.lookup m.kid .mempages⟩ := by
    have hmin : min m.ncpu glibtopNcpu = m.ncpu :=
      Nat.min_eq_left (hn ▸ hof.conf ▸ nprocessors_le K m.kid)
    rw [KstatMachine.pass]
    simp only [hn, hslots, if_true] at hcheck hfind ⊢
    simp [hcheck, hmin, hfind]
  exact ⟨_, hpass, rfl, hof.conf, ⟨front', by omega, rfl⟩, hreads, rfl, rfl, rfl⟩

/-- Another pass, which leaves the processors alone when their number has changed. -/
theorem Follows.pass (h : Follows K m s) {changes : Nat} {now : Processors}
    (hof : now.Of K (s.kid + changes)) :
    ∃ m', { m with kid := m.kid + changes }.pass K now = some m' ∧
      Follows K m' (s.pass K changes) := by
  rw [← h.kid] at hof
  by_cases hn : now.conf = m.ncpu
  · obtain ⟨m', hm, hf⟩ :=
      pass_same (m := { m with kid := m.kid + changes }) hof h.lastFree hn
    refine ⟨m', hm, ?_⟩
    rw [KstatHistory.pass, ← h.kid, if_pos (hof.conf.symm.trans (hn.trans h.ncpu))]
    exact hf
  · refine ⟨{ m with
      kid := m.kid + changes
      system := K.lookup (m.kid + changes) .systemMisc
      syspages := K.lookup (m.kid + changes) .systemPages
      bunyip := K.lookup (m.kid + changes) .mempages }, ?_, ?_⟩
    · rw [KstatMachine.pass]
      simp only [hn, if_false]
      rfl
    · rw [KstatHistory.pass, ← h.kid, if_neg (h.ncpu ▸ hof.conf ▸ hn)]
      exact ⟨rfl, h.ncpu, h.lastFree, h.readsCpus, rfl, rfl, rfl⟩

theorem Follows.passes (later : List (Nat × Processors)) :
    ∀ {m s}, Follows K m s → LaterAgree K later s.kid → ∃ m', m.passes K later = some m' ∧
      Follows K m' (s.passes K later) := by
  induction later with
  | nil => exact fun h _ ↦ ⟨_, rfl, h⟩
  | cons pass later ih =>
    obtain ⟨changes, now⟩ := pass
    intro m s h hagree
    rw [KstatMachine.passes, KstatHistory.passes]
    by_cases hz : changes = 0
    · rw [if_pos hz, if_pos hz]
      exact ⟨m, rfl, h⟩
    · rw [if_neg hz, if_neg hz]
      obtain ⟨hof, hlater⟩ := hagree hz
      obtain ⟨m', hm, hf⟩ := h.pass hof
      obtain ⟨m'', hm', hf'⟩ := ih hf hlater
      exact ⟨m'', by rw [hm]; exact hm', hf'⟩

/-- `glibtop_get_kstats` starts anew, whatever is stored. -/
theorem getKstats_follows (hs : LastFree m.cpuStat) {p : KstatPasses} (hp : p.Agree K m.kid) :
    ∃ m', m.getKstats K p = some m' ∧ Follows K m' (.fresh K m.kid p) := by
  obtain ⟨m', hm, hf⟩ := pass_same (m := { m with ncpu := p.first.conf }) hp.1 hs rfl
  obtain ⟨m'', hm', hf'⟩ := hf.passes p.later hp.2
  exact ⟨m'', by rw [KstatMachine.getKstats, hm]; exact hm', hf'⟩

theorem openS_follows {kid : Nat} {p : KstatPasses} (hp : p.Agree K kid) :
    ∃ m, KstatMachine.openS K kid p = some m ∧ Follows K m (.fresh K kid p) :=
  getKstats_follows (m := ⟨kid, 0, List.replicate 64 none, none, none, none⟩)
    ⟨List.replicate 63 none, rfl, rfl⟩ hp

theorem Follows.update (h : Follows K m s) {changes : Nat} {p : KstatPasses}
    (hp : changes ≠ 0 → p.Agree K (s.kid + changes)) :
    ∃ m', m.update K changes p = some m' ∧ Follows K m' (s.update K changes p) := by
  rw [KstatMachine.update, KstatHistory.update]
  by_cases hz : changes = 0
  · rw [if_pos hz, if_pos hz]
    exact ⟨m, rfl, h⟩
  · have hp := hp hz
    rw [← h.kid] at hp
    rw [if_neg hz, if_neg hz, ← h.kid]
    exact getKstats_follows (m := { m with kid := m.kid + changes }) h.lastFree hp

/-- The loop of `glibtop_get_cpu_s` reads the processors that are online. -/
theorem Follows.cpuReads (h : Follows K m s) (online : Nat → Bool) :
    cpuReads online (min glibtopNcpu m.ncpu) 0 0 m.cpuStat =
      some (((K.cpus s.cpus).filter online).map fun cpu ↦ ⟨.cpuStat cpu, s.cpus⟩) := by
  obtain ⟨front, hl, hslots⟩ := h.lastFree
  have hlen : m.cpuStat.length = 64 := by rw [hslots, List.length_append, hl]; rfl
  have hr := h.readsCpus online 0
  rw [hlen, Nat.zero_add] at hr
  rw [h.ncpu, Nat.min_eq_right (nprocessors_le K s.cpus)]
  exact hr

/-- A call. -/
theorem Follows.call (h : Follows K m s) {c : KstatCall} (hc : c.Agrees K s.kid) :
    ∃ m', m.call K c = some (m', (s.call K c).2) ∧ Follows K m' (s.call K c).1 := by
  cases c with
  | cpu changes passes online =>
    obtain ⟨m', hm, hf⟩ := h.update hc
    refine ⟨m', ?_, hf⟩
    rw [KstatMachine.call, hm]
    simp only [Option.bind_eq_bind, Option.bind_some, hf.cpuReads online]
    rfl
  | mem changes passes =>
    obtain ⟨m', hm, hf⟩ := h.update hc
    refine ⟨m', ?_, hf⟩
    rw [KstatMachine.call, hm, Option.map_some, hf.syspages, hf.bunyip]
    rfl
  | loadavg changes passes =>
    obtain ⟨m', hm, hf⟩ := h.update hc
    refine ⟨m', ?_, hf⟩
    rw [KstatMachine.call, hm, Option.map_some, hf.system]
    rfl
  | netload changes interface =>
    refine ⟨{ m with kid := updateAll changes m.kid }, ?_, ?_⟩
    · rw [KstatMachine.call, KstatHistory.call, h.kid]
    · rw [KstatHistory.call, h.kid]
      exact ⟨rfl, h.ncpu, h.lastFree, h.readsCpus, h.system, h.syspages, h.bunyip⟩

theorem Follows.run (calls : List KstatCall) :
    ∀ {m s}, Follows K m s → RunAgrees K calls s → m.run K calls = some (s.run K calls) := by
  induction calls with
  | nil => exact fun _ _ ↦ rfl
  | cons c calls ih =>
    intro m s h hagree
    obtain ⟨m', hm, hf⟩ := h.call hagree.1
    rw [KstatMachine.run, hm]
    simp only [Option.bind_eq_bind, Option.bind_some, ih hf hagree.2, hf.kid]
    rfl

theorem run_of_agree {kid : Nat} {start : KstatPasses} {calls : List KstatCall}
    (hstart : start.Agree K kid) (hcalls : RunAgrees K calls (.fresh K kid start)) :
    ((KstatMachine.openS K kid start).bind fun m ↦ m.run K calls) =
      some ((KstatHistory.fresh K kid start).run K calls) := by
  obtain ⟨m, hm, hf⟩ := openS_follows hstart
  rw [hm]
  exact hf.run calls hcalls

end

/-- What a kernel has that gets a processor 3 when its chain changes. -/
def hotplugHas (kid : Nat) : KstatName → Bool
  | .cpuStat cpu => cpu == 0 || (cpu == 3 && kid != 0)
  | _ => true

theorem hotplugHas_lt (kid cpu : Nat) (h : hotplugHas kid (.cpuStat cpu)) : cpu < 63 := by
  simp only [hotplugHas, Bool.or_eq_true, Bool.and_eq_true, beq_iff_eq] at h
  omega

def hotplugKernel : KstatKernel := ⟨hotplugHas, hotplugHas_lt⟩

/-- Its processors, when there are as many. -/
def hotplugged (kid n : Nat) : Processors where
  conf := n + 1
  conf_pos := Nat.succ_pos n
  known p := hotplugHas kid (.cpuStat p)

/-- A change of the chain that only `glibtop_get_netload_s` takes in, and another one. -/
def hotplugCalls : List KstatCall :=
  [.netload [1] [108, 111], .mem 0 ⟨hotplugged 1 1, []⟩,
    .cpu 1 ⟨hotplugged 2 1, []⟩ fun _ ↦ true]

theorem hotplugged_start : (⟨hotplugged 0 0, []⟩ : KstatPasses).Agree hotplugKernel 0 :=
  ⟨⟨rfl, fun _ ↦ rfl⟩, trivial⟩

theorem hotplugCalls_agree :
    RunAgrees hotplugKernel hotplugCalls (.fresh hotplugKernel 0 ⟨hotplugged 0 0, []⟩) :=
  ⟨trivial, fun h ↦ absurd rfl h, fun _ ↦ ⟨⟨rfl, fun _ ↦ rfl⟩, trivial⟩, trivial⟩

/-- What they read. -/
def hotplugReads : List KstatReads :=
  [⟨1, [⟨.interface [108, 111], 1⟩]⟩, ⟨1, [⟨.systemPages, 0⟩, ⟨.mempages, 0⟩]⟩,
    ⟨2, [⟨.cpuStat 0, 2⟩, ⟨.cpuStat 3, 2⟩]⟩]

/-- How many changes of the chain the loop of `solaris_stats` takes in. -/
def takenIn : List Nat → Nat
  | [] => 0
  | changes :: later => if changes = 0 then 0 else changes + takenIn later

theorem updateAll_eq (changes : List Nat) :
    ∀ kid, updateAll changes kid = kid + takenIn changes := by
  induction changes with
  | nil => exact fun kid ↦ rfl
  | cons c changes ih =>
    intro kid
    rw [updateAll, takenIn]
    by_cases hz : c = 0
    · rw [if_pos hz, if_pos hz]
      rfl
    · rw [if_neg hz, if_neg hz, ih, Nat.add_assoc]

/-- The passes that a call needs behind the first. -/
def KstatCall.later : KstatCall → List (Nat × Processors)
  | cpu _ passes _ | mem _ passes | loadavg _ passes => passes.later
  | netload _ _ => []

/-- How many changes of the chain what a call reads is behind, when the kstats of the server are `n`
behind. What `glibtop_get_netload_s` reads it has just looked up. -/
def KstatCall.lag (n : Nat) : KstatCall → Nat
  | cpu changes _ _ | mem changes _ | loadavg changes _ => if changes = 0 then n else 0
  | netload _ _ => 0

/-- How many the kstats of the server are behind then. -/
def KstatCall.leaves (n : Nat) : KstatCall → Nat
  | cpu changes _ _ | mem changes _ | loadavg changes _ => if changes = 0 then n else 0
  | netload changes _ => n + takenIn changes

/-- For each call of a run, how many changes of the chain `glibtop_get_netload_s` has taken in since
a getter last found one. -/
def lags : Nat → List KstatCall → List Nat
  | _, [] => []
  | n, c :: calls => c.lag n :: lags (c.leaves n) calls

/-- What is read was looked up as many changes before, or more when it is of a processor and not
all are exact. -/
def Behind (exact : Prop) (n : Nat) (t : KstatReads) : Prop :=
  ∀ k ∈ t.reads, k.kid + n ≤ t.kid ∧
    ((∀ cpu, k.name ≠ .cpuStat cpu) ∨ exact → k.kid + n = t.kid)

/-- What is in an array is in the old one or was looked up now. -/
def Refilled (kid : Nat) (old new : List (Option Kstat)) : Prop :=
  ∀ k, some k ∈ new → some k ∈ old ∨ ∃ cpu, k = cpuKstat kid cpu

/-- What is in the array is of processors, and of a chain up to this one. -/
def SlotsUpTo (kid : Nat) (slots : List (Option Kstat)) : Prop :=
  ∀ k, some k ∈ slots → (∃ cpu, k.name = .cpuStat cpu) ∧ k.kid ≤ kid

/-- The kstats of a machine, whether or not the processors are still those of the chain: they were
last looked up `n` changes ago. -/
structure Held (K : KstatKernel) (n : Nat) (m : KstatMachine) (sys : Nat) : Prop where
  behind : sys + n = m.kid
  slots : SlotsUpTo sys m.cpuStat
  system : m.system = K.lookup sys .systemMisc
  syspages : m.syspages = K.lookup sys .systemPages
  bunyip : m.bunyip = K.lookup sys .mempages

section

variable {K : KstatKernel} {kid : Nat} {old new : List (Option Kstat)}

theorem eq_of_lookup {name : KstatName} {k : Kstat} (h : K.lookup kid name = some k) :
    k = ⟨name, kid⟩ := by
  rw [KstatKernel.lookup] at h
  by_cases hh : K.has kid name
  · rw [if_pos hh] at h
    exact (Option.some.inj h).symm
  · rw [if_neg hh] at h
    exact nomatch h

theorem mem_of_mem_lookup {name : KstatName} {k : Kstat} (h : k ∈ (K.lookup kid name).toList) :
    k = ⟨name, kid⟩ :=
  eq_of_lookup (Option.mem_toList.mp h)

theorem Refilled.refl (kid : Nat) (slots : List (Option Kstat)) : Refilled kid slots slots :=
  fun _ ↦ .inl

theorem Refilled.cons (h : Refilled kid old new) {slot slot' : Option Kstat}
    (hs : ∀ k, slot' = some k → slot = some k ∨ ∃ cpu, k = cpuKstat kid cpu) :
    Refilled kid (slot :: old) (slot' :: new) := by
  intro k hk
  obtain hk | hk := List.mem_cons.mp hk
  · exact (hs k hk.symm).imp_left fun he ↦ List.mem_cons.mpr (.inl he.symm)
  · exact (h k hk).imp_left (List.mem_cons_of_mem _)

theorem Refilled.trans {mid : List (Option Kstat)} (h : Refilled kid old mid)
    (h' : Refilled kid mid new) : Refilled kid old new :=
  fun k hk ↦ (h' k hk).elim (h k) .inr

theorem checkSlots_refilled (K : KstatKernel) (kid ncpu : Nat) (slots : List (Option Kstat)) :
    ∀ {i checked r}, checkSlots K kid ncpu i checked slots = some r → Refilled kid slots r.2 := by
  induction slots with
  | nil =>
    intro i checked r h
    rw [checkSlots] at h
    split at h
    · exact nomatch h
    · obtain rfl := Option.some.inj h
      exact .refl kid []
  | cons slot slots ih =>
    intro i checked r h
    by_cases hc : i < glibtopNcpu ∨ checked = ncpu
    · cases slot with
      | some ksp =>
        rw [checkSlots, if_pos hc] at h
        obtain ⟨r', hr, rfl⟩ := Option.map_eq_some_iff.mp h
        exact (ih hr).cons fun k ↦ .inl
      | none =>
        rw [checkSlots, if_pos hc] at h
        cases hlook : K.lookup kid (.cpuStat i) with
        | none =>
          simp only [hlook] at h
          obtain rfl := Option.some.inj h
          exact .refl kid _
        | some ksp =>
          simp only [hlook] at h
          obtain ⟨r', hr, rfl⟩ := Option.map_eq_some_iff.mp h
          refine (ih hr).cons fun k hk ↦ .inr ⟨i, ?_⟩
          exact Option.some.inj hk ▸ eq_of_lookup hlook
    · have hend : checkSlots K kid ncpu i checked (slot :: slots) = some (true, slot :: slots) := by
        cases slot <;> exact if_neg hc
      obtain rfl := Option.some.inj (hend.symm.trans h)
      exact .refl kid _

theorem findSlots_refilled (K : KstatKernel) (kid : Nat) (known : Nat → Bool) (ncpu : Nat)
    (slots : List (Option Kstat)) :
    ∀ {p found slots'}, findSlots K kid known ncpu p found slots = some slots' →
      Refilled kid slots slots' := by
  induction slots with
  | nil =>
    intro p found slots' h
    rw [findSlots] at h
    split at h
    · exact nomatch h
    · obtain rfl := Option.some.inj h
      exact .refl kid []
  | cons slot slots ih =>
    intro p found slots' h
    by_cases hc : p < glibtopNcpu ∧ found ≠ ncpu
    · rw [findSlots, if_pos hc] at h
      by_cases hknown : known p
      · rw [if_pos hknown] at h
        obtain ⟨rest, hr, rfl⟩ := Option.map_eq_some_iff.mp h
        exact (ih hr).cons fun k hk ↦ .inr ⟨p, eq_of_lookup hk⟩
      · rw [if_neg hknown] at h
        obtain ⟨rest, hr, rfl⟩ := Option.map_eq_some_iff.mp h
        exact (ih hr).cons nofun
    · rw [findSlots, if_neg hc] at h
      obtain rfl := Option.some.inj h
      exact .refl kid _

/-- The loop of `glibtop_get_cpu_s` reads what is in the array. -/
theorem mem_of_cpuReads (online : Nat → Bool) (ncpu : Nat) (slots : List (Option Kstat)) :
    ∀ {cpu found reads}, cpuReads online ncpu cpu found slots = some reads →
      ∀ k ∈ reads, some k ∈ slots := by
  induction slots with
  | nil =>
    intro cpu found reads h k hk
    rw [cpuReads] at h
    split at h
    · exact nomatch h
    · obtain rfl := Option.some.inj h
      exact nomatch hk
  | cons slot slots ih =>
    intro cpu found reads h k hk
    by_cases hc : cpu < glibtopNcpu ∧ found ≠ ncpu
    · cases slot with
      | none =>
        rw [cpuReads, if_pos hc] at h
        exact List.mem_cons_of_mem _ (ih h k hk)
      | some ksp =>
        rw [cpuReads, if_pos hc] at h
        obtain ⟨rest, hr, rfl⟩ := Option.map_eq_some_iff.mp h
        split at hk
        · obtain rfl | hk := List.mem_cons.mp hk
          · exact List.mem_cons_self
          · exact List.mem_cons_of_mem _ (ih hr k hk)
        · exact List.mem_cons_of_mem _ (ih hr k hk)
    · have hend : cpuReads online ncpu cpu found (slot :: slots) = some [] := by
        cases slot <;> exact if_neg hc
      obtain rfl := Option.some.inj (hend.symm.trans h)
      exact nomatch hk

theorem SlotsUpTo.refilled {kid' : Nat} (h : SlotsUpTo kid' old) (hle : kid' ≤ kid)
    (hr : Refilled kid old new) : SlotsUpTo kid new := by
  intro k hk
  obtain hk | ⟨cpu, rfl⟩ := hr k hk
  · exact (h k hk).imp_right fun hk ↦ Nat.le_trans hk hle
  · exact ⟨⟨cpu, rfl⟩, Nat.le_refl _⟩

end

section

variable {K : KstatKernel} {m m' : KstatMachine} {n : Nat} {sys : Nat}

/-- A pass looks the other kstats up, and fills in the array or leaves it. -/
theorem pass_held (hs : SlotsUpTo sys m.cpuStat) (hle : sys ≤ m.kid) {now : Processors}
    (h : m.pass K now = some m') : Held K 0 m' m'.kid := by
  have held : ∀ {slots ncpu}, Refilled m.kid m.cpuStat slots →
      Held K 0 ⟨m.kid, ncpu, slots, K.lookup m.kid .systemMisc, K.lookup m.kid .systemPages,
        K.lookup m.kid .mempages⟩ m.kid :=
    fun hr ↦ ⟨rfl, hs.refilled hle hr, rfl, rfl, rfl⟩
  rw [KstatMachine.pass] at h
  simp only [Option.bind_eq_bind, Option.pure_def] at h
  by_cases hn : now.conf = m.ncpu
  · rw [if_pos hn] at h
    obtain ⟨⟨same, slots⟩, hcheck, h⟩ := Option.bind_eq_some_iff.mp h
    have hslots := checkSlots_refilled K m.kid _ _ hcheck
    cases same with
    | true =>
      obtain rfl := Option.some.inj h
      exact held hslots
    | false =>
      obtain ⟨found, hfind, h⟩ := Option.bind_eq_some_iff.mp h
      obtain rfl := Option.some.inj h
      exact held (hslots.trans (findSlots_refilled K m.kid _ _ _ hfind))
  · rw [if_neg hn] at h
    obtain rfl := Option.some.inj h
    exact held (.refl m.kid _)

theorem Held.passes (later : List (Nat × Processors)) :
    ∀ {m}, Held K 0 m m.kid → m.passes K later = some m' → Held K 0 m' m'.kid := by
  induction later with
  | nil =>
    rintro m h ⟨⟩
    exact h
  | cons pass later ih =>
    obtain ⟨changes, now⟩ := pass
    intro m h hm
    rw [KstatMachine.passes] at hm
    by_cases hz : changes = 0
    · rw [if_pos hz] at hm
      exact Option.some.inj hm ▸ h
    · rw [if_neg hz] at hm
      obtain ⟨mid, hpass, hm⟩ := Option.bind_eq_some_iff.mp hm
      exact ih (pass_held (m := { m with kid := m.kid + changes }) h.slots
        (Nat.le_add_right _ _) hpass) hm

theorem getKstats_held (hs : SlotsUpTo sys m.cpuStat) (hle : sys ≤ m.kid) {p : KstatPasses}
    (h : m.getKstats K p = some m') : Held K 0 m' m'.kid := by
  obtain ⟨mid, hpass, hm⟩ := Option.bind_eq_some_iff.mp h
  exact (pass_held (m := { m with ncpu := p.first.conf }) hs hle hpass).passes p.later hm

theorem openS_held {kid : Nat} {p : KstatPasses} (h : KstatMachine.openS K kid p = some m) :
    Held K 0 m m.kid :=
  getKstats_held (m := ⟨kid, 0, List.replicate 64 none, none, none, none⟩)
    (fun _ hk ↦ nomatch List.eq_of_mem_replicate hk) (Nat.le_refl kid) h

theorem Held.update (h : Held K n m sys) {changes : Nat} {p : KstatPasses}
    (hm : m.update K changes p = some m') :
    ∃ sys, Held K (if changes = 0 then n else 0) m' sys := by
  rw [KstatMachine.update] at hm
  by_cases hz : changes = 0
  · rw [if_pos hz] at hm ⊢
    exact ⟨sys, Option.some.inj hm ▸ h⟩
  · rw [if_neg hz] at hm ⊢
    have hle : sys ≤ m.kid + changes := by have := h.behind; omega
    exact ⟨m'.kid, getKstats_held (m := { m with kid := m.kid + changes }) h.slots hle hm⟩

/-- What is read of another kstat than that of a processor is exactly as far behind. -/
theorem Held.of_lookup (h : Held K n m sys) {name : KstatName} {k : Kstat}
    (hk : k ∈ (K.lookup sys name).toList) :
    k.kid + n ≤ m.kid ∧ ((∀ cpu, k.name ≠ .cpuStat cpu) ∨ False → k.kid + n = m.kid) := by
  obtain rfl := mem_of_mem_lookup hk
  exact ⟨Nat.le_of_eq h.behind, fun _ ↦ h.behind⟩

theorem Held.of_slot (h : Held K n m sys) {k : Kstat} (hk : some k ∈ m.cpuStat) :
    k.kid + n ≤ m.kid ∧ ((∀ cpu, k.name ≠ .cpuStat cpu) ∨ False → k.kid + n = m.kid) := by
  obtain ⟨⟨cpu, hname⟩, hle⟩ := h.slots k hk
  refine ⟨h.behind ▸ Nat.add_le_add_right hle n, ?_⟩
  rintro (hne | hf)
  · exact absurd hname (hne cpu)
  · exact hf.elim

/-- A call reads what the machine holds. -/
theorem Held.call (h : Held K n m sys) {c : KstatCall} {reads : List Kstat}
    (hc : m.call K c = some (m', reads)) :
    Behind False (c.lag n) ⟨m'.kid, reads⟩ ∧ ∃ sys, Held K (c.leaves n) m' sys := by
  cases c with
  | cpu changes passes online =>
    simp only [KstatMachine.call, Option.bind_eq_bind, Option.bind_eq_some_iff,
      Option.pure_def, Option.some.injEq] at hc
    obtain ⟨mid, hm, reads', hr, he⟩ := hc
    obtain ⟨rfl, rfl⟩ := Prod.mk.inj he
    obtain ⟨sys', hs⟩ := h.update hm
    exact ⟨fun k hk ↦ hs.of_slot (mem_of_cpuReads online _ _ hr k hk), sys', hs⟩
  | mem changes passes =>
    obtain ⟨mid, hm, he⟩ := Option.map_eq_some_iff.mp hc
    obtain ⟨rfl, rfl⟩ := Prod.mk.inj he
    obtain ⟨sys', hs⟩ := h.update hm
    refine ⟨fun k hk ↦ ?_, sys', hs⟩
    obtain hk | hk := List.mem_append.mp hk
    · exact hs.of_lookup (hs.syspages ▸ hk)
    · exact hs.of_lookup (hs.bunyip ▸ hk)
  | loadavg changes passes =>
    obtain ⟨mid, hm, he⟩ := Option.map_eq_some_iff.mp hc
    obtain ⟨rfl, rfl⟩ := Prod.mk.inj he
    obtain ⟨sys', hs⟩ := h.update hm
    exact ⟨fun k hk ↦ hs.of_lookup (hs.system ▸ hk), sys', hs⟩
  | netload changes interface =>
    obtain ⟨rfl, rfl⟩ := Prod.mk.inj (Option.some.inj hc)
    refine ⟨fun k hk ↦ ?_, sys, ?_, h.slots, h.system, h.syspages, h.bunyip⟩
    · obtain rfl := mem_of_mem_lookup hk
      exact ⟨Nat.le_refl _, fun _ ↦ rfl⟩
    · rw [KstatCall.leaves, ← Nat.add_assoc, h.behind, updateAll_eq]

theorem Held.run (calls : List KstatCall) :
    ∀ {n m sys trace}, Held K n m sys → m.run K calls = some trace →
      List.Forall₂ (Behind False) (lags n calls) trace := by
  induction calls with
  | nil =>
    rintro n m sys trace - ⟨⟩
    exact .nil
  | cons c calls ih =>
    intro n m sys trace h hrun
    simp only [KstatMachine.run, Option.bind_eq_bind, Option.bind_eq_some_iff, Option.pure_def,
      Option.some.injEq] at hrun
    obtain ⟨⟨m', reads⟩, hc, rest, hrest, rfl⟩ := hrun
    obtain ⟨hread, sys', hs⟩ := h.call hc
    exact .cons hread (ih hs hrest)

end

/-- The kstats of a history in which all are of one chain. -/
structure Lag (n : Nat) (s : KstatHistory) : Prop where
  system : s.system + n = s.kid
  cpus : s.cpus = s.system

section

variable {K : KstatKernel} {s : KstatHistory} {n : Nat}

theorem Lag.fresh {p : KstatPasses} (hp : p.later = []) (kid : Nat) :
    Lag 0 (KstatHistory.fresh K kid p) := by
  rw [KstatHistory.fresh, hp]
  exact ⟨rfl, rfl⟩

theorem Lag.update (h : Lag n s) (changes : Nat) {p : KstatPasses} (hp : p.later = []) :
    Lag (if changes = 0 then n else 0) (s.update K changes p) := by
  rw [KstatHistory.update]
  by_cases hz : changes = 0
  · rw [if_pos hz, if_pos hz]
    exact h
  · rw [if_neg hz, if_neg hz]
    exact .fresh hp _

/-- A call that finds no other change while it looks kstats up. -/
theorem Lag.call (h : Lag n s) {c : KstatCall} (hc : c.later = []) :
    Behind True (c.lag n) ⟨(s.call K c).1.kid, (s.call K c).2⟩ ∧
      Lag (c.leaves n) (s.call K c).1 := by
  have exact_of : ∀ {n : Nat} {s : KstatHistory} {reads : List Kstat}, Lag n s →
      (∀ k ∈ reads, k.kid = s.system) → Behind True n ⟨s.kid, reads⟩ := by
    intro n s reads h hr k hk
    have he : k.kid + n = s.kid := (hr k hk).symm ▸ h.system
    exact ⟨Nat.le_of_eq he, fun _ ↦ he⟩
  cases c with
  | cpu changes passes online =>
    have hs := h.update (K := K) changes hc
    refine ⟨exact_of hs fun k hk ↦ ?_, hs⟩
    obtain ⟨cpu, -, rfl⟩ := List.mem_map.mp hk
    exact hs.cpus
  | mem changes passes =>
    have hs := h.update (K := K) changes hc
    refine ⟨exact_of hs fun k hk ↦ ?_, hs⟩
    obtain hk | hk := List.mem_append.mp hk
    · exact congrArg Kstat.kid (mem_of_mem_lookup hk)
    · exact congrArg Kstat.kid (mem_of_mem_lookup hk)
  | loadavg changes passes =>
    have hs := h.update (K := K) changes hc
    exact ⟨exact_of hs fun k hk ↦ congrArg Kstat.kid (mem_of_mem_lookup hk), hs⟩
  | netload changes interface =>
    refine ⟨fun k hk ↦ ?_, ?_, h.cpus⟩
    · obtain rfl := mem_of_mem_lookup hk
      exact ⟨Nat.le_refl _, fun _ ↦ rfl⟩
    · rw [KstatHistory.call, KstatCall.leaves, updateAll_eq, ← h.system, Nat.add_assoc]

theorem Lag.run (calls : List KstatCall) (hl : ∀ c ∈ calls, c.later = []) :
    ∀ {n s}, Lag n s → List.Forall₂ (Behind True) (lags n calls) (s.run K calls) := by
  induction calls with
  | nil => exact fun _ ↦ .nil
  | cons c calls ih =>
    intro n s h
    obtain ⟨hread, hs⟩ := h.call (hl c List.mem_cons_self)
    exact .cons hread (ih (fun c hc ↦ hl c (List.mem_cons_of_mem _ hc)) hs)

theorem Behind.mono {exact exact' : Prop} (h : exact' → exact) {n : Nat} {t : KstatReads}
    (hb : Behind exact n t) : Behind exact' n t :=
  fun k hk ↦ ⟨(hb k hk).1, fun he ↦ (hb k hk).2 (he.imp_right h)⟩

end

/-- No processor comes or goes between an update of the chain and the lookups behind it, and the
chain does not change while they are made. -/
structure Undisturbed (K : KstatKernel) (kid : Nat) (start : KstatPasses)
    (calls : List KstatCall) : Prop where
  agrees : start.Agree K kid ∧ RunAgrees K calls (.fresh K kid start)
  once : start.later = [] ∧ ∀ c ∈ calls, c.later = []

end LibGTop.Solaris
