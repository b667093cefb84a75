import LibGTop.Linux.CpuTable
import Mathlib.Data.Finset.Card

/-!
# The CPUs of a process

`glibtop_get_proc_affinity_s` (`sysdeps/linux/procaffinity.c:39–68`) behind `glibtop_open_s`,
which counts the lines of the CPUs. The mask is asked for below this count.
-/

namespace LibGTop.Linux

open Base

/-- `CPU_SETSIZE`, the size of a `cpu_set_t` in bits. -/
def cpuSetsize : Nat := 1024

/-- `glibtop_proc_affinity`, `include/glibtop/procaffinity.h:34–39`. -/
structure ProcAffinity where
  flags : BitVec 64
  number : BitVec 32
  all : Bool

/-- `glibtop_get_proc_affinity_s`, `sysdeps/linux/procaffinity.c:39–68`, with the set that
`sched_getaffinity` fills; absent when that fails, which ends the process. -/
def glibtopGetProcAffinityS (ncpu : Int) (set : Option (BitVec cpuSetsize)) :
    Option (ProcAffinity × List UInt16) :=
  set.map fun set ↦
    let count := (BitVec.ofInt 64 (ncpu + 1)).toNat
    let cpus := ((List.range (min cpuSetsize count)).filter fun i ↦ set.getLsbD i).map UInt16.ofNat
    ({ flags := flagBits [0, 1], number := BitVec.ofNat 32 cpus.length,
       all := cpus.length = count }, cpus)

/-- The lines from a place on that are counted in a buffer that has room for a part: the label of
each starts with the number of its place. -/
def countedLines : Nat → Nat → List CpuLine → Nat
  | _, _, [] => 0
  | i, room, l :: ls =>
    if i < glibtopNcpu ∧ labelText i <+: l.text.take room then
      countedLines (i + 1) (room - (labelText l.label).length - lineSize l.values) ls + 1
    else 0

/-- The lines of a table that are counted. -/
def StatTable.counted (t : StatTable) : Nat := countedLines 0 t.room t.cpus

/-- The CPUs of the mask are returned in their order with their number, and `all` tells whether they
are all that are online. -/
def AffinityRight (t : StatTable) (mask : BitVec cpuSetsize) : Prop :=
  ∃ realNcpu ncpu buf cpus, glibtopOpenS (some t.text) = some (realNcpu, ncpu) ∧
    glibtopGetProcAffinityS ncpu (some mask) = some (buf, cpus) ∧
    (∀ n, n ∈ cpus.map UInt16.toNat ↔ mask.getLsbD n) ∧
    (cpus.map UInt16.toNat).Pairwise (· < ·) ∧
    buf.number.toNat = cpus.length ∧
    (buf.all ↔ ∀ l ∈ t.cpus, mask.getLsbD l.label)

section

variable {l : CpuLine} {ls : List CpuLine} {rest : List UInt8}

/-- Also behind a label that is cut comes the line that the buffer has room for. -/
theorem skipLine_table_cut (ls : List CpuLine) (rest : List UInt8) (room : Nat) :
    skipLine ((tableText (l :: ls) rest).take room) =
      (tableText ls rest).take (room - (labelText l.label).length - lineSize l.values) := by
  by_cases h : (labelText l.label).length ≤ room
  · exact skipLine_table h
  · have hbytes : ∀ b ∈ (labelText l.label).take room, b ≠ 0 ∧ b ≠ 10 := by
      intro b hb
      have hm := List.mem_of_mem_take hb
      exact ⟨fun he ↦ notMem_labelText (by decide) _ (he ▸ hm),
        fun he ↦ notMem_labelText (by decide) _ (he ▸ hm)⟩
    have hskip := skipLine_append hbytes []
    rw [List.append_nil] at hskip
    have hzero : room - (labelText l.label).length = 0 := by omega
    rw [tableText, List.take_append, hzero, List.take_zero, List.append_nil, hskip, Nat.zero_sub]
    rfl

/-- The count goes over the lines whose label starts with the number of their place. -/
theorem turns_tableText (ho : ¬asciiBytes ['c', 'p', 'u'] <+: rest) (ls : List CpuLine)
    (i room : Nat) :
    turns ((tableText ls rest).take room) i = countedLines i room ls := by
  induction ls generalizing i room with
  | nil =>
    refine turns_stop fun h ↦ ?_
    have hp := List.isPrefixOf_iff_prefix.mp h
    rw [List.take_append] at hp
    exact ho (((List.prefix_append _ _).trans hp).trans (List.take_prefix _ _))
  | cons l ls ih =>
    rw [countedLines]
    by_cases hi : i < glibtopNcpu
    · have hcheck : checkCpuLine ((tableText (l :: ls) rest).take room) i = true ↔
          labelText i <+: l.text.take room := checkCpuLine_table hi
      by_cases hc : checkCpuLine ((tableText (l :: ls) rest).take room) i = true
      · rw [turns_step hi hc, skipLine_table_cut, ih, if_pos ⟨hi, hcheck.mp hc⟩]
      · rw [turns_stop hc, if_neg fun h ↦ hc (hcheck.mpr h.2)]
    · rw [if_neg fun h ↦ hi h.1, turns]
      omega

theorem countedLines_le (i room : Nat) (ls : List CpuLine) :
    countedLines i room ls ≤ ls.length ∧ countedLines i room ls ≤ glibtopNcpu - i := by
  induction ls generalizing i room with
  | nil => exact ⟨Nat.le_refl 0, Nat.zero_le _⟩
  | cons l ls ih =>
    rw [countedLines]
    split
    · next h =>
      have hrest := ih (i + 1) (room - (labelText l.label).length - lineSize l.values)
      rw [List.length_cons]
      omega
    · exact ⟨Nat.zero_le _, Nat.zero_le _⟩

end

namespace StatTable

variable (t : StatTable)

theorem counted_le : t.counted ≤ t.cpus.length ∧ t.counted ≤ cpuSetsize :=
  countedLines_le 0 t.room t.cpus

/-- The number of CPUs that is kept is that of the lines that are counted. -/
theorem glibtopOpenS_counted :
    ∃ realNcpu ncpu, glibtopOpenS (some t.text) = some (realNcpu, ncpu) ∧
      ncpu + 1 = t.counted := by
  obtain ⟨buffer, hbuffer, hskip, -⟩ := t.buffer 0
  have hturns := turns_tableText t.rest_other t.cpus 0 t.room
  have hge := le_countCpus ((tableText t.cpus t.rest).take t.room) 0
  refine ⟨_, _, by rw [glibtopOpenS, hbuffer, Option.map_some, hskip], ?_⟩
  rw [counted, ← hturns, turns]
  omega

end StatTable

/-- The CPUs of a mask below the count are returned, and they are all that are asked for exactly
when there is one for each number below the count. -/
theorem glibtopGetProcAffinityS_eq {count : Nat} (hcount : count ≤ cpuSetsize) {ncpu : Int}
    (hncpu : ncpu + 1 = count) (mask : BitVec cpuSetsize) :
    ∃ buf cpus, glibtopGetProcAffinityS ncpu (some mask) = some (buf, cpus) ∧
      cpus.map UInt16.toNat = (List.range count).filter (fun i ↦ mask.getLsbD i) ∧
      buf.number.toNat = cpus.length ∧ (buf.all ↔ ∀ n < count, mask.getLsbD n) := by
  have hsize : cpuSetsize = 1024 := rfl
  have hbound : (BitVec.ofInt 64 (ncpu + 1)).toNat = count := by
    rw [hncpu, BitVec.ofInt_natCast, BitVec.toNat_ofNat, Nat.mod_eq_of_lt (by omega)]
  have hlength : ((List.range count).filter fun i ↦ mask.getLsbD i).length ≤ count := by
    have hfilter := List.length_filter_le (fun i ↦ mask.getLsbD i) (List.range count)
    rwa [List.length_range] at hfilter
  rw [glibtopGetProcAffinityS, Option.map_some]
  simp only [hbound, Nat.min_eq_right hcount, List.length_map]
  refine ⟨_, _, rfl, ?_, ?_, ?_⟩
  · rw [List.map_map, List.map_congr_left (g := id), List.map_id]
    intro i hi
    have hlt := List.mem_range.mp (List.mem_of_mem_filter hi)
    exact UInt16.toNat_ofNat_of_lt' (by rw [UInt16.size]; omega)
  · rw [BitVec.toNat_ofNat, List.length_map, Nat.mod_eq_of_lt (by omega)]
  · rw [decide_eq_true_eq]
    nth_rewrite 2 [← List.length_range (n := count)]
    rw [List.length_filter_eq_length_iff]
    exact ⟨fun h n hn ↦ h n (List.mem_range.mpr hn), fun h n hn ↦ h n (List.mem_range.mp hn)⟩

/-- The answer is right exactly when the mask is below the count, and has a CPU for each number
below it exactly when it has all that are online. -/
theorem affinityRight_iff_counted (t : StatTable) (mask : BitVec cpuSetsize) :
    AffinityRight t mask ↔ (∀ n, mask.getLsbD n → n < t.counted) ∧
      ((∀ n < t.counted, mask.getLsbD n) ↔ ∀ l ∈ t.cpus, mask.getLsbD l.label) := by
  obtain ⟨realNcpu, ncpu, hopen, hncpu⟩ := t.glibtopOpenS_counted
  obtain ⟨buf, cpus, hget, hcpus, hnumber, hall⟩ :=
    glibtopGetProcAffinityS_eq t.counted_le.2 hncpu mask
  have hmem : ∀ n, n ∈ cpus.map UInt16.toNat ↔ n < t.counted ∧ mask.getLsbD n := by
    intro n
    rw [hcpus, List.mem_filter, List.mem_range]
  constructor
  · rintro ⟨realNcpu', ncpu', buf', cpus', hopen', hget', hlist, -, -, honline⟩
    obtain ⟨-, rfl⟩ := Prod.mk.inj (Option.some.inj (hopen.symm.trans hopen'))
    obtain ⟨rfl, rfl⟩ := Prod.mk.inj (Option.some.inj (hget.symm.trans hget'))
    exact ⟨fun n hn ↦ ((hmem n).mp ((hlist n).mpr hn)).1, hall.symm.trans honline⟩
  · rintro ⟨hbelow, honline⟩
    refine ⟨realNcpu, ncpu, buf, cpus, hopen, hget, fun n ↦ ?_, ?_, hnumber, hall.trans honline⟩
    · rw [hmem]
      exact and_iff_right_of_imp (hbelow n)
    · rw [hcpus]
      exact List.pairwise_lt_range.filter _

/-- Numbers in increasing order that are all below their count are all numbers below it. -/
theorem StatTable.mem_labels_of_lt (t : StatTable) {count : Nat} (hcount : count ≤ t.cpus.length)
    (hlt : ∀ l ∈ t.cpus, l.label < count) {n : Nat} (hn : n < count) :
    ∃ l ∈ t.cpus, l.label = n := by
  have hpairwise : (t.cpus.map CpuLine.label).Pairwise (· < ·) :=
    List.pairwise_map.mpr t.increasing
  have hnodup : (t.cpus.map CpuLine.label).Nodup := hpairwise.imp Nat.ne_of_lt
  have hsubset : (t.cpus.map CpuLine.label).toFinset ⊆ Finset.range count := by
    intro m hm
    obtain ⟨l, hl, rfl⟩ := List.mem_map.mp (List.mem_toFinset.mp hm)
    exact Finset.mem_range.mpr (hlt l hl)
  have hcard : (Finset.range count).card ≤ (t.cpus.map CpuLine.label).toFinset.card := by
    rwa [Finset.card_range, List.toFinset_card_of_nodup hnodup, List.length_map]
  have hmem : n ∈ (t.cpus.map CpuLine.label).toFinset :=
    Finset.eq_of_subset_of_card_le hsubset hcard ▸ Finset.mem_range.mpr hn
  exact List.mem_map.mp (List.mem_toFinset.mp hmem)

/-- The answer for a mask is right exactly when all its CPUs are below the count, and it is not the
one with all numbers below the count while there are other CPUs. -/
theorem affinityRight_iff (t : StatTable) (mask : BitVec cpuSetsize) :
    AffinityRight t mask ↔ (∀ n, mask.getLsbD n → n < t.counted) ∧
      ((∀ n < t.counted, mask.getLsbD n) → ∀ l ∈ t.cpus, l.label < t.counted) := by
  rw [affinityRight_iff_counted]
  refine and_congr_right fun hbelow ↦ ⟨fun h hfull l hl ↦ hbelow _ (h.mp hfull l hl), fun h ↦ ?_⟩
  constructor
  · intro hfull l hl
    exact hfull _ (h hfull l hl)
  · intro hall n hn
    obtain ⟨l, hl, rfl⟩ := t.mem_labels_of_lt t.counted_le.1 (fun l hl ↦ hbelow _ (hall l hl)) hn
    exact hall l hl

/-- Behind a gap in the numbers a CPU of the mask is not returned. -/
theorem not_affinityRight :
    ¬∀ (t : StatTable) (mask : BitVec cpuSetsize),
      (∀ n, mask.getLsbD n → ∃ l ∈ t.cpus, l.label = n) → AffinityRight t mask := by
  intro h
  have honline : ∀ n, (BitVec.twoPow cpuSetsize 2).getLsbD n →
      ∃ l ∈ (sampleTable [0, 2] (by decide)).cpus, l.label = n := by
    intro n hn
    rw [BitVec.getLsbD_twoPow, Bool.and_eq_true, decide_eq_true_eq, decide_eq_true_eq] at hn
    exact ⟨⟨2, [BitVec.ofNat 64 2 + 1], List.cons_ne_nil _ _⟩, List.mem_cons_of_mem _
      List.mem_cons_self, hn.2⟩
  have hright := (affinityRight_iff_counted _ _).mp (h _ _ honline)
  have hcounted : (sampleTable [0, 2] (by decide)).counted = 1 := by decide +kernel
  have hlt := hright.1 2 (by rw [BitVec.getLsbD_twoPow]; rfl)
  rw [hcounted] at hlt
  exact absurd hlt (by decide)

end LibGTop.Linux
