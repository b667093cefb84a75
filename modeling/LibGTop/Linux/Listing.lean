import LibGTop.Linux.Selection
import Mathlib.Data.List.Nodup

/-!
# The list of processes is the documented one

`glibtop_get_proclist_s` lists the processes that its comparisons pass, each once
and in the order of the directory. These are the documented ones as long as the
comparisons come out as documented; they do not for a real user who is not the
effective one, for a process whose files cannot be read, and for an argument that
is cut.
-/

namespace LibGTop.Linux

open Base

/-- The processes that are listed. -/
def Seen.Listed (s : Seen) (sel : KernProc) (which : BitVec 64) (arg : Int) : Prop :=
  s.Passes arg sel ∧ ¬s.ExcludedReading which

instance (s : Seen) (sel : KernProc) (which : BitVec 64) (arg : Int) :
    Decidable (s.Listed sel which arg) :=
  inferInstanceAs (Decidable (_ ∧ _))

/-- The numbers of processes. -/
def pids (ss : List Seen) : List Int := ss.map fun s ↦ (s.process.pid : Int)

section

variable (osVersionCode : Nat) {which : BitVec 64} {sel : KernProc}

/-- An entry that is no process is passed over. -/
theorem listedPid_other (which arg : BitVec 64) {isDir : Bool} {name : List UInt8}
    (h : isDir → ∀ b ∈ name.head?, startsNone b) :
    listedPid osVersionCode which arg (Slot.entry (.other isDir name h)) = .ok none := by
  cases isDir with
  | false => rfl
  | true =>
    have hn : strtoull 10 name = (0, name) := strtoull_none (.inr rfl) (h rfl)
    simp only [listedPid, Slot.entry, hn]
    rfl

/-- The loop over the directory. -/
theorem listedPids_entries (hs : which &&& kernProcMask = sel.value) (arg : BitVec 64)
    (slots : List Slot) :
    listedPids osVersionCode which arg (slots.map Slot.entry) =
      .ok (pids ((seen slots).filter fun s ↦ s.Listed sel which arg.toInt)) := by
  induction slots with
  | nil => rfl
  | cons slot slots ih =>
    cases slot with
    | process s =>
      obtain ⟨pid, hp, hl, hn⟩ := listedPid_process osVersionCode s which arg hs
      rw [List.map_cons, listedPids, Slot.entry, hp, ih, seen, List.filter_cons]
      by_cases hk : s.Listed sel which arg.toInt
      · rw [hl hk, if_pos (decide_eq_true hk)]
        rfl
      · rw [hn hk, if_neg (by simpa using hk)]
        rfl
    | other isDir name h =>
      rw [List.map_cons, listedPids, listedPid_other osVersionCode which arg h, ih]
      rfl

end

/-- The list the function returns for a directory is the documented one, without repetitions, and
comes with its size. -/
def ListsExactly (osVersionCode : Nat) (slots : List Slot) (which : BitVec 64) (sel : KernProc)
    (arg : BitVec 64) : Prop :=
  ∃ buf list, glibtopGetProclistS osVersionCode (some (slots.map Slot.entry)) which arg =
      .ok (buf, some list) ∧
    list = pids ((seen slots).filter fun s ↦ s.Wanted sel which arg.toInt) ∧ list.Nodup ∧
    buf.flags = sysdepsProclist ∧ buf.number.toNat = list.length ∧ buf.size = 4 ∧
    buf.total = buf.number * buf.size

/-- A process is listed exactly when it is to be: an exclusion that applies can be read; or one
applies, and the comparison of the selector fails anyway; or none does, and the comparison comes
out as documented. -/
def Seen.ServedBy (s : Seen) (sel : KernProc) (which : BitVec 64) (arg : Int) : Prop :=
  s.ExcludedReading which ∨ s.Excluded which ∧ ¬s.Passes arg sel ∨
    ¬s.Excluded which ∧ s.Served arg sel

theorem Seen.ExcludedReading.excluded {s : Seen} {which : BitVec 64} (h : s.ExcludedReading which) :
    s.Excluded which := by
  obtain ⟨hb, -, ha⟩ | ⟨hb, -, ha⟩ | ⟨hb, -, ha⟩ := h
  · exact .inl ⟨hb, ha⟩
  · exact .inr (.inl ⟨hb, ha⟩)
  · exact .inr (.inr ⟨hb, ha⟩)

/-- A field is compared where it can be read, and a cut argument is taken for the field only when
it is the field. -/
private theorem served_field {value : Int} (hv : -(2 ^ 31) ≤ value ∧ value < 2 ^ 31)
    (reading : Reading) (arg : Int) :
    reading = .whole ∧ (toInt32 arg = value → arg = value) ↔
      ((reading = .whole → toInt32 arg = value) ↔ reading = .whole ∧ arg = value) := by
  have hc : arg = value → toInt32 arg = value := by
    rintro rfl
    exact toInt32_eq_self hv
  by_cases hr : reading = .whole
  · simpa [hr] using ⟨fun h ↦ ⟨h, hc⟩, fun h ↦ h.mp⟩
  · simp [hr]

theorem Process.tty_range (p : Process) : -(2 ^ 31) ≤ p.tty ∧ p.tty < 2 ^ 31 := by
  unfold Process.tty
  split
  · decide
  · exact p.record_range 7 (by decide)

/-- The comparison of a selector against its documented meaning. -/
theorem Seen.served_iff (s : Seen) (sel : KernProc) (arg : Int) :
    s.Served arg sel ↔ (s.Passes arg sel ↔ s.Selected arg sel) := by
  cases sel with
  | all => exact iff_of_true trivial Iff.rfl
  | pid =>
    have hc : arg = s.process.pid → toInt32 arg = s.process.pid := by
      have hl := s.process.pid_lt
      rintro rfl
      exact toInt32_eq_self (by omega)
    exact ⟨fun h ↦ ⟨h, hc⟩, fun h ↦ h.mp⟩
  | pgrp => exact served_field (s.process.record_range 5 (by decide)) s.selector arg
  | session => exact served_field (s.process.record_range 6 (by decide)) s.selector arg
  | tty => exact served_field s.process.tty_range s.selector arg
  | uid =>
    have hc : arg = s.process.euid.toNat → toInt32 arg = toInt32 s.process.euid.toNat :=
      congrArg toInt32
    unfold Served Passes Selected
    by_cases hg : s.selector = .gone
    · simp [hg]
    · simpa [hg] using ⟨fun h ↦ ⟨h, hc⟩, fun h ↦ h.mp⟩
  | ruid =>
    unfold Served Passes Selected
    by_cases hg : s.selector = .gone
    · simp [hg]
    · simp [hg]

theorem Seen.servedBy_iff (s : Seen) (sel : KernProc) (which : BitVec 64) (arg : Int) :
    s.ServedBy sel which arg ↔ (s.Listed sel which arg ↔ s.Wanted sel which arg) := by
  have he : s.ExcludedReading which → s.Excluded which := fun h ↦ h.excluded
  rw [ServedBy, served_iff, Listed, Wanted]
  by_cases h : s.ExcludedReading which
  · simp [h, he h]
  · by_cases hx : s.Excluded which
    · simp [h, hx]
    · simp [h, hx]

/-- Two parts of a list without repetitions are the same exactly when they are by the same choice.
-/
theorem pids_filter_eq_iff {ss : List Seen} (hn : (pids ss).Nodup) (p q : Seen → Bool) :
    pids (ss.filter p) = pids (ss.filter q) ↔ ∀ s ∈ ss, p s = q s := by
  constructor
  · intro h s hs
    have hm : ∀ r : Seen → Bool, (s.process.pid : Int) ∈ pids (ss.filter r) ↔ r s = true := by
      intro r
      constructor
      · intro hp
        obtain ⟨t, ht, he⟩ := List.mem_map.mp hp
        obtain ⟨ht, hr⟩ := List.mem_filter.mp ht
        obtain rfl := List.inj_on_of_nodup_map hn ht hs he
        exact hr
      · intro hr
        exact List.mem_map_of_mem (List.mem_filter.mpr ⟨hs, hr⟩)
    rw [Bool.eq_iff_iff, ← hm p, ← hm q, h]
  · intro h
    rw [List.filter_congr h]

/-- There are fewer processes than a list counts. -/
theorem length_pids_lt {ss : List Seen} (hn : (pids ss).Nodup) : (pids ss).length < 2 ^ 32 := by
  have hi : pids ss = (ss.map fun s ↦ s.process.pid).map Int.ofNat := by
    rw [pids, List.map_map]
    rfl
  rw [hi] at hn
  have hs : (ss.map fun s ↦ s.process.pid) ⊆ List.range (2 ^ 31) := by
    intro pid hp
    obtain ⟨s, -, rfl⟩ := List.mem_map.mp hp
    exact List.mem_range.mpr s.process.pid_lt
  have hl := (List.Nodup.of_map _ hn).length_le_of_subset hs
  rw [List.length_range] at hl
  rw [hi, List.length_map]
  omega

/-- The function returns the processes its comparisons pass, with the right size. -/
theorem listsExactly_iff (osVersionCode : Nat) {slots : List Slot} (hn : (pids (seen slots)).Nodup)
    {which : BitVec 64} (arg : BitVec 64) {sel : KernProc}
    (hs : which &&& kernProcMask = sel.value) :
    ListsExactly osVersionCode slots which sel arg ↔
      pids ((seen slots).filter fun s ↦ s.Listed sel which arg.toInt) =
        pids ((seen slots).filter fun s ↦ s.Wanted sel which arg.toInt) := by
  have hl := listedPids_entries osVersionCode hs arg slots
  have hp : (pids ((seen slots).filter fun s ↦ s.Listed sel which arg.toInt)).Nodup :=
    hn.sublist (List.filter_sublist.map _)
  have hc := length_pids_lt hp
  unfold ListsExactly
  rw [glibtopGetProclistS, hl]
  constructor
  · rintro ⟨buf, list, hr, he, -⟩
    obtain ⟨-, hl⟩ := Prod.mk.inj (Except.ok.inj hr)
    exact (Option.some.inj hl).trans he
  · intro he
    refine ⟨_, _, rfl, he, hp, rfl, ?_, rfl, rfl⟩
    rw [BitVec.toNat_setWidth, BitVec.toNat_ofNat, Nat.mod_eq_of_lt hc]
    omega

/-- The list of processes is the documented one exactly when every process is served. -/
theorem proclist_exact_iff (osVersionCode : Nat) (slots : List Slot)
    (hn : (pids (seen slots)).Nodup) (which arg : BitVec 64) (sel : KernProc)
    (hs : which &&& kernProcMask = sel.value) :
    ListsExactly osVersionCode slots which sel arg ↔
      ∀ s ∈ seen slots, s.ServedBy sel which arg.toInt := by
  rw [listsExactly_iff osVersionCode hn arg hs, pids_filter_eq_iff hn]
  apply forall₂_congr
  intro s _
  rw [Seen.servedBy_iff, decide_eq_decide]

/-- The status file of a process with a real and an effective user. -/
def sampleStatus (uid euid : UInt32) : StatusFile where
  name := asciiBytes "Name:\tpasswd".toList
  name_line := by decide
  beforePid := [asciiBytes "Tgid:\t7".toList]
  beforePid_passed := by decide
  pid := 7
  ppid := 1
  beforeUid := [asciiBytes "TracerPid:\t0".toList]
  beforeUid_passed := by decide
  uid := uid
  euid := euid
  moreUids := asciiBytes "\t0\t0".toList
  moreUids_line := by decide
  moreUids_stops := by decide
  beforeGid := []
  beforeGid_passed := by decide
  rest := asciiBytes "\t100\t100\t100\t100\n".toList

/-- A running process on a terminal. -/
def sampleProcess (status : StatusFile) (h : status.Fits) : Process where
  pid := 7
  pid_pos := by decide
  pid_lt := by decide
  egid := 100
  status := status
  status_fits := h
  record := {
    pid := 7
    comm := asciiBytes "passwd".toList
    comm_noNul := by decide
    state := 82
    state_isLetter := by decide
    fields := [1, 7, 7, 34816, 7] }
  record_fits := by decide +kernel
  record_range := by decide

/-- A process whose users are the same is found by its real user. -/
theorem proclist_exact_iff_user :
    ListsExactly 0 [.process ⟨sampleProcess (sampleStatus 1000 1000)
        ⟨by decide +kernel, by decide +kernel⟩, .whole, .whole, .whole, .whole⟩]
      (KernProc.ruid.value ||| BitVec.twoPow 64 excludeSystem) .ruid 1000 := by
  refine (proclist_exact_iff 0 _ (by decide) _ 1000 .ruid (by decide)).mpr ?_
  intro s hs
  obtain rfl := List.mem_singleton.mp hs
  exact .inr (.inr ⟨by decide, by decide, by decide⟩)

/-- A process that runs with another user's rights is not found by its real user, and one whose
files are gone is found by any process group. -/
theorem proclist_setuid :
    ¬ListsExactly 0 [.process ⟨sampleProcess (sampleStatus 1000 0)
        ⟨by decide +kernel, by decide +kernel⟩, .whole, .whole, .whole, .whole⟩]
      KernProc.ruid.value .ruid 1000 ∧
    ¬ListsExactly 0 [.process ⟨sampleProcess (sampleStatus 1000 1000)
        ⟨by decide +kernel, by decide +kernel⟩, .gone, .gone, .gone, .gone⟩]
      KernProc.pgrp.value .pgrp 1000 := by
  constructor
  · rw [listsExactly_iff 0 (by decide) 1000 (by decide)]
    decide
  · rw [listsExactly_iff 0 (by decide) 1000 (by decide)]
    decide

end LibGTop.Linux
