import LibGTop.Linux.ProcList
import LibGTop.Linux.StatFields
import LibGTop.Linux.StatusFile
import Mathlib.Data.List.Nodup

/-!
# Which processes are listed

`glibtop_get_proclist_s` against what its selectors and exclusions are documented
to mean (`include/glibtop/proclist.h:42–111`). A process has its files as the
kernel writes them; each look at it finds all of them, the first one only, or
none.
-/

namespace LibGTop.Linux

open Base

/-- A process with the files the kernel shows of it. -/
structure Process where
  pid : Nat
  pid_pos : 0 < pid
  pid_lt : pid < 2 ^ 31
  egid : UInt32
  status : StatusFile
  status_fits : status.Fits
  record : StatRecord
  record_fits : record.text.length < bufsiz
  record_range : ∀ k ∈ [5, 6, 7], -(2 ^ 31) ≤ record.field k ∧ record.field k < 2 ^ 31

namespace Process

variable (p : Process)

/-- The real user. -/
def uid : UInt32 := p.status.uid

/-- The effective user, who owns the directory of the process. -/
def euid : UInt32 := p.status.euid

/-- The process group. -/
def pgrp : Int := p.record.field 5

/-- The session. -/
def session : Int := p.record.field 6

/-- The controlling terminal, -1 for none. -/
def tty : Int := if p.record.field 7 = 0 then -1 else p.record.field 7

/-- The letter of the state is `'R'`. -/
def running : Prop := p.record.state = 82

instance : Decidable p.running := inferInstanceAs (Decidable (_ = _))

end Process

/-- How much of a process a look finds: nothing, what it looks at first, or the stat file, too. -/
inductive Reading
  | gone
  | part
  | whole
  deriving DecidableEq, Repr

/-- What a look at a process finds. -/
def Process.look (p : Process) : Reading → Look
  | .gone => ⟨none, none, none⟩
  | .part => ⟨some (p.euid, p.egid), some p.status.text, none⟩
  | .whole => ⟨some (p.euid, p.egid), some p.status.text, some p.record.text⟩

/-- A process in the directory, with how much each look at it finds. -/
structure Seen where
  process : Process
  selector : Reading
  notty : Reading
  idle : Reading
  system : Reading

/-- An entry of `/proc`: the directory of a process, or another one, which has no number for its
name when it is a directory. -/
inductive Slot
  | process (s : Seen)
  | other (isDir : Bool) (name : List UInt8) (h : isDir → ∀ b ∈ name.head?, startsNone b)

/-- The entry of a process. -/
def Seen.entry (s : Seen) : Entry where
  isDir := true
  name := decimal s.process.pid
  selector := s.process.look s.selector
  notty := s.process.look s.notty
  idle := s.process.look s.idle
  system := s.process.look s.system

/-- An entry as the loop meets it. -/
def Slot.entry : Slot → Entry
  | .process s => s.entry
  | .other isDir name _ =>
    ⟨isDir, name, ⟨none, none, none⟩, ⟨none, none, none⟩, ⟨none, none, none⟩, ⟨none, none, none⟩⟩

/-- The processes in a directory. -/
def seen : List Slot → List Seen
  | [] => []
  | .process s :: slots => s :: seen slots
  | .other _ _ _ :: slots => seen slots

namespace Seen

variable (s : Seen)

/-- The documented meaning of a selector; where it needs data of the process these can be read. -/
def Selected (arg : Int) : KernProc → Prop
  | .all => True
  | .pid => arg = s.process.pid
  | .pgrp => s.selector = .whole ∧ arg = s.process.pgrp
  | .session => s.selector = .whole ∧ arg = s.process.session
  | .tty => s.selector = .whole ∧ arg = s.process.tty
  | .uid => s.selector ≠ .gone ∧ arg = s.process.euid.toNat
  | .ruid => s.selector ≠ .gone ∧ arg = s.process.uid.toNat

/-- The documented meaning of the exclusions. -/
def Excluded (which : BitVec 64) : Prop :=
  which.getLsbD excludeNotty ∧ s.process.tty = -1 ∨
    which.getLsbD excludeIdle ∧ ¬s.process.running ∨
    which.getLsbD excludeSystem ∧ s.process.uid = 0

/-- An exclusion applies, and what it needs of the process can be read. -/
def ExcludedReading (which : BitVec 64) : Prop :=
  which.getLsbD excludeNotty ∧ s.notty = .whole ∧ s.process.tty = -1 ∨
    which.getLsbD excludeIdle ∧ s.idle = .whole ∧ ¬s.process.running ∨
    which.getLsbD excludeSystem ∧ s.system ≠ .gone ∧ s.process.uid = 0

/-- The comparison a selector comes to: with the argument cut to 32 bits, with the effective user
for the real one, and with none where the files of the process cannot be read. -/
def Passes (arg : Int) : KernProc → Prop
  | .all => True
  | .pid => toInt32 arg = s.process.pid
  | .pgrp => s.selector = .whole → toInt32 arg = s.process.pgrp
  | .session => s.selector = .whole → toInt32 arg = s.process.session
  | .tty => s.selector = .whole → toInt32 arg = s.process.tty
  | .uid => s.selector ≠ .gone ∧ toInt32 arg = toInt32 s.process.euid.toNat
  | .ruid => s.selector ≠ .gone → toInt32 arg = toInt32 s.process.euid.toNat

/-- The selector's comparison comes out as documented. -/
def Served (arg : Int) : KernProc → Prop
  | .all => True
  | .pid => toInt32 arg = s.process.pid → arg = s.process.pid
  | .pgrp => s.selector = .whole ∧ (toInt32 arg = s.process.pgrp → arg = s.process.pgrp)
  | .session => s.selector = .whole ∧ (toInt32 arg = s.process.session → arg = s.process.session)
  | .tty => s.selector = .whole ∧ (toInt32 arg = s.process.tty → arg = s.process.tty)
  | .uid => s.selector = .gone ∨
      (toInt32 arg = toInt32 s.process.euid.toNat → arg = s.process.euid.toNat)
  | .ruid => s.selector ≠ .gone ∧
      (toInt32 arg = toInt32 s.process.euid.toNat ↔ arg = s.process.uid.toNat)

instance (arg : Int) : (sel : KernProc) → Decidable (s.Selected arg sel)
  | .all => inferInstanceAs (Decidable True)
  | .pid => inferInstanceAs (Decidable (_ = _))
  | .pgrp => inferInstanceAs (Decidable (_ ∧ _))
  | .session => inferInstanceAs (Decidable (_ ∧ _))
  | .tty => inferInstanceAs (Decidable (_ ∧ _))
  | .uid => inferInstanceAs (Decidable (_ ∧ _))
  | .ruid => inferInstanceAs (Decidable (_ ∧ _))

instance (which : BitVec 64) : Decidable (s.Excluded which) :=
  inferInstanceAs (Decidable (_ ∨ _))

instance (arg : Int) : (sel : KernProc) → Decidable (s.Passes arg sel)
  | .all => inferInstanceAs (Decidable True)
  | .pid => inferInstanceAs (Decidable (_ = _))
  | .pgrp => inferInstanceAs (Decidable (_ → _))
  | .session => inferInstanceAs (Decidable (_ → _))
  | .tty => inferInstanceAs (Decidable (_ → _))
  | .uid => inferInstanceAs (Decidable (_ ∧ _))
  | .ruid => inferInstanceAs (Decidable (_ → _))

instance (which : BitVec 64) : Decidable (s.ExcludedReading which) :=
  inferInstanceAs (Decidable (_ ∨ _))

/-- The process is to be listed. -/
def Wanted (sel : KernProc) (which : BitVec 64) (arg : Int) : Prop :=
  s.Selected arg sel ∧ ¬s.Excluded which

instance (sel : KernProc) (which : BitVec 64) (arg : Int) : Decidable (s.Wanted sel which arg) :=
  inferInstanceAs (Decidable (_ ∧ _))

end Seen

section

variable (p : Process) (osVersionCode : Nat)

/-- The flags `glibtop_get_proc_uid_s` sets after a look. -/
def uidFlags : Reading → BitVec 64
  | .gone => 0
  | .part => sysdepsProcUid
  | .whole => sysdepsProcUid ||| sysdepsProcUidStat

/-- What `glibtop_get_proc_uid_s` returns after a look at a process. -/
structure UidReading (procuid : ProcUid) (reading : Reading) : Prop where
  flags : procuid.flags = uidFlags reading
  uid : reading ≠ .gone → procuid.uid = toInt32 p.uid.toNat
  euid : reading ≠ .gone → procuid.euid = toInt32 p.euid.toNat
  pgrp : reading = .whole → procuid.pgrp = p.pgrp
  session : reading = .whole → procuid.session = p.session
  tty : reading = .whole → procuid.tty = p.tty

theorem Process.asInt_field (k : Nat) (hk : k ∈ [5, 6, 7]) :
    asInt (p.record.field k) = p.record.field k :=
  if_pos (p.record_range k hk)

/-- `glibtop_get_proc_uid_s` after a look at a process. -/
theorem uidReading (reading : Reading) :
    UidReading p (glibtopGetProcUidS osVersionCode (p.look reading).status (p.look reading).stat)
      reading := by
  obtain ⟨rest, hf⟩ := p.status.tryFileToBuffer_text p.status_fits
  obtain ⟨gid, egid, hr⟩ := p.status.readStatus_upTo rest
  cases reading with
  | gone =>
    exact ⟨rfl, fun h ↦ absurd rfl h, fun h ↦ absurd rfl h, fun h ↦ absurd h (by decide),
      fun h ↦ absurd h (by decide), fun h ↦ absurd h (by decide)⟩
  | part =>
    have hp : glibtopGetProcUidS osVersionCode (some p.status.text) none =
        (readStatus (p.status.upTo rest)).1 := by
      simp only [glibtopGetProcUidS, hf, hr, if_true]
      rfl
    rw [Process.look, hp, hr]
    exact ⟨rfl, fun _ ↦ rfl, fun _ ↦ rfl, fun h ↦ absurd h (by decide),
      fun h ↦ absurd h (by decide), fun h ↦ absurd h (by decide)⟩
  | whole =>
    have hp : glibtopGetProcUidS osVersionCode (some p.status.text) (some p.record.text) =
        readStatFields osVersionCode (readStatus (p.status.upTo rest)).1 p.record.after := by
      simp only [glibtopGetProcUidS, hf, hr, if_true, p.record.tryFileToBuffer_text p.record_fits,
        p.record.procStatAfterCmd_text]
    have h7 := p.asInt_field 7 (by decide)
    rw [Process.look, hp, hr, readStatFields_after]
    refine ⟨rfl, fun _ ↦ rfl, fun _ ↦ rfl, fun _ ↦ p.asInt_field 5 (by decide),
      fun _ ↦ p.asInt_field 6 (by decide), fun _ ↦ ?_⟩
    show (if asInt (p.record.field 7) = 0 then -1 else asInt (p.record.field 7)) = p.tty
    rw [h7]
    rfl

/-- `glibtop_get_proc_state_s` returns the state when it can be read. -/
theorem stateReading (reading : Reading) :
    ∃ procstate, glibtopGetProcStateS (p.look reading).owner (p.look reading).stat = .ok procstate ∧
      hasFlag procstate.flags procStateState = decide (reading = .whole) ∧
      (reading = .whole → procstate.state = processState [p.record.state]) := by
  have hp : hasFlag sysdepsProcStateUid procStateState = false := by decide
  have hw : hasFlag (sysdepsProcStateUid ||| sysdepsProcState) procStateState = true := by decide
  cases reading with
  | gone => exact ⟨_, rfl, rfl, fun h ↦ absurd h (by decide)⟩
  | part => exact ⟨_, rfl, hp, fun h ↦ absurd h (by decide)⟩
  | whole =>
    exact ⟨_, glibtopGetProcStateS_text p.record p.record_fits p.euid p.egid, hw, fun _ ↦ rfl⟩

/-- The flags of the stat file are set when it has been read. -/
theorem hasFlag_stat (reading : Reading) (flag : Nat)
    (hm : flag ∈ [procUidPgrp, procUidSession, procUidTty]) :
    hasFlag (uidFlags reading) flag = decide (reading = .whole) := by
  revert flag
  cases reading <;> decide

/-- The flags of the status file are set when it has been read. -/
theorem hasFlag_status (reading : Reading) (flag : Nat) (hm : flag ∈ [procUidUid, procUidEuid]) :
    hasFlag (uidFlags reading) flag = decide (reading ≠ .gone) := by
  revert flag
  cases reading <;> decide

/-- A field of the stat file is compared when it can be read. -/
theorem fieldPasses_stat {procuid : ProcUid} {reading : Reading} (hu : UidReading p procuid reading)
    (flag : Nat) (hm : flag ∈ [procUidPgrp, procUidSession, procUidTty]) {field value : Int}
    (hv : reading = .whole → field = value) (arg : BitVec 64) :
    fieldPasses procuid flag field arg = true ↔ (reading = .whole → toInt32 arg.toInt = value) := by
  rw [fieldPasses, hu.flags, hasFlag_stat reading flag hm]
  by_cases hw : reading = .whole
  · simp [hw, hv hw]
  · simp [hw]

/-- The effective user is compared when the status file can be read. -/
theorem fieldPasses_euid {procuid : ProcUid} {reading : Reading} (hu : UidReading p procuid reading)
    (arg : BitVec 64) :
    fieldPasses procuid procUidEuid procuid.euid arg = true ↔
      (reading ≠ .gone → toInt32 arg.toInt = toInt32 p.euid.toNat) := by
  rw [fieldPasses, hu.flags, hasFlag_status reading procUidEuid (by decide)]
  by_cases hg : reading = .gone
  · simp [hg]
  · simp [hg, hu.euid hg]

/-- A `uid_t` is compared with the low half of the argument. -/
theorem setWidth_eq_iff (arg : BitVec 64) (user : UInt32) :
    arg.setWidth 32 = user.toBitVec ↔ toInt32 arg.toInt = toInt32 user.toNat := by
  have ha : BitVec.ofInt 32 arg.toInt = arg.setWidth 32 :=
    BitVec.signExtend_eq_setWidth_of_le arg (by decide)
  have hu : BitVec.ofInt 32 user.toNat = user.toBitVec := by
    rw [BitVec.ofInt_natCast]
    exact BitVec.ofNat_toNat _ _
  rw [toInt32, toInt32, BitVec.toInt_inj, ha, hu]

/-- A selector comes to its comparison. -/
theorem selects_iff (s : Seen) (which arg : BitVec 64) {sel : KernProc}
    (hs : which &&& kernProcMask = sel.value) :
    selects osVersionCode which arg s.process.pid (s.process.look s.selector) = true ↔
      s.Passes arg.toInt sel := by
  have hu := uidReading s.process osVersionCode s.selector
  unfold selects
  generalize glibtopGetProcUidS osVersionCode (s.process.look s.selector).status
    (s.process.look s.selector).stat = procuid at hu ⊢
  cases sel with
  | all => simp [hs, Seen.Passes, KernProc.value]
  | pid => simp [hs, Seen.Passes, KernProc.value]
  | uid =>
    have hc := setWidth_eq_iff arg s.process.euid
    cases hr : s.selector with
    | gone => simp [hs, Seen.Passes, KernProc.value, Process.look, hr]
    | part => simp [hs, Seen.Passes, KernProc.value, Process.look, hr, hc]
    | whole => simp [hs, Seen.Passes, KernProc.value, Process.look, hr, hc]
  | pgrp =>
    simpa [hs, Seen.Passes, KernProc.value] using
      fieldPasses_stat s.process hu procUidPgrp (by decide) hu.pgrp arg
  | session =>
    simpa [hs, Seen.Passes, KernProc.value] using
      fieldPasses_stat s.process hu procUidSession (by decide) hu.session arg
  | tty =>
    simpa [hs, Seen.Passes, KernProc.value] using
      fieldPasses_stat s.process hu procUidTty (by decide) hu.tty arg
  | ruid =>
    simpa [hs, Seen.Passes, KernProc.value] using fieldPasses_euid s.process hu arg

/-- The process is passed over for want of a terminal. -/
theorem dropsNotty_iff (s : Seen) (which : BitVec 64) :
    dropsNotty osVersionCode which (s.process.look s.notty) = true ↔
      which.getLsbD excludeNotty ∧ s.notty = .whole ∧ s.process.tty = -1 := by
  have hu := uidReading s.process osVersionCode s.notty
  unfold dropsNotty
  generalize glibtopGetProcUidS osVersionCode (s.process.look s.notty).status
    (s.process.look s.notty).stat = procuid at hu ⊢
  have hf : hasFlag procuid.flags procUidTty = decide (s.notty = .whole) := by
    rw [hu.flags, hasFlag_stat s.notty procUidTty (by decide)]
  by_cases hw : s.notty = .whole
  · simp [hf, hw, hu.tty hw]
  · simp [hf, hw]

theorem processState_ne_running (b : UInt8) : processState [b] ≠ processRunning ↔ b ≠ 82 := by
  constructor
  · rintro h rfl
    exact h rfl
  · intro h
    unfold processState
    split
    · next he => exact absurd (Option.some.inj he) h
    all_goals decide

/-- The process is passed over as idle. -/
theorem dropsIdle_eq (s : Seen) (which : BitVec 64) :
    ∃ drops, dropsIdle which (s.process.look s.idle) = .ok drops ∧
      (drops = true ↔ which.getLsbD excludeIdle ∧ s.idle = .whole ∧ ¬s.process.running) := by
  obtain ⟨procstate, he, hf, hst⟩ := stateReading s.process s.idle
  have hr := processState_ne_running s.process.record.state
  unfold dropsIdle
  by_cases hb : which.getLsbD excludeIdle
  · rw [if_pos hb, he]
    refine ⟨_, rfl, ?_⟩
    by_cases hw : s.idle = .whole
    · simp [hb, hf, hw, hst hw, hr, Process.running]
    · simp [hf, hw]
  · rw [if_neg hb]
    exact ⟨false, rfl, by simp [hb]⟩

/-- The process is passed over as one of the system's. -/
theorem dropsSystem_iff (s : Seen) (which : BitVec 64) :
    dropsSystem osVersionCode which (s.process.look s.system) = true ↔
      which.getLsbD excludeSystem ∧ s.system ≠ .gone ∧ s.process.uid = 0 := by
  have hu := uidReading s.process osVersionCode s.system
  have hz : toInt32 s.process.uid.toNat = 0 ↔ s.process.uid = 0 := by
    have hs := setWidth_eq_iff 0 s.process.uid
    rw [← UInt32.toBitVec_inj]
    exact ⟨fun h ↦ (hs.mpr h.symm).symm, fun h ↦ (hs.mp h.symm).symm⟩
  unfold dropsSystem
  generalize glibtopGetProcUidS osVersionCode (s.process.look s.system).status
    (s.process.look s.system).stat = procuid at hu ⊢
  have hf : hasFlag procuid.flags procUidUid = decide (s.system ≠ .gone) := by
    rw [hu.flags, hasFlag_status s.system procUidUid (by decide)]
  by_cases hg : s.system = .gone
  · simp [hf, hg]
  · simp [hf, hg, hu.uid hg, hz]

/-- The name of the directory of a process is its number. -/
theorem toInt32_name : toInt32 (strtoull 10 (decimal p.pid)).1.toInt = p.pid := by
  have hl := p.pid_lt
  have hn : strtoull 10 (decimal p.pid ++ []) = (clampUnsigned p.pid, []) :=
    strtoull_decimal (.inr rfl) spaces_nil p.pid stops_nil
  have hv : (clampUnsigned p.pid).toInt = p.pid := by
    rw [clampUnsigned, if_neg (by omega), BitVec.toInt_ofInt]
    exact Int.bmod_eq_of_le (by omega) (by omega)
  rw [List.append_nil] at hn
  rw [hn, hv, toInt32_eq_self (by omega)]

/-- The loop lists a process that its selector passes and no exclusion it can read drops. -/
theorem listedPid_process (s : Seen) (which arg : BitVec 64) {sel : KernProc}
    (hs : which &&& kernProcMask = sel.value) :
    ∃ pid, listedPid osVersionCode which arg s.entry = .ok pid ∧
      (s.Passes arg.toInt sel ∧ ¬s.ExcludedReading which → pid = some (s.process.pid : Int)) ∧
      (¬(s.Passes arg.toInt sel ∧ ¬s.ExcludedReading which) → pid = none) := by
  have hn := toInt32_name s.process
  have hpos : (s.process.pid : Int) ≠ 0 := by
    have hp := s.process.pid_pos
    omega
  have hsel := selects_iff osVersionCode s which arg hs
  have hnotty := dropsNotty_iff osVersionCode s which
  obtain ⟨idle, hie, hidle⟩ := dropsIdle_eq s which
  have hsystem := dropsSystem_iff osVersionCode s which
  simp only [listedPid, Seen.entry, hn, hie, Bool.not_true, Bool.false_eq_true, if_false, hpos]
  rw [Seen.ExcludedReading, ← hsel, ← hnotty, ← hidle, ← hsystem]
  generalize selects osVersionCode which arg s.process.pid (s.process.look s.selector) = selected
  generalize dropsNotty osVersionCode which (s.process.look s.notty) = notty
  generalize dropsSystem osVersionCode which (s.process.look s.system) = system
  cases selected <;> cases notty <;> cases idle <;> cases system <;> simp

end

end LibGTop.Linux
