import LibGTop.Base.Runs
import LibGTop.FreeBsd.ProcMap
import LibGTop.FreeBsd.ProcTime

/-!
# Balanced privileges

The calls of the functions that raise the privileges and drop them again, on NetBSD and on
FreeBSD, in runs of any length.
-/

namespace LibGTop.FreeBsd

open Base Bsd

/-- A call of one of the functions, with all that the kernel answers to it. -/
inductive SuidCall
  | bsdProcMap (kernel : Bsd.MapKernel) (fuel : Nat) (pid : BitVec 32)
  | bsdProcTime (features : BitVec 64) (kernel : Bsd.TimeKernel) (pid : BitVec 32)
  | freebsdProcMap (kernel : MapKernel) (fuel : Nat) (pid : BitVec 32)
  | freebsdProcTime (kernel : TimeKernel) (pid : BitVec 32)

namespace SuidCall

/-- What the call does. -/
def prog : SuidCall → Prog Process Unit
  | bsdProcMap kernel fuel pid => do
    let _ ← Bsd.glibtopGetProcMapP kernel fuel pid
  | bsdProcTime features kernel pid => do
    let _ ← Bsd.glibtopGetProcTimeP features kernel pid
  | freebsdProcMap kernel fuel pid => do
    let _ ← glibtopGetProcMapP kernel fuel pid
  | freebsdProcTime kernel pid => do
    let _ ← glibtopGetProcTimeP kernel pid

/-- The call of the map on NetBSD is for the swapper; of the times on NetBSD no read of the
statistics is cut, and on FreeBSD the clock rates are read behind a process that is found. -/
def Drops : SuidCall → Prop
  | bsdProcMap _ _ pid => pid = 0
  | bsdProcTime features kernel pid => ¬StatsCut features kernel pid
  | freebsdProcMap _ _ _ => True
  | freebsdProcTime kernel pid => ¬ClockFailed kernel pid

/-- The process after the call; absent when it has ended, or the call still runs. -/
def step (p : Option Process) (call : SuidCall) : Option Process :=
  p.bind fun p ↦ (call.prog.run p).toOption.map Prod.snd

end SuidCall

section

variable {u v : Suid}

theorem balanced_leave_enter (h : u.Dropped) (hv : u.enter.leave = some v) :
    Balanced u v ∧ v.Dropped ∧ v.gid = u.gid ∧ v.egid = u.egid := by
  rw [h.leave_enter, Option.some.injEq] at hv
  subst hv
  refine ⟨⟨?_, rfl⟩, h, rfl, rfl⟩
  simp only
  omega

theorem not_balanced_leave_leave {w : Suid} (h : u.Dropped) (hv : u.enter.leave = some v)
    (hw : v.leave = some w) : ¬Balanced u w := by
  have hd := (balanced_leave_enter h hv).2.1
  rw [hd.leave, Option.some.injEq] at hw
  rw [h.leave_enter, Option.some.injEq] at hv
  subst hv hw
  rintro ⟨hc, -⟩
  simp only at hc
  omega

/-- What a call makes sure of holds of the process it leaves behind. -/
theorem post_of_step {Value : Type} {m : Prog Process Value} {post : Value → Process → Prop}
    {p p' : Process} (hm : Ensures (HasSuid u) m post) (hp : p.suid = u)
    (hr : ((do let _ ← m : Prog Process Unit).run p).toOption.map Prod.snd = some p') :
    ∃ a, post a p' := by
  change (((m >>= fun _ ↦ pure ()) : Prog Process Unit).run p).toOption.map Prod.snd = some p' at hr
  rw [StateT.run_bind] at hr
  cases hfirst : m.run p with
  | error stop =>
    rw [hfirst] at hr
    exact absurd hr.symm (Option.some_ne_none p')
  | ok result =>
    rw [hfirst] at hr
    obtain rfl := Option.some.inj hr
    exact ⟨result.1, hm p hp result.1 result.2 hfirst⟩

/-- A process that is as before, or has entered and left, is balanced. -/
theorem balanced_of_returned (h : u.Dropped) {q : Suid} (hq : q = u ∨ u.enter.leave = some q) :
    Balanced u q ∧ q.Dropped ∧ q.gid = u.gid ∧ q.egid = u.egid := by
  obtain rfl | hq := hq
  · exact ⟨balanced_self q, h, rfl, rfl⟩
  · exact balanced_leave_enter h hq

/-- A call that returns is balanced exactly when it drops what it raises; then the process has no
privileges behind it. -/
theorem SuidCall.balanced_iff (call : SuidCall) (h : u.Dropped) {p p' : Process}
    (hp : p.suid = u) (hr : step (some p) call = some p') :
    (Balanced u p'.suid ↔ call.Drops) ∧
      (call.Drops → p'.suid.Dropped ∧ p'.suid.gid = u.gid ∧ p'.suid.egid = u.egid) := by
  cases call with
  | bsdProcMap kernel fuel pid =>
    obtain ⟨a, ha⟩ := post_of_step (Bsd.ensures_glibtopGetProcMapP kernel fuel pid) hp hr
    by_cases hpid : pid = 0
    · rw [if_pos hpid] at ha
      have hg := balanced_of_returned h (.inl ha)
      exact ⟨iff_of_true hg.1 hpid, fun _ ↦ hg.2⟩
    · rw [if_neg hpid] at ha
      rw [show p'.suid = u.enter from ha]
      exact ⟨iff_of_false (not_balanced_enter u) hpid, fun hd ↦ absurd hd hpid⟩
  | bsdProcTime features kernel pid =>
    obtain ⟨a, ha⟩ := post_of_step (Bsd.ensures_glibtopGetProcTimeP features kernel pid) hp hr
    obtain ⟨hcut, hs⟩ | ⟨hcut, hs⟩ := ha
    · rw [hs]
      exact ⟨iff_of_false (not_balanced_enter u) (not_not.mpr hcut), fun hd ↦ absurd hcut hd⟩
    · have hg := balanced_of_returned h hs
      exact ⟨iff_of_true hg.1 hcut, fun _ ↦ hg.2⟩
  | freebsdProcMap kernel fuel pid =>
    obtain ⟨a, ha⟩ := post_of_step (ensures_glibtopGetProcMapP kernel fuel pid) hp hr
    have hg := balanced_of_returned h ha
    exact ⟨iff_of_true hg.1 trivial, fun _ ↦ hg.2⟩
  | freebsdProcTime kernel pid =>
    obtain ⟨a, ha⟩ := post_of_step (ensures_glibtopGetProcTimeP kernel pid) hp hr
    obtain ⟨hfailed, v, hv, hw⟩ | ⟨hfailed, hs⟩ := ha
    · exact ⟨iff_of_false (not_balanced_leave_leave h hv hw) (not_not.mpr hfailed),
        fun hd ↦ absurd hfailed hd⟩
    · have hg := balanced_of_returned h hs
      exact ⟨iff_of_true hg.1 hfailed, fun _ ↦ hg.2⟩

end

/-- The process as it is opened. -/
def openedProcess (gid egid : BitVec 32) : Process := { suid := .opened gid egid }

/-- The process has no privileges, and dropped them as often as it raised them. -/
structure AtRest (gid egid : BitVec 32) (p : Process) : Prop where
  gid_eq : p.suid.gid = gid
  egid_eq : p.suid.egid = egid
  dropped : p.suid.Dropped
  count_eq : p.suid.enters = p.suid.leaves

/-- The calls that drop what they raise leave the process at rest. -/
theorem AtRest.step {gid egid : BitVec 32} {p p' : Process} (h : AtRest gid egid p)
    {call : SuidCall} (hd : call.Drops) (hr : SuidCall.step (some p) call = some p') :
    AtRest gid egid p' := by
  obtain ⟨hiff, hdropped⟩ := call.balanced_iff h.dropped rfl hr
  obtain ⟨hdropped, hgid, hegid⟩ := hdropped hd
  have hcount := (hiff.mpr hd).1
  rw [h.count_eq] at hcount
  exact ⟨hgid.trans h.gid_eq, hegid.trans h.egid_eq, hdropped, Nat.add_right_cancel hcount⟩

theorem atRest_run {gid egid : BitVec 32} {calls : List SuidCall} (hc : ∀ call ∈ calls, call.Drops)
    {p : Process} (hp : run SuidCall.step (some (openedProcess gid egid)) calls = some p) :
    AtRest gid egid p := by
  have hrun : ∀ q ∈ run SuidCall.step (some (openedProcess gid egid)) calls, AtRest gid egid q := by
    refine run_invariant_of_steps SuidCall.step (fun state ↦ ∀ q ∈ state, AtRest gid egid q) ?_ _ _
      (stepsMeet_of_forall SuidCall.step _ hc) ?_
    · intro state call hd hinv q hq
      cases state with
      | none => exact absurd hq nofun
      | some p => exact (hinv p rfl).step hd hq
    · intro q hq
      obtain rfl := Option.some.inj hq
      exact ⟨rfl, rfl, rfl, rfl⟩
  exact hrun p hp

/-- After every run of calls that drop what they raise the privileges were dropped as often as they
were raised, and the effective group id is the one at the start. From there on a call that returns
is balanced exactly when it is such a call. -/
theorem suid_balanced_iff (gid egid : BitVec 32) (calls : List SuidCall)
    (hc : ∀ call ∈ calls, call.Drops) {p : Process}
    (hp : run SuidCall.step (some (openedProcess gid egid)) calls = some p) :
    p.suid.enters = p.suid.leaves ∧ p.suid.groups.effective = gid ∧
      ∀ call p', SuidCall.step (some p) call = some p' →
        (Balanced p.suid p'.suid ↔ call.Drops) := by
  have hrest := atRest_run hc hp
  refine ⟨hrest.count_eq, ?_, fun call p' hr ↦ (call.balanced_iff hrest.dropped rfl hr).1⟩
  rw [hrest.dropped]
  exact hrest.gid_eq

/-- A kernel that does not find the process. -/
def noProcess : MapKernel where
  procs := none
  vmspace _ _ := none
  entry _ _ := .error ⟨0, 0, 0, 0, false, 0, 0⟩
  object _ _ := none
  vnode _ _ := none
  tagptr _ _ := none
  tagstr _ _ := none
  inode _ _ := none
  zRoot _ _ := none
  umDev _ _ := none
  cdpInode _ _ := none

/-- A kernel of NetBSD that does not find it. -/
def noBsdProcess : Bsd.MapKernel where
  procs := none
  vmspace _ _ := none
  entry _ _ := none
  vnode _ _ := none
  inode _ _ := none
  uvmVnodeValid := none

/-- After a call of the map on FreeBSD, one of the map on NetBSD. -/
theorem suid_balanced_iff_no_process :
    1 = 1 ∧ (100 : BitVec 32) = 100 ∧
      (Balanced { Suid.opened 100 2 with enters := 1, leaves := 1 }
          { Suid.opened 100 2 with enters := 1, leaves := 1 }.enter ↔
        (SuidCall.bsdProcMap noBsdProcess 0 1).Drops) := by
  have h := suid_balanced_iff 100 2 [.freebsdProcMap noProcess 0 1]
    (List.forall_mem_singleton.mpr trivial)
    (p := { suid := { Suid.opened 100 2 with enters := 1, leaves := 1 } }) rfl
  exact ⟨h.1, h.2.1, h.2.2 (.bsdProcMap noBsdProcess 0 1)
    { suid := { Suid.opened 100 2 with enters := 1, leaves := 1 }.enter } rfl⟩

/-- The map on NetBSD of a process that is not found. -/
theorem proc_map_keeps_privileges :
    ¬∀ call p', SuidCall.step (some (openedProcess 100 2)) call = some p' →
      Balanced (Suid.opened 100 2) p'.suid := by
  intro h
  have hcall := h (.bsdProcMap noBsdProcess 0 1) { suid := (Suid.opened 100 2).enter } rfl
  exact not_balanced_enter _ hcall

end LibGTop.FreeBsd
