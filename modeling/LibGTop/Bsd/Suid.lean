import LibGTop.Base.Programs

/-!
# Raised privileges

`glibtop_suid_enter` and `glibtop_suid_leave` of the systems whose server is set-group-id
(`sysdeps/bsd/glibtop_suid.h`, `sysdeps/freebsd/glibtop_suid.h`), with a count of their calls.
-/

namespace LibGTop.Bsd

open Base

/-- The group ids of a process. -/
structure Groups where
  real : BitVec 32
  effective : BitVec 32
  deriving DecidableEq

/-- `setregid`: a process takes one of its ids for each; absent when it may not. -/
def setregid (rgid egid : BitVec 32) (groups : Groups) : Option Groups :=
  if (rgid = groups.real ∨ rgid = groups.effective) ∧
      (egid = groups.real ∨ egid = groups.effective) then
    some { real := rgid, effective := egid }
  else none

/-- The ids that `server->machine` has, those of the process, and the number of calls. -/
structure Suid where
  gid : BitVec 32
  egid : BitVec 32
  groups : Groups
  enters : Nat := 0
  leaves : Nat := 0
  deriving DecidableEq

/-- `glibtop_suid_enter`; what `setregid` returns is not looked at. -/
def Suid.enter (u : Suid) : Suid :=
  { u with
    groups := (setregid u.gid u.egid u.groups).getD u.groups
    enters := u.enters + 1 }

/-- `glibtop_suid_leave`; absent when it ends the process. -/
def Suid.leave (u : Suid) : Option Suid :=
  (setregid u.egid u.gid u.groups).map fun groups ↦
    { u with
      groups := groups
      leaves := u.leaves + 1 }

/-- A process that is opened: `glibtop_open_p` (`sysdeps/bsd/open.c:53–94`) keeps the ids that it
has and drops the privileges. -/
def Suid.opened (gid egid : BitVec 32) : Suid :=
  { gid := gid
    egid := egid
    groups := { real := egid, effective := gid } }

/-- A process, with the number of its reads of the kernel. -/
structure Process where
  suid : Suid
  reads : Nat := 0

/-- `glibtop_suid_enter (server)`. -/
def suidEnter : Prog Process Unit := modify fun p ↦ { p with suid := p.suid.enter }

/-- `glibtop_suid_leave (server)`. -/
def suidLeave : Prog Process Unit := do
  let p ← get
  let suid ← orExit p.suid.leave
  set { p with suid := suid }

/-- `kvm_read`, with what the kernel answers to the read of that number. -/
def kvmRead {Value : Type} (answer : Nat → BitVec 64 → Value) (addr : BitVec 64) :
    Prog Process Value := do
  let p ← get
  set { p with reads := p.reads + 1 }
  pure (answer p.reads addr)

/-- The ids and counts of a process are these. -/
def HasSuid (u : Suid) (p : Process) : Prop := p.suid = u

/-- The process has no privileges. -/
def Suid.Dropped (u : Suid) : Prop := u.groups = { real := u.egid, effective := u.gid }

/-- Between two states each call that raises the privileges is made up for by one that drops them,
and the effective group id is the same. -/
def Balanced (u v : Suid) : Prop :=
  v.enters + u.leaves = v.leaves + u.enters ∧ v.groups.effective = u.groups.effective

instance : DecidableRel Balanced := fun u v ↦
  inferInstanceAs (Decidable (v.enters + u.leaves = v.leaves + u.enters ∧
    v.groups.effective = u.groups.effective))

section

variable {u v : Suid}

/-- Without privileges the process takes them. -/
theorem Suid.Dropped.enter_groups (h : u.Dropped) :
    u.enter.groups = { real := u.gid, effective := u.egid } := by
  rw [Suid.enter, h, setregid, if_pos ⟨.inr rfl, .inl rfl⟩]
  rfl

/-- A call that drops the privileges behind one that raises them. -/
theorem Suid.Dropped.leave_enter (h : u.Dropped) :
    u.enter.leave = some { u with enters := u.enters + 1, leaves := u.leaves + 1 } := by
  rw [leave, h.enter_groups, setregid]
  simp only [enter, or_true, true_or, and_self, if_true, Option.map_some]
  rw [← h]

/-- A call that drops what is not raised. -/
theorem Suid.Dropped.leave (h : u.Dropped) : u.leave = some { u with leaves := u.leaves + 1 } := by
  rw [Suid.leave, h, setregid, if_pos ⟨.inl rfl, .inr rfl⟩, ← h]
  rfl

/-- What comes behind the two calls runs with their counts. -/
theorem run_suidEnter_suidLeave {Value : Type} {p : Process} (h : p.suid.Dropped)
    (next : Unit → Prog Process Value) :
    (suidEnter >>= fun _ ↦ suidLeave >>= next).run p =
      (next ()).run { p with
        suid := { p.suid with enters := p.suid.enters + 1, leaves := p.suid.leaves + 1 } } := by
  have hl : orExit p.suid.enter.leave = (pure _ : Prog Process Suid) :=
    congrArg orExit h.leave_enter
  change (((orExit p.suid.enter.leave >>= fun suid ↦ set { p with suid := suid }) >>= next :
    Prog Process Value).run { p with suid := p.suid.enter }) = _
  rw [hl]
  rfl

theorem balanced_self (u : Suid) : Balanced u u := ⟨Nat.add_comm _ _, rfl⟩

/-- Where the privileges are raised and not dropped, the calls are not balanced. -/
theorem not_balanced_enter (u : Suid) : ¬Balanced u u.enter := by
  rintro ⟨hc, -⟩
  rw [Suid.enter] at hc
  simp only at hc
  omega

theorem ensures_suidEnter (u : Suid) :
    Ensures (HasSuid u) suidEnter fun _ ↦ HasSuid u.enter :=
  ensures_modify fun _ hp ↦ congrArg Suid.enter hp

theorem ensures_suidLeave (u : Suid) :
    Ensures (HasSuid u) suidLeave fun _ p ↦ u.leave = some p.suid := by
  intro p hp a p' hr
  rw [HasSuid] at hp
  change (orExit p.suid.leave >>= fun suid ↦ set { p with suid := suid } :
    Prog Process Unit).run p = .ok (a, p') at hr
  rw [hp] at hr
  cases hl : u.leave with
  | none =>
    rw [hl] at hr
    exact absurd hr nofun
  | some v =>
    rw [hl] at hr
    obtain ⟨-, rfl⟩ := Prod.mk.inj (Except.ok.inj hr)
    rfl

theorem run_suidEnter_bind {Result : Type} (f : Unit → Prog Process Result) (p : Process) :
    (suidEnter >>= f).run p = (f ()).run { p with suid := p.suid.enter } := rfl

theorem returns_kvmRead {Value : Type} (answer : Nat → BitVec 64 → Value) (addr : BitVec 64) :
    Returns (kvmRead answer addr) := fun p ↦ ⟨answer p.reads addr, _, rfl⟩

/-- What follows a read runs with its answer, and with one more read made. -/
theorem run_kvmRead_bind {Value Result : Type} (answer : Nat → BitVec 64 → Value)
    (addr : BitVec 64) (f : Value → Prog Process Result) (p : Process) :
    (kvmRead answer addr >>= f).run p =
      (f (answer p.reads addr)).run { p with reads := p.reads + 1 } := rfl

/-- To read the kernel changes neither. -/
theorem ensures_kvmRead {Value : Type} (answer : Nat → BitVec 64 → Value) (addr : BitVec 64)
    (u : Suid) : Ensures (HasSuid u) (kvmRead answer addr) fun _ ↦ HasSuid u := by
  intro p hp a p' hr
  obtain ⟨-, rfl⟩ := Prod.mk.inj (Except.ok.inj hr)
  exact hp

end

end LibGTop.Bsd
