import LibGTop.Base.Credentials

/-!
# The privileges of the two servers

The switch of `main` in `src/daemon/gnuserv.c:535–560`, and the set-id server:
`main` (`src/daemon/server.c:36–102`), `glibtop_open_p`
(`sysdeps/linux/suid_open.c:52–80`, `sysdeps/bsd/open.c:53–94`) and the calls of
`glibtop_suid.h`. The ids that a process has are ids of its namespace.
-/

namespace LibGTop.Daemon

open Base

/-- A user or group id. The value that the calls take for no id is none. -/
abbrev PosixId : Type := { id : BitVec 32 // id ≠ -1 }

/-- The user who may do everything. -/
def rootId : PosixId := ⟨0, by decide⟩

/-- `SERVER_UID`, `src/daemon/server_config.h:3`. -/
def serverUid : PosixId := ⟨99, by decide⟩

/-- `SERVER_GID`, `src/daemon/server_config.h:4`. -/
def serverGid : PosixId := ⟨99, by decide⟩

/-- A file that is executed: its owner when it is set-user-id, its group when it is
set-group-id. -/
structure Executable where
  owner : Option PosixId
  group : Option PosixId
  deriving DecidableEq

/-- The ids of one kind behind `execve`. -/
def executeIds (ids : Ids PosixId) (owner : Option PosixId) : Ids PosixId :=
  ⟨ids.real, owner.getD ids.effective, owner.getD ids.effective⟩

/-- The credentials of a process behind `execve`. -/
def execute (caller : Credentials PosixId) (file : Executable) : Credentials PosixId :=
  { caller with
    uids := executeIds caller.uids file.owner
    gids := executeIds caller.gids file.group }

section

variable (policy : IdPolicy PosixId)

/-- `setreuid`; absent when it fails. -/
def setreuid (ruid euid : PosixId) (p : Credentials PosixId) : Option (Credentials PosixId) :=
  p.call policy (.users (.setre (some ruid) (some euid)))

/-- `setregid`; absent when it fails. -/
def setregid (rgid egid : PosixId) (p : Credentials PosixId) : Option (Credentials PosixId) :=
  p.call policy (.groups (.setre (some rgid) (some egid)))

/-- The switch of the daemon, `src/daemon/gnuserv.c:543–560`; absent when it ends the process. -/
def switchIds (p : Credentials PosixId) : Option (Credentials PosixId) :=
  if p.uids.effective = rootId then
    (setregid policy serverGid serverGid p).bind (setreuid policy serverUid serverUid)
  else setreuid policy p.uids.effective p.uids.effective p

/-- The process is privileged for the two calls that the daemon of root makes. -/
structure MaySwitch (p : Credentials PosixId) : Prop where
  group : policy.privileged p (.groups (.setre (some serverGid) (some serverGid)))
  user : policy.privileged { p with gids := .all serverGid }
    (.users (.setre (some serverUid) (some serverUid)))

theorem setreuid_eq (ruid euid : PosixId) (p : Credentials PosixId) :
    setreuid policy ruid euid p =
      (p.uids.call policy.rule (policy.privileged p (.users (.setre (some ruid) (some euid))))
        (.setre (some ruid) (some euid))).map fun uids ↦ { p with uids := uids } := rfl

theorem setregid_eq (rgid egid : PosixId) (p : Credentials PosixId) :
    setregid policy rgid egid p =
      (p.gids.call policy.rule (policy.privileged p (.groups (.setre (some rgid) (some egid))))
        (.setre (some rgid) (some egid))).map fun gids ↦ { p with gids := gids } := rfl

variable {policy}

/-- The daemon of root has the ids of the server behind the switch, and the groups of root. -/
theorem switchIds_root {p : Credentials PosixId} (h : p.uids.effective = rootId)
    (may : MaySwitch policy p) :
    switchIds policy p = some ⟨.all serverUid, .all serverGid, p.groups⟩ := by
  have hg : setregid policy serverGid serverGid p = some { p with gids := .all serverGid } := by
    rw [setregid_eq, may.group]
    rfl
  rw [switchIds, if_pos h, hg, Option.bind_some, setreuid_eq, may.user]
  rfl

variable (policy)

/-- The daemon of another user has that user for its real one too, and its groups as before. -/
theorem switchIds_user {p : Credentials PosixId} (h : p.uids.effective ≠ rootId)
    (hs : p.uids.saved = p.uids.effective) :
    switchIds policy p = some { p with uids := .all p.uids.effective } := by
  have hc : ∀ privileged, p.uids.call policy.rule privileged
      (.setre (some p.uids.effective) (some p.uids.effective)) =
        some (.all p.uids.effective) := by
    intro privileged
    have hm : p.uids.permits policy.rule
        (.setre (some p.uids.effective) (some p.uids.effective)) := by
      simp [Ids.permits, policy.rule.other_eq hs, Ids.toList]
    simp [Ids.call, hm, Ids.apply, Ids.all]
  rw [switchIds, if_neg h, setreuid_eq, hc]
  rfl

end

/-- A shell of root that is in the groups 0 and 4. -/
def rootShell : Credentials PosixId where
  uids := .all rootId
  gids := .all rootId
  groups := [rootId, ⟨4, by decide⟩]

/-- `struct _glibtop_machine`, `sysdeps/linux/glibtop_machine.h:28–34`. -/
structure Machine where
  uid : PosixId
  euid : PosixId
  gid : PosixId
  egid : PosixId
  deriving DecidableEq

/-- The ids a process would keep in `server->machine`. -/
def Machine.of (p : Credentials PosixId) : Machine :=
  ⟨p.uids.real, p.uids.effective, p.gids.real, p.gids.effective⟩

/-- Which ids the `glibtop_suid.h` of a system exchanges: the user ids (Linux, Solaris, Darwin,
OSF/1) or the group ids (the BSD systems, SunOS 4). -/
inductive Exchange
  | users
  | groups
  deriving DecidableEq, Repr

/-- What the start of the server meets with: `uname` answers, and on AIX says a system that the
server can run on; `glibtop_open_p` opens the kernel data it needs, which is none on Linux; and every
hook of `glibtop_init_p` returns. -/
structure ServerStart where
  uname : Bool
  kernelData : Bool
  hooks : Bool

/-- Nothing keeps the server from its connection. -/
structure ServerStart.Succeeds (start : ServerStart) : Prop where
  uname : start.uname
  kernelData : start.kernelData
  hooks : start.hooks

instance (start : ServerStart) : Decidable start.Succeeds :=
  decidable_of_iff (start.uname ∧ start.kernelData ∧ start.hooks)
    ⟨fun h ↦ ⟨h.1, h.2.1, h.2.2⟩, fun h ↦ ⟨h.uname, h.kernelData, h.hooks⟩⟩

/-- The set-id server: its `server->machine` and its credentials. -/
structure SuidServer where
  machine : Machine
  creds : Credentials PosixId
  deriving DecidableEq

section

variable (policy : IdPolicy PosixId) (exchange : Exchange)

/-- What drops the privileges in `glibtop_open_p` and in `main`; absent when it ends the
process. -/
def dropPrivileges (m : Machine) (p : Credentials PosixId) : Option (Credentials PosixId) :=
  (setreuid policy m.euid m.uid p).bind (setregid policy m.egid m.gid)

/-- `glibtop_open_p`, `sysdeps/linux/suid_open.c:52–80`, `sysdeps/bsd/open.c:53–94`; absent when it
ends the process, as it does where it cannot open the kernel data. -/
def glibtopOpenP (kernelData : Bool) (p : Credentials PosixId) : Option SuidServer :=
  if kernelData then (dropPrivileges policy (.of p) p).map fun q ↦ ⟨.of p, q⟩ else none

/-- `glibtop_init_p`, `sysdeps/linux/suid_open.c:31–49`: a hook may end the process. -/
def glibtopInitP (start : ServerStart) (p : Credentials PosixId) : Option SuidServer :=
  (glibtopOpenP policy start.kernelData p).bind fun s ↦ if start.hooks then some s else none

/-- `main` of the server up to its connection, `src/daemon/server.c:42–97`: it drops the privileges
with the ids it had when it started, behind the `glibtop_init_p` that has. -/
def serverMain (start : ServerStart) (p : Credentials PosixId) : Option SuidServer :=
  if start.uname then
    (glibtopInitP policy start p).bind fun s ↦
      (dropPrivileges policy (.of p) s.creds).map fun q ↦ { s with creds := q }
  else none

/-- The two calls of `glibtop_suid.h`. -/
inductive SuidEvent
  | enter
  | leave
  deriving DecidableEq, Repr

/-- The ids as `glibtop_suid_enter` asks for them and as `glibtop_suid_leave` does. -/
def suidCall (m : Machine) (e : SuidEvent) (p : Credentials PosixId) :
    Option (Credentials PosixId) :=
  match exchange, e with
  | .users, .enter => setreuid policy m.uid m.euid p
  | .users, .leave => setreuid policy m.euid m.uid p
  | .groups, .enter => setregid policy m.gid m.egid p
  | .groups, .leave => setregid policy m.egid m.gid p

/-- `glibtop_suid_enter` and `glibtop_suid_leave`, `sysdeps/linux/glibtop_suid.h:26–37`,
`sysdeps/bsd/glibtop_suid.h:35–42`: only the second one ends the process when its call fails. -/
def SuidServer.step (s : Option SuidServer) (e : SuidEvent) : Option SuidServer :=
  s.bind fun s ↦
    match e with
    | .enter => some { s with creds := (suidCall policy exchange s.machine e s.creds).getD s.creds }
    | .leave => (suidCall policy exchange s.machine e s.creds).map fun q ↦ { s with creds := q }

end

/-- The ids of one kind with the real and the effective one exchanged. -/
def dropped (real effective : PosixId) : Ids PosixId := ⟨effective, real, real⟩

/-- The ids of one kind as the process was started with them. -/
def raised (real effective : PosixId) : Ids PosixId := ⟨real, effective, effective⟩

/-- Where the saved id is the effective one, as behind `execve`. -/
theorem eq_raised {ids : Ids PosixId} (h : ids.saved = ids.effective) :
    ids = raised ids.real ids.effective := by
  obtain ⟨real, effective, saved⟩ := ids
  cases h
  rfl

/-- The credentials of a server whose last call was this one. -/
def Machine.credentials (exchange : Exchange) (m : Machine) (groups : List PosixId)
    (last : SuidEvent) : Credentials PosixId :=
  match exchange, last with
  | .users, .enter => ⟨raised m.uid m.euid, dropped m.gid m.egid, groups⟩
  | .groups, .enter => ⟨dropped m.uid m.euid, raised m.gid m.egid, groups⟩
  | _, .leave => ⟨dropped m.uid m.euid, dropped m.gid m.egid, groups⟩

section

variable (policy : IdPolicy PosixId)

/-- To drop the privileges drops them, also when they are dropped. -/
theorem dropPrivileges_eq (m : Machine) {p : Credentials PosixId}
    (hu : p.uids = raised m.uid m.euid ∨ p.uids = dropped m.uid m.euid)
    (hg : p.gids = raised m.gid m.egid ∨ p.gids = dropped m.gid m.egid) :
    dropPrivileges policy m p =
      some ⟨dropped m.uid m.euid, dropped m.gid m.egid, p.groups⟩ := by
  have hd : ∀ (priv : Bool) (real effective : PosixId) (ids : Ids PosixId),
      ids = raised real effective ∨ ids = dropped real effective →
      ids.call policy.rule priv (.setre (some effective) (some real)) = some (dropped real effective) := by
    rintro priv real effective ids (rfl | rfl)
    · exact Ids.call_exchange priv rfl
    · exact Ids.call_same priv rfl
  rw [dropPrivileges, setreuid_eq, hd _ _ _ _ hu, Option.map_some, Option.bind_some, setregid_eq,
    hd _ _ _ _ hg]
  rfl

/-- The ids that `glibtop_suid_enter` and `glibtop_suid_leave` ask for are given to a process that
has them in either order. -/
theorem suidCall_eq (exchange : Exchange) (m : Machine) (groups : List PosixId)
    (last e : SuidEvent) :
    suidCall policy exchange m e (m.credentials exchange groups last) =
      some (m.credentials exchange groups e) := by
  have hsame {priv : Bool} (real effective : PosixId) (ids : Ids PosixId)
      (h : ids = ⟨real, effective, effective⟩) :
      ids.call policy.rule priv (.setre (some real) (some effective)) = some ids := by
    rw [h]
    exact Ids.call_same priv rfl
  have hswap {priv : Bool} (real effective : PosixId) (ids : Ids PosixId)
      (h : ids = ⟨effective, real, real⟩) :
      ids.call policy.rule priv (.setre (some real) (some effective)) =
        some ⟨real, effective, effective⟩ := by
    rw [h]
    exact Ids.call_exchange priv rfl
  cases exchange <;> cases last <;> cases e <;>
    simp only [suidCall, Machine.credentials, setreuid_eq, setregid_eq]
  · exact congrArg (Option.map _) (hsame m.uid m.euid _ rfl)
  · exact congrArg (Option.map _) (hswap m.euid m.uid _ rfl)
  · exact congrArg (Option.map _) (hswap m.uid m.euid _ rfl)
  · exact congrArg (Option.map _) (hsame m.euid m.uid _ rfl)
  · exact congrArg (Option.map _) (hsame m.gid m.egid _ rfl)
  · exact congrArg (Option.map _) (hswap m.egid m.gid _ rfl)
  · exact congrArg (Option.map _) (hswap m.gid m.egid _ rfl)
  · exact congrArg (Option.map _) (hsame m.egid m.gid _ rfl)

/-- One call of either kind from a state that such a call has left. -/
theorem SuidServer.step_eq (exchange : Exchange) (m : Machine) (groups : List PosixId)
    (last e : SuidEvent) :
    SuidServer.step policy exchange (some ⟨m, m.credentials exchange groups last⟩) e =
      some ⟨m, m.credentials exchange groups e⟩ := by
  rw [SuidServer.step, Option.bind_some]
  cases e <;> simp only [suidCall_eq policy exchange m groups last] <;> rfl

/-- A run of such calls leaves what its last one does. -/
theorem SuidServer.run_eq (exchange : Exchange) (m : Machine) (groups : List PosixId)
    (last : SuidEvent) (events : List SuidEvent) :
    run (SuidServer.step policy exchange) (some ⟨m, m.credentials exchange groups last⟩) events =
      some ⟨m, m.credentials exchange groups (events.getLast?.getD last)⟩ := by
  induction events generalizing last with
  | nil => rfl
  | cons e events ih =>
    rw [run_cons, SuidServer.step_eq, ih, List.getLast?_cons, Option.getD_some]

/-- The server gets to its connection with its privileges dropped, exactly when nothing keeps it from
there. -/
theorem serverMain_eq (exchange : Exchange) (start : ServerStart) {p : Credentials PosixId}
    (hu : p.uids.saved = p.uids.effective) (hg : p.gids.saved = p.gids.effective) :
    serverMain policy start p =
      if start.Succeeds then some ⟨.of p, (Machine.of p).credentials exchange p.groups .leave⟩
      else none := by
  have hd := dropPrivileges_eq policy (Machine.of p) (.inl (eq_raised hu)) (.inl (eq_raised hg))
  have hd' := dropPrivileges_eq policy (Machine.of p)
    (p := ⟨dropped (Machine.of p).uid (Machine.of p).euid,
      dropped (Machine.of p).gid (Machine.of p).egid, p.groups⟩) (.inr rfl) (.inr rfl)
  rw [serverMain, glibtopInitP, glibtopOpenP, hd]
  by_cases hs : start.Succeeds
  · rw [if_pos hs, if_pos hs.uname, if_pos hs.kernelData, Option.map_some, Option.bind_some,
      if_pos hs.hooks, Option.bind_some, hd']
    cases exchange <;> rfl
  · rw [if_neg hs]
    split
    · next huname =>
      split
      · next hkernel =>
        have hhooks : ¬start.hooks := fun hh ↦ hs ⟨huname, hkernel, hh⟩
        rw [Option.map_some, Option.bind_some, if_neg hhooks]
        rfl
      · rfl
    · rfl

end

end LibGTop.Daemon
