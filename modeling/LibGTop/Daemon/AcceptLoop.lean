import LibGTop.Base.DescriptorTable
import LibGTop.Daemon.Connection
import LibGTop.Daemon.Handshake

/-!
# The loop of the daemon

The `while` loop of `main` (`src/daemon/gnuserv.c:627–674`) with
`handle_internet_request` (`src/daemon/gnuserv.c:388–452`) as a state machine: the
parent collects children that have ended, waits for a connection, checks it and
forks, while its children serve theirs in any order. The kernel decides how each
call ends.
-/

namespace LibGTop.Daemon

open Base Wire

/-- A connection as it comes in: its peer, the arrays of `permitted` as the stack leaves them, all
bytes the peer sends on it, and how many of them its authentication can get before the peer closes
it, the time is up or a signal comes. -/
structure Arrival where
  hostAddr : BitVec 64
  arrays : Arrays
  sent : List UInt8
  arrived : Nat

/-- What `permitted` says to a connection. -/
def Arrival.verdict (server : AuthServer) (a : Arrival) : Verdict :=
  permitted server a.hostAddr a.arrays (a.sent.take a.arrived)

/-- What its authentication leaves of a connection to the child. -/
def Arrival.behind (server : AuthServer) (a : Arrival) : List UInt8 :=
  (a.verdict server).rest ++ a.sent.drop a.arrived

/-- A connection that was granted, with the socket `accept` gave for it. -/
structure Grant where
  socket : Nat
  arrival : Arrival

/-- A child in `handle_parent_connection`; `serial` is the number of its connection. -/
structure Child (abi : Abi) where
  serial : Nat
  conn : Connection abi

/-- Where the loop is: in front of `wait3`, of `select` or of `accept`, or behind `exit`. -/
inductive LoopPhase
  | reaping
  | selecting
  | accepting
  | exited
  deriving DecidableEq, Repr

/-- How `select` ends. -/
inductive Selected
  | ready
  | interrupted
  | failed
  deriving DecidableEq, Repr

/-- The daemon with its children: those that serve, those that have ended and those it has
collected, by the numbers of their connections. -/
structure DaemonState (abi : Abi) (limit : Nat) where
  phase : LoopPhase
  descriptors : DescriptorTable limit
  children : List (Child abi)
  zombies : List Nat
  reaped : List Nat
  grants : List Grant

/-- What the kernel does next: it ends a call of the parent, or a `read` of a child. `wait3`
returns the child that is named when that one has ended; it may also fail with another error than
that there is no child. -/
inductive LoopEvent
  | waited (serial : Nat)
  | waitFailed
  | selected (result : Selected)
  | accepted (a : Arrival) (forked : Bool)
  | acceptFailed
  | child (serial : Nat) (e : ReadEvent)

variable {abi : Abi} {limit : Nat}

/-- `handle_parent_connection` has come back or has ended the process. -/
def Phase.hasEnded : Phase → Bool
  | .returned | .exited => true
  | _ => false

/-- One `read` of a child; behind the end of its connection it calls `_exit`. -/
def stepChildren (h : Host abi) (serial : Nat) (e : ReadEvent) :
    List (Child abi) → List (Child abi) × List Nat
  | [] => ([], [])
  | c :: children =>
    if c.serial = serial then
      if (c.conn.step .parent h e).phase.hasEnded then (children, [serial])
      else ({ c with conn := c.conn.step .parent h e } :: children, [])
    else (c :: (stepChildren h serial e children).1, (stepChildren h serial e children).2)

/-- The daemon before its loop, with what it has open then, the listening socket included. -/
def DaemonState.start (abi : Abi) (open_ : DescriptorTable limit) : DaemonState abi limit :=
  ⟨.reaping, open_, [], [], [], []⟩

/-- `wait3`, `src/daemon/gnuserv.c:631–644`: behind a child it is called again; without one that
has ended the loop is left. -/
def DaemonState.collect (s : DaemonState abi limit) (serial : Nat) : DaemonState abi limit :=
  match s.zombies with
  | [] => { s with phase := .selecting }
  | first :: _ =>
    let found := if s.zombies.contains serial then serial else first
    { s with
      zombies := s.zombies.erase found
      reaped := s.reaped ++ [found] }

/-- `handle_internet_request`, `src/daemon/gnuserv.c:388–452`, in the parent. The socket is closed
when the connection is refused, and only then. -/
def DaemonState.request (server : AuthServer) (s : DaemonState abi limit) (a : Arrival)
    (forked : Bool) : DaemonState abi limit :=
  match s.descriptors.allocate with
  | none => { s with phase := .exited }
  | some (socket, descriptors) =>
    if (a.verdict server).decision = .refused then
      { s with
        phase := .reaping
        descriptors := descriptors.release socket }
    else if forked then
      { s with
        phase := .reaping
        descriptors := descriptors
        children := s.children ++ [⟨s.grants.length, .fresh abi (a.behind server)⟩]
        grants := s.grants ++ [⟨socket, a⟩] }
    else
      { s with
        phase := .exited
        descriptors := descriptors }

/-- Where the loop goes on behind `select`. -/
def Selected.phase : Selected → LoopPhase
  | ready => .accepting
  | interrupted => .reaping
  | failed => .exited

/-- One step of the daemon or of a child; a call the daemon is not in does not end. -/
def DaemonState.step (server : AuthServer) (h : Host abi) (s : DaemonState abi limit) :
    LoopEvent → DaemonState abi limit
  | .waited serial => if s.phase = .reaping then s.collect serial else s
  | .waitFailed => s
  | .selected result => if s.phase = .selecting then { s with phase := result.phase } else s
  | .accepted a forked => if s.phase = .accepting then s.request server a forked else s
  | .acceptFailed => if s.phase = .accepting then { s with phase := .exited } else s
  | .child serial e =>
    { s with
      children := (stepChildren h serial e s.children).1
      zombies := s.zombies ++ (stepChildren h serial e s.children).2 }

section Handshake

variable {oneLine : Bool} {max : Nat} {stream more : List UInt8}

private theorem readBytes_append {bytes rest : List UInt8}
    (h : readBytes oneLine max stream = some (bytes, rest)) :
    readBytes oneLine max (stream ++ more) = some (bytes, rest ++ more) := by
  induction stream generalizing max bytes with
  | nil => exact absurd h (by simp [readBytes])
  | cons c stream ih =>
    rw [readBytes] at h
    rw [List.cons_append, readBytes]
    split
    · next hc =>
      rw [if_pos hc] at h
      obtain ⟨⟨bytes', rest'⟩, hr, he⟩ := Option.map_eq_some_iff.mp h
      obtain ⟨rfl, rfl⟩ := Prod.mk.inj he
      rw [ih hr]
      rfl
    · next hc =>
      rw [if_neg hc] at h
      obtain ⟨rfl, rfl⟩ := Prod.mk.inj (Option.some.inj h)
      rfl

/-- What `timed_read` has read does not depend on what follows it. -/
theorem timedRead_append {line rest : List UInt8}
    (h : timedRead oneLine max stream = some (line, rest)) :
    timedRead oneLine max (stream ++ more) = some (line, rest ++ more) := by
  obtain ⟨⟨bytes, rest'⟩, hr, he⟩ := Option.map_eq_some_iff.mp h
  obtain ⟨rfl, rfl⟩ := Prod.mk.inj he
  rw [timedRead, readBytes_append hr]
  rfl

/-- Who is let in on the first bytes is let in on all of them, and what is left is the rest of
these. -/
theorem permitted_append (server : AuthServer) (hostAddr : BitVec 64) (arrays : Arrays)
    (more : List UInt8) (h : (permitted server hostAddr arrays stream).decision ≠ .refused) :
    permitted server hostAddr arrays (stream ++ more) =
      { permitted server hostAddr arrays stream with
        rest := (permitted server hostAddr arrays stream).rest ++ more } := by
  revert h
  rw [permitted, permitted]
  cases hn : timedRead true authNamesz stream with
  | none => exact fun h ↦ absurd rfl h
  | some name =>
    rw [timedRead_append hn]
    simp only
    split
    · exact fun h ↦ absurd rfl h
    · split
      · cases hl : timedRead true 10 name.2 with
        | none => exact fun h ↦ absurd rfl h
        | some line =>
          rw [timedRead_append hl]
          simp only
          split
          · exact fun h ↦ absurd rfl h
          · cases hd : timedRead false (atoi (cString (overlay arrays.buf line.1))).toNat
                line.2 with
            | none => exact fun h ↦ absurd rfl h
            | some data =>
              rw [timedRead_append hd]
              simp only
              split <;> exact fun _ ↦ rfl
      · exact fun _ ↦ rfl

end Handshake

/-- A connection that is granted is granted on all that its peer sends, and its child is left what
stands there behind the credentials. -/
theorem Arrival.permitted_sent (server : AuthServer) {a : Arrival}
    (h : (a.verdict server).decision ≠ .refused) :
    (permitted server a.hostAddr a.arrays a.sent).decision = (a.verdict server).decision ∧
      (permitted server a.hostAddr a.arrays a.sent).rest = a.behind server := by
  have hp := permitted_append server a.hostAddr a.arrays (a.sent.drop a.arrived) h
  rw [List.take_append_drop] at hp
  rw [hp]
  exact ⟨rfl, rfl⟩

/-- What one step can do to the daemon. -/
inductive LoopTransition (server : AuthServer) (h : Host abi) (s : DaemonState abi limit) :
    DaemonState abi limit → Prop
  | idle : LoopTransition server h s s
  | moved (phase : LoopPhase) (alive : s.phase ≠ .exited) :
      LoopTransition server h s { s with phase := phase }
  | child (serial : Nat) (e : ReadEvent) :
      LoopTransition server h s
        { s with
          children := (stepChildren h serial e s.children).1
          zombies := s.zombies ++ (stepChildren h serial e s.children).2 }
  | collected (found : Nat) (zombie : found ∈ s.zombies) :
      LoopTransition server h s
        { s with
          zombies := s.zombies.erase found
          reaped := s.reaped ++ [found] }
  | granted (a : Arrival) (socket : Nat) (descriptors : DescriptorTable limit)
      (alive : s.phase ≠ .exited)
      (opened : s.descriptors.allocate = some (socket, descriptors))
      (admitted : (a.verdict server).decision ≠ .refused) :
      LoopTransition server h s
        { s with
          phase := .reaping
          descriptors := descriptors
          children := s.children ++ [⟨s.grants.length, .fresh abi (a.behind server)⟩]
          grants := s.grants ++ [⟨socket, a⟩] }
  | unforked (descriptors : DescriptorTable limit) :
      LoopTransition server h s
        { s with
          phase := .exited
          descriptors := descriptors }

theorem DaemonState.collect_transition (server : AuthServer) (h : Host abi)
    (s : DaemonState abi limit) (serial : Nat) (alive : s.phase ≠ .exited) :
    LoopTransition server h s (s.collect serial) := by
  rw [collect]
  split
  · exact .moved .selecting alive
  · next first rest hz =>
    apply LoopTransition.collected
    split
    · next hc => exact List.contains_iff_mem.mp hc
    · rw [hz]
      exact List.mem_cons_self

/-- A refused connection is closed, so it leaves nothing. -/
theorem DaemonState.request_transition (server : AuthServer) (h : Host abi)
    (s : DaemonState abi limit) (a : Arrival) (forked : Bool) (alive : s.phase ≠ .exited) :
    LoopTransition server h s (s.request server a forked) := by
  rw [request]
  cases ha : s.descriptors.allocate with
  | none => exact .moved .exited alive
  | some opened =>
    obtain ⟨socket, descriptors⟩ := opened
    simp only
    split
    · rw [DescriptorTable.release_allocate ha]
      exact .moved .reaping alive
    · next hd =>
      split
      · exact .granted a socket descriptors alive ha hd
      · exact .unforked descriptors

/-- Every step is one of these. -/
theorem DaemonState.step_transition (server : AuthServer) (h : Host abi)
    (s : DaemonState abi limit) (e : LoopEvent) :
    LoopTransition server h s (s.step server h e) := by
  have halive : ∀ p, s.phase = p → p ≠ .exited → s.phase ≠ .exited := by
    rintro p rfl hp
    exact hp
  cases e with
  | waited serial =>
    rw [step]
    split
    · next hp => exact s.collect_transition server h serial (halive _ hp nofun)
    · exact .idle
  | waitFailed => exact .idle
  | selected result =>
    rw [step]
    split
    · next hp => exact .moved result.phase (halive _ hp nofun)
    · exact .idle
  | accepted a forked =>
    rw [step]
    split
    · next hp => exact s.request_transition server h a forked (halive _ hp nofun)
    · exact .idle
  | acceptFailed =>
    rw [step]
    split
    · next hp => exact .moved .exited (halive _ hp nofun)
    · exact .idle
  | child serial e => exact .child serial e

/-- The children that go on and the one that ends are those there were. -/
theorem serials_stepChildren (h : Host abi) (serial : Nat) (e : ReadEvent)
    (children : List (Child abi)) :
    ((stepChildren h serial e children).1.map Child.serial ++
      (stepChildren h serial e children).2).Perm (children.map Child.serial) := by
  induction children with
  | nil => exact List.Perm.refl _
  | cons c children ih =>
    rw [stepChildren]
    split
    · next hc =>
      split
      · rw [List.map_cons, hc]
        exact List.perm_append_singleton _ _
      · rw [List.append_nil]
        exact List.Perm.refl _
    · exact ih.cons _

/-- A child that goes on has made a step, or none. -/
theorem mem_stepChildren {h : Host abi} {serial : Nat} {e : ReadEvent}
    {children : List (Child abi)} {c : Child abi}
    (hc : c ∈ (stepChildren h serial e children).1) :
    ∃ c' ∈ children, c.serial = c'.serial ∧
      (c.conn = c'.conn ∨ c.conn = c'.conn.step .parent h e) := by
  induction children with
  | nil => exact absurd hc List.not_mem_nil
  | cons c' children ih =>
    have htail : ∀ d ∈ children, d.serial = c.serial → d.conn = c.conn →
        ∃ d ∈ c' :: children, c.serial = d.serial ∧
          (c.conn = d.conn ∨ c.conn = d.conn.step .parent h e) := fun d hd hs hcn ↦
      ⟨d, List.mem_cons_of_mem _ hd, hs.symm, .inl hcn.symm⟩
    rw [stepChildren] at hc
    split at hc
    · split at hc
      · exact htail c hc rfl rfl
      · obtain rfl | hc := List.mem_cons.mp hc
        · exact ⟨c', List.mem_cons_self, rfl, .inr rfl⟩
        · exact htail c hc rfl rfl
    · obtain rfl | hc := List.mem_cons.mp hc
      · exact ⟨c, List.mem_cons_self, rfl, .inl rfl⟩
      · obtain ⟨d, hd, hs, hcn⟩ := ih hc
        exact ⟨d, List.mem_cons_of_mem _ hd, hs, hcn⟩

/-- The child serves the connection with its number: it is at a point of its loop on what stands
behind the credentials. -/
def Child.Serves (server : AuthServer) (h : Host abi) (grants : List Grant) (c : Child abi) :
    Prop :=
  ∃ g, grants[c.serial]? = some g ∧ ∃ events,
    c.conn = run (Connection.step .parent h) (.fresh abi (g.arrival.behind server)) events

/-- The daemon has one child for each connection that it has granted, and its sockets are open. -/
structure Accounted (server : AuthServer) (h : Host abi) (base : List Nat)
    (s : DaemonState abi limit) : Prop where
  serials : (s.children.map Child.serial ++ (s.zombies ++ s.reaped)).Perm
    (List.range s.grants.length)
  serving : ∀ c ∈ s.children, c.Serves server h s.grants
  admitted : ∀ g ∈ s.grants, (g.arrival.verdict server).decision ≠ .refused
  sockets : s.phase ≠ .exited → s.descriptors.used = base ++ s.grants.map Grant.socket
  bounded : base.length + s.grants.length ≤ limit

theorem accounted_start (server : AuthServer) (h : Host abi) (open_ : DescriptorTable limit) :
    Accounted server h open_.used (DaemonState.start abi open_) :=
  ⟨List.Perm.refl _, fun _ hc ↦ absurd hc List.not_mem_nil,
    fun _ hg ↦ absurd hg List.not_mem_nil, fun _ ↦ (List.append_nil _).symm, open_.length_le⟩

/-- Every step keeps the daemon so. -/
theorem accounted_step {server : AuthServer} {h : Host abi} {base : List Nat}
    {s s' : DaemonState abi limit} (ht : LoopTransition server h s s')
    (hs : Accounted server h base s) : Accounted server h base s' := by
  cases ht with
  | idle => exact hs
  | moved phase alive =>
    exact ⟨hs.serials, hs.serving, hs.admitted, fun _ ↦ hs.sockets alive, hs.bounded⟩
  | child serial e =>
    refine ⟨?_, fun c hc ↦ ?_, hs.admitted, hs.sockets, hs.bounded⟩
    · have hp := serials_stepChildren h serial e s.children
      refine List.Perm.trans ?_ hs.serials
      rw [List.append_assoc, ← List.append_assoc]
      refine (hp.append_right (s.zombies ++ s.reaped)).symm.trans ?_ |>.symm
      rw [List.append_assoc, List.append_assoc]
      refine List.Perm.append_left _ ?_
      rw [← List.append_assoc, ← List.append_assoc]
      exact List.perm_append_comm.append_right _
    · obtain ⟨c', hm, hserial, hconn⟩ := mem_stepChildren hc
      obtain ⟨g, hg, events, he⟩ := hs.serving c' hm
      refine ⟨g, hserial ▸ hg, ?_⟩
      obtain hconn | hconn := hconn
      · exact ⟨events, hconn.trans he⟩
      · refine ⟨events ++ [e], ?_⟩
        rw [hconn, he, run_append]
        rfl
  | collected found zombie =>
    refine ⟨?_, hs.serving, hs.admitted, hs.sockets, hs.bounded⟩
    refine List.Perm.trans (List.Perm.append_left _ ?_) hs.serials
    have hz := List.perm_cons_erase zombie
    refine List.Perm.trans ?_ (hz.symm.append_right s.reaped)
    rw [← List.append_assoc]
    exact List.perm_append_singleton _ _
  | granted a socket descriptors alive opened admitted =>
    obtain ⟨-, hu⟩ := DescriptorTable.allocate_some opened
    have hsock : descriptors.used =
        base ++ (s.grants ++ [(⟨socket, a⟩ : Grant)]).map Grant.socket := by
      rw [hu, hs.sockets alive, List.map_append, List.append_assoc]
      rfl
    refine ⟨?_, ?_, ?_, fun _ ↦ hsock, ?_⟩
    · rw [List.map_append, List.length_append, List.length_singleton, List.range_succ,
        List.append_assoc]
      refine List.Perm.trans ?_ (hs.serials.append_right _)
      rw [List.append_assoc]
      exact List.Perm.append_left _ List.perm_append_comm
    · intro c hc
      obtain hc | hc := List.mem_append.mp hc
      · obtain ⟨g, hg, he⟩ := hs.serving c hc
        refine ⟨g, ?_, he⟩
        rw [List.getElem?_append_left (List.getElem?_eq_some_iff.mp hg).1]
        exact hg
      · rw [List.mem_singleton.mp hc]
        exact ⟨⟨socket, a⟩, by simp, [], rfl⟩
    · intro g hg
      obtain hg | hg := List.mem_append.mp hg
      · exact hs.admitted g hg
      · rw [List.mem_singleton.mp hg]
        exact admitted
    · have hl := descriptors.length_le
      rw [hsock, List.length_append, List.length_map] at hl
      exact hl
  | unforked descriptors =>
    exact ⟨hs.serials, hs.serving, hs.admitted, fun hp ↦ absurd rfl hp, hs.bounded⟩

theorem accounted_run (server : AuthServer) (h : Host abi) (open_ : DescriptorTable limit)
    (events : List LoopEvent) :
    Accounted server h open_.used
      (run (DaemonState.step server h) (DaemonState.start abi open_) events) :=
  run_invariant _ _ (fun s e hs ↦ accounted_step (s.step_transition server h e) hs) _ events
    (accounted_start server h open_)

end LibGTop.Daemon
