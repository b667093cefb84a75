import LibGTop.Daemon.AcceptLoop
import LibGTop.Protocol.Authentication

/-!
# Whom the daemon serves

What holds of the daemon and its children in every order of their steps: a child
serves one connection, whose peer was let in, on what that peer sends behind its
credentials; and the daemon keeps the socket of each, so that it has only so many
to give.
-/

namespace LibGTop.Protocol

open Base Wire Daemon

variable {abi : Abi} {limit : Nat}

/-- The peer may be served: it presents what passes the comparison with the cookie, or it is in the
table of hosts. -/
def Entitled (server : AuthServer) (a : Arrival) : Prop :=
  (∃ data, presented a.arrays a.sent = some data ∧ server.cookieMatches data) ∨
    a.hostAddr ∈ server.permittedHosts

theorem entitled_of_admitted {server : AuthServer} {a : Arrival}
    (h : (a.verdict server).decision ≠ .refused) : Entitled server a := by
  have hd := (a.permitted_sent server h).1
  cases he : (permitted server a.hostAddr a.arrays a.sent).decision with
  | cookie => exact .inl ((permitted_cookie_iff server a.hostAddr a.arrays a.sent).mp he)
  | host => exact .inr (permitted_host he)
  | refused => exact absurd (hd.symm.trans he) h

/-- In every run of the daemon and its children each connection that was granted has exactly one
child, which serves it, has ended or was collected; its peer is entitled; and the child that serves
it has read what the peer sends behind its credentials, from the first byte on, and nothing else. -/
theorem granted_served_once (server : AuthServer) (h : Host abi) (open_ : DescriptorTable limit)
    (events : List LoopEvent) :
    let s := run (DaemonState.step server h) (DaemonState.start abi open_) events
    (s.children.map Child.serial ++ (s.zombies ++ s.reaped)).Perm (List.range s.grants.length) ∧
      (∀ g ∈ s.grants, Entitled server g.arrival) ∧
      ∀ c ∈ s.children, ∃ g, s.grants[c.serial]? = some g ∧ ∃ reads,
        c.conn = run (Connection.step .parent h)
          (.fresh abi (permitted server g.arrival.hostAddr g.arrival.arrays g.arrival.sent).rest)
          reads := by
  intro s
  have hs := accounted_run server h open_ events
  refine ⟨hs.serials, fun g hg ↦ entitled_of_admitted (hs.admitted g hg), fun c hc ↦ ?_⟩
  obtain ⟨g, hg, reads, hr⟩ := hs.serving c hc
  refine ⟨g, hg, reads, ?_⟩
  rw [(g.arrival.permitted_sent server (hs.admitted g (List.mem_of_getElem? hg))).2]
  exact hr

/-- The daemon never closes the socket of a connection that it has granted: in every run that has
not ended it, what it has open is what it started with and one socket for each of them, also for
those whose child has ended. So it grants no more connections over its whole life than it had
descriptors left, and the one after these ends it. The socket of the system log, which `openlog`
opens with the first message only, is not counted. -/
theorem sockets_never_closed (server : AuthServer) (h : Host abi) (open_ : DescriptorTable limit)
    (events : List LoopEvent) :
    let s := run (DaemonState.step server h) (DaemonState.start abi open_) events
    (s.phase ≠ .exited → s.descriptors.used = open_.used ++ s.grants.map Grant.socket) ∧
      s.grants.length ≤ limit - open_.used.length ∧
      (s.phase = .accepting → s.grants.length = limit - open_.used.length →
        ∀ a forked, (s.step server h (.accepted a forked)).phase = .exited) := by
  intro s
  have hs := accounted_run server h open_ events
  have hb : open_.used.length + s.grants.length ≤ limit := hs.bounded
  refine ⟨hs.sockets, by omega, fun hp hl a forked ↦ ?_⟩
  have hu : s.descriptors.used.length = open_.used.length + s.grants.length := by
    have hu : s.descriptors.used = open_.used ++ s.grants.map Grant.socket :=
      hs.sockets (hp ▸ nofun)
    rw [hu, List.length_append, List.length_map]
  have hn : s.descriptors.allocate = none :=
    s.descriptors.allocate_eq_none_iff.mpr (by omega)
  rw [DaemonState.step, if_pos hp, DaemonState.request, hn]

end LibGTop.Protocol
