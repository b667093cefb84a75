import LibGTop.Client.Call
import LibGTop.Daemon.Connection

/-!
# The payload of a request

A call puts a payload of at most `_GLIBTOP_PARAM_SIZE` bytes into the command. A
longer one it only announces: `glibtop_call_l` writes the command and goes on to
read the response, so the bytes the handler waits for never follow.
-/

namespace LibGTop.Protocol

open Base Wire Client Daemon

variable {abi : Abi}

/-- The content of `parameter` with a payload at its start. -/
def parameterOf (abi : Abi) (payload : List UInt8) : List UInt8 :=
  payload ++ zeros (abi.bufsiz - payload.length)

/-- The loop, standing at a command and reading whatever the reads cut, takes the payload of the
request out of the bytes the call wrote, and no other bytes. -/
def RoundTrips (handler : Handler) (h : Host abi) (q : Request) : Prop :=
  ∀ (conn : Connection abi) (rest : List UInt8) (extras : List Nat),
    conn.phase = .header [] → conn.pending = q.wire abi ++ rest →
    sizeofCommand + q.sendBuf.length ≤ extras.length →
    ∃ r more, (run (Connection.step handler h) conn (delivering extras)).log =
        conn.log ++ r :: more ∧
      r.cmnd.command.toNat = q.cmnd.number ∧ r.parameter = parameterOf abi q.sendBuf ∧
      r.start = conn.consumed ∧ r.stop = conn.consumed + (q.wire abi).length

/-- The inline bytes of a request are its payload. -/
theorem inlineBytes_header (beyond : Nat → UInt8) (q : Request)
    (hl : q.sendBuf.length ≤ glibtopParamSize) :
    inlineBytes beyond q.header q.header.size.toNat = q.sendBuf := by
  obtain ⟨-, hs, hp⟩ := q.header_of_le hl
  rw [inlineBytes, hs, hp, Nat.sub_eq_zero_of_le hl, List.take_left]
  exact List.append_nil _

/-- A request whose payload is inside its command is handled at once, with that payload. -/
theorem decode_request_of_le (handler : Handler) (h : Host abi) (conn : Connection abi)
    (q : Request) (hl : q.sendBuf.length ≤ glibtopParamSize) :
    ∃ conn₁ : Connection abi, conn₁.log = conn.log ∧ conn₁.pending = conn.pending ∧
      conn₁.consumed = conn.consumed ∧
      conn.decode handler h (q.header.store abi.order) =
        conn₁.execute handler h (conn.consumed - sizeofCommand) q.header []
          (parameterOf abi q.sendBuf) := by
  obtain ⟨hd, hs, -⟩ := q.header_of_le hl
  have hb := abi.bufsiz_ge
  have hz : q.header.dataSize.toNat = 0 := by rw [hd]; rfl
  simp only [glibtopParamSize] at hl
  generalize hc : conn.decode handler h _ = conn'
  cases Connection.decode_store hc with
  | oversize large => omega
  | payload some => exact absurd hd some
  | inline =>
    rw [inlineBytes_header _ q hl, overlay_zeros]
    exact ⟨(conn.enter _ _).access _, rfl, rfl, rfl, rfl⟩
  | bare _ none' =>
    have hn : q.sendBuf = [] := by
      apply List.length_eq_zero_iff.mp
      rw [← hs, none']
      rfl
    rw [hn]
    exact ⟨conn.enter _ _, rfl, rfl, rfl, rfl⟩

/-- A request that only announces its payload is not handled: the loop waits for the payload or
has ended. -/
theorem decode_request_of_gt (handler : Handler) (h : Host abi) (conn : Connection abi)
    (q : Request) (hl : glibtopParamSize < q.sendBuf.length) :
    let conn' := conn.decode handler h (q.header.store abi.order)
    conn'.log = conn.log ∧ conn'.pending = conn.pending := by
  intro conn'
  obtain ⟨-, hd⟩ := q.header_of_gt hl
  have hn : q.header.dataSize ≠ 0 := by
    intro hz
    rw [hz] at hd
    simp [← hd] at hl
  generalize hc : conn' = conn''
  cases Connection.decode_store hc with
  | oversize => exact ⟨rfl, rfl⟩
  | payload => exact ⟨rfl, rfl⟩
  | inline none => exact absurd none hn
  | bare none => exact absurd none hn

/-- A payload that is only announced never reaches `parameter`: on the bytes of the call alone
the loop handles nothing. -/
theorem not_roundTrips_of_gt (handler : Handler) (h : Host abi) (q : Request)
    (hl : glibtopParamSize < q.sendBuf.length) : ¬ RoundTrips handler h q := by
  intro hr
  let conn := Connection.fresh abi (q.header.store abi.order ++ [])
  let extras := List.replicate (sizeofCommand + q.sendBuf.length) 0
  obtain ⟨r, more, hlog, -⟩ := hr conn [] extras rfl (by rw [q.wire_eq]; rfl)
    (by simp [extras])
  obtain ⟨left, -, hrun⟩ := conn.run_command handler h q.header extras rfl rfl (by simp [extras])
  obtain ⟨hn, hp⟩ := decode_request_of_gt handler h (conn.advance []) q hl
  rw [hrun, Connection.run_of_pending_nil _ _ _ hp, hn] at hlog
  simp [conn, Connection.fresh] at hlog

/-- A payload inside the command is handled as soon as the command is read. -/
theorem roundTrips_of_le (handler : Handler) (h : Host abi) (q : Request)
    (hl : q.sendBuf.length ≤ glibtopParamSize) : RoundTrips handler h q := by
  intro conn rest extras phase pending enough
  rw [q.wire_eq] at pending
  obtain ⟨left, -, hrun⟩ := conn.run_command handler h q.header extras phase pending (by omega)
  obtain ⟨conn₁, hlog, -, hcons, hd⟩ := decode_request_of_le handler h (conn.advance rest) q hl
  rw [hrun, hd]
  obtain ⟨more, hm⟩ := Connection.log_prefix_run handler h _ (delivering left)
    (conn₁.valid_execute handler h ((conn.advance rest).consumed - sizeofCommand) q.header []
      (parameterOf abi q.sendBuf))
  rw [Connection.log_execute] at hm
  refine ⟨_, more, by rw [← hm, hlog, List.append_assoc]; rfl, q.toNat_header_command, rfl, ?_, ?_⟩
  all_goals simp [Connection.advance, pending, hcons, q.length_wire]

/-- Exactly when a payload makes the way from `glibtop_call_l` into the handler's `parameter`: when
it is carried inside the command. -/
theorem payload_round_trip_iff (handler : Handler) (h : Host abi) (q : Request) :
    RoundTrips handler h q ↔ q.sendBuf.length ≤ glibtopParamSize := by
  constructor
  · intro hr
    by_contra hl
    exact not_roundTrips_of_gt handler h q (Nat.not_le.mp hl) hr
  · exact roundTrips_of_le handler h q

/-- A request for the load of an interface with a name of 16 bytes. -/
def longNameRequest : Request where
  cmnd := .get .netload
  sendBuf := List.replicate 16 97 ++ [0]
  sendBuf_lt := by decide
  recvSize := some 136

/-- Its payload is lost. -/
theorem long_name_lost : ¬ RoundTrips .parent (idleHost linuxAbi) longNameRequest :=
  not_roundTrips_of_gt .parent (idleHost linuxAbi) longNameRequest (by decide)

end LibGTop.Protocol
