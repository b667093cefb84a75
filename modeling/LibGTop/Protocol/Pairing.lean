import LibGTop.Client.Stub
import LibGTop.Protocol.Payload

/-!
# Requests and replies

A client and a handler on one connection. The client makes its calls one after
the other and reads one reply for each; the handler reads the commands in
whatever pieces the descriptor delivers them. Their steps interleave freely.
Replies are numbered by the command that produced them, so that pairing can be
stated: the reply read for a call is the one its command produced, and no caller
waits for a reply that does not come.
-/

namespace LibGTop.Protocol

open Base Wire Client Daemon

variable {abi : Abi}

/-- The replies of a handler's commands, each with the number of its command. -/
def replies (log : List (Handled abi)) : List (Nat × Reply abi) :=
  log.zipIdx.flatMap fun (r, k) ↦ r.reaction.replies.map fun reply ↦ (k, reply)

/-- A client with the calls it has still to make, whether it is reading a reply, the replies it
has read, and the handler at the other end. -/
structure Session (abi : Abi) where
  todo : List Call
  waiting : Bool
  received : List (Nat × Reply abi)
  conn : Connection abi

/-- Whose step is next; the handler's `read` delivers at most `extra + 1` bytes. -/
inductive SessionEvent
  | client
  | handler (extra : Nat)
  deriving DecidableEq, Repr

/-- The session before the first call. -/
def Session.start (abi : Abi) (calls : List Call) : Session abi :=
  ⟨calls, false, [], Connection.fresh abi []⟩

/-- The client writes the next request, or reads the next reply if it is there; `sizes` are the
sizes of the features' structures. -/
def Session.clientStep (sizes : Feature → Nat) (s : Session abi) : Session abi :=
  if s.waiting then
    match (replies s.conn.log)[s.received.length]? with
    | some reply => { s with waiting := false, received := s.received ++ [reply] }
    | none => s
  else
    match s.todo with
    | [] => s
    | c :: todo =>
      let request := c.request abi (sizes c.feature)
      { s with
        todo := todo
        waiting := true
        conn := { s.conn with pending := s.conn.pending ++ request.wire abi } }

/-- One step of the session. -/
def Session.step (handler : Handler) (h : Host abi) (sizes : Feature → Nat) (s : Session abi) :
    SessionEvent → Session abi
  | .client => s.clientStep sizes
  | .handler extra => { s with conn := s.conn.step handler h (.ready extra) }

/-- Requests and replies pair up in a state of the session. -/
structure Paired (handler : Handler) (h : Host abi) (sizes : Feature → Nat) (calls : List Call)
    (s : Session abi) : Prop where
  /-- The commands handled are those of the first calls, in their order. -/
  commands : s.conn.log.map Handled.cmnd <+:
    calls.map fun c ↦ (c.request abi (sizes c.feature)).header
  /-- Each of them has produced one reply, in their order. -/
  answered : (replies s.conn.log).map Prod.fst = List.range s.conn.log.length
  /-- The handler has not ended. -/
  alive : ¬ s.conn.phase.Ended
  /-- The reply read for a call is the one its command produced. -/
  received : s.received.map Prod.fst = List.range s.received.length
  /-- A client that waits for a reply finds it once the handler has read the command. -/
  served : s.waiting = true → ∀ extras, sizeofCommand ≤ extras.length →
    s.received.length <
      (replies (run (Connection.step handler h) s.conn (delivering extras)).log).length

/-- A call whose command the handler answers: it serves the feature, and the payload is inside
the command. -/
def Answerable (handler : Handler) (order : ByteOrder) (c : Call) : Prop :=
  handler.Serves c.feature ∧ (c.sendBuf order).length ≤ glibtopParamSize

/-- A call whose getter, behind so many handled commands, returns. -/
def Returns (handler : Handler) (h : Host abi) (now : Nat) (c : Call) : Prop :=
  (h.getter now c.feature
    (handler.args h now (parameterOf abi (c.sendBuf abi.order)) c.feature)).isSome

/-- A call that is answered behind so many handled commands. -/
def Answered (handler : Handler) (h : Host abi) (now : Nat) (c : Call) : Prop :=
  Answerable handler abi.order c ∧ Returns handler h now c

theorem replies_append (log : List (Handled abi)) (r : Handled abi) :
    replies (log ++ [r]) =
      replies log ++ r.reaction.replies.map fun reply ↦ (log.length, reply) := by
  simp [replies, List.zipIdx_append]

/-- The handler's part of a session that has handled exactly these calls. -/
structure HandledCalls (sizes : Feature → Nat) (done : List Call) (log : List (Handled abi)) :
    Prop where
  commands : log.map Handled.cmnd = done.map fun c ↦ (c.request abi (sizes c.feature)).header
  answered : (replies log).map Prod.fst = List.range log.length

theorem HandledCalls.length_log {sizes : Feature → Nat} {done : List Call}
    {log : List (Handled abi)} (hd : HandledCalls sizes done log) : log.length = done.length := by
  simpa using congrArg List.length hd.commands

theorem HandledCalls.length_replies {sizes : Feature → Nat} {done : List Call}
    {log : List (Handled abi)} (hd : HandledCalls sizes done log) :
    (replies log).length = done.length := by
  simpa [hd.length_log] using congrArg List.length hd.answered

/-- One more command with one reply. -/
theorem HandledCalls.snoc {sizes : Feature → Nat} {done : List Call} {log : List (Handled abi)}
    (hd : HandledCalls sizes done log) (c : Call) (r : Handled abi)
    (hc : r.cmnd = (c.request abi (sizes c.feature)).header)
    (hr : ∃ reply, r.reaction.replies = [reply]) :
    HandledCalls sizes (done ++ [c]) (log ++ [r]) := by
  obtain ⟨reply, hr⟩ := hr
  constructor
  · simp [hd.commands, hc]
  · simp [replies_append, hd.answered, hr, List.range_succ]

/-- Between two calls: nothing is on its way. -/
structure Quiet (sizes : Feature → Nat) (done todo : List Call) (s : Session abi) : Prop where
  todo_eq : s.todo = todo
  waiting_eq : s.waiting = false
  phase_eq : s.conn.phase = .header []
  pending_eq : s.conn.pending = []
  handled : HandledCalls sizes done s.conn.log
  received : s.received.map Prod.fst = List.range done.length

/-- A request is on its way, and a part of it read. -/
structure Sent (sizes : Feature → Nat) (done : List Call) (c : Call) (todo : List Call)
    (s : Session abi) : Prop where
  todo_eq : s.todo = todo
  waiting_eq : s.waiting = true
  reading : ∃ got, s.conn.phase = .header got ∧ got.length < sizeofCommand ∧
    got ++ s.conn.pending = (c.request abi (sizes c.feature)).wire abi
  handled : HandledCalls sizes done s.conn.log
  received : s.received.map Prod.fst = List.range done.length

/-- A reply is on its way. -/
structure Replied (sizes : Feature → Nat) (done : List Call) (c : Call) (todo : List Call)
    (s : Session abi) : Prop where
  todo_eq : s.todo = todo
  waiting_eq : s.waiting = true
  phase_eq : s.conn.phase = .header []
  pending_eq : s.conn.pending = []
  handled : HandledCalls sizes (done ++ [c]) s.conn.log
  received : s.received.map Prod.fst = List.range done.length

section Steps

variable (handler : Handler) (h : Host abi) (sizes : Feature → Nat) {done todo : List Call}
  {c : Call} {s : Session abi}

theorem length_received {count : Nat} (hr : s.received.map Prod.fst = List.range count) :
    s.received.length = count := by
  simpa using congrArg List.length hr

/-- The first call of those to be made is sent. -/
theorem Quiet.client_cons (hq : Quiet sizes done (c :: todo) s) :
    Sent sizes done c todo (s.clientStep sizes) := by
  have hs : s.clientStep sizes =
      { s with
        todo := todo
        waiting := true
        conn := { s.conn with
          pending := s.conn.pending ++ (c.request abi (sizes c.feature)).wire abi } } := by
    simp [Session.clientStep, hq.waiting_eq, hq.todo_eq]
  rw [hs]
  exact ⟨rfl, rfl, ⟨[], hq.phase_eq, by decide, by simp [hq.pending_eq]⟩, hq.handled, hq.received⟩

theorem Quiet.client_nil (hq : Quiet sizes done [] s) : s.clientStep sizes = s := by
  simp [Session.clientStep, hq.waiting_eq, hq.todo_eq]

/-- The client waits as long as the reply is not there. -/
theorem Sent.client (hs : Sent sizes done c todo s) : s.clientStep sizes = s := by
  have hn : (replies s.conn.log)[s.received.length]? = none := by
    rw [List.getElem?_eq_none_iff, hs.handled.length_replies, length_received hs.received]
  simp [Session.clientStep, hs.waiting_eq, hn]

/-- The client reads the reply of its call. -/
theorem Replied.client (hr : Replied sizes done c todo s) :
    Quiet sizes (done ++ [c]) todo (s.clientStep sizes) := by
  have hl : s.received.length = done.length := length_received hr.received
  have hn := hr.handled.length_replies
  rw [List.length_append, List.length_singleton] at hn
  obtain ⟨reply, hg⟩ : ∃ reply, (replies s.conn.log)[s.received.length]? = some reply :=
    ⟨_, List.getElem?_eq_getElem (by omega)⟩
  have ht : reply.1 = done.length := by
    have hm := congrArg (·[s.received.length]?) hr.handled.answered
    simp only [List.getElem?_map, hg, Option.map_some] at hm
    rw [hl, List.getElem?_range (by rw [hr.handled.length_log]; simp)] at hm
    exact Option.some.inj hm
  have hs : s.clientStep sizes =
      { s with waiting := false, received := s.received ++ [reply] } := by
    simp [Session.clientStep, hr.waiting_eq, hg]
  rw [hs]
  refine ⟨hr.todo_eq, rfl, hr.phase_eq, hr.pending_eq, hr.handled, ?_⟩
  simp [hr.received, ht, List.range_succ]

/-- The handler, at the command of a call that it answers, sends one reply with the result of the
getter. -/
theorem decode_carries (conn : Connection abi) (ha : Answerable handler abi.order c)
    {result : GetterResult abi}
    (hg : h.getter conn.log.length c.feature (handler.args h conn.log.length
      (parameterOf abi (c.sendBuf abi.order)) c.feature) = some result) :
    ∃ r reply, r.cmnd = (c.request abi (sizes c.feature)).header ∧ r.reaction.replies = [reply] ∧
      Carries c.feature result reply ∧
      let conn' := conn.decode handler h
        ((c.request abi (sizes c.feature)).header.store abi.order)
      conn'.phase = .header [] ∧ conn'.pending = conn.pending ∧ conn'.log = conn.log ++ [r] := by
  obtain ⟨conn₁, hlog, hpend, -, hd⟩ := decode_request_of_le handler h conn
    (c.request abi (sizes c.feature)) ha.2
  obtain ⟨reply, hr, hcarries⟩ := handler.react_of_some h conn.log.length
    (parameterOf abi (c.sendBuf abi.order)) c.feature ha.1 hg
  have hn : (c.request abi (sizes c.feature)).header.command.toNat = c.feature.cmnd :=
    (c.request abi (sizes c.feature)).toNat_header_command
  refine ⟨⟨conn.consumed - sizeofCommand, _, [], parameterOf abi (c.sendBuf abi.order),
    handler.react h conn₁.log.length c.feature.cmnd (parameterOf abi (c.sendBuf abi.order)),
    conn₁.consumed⟩, reply, rfl, by rw [hlog, hr]; rfl, hcarries, ?_⟩
  intro conn'
  have hc : conn' = _ := hd
  rw [hc]
  refine ⟨?_, hpend, ?_⟩
  · simp only [Connection.execute, hn, hlog]
    change (handler.react h conn.log.length c.feature.cmnd
      (parameterOf abi (c.sendBuf abi.order))).control.phase = _
    rw [hr]
    rfl
  · rw [Connection.log_execute, hlog, hn]
    rfl

/-- Decoding the request of a call that is answered handles it with one reply. -/
theorem decode_answered (conn : Connection abi) (ha : Answered handler h conn.log.length c) :
    ∃ r reply, r.cmnd = (c.request abi (sizes c.feature)).header ∧ r.reaction.replies = [reply] ∧
      let conn' := conn.decode handler h
        ((c.request abi (sizes c.feature)).header.store abi.order)
      conn'.phase = .header [] ∧ conn'.pending = conn.pending ∧ conn'.log = conn.log ++ [r] := by
  obtain ⟨result, hg⟩ := Option.isSome_iff_exists.mp ha.2
  obtain ⟨r, reply, hcmnd, hreply, -, hconn⟩ := decode_carries handler h sizes conn ha.1 hg
  exact ⟨r, reply, hcmnd, hreply, hconn⟩

/-- Decoding any other request produces no reply. -/
theorem decode_unanswered (conn : Connection abi) (ha : ¬ Answered handler h conn.log.length c) :
    let conn' := conn.decode handler h
      ((c.request abi (sizes c.feature)).header.store abi.order)
    replies conn'.log = replies conn.log ∧ conn'.pending = conn.pending := by
  intro conn'
  have hn : (c.request abi (sizes c.feature)).header.command.toNat = c.feature.cmnd :=
    (c.request abi (sizes c.feature)).toNat_header_command
  rcases Nat.lt_or_ge glibtopParamSize (c.sendBuf abi.order).length with hl | hl
  · obtain ⟨hlog, hpend⟩ := decode_request_of_gt handler h conn
      (c.request abi (sizes c.feature)) hl
    exact ⟨congrArg replies hlog, hpend⟩
  · obtain ⟨conn₁, hlog, hpend, -, hd⟩ := decode_request_of_le handler h conn
      (c.request abi (sizes c.feature)) hl
    have hnone : (handler.react h conn.log.length c.feature.cmnd
        (parameterOf abi (c.sendBuf abi.order))).replies = [] := by
      by_cases hs : handler.Serves c.feature
      · -- the getter ends the process
        have hg : ¬Returns handler h conn.log.length c := fun hg ↦ ha ⟨⟨hs, hl⟩, hg⟩
        rw [handler.react_of_none h _ _ _ hs (Option.not_isSome_iff_eq_none.mp hg)]
        rfl
      · rw [handler.react_of_not_serves h _ _ _ hs]
        rfl
    have hc : conn' = _ := hd
    have hnone : (handler.react h conn.log.length c.feature.cmnd
        (parameterOf abi (c.request abi (sizes c.feature)).sendBuf)).replies = [] := hnone
    rw [hc, Connection.log_execute, replies_append, hlog, hn, hnone]
    exact ⟨List.append_nil _, hpend⟩

/-- Once the handler has read all of a request, it stands where decoding the request leaves it. -/
theorem Sent.run_reads (hs : Sent sizes done c todo s) (extras : List Nat)
    (enough : sizeofCommand ≤ extras.length) :
    ∃ left, run (Connection.step handler h) s.conn (delivering extras) =
      run (Connection.step handler h) ((s.conn.advance []).decode handler h
        ((c.request abi (sizes c.feature)).header.store abi.order)) (delivering left) := by
  obtain ⟨got, phase, short, hw⟩ := hs.reading
  have hl := congrArg List.length hw
  rw [List.length_append, (c.request abi (sizes c.feature)).length_wire] at hl
  obtain ⟨left, -, hr⟩ := s.conn.run_header handler h extras phase short
    (List.append_nil _).symm (by rw [List.length_append]; exact hl) (by omega)
  rw [hw, Request.wire_eq] at hr
  exact ⟨left, hr⟩

/-- A read of the handler leaves the request on its way, or has it answered. -/
theorem Sent.read (hs : Sent sizes done c todo s) (ha : Answered handler h done.length c)
    (extra : Nat) :
    Sent sizes done c todo (s.step handler h sizes (.handler extra)) ∨
      Replied sizes done c todo (s.step handler h sizes (.handler extra)) := by
  obtain ⟨got, phase, short, hw⟩ := hs.reading
  have hl := congrArg List.length hw
  rw [(c.request abi (sizes c.feature)).length_wire] at hl
  rcases s.conn.step_header handler h extra phase short (List.append_nil _).symm hl with
    ⟨piece, bytes, hb, -, hne, hstep⟩ | hstep
  · left
    have hpos := List.length_pos_iff.mpr hne
    have hc : (s.conn.step handler h (.ready extra)).log = s.conn.log := by rw [hstep]; rfl
    refine ⟨hs.todo_eq, hs.waiting_eq, ⟨got ++ piece, by rw [Session.step, hstep], ?_, ?_⟩, ?_,
      hs.received⟩
    · rw [hb, List.length_append, List.length_append] at hl
      rw [List.length_append]
      omega
    · rw [Session.step, hstep, ← hw, hb]
      simp [Connection.advance]
    · rw [Session.step, hc]
      exact hs.handled
  · right
    rw [hw, Request.wire_eq] at hstep
    obtain ⟨r, reply, hcmnd, hreply, hphase, hpend, hlog⟩ :=
      decode_answered handler h sizes (s.conn.advance []) (hs.handled.length_log ▸ ha)
    rw [← hstep] at hphase hpend hlog
    refine ⟨hs.todo_eq, hs.waiting_eq, hphase, hpend, ?_, hs.received⟩
    rw [Session.step, hlog]
    exact hs.handled.snoc c r hcmnd ⟨reply, hreply⟩

/-- With nothing on its way to it the handler waits. -/
theorem step_of_pending_nil (hp : s.conn.pending = []) (extra : Nat) :
    s.step handler h sizes (.handler extra) = s := by
  have hc : s.conn.step handler h (.ready extra) = s.conn :=
    s.conn.run_of_pending_nil handler h hp [extra]
  rw [Session.step, hc]

end Steps

/-- Where a session stands that has answered every call so far. -/
inductive Stage (sizes : Feature → Nat) (calls : List Call) (s : Session abi) : Prop
  | quiet (done todo : List Call) (split : calls = done ++ todo) (state : Quiet sizes done todo s)
  | sent (done : List Call) (c : Call) (todo : List Call) (split : calls = done ++ c :: todo)
      (state : Sent sizes done c todo s)
  | replied (done : List Call) (c : Call) (todo : List Call) (split : calls = done ++ c :: todo)
      (state : Replied sizes done c todo s)

section Runs

variable (handler : Handler) (h : Host abi) (sizes : Feature → Nat) {calls : List Call}

/-- The calls of a session are answered, each behind those before it. -/
def AllAnswered (calls : List Call) : Prop :=
  ∀ k c, calls[k]? = some c → Answered handler h k c

theorem AllAnswered.of_split {done todo : List Call} {c : Call} (ha : AllAnswered handler h calls)
    (split : calls = done ++ c :: todo) : Answered handler h done.length c :=
  ha done.length c (by rw [split, List.getElem?_append_right (Nat.le_refl _), Nat.sub_self]; rfl)

/-- Every step of a session whose calls are answered keeps it at one of the stages. -/
theorem stage_step (ha : AllAnswered handler h calls) (s : Session abi) (e : SessionEvent)
    (hs : Stage sizes calls s) :
    Stage sizes calls (s.step handler h sizes e) := by
  cases hs with
  | quiet done todo split state =>
    cases e with
    | client =>
      cases todo with
      | nil =>
        rw [Session.step, state.client_nil]
        exact .quiet done [] split state
      | cons c todo => exact .sent done c todo split (state.client_cons sizes)
    | handler extra =>
      rw [step_of_pending_nil handler h sizes state.pending_eq]
      exact .quiet done todo split state
  | sent done c todo split state =>
    cases e with
    | client =>
      rw [Session.step, state.client]
      exact .sent done c todo split state
    | handler extra =>
      rcases state.read handler h sizes (ha.of_split handler h split) extra with hn | hn
      · exact .sent done c todo split hn
      · exact .replied done c todo split hn
  | replied done c todo split state =>
    cases e with
    | client =>
      exact .quiet (done ++ [c]) todo (by simp [split]) (state.client sizes)
    | handler extra =>
      rw [step_of_pending_nil handler h sizes state.pending_eq]
      exact .replied done c todo split state

theorem quiet_start (sizes : Feature → Nat) (calls : List Call) :
    Quiet sizes [] calls (Session.start abi calls) :=
  ⟨rfl, rfl, rfl, rfl, ⟨rfl, rfl⟩, rfl⟩

/-- The reads of a request that is answered end with its reply. -/
theorem Sent.served {handler : Handler} {done todo : List Call} {c : Call} {s : Session abi}
    (hs : Sent sizes done c todo s) (ha : Answered handler h done.length c) (extras : List Nat)
    (enough : sizeofCommand ≤ extras.length) :
    let conn' := run (Connection.step handler h) s.conn (delivering extras)
    conn'.phase = .header [] ∧ conn'.pending = [] ∧ HandledCalls sizes (done ++ [c]) conn'.log := by
  intro conn'
  obtain ⟨left, hr⟩ := hs.run_reads handler h sizes extras enough
  obtain ⟨r, reply, hcmnd, hreply, hphase, hpend, hlog⟩ :=
    decode_answered handler h sizes (s.conn.advance []) (hs.handled.length_log ▸ ha)
  have hc : conn' = _ := hr.trans (Connection.run_of_pending_nil handler h _ hpend left)
  rw [hc]
  refine ⟨hphase, hpend, ?_⟩
  rw [hlog]
  exact hs.handled.snoc c r hcmnd ⟨reply, hreply⟩

/-- The reads of any other request produce nothing. -/
theorem Sent.not_served {handler : Handler} {done todo : List Call} {c : Call} {s : Session abi}
    (hs : Sent sizes done c todo s) (ha : ¬ Answered handler h done.length c) (extras : List Nat)
    (enough : sizeofCommand ≤ extras.length) :
    (replies (run (Connection.step handler h) s.conn (delivering extras)).log).length =
      done.length := by
  obtain ⟨left, hr⟩ := hs.run_reads handler h sizes extras enough
  obtain ⟨hlog, hpend⟩ := decode_unanswered handler h sizes (s.conn.advance [])
    (hs.handled.length_log ▸ ha)
  rw [hr, Connection.run_of_pending_nil handler h _ hpend left, hlog, Connection.log_advance,
    hs.handled.length_replies]

/-- At every stage requests and replies pair up. -/
theorem paired_of_stage {handler : Handler} (ha : AllAnswered handler h calls)
    (s : Session abi) (hs : Stage sizes calls s) : Paired handler h sizes calls s := by
  cases hs with
  | quiet done todo split state =>
    refine ⟨?_, state.handled.answered, by simp [Phase.Ended, state.phase_eq],
      ?_, by simp [state.waiting_eq]⟩
    · rw [state.handled.commands, split, List.map_append]
      exact List.prefix_append _ _
    · rw [state.received, length_received state.received]
  | sent done c todo split state =>
    obtain ⟨got, phase, -, -⟩ := state.reading
    refine ⟨?_, state.handled.answered, by simp [Phase.Ended, phase], ?_, ?_⟩
    · rw [state.handled.commands, split, List.map_append]
      exact List.prefix_append _ _
    · rw [state.received, length_received state.received]
    · intro _ extras enough
      obtain ⟨-, -, hd⟩ := state.served h sizes (ha.of_split handler h split) extras enough
      rw [hd.length_replies, length_received state.received]
      simp
  | replied done c todo split state =>
    refine ⟨?_, state.handled.answered, by simp [Phase.Ended, state.phase_eq], ?_, ?_⟩
    · rw [state.handled.commands, split]
      exact ⟨todo.map fun c ↦ (c.request abi (sizes c.feature)).header, by simp⟩
    · rw [state.received, length_received state.received]
    · intro _ extras _
      rw [Connection.run_of_pending_nil handler h _ state.pending_eq,
        state.handled.length_replies, length_received state.received]
      simp

/-- Steps of the handler alone are a run of its loop. -/
theorem run_handler_events (s : Session abi) (extras : List Nat) :
    run (Session.step handler h sizes) s (extras.map .handler) =
      { s with conn := run (Connection.step handler h) s.conn (delivering extras) } := by
  induction extras generalizing s with
  | nil => rfl
  | cons extra extras ih =>
    rw [List.map_cons, run_cons, ih]
    rfl

/-- A session can make the calls that are answered and be quiet behind them. -/
theorem exists_run_quiet {done served todo : List Call} {s : Session abi}
    (ha : ∀ k c, served[k]? = some c → Answered handler h (done.length + k) c)
    (hq : Quiet sizes done (served ++ todo) s) :
    ∃ events, Quiet sizes (done ++ served) todo
      (run (Session.step handler h sizes) s events) := by
  induction served generalizing done s with
  | nil => exact ⟨[], by simpa using hq⟩
  | cons c served ih =>
    have hs := hq.client_cons sizes
    let extras := List.replicate sizeofCommand 0
    let s' := run (Session.step handler h sizes) (s.clientStep sizes) (extras.map .handler)
    have hr : Replied sizes done c (served ++ todo) s' := by
      obtain ⟨hphase, hpend, hd⟩ := hs.served h sizes (ha 0 c rfl) extras (by simp [extras])
      simp only [s', run_handler_events]
      exact ⟨hs.todo_eq, hs.waiting_eq, hphase, hpend, hd, hs.received⟩
    have hrest : ∀ k d, served[k]? = some d → Answered handler h ((done ++ [c]).length + k) d := by
      intro k d hd
      rw [List.length_append, List.length_singleton, Nat.add_assoc, Nat.add_comm 1 k]
      exact ha (k + 1) d hd
    obtain ⟨events, he⟩ := ih hrest (hr.client sizes)
    refine ⟨.client :: (extras.map .handler ++ .client :: events), ?_⟩
    rw [run_cons, run_append, run_cons]
    rw [List.append_assoc, List.singleton_append] at he
    exact he

/-- A call that is not answered is one that a session reaches and waits in for ever. -/
theorem not_paired_of_not_answered (handler : Handler) {c : Call} {done todo : List Call}
    (hs : calls = done ++ c :: todo) (hd : AllAnswered handler h done)
    (hc : ¬ Answered handler h done.length c) :
    ∃ events, ¬ Paired handler h sizes calls
      (run (Session.step handler h sizes) (Session.start abi calls) events) := by
  obtain ⟨events, hq⟩ := exists_run_quiet handler h sizes
    (fun k c hk ↦ by simpa using hd k c hk)
    (hs ▸ quiet_start sizes calls : Quiet sizes [] (done ++ c :: todo) (Session.start abi calls))
  rw [List.nil_append] at hq
  refine ⟨events ++ [.client], fun hp ↦ ?_⟩
  rw [run_append, run_cons, run_nil] at hp
  have hsent := hq.client_cons sizes
  have hlt := hp.served hsent.waiting_eq (List.replicate sizeofCommand 0) (by simp)
  have hn := hsent.not_served h sizes hc (List.replicate sizeofCommand 0) (by simp)
  have hl := length_received hsent.received
  rw [Session.step] at hlt
  omega

/-- The first of some calls that is not so at its place. -/
private theorem exists_first_not {p : Nat → Call → Prop}
    (hn : ¬ ∀ k c, calls[k]? = some c → p k c) :
    ∃ done c todo, calls = done ++ c :: todo ∧ (∀ k d, done[k]? = some d → p k d) ∧
      ¬ p done.length c := by
  induction calls generalizing p with
  | nil => exact absurd (fun k c hc ↦ absurd hc (by simp)) hn
  | cons c calls ih =>
    by_cases hc : p 0 c
    · have ht : ¬ ∀ k d, calls[k]? = some d → p (k + 1) d := fun h ↦ hn fun k d hd ↦ by
        cases k with
        | zero => exact Option.some.inj hd ▸ hc
        | succ k => exact h k d hd
      obtain ⟨done, d, todo, rfl, hd, hp⟩ := ih ht
      refine ⟨c :: done, d, todo, rfl, fun k d hd' ↦ ?_, hp⟩
      cases k with
      | zero => exact Option.some.inj hd' ▸ hc
      | succ k => exact hd k d hd'
    · exact ⟨[], c, calls, rfl, by simp, hc⟩

/-- In every interleaving requests and replies pair up exactly when every call is answered. -/
theorem paired_run_iff (calls : List Call) :
    (∀ events, Paired handler h sizes calls
      (run (Session.step handler h sizes) (Session.start abi calls) events)) ↔
      AllAnswered handler h calls := by
  constructor
  · intro hp
    by_contra hn
    obtain ⟨done, c, todo, hs, hd, hc⟩ := exists_first_not hn
    obtain ⟨events, he⟩ := not_paired_of_not_answered h sizes handler hs hd hc
    exact he (hp events)
  · intro ha events
    apply paired_of_stage h sizes ha
    exact run_invariant _ _ (fun s e ↦ stage_step handler h sizes ha s e) _ events
      (.quiet [] calls rfl (quiet_start sizes calls))

end Runs

/-- A feature the handler advertises is one it serves, unless it is among those with no answer. -/
theorem serves_of_advertised (handler : Handler) (f : Feature)
    (ha : names handler.features f = true) : handler.Serves f ↔ f ∉ unserved := by
  cases handler with
  | parent => rfl
  | slave cfg =>
    rw [Handler.features, names_glibtopServerFeatures] at ha
    exact and_iff_right ha

/-- Exactly when requests and replies pair up: for every list of calls of advertised features, in
every interleaving and however the reads cut the stream, each command gets one reply in the order
of the commands, the handler stays, each reply read is the one produced for its call and no
caller waits in vain, if and only if no call is of `netlist`, `proc_open_files`, `proc_wd` or
`proc_affinity`, every payload fits the inline parameter and no getter ends the process. -/
theorem replies_paired_iff (handler : Handler) (h : Host abi) (sizes : Feature → Nat)
    (calls : List Call)
    (advertised : ∀ c ∈ calls, names handler.features c.feature = true) :
    (∀ events, Paired handler h sizes calls
      (run (Session.step handler h sizes) (Session.start abi calls) events)) ↔
      ∀ k c, calls[k]? = some c → c.feature ∉ unserved ∧
        (c.sendBuf abi.order).length ≤ glibtopParamSize ∧ Returns handler h k c := by
  rw [paired_run_iff handler h sizes calls]
  refine forall₃_congr fun k c hk ↦ ?_
  have hserves := serves_of_advertised handler c.feature
    (advertised c (List.mem_of_getElem? hk))
  rw [Answered, Answerable, hserves, and_assoc]

/-- A set-id server for every feature that may have one. -/
def everySuid : SuidConfig := ⟨fun f ↦ f ≠ .mountlist && f ≠ .fsusage, rfl, rfl⟩

/-- A request for the load average. -/
def loadavgCall : Call where
  feature := .loadavg
  args := []
  typed := rfl
  valid := by simp

theorem replies_paired_loadavg :
    (∀ events, Paired .parent (idleHost linuxAbi) (fun _ ↦ 56) [loadavgCall, loadavgCall]
      (run (Session.step .parent (idleHost linuxAbi) fun _ ↦ 56)
        (Session.start linuxAbi [loadavgCall, loadavgCall]) events)) ↔
      ∀ k c, [loadavgCall, loadavgCall][k]? = some c → c.feature ∉ unserved ∧
        (c.sendBuf linuxAbi.order).length ≤ glibtopParamSize ∧
          Returns .parent (idleHost linuxAbi) k c :=
  replies_paired_iff .parent (idleHost linuxAbi) (fun _ ↦ 56) [loadavgCall, loadavgCall]
    (by decide)

/-- A request for the list of network interfaces. -/
def netlistCall : Call where
  feature := .netlist
  args := []
  typed := rfl
  valid := by simp

/-- The parent handler advertises it and does not answer it. -/
theorem netlist_not_paired :
    names Handler.parent.features .netlist = true ∧
      ∃ events, ¬ Paired .parent (idleHost linuxAbi) (fun _ ↦ 32) [netlistCall]
        (run (Session.step .parent (idleHost linuxAbi) fun _ ↦ 32)
          (Session.start linuxAbi [netlistCall]) events) := by
  refine ⟨by decide, ?_⟩
  apply not_paired_of_not_answered (idleHost linuxAbi) (fun _ ↦ 32) .parent
    (List.nil_append [netlistCall]).symm (fun k c hc ↦ absurd hc (by simp))
  exact fun ha ↦ absurd ha.1.1 (by decide)

end LibGTop.Protocol
