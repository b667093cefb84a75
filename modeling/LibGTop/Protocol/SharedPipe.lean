import LibGTop.Base.SharedQueue
import LibGTop.Protocol.Pairing

/-!
# The pipe that the children of the daemon share

`main` of the daemon opens the pipe to the set-id server before its loop
(`src/daemon/gnuserv.c:619–625`), so every child it forks writes its commands to
one pipe and reads its replies from one other. A child makes its calls one after
the other; nothing orders those of different children. A command is a single
`write` that a pipe keeps together, and a child reads a whole reply.
-/

namespace LibGTop.Protocol

open Base Wire Client Daemon

universe u

variable {Party : Type u} {abi : Abi}

/-- The server at the other end, the calls whose commands were written with the children that wrote
them, and the children that read a reply with the replies, each in their order. -/
structure SharedPipe (Party : Type u) (abi : Abi) where
  sent : List (Party × Call)
  takers : List Party
  received : List (Nat × Reply abi)
  conn : Connection abi

/-- Whose step is next: a child writes the command of a call or reads a reply, or the server reads
at most `extra + 1` bytes. -/
inductive PipeEvent (Party : Type u)
  | send (c : Party) (call : Call)
  | serve (extra : Nat)
  | receive (c : Party)

/-- The pipe when the first child is forked. -/
def SharedPipe.start (Party : Type u) (abi : Abi) : SharedPipe Party abi :=
  ⟨[], [], [], Connection.fresh abi []⟩

/-- The queue that the pipe is: whose commands were written, whose replies were read, and how many
commands were handled. -/
def SharedPipe.queue (s : SharedPipe Party abi) : SharedQueue Party :=
  ⟨s.sent.map Prod.fst, s.takers, s.conn.log.length⟩

section

variable (handler : Handler) (h : Host abi) (sizes : Feature → Nat)

/-- The bytes of some calls, one behind the other. -/
def wires (abi : Abi) (calls : List Call) : List UInt8 :=
  calls.flatMap fun c ↦ (c.request abi (sizes c.feature)).wire abi

/-- One step. A child in a call does not begin another one, and reads when a reply is there. -/
def SharedPipe.step [DecidableEq Party] (s : SharedPipe Party abi) :
    PipeEvent Party → SharedPipe Party abi
  | .send c call =>
    if s.queue.waits c then s
    else
      { s with
        sent := s.sent ++ [(c, call)]
        conn := { s.conn with
          pending := s.conn.pending ++ (call.request abi (sizes call.feature)).wire abi } }
  | .serve extra => { s with conn := s.conn.step handler h (.ready extra) }
  | .receive c =>
    if s.queue.waits c then
      match (replies s.conn.log)[s.takers.length]? with
      | some reply => { s with takers := s.takers ++ [c], received := s.received ++ [reply] }
      | none => s
    else s

/-- Each reply that was read is the one of a command that the child which read it has written. -/
def SharedPipe.Own (s : SharedPipe Party abi) : Prop :=
  ∀ (k : Nat) (c : Party) (reply : Nat × Reply abi), s.takers[k]? = some c →
    s.received[k]? = some reply → (s.sent[reply.1]?).map Prod.fst = some c

/-- The calls of a run are answered: the server serves the feature, the payload is inside the
command, and the getter returns. -/
def PipeEvent.Answered (handler : Handler) (h : Host abi) : PipeEvent Party → Prop
  | .send _ call => ∀ now, Protocol.Answered handler h now call
  | _ => True

/-- No child begins a call. -/
def PipeEvent.Quiet : PipeEvent Party → Prop
  | .send _ _ => False
  | _ => True

/-- The server has handled these calls, each with one reply, and reads the commands of those. -/
structure Reading (done todo : List Call) (conn : Connection abi) : Prop where
  handled : HandledCalls sizes done conn.log
  next : ∃ got, conn.phase = .header got ∧ got.length < sizeofCommand ∧
    got ++ conn.pending = wires sizes abi todo

/-- What holds of the pipe in every order of steps: the server has handled the first commands, is at
the next one, and the replies are read in the order of the commands. -/
structure InOrder (s : SharedPipe Party abi) : Prop where
  answered : ∀ e ∈ s.sent, ∀ now, Answered handler h now e.2
  reading : ∃ done todo, s.sent.map Prod.snd = done ++ todo ∧ Reading sizes done todo s.conn
  received : s.received = (replies s.conn.log).take s.takers.length
  taken : s.takers.length ≤ s.conn.log.length

theorem inOrder_start : InOrder handler h sizes (SharedPipe.start Party abi) :=
  ⟨fun _ he ↦ absurd he List.not_mem_nil,
    ⟨[], [], rfl, ⟨rfl, rfl⟩, [], rfl, by decide, rfl⟩, rfl, Nat.le_refl _⟩

variable {handler h sizes}

/-- There is one reply for each command that was handled, with its number. -/
theorem InOrder.replies_eq {s : SharedPipe Party abi} (hs : InOrder handler h sizes s) :
    (replies s.conn.log).map Prod.fst = List.range s.conn.log.length := by
  obtain ⟨done, todo, -, hr⟩ := hs.reading
  exact hr.handled.answered

theorem InOrder.length_replies {s : SharedPipe Party abi} (hs : InOrder handler h sizes s) :
    (replies s.conn.log).length = s.conn.log.length := by
  simpa using congrArg List.length hs.replies_eq

/-- The `k`-th reply that was read is that of the `k`-th command. -/
theorem InOrder.received_fst {s : SharedPipe Party abi} (hs : InOrder handler h sizes s) :
    s.received.map Prod.fst = List.range s.takers.length := by
  have ht := hs.taken
  rw [hs.received, List.map_take, hs.replies_eq, List.take_range, Nat.min_eq_left ht]

/-- So the replies are read by those they are for exactly when the children read in the order in
which they wrote. -/
theorem InOrder.own_iff {s : SharedPipe Party abi} (hs : InOrder handler h sizes s) :
    s.Own ↔ s.queue.Own := by
  have hr := hs.received_fst
  have hk : ∀ k, k < s.takers.length → ∃ reply, s.received[k]? = some reply ∧ reply.1 = k := by
    intro k hk
    have hg := congrArg (·[k]?) hr
    simp only [List.getElem?_map, List.getElem?_range hk] at hg
    obtain ⟨reply, hreply, he⟩ := Option.map_eq_some_iff.mp hg
    exact ⟨reply, hreply, he⟩
  constructor
  · intro ho
    rw [SharedQueue.Own, List.prefix_iff_getElem?]
    intro k hlt
    obtain ⟨reply, hreply, he⟩ := hk k hlt
    have hc := ho k _ reply (List.getElem?_eq_getElem hlt) hreply
    rw [he] at hc
    simpa [SharedPipe.queue] using hc
  · intro ho k c reply hc hreply
    obtain ⟨hlt, rfl⟩ := List.getElem?_eq_some_iff.mp hc
    obtain ⟨reply', hreply', he⟩ := hk k hlt
    obtain rfl := Option.some.inj (hreply.symm.trans hreply')
    have hp := (List.prefix_iff_getElem?.mp ho) k hlt
    rw [he]
    simpa [SharedPipe.queue] using hp

theorem wires_cons (c : Call) (todo : List Call) :
    wires sizes abi (c :: todo) =
      (c.request abi (sizes c.feature)).wire abi ++ wires sizes abi todo :=
  List.flatMap_cons

/-- The bytes that are on their way to the server start with what is missing of the next
command. -/
theorem wires_cons_split {c : Call} {todo : List Call} {got pending : List UInt8}
    (short : got.length < sizeofCommand)
    (hw : got ++ pending = wires sizes abi (c :: todo)) :
    ∃ bytes, (c.request abi (sizes c.feature)).wire abi = got ++ bytes ∧
      pending = bytes ++ wires sizes abi todo := by
  rw [wires_cons] at hw
  obtain ⟨bytes, hb, hp⟩ | ⟨more, hb, -⟩ := List.append_eq_append_iff.mp hw
  · exact ⟨bytes, hb, hp⟩
  · have hl := congrArg List.length hb
    rw [List.length_append, Request.length_wire] at hl
    omega

/-- A read of the server brings the next command nearer, or has it handled. -/
theorem Reading.step {done todo : List Call} {conn : Connection abi}
    (hr : Reading sizes done todo conn) (ha : ∀ c ∈ todo, ∀ now, Answered handler h now c)
    (extra : Nat) :
    (Reading sizes done todo (conn.step handler h (.ready extra)) ∧
      (conn.step handler h (.ready extra)).log = conn.log) ∨
    ∃ c rest r, todo = c :: rest ∧
      Reading sizes (done ++ [c]) rest (conn.step handler h (.ready extra)) ∧
      (conn.step handler h (.ready extra)).log = conn.log ++ [r] := by
  obtain ⟨got, phase, short, hw⟩ := hr.next
  by_cases hp : conn.pending = []
  · have hc : conn.step handler h (.ready extra) = conn :=
      conn.run_of_pending_nil handler h hp [extra]
    rw [hc]
    exact .inl ⟨hr, rfl⟩
  cases todo with
  | nil => exact absurd (List.append_eq_nil_iff.mp hw).2 hp
  | cons c todo =>
    obtain ⟨bytes, hwire, hpend⟩ := wires_cons_split short hw
    have hfull : (got ++ bytes).length = sizeofCommand := by
      rw [← hwire, Request.length_wire]
    rcases conn.step_header handler h extra phase short hpend hfull with
      ⟨piece, bytes', rfl, -, hn, hstep⟩ | hstep
    · left
      have hlog : (conn.step handler h (.ready extra)).log = conn.log := by rw [hstep]; rfl
      refine ⟨⟨hlog.symm ▸ hr.handled, got ++ piece, by rw [hstep], ?_, ?_⟩, hlog⟩
      · have hpos := List.length_pos_iff.mpr hn
        simp only [List.length_append] at hfull ⊢
        omega
      · rw [hstep, wires_cons, hwire]
        simp [Connection.advance]
    · right
      rw [← hwire, Request.wire_eq] at hstep
      obtain ⟨r, reply, hcmnd, hreply, hphase, hpend', hlog⟩ := decode_answered handler h sizes
        (conn.advance (wires sizes abi todo)) (ha c List.mem_cons_self _)
      rw [← hstep] at hphase hpend' hlog
      have hlog : (conn.step handler h (.ready extra)).log = conn.log ++ [r] := hlog
      refine ⟨c, todo, r, rfl, ⟨?_, [], hphase, by decide, hpend'⟩, hlog⟩
      rw [hlog]
      exact hr.handled.snoc c r hcmnd ⟨reply, hreply⟩

theorem InOrder.answered_todo {s : SharedPipe Party abi} (hs : InOrder handler h sizes s)
    {done todo : List Call} (hsent : s.sent.map Prod.snd = done ++ todo) :
    ∀ c ∈ todo, ∀ now, Answered handler h now c := by
  intro c hc
  have hm : c ∈ s.sent.map Prod.snd := by
    rw [hsent]
    exact List.mem_append_right _ hc
  obtain ⟨e, he, rfl⟩ := List.mem_map.mp hm
  exact hs.answered e he

/-- A command that was written is handled once the server has read it. -/
theorem InOrder.exists_served {s : SharedPipe Party abi} (hs : InOrder handler h sizes s)
    (hl : s.takers.length < s.sent.length) :
    ∃ extras, s.takers.length <
      (run (Connection.step handler h) s.conn (delivering extras)).log.length := by
  rcases Nat.lt_or_ge s.takers.length s.conn.log.length with hlt | hge
  · exact ⟨[], hlt⟩
  obtain ⟨done, todo, hsent, hr⟩ := hs.reading
  have hlen : s.sent.length = done.length + todo.length := by
    rw [← s.sent.length_map Prod.snd, hsent, List.length_append]
  have hlog := hr.handled.length_log
  have ht := hs.taken
  cases todo with
  | nil =>
    rw [List.length_nil] at hlen
    omega
  | cons c todo =>
    obtain ⟨got, phase, short, hw⟩ := hr.next
    obtain ⟨bytes, hwire, hpend⟩ := wires_cons_split short hw
    have hfull : (got ++ bytes).length = sizeofCommand := by
      rw [← hwire, Request.length_wire]
    have hb : bytes.length ≤ sizeofCommand := by
      rw [← hfull, List.length_append]
      omega
    let extras := List.replicate sizeofCommand 0
    obtain ⟨left, -, hrun⟩ := s.conn.run_header handler h extras phase short hpend hfull
      (by simpa [extras] using hb)
    rw [← hwire, Request.wire_eq] at hrun
    obtain ⟨r, reply, -, -, hphase, -, hlog'⟩ := decode_answered handler h sizes
      (s.conn.advance (wires sizes abi todo))
      (hs.answered_todo hsent c List.mem_cons_self _)
    refine ⟨extras, ?_⟩
    have hpre := Connection.log_prefix_run handler h
      ((s.conn.advance (wires sizes abi todo)).decode handler h
        ((c.request abi (sizes c.feature)).header.store abi.order)) (delivering left)
      (by simp [Connection.Valid, hphase, sizeofCommand])
    have hle := hpre.length_le
    rw [hlog', List.length_append, List.length_singleton, Connection.log_advance] at hle
    rw [hrun]
    omega

variable [DecidableEq Party]

/-- A read of the server is nothing at the queue, or an answer. -/
theorem InOrder.serve {s : SharedPipe Party abi} (hs : InOrder handler h sizes s) (extra : Nat) :
    InOrder handler h sizes (s.step handler h sizes (.serve extra)) ∧
      ((s.step handler h sizes (.serve extra)).queue = s.queue ∨
        (s.step handler h sizes (.serve extra)).queue = s.queue.step .answer) := by
  obtain ⟨done, todo, hsent, hr⟩ := hs.reading
  obtain ⟨hr', hlog⟩ | ⟨c, rest, r, rfl, hr', hlog⟩ :=
    hr.step (hs.answered_todo hsent) extra
  · refine ⟨⟨hs.answered, ⟨done, todo, hsent, hr'⟩, ?_, ?_⟩, .inl ?_⟩
    · rw [SharedPipe.step, hlog]
      exact hs.received
    · rw [SharedPipe.step, hlog]
      exact hs.taken
    · rw [SharedPipe.queue, SharedPipe.step, hlog]
      rfl
  · have hlen : s.conn.log.length < s.sent.length := by
      rw [hr.handled.length_log, ← s.sent.length_map Prod.snd, hsent, List.length_append,
        List.length_cons]
      omega
    refine ⟨⟨hs.answered, ⟨done ++ [c], rest, ?_, hr'⟩, ?_, ?_⟩, .inr ?_⟩
    · rw [List.append_assoc]
      exact hsent
    · have ht := hs.taken
      rw [← hs.length_replies] at ht
      rw [SharedPipe.step, hlog, replies_append]
      simp only
      rw [List.take_append_of_le_length ht]
      exact hs.received
    · rw [SharedPipe.step, hlog, List.length_append]
      exact Nat.le_trans hs.taken (Nat.le_add_right _ _)
    · rw [SharedQueue.step, if_pos (by simpa [SharedPipe.queue] using hlen),
        SharedPipe.queue, SharedPipe.step, hlog, List.length_append]
      rfl

/-- A command that is written stands behind those on their way. -/
theorem InOrder.send {s : SharedPipe Party abi} (hs : InOrder handler h sizes s) (c : Party)
    {call : Call} (ha : ∀ now, Answered handler h now call) :
    InOrder handler h sizes (s.step handler h sizes (.send c call)) ∧
      (s.step handler h sizes (.send c call)).queue = s.queue.step (.ask c) := by
  rw [SharedPipe.step, SharedQueue.step]
  split
  · exact ⟨hs, rfl⟩
  · obtain ⟨done, todo, hsent, hr⟩ := hs.reading
    obtain ⟨got, phase, short, hw⟩ := hr.next
    refine ⟨⟨fun e he ↦ ?_, ⟨done, todo ++ [call], ?_, hr.handled, got, phase, short, ?_⟩,
      hs.received, hs.taken⟩, ?_⟩
    · obtain he | he := List.mem_append.mp he
      · exact hs.answered e he
      · rw [List.mem_singleton.mp he]
        exact ha
    · rw [List.map_append, hsent, List.append_assoc]
      rfl
    · simp only
      rw [← List.append_assoc, hw]
      simp [wires]
    · simp [SharedPipe.queue]

/-- A reply that is read is the next one. -/
theorem InOrder.receive {s : SharedPipe Party abi} (hs : InOrder handler h sizes s) (c : Party) :
    InOrder handler h sizes (s.step handler h sizes (.receive c)) ∧
      (s.step handler h sizes (.receive c)).queue = s.queue.step (.take c) := by
  have hl := hs.length_replies
  rw [SharedPipe.step, SharedQueue.step]
  by_cases hw : s.queue.waits c
  · rw [if_pos hw, hw, Bool.true_and]
    cases hg : (replies s.conn.log)[s.takers.length]? with
    | none =>
      have hle : s.queue.answered ≤ s.queue.takers.length := by
        change s.conn.log.length ≤ s.takers.length
        exact hl ▸ List.getElem?_eq_none_iff.mp hg
      rw [if_neg fun ht ↦ Nat.not_lt.mpr hle (of_decide_eq_true ht)]
      exact ⟨hs, rfl⟩
    | some reply =>
      have hlt : s.queue.takers.length < s.queue.answered := by
        change s.takers.length < s.conn.log.length
        exact hl ▸ (List.getElem?_eq_some_iff.mp hg).1
      rw [if_pos (decide_eq_true hlt)]
      refine ⟨⟨hs.answered, hs.reading, ?_, ?_⟩, rfl⟩
      · simp only [List.length_append, List.length_singleton]
        rw [List.take_add_one, hg, hs.received]
        rfl
      · simp only [List.length_append, List.length_singleton]
        exact hlt
  · rw [if_neg hw, Bool.not_eq_true _ |>.mp hw, Bool.false_and, if_neg Bool.false_ne_true]
    exact ⟨hs, rfl⟩

/-- What a step is at the queue. -/
def PipeEvent.queueEvent : PipeEvent Party → QueueEvent Party
  | .send c _ => .ask c
  | .serve _ => .answer
  | .receive c => .take c

/-- The pipe is a queue: every step keeps its order, and is nothing there or what it stands for. -/
theorem InOrder.step {s : SharedPipe Party abi} (hs : InOrder handler h sizes s)
    {e : PipeEvent Party} (ha : e.Answered handler h) :
    InOrder handler h sizes (s.step handler h sizes e) ∧
      ((s.step handler h sizes e).queue = s.queue ∨
        (s.step handler h sizes e).queue = s.queue.step e.queueEvent) := by
  cases e with
  | send c call =>
    obtain ⟨hi, hq⟩ := hs.send c ha
    exact ⟨hi, .inr hq⟩
  | serve extra => exact hs.serve extra
  | receive c =>
    obtain ⟨hi, hq⟩ := hs.receive c
    exact ⟨hi, .inr hq⟩

/-- In every order of steps the pipe is in order, and a queue. -/
theorem inOrder_run {s : SharedPipe Party abi} (hs : InOrder handler h sizes s)
    (ho : s.queue.Orderly) {events : List (PipeEvent Party)}
    (ha : ∀ e ∈ events, e.Answered handler h) :
    InOrder handler h sizes (run (SharedPipe.step handler h sizes) s events) ∧
      (run (SharedPipe.step handler h sizes) s events).queue.Orderly := by
  have hm : StepsMeet (SharedPipe.step handler h sizes)
      (fun _ e ↦ e.Answered handler h) s events := stepsMeet_of_forall _ s ha
  refine run_invariant_of_steps _ (fun s ↦ InOrder handler h sizes s ∧ s.queue.Orderly) ?_ s events
    hm ⟨hs, ho⟩
  intro s e he ⟨hs, ho⟩
  obtain ⟨hi, hq | hq⟩ := hs.step he
  · exact ⟨hi, hq ▸ ho⟩
  · exact ⟨hi, hq ▸ ho.step _⟩

/-- Steps of the server alone are a run of its loop. -/
theorem run_serve (s : SharedPipe Party abi) (extras : List Nat) :
    run (SharedPipe.step handler h sizes) s (extras.map .serve) =
      { s with conn := run (Connection.step handler h) s.conn (delivering extras) } := by
  induction extras generalizing s with
  | nil => rfl
  | cons extra extras ih =>
    rw [List.map_cons, run_cons, ih]
    rfl

/-- While no child begins a call, what the others read is what the queue gives them. -/
theorem own_run {s : SharedPipe Party abi} (hs : InOrder handler h sizes s) (ho : s.queue.Orderly)
    (hown : s.queue.Own) (halone : s.queue.Alone) {more : List (PipeEvent Party)}
    (hq : ∀ e ∈ more, e.Quiet) :
    InOrder handler h sizes (run (SharedPipe.step handler h sizes) s more) ∧
      (run (SharedPipe.step handler h sizes) s more).queue.Own := by
  have hm : StepsMeet (SharedPipe.step handler h sizes) (fun _ e ↦ e.Quiet) s more :=
    stepsMeet_of_forall _ s hq
  have hinv := run_invariant_of_steps (SharedPipe.step handler h sizes)
    (fun s ↦ (InOrder handler h sizes s ∧ s.queue.Orderly) ∧ s.queue.Own ∧ s.queue.Alone) ?_ s more
    hm ⟨⟨hs, ho⟩, hown, halone⟩
  · exact ⟨hinv.1.1, hinv.2.1⟩
  intro s e he ⟨⟨hs, ho⟩, hown, halone⟩
  have ha : e.Answered handler h := by
    cases e with
    | send c call => exact he.elim
    | _ => exact trivial
  have hne : ∀ c, e.queueEvent ≠ .ask c := by
    cases e with
    | send c call => exact he.elim
    | _ => exact fun c ↦ nofun
  obtain ⟨hi, hq | hq⟩ := hs.step ha
  · rw [hq]
    exact ⟨⟨hi, ho⟩, hown, halone⟩
  · rw [hq]
    exact ⟨⟨hi, ho.step _⟩, hown.step ho halone hne⟩

end

/-- Whose reply a child reads. In every order of the children's calls, the reads of the server and
the reads of the children, with calls that the server answers: the replies read so far were each
for the child that read it, and stay so whatever the server and the children do until one of them
begins another call, exactly when they are so now and no two children are in a call. So two clients
that the daemon serves at once can get each other's replies. -/
theorem replies_own_iff [DecidableEq Party] (handler : Handler) (h : Host abi)
    (sizes : Feature → Nat) (events : List (PipeEvent Party))
    (ha : ∀ e ∈ events, e.Answered handler h) :
    let s := run (SharedPipe.step handler h sizes) (SharedPipe.start Party abi) events
    (∀ more, (∀ e ∈ more, e.Quiet) → (run (SharedPipe.step handler h sizes) s more).Own) ↔
      s.Own ∧ ∀ c d, s.queue.waits c → s.queue.waits d → c = d := by
  intro s
  obtain ⟨hs, ho⟩ : InOrder handler h sizes s ∧ s.queue.Orderly :=
    inOrder_run (inOrder_start handler h sizes) SharedQueue.orderly_empty ha
  constructor
  · intro hall
    have hown : s.Own := hall [] (fun _ he ↦ absurd he List.not_mem_nil)
    refine ⟨hown, ?_⟩
    by_contra hn
    obtain ⟨hlt, c, hc, hnot⟩ := SharedQueue.exists_not_own ho (hs.own_iff.mp hown) hn
    rw [SharedPipe.queue, List.length_map] at hlt
    obtain ⟨extras, hserved⟩ := hs.exists_served hlt
    -- the server answers, and a child takes the answer another one waits for
    have hquiet : ∀ e ∈ extras.map PipeEvent.serve ++ [PipeEvent.receive c], e.Quiet := by
      intro e he
      obtain he | he := List.mem_append.mp he
      · obtain ⟨extra, -, rfl⟩ := List.mem_map.mp he
        exact trivial
      · rw [List.mem_singleton.mp he]
        exact trivial
    have hthen := hall _ hquiet
    have hanswer : ∀ e ∈ extras.map PipeEvent.serve,
        (e : PipeEvent Party).Answered handler h := by
      intro e he
      obtain ⟨extra, -, rfl⟩ := List.mem_map.mp he
      exact trivial
    have hs' := (inOrder_run hs ho hanswer).1
    rw [run_append, run_cons, run_nil, (hs'.receive c).1.own_iff, (hs'.receive c).2,
      run_serve] at hthen
    exact hnot _ hserved hthen
  · rintro ⟨hown, halone⟩ more hq
    obtain ⟨hi, hown'⟩ := own_run hs ho (hs.own_iff.mp hown) halone hq
    exact hi.own_iff.mpr hown'

/-- Two children ask for the load average at once. -/
theorem replies_own_iff_loadavg :
    let s := run (SharedPipe.step (.slave everySuid) (idleHost linuxAbi) fun _ ↦ 56)
      (SharedPipe.start Nat linuxAbi) [.send 1 loadavgCall, .send 2 loadavgCall]
    (∀ more, (∀ e ∈ more, e.Quiet) →
      (run (SharedPipe.step (.slave everySuid) (idleHost linuxAbi) fun _ ↦ 56) s more).Own) ↔
      s.Own ∧ ∀ c d, s.queue.waits c → s.queue.waits d → c = d := by
  refine replies_own_iff (.slave everySuid) (idleHost linuxAbi) (fun _ ↦ 56)
    [.send 1 loadavgCall, .send 2 loadavgCall] fun e he ↦ ?_
  have hc : ∀ now, Answered (.slave everySuid) (idleHost linuxAbi) now loadavgCall := fun _ ↦
    ⟨⟨⟨rfl, by decide⟩, by decide⟩, rfl⟩
  obtain rfl | rfl := List.mem_pair.mp he <;> exact hc

end LibGTop.Protocol
