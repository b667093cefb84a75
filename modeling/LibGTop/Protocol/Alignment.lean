import LibGTop.Daemon.Connection

/-!
# Commands and their payloads

A client's stream is a sequence of messages, each a command with the payload it
announces. The loops look at the result of `do_read` for a command but not for
its payload, so a payload that is interrupted or ends early is used as it is and
the next command is decoded in the middle of it. As long as no read of a payload
is lost, every command is decoded where the client put it and handled with the
payload the client sent.
-/

namespace LibGTop.Protocol

open Base Wire Daemon

/-- A command of a client and the payload it announces. -/
structure Message where
  cmnd : Command
  payload : List UInt8
  payload_length : payload.length = cmnd.dataSize.toNat

/-- The bytes of a message on the wire. -/
def Message.wire (order : ByteOrder) (m : Message) : List UInt8 := m.cmnd.store order ++ m.payload

/-- The bytes of messages sent one after the other. -/
def wireOf (order : ByteOrder) (messages : List Message) : List UInt8 :=
  messages.flatMap (Message.wire order)

/-- The message is the one whose first byte lies at this offset of the stream. -/
def SentAt (order : ByteOrder) (messages : List Message) (start : Nat) (m : Message) : Prop :=
  ∃ before after, messages = before ++ m :: after ∧ start = (wireOf order before).length

variable {abi : Abi}

/-- Every command was decoded where the client sent it, and handled with its whole payload. -/
structure Aligned (messages : List Message) (conn : Connection abi) : Prop where
  decoded : ∀ d ∈ conn.decoded, ∃ m, SentAt abi.order messages d.1 m ∧ d.2 = m.cmnd
  handled : ∀ r ∈ conn.log, ∃ m, SentAt abi.order messages r.start m ∧ r.cmnd = m.cmnd ∧
    r.payload = m.payload

/-- The loop stands between the messages it handled and those behind them; `unsent` is what the
client had still to write when the stream was cut. -/
def Position (messages : List Message) (unsent : List UInt8) (conn : Connection abi) : Prop :=
  match conn.phase with
  | .header got => ∃ before after, messages = before ++ after ∧
      got ++ (conn.pending ++ unsent) = wireOf abi.order after ∧
      conn.consumed = (wireOf abi.order before).length + got.length
  | .payload start cmnd got => ∃ before m after, messages = before ++ m :: after ∧
      start = (wireOf abi.order before).length ∧ cmnd = m.cmnd ∧
      got ++ (conn.pending ++ unsent) = m.payload ++ wireOf abi.order after ∧
      conn.consumed = start + sizeofCommand + got.length
  | _ => True

/-- A read of a payload delivers bytes. -/
def PayloadDelivered (conn : Connection abi) (e : ReadEvent) : Prop :=
  ∀ start cmnd got, conn.phase = .payload start cmnd got → ∃ extra, e = .ready extra

/-- What steps that lose no payload keep. -/
structure Follows (messages : List Message) (unsent : List UInt8) (conn : Connection abi) :
    Prop where
  valid : conn.Valid
  aligned : Aligned messages conn
  position : Position messages unsent conn

theorem wireOf_cons (order : ByteOrder) (m : Message) (messages : List Message) :
    wireOf order (m :: messages) = m.cmnd.store order ++ (m.payload ++ wireOf order messages) := by
  simp [wireOf, Message.wire]

theorem length_wireOf_snoc (order : ByteOrder) (messages : List Message) (m : Message) :
    (wireOf order (messages ++ [m])).length =
      (wireOf order messages).length + sizeofCommand + m.payload.length := by
  simp [wireOf, Message.wire]
  omega

/-- A payload is empty exactly when the command announces none. -/
private theorem payload_eq_nil {m : Message} (h : m.cmnd.dataSize = 0) : m.payload = [] := by
  apply List.length_eq_zero_iff.mp
  rw [m.payload_length, h]
  rfl

/-- Handling the message at the loop's position keeps the loop at a message boundary. -/
private theorem follows_execute {handler : Handler} {h : Host abi} (conn : Connection abi)
    {before after : List Message} {m : Message} {unsent payload parameter : List UInt8}
    {start : Nat} (ha : Aligned (before ++ m :: after) conn)
    (hp : conn.pending ++ unsent = wireOf abi.order after)
    (hs : start = (wireOf abi.order before).length) (hm : payload = m.payload)
    (hc : conn.consumed = start + sizeofCommand + payload.length) :
    Follows (before ++ m :: after) unsent
      (conn.execute handler h start m.cmnd payload parameter) where
  valid := Connection.valid_execute ..
  aligned := by
    refine ⟨ha.decoded, fun r hr ↦ ?_⟩
    simp only [Connection.log_execute, List.mem_append, List.mem_singleton] at hr
    rcases hr with hr | rfl
    · exact ha.handled r hr
    · exact ⟨m, ⟨before, after, rfl, hs⟩, rfl, hm⟩
  position := by
    simp only [Position, Connection.execute]
    cases (handler.react h conn.log.length m.cmnd.command.toNat parameter).control with
    | loop =>
      refine ⟨before ++ [m], after, by simp, hp, ?_⟩
      rw [length_wireOf_snoc, ← hs, ← hm]
      exact hc
    | _ => exact trivial

/-- Decoding the command at the loop's position keeps the loop in step with the messages. -/
private theorem follows_decode {handler : Handler} {h : Host abi} (conn : Connection abi)
    {conn' : Connection abi} {before after : List Message} {m : Message} {unsent : List UInt8}
    {start : Nat} (ha : Aligned (before ++ m :: after) conn)
    (hp : conn.pending ++ unsent = m.payload ++ wireOf abi.order after)
    (hs : start = (wireOf abi.order before).length)
    (hc : conn.consumed = start + sizeofCommand)
    (hd : Decoding handler h conn start m.cmnd conn') :
    Follows (before ++ m :: after) unsent conn' := by
  have ha' : Aligned (before ++ m :: after) (conn.enter start m.cmnd) := by
    refine ⟨fun d hd ↦ ?_, ha.handled⟩
    simp only [Connection.decoded_enter, List.mem_append, List.mem_singleton] at hd
    rcases hd with hd | rfl
    · exact ha.decoded d hd
    · exact ⟨m, ⟨before, after, rfl, hs⟩, rfl⟩
  cases hd with
  | oversize =>
    exact ⟨by cases handler <;> exact trivial, ⟨ha'.decoded, ha'.handled⟩,
      by cases handler <;> exact trivial⟩
  | payload some fits =>
    exact ⟨⟨Nat.pos_of_ne_zero fun hz ↦ some (UInt64.toNat_inj.mp hz), fits⟩,
      ⟨ha'.decoded, ha'.handled⟩, ⟨before, m, after, rfl, hs, rfl, hp, hc⟩⟩
  | inline none =>
    have hn := payload_eq_nil none
    rw [hn] at hp
    exact follows_execute ((conn.enter start m.cmnd).access _)
      ⟨ha'.decoded, ha'.handled⟩ hp hs hn.symm hc
  | bare none =>
    have hn := payload_eq_nil none
    rw [hn] at hp
    exact follows_execute (conn.enter start m.cmnd) ha' hp hs hn.symm hc

/-- A part of the stream that is as long as its first part is that part. -/
private theorem split_stream {got piece rest unsent first after : List UInt8}
    (hs : got ++ (piece ++ rest ++ unsent) = first ++ after)
    (hl : (got ++ piece).length = first.length) :
    got ++ piece = first ∧ rest ++ unsent = after := by
  apply List.append_inj _ hl
  rw [← hs]
  simp

/-- The bytes of a whole command are those of the next message. -/
private theorem next_message {order : ByteOrder} {got piece rest unsent : List UInt8}
    {after : List Message} (hw : got ++ (piece ++ rest ++ unsent) = wireOf order after)
    (full : (got ++ piece).length = sizeofCommand) :
    ∃ m after', after = m :: after' ∧ got ++ piece = m.cmnd.store order ∧
      rest ++ unsent = m.payload ++ wireOf order after' := by
  cases after with
  | nil =>
    have hl := congrArg List.length hw
    simp only [wireOf, List.flatMap_nil, List.length_nil, List.length_append] at hl full
    simp only [sizeofCommand] at full
    omega
  | cons m after =>
    rw [wireOf_cons] at hw
    exact ⟨m, after, rfl, split_stream hw (by rw [full, Command.length_store])⟩

private theorem consumed_advance {conn : Connection abi} {piece rest : List UInt8}
    (hp : conn.pending = piece ++ rest) :
    (conn.advance rest).consumed = conn.consumed + piece.length := by
  simp [Connection.advance, hp]

/-- A transition that loses no payload keeps the loop in step with the messages. -/
private theorem follows_transition {handler : Handler} {h : Host abi} {conn conn' : Connection abi}
    {messages : List Message} {unsent : List UInt8} {e : ReadEvent}
    (hf : Follows messages unsent conn) (hv : conn'.Valid) (hd : PayloadDelivered conn e)
    (ht : Transition handler h conn e conn') : Follows messages unsent conn' := by
  obtain ⟨valid, ha, hpos⟩ := hf
  cases ht with
  | idle => exact ⟨valid, ha, hpos⟩
  | @headerMore got piece rest phase pending =>
    refine ⟨hv, ⟨ha.decoded, ha.handled⟩, ?_⟩
    simp only [Position, phase] at hpos
    obtain ⟨before, after, hm, hw, hc⟩ := hpos
    refine ⟨before, after, hm, ?_, ?_⟩
    · rw [← hw, pending]
      simp [Connection.advance]
    · have := consumed_advance pending
      simp only [List.length_append]
      omega
  | @headerFull got piece rest phase pending full =>
    simp only [Position, phase] at hpos
    obtain ⟨before, after, rfl, hw, hc⟩ := hpos
    rw [pending] at hw
    obtain ⟨m, after, rfl, hb, hr⟩ := next_message hw full
    rw [hb]
    have hc' := consumed_advance pending
    simp only [List.length_append] at full
    refine follows_decode (conn.advance rest)
      ⟨ha.decoded, ha.handled⟩ hr ?_ ?_ (Connection.decode_store rfl)
    · omega
    · omega
  | headerStopped => exact ⟨hv, ⟨ha.decoded, ha.handled⟩, trivial⟩
  | @payloadMore start cmnd got piece rest phase pending =>
    refine ⟨hv, ⟨ha.decoded, ha.handled⟩, ?_⟩
    simp only [Position, phase] at hpos
    obtain ⟨before, m, after, hm, hs, hcm, hw, hc⟩ := hpos
    refine ⟨before, m, after, hm, hs, hcm, ?_, ?_⟩
    · rw [← hw, pending]
      simp [Connection.advance, Connection.access]
    · have : (conn.advance rest).consumed = _ := consumed_advance pending
      simp only [List.length_append]
      change (conn.advance rest).consumed = _
      omega
  | @payloadFull start cmnd got piece rest phase pending full =>
    simp only [Position, phase] at hpos
    obtain ⟨before, m, after, rfl, hs, rfl, hw, hc⟩ := hpos
    rw [pending] at hw
    obtain ⟨hb, hr⟩ := split_stream hw (by rw [full, m.payload_length])
    have hc' := consumed_advance pending
    refine follows_execute ((conn.advance rest).access _) ⟨ha.decoded, ha.handled⟩ hr hs hb
      ?_
    change (conn.advance rest).consumed = _
    simp only [List.length_append]
    omega
  | payloadStopped phase silent =>
    obtain ⟨extra, he⟩ := hd _ _ _ phase
    exact absurd he (silent extra)

/-- What steps that lose no payload keep holds after a run of such steps. -/
theorem follows_run (handler : Handler) (h : Host abi) (messages : List Message) (sent : Nat)
    (events : List ReadEvent)
    (delivered : StepsMeet (Connection.step handler h) PayloadDelivered
      (Connection.fresh abi ((wireOf abi.order messages).take sent)) events) :
    Follows messages ((wireOf abi.order messages).drop sent)
      (run (Connection.step handler h)
        (Connection.fresh abi ((wireOf abi.order messages).take sent)) events) := by
  apply run_invariant_of_steps _ _ (fun conn e hd hf ↦ ?_) _ events delivered
  · refine ⟨Connection.valid_fresh _, ⟨by simp [Connection.fresh], by simp [Connection.fresh]⟩, ?_⟩
    exact ⟨[], messages, rfl, List.take_append_drop _ _, rfl⟩
  · exact follows_transition hf (conn.valid_step handler h e hf.valid) hd
      (Connection.step_transition hf.valid rfl)

/-- The payload of a command that was handled is as long as the command says. -/
theorem Aligned.length_payload {messages : List Message} {conn : Connection abi}
    (ha : Aligned messages conn) : ∀ r ∈ conn.log, r.payload.length = r.cmnd.dataSize.toNat := by
  intro r hr
  obtain ⟨m, -, hc, hp⟩ := ha.handled r hr
  rw [hc, hp, m.payload_length]

/-- No payload is lost: in every run whose reads of payloads all deliver, on every stream of
messages cut anywhere, each command is decoded where the client sent it and handled with the
payload the client sent, and a getter runs only when all of it was received. -/
theorem handled_whole (handler : Handler) (h : Host abi) (messages : List Message) (sent : Nat)
    (events : List ReadEvent)
    (delivered : StepsMeet (Connection.step handler h) PayloadDelivered
      (Connection.fresh abi ((wireOf abi.order messages).take sent)) events) :
    let conn := run (Connection.step handler h)
      (Connection.fresh abi ((wireOf abi.order messages).take sent)) events
    Aligned messages conn ∧
      ∀ r ∈ conn.log, r.reaction.invocations ≠ [] →
        r.payload.length = r.cmnd.dataSize.toNat := by
  intro conn
  have ha := (follows_run handler h messages sent events delivered).aligned
  exact ⟨ha, fun r hr _ ↦ ha.length_payload r hr⟩

/-- A request for the load of an interface whose name does not fit the inline parameter. -/
def netloadMessage : Message where
  cmnd :=
    { command := 22
      size := 0
      dataSize := 18
      parameter := zeros glibtopParamSize
      parameter_length := length_zeros _ }
  payload := List.replicate 17 97 ++ [0]
  payload_length := by decide

/-- Reads that deliver never lose a payload. -/
theorem stepsMeet_delivering (handler : Handler) (h : Host abi) (conn : Connection abi)
    (extras : List Nat) :
    StepsMeet (Connection.step handler h) PayloadDelivered conn (delivering extras) := by
  induction extras generalizing conn with
  | nil => trivial
  | cons extra extras ih => exact ⟨fun _ _ _ _ ↦ ⟨extra, rfl⟩, ih _⟩

/-- Two such messages, sent whole and read byte by byte. -/
theorem handled_whole_netload :
    let conn := run (Connection.step .parent (idleHost linuxAbi))
      (Connection.fresh linuxAbi
        ((wireOf linuxAbi.order [netloadMessage, netloadMessage]).take 116))
      (delivering (List.replicate 116 0))
    Aligned [netloadMessage, netloadMessage] conn ∧
      ∀ r ∈ conn.log, r.reaction.invocations ≠ [] →
        r.payload.length = r.cmnd.dataSize.toNat :=
  handled_whole .parent (idleHost linuxAbi) [netloadMessage, netloadMessage] 116
    (delivering (List.replicate 116 0)) (stepsMeet_delivering _ _ _ _)

/-- An interrupted read of the payload is overlooked: the getter runs without its name. -/
theorem handled_without_payload :
    ∃ r ∈ (run (Connection.step .parent (idleHost linuxAbi))
        (Connection.fresh linuxAbi ((wireOf linuxAbi.order [netloadMessage]).take 40))
        (delivering (List.replicate 40 0) ++ [.interrupted])).log,
      r.reaction.invocations ≠ [] ∧ r.payload.length ≠ r.cmnd.dataSize.toNat := by
  have hs : (wireOf linuxAbi.order [netloadMessage]).take 40 =
      netloadMessage.cmnd.store linuxAbi.order ++ [] := by
    rw [wireOf_cons, List.append_nil]
    exact List.take_left' (Command.length_store _ _)
  obtain ⟨left, -, hr⟩ := Connection.run_command .parent (idleHost linuxAbi)
    (Connection.fresh linuxAbi (netloadMessage.cmnd.store linuxAbi.order ++ []))
    netloadMessage.cmnd (List.replicate 40 0) rfl rfl (by simp [sizeofCommand])
  rw [hs, run_append, hr]
  generalize hd : Connection.decode _ _ _ _ = conn
  have hp : conn.pending = [] ∧ ∃ start, conn.phase = .payload start netloadMessage.cmnd [] := by
    cases Connection.decode_store hd with
    | payload => exact ⟨rfl, _, rfl⟩
    | oversize large => exact absurd large (by decide)
    | inline none => exact absurd none (by decide)
    | bare none => exact absurd none (by decide)
  obtain ⟨hp, start, hq⟩ := hp
  rw [Connection.run_of_pending_nil _ _ _ hp]
  have hi := Handler.invocations_of_serves .parent (idleHost linuxAbi) conn.log.length
    (overlay (zeros linuxAbi.bufsiz) []) .netload (by decide)
  have hst : conn.step .parent (idleHost linuxAbi) .interrupted =
      (conn.access [.parameterWrite 0 0]).execute .parent (idleHost linuxAbi) start
        netloadMessage.cmnd [] (overlay (zeros linuxAbi.bufsiz) []) := by
    simp [Connection.step, hq, readOnce, exactTurn, Connection.advance_pending, ReadResult.bytes]
  simp only [run_cons, run_nil, hst, Connection.log_execute, List.mem_append, List.mem_singleton]
  refine ⟨_, Or.inr rfl, ?_, ?_⟩
  · change (Handler.react .parent (idleHost linuxAbi) conn.log.length
      (Feature.cmnd .netload) _).invocations ≠ []
    rw [hi]
    simp
  · change 0 ≠ netloadMessage.cmnd.dataSize.toNat
    decide

end LibGTop.Protocol
