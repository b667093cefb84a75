import LibGTop.Base.Runs
import LibGTop.Base.Transfers
import LibGTop.Daemon.Dispatch

/-!
# The command loop of the two handlers

The `while` loop of `handle_parent_connection` and `handle_slave_connection` as
a state machine whose step is one `read` or `recv` of `do_read`
(`src/daemon/io.c:57–92`), so that a schedule may interrupt, cut short or end it
at every byte of the stream. A state also records what the loop has done: the
commands it decoded, the accesses its copies made and the commands it handled.
-/

namespace LibGTop.Daemon

open Base Wire

/-- A range of bytes a handler reads from `cmnd->parameter` or writes to `parameter`. -/
inductive Access
  | inlineRead (offset size : Nat)
  | parameterWrite (offset size : Nat)
  deriving DecidableEq, Repr

/-- The range lies inside its array: `_GLIBTOP_PARAM_SIZE` or `BUFSIZ` bytes. -/
def Access.InBounds (abi : Abi) : Access → Prop
  | inlineRead offset size => offset + size ≤ glibtopParamSize
  | parameterWrite offset size => offset + size ≤ abi.bufsiz

/-- Where the loop is: in the `do_read` of a command, in that of its payload, or behind its end. -/
inductive Phase
  | header (got : List UInt8)
  | payload (start : Nat) (cmnd : Command) (got : List UInt8)
  | returned
  | exited
  deriving DecidableEq

/-- Where the loop goes on after a reaction. -/
def Control.phase : Control → Phase
  | loop => .header []
  | returned => .returned
  | exited => .exited

/-- A command that reached the `switch`: the offset of its first byte in the stream, the payload
bytes `do_read` stored, the content of `parameter`, what the handler did and the offset of the
first byte it had not consumed then. -/
structure Handled (abi : Abi) where
  start : Nat
  cmnd : Command
  payload : List UInt8
  parameter : List UInt8
  reaction : Reaction abi
  stop : Nat

/-- The state of a handler's loop; `pending` is what its peer wrote and it has not consumed,
`decoded` the commands it read with the offsets of their first bytes. -/
structure Connection (abi : Abi) where
  phase : Phase
  pending : List UInt8
  consumed : Nat
  decoded : List (Nat × Command)
  accesses : List Access
  log : List (Handled abi)

variable {abi : Abi}

/-- The loop before its first command, on a stream. -/
def Connection.fresh (abi : Abi) (stream : List UInt8) : Connection abi :=
  ⟨.header [], stream, 0, [], [], []⟩

/-- The state after a call that left these bytes pending. -/
def Connection.advance (conn : Connection abi) (pending : List UInt8) : Connection abi :=
  { conn with
    pending := pending
    consumed := conn.consumed + (conn.pending.length - pending.length) }

/-- The state after these accesses. -/
def Connection.access (conn : Connection abi) (accesses : List Access) : Connection abi :=
  { conn with accesses := conn.accesses ++ accesses }

/-- The `switch` on a command whose parameters are in place. -/
def Connection.execute (handler : Handler) (h : Host abi) (conn : Connection abi) (start : Nat)
    (cmnd : Command) (payload parameter : List UInt8) : Connection abi :=
  let reaction := handler.react h conn.log.length cmnd.command.toNat parameter
  { conn with
    phase := reaction.control.phase
    log := conn.log ++ [⟨start, cmnd, payload, parameter, reaction, conn.consumed⟩] }

/-- The bytes `memcpy (parameter, cmnd->parameter, size)` copies: those of the inline array and,
for a larger size, those behind it. -/
def inlineBytes (beyond : Nat → UInt8) (cmnd : Command) (size : Nat) : List UInt8 :=
  cmnd.parameter.take size ++ (List.range (size - glibtopParamSize)).map beyond

/-- The state once a command is read and `parameter` is cleared; only the second of the two
`memset` calls writes to `parameter`. -/
def Connection.enter (conn : Connection abi) (start : Nat) (cmnd : Command) : Connection abi :=
  { conn.access [.parameterWrite 0 abi.bufsiz] with decoded := conn.decoded ++ [(start, cmnd)] }

/-- A handler between the two `do_read` calls, with the bytes of a command it has just read:
`src/daemon/main.c:67–95`, `src/daemon/slave.c:48–69`. -/
def Connection.decode (handler : Handler) (h : Host abi) (conn : Connection abi)
    (bytes : List UInt8) : Connection abi :=
  let cmnd := Command.load abi.order bytes
  let start := conn.consumed - sizeofCommand
  let conn := conn.enter start cmnd
  if cmnd.dataSize ≠ 0 then
    if abi.bufsiz ≤ cmnd.dataSize.toNat then { conn with phase := handler.oversize.phase }
    else { conn with phase := .payload start cmnd [] }
  else if cmnd.size ≠ 0 then
    if abi.bufsiz ≤ cmnd.size.toNat then { conn with phase := handler.oversize.phase }
    else
      let size := cmnd.size.toNat
      let bytes := inlineBytes (h.beyond conn.log.length) cmnd size
      (conn.access [.inlineRead 0 size, .parameterWrite 0 size]).execute handler h start cmnd []
        (overlay (zeros abi.bufsiz) bytes)
  else conn.execute handler h start cmnd [] (zeros abi.bufsiz)

/-- One `read` of the loop. `do_read` does not repeat an interrupted call; the loop ends when the
`do_read` of a command fails, but the result of the one for the payload is not looked at. -/
def Connection.step (handler : Handler) (h : Host abi) (conn : Connection abi) (e : ReadEvent) :
    Connection abi :=
  match conn.phase with
  | .header got =>
    match readOnce (sizeofCommand - got.length) conn.pending e with
    | none => conn
    | some (result, pending) =>
      match exactTurn false sizeofCommand got result with
      | .again got' => { conn.advance pending with phase := .header got' }
      | .full got' => (conn.advance pending).decode handler h got'
      | .stopped => { conn.advance pending with phase := .returned }
  | .payload start cmnd got =>
    match readOnce (cmnd.dataSize.toNat - got.length) conn.pending e with
    | none => conn
    | some (result, pending) =>
      let conn := (conn.advance pending).access [.parameterWrite got.length result.bytes.length]
      match exactTurn false cmnd.dataSize.toNat got result with
      | .again got' => { conn with phase := .payload start cmnd got' }
      | .full got' => conn.execute handler h start cmnd got' (overlay (zeros abi.bufsiz) got')
      | .stopped => conn.execute handler h start cmnd got (overlay (zeros abi.bufsiz) got)
  | .returned => conn
  | .exited => conn

/-- A `do_read` that is under way still wants bytes, and a payload fits `parameter`. -/
def Connection.Valid (conn : Connection abi) : Prop :=
  match conn.phase with
  | .header got => got.length < sizeofCommand
  | .payload _ cmnd got => got.length < cmnd.dataSize.toNat ∧ cmnd.dataSize.toNat < abi.bufsiz
  | _ => True

/-- The loop has ended. -/
def Phase.Ended (p : Phase) : Prop := p = .returned ∨ p = .exited

/-- What one `read` can do to the loop. -/
inductive Transition (handler : Handler) (h : Host abi) (conn : Connection abi) (e : ReadEvent) :
    Connection abi → Prop
  | idle (quiet : conn.phase.Ended ∨ conn.pending = []) : Transition handler h conn e conn
  | headerMore {got piece rest : List UInt8} (phase : conn.phase = .header got)
      (pending : conn.pending = piece ++ rest) (piece_ne : piece ≠ [])
      (short : (got ++ piece).length < sizeofCommand) :
      Transition handler h conn e { conn.advance rest with phase := .header (got ++ piece) }
  | headerFull {got piece rest : List UInt8} (phase : conn.phase = .header got)
      (pending : conn.pending = piece ++ rest)
      (full : (got ++ piece).length = sizeofCommand) :
      Transition handler h conn e ((conn.advance rest).decode handler h (got ++ piece))
  | headerStopped {got : List UInt8} (phase : conn.phase = .header got)
      (silent : ∀ extra, e ≠ .ready extra) :
      Transition handler h conn e { conn with phase := .returned }
  | payloadMore {start : Nat} {cmnd : Command} {got piece rest : List UInt8}
      (phase : conn.phase = .payload start cmnd got)
      (pending : conn.pending = piece ++ rest) (piece_ne : piece ≠ [])
      (short : (got ++ piece).length < cmnd.dataSize.toNat) :
      Transition handler h conn e
        { (conn.advance rest).access [.parameterWrite got.length piece.length] with
          phase := .payload start cmnd (got ++ piece) }
  | payloadFull {start : Nat} {cmnd : Command} {got piece rest : List UInt8}
      (phase : conn.phase = .payload start cmnd got)
      (pending : conn.pending = piece ++ rest)
      (full : (got ++ piece).length = cmnd.dataSize.toNat) :
      Transition handler h conn e
        (((conn.advance rest).access [.parameterWrite got.length piece.length]).execute handler h
          start cmnd (got ++ piece) (overlay (zeros abi.bufsiz) (got ++ piece)))
  | payloadStopped {start : Nat} {cmnd : Command} {got : List UInt8}
      (phase : conn.phase = .payload start cmnd got) (silent : ∀ extra, e ≠ .ready extra) :
      Transition handler h conn e
        ((conn.access [.parameterWrite got.length 0]).execute handler h start cmnd got
          (overlay (zeros abi.bufsiz) got))

theorem Connection.advance_pending (conn : Connection abi) : conn.advance conn.pending = conn := by
  simp [advance]

/-- Every step of a valid state is one of these transitions. -/
theorem Connection.step_transition {handler : Handler} {h : Host abi} {conn conn' : Connection abi}
    {e : ReadEvent} (valid : conn.Valid) (hs : conn.step handler h e = conn') :
    Transition handler h conn e conn' := by
  subst hs
  unfold step
  unfold Valid at valid
  cases hp : conn.phase with
  | header got =>
    simp only [hp] at valid ⊢
    rcases turn_cases e valid with ⟨hr, hn, -⟩ | ⟨piece, rest, hr, hs, hn, hl, -⟩ |
      ⟨result, hr, -, ht, hq⟩
    · rw [hr]
      exact .idle (Or.inr hn)
    · simp only [hr]
      rcases Nat.lt_or_ge (got ++ piece).length sizeofCommand with hlt | hge
      · rw [exactTurn_of_lt false hlt]
        exact .headerMore hp hs hn hlt
      · rw [exactTurn_of_le false hge]
        exact .headerFull hp hs (by omega)
    · simp only [hr, ht, advance_pending]
      exact .headerStopped hp hq
  | payload start cmnd got =>
    simp only [hp] at valid ⊢
    rcases turn_cases e valid.1 with ⟨hr, hn, -⟩ | ⟨piece, rest, hr, hs, hn, hl, -⟩ |
      ⟨result, hr, hb, ht, hq⟩
    · rw [hr]
      exact .idle (Or.inr hn)
    · simp only [hr, ReadResult.bytes]
      rcases Nat.lt_or_ge (got ++ piece).length cmnd.dataSize.toNat with hlt | hge
      · rw [exactTurn_of_lt false hlt]
        exact .payloadMore hp hs hn hlt
      · rw [exactTurn_of_le false hge]
        exact .payloadFull hp hs (by omega)
    · simp only [hr, ht, hb, advance_pending, List.length_nil]
      exact .payloadStopped hp hq
  | returned => exact .idle (Or.inl (Or.inl hp))
  | exited => exact .idle (Or.inl (Or.inr hp))

section Fields

variable (conn : Connection abi) (handler : Handler) (h : Host abi) (start : Nat) (cmnd : Command)
  (payload parameter pending : List UInt8) (accesses : List Access)

@[simp] theorem Connection.accesses_execute :
    (conn.execute handler h start cmnd payload parameter).accesses = conn.accesses := rfl

@[simp] theorem Connection.decoded_execute :
    (conn.execute handler h start cmnd payload parameter).decoded = conn.decoded := rfl

@[simp] theorem Connection.log_execute :
    (conn.execute handler h start cmnd payload parameter).log = conn.log ++
      [⟨start, cmnd, payload, parameter,
        handler.react h conn.log.length cmnd.command.toNat parameter, conn.consumed⟩] := rfl

@[simp] theorem Connection.accesses_access :
    (conn.access accesses).accesses = conn.accesses ++ accesses := rfl

@[simp] theorem Connection.decoded_access : (conn.access accesses).decoded = conn.decoded := rfl

@[simp] theorem Connection.accesses_enter :
    (conn.enter start cmnd).accesses = conn.accesses ++ [.parameterWrite 0 abi.bufsiz] := rfl

@[simp] theorem Connection.decoded_enter :
    (conn.enter start cmnd).decoded = conn.decoded ++ [(start, cmnd)] := rfl

@[simp] theorem Connection.accesses_advance :
    (conn.advance pending).accesses = conn.accesses := rfl

@[simp] theorem Connection.decoded_advance :
    (conn.advance pending).decoded = conn.decoded := rfl

@[simp] theorem Connection.log_advance : (conn.advance pending).log = conn.log := rfl

end Fields

/-- What a handler can do with the bytes of a command. -/
inductive Decoding (handler : Handler) (h : Host abi) (conn : Connection abi) (start : Nat)
    (cmnd : Command) : Connection abi → Prop
  | oversize (large : abi.bufsiz ≤ cmnd.dataSize.toNat ∨
      (cmnd.dataSize = 0 ∧ abi.bufsiz ≤ cmnd.size.toNat)) :
      Decoding handler h conn start cmnd
        { conn.enter start cmnd with phase := handler.oversize.phase }
  | payload (some : cmnd.dataSize ≠ 0) (fits : cmnd.dataSize.toNat < abi.bufsiz) :
      Decoding handler h conn start cmnd
        { conn.enter start cmnd with phase := .payload start cmnd [] }
  | inline (none : cmnd.dataSize = 0) (some : cmnd.size ≠ 0) (fits : cmnd.size.toNat < abi.bufsiz) :
      Decoding handler h conn start cmnd
        (((conn.enter start cmnd).access
          [.inlineRead 0 cmnd.size.toNat, .parameterWrite 0 cmnd.size.toNat]).execute handler h
          start cmnd [] (overlay (zeros abi.bufsiz)
            (inlineBytes (h.beyond conn.log.length) cmnd cmnd.size.toNat)))
  | bare (none : cmnd.dataSize = 0) (none' : cmnd.size = 0) :
      Decoding handler h conn start cmnd
        ((conn.enter start cmnd).execute handler h start cmnd [] (zeros abi.bufsiz))

/-- Decoding the bytes of a command is one of these. -/
theorem Connection.decode_decoding {handler : Handler} {h : Host abi} {conn conn' : Connection abi}
    {bytes : List UInt8} (hs : conn.decode handler h bytes = conn') :
    Decoding handler h conn (conn.consumed - sizeofCommand) (Command.load abi.order bytes)
      conn' := by
  subst hs
  unfold decode
  by_cases hd : (Command.load abi.order bytes).dataSize = 0
  · by_cases hs : (Command.load abi.order bytes).size = 0
    · simp only [hd, hs, ne_eq, not_true_eq_false, if_false]
      exact .bare hd hs
    · rcases Nat.lt_or_ge (Command.load abi.order bytes).size.toNat abi.bufsiz with hl | hg
      · simp only [hd, hs, ne_eq, not_true_eq_false, not_false_eq_true, if_true, if_false,
          Nat.not_le.mpr hl]
        exact .inline hd hs hl
      · simp only [hd, hs, ne_eq, not_true_eq_false, not_false_eq_true, if_true, if_false, hg]
        exact .oversize (Or.inr ⟨hd, hg⟩)
  · rcases Nat.lt_or_ge (Command.load abi.order bytes).dataSize.toNat abi.bufsiz with hl | hg
    · simp only [hd, ne_eq, not_false_eq_true, if_true, Nat.not_le.mpr hl, if_false]
      exact .payload hd hl
    · simp only [hd, ne_eq, not_false_eq_true, if_true, hg]
      exact .oversize (Or.inl hg)

theorem Connection.valid_fresh (stream : List UInt8) : (fresh abi stream).Valid := by
  simp [Valid, fresh, sizeofCommand]

theorem Connection.valid_execute (handler : Handler) (h : Host abi) (conn : Connection abi)
    (start : Nat) (cmnd : Command) (payload parameter : List UInt8) :
    (conn.execute handler h start cmnd payload parameter).Valid := by
  simp only [Valid, execute]
  cases (handler.react h conn.log.length cmnd.command.toNat parameter).control <;>
    simp [Control.phase, sizeofCommand]

/-- A step keeps a state valid. -/
theorem Connection.valid_step (handler : Handler) (h : Host abi) (conn : Connection abi)
    (e : ReadEvent) (valid : conn.Valid) : (conn.step handler h e).Valid := by
  generalize hs : conn.step handler h e = conn'
  cases step_transition valid hs with
  | idle => exact valid
  | headerMore _ _ _ short => exact short
  | headerFull _ _ _ =>
    generalize hd : Connection.decode _ _ _ _ = conn' at hs ⊢
    cases decode_decoding hd with
    | oversize => cases handler <;> exact trivial
    | payload some fits =>
      refine ⟨Nat.pos_of_ne_zero fun hz ↦ some ?_, fits⟩
      exact UInt64.toNat_inj.mp hz
    | _ => exact valid_execute ..
  | headerStopped => exact trivial
  | payloadMore phase _ _ short =>
    simp only [Valid, phase] at valid
    exact ⟨short, valid.2⟩
  | payloadFull => exact valid_execute ..
  | payloadStopped => exact valid_execute ..

/-- A schedule of reads that deliver; the numbers bound the pieces. -/
def delivering (extras : List Nat) : List ReadEvent := extras.map .ready

@[simp] theorem delivering_cons (extra : Nat) (extras : List Nat) :
    delivering (extra :: extras) = .ready extra :: delivering extras := rfl

/-- A loop that waits for bytes of an empty stream stays where it is. -/
theorem Connection.run_of_pending_nil (handler : Handler) (h : Host abi) (conn : Connection abi)
    (hp : conn.pending = []) (extras : List Nat) :
    run (step handler h) conn (delivering extras) = conn := by
  induction extras with
  | nil => rfl
  | cons extra extras ih =>
    have hs : conn.step handler h (.ready extra) = conn := by
      unfold step
      cases conn.phase <;> simp [readOnce, hp]
    rw [delivering_cons, run_cons, hs, ih]

theorem Connection.decode_phase (handler : Handler) (h : Host abi) (conn : Connection abi)
    (p : Phase) (bytes : List UInt8) :
    { conn with phase := p }.decode handler h bytes = conn.decode handler h bytes := rfl

/-- A read that delivers brings a command nearer, or completes it. -/
theorem Connection.step_header (handler : Handler) (h : Host abi) (conn : Connection abi)
    {got bytes rest : List UInt8} (extra : Nat) (phase : conn.phase = .header got)
    (short : got.length < sizeofCommand) (pending : conn.pending = bytes ++ rest)
    (full : (got ++ bytes).length = sizeofCommand) :
    (∃ piece bytes', bytes = piece ++ bytes' ∧ piece ≠ [] ∧ bytes' ≠ [] ∧
      conn.step handler h (.ready extra) =
        { conn.advance (bytes' ++ rest) with phase := .header (got ++ piece) }) ∨
    conn.step handler h (.ready extra) = (conn.advance rest).decode handler h (got ++ bytes) := by
  have valid : conn.Valid := by simpa [Valid, phase] using short
  have hb : bytes ≠ [] := by
    rintro rfl
    simp only [List.append_nil] at full
    omega
  generalize hs : conn.step handler h (.ready extra) = conn'
  cases step_transition valid hs with
  | idle quiet =>
    rcases quiet with (hq | hq) | hq
    · simp [phase] at hq
    · simp [phase] at hq
    · simp [pending, hb] at hq
  | @headerMore got' piece rest' phase' pending' hn hlt =>
    obtain rfl := Phase.header.inj (phase.symm.trans phase')
    rw [pending] at pending'
    obtain ⟨bytes', rfl, rfl⟩ | ⟨after, rfl, rfl⟩ := List.append_eq_append_iff.mp pending'
    · simp only [List.length_append] at full hlt
      omega
    · left
      refine ⟨piece, after, rfl, hn, ?_, rfl⟩
      rintro rfl
      simp only [List.append_nil] at full
      omega
  | @headerFull got' piece rest' phase' pending' hf =>
    obtain rfl := Phase.header.inj (phase.symm.trans phase')
    rw [pending] at pending'
    have hl : bytes.length = piece.length := by
      simp only [List.length_append] at full hf
      omega
    obtain ⟨rfl, rfl⟩ := List.append_inj pending' hl
    exact Or.inr rfl
  | headerStopped _ silent => exact absurd rfl (silent extra)
  | payloadMore phase' => simp [phase] at phase'
  | payloadFull phase' => simp [phase] at phase'
  | payloadStopped phase' => simp [phase] at phase'

/-- When the bytes of a command are there, reads that deliver lead to its decoding, however they
cut it. -/
theorem Connection.run_header (handler : Handler) (h : Host abi) (conn : Connection abi)
    {got bytes rest : List UInt8} (extras : List Nat) (phase : conn.phase = .header got)
    (short : got.length < sizeofCommand) (pending : conn.pending = bytes ++ rest)
    (full : (got ++ bytes).length = sizeofCommand) (enough : bytes.length ≤ extras.length) :
    ∃ left, extras.length ≤ left.length + bytes.length ∧
      run (step handler h) conn (delivering extras) =
        run (step handler h) ((conn.advance rest).decode handler h (got ++ bytes))
          (delivering left) := by
  induction extras generalizing conn got bytes with
  | nil =>
    simp only [List.length_append] at full
    simp only [List.length_nil] at enough
    omega
  | cons extra extras ih =>
    rw [delivering_cons, run_cons]
    rcases conn.step_header handler h extra phase short pending full with
      ⟨piece, bytes', rfl, hn, hn', hs⟩ | hs
    · have hpos := List.length_pos_iff.mpr hn
      have hpos' := List.length_pos_iff.mpr hn'
      simp only [List.length_append, List.length_cons] at full enough
      obtain ⟨left, hl, hr⟩ := ih { conn.advance (bytes' ++ rest) with
          phase := .header (got ++ piece) } rfl (by rw [List.length_append]; omega) rfl
        (by simp only [List.length_append]; omega) (by omega)
      refine ⟨left, by simp only [List.length_append, List.length_cons]; omega, ?_⟩
      have ha : ({ conn.advance (bytes' ++ rest) with
          phase := .header (got ++ piece) } : Connection abi).advance rest =
          { conn.advance rest with phase := .header (got ++ piece) } := by
        simp only [advance, pending, List.length_append]
        congr 1
        omega
      rw [hs, hr, List.append_assoc, ha, decode_phase]
    · refine ⟨extras, ?_, by rw [hs]⟩
      simp only [List.length_append, List.length_cons] at full ⊢
      omega

/-- A loop that waits for a command which is all there decodes it, however the reads cut it. -/
theorem Connection.run_command (handler : Handler) (h : Host abi) (conn : Connection abi)
    {rest : List UInt8} (c : Command) (extras : List Nat) (phase : conn.phase = .header [])
    (pending : conn.pending = c.store abi.order ++ rest)
    (enough : sizeofCommand ≤ extras.length) :
    ∃ left, extras.length ≤ left.length + sizeofCommand ∧
      run (step handler h) conn (delivering extras) =
        run (step handler h) ((conn.advance rest).decode handler h (c.store abi.order))
          (delivering left) := by
  simpa using conn.run_header handler h extras phase (by decide) pending (by simp)
    (by simpa using enough)

/-- Decoding the image of a command is decoding that command. -/
theorem Connection.decode_store {handler : Handler} {h : Host abi} {conn conn' : Connection abi}
    {c : Command} (hs : conn.decode handler h (c.store abi.order) = conn') :
    Decoding handler h conn (conn.consumed - sizeofCommand) c conn' := by
  simpa [Command.load_store] using decode_decoding hs

/-- What a command has been answered with is not taken back. -/
theorem Connection.log_prefix_run (handler : Handler) (h : Host abi) (conn : Connection abi)
    (events : List ReadEvent) (valid : conn.Valid) :
    conn.log <+: (run (step handler h) conn events).log := by
  refine (run_invariant _ (fun conn' ↦ conn'.Valid ∧ conn.log <+: conn'.log)
    (fun conn' e hi ↦ ⟨valid_step handler h conn' e hi.1, hi.2.trans ?_⟩) conn events
    ⟨valid, List.prefix_rfl⟩).2
  generalize hs : conn'.step handler h e = conn''
  cases step_transition hi.1 hs with
  | headerFull =>
    generalize hd : Connection.decode _ _ _ _ = conn'' at hs ⊢
    cases decode_decoding hd with
    | oversize => exact List.prefix_rfl
    | payload => exact List.prefix_rfl
    | _ => exact List.prefix_append _ _
  | payloadFull => exact List.prefix_append _ _
  | payloadStopped => exact List.prefix_append _ _
  | _ => exact List.prefix_rfl

end LibGTop.Daemon
