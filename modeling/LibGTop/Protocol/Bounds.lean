import LibGTop.Daemon.Connection

/-!
# The memory a handler touches

The size of an inline parameter is compared with `BUFSIZ`, the size of the
destination, but not with `_GLIBTOP_PARAM_SIZE`, the size of the source. The
copies stay inside their arrays exactly when no command asks for more inline
bytes than there are and fewer than the buffer holds.
-/

namespace LibGTop.Protocol

open Base Wire Daemon

variable {abi : Abi}

/-- A command whose inline copy does not leave the inline array: it has a payload, its size is
within the array, or the size exceeds the buffer and nothing is copied. -/
def InlineSafe (abi : Abi) (c : Command) : Prop :=
  c.dataSize ≠ 0 ∨ c.size.toNat ≤ glibtopParamSize ∨ abi.bufsiz ≤ c.size.toNat

/-- Every access of the loop lies inside its array. -/
def InBounds (conn : Connection abi) : Prop := ∀ a ∈ conn.accesses, a.InBounds abi

/-- Every string the loop handed to a getter starts `parameter` and ends with a NUL inside. -/
def Terminated (conn : Connection abi) : Prop :=
  ∀ r ∈ conn.log, ∀ f args text, (f, args) ∈ r.reaction.invocations → Arg.string text ∈ args →
    r.parameter.length = abi.bufsiz ∧ (0 : UInt8) ∈ r.parameter ∧ text = cString r.parameter

/-- The commands decoded so far are safe. -/
def AllSafe (conn : Connection abi) : Prop := ∀ d ∈ conn.decoded, InlineSafe abi d.2

/-- What every step keeps. -/
structure Checked (conn : Connection abi) : Prop where
  valid : conn.Valid
  terminated : Terminated conn
  inBounds_iff : InBounds conn ↔ AllSafe conn

/-- Handling a command with a parameter that was copied into the cleared buffer keeps the
strings terminated. -/
private theorem terminated_execute {handler : Handler} {h : Host abi} (conn : Connection abi)
    {start : Nat} {cmnd : Command} {payload bytes : List UInt8} (ht : Terminated conn)
    (hb : bytes.length < abi.bufsiz) :
    Terminated (conn.execute handler h start cmnd payload (overlay (zeros abi.bufsiz) bytes)) := by
  intro r hr f args text hm hs
  simp only [Connection.log_execute, List.mem_append, List.mem_singleton] at hr
  rcases hr with hr | rfl
  · exact ht r hr f args text hm hs
  · obtain ⟨-, -, rfl⟩ := Handler.of_mem_invocations hm
    refine ⟨?_, zero_mem_overlay_zeros _ _ hb, Handler.string_mem_args hs⟩
    rw [length_overlay _ _ (by rw [length_zeros]; omega), length_zeros]

private theorem length_inlineBytes (beyond : Nat → UInt8) (cmnd : Command) (size : Nat) :
    (inlineBytes beyond cmnd size).length = size := by
  have hp := cmnd.parameter_length
  simp only [inlineBytes, List.length_append, List.length_take, List.length_map,
    List.length_range]
  omega

/-- More accesses and more commands that agree keep the equivalence. -/
private theorem inBounds_iff_extend {conn conn' : Connection abi} (accesses : List Access)
    (commands : List (Nat × Command)) (hi : InBounds conn ↔ AllSafe conn)
    (ha : conn'.accesses = conn.accesses ++ accesses)
    (hd : conn'.decoded = conn.decoded ++ commands)
    (hn : (∀ a ∈ accesses, a.InBounds abi) ↔ ∀ d ∈ commands, InlineSafe abi d.2) :
    InBounds conn' ↔ AllSafe conn' := by
  simp only [InBounds, AllSafe, ha, hd, List.forall_mem_append] at hi ⊢
  exact and_congr hi hn

/-- Decoding a command keeps what is checked. -/
private theorem checked_decode {handler : Handler} {h : Host abi} (conn : Connection abi)
    {conn' : Connection abi} {start : Nat} {cmnd : Command} (ht : Terminated conn)
    (hi : InBounds conn ↔ AllSafe conn) (hd : Decoding handler h conn start cmnd conn') :
    Terminated conn' ∧ (InBounds conn' ↔ AllSafe conn') := by
  have hz : ∀ n : UInt64, abi.bufsiz ≤ n.toNat → n ≠ 0 := by
    rintro n hn rfl
    have hb := abi.bufsiz_ge
    simp at hn
    omega
  cases hd with
  | oversize large =>
    refine ⟨ht, inBounds_iff_extend [.parameterWrite 0 abi.bufsiz] [(start, cmnd)] hi rfl rfl ?_⟩
    have hs : InlineSafe abi cmnd := by
      rcases large with hl | ⟨-, hl⟩
      · exact Or.inl (hz _ hl)
      · exact Or.inr (Or.inr hl)
    simp [Access.InBounds, hs]
  | payload some _ =>
    refine ⟨ht, inBounds_iff_extend [.parameterWrite 0 abi.bufsiz] [(start, cmnd)] hi rfl rfl ?_⟩
    simp [Access.InBounds, InlineSafe, some]
  | inline none _ fits =>
    constructor
    · exact terminated_execute ((conn.enter start cmnd).access _) ht
        (by rwa [length_inlineBytes])
    · refine inBounds_iff_extend ([.parameterWrite 0 abi.bufsiz] ++
        [.inlineRead 0 cmnd.size.toNat, .parameterWrite 0 cmnd.size.toNat]) [(start, cmnd)] hi
        (by simp) (by simp) ?_
      have hf : ¬ abi.bufsiz ≤ cmnd.size.toNat := Nat.not_le.mpr fits
      simp [Access.InBounds, InlineSafe, none, hf, Nat.le_of_lt fits]
  | bare none none' =>
    constructor
    · have hb := abi.bufsiz_ge
      have ho : zeros abi.bufsiz = overlay (zeros abi.bufsiz) [] := rfl
      rw [ho]
      exact terminated_execute (conn.enter start cmnd) ht (by simp; omega)
    · refine inBounds_iff_extend [.parameterWrite 0 abi.bufsiz] [(start, cmnd)] hi rfl rfl ?_
      simp [Access.InBounds, InlineSafe, none']

/-- A transition keeps what is checked. -/
private theorem checked_transition {handler : Handler} {h : Host abi} {conn conn' : Connection abi}
    {e : ReadEvent} (hc : Checked conn) (hs : Transition handler h conn e conn') :
    Terminated conn' ∧ (InBounds conn' ↔ AllSafe conn') := by
  obtain ⟨valid, ht, hi⟩ := hc
  cases hs with
  | idle => exact ⟨ht, hi⟩
  | headerMore => exact ⟨ht, hi⟩
  | @headerFull got piece rest =>
    exact checked_decode (conn.advance rest) ht hi (Connection.decode_decoding rfl)
  | headerStopped => exact ⟨ht, hi⟩
  | @payloadMore start cmnd got piece rest phase pending piece_ne short =>
    simp only [Connection.Valid, phase] at valid
    refine ⟨ht, inBounds_iff_extend [.parameterWrite got.length piece.length] [] hi rfl
      (by simp) ?_⟩
    simp only [List.length_append] at short
    simp only [List.forall_mem_singleton, Access.InBounds, List.not_mem_nil, false_implies,
      implies_true, iff_true]
    omega
  | @payloadFull start cmnd got piece rest phase pending full =>
    simp only [Connection.Valid, phase] at valid
    refine ⟨terminated_execute ((conn.advance rest).access _) ht (by omega),
      inBounds_iff_extend [.parameterWrite got.length piece.length] [] hi (by simp) (by simp) ?_⟩
    simp only [List.length_append] at full
    simp only [List.forall_mem_singleton, Access.InBounds, List.not_mem_nil, false_implies,
      implies_true, iff_true]
    omega
  | @payloadStopped start cmnd got phase silent =>
    simp only [Connection.Valid, phase] at valid
    refine ⟨terminated_execute (conn.access _) ht (by omega),
      inBounds_iff_extend [.parameterWrite got.length 0] [] hi (by simp) (by simp) ?_⟩
    simp only [List.forall_mem_singleton, Access.InBounds, List.not_mem_nil, false_implies,
      implies_true, iff_true]
    omega

/-- Every step keeps what is checked. -/
theorem checked_step (handler : Handler) (h : Host abi) (conn : Connection abi) (e : ReadEvent)
    (hc : Checked conn) : Checked (conn.step handler h e) := by
  have hs : Transition handler h conn e (conn.step handler h e) :=
    Connection.step_transition hc.valid rfl
  obtain ⟨ht, hi⟩ := checked_transition hc hs
  exact ⟨conn.valid_step handler h e hc.valid, ht, hi⟩

/-- What is checked holds after every run. -/
theorem checked_run (handler : Handler) (h : Host abi) (stream : List UInt8)
    (events : List ReadEvent) :
    Checked (run (Connection.step handler h) (Connection.fresh abi stream) events) := by
  apply run_invariant _ _ (fun conn e ↦ checked_step handler h conn e)
  exact ⟨Connection.valid_fresh stream, by simp [Terminated, Connection.fresh],
    by simp [InBounds, AllSafe, Connection.fresh]⟩

/-- Exactly when the request decoder stays in its memory: on every stream and every schedule,
all copies stay in their arrays and every string handed to a getter ends inside `parameter` if
and only if each command decoded has a payload, at most `_GLIBTOP_PARAM_SIZE` inline bytes, or a
size that the check against `BUFSIZ` rejects. -/
theorem decoder_in_bounds_iff (handler : Handler) (h : Host abi) (stream : List UInt8)
    (events : List ReadEvent) :
    let conn := run (Connection.step handler h) (Connection.fresh abi stream) events
    (InBounds conn ∧ Terminated conn) ↔ AllSafe conn := by
  intro conn
  have hc := checked_run handler h stream events
  rw [← hc.inBounds_iff]
  exact and_iff_left hc.terminated

/-- A request for the load average that claims 100 inline bytes. -/
def overlongCommand : Command where
  command := 6
  size := 100
  dataSize := 0
  parameter := zeros glibtopParamSize
  parameter_length := length_zeros _

/-- On it the parent handler reads behind the inline array. -/
theorem decoder_reads_beyond :
    ¬ InBounds (run (Connection.step .parent (idleHost linuxAbi))
      (Connection.fresh linuxAbi (overlongCommand.store linuxAbi.order))
      (delivering (List.replicate 40 0))) := by
  rw [(checked_run _ _ _ _).inBounds_iff]
  obtain ⟨left, -, hr⟩ := (Connection.fresh linuxAbi (overlongCommand.store linuxAbi.order)
    ).run_command .parent (idleHost linuxAbi) overlongCommand (List.replicate 40 0) rfl
    (List.append_nil _).symm (by simp [sizeofCommand])
  rw [hr]
  generalize hd : Connection.decode _ _ _ _ = conn
  have hp : conn.pending = [] := by
    cases Connection.decode_store hd <;> rfl
  have hm : overlongCommand ∈ conn.decoded.map Prod.snd := by
    cases Connection.decode_store hd <;> simp
  rw [Connection.run_of_pending_nil _ _ _ hp]
  intro hs
  obtain ⟨d, hd, ho⟩ := List.mem_map.mp hm
  have := hs d hd
  rw [ho] at this
  exact absurd this (by simp [InlineSafe, overlongCommand, glibtopParamSize, linuxAbi])

end LibGTop.Protocol
