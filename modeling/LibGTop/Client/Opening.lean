import LibGTop.Client.LazyInit

/-!
# What an initialisation does

`glibtop_init_r` on any handle, with any mask and flags: the processes it can
leave, with the handle and the actions of each. The nested calls from inside
`glibtop_open_l` find the open bit set and do nothing.
-/

namespace LibGTop.Client

open Wire

/-- A handle that `glibtop_open_l` has not opened; what it will fill in is still clear. -/
structure Handle.Unopened (s : Handle) : Prop where
  opened : s.opened = false
  server : s.server = false
  sysdeps : s.sysdeps = false
  socket : s.socket = 0
  input : s.input = (0, 0)
  output : s.output = (0, 0)
  pid : s.pid = 0

/-- The descriptor `glibtop_read_l` reads from, `lib/read.c:38`. -/
def Handle.readFd (s : Handle) : Nat := if s.socket ≠ 0 then s.socket else s.input.1

/-- The descriptor `glibtop_write_l` writes to, `lib/write.c:42`. -/
def Handle.writeFd (s : Handle) : Nat := if s.socket ≠ 0 then s.socket else s.output.2

/-- What `glibtop_open_l` has obtained to reach a server. -/
inductive Link
  | socket (fd : Nat)
  | child (c : Child)

/-- How it was obtained, by the method of the handle. -/
inductive Link.From (env : Env) (s : Handle) : Link → Prop
  | inet {fd : Nat} (method : s.method = methodInet)
      (made : env.connect (s.serverHost.getD []) s.serverPort = some fd) : From env s (.socket fd)
  | unix {fd : Nat} (method : s.method = methodUnix)
      (made : env.connect "unix".toList 0 = some fd) : From env s (.socket fd)
  | pipe {c : Child} (method : s.method = methodPipe)
      (made : env.spawn (s.serverCommand.getD []) = some c) : From env s (.child c)

/-- The descriptor read from. -/
def Link.readFd : Link → Nat
  | socket fd => fd
  | child c => c.input.1

/-- The descriptor written to. -/
def Link.writeFd : Link → Nat
  | socket fd => fd
  | child c => c.output.2

/-- What obtaining it does, `lib/open.c:56–112`. -/
def Link.actions : Link → List Action
  | socket fd => [.connected fd]
  | child c => [.spawned c, .close c.input.2, .close c.output.1]

/-- The greeting of a server that is not accepted, `lib/open.c:118–143`. -/
def Link.refusal (link : Link) : List Action := [.read link.readFd, .read link.readFd]

/-- The greeting and the question for the features, `lib/open.c:118–148`. -/
def Link.greeting (link : Link) : List Action :=
  [.read link.readFd, .read link.readFd, .write link.writeFd, .read link.readFd]

/-- The handle that reaches the server. -/
def Link.attach (link : Link) (s : Handle) : Handle :=
  match link with
  | socket fd => { s with socket := fd, server := true, features := -1 }
  | child c => { s with
      input := c.input
      output := c.output
      pid := c.pid
      server := true
      features := -1 }

/-- The initialisation of the system part. -/
def systemActions (env : Env) : List Action :=
  .openS :: (initHooks env.cfg).map .initHook

/-- The handle when `glibtop_open_l` has set its open bit. -/
def Handle.asOpened (s : Handle) : Handle :=
  { s with opened := true, errorMethod := errorMethodDefault }

/-- The process after some more actions. -/
def Process.did (p : Process) (actions : List Action) : Process :=
  { p with trace := p.trace ++ actions }

/-- What `glibtop_open_l` can leave: no connection, a server that is not accepted, no server, or a
server with its mask. -/
inductive Opening (env : Env) (p : Process) : Process → Prop
  | failed (remote : p.handle.Remote) :
      Opening env p ⟨p.handle.asOpened, p.trace ++ [.openL], some .connection⟩
  | refused (link : Link) (made : link.From env p.handle) :
      Opening env p ⟨link.attach p.handle.asOpened,
        p.trace ++ .openL :: (link.actions ++ link.refusal), some .greeting⟩
  | alone (features : BitVec 64) (noServer : ¬p.handle.Remote) :
      Opening env p ⟨{ p.handle.asOpened with features := features, sysdeps := true },
        p.trace ++ .openL :: systemActions env, none⟩
  | linked (link : Link) (mask : BitVec 64) (made : link.From env p.handle) :
      Opening env p ⟨{ link.attach p.handle.asOpened with features := mask, sysdeps := true },
        p.trace ++ .openL :: (link.actions ++ (link.greeting ++ systemActions env)), none⟩

/-- What `glibtop_init_r` can leave, when the flags let it open the handle and when they do not. -/
inductive Initialising (env : Env) (features : BitVec 64) (flags : InitFlags) (p : Process) :
    Process → Prop
  | kept (why : flags.noInit = true ∨ p.handle.init = true ∧
      (flags.noOpen = true ∨ p.handle.opened = true)) : Initialising env features flags p p
  | unknown (fresh : p.handle.init = false) :
      Initialising env features flags p
        ⟨p.handle, p.trace ++ [.machineNew], some .unknownMethod⟩
  | begun {s : Handle} (fresh : p.handle.init = false) (noOpen : flags.noOpen = true)
      (made : initialise env features flags p.handle = some s) :
      Initialising env features flags p ⟨s, p.trace ++ [.machineNew], none⟩
  | opened {q : Process} (before : p.handle.init = true) (closed : p.handle.opened = false)
      (noInit : flags.noInit = false) (noOpen : flags.noOpen = false)
      (opening : Opening env p q) :
      Initialising env features flags p q
  | begunOpened {s : Handle} {q : Process} (fresh : p.handle.init = false)
      (noInit : flags.noInit = false) (noOpen : flags.noOpen = false)
      (made : initialise env features flags p.handle = some s)
      (opening : Opening env ⟨s, p.trace ++ [.machineNew], none⟩ q) :
      Initialising env features flags p q

section Frame

variable {env : Env} {features : BitVec 64} {flags : InitFlags} {s s' : Handle}

/-- What `_init_server` sets. -/
private theorem initServer_frame (h : initServer env features s = some s') :
    ∃ method command host port, s' = { s with
      method := method
      serverCommand := command
      serverHost := host
      serverPort := port } := by
  have hi : ∀ (s : Handle) (fields : List (List Char)), ∃ host port, inetServer s fields =
      { s with method := methodInet, serverHost := host, serverPort := port } := by
    intro s fields
    cases fields with
    | nil => exact ⟨_, _, rfl⟩
    | cons host fields => cases fields <;> exact ⟨_, _, rfl⟩
  simp only [initServer, dispatchMethod] at h
  split at h
  · exact ⟨_, _, _, _, (Option.some.inj h).symm⟩
  · split at h
    · split at h
      · exact ⟨_, _, _, _, (Option.some.inj h).symm⟩
      · split at h
        · obtain ⟨host, port, he⟩ := hi { s with serverCommand := some (commandOf env s) }
            (List.splitOn ':' ‹_›).tail
          rw [he] at h
          exact ⟨_, _, _, _, (Option.some.inj h).symm⟩
        · split at h
          · exact ⟨_, _, _, _, (Option.some.inj h).symm⟩
          · split at h
            · exact ⟨_, _, _, _, (Option.some.inj h).symm⟩
            · exact absurd h (Option.some_ne_none _).symm
    · split at h
      · exact ⟨_, _, _, _, (Option.some.inj h).symm⟩
      · exact ⟨_, _, _, _, (Option.some.inj h).symm⟩

/-- What the initialisation of a handle sets. -/
theorem initialise_frame (h : initialise env features flags s = some s') :
    ∃ method command host port mask, s' = { s with
      init := true
      method := method
      serverCommand := command
      serverHost := host
      serverPort := port
      features := mask } := by
  obtain ⟨s₁, h₁, rfl⟩ := Option.map_eq_some_iff.mp h
  obtain ⟨method, command, host, port, rfl⟩ := initServer_frame h₁
  simp only [finishInit]
  split
  · split <;> exact ⟨_, _, _, _, _, rfl⟩
  · split <;> exact ⟨_, _, _, _, _, rfl⟩

/-- Initialising does not open. -/
theorem initialise_unopened (h : initialise env features flags s = some s') (hu : s.Unopened) :
    s'.Unopened ∧ s'.init = true ∧ s'.errorMethod = s.errorMethod := by
  obtain ⟨method, command, host, port, mask, rfl⟩ := initialise_frame h
  exact ⟨⟨hu.opened, hu.server, hu.sysdeps, hu.socket, hu.input, hu.output, hu.pid⟩, rfl, rfl⟩

end Frame

@[simp] theorem Process.did_did (p : Process) (first second : List Action) :
    (p.did first).did second = p.did (first ++ second) := by
  simp [did]

/-- The link decides which descriptors are used. -/
theorem Link.fds_attach {s : Handle} (hs : s.socket = 0) (hi : s.input = (0, 0))
    (ho : s.output = (0, 0)) (link : Link) :
    (link.attach s).readFd = link.readFd ∧ (link.attach s).writeFd = link.writeFd := by
  cases link with
  | socket fd =>
    by_cases hf : fd = 0
    · simp [attach, Handle.readFd, Handle.writeFd, readFd, writeFd, hf, hi, ho]
    · simp [attach, Handle.readFd, Handle.writeFd, readFd, writeFd, hf]
  | child c => simp [attach, Handle.readFd, Handle.writeFd, readFd, writeFd, hs]

theorem Process.Opened.did {p : Process} (h : p.Opened) (actions : List Action) :
    (p.did actions).Opened := ⟨h.init, h.opened, h.alive⟩

section Nested

variable {initR : Process → Process} (nested : ∀ p : Process, p.Opened → initR p = p)
  {p : Process} (h : p.Opened)

include nested h

theorem Process.readL_eq : p.readL initR = p.did [.read p.handle.readFd] := by
  rw [readL, nested p h, andThen_of_alive h.alive]
  rfl

theorem Process.writeL_eq : p.writeL initR = p.did [.write p.handle.writeFd] := by
  rw [writeL, nested p h, andThen_of_alive h.alive]
  rfl

/-- What `glibtop_call_l` does on an opened handle. -/
theorem Process.callL_eq (block : Bool) :
    p.callL initR block = p.did (.write p.handle.writeFd :: .read p.handle.readFd ::
      if block then [.read p.handle.readFd] else []) := by
  have hw := h.did [.write p.handle.writeFd]
  have hr := hw.did [.read p.handle.readFd]
  rw [callL, nested p h, andThen_of_alive h.alive, writeL_eq nested h, andThen_of_alive hw.alive,
    readL_eq nested hw]
  change andThen ((p.did _).did [.read p.handle.readFd]) _ = _
  rw [andThen_of_alive hr.alive, readL_eq nested hr]
  cases block
  · simp
  · simp only [if_true, did_did]
    rfl

/-- The greeting of a server that is reached over a link. -/
theorem Process.greet_eq (env : Env) (hs : p.handle.server = true) {link : Link}
    (hr : p.handle.readFd = link.readFd) (hw : p.handle.writeFd = link.writeFd) :
    p.greet env initR =
      match env.peer p.handle.method with
      | none => (p.did link.refusal).fail .greeting
      | some mask => (p.did link.greeting).set { p.handle with features := mask } := by
  have h₁ := h.did [.read p.handle.readFd]
  have h₂ := h₁.did [.read p.handle.readFd]
  rw [greet, if_pos hs, readL_eq nested h, andThen_of_alive h₁.alive, readL_eq nested h₁]
  change andThen ((p.did _).did [.read p.handle.readFd]) _ = _
  rw [andThen_of_alive h₂.alive]
  change (match env.peer p.handle.method with | none => _ | some mask => _) = _
  cases env.peer p.handle.method with
  | none => simp only [did_did, hr, Link.refusal, List.cons_append, List.nil_append]
  | some mask =>
    simp only
    rw [callL_eq nested h₂, andThen_of_alive (h₂.did _).alive]
    change set (did (did (did p _) _) (.write p.handle.writeFd :: .read p.handle.readFd :: _)) _ = _
    simp only [did_did, hr, hw, Link.greeting]
    rfl

end Nested

/-- The hooks only leave their actions. -/
private theorem hooks_eq (hooks : List Feature) (p : Process) :
    hooks.foldl (fun p f ↦ p.act (.initHook f)) p = p.did (hooks.map .initHook) := by
  induction hooks generalizing p with
  | nil => simp [Process.did]
  | cons f hooks ih =>
    rw [List.foldl_cons, ih]
    change Process.did (Process.did p [.initHook f]) _ = _
    rw [Process.did_did]
    rfl

/-- The initialisation of the system part, when it is still to be done. -/
theorem glibtopInitS_eq (env : Env) {flags : InitFlags} {p : Process}
    (hi : flags.noInit = false) (hs : p.handle.sysdeps = false) :
    glibtopInitS env flags p =
      (p.did (systemActions env)).set { p.handle with sysdeps := true } := by
  simp only [glibtopInitS, hi, hs, Bool.or_self, Bool.false_eq_true, if_false, hooks_eq]
  change ((Process.did (Process.did p [.openS]) _).set _) = _
  rw [Process.did_did]
  rfl

/-- What connecting can leave. -/
inductive Connecting (env : Env) (p : Process) : Process → Prop
  | failed (remote : p.handle.Remote) : Connecting env p (p.fail .connection)
  | alone (features : BitVec 64) (noServer : ¬p.handle.Remote) :
      Connecting env p (p.set { p.handle with features := features })
  | linked (link : Link) (made : link.From env p.handle) :
      Connecting env p ((p.set (link.attach p.handle)).did link.actions)

theorem connectServer_connecting (env : Env) (p : Process) :
    Connecting env p (p.connectServer env) := by
  dsimp only [Process.connectServer]
  by_cases hd : p.handle.method = methodDirect
  · rw [if_pos hd]
    refine .alone 0 fun hr ↦ ?_
    rw [Handle.Remote, hd] at hr
    exact absurd hr (by decide)
  rw [if_neg hd]
  by_cases hi : p.handle.method = methodInet
  · rw [if_pos hi]
    cases hc : env.connect (p.handle.serverHost.getD []) p.handle.serverPort with
    | none => exact .failed (.inl hi)
    | some fd => exact .linked (.socket fd) (.inet hi hc)
  rw [if_neg hi]
  by_cases hu : p.handle.method = methodUnix
  · rw [if_pos hu]
    cases hc : env.connect "unix".toList 0 with
    | none => exact .failed (.inr (.inl hu))
    | some fd => exact .linked (.socket fd) (.unix hu hc)
  rw [if_neg hu]
  by_cases hp : p.handle.method = methodPipe
  · rw [if_pos hp]
    cases hc : env.spawn (p.handle.serverCommand.getD []) with
    | none => exact .failed (.inr (.inr hp))
    | some c =>
      have ha : Connecting env p ((p.set (Link.attach (.child c) p.handle)).did
        (Link.actions (.child c))) := .linked (.child c) (.pipe hp hc)
      simpa [Process.act, Process.did, Process.set, Link.attach, Link.actions] using ha
  · rw [if_neg hp]
    refine .alone p.handle.features fun hr ↦ ?_
    obtain h | h | h := hr
    · exact hi h
    · exact hu h
    · exact hp h

/-- What a link fills in leaves the rest of the handle. -/
@[simp] theorem Link.attach_server (link : Link) (s : Handle) : (link.attach s).server = true := by
  cases link <;> rfl

@[simp] theorem Link.attach_opened (link : Link) (s : Handle) :
    (link.attach s).opened = s.opened := by
  cases link <;> rfl

@[simp] theorem Link.attach_init (link : Link) (s : Handle) : (link.attach s).init = s.init := by
  cases link <;> rfl

@[simp] theorem Link.attach_sysdeps (link : Link) (s : Handle) :
    (link.attach s).sysdeps = s.sysdeps := by
  cases link <;> rfl

@[simp] theorem Link.attach_method (link : Link) (s : Handle) :
    (link.attach s).method = s.method := by
  cases link <;> rfl

@[simp] theorem Link.attach_errorMethod (link : Link) (s : Handle) :
    (link.attach s).errorMethod = s.errorMethod := by
  cases link <;> rfl

/-- Setting the open bit does not change how a link is obtained. -/
private theorem Link.from_of_asOpened {env : Env} {s : Handle} {link : Link}
    (h : link.From env s.asOpened) : link.From env s := by
  cases h with
  | inet method made => exact .inet method made
  | unix method made => exact .unix method made
  | pipe method made => exact .pipe method made

section Opening

variable (env : Env) {initR : Process → Process} {flags : InitFlags} {p : Process}

/-- Opening an initialised handle, with nested initialisations that do nothing on an opened one. -/
theorem glibtopOpenL_opening (nested : ∀ p : Process, p.Opened → initR p = p)
    (hf : flags.noInit = false) (alive : p.ended = none) (hi : p.handle.init = true)
    (hu : p.handle.Unopened) : Opening env p (glibtopOpenL env initR flags p) := by
  let p₁ := (p.did [.openL]).set p.handle.asOpened
  have ho : glibtopOpenL env initR flags p = (p₁.connectServer env).andThen fun p ↦
      (p.greet env initR).andThen (glibtopInitS env flags) := rfl
  have hc := connectServer_connecting env p₁
  rw [ho]
  generalize p₁.connectServer env = q at hc ⊢
  cases hc with
  | failed remote =>
    rw [Process.andThen_of_ended (Option.some_ne_none _)]
    exact .failed remote
  | alone features noServer =>
    let p₂ := p₁.set { p₁.handle with features := features }
    have h₂ : p₂.ended = none := alive
    have hs : p₂.handle.server = false := hu.server
    have hg : p₂.greet env initR = p₂ := if_neg (by simp [hs])
    change Opening env p (p₂.andThen _)
    rw [Process.andThen_of_alive h₂, hg, Process.andThen_of_alive h₂,
      glibtopInitS_eq env hf (show p₂.handle.sysdeps = false from hu.sysdeps)]
    have ha : Opening env p _ := .alone features noServer
    simpa [p₂, p₁, Process.set, Process.did, Handle.asOpened, alive] using ha
  | linked link made =>
    let p₂ := (p₁.set (link.attach p₁.handle)).did link.actions
    have h₂ : p₂.Opened := ⟨(link.attach_init _).trans hi, link.attach_opened _, alive⟩
    have hs : p₂.handle.sysdeps = false := (link.attach_sysdeps _).trans hu.sysdeps
    obtain ⟨hr, hw⟩ := link.fds_attach (show p₁.handle.socket = 0 from hu.socket) hu.input hu.output
    change Opening env p (p₂.andThen _)
    rw [Process.andThen_of_alive h₂.alive,
      Process.greet_eq nested h₂ env (link.attach_server _) hr hw]
    cases env.peer p₂.handle.method with
    | none =>
      simp only
      rw [Process.andThen_of_ended (Option.some_ne_none _)]
      have ha : Opening env p _ := .refused link (Link.from_of_asOpened made)
      simpa [p₂, p₁, Process.set, Process.did, Process.fail] using ha
    | some mask =>
      let p₃ := (p₂.did link.greeting).set { p₂.handle with features := mask }
      change Opening env p (p₃.andThen _)
      rw [Process.andThen_of_alive (show p₃.ended = none from alive),
        glibtopInitS_eq env hf (show p₃.handle.sysdeps = false from hs)]
      have ha : Opening env p _ := .linked link mask (Link.from_of_asOpened made)
      simpa [p₃, p₂, p₁, Process.set, Process.did, alive] using ha

end Opening

/-- What `glibtop_init_r` does on a handle that is opened only when it is initialised. -/
theorem glibtopInitR_initialising (env : Env) (depth : Nat) (features : BitVec 64)
    (flags : InitFlags) {p : Process} (alive : p.ended = none)
    (hu : p.handle.opened = false → p.handle.Unopened)
    (ho : p.handle.opened = true → p.handle.init = true) :
    Initialising env features flags p (glibtopInitR env (depth + 2) features flags p) := by
  have nested : ∀ q : Process, q.Opened → glibtopInitR env (depth + 1) 0 {} q = q :=
    fun q hq ↦ glibtopInitR_of_opened env depth 0 {} q hq
  rw [glibtopInitR]
  by_cases hn : flags.noInit = true
  · rw [if_pos hn]
    exact .kept (.inl hn)
  have hn' : flags.noInit = false := by simpa using hn
  rw [if_neg hn]
  by_cases hi : p.handle.init = true
  · simp only [hi, if_true]
    rw [Process.andThen_of_alive alive]
    split
    · next h => exact .kept (.inr ⟨hi, by simpa using h⟩)
    · next h =>
      simp only [Bool.or_eq_true, not_or, Bool.not_eq_true] at h
      exact .opened hi h.2 hn' h.1 (glibtopOpenL_opening env nested hn' alive hi (hu h.2))
  · have hi' : p.handle.init = false := by simpa using hi
    have hc : p.handle.opened = false := by
      cases hc : p.handle.opened with
      | false => rfl
      | true => exact absurd (ho hc) hi
    simp only [hi', Bool.false_eq_true, if_false]
    cases hb : initialise env features flags p.handle with
    | none =>
      simp only
      rw [Process.andThen_of_ended (Option.some_ne_none _)]
      exact .unknown hi'
    | some s =>
      obtain ⟨hs, hsi, -⟩ := initialise_unopened hb (hu hc)
      let p₁ := (p.act .machineNew).set s
      have h₁ : p₁.ended = none := alive
      have he : p₁ = ⟨s, p.trace ++ [.machineNew], none⟩ := by rw [← alive]; rfl
      change Initialising env features flags p (p₁.andThen _)
      rw [Process.andThen_of_alive h₁]
      split
      · next h =>
        rw [show p₁.handle.opened = false from hs.opened, Bool.or_false] at h
        rw [he]
        exact .begun hi' h hb
      · next h =>
        simp only [Bool.or_eq_true, not_or, Bool.not_eq_true] at h
        have hg := glibtopOpenL_opening env nested hn' h₁ hsi hs
        exact .begunOpened hi' hn' h.1 hb (he ▸ hg)

end LibGTop.Client
