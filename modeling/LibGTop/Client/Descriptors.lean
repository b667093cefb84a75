import LibGTop.Client.Effects

/-!
# Descriptors and children

Which descriptors and children a process holds along its actions, and when every
action is on one that it holds. The handle does not record that it was closed, and
what `glibtop_close_r` closes is decided by the method that is set when it is
called, not by what was opened.
-/

namespace LibGTop.Client

open Base Wire

/-- The descriptors and the children that were obtained and are not closed or killed. -/
structure Held where
  fds : List Nat
  pids : List Nat
  deriving DecidableEq

/-- Nothing. -/
def Held.nothing : Held := ⟨[], []⟩

/-- What is held after an action. -/
def Held.after (h : Held) : Action → Held
  | .connected fd => { h with fds := fd :: h.fds }
  | .spawned c =>
    ⟨c.input.1 :: c.input.2 :: c.output.1 :: c.output.2 :: h.fds, c.pid :: h.pids⟩
  | .close fd => { h with fds := h.fds.filter fun held ↦ held ≠ fd }
  | .kill pid => { h with pids := h.pids.filter fun held ↦ held ≠ pid }
  | _ => h

/-- An action is on what is held. -/
def Held.Allows (h : Held) : Action → Prop
  | .read fd | .write fd | .close fd => fd ∈ h.fds
  | .kill pid => pid ∈ h.pids
  | _ => True

instance (h : Held) (a : Action) : Decidable (h.Allows a) := by
  cases a <;> unfold Held.Allows <;> infer_instance

/-- What a process holds after its actions. -/
def held (trace : List Action) : Held := run Held.after .nothing trace

/-- Every action of a process is on what it holds. -/
def Proper (trace : List Action) : Prop := StepsMeet Held.after Held.Allows .nothing trace

instance (trace : List Action) : Decidable (Proper trace) :=
  inferInstanceAs (Decidable (StepsMeet _ _ _ _))

/-- `pipe` gives descriptors that differ from each other. -/
def Env.PipesDistinct (env : Env) : Prop :=
  ∀ command c, env.spawn command = some c →
    [c.input.1, c.input.2, c.output.1, c.output.2].Nodup

/-- What a link holds once it is made. -/
def Link.held : Link → Held
  | socket fd => ⟨[fd], []⟩
  | child c => ⟨[c.input.1, c.output.2], [c.pid]⟩

/-- The handle has the descriptors and the child of a link. -/
def Link.Attached (s : Handle) : Link → Prop
  | socket fd => s.socket = fd ∧ s.input = (0, 0) ∧ s.output = (0, 0)
  | child c => s.socket = 0 ∧ s.input = c.input ∧ s.output = c.output ∧ s.pid = c.pid ∧
      c.input.1 ≠ c.output.2

/-- A process holds nothing, or the link of its opened handle. -/
inductive Connected (s : Handle) : Held → Prop
  | nothing : Connected s .nothing
  | linked (link : Link) (opened : s.opened = true) (attached : link.Attached s) :
      Connected s link.held

/-- A call only touches what is held. A getter that asks the server finds a descriptor. A close by
`GLIBTOP_METHOD_PIPE` finds a child, and a close by a socket method finds the socket that was
opened, or opens one: the handle is still to be opened, by a method that the initialisation does
not give up. -/
def Library.Holding (env : Env) (l : Library) (c : ApiCall) : Prop :=
  let s := l.process.handle
  let h := held l.process.trace
  match c with
  | .query (.get f _ _) => s.server = true → names s.features f = true → h.fds ≠ []
  | .close =>
    (s.method = methodPipe → h.pids ≠ []) ∧
    (s.method = methodUnix ∨ s.method = methodInet →
      (s.opened = true → h.fds ≠ [] ∧ h.pids = []) ∧
      (s.opened = false → s.method = methodUnix →
        s.init = true ∨ glibtopServerFeatures env.cfg ≠ 0#64))
  | _ => True

instance (env : Env) (l : Library) (c : ApiCall) : Decidable (l.Holding env c) := by
  unfold Library.Holding
  dsimp only
  split <;> infer_instance

/-- A trace goes on properly from what it holds. -/
theorem proper_append (first second : List Action) :
    Proper (first ++ second) ↔
      Proper first ∧ StepsMeet Held.after Held.Allows (held first) second :=
  stepsMeet_append _ _ _ _

theorem held_append (first second : List Action) :
    held (first ++ second) = run Held.after (held first) second :=
  run_append _ _ _ _

/-- Actions that neither need nor change what is held. -/
def Action.neutral : Action → Bool
  | machineNew | openL | openS | initHook _ | getS _ => true
  | _ => false

/-- Such actions are always proper and leave what is held. -/
theorem neutral_actions (h : Held) {actions : List Action} (hn : ∀ a ∈ actions, a.neutral) :
    StepsMeet Held.after Held.Allows h actions ∧ run Held.after h actions = h := by
  induction actions with
  | nil => exact ⟨trivial, rfl⟩
  | cons a actions ih =>
    obtain ⟨ha, hn⟩ := List.forall_mem_cons.mp hn
    have hs : h.after a = h ∧ h.Allows a := by
      cases a <;> first | exact ⟨rfl, trivial⟩ | exact absurd ha Bool.false_ne_true
    rw [StepsMeet, run_cons, hs.1]
    exact ⟨⟨hs.2, (ih hn).1⟩, (ih hn).2⟩

theorem neutral_systemActions (env : Env) : ∀ a ∈ systemActions env, a.neutral := by
  simp [systemActions, Action.neutral]

/-- Making a link is proper and leaves what the link holds. -/
theorem link_actions {env : Env} {s : Handle} {link : Link} (hd : env.PipesDistinct)
    (made : link.From env s) :
    StepsMeet Held.after Held.Allows .nothing link.actions ∧
      run Held.after .nothing link.actions = link.held := by
  cases made with
  | inet => exact ⟨⟨trivial, trivial⟩, rfl⟩
  | unix => exact ⟨⟨trivial, trivial⟩, rfl⟩
  | pipe _ made =>
    have hn := hd _ _ made
    simp only [List.nodup_cons, List.mem_cons, List.not_mem_nil, not_or, or_false] at hn
    obtain ⟨⟨h₁, h₂, h₃⟩, ⟨h₄, h₅⟩, h₆, -⟩ := hn
    simp [Link.actions, Link.held, StepsMeet, Held.after, Held.Allows, Held.nothing, h₁, h₂,
      Ne.symm h₄, Ne.symm h₅, Ne.symm h₆]

/-- Greeting a server is on what its link holds. -/
theorem link_greeting (link : Link) :
    StepsMeet Held.after Held.Allows link.held link.refusal ∧
      StepsMeet Held.after Held.Allows link.held link.greeting ∧
      run Held.after link.held link.greeting = link.held := by
  cases link <;> simp [Link.refusal, Link.greeting, Link.held, Link.readFd, Link.writeFd,
    StepsMeet, Held.after, Held.Allows]

/-- A link that is made is attached to the handle. -/
theorem link_attached {env : Env} {s : Handle} {link : Link} (hd : env.PipesDistinct)
    (hu : s.Unopened) (made : link.From env s) (features : BitVec 64) :
    link.Attached { link.attach s.asOpened with features := features, sysdeps := true } := by
  cases made with
  | inet => exact ⟨rfl, hu.input, hu.output⟩
  | unix => exact ⟨rfl, hu.input, hu.output⟩
  | pipe _ made =>
    have hn := hd _ _ made
    simp only [List.nodup_cons, List.mem_cons, not_or] at hn
    exact ⟨hu.socket, rfl, rfl, rfl, hn.1.2.2.1⟩

/-- What an opening leaves: no server and nothing held, or the link it has made. -/
inductive Reached (env : Env) (s : Handle) (q : Process) : Prop
  | alone (server : q.handle.server = false) (holds : held q.trace = .nothing)
      (noServer : ¬s.Remote)
  | linked (link : Link) (made : link.From env s) (attached : link.Attached q.handle)
      (holds : held q.trace = link.held)

section

variable {env : Env} {features : BitVec 64} {flags : InitFlags} {p q : Process}

/-- Opening is proper. -/
theorem Opening.proper (h : Opening env p q) (hd : env.PipesDistinct) (hu : p.handle.Unopened)
    (hp : Proper p.trace) (hh : held p.trace = .nothing) :
    Proper q.trace ∧ (q.ended = none → Reached env p.handle q) := by
  cases h with
  | failed =>
    rw [proper_append]
    exact ⟨⟨hp, trivial, trivial⟩, fun he ↦ absurd he (Option.some_ne_none _)⟩
  | refused link made =>
    have hl := link_actions hd made
    rw [proper_append, StepsMeet, hh, stepsMeet_append]
    refine ⟨⟨hp, trivial, hl.1, ?_⟩, fun he ↦ absurd he (Option.some_ne_none _)⟩
    exact hl.2 ▸ (link_greeting link).1
  | alone features noServer =>
    have hs := neutral_actions .nothing (neutral_systemActions env)
    rw [proper_append, StepsMeet, hh]
    refine ⟨⟨hp, trivial, hs.1⟩, fun _ ↦ .alone hu.server ?_ noServer⟩
    rw [held_append, hh]
    exact hs.2
  | linked link mask made =>
    have hl := link_actions hd made
    have hg := link_greeting link
    have hs := neutral_actions link.held (neutral_systemActions env)
    constructor
    · rw [proper_append, StepsMeet, hh, stepsMeet_append, stepsMeet_append]
      change Proper _ ∧ True ∧ _ ∧ StepsMeet _ _ (run Held.after .nothing link.actions) _ ∧
        StepsMeet _ _ (run _ (run Held.after .nothing link.actions) _) _
      rw [hl.2, hg.2.2]
      exact ⟨hp, trivial, hl.1, hg.2.1, hs.1⟩
    · refine fun _ ↦ .linked link made (link_attached hd hu made mask) ?_
      rw [held_append, hh, run_cons, run_append, run_append]
      change run _ (run _ (run Held.after .nothing link.actions) _) _ = _
      rw [hl.2, hg.2.2, hs.2]

/-- The method of a handle does not matter for what it holds. -/
theorem Connected.of_method {s : Handle} {h : Held} (hc : Connected s h)
    (method errorMethod : UInt32) :
    Connected { s with method := method, errorMethod := errorMethod } h := by
  cases hc with
  | nothing => exact .nothing
  | linked link opened attached =>
    refine .linked link opened ?_
    cases link <;> exact attached

/-- What is known of a process along a run. -/
structure Process.Safe (p : Process) : Prop where
  regular : p.Regular
  proper : Proper p.trace
  connected : p.ended = none → Connected p.handle (held p.trace)

theorem Process.safe_fresh : Process.fresh.Safe :=
  ⟨regular_fresh, trivial, fun _ ↦ .nothing⟩

/-- A handle that is not opened holds nothing. -/
theorem Process.Safe.held_nothing (h : p.Safe) (alive : p.ended = none)
    (ho : p.handle.opened = false) : held p.trace = .nothing := by
  have hc := h.connected alive
  generalize held p.trace = holds at hc ⊢
  cases hc with
  | nothing => rfl
  | linked link opened => exact absurd (ho.symm.trans opened) Bool.noConfusion

/-- What is reached is connected. -/
theorem Reached.connected {s : Handle} (h : Reached env s q) (ho : q.handle.opened = true) :
    Connected q.handle (held q.trace) := by
  cases h with
  | alone _ holds => exact holds ▸ .nothing
  | linked link _ attached holds => exact holds ▸ .linked link ho attached

/-- Setting the machine up is proper and changes nothing that is held. -/
private theorem proper_machineNew (hp : Proper p.trace) :
    Proper (p.trace ++ [.machineNew]) ∧ held (p.trace ++ [.machineNew]) = held p.trace := by
  rw [proper_append, held_append]
  exact ⟨⟨hp, trivial, trivial⟩, rfl⟩

/-- An initialisation is proper; if it opens the handle, it reaches what the handle asks for. -/
theorem Initialising.safe (h : Initialising env features flags p q) (hd : env.PipesDistinct)
    (hp : p.Safe) (alive : p.ended = none) :
    q.Safe ∧ (p.handle.opened = false → q.Opened →
      ∃ s, Reached env s q ∧ (p.handle.init = true ∧ s = p.handle ∨
        p.handle.init = false ∧ initialise env features flags p.handle = some s)) := by
  have hr := h.regular hp.regular alive
  have hm := proper_machineNew hp.proper
  cases h with
  | kept => exact ⟨hp, fun hc ho ↦ absurd (hc.symm.trans ho.opened) Bool.noConfusion⟩
  | unknown => exact ⟨⟨hr, hm.1, nofun⟩, fun _ ho ↦ absurd ho.alive nofun⟩
  | begun fresh _ made =>
    have hc := hp.regular.not_opened alive fresh
    obtain ⟨hs, -, -⟩ := initialise_unopened made (hp.regular.unopened alive hc)
    refine ⟨⟨hr, hm.1, fun _ ↦ ?_⟩, fun _ ho ↦ ?_⟩
    · rw [hm.2, hp.held_nothing alive hc]
      exact .nothing
    · exact absurd (hs.opened.symm.trans ho.opened) Bool.noConfusion
  | opened before closed _ _ opening =>
    have hu := hp.regular.unopened alive closed
    obtain ⟨hq, hc⟩ := opening.proper hd hu hp.proper (hp.held_nothing alive closed)
    refine ⟨⟨hr, hq, fun he ↦ ?_⟩, fun _ ho ↦ ⟨_, hc ho.alive, .inl ⟨before, rfl⟩⟩⟩
    exact (hc he).connected (opening.opened before he).opened
  | @begunOpened s _ fresh _ _ made opening =>
    have hc := hp.regular.not_opened alive fresh
    obtain ⟨hs, hi, -⟩ := initialise_unopened made (hp.regular.unopened alive hc)
    obtain ⟨hq, hc⟩ := opening.proper hd hs hm.1 (hm.2.trans (hp.held_nothing alive hc))
    refine ⟨⟨hr, hq, fun he ↦ ?_⟩, fun _ ho ↦ ⟨s, hc ho.alive, .inr ⟨fresh, made⟩⟩⟩
    exact (hc he).connected (opening.opened hi he).opened

/-- The descriptors of a handle that holds a link are those of the link. -/
theorem Link.Attached.fds {s : Handle} {link : Link} (h : link.Attached s) :
    s.readFd = link.readFd ∧ s.writeFd = link.writeFd := by
  cases link with
  | socket fd =>
    obtain ⟨hs, hi, ho⟩ := h
    by_cases hz : fd = 0
    · simp [Handle.readFd, Handle.writeFd, readFd, writeFd, hs, hi, ho, hz]
    · simp [Handle.readFd, Handle.writeFd, readFd, writeFd, hs, hz]
  | child c =>
    obtain ⟨hs, hi, ho, -⟩ := h
    simp [Handle.readFd, Handle.writeFd, readFd, writeFd, hs, hi, ho]

theorem Link.fds_mem (link : Link) : link.readFd ∈ link.held.fds ∧ link.writeFd ∈ link.held.fds := by
  cases link <;> simp [readFd, writeFd, Link.held]

/-- Reading and writing a held link is proper and changes nothing that is held. -/
theorem link_call (link : Link) {actions : List Action}
    (h : ∀ a ∈ actions, a = .read link.readFd ∨ a = .write link.writeFd) :
    StepsMeet Held.after Held.Allows link.held actions ∧
      run Held.after link.held actions = link.held := by
  induction actions with
  | nil => exact ⟨trivial, rfl⟩
  | cons a actions ih =>
    obtain ⟨ha, h⟩ := List.forall_mem_cons.mp h
    have hs : link.held.after a = link.held ∧ link.held.Allows a := by
      obtain rfl | rfl := ha
      · exact ⟨rfl, link.fds_mem.1⟩
      · exact ⟨rfl, link.fds_mem.2⟩
    rw [StepsMeet, run_cons, hs.1]
    exact ⟨⟨hs.2, (ih h).1⟩, (ih h).2⟩

/-- The link of a handle that holds a descriptor. -/
private theorem Process.Safe.link (h : p.Safe) (alive : p.ended = none)
    (hf : (held p.trace).fds ≠ []) :
    ∃ link : Link, link.Attached p.handle ∧ held p.trace = link.held := by
  have hc := h.connected alive
  generalize held p.trace = holds at hc hf ⊢
  cases hc with
  | nothing => exact absurd rfl hf
  | linked link _ attached => exact ⟨link, attached, rfl⟩

/-- A getter whose server call finds a descriptor is proper. -/
theorem Answering.safe {f : Feature} (h : Answering f p q) (hp : p.Safe)
    (hf : p.ended = none → p.handle.server = true → names p.handle.features f = true →
      (held p.trace).fds ≠ []) : q.Safe := by
  have hr := h.regular hp.regular
  cases h with
  | ended => exact hp
  | server alive more end_ he hs hn hm =>
    obtain ⟨link, ha, hl⟩ := hp.link alive (hf alive hs hn)
    have hc : ∀ a ∈ Action.write p.handle.writeFd :: Action.read p.handle.readFd :: more,
        a = .read link.readFd ∨ a = .write link.writeFd := by
      rw [← ha.fds.1, ← ha.fds.2]
      refine List.forall_mem_cons.mpr ⟨.inr rfl, List.forall_mem_cons.mpr ⟨.inl rfl, ?_⟩⟩
      exact fun a h ↦ .inl (hm a h)
    have hk := link_call link hc
    rw [← hl] at hk
    refine ⟨hr, (proper_append _ _).mpr ⟨hp.proper, hk.1⟩, fun _ ↦ ?_⟩
    rw [held_append, hk.2]
    exact hp.connected alive
  | system alive =>
    have hn : ∀ a ∈ [Action.getS f], a.neutral := by simp [Action.neutral]
    have hs := neutral_actions (held p.trace) hn
    refine ⟨hr, (proper_append _ _).mpr ⟨hp.proper, hs.1⟩, fun _ ↦ ?_⟩
    rw [held_append, hs.2]
    exact hp.connected alive
  | enosys alive => exact ⟨hr, hp.proper, nofun⟩

/-- Leaving an opened socket is proper. -/
private theorem hungUp_safe (ho : p.Opened) (hp : Proper p.trace) {fd : Nat}
    (ha : (Link.socket fd).Attached p.handle) (hh : held p.trace = (Link.socket fd).held) :
    (p.did [.write p.handle.writeFd, .read p.handle.readFd, .close p.handle.socket]).Safe := by
  obtain ⟨hr, hw⟩ := ha.fds
  have hs : p.handle.socket = fd := ha.1
  refine ⟨Process.regular_of_opened ho.init ho.opened, ?_, fun _ ↦ ?_⟩
  · refine (proper_append _ _).mpr ⟨hp, ?_⟩
    simp [hh, hr, hw, hs, StepsMeet, Held.Allows, Held.after, Link.held, Link.readFd, Link.writeFd]
  · have hn : held (p.did [.write p.handle.writeFd, .read p.handle.readFd,
        .close p.handle.socket]).trace = .nothing := by
      change held (p.trace ++ _) = _
      rw [held_append, hh, hr, hw, hs]
      simp [Held.after, Link.held, Held.nothing]
    rw [hn]
    exact .nothing

/-- Killing the child of an opened pipe is proper. -/
private theorem killed_safe (hp : p.Safe) (alive : p.ended = none)
    (hk : (held p.trace).pids ≠ []) :
    (p.did [.kill p.handle.pid, .close p.handle.input.1, .close p.handle.output.2]).Safe := by
  have hc := hp.connected alive
  have hw : ∃ c : Child, (Link.child c).Attached p.handle ∧
      held p.trace = (Link.child c).held := by
    generalize held p.trace = holds at hc hk ⊢
    cases hc with
    | nothing => exact absurd rfl hk
    | linked link _ attached =>
      cases link with
      | socket fd => exact absurd rfl hk
      | child c => exact ⟨c, attached, rfl⟩
  obtain ⟨c, ⟨-, hi, ho, hpid, hne⟩, hh⟩ := hw
  refine ⟨hp.regular.of_handle alive rfl, ?_, fun _ ↦ ?_⟩
  · refine (proper_append _ _).mpr ⟨hp.proper, ?_⟩
    simp [hh, hi, ho, hpid, StepsMeet, Held.Allows, Held.after, Link.held, hne.symm]
  · have hn : held (p.did [.kill p.handle.pid, .close p.handle.input.1,
        .close p.handle.output.2]).trace = .nothing := by
      change held (p.trace ++ _) = _
      rw [held_append, hh, hi, ho, hpid]
      simp [Held.after, Link.held, Held.nothing, hne.symm]
    rw [hn]
    exact .nothing

/-- The initialisation keeps a socket method, unless nothing needs the server. -/
private theorem initialise_socket {s s' : Handle} (h : initialise env 0 {} s = some s')
    (hm : s.method = methodUnix ∧ glibtopServerFeatures env.cfg ≠ 0#64 ∨ s.method = methodInet) :
    s'.method = s.method := by
  have hz : s.method ≠ 0 := by
    obtain ⟨hu, -⟩ | hi := hm
    · rw [hu]
      decide
    · rw [hi]
      decide
  have hr : requestedFeatures 0 {} = glibtopSysdepsAll := rfl
  rw [initialise, hr, initServer] at h
  simp only [Bool.false_eq_true, if_false, hz, ne_eq, not_false_eq_true, if_true,
    Option.map_some, Option.some.injEq, finishInit, glibtopServerFeatures_and_all] at h
  split at h
  · next hg =>
    obtain ⟨-, hn⟩ | hi := hm
    · exact absurd hg.2 hn
    · rw [hi] at hg
      exact absurd hg.1 (by decide)
  · exact h ▸ rfl

/-- A close that finds what its method needs is proper. -/
theorem Closing.safe (h : Closing env p q) (hd : env.PipesDistinct) (hp : p.Safe)
    (alive : p.ended = none)
    (hk : p.handle.method = methodPipe → (held p.trace).pids ≠ [])
    (hs : p.handle.method = methodUnix ∨ p.handle.method = methodInet →
      (p.handle.opened = true → (held p.trace).fds ≠ [] ∧ (held p.trace).pids = []) ∧
      (p.handle.opened = false → p.handle.method = methodUnix →
        p.handle.init = true ∨ glibtopServerFeatures env.cfg ≠ 0#64)) : q.Safe := by
  cases h with
  | untouched => exact hp
  | killed method => exact killed_safe hp alive (hk method)
  | ended method hi => exact (hi.safe hd hp alive).1
  | hungUp method hi ho =>
    obtain ⟨hq, hc⟩ := hi.safe hd hp alive
    cases hb : p.handle.opened with
    | true =>
      obtain rfl := hi.eq_of_opened (hp.regular.opened alive hb)
      obtain ⟨hfds, hpids⟩ := (hs method).1 hb
      obtain ⟨link, ha, hl⟩ := hp.link alive hfds
      rw [hl] at hpids
      cases link with
      | socket fd => exact hungUp_safe ho hp.proper ha hl
      | child c => exact absurd hpids (List.cons_ne_nil _ _)
    | false =>
      obtain ⟨s, hr, hf⟩ := hc hb ho
      have hm : s.method = p.handle.method := by
        obtain ⟨-, rfl⟩ | ⟨fresh, made⟩ := hf
        · rfl
        · apply initialise_socket made
          obtain hu | hi := method
          · obtain hi | hn := (hs (.inl hu)).2 hb hu
            · exact absurd (fresh.symm.trans hi) Bool.noConfusion
            · exact .inl ⟨hu, hn⟩
          · exact .inr hi
      rw [← hm] at method
      cases hr with
      | alone _ _ noServer =>
        exact absurd (method.elim (fun hu ↦ .inr (.inl hu)) .inl) noServer
      | linked link made attached holds =>
        cases made with
        | inet | unix => exact hungUp_safe ho hq.proper attached holds
        | pipe hp =>
          rw [hp] at method
          exact absurd method (by decide)

end

section

variable (env : Env) (order : ByteOrder) (depth : Nat)

/-- A call that finds what it needs keeps the process safe. -/
theorem Library.safe_step (hd : env.PipesDistinct) (l : Library) (c : ApiCall)
    (hc : l.Holding env c) (h : l.process.Safe) :
    (l.step env order (depth + 2) c).process.Safe := by
  rw [step]
  split
  · next alive =>
    cases c with
    | query q =>
      cases q with
      | init features flags =>
        exact ((h.regular.initialising env depth alive features flags).safe hd h alive).1
      | get f block returned =>
        obtain ⟨q, hi, ha⟩ := l.getL_answering env depth f block returned h.regular alive
        obtain ⟨hq, hr⟩ := hi.safe hd h alive
        apply ha.safe hq
        intro he hs hn
        cases ho : l.process.handle.opened with
        | true =>
          obtain rfl := hi.eq_of_opened (h.regular.opened alive ho)
          exact hc hs hn
        | false =>
          obtain ⟨s, hr, -⟩ := hr ho (hi.opened_of h.regular alive he)
          cases hr with
          | alone server => exact absurd (server.symm.trans hs) Bool.noConfusion
          | linked link _ _ holds =>
            rw [holds]
            exact List.ne_nil_of_mem link.fds_mem.1
    | setParameter parameter data =>
      obtain ⟨method, errorMethod, hp⟩ := l.setParameterL_process order parameter data
      have hr := l.regular_step env order depth (.setParameter parameter data) h.regular
      rw [step, if_pos alive] at hr
      change (l.setParameterL order parameter data).process.Regular at hr
      change (l.setParameterL order parameter data).process.Safe
      rw [hp] at hr ⊢
      exact ⟨hr, h.proper, fun _ ↦ (h.connected alive).of_method method errorMethod⟩
    | getParameter => exact h
    | close =>
      exact (glibtopCloseR_closing env depth h.regular alive).safe hd h alive hc.1 hc.2
  · exact h

/-- In a run whose calls find what they need, every read, write, close and kill is on a descriptor
or a child that the library has obtained and not closed or killed since. -/
theorem descriptors_proper (hd : env.PipesDistinct) (calls : List ApiCall)
    (h : StepsMeet (Library.step env order (depth + 2)) (Library.Holding env) .fresh calls) :
    Proper (run (Library.step env order (depth + 2)) .fresh calls).process.trace := by
  have hs := run_invariant_of_steps (Library.step env order (depth + 2))
    (fun l ↦ l.process.Safe) (fun l c hc hl ↦ l.safe_step env order depth hd c hc hl) .fresh calls h
    Process.safe_fresh
  exact hs.proper

end

/-- A platform that needs the server for everything it can, with a server at the other end of a
pipe. -/
def pipeEnv : Env where
  cfg := ⟨fun f ↦ f ≠ .mountlist ∧ f ≠ .fsusage, by decide, by decide⟩
  libgtopServer := ['s']
  environment := none
  connect _ _ := none
  spawn _ := some ⟨(3, 4), (5, 6), 1000⟩
  peer _ := some glibtopSysdepsAll

/-- Initialising, asking and closing once is proper. -/
theorem descriptors_proper_once :
    Proper (run (Library.step pipeEnv .little 2) .fresh
      [.query (.init 0 {}), .query (.get .cpu false 0), .close]).process.trace := by
  apply descriptors_proper pipeEnv .little 0
  · rintro _ _ ⟨⟩
    decide
  · decide

/-- Closing twice kills again, and closes again, what may be somebody else's by then. -/
theorem descriptors_closed_twice :
    ¬Proper (run (Library.step pipeEnv .little 2) .fresh
      [.query (.init 0 {}), .close, .close]).process.trace := by
  decide

end LibGTop.Client
