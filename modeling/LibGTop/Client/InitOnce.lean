import LibGTop.Client.Effects

/-!
# The initialisation as a state machine

Over any run of initialisations and getters on one handle: what is set up is set
up once, in spite of the nested initialisations, and an opened handle keeps its
method and its mask.
-/

namespace LibGTop.Client

open Base Wire

/-- The actions that set something up: `glibtop_machine_new`, `glibtop_open_l`, `glibtop_open_s`
and the hooks. -/
def Action.once : Action → Bool
  | machineNew | openL | openS | initHook _ => true
  | _ => false

/-- How often the state of a handle lets each of them have happened. -/
def Handle.quota (s : Handle) : Action → Nat
  | .machineNew => s.init.toNat
  | .openL => s.opened.toNat
  | .openS | .initHook _ => s.sysdeps.toNat
  | _ => 0

theorem Handle.quota_le_one (s : Handle) (a : Action) : s.quota a ≤ 1 := by
  cases a <;> first | exact Bool.toNat_le _ | exact Nat.zero_le _

/-- What is known of a handle along a run, while the process goes on. -/
structure Handle.Staged (s : Handle) : Prop where
  sysdeps : s.opened = true → s.sysdeps = true
  server : s.server = true → s.Remote

/-- What is known of a process along a run. -/
structure Process.Once (p : Process) : Prop where
  regular : p.Regular
  staged : p.ended = none → p.handle.Staged
  quota : p.ended = none → ∀ a, a.once → p.trace.count a ≤ p.handle.quota a
  once : ∀ a, a.once → p.trace.count a ≤ 1
  bounded : p.ended ≠ some .recursion

/-- What opening sets up is set up once. -/
theorem nodup_systemActions (env : Env) : (.openL :: systemActions env).Nodup := by
  have hh : ((initHooks env.cfg).map Action.initHook).Nodup := by
    apply List.Nodup.map fun f g h ↦ Action.initHook.inj h
    exact List.Nodup.filter _ (by decide)
  simp [systemActions, hh]

private theorem count_eq_zero {actions : List Action} (h : ∀ b ∈ actions, b.once = false)
    {a : Action} (ha : a.once) : actions.count a = 0 := by
  apply List.count_eq_zero.mpr
  intro hm
  rw [h a hm] at ha
  exact absurd ha Bool.false_ne_true

/-- Connecting and greeting set nothing up. -/
theorem Link.not_once (link : Link) : (∀ a ∈ link.actions, a.once = false) ∧
    (∀ a ∈ link.refusal, a.once = false) ∧ ∀ a ∈ link.greeting, a.once = false := by
  cases link <;> simp [actions, refusal, greeting, Action.once]

/-- Before a handle is opened nothing is set up but the machine. -/
private theorem count_opening_le {env : Env} {p : Process} {link system : List Action}
    (hu : p.handle.Unopened) (hq : ∀ a, a.once → p.trace.count a ≤ p.handle.quota a)
    (hl : ∀ a ∈ link, a.once = false) (hs : system.Sublist (systemActions env)) {a : Action}
    (ha : a.once) : (p.trace ++ .openL :: (link ++ system)).count a ≤ 1 := by
  have hp := hq a ha
  have hn : (.openL :: system).count a ≤ 1 :=
    List.nodup_iff_count_le_one.mp ((nodup_systemActions env).sublist (hs.cons_cons _)) a
  have hc : (p.trace ++ .openL :: (link ++ system)).count a =
      p.trace.count a + (.openL :: system).count a := by
    simp only [List.count_append, List.count_cons, count_eq_zero hl ha]
    omega
  rw [hc]
  by_cases hm : a = .machineNew
  · have hz : (.openL :: system).count a = 0 := by
      apply List.count_eq_zero.mpr
      intro hs'
      have hs' := (hs.cons_cons .openL).subset hs'
      simp [hm, systemActions] at hs'
    have h1 := p.handle.quota_le_one a
    omega
  · have hz : p.handle.quota a = 0 := by
      cases a <;> simp [Handle.quota, hu.opened, hu.sysdeps] at hm ⊢
    omega

/-- An opened handle lets everything have been set up. -/
private theorem quota_of_opened {s : Handle} (hi : s.init = true) (ho : s.opened = true)
    (hs : s.sysdeps = true) {a : Action} (ha : a.once) : s.quota a = 1 := by
  cases a <;> simp_all [Handle.quota, Action.once]

/-- The method a link was obtained by. -/
theorem Link.From.remote {env : Env} {s : Handle} {link : Link} (h : link.From env s) :
    s.Remote := by
  cases h with
  | inet method => exact .inl method
  | unix method => exact .inr (.inl method)
  | pipe method => exact .inr (.inr method)

section

variable {env : Env} {features : BitVec 64} {flags : InitFlags} {p q : Process}

/-- The actions of an opening. -/
private theorem Opening.trace (h : Opening env p q) :
    ∃ link system, q.trace = p.trace ++ .openL :: (link ++ system) ∧
      (∀ a ∈ link, a.once = false) ∧ system.Sublist (systemActions env) := by
  cases h with
  | failed => exact ⟨[], [], rfl, by simp, List.nil_sublist _⟩
  | refused link =>
    refine ⟨link.actions ++ link.refusal, [], by simp, fun a ha ↦ ?_, List.nil_sublist _⟩
    obtain ha | ha := List.mem_append.mp ha
    · exact link.not_once.1 a ha
    · exact link.not_once.2.1 a ha
  | alone => exact ⟨[], systemActions env, rfl, by simp, List.Sublist.refl _⟩
  | linked link =>
    refine ⟨link.actions ++ link.greeting, systemActions env, by simp, fun a ha ↦ ?_,
      List.Sublist.refl _⟩
    obtain ha | ha := List.mem_append.mp ha
    · exact link.not_once.1 a ha
    · exact link.not_once.2.2 a ha

/-- An opened handle has its system part, and a method that asks for a server if it has one. -/
private theorem Opening.staged (h : Opening env p q) (hu : p.handle.Unopened)
    (he : q.ended = none) : q.handle.sysdeps = true ∧ q.handle.Staged := by
  cases h with
  | failed => exact absurd he nofun
  | refused => exact absurd he nofun
  | alone =>
    exact ⟨rfl, fun _ ↦ rfl, fun hs ↦ absurd (hu.server.symm.trans hs) Bool.noConfusion⟩
  | linked link mask made =>
    refine ⟨rfl, fun _ ↦ rfl, fun _ ↦ ?_⟩
    change Handle.Remote { link.attach p.handle.asOpened with features := mask, sysdeps := true }
    have hr : p.handle.Remote := made.remote
    simpa [Handle.Remote, Handle.asOpened] using hr

private theorem Opening.ended (h : Opening env p q) : q.ended ≠ some .recursion := by
  cases h <;> exact nofun

/-- Opening sets everything up once. -/
theorem Opening.once (h : Opening env p q) (hi : p.handle.init = true) (hu : p.handle.Unopened)
    (hq : ∀ a, Action.once a → p.trace.count a ≤ p.handle.quota a) : q.Once := by
  obtain ⟨link, system, ht, hl, hs⟩ := h.trace
  have hc : ∀ a, Action.once a → q.trace.count a ≤ 1 := fun a ha ↦
    ht ▸ count_opening_le hu hq hl hs ha
  refine ⟨?_, fun he ↦ (h.staged hu he).2, fun he a ha ↦ ?_, hc, h.ended⟩
  · by_cases he : q.ended = none
    · exact Process.regular_of_opened (h.opened hi he).init (h.opened hi he).opened
    · exact Process.regular_of_ended he
  · have ho := h.opened hi he
    rw [quota_of_opened ho.init ho.opened (h.staged hu he).1 ha]
    exact hc a ha

/-- Initialising a handle that is not initialised lets the machine be set up. -/
private theorem quota_machineNew (hp : p.Once) (alive : p.ended = none)
    (fresh : p.handle.init = false) {a : Action} (ha : a.once) :
    (p.trace ++ [Action.machineNew]).count a ≤ { p.handle with init := true }.quota a := by
  have hq := hp.quota alive a ha
  rw [List.count_append]
  cases a with
  | machineNew =>
    simp only [Handle.quota, fresh, Bool.toNat_false] at hq
    simp only [Handle.quota, Bool.toNat_true, List.count_cons_self, List.count_nil]
    omega
  | _ => simpa [Handle.quota] using hq

/-- The initialisation changes nothing else that the quota depends on. -/
private theorem quota_initialise {s : Handle} (made : initialise env features flags p.handle = some s)
    (a : Action) : s.quota a = { p.handle with init := true }.quota a := by
  obtain ⟨_, _, _, _, _, rfl⟩ := initialise_frame made
  cases a <;> rfl

/-- An initialisation sets up what is not set up yet. -/
theorem Initialising.once (h : Initialising env features flags p q) (hp : p.Once)
    (alive : p.ended = none) : q.Once := by
  have hr := h.regular hp.regular alive
  have hu : p.handle.init = false → p.handle.Unopened := fun hi ↦
    hp.regular.unopened alive (hp.regular.not_opened alive hi)
  cases h with
  | kept => exact hp
  | unknown fresh =>
    refine ⟨hr, nofun, nofun, fun a ha ↦ ?_, nofun⟩
    exact Nat.le_trans (quota_machineNew hp alive fresh ha) (Handle.quota_le_one _ a)
  | @begun s fresh _ made =>
    obtain ⟨hs, -, -⟩ := initialise_unopened made (hu fresh)
    have hq : ∀ a, a.once → (p.trace ++ [Action.machineNew]).count a ≤ s.quota a := fun a ha ↦
      quota_initialise made a ▸ quota_machineNew hp alive fresh ha
    refine ⟨hr, fun _ ↦ ⟨fun ho ↦ ?_, fun hs' ↦ ?_⟩, fun _ ↦ hq,
      fun a ha ↦ Nat.le_trans (hq a ha) (Handle.quota_le_one _ a), nofun⟩
    · exact absurd (hs.opened.symm.trans ho) Bool.noConfusion
    · exact absurd (hs.server.symm.trans hs') Bool.noConfusion
  | opened before closed _ _ opening =>
    exact opening.once before (hp.regular.unopened alive closed) (hp.quota alive)
  | begunOpened fresh _ _ made opening =>
    obtain ⟨hs, hi, -⟩ := initialise_unopened made (hu fresh)
    exact opening.once hi hs fun a ha ↦
      quota_initialise made a ▸ quota_machineNew hp alive fresh ha

/-- A getter behind an initialisation sets nothing up. -/
theorem Answering.once {f : Feature} (h : Answering f p q) (hp : p.Once) : q.Once := by
  have hc : ∀ {actions : List Action}, (∀ a ∈ actions, a.once = false) → ∀ a, a.once →
      (p.trace ++ actions).count a = p.trace.count a := by
    intro actions hn a ha
    rw [List.count_append, count_eq_zero hn ha, Nat.add_zero]
  have hr := h.regular hp.regular
  cases h with
  | ended => exact hp
  | server alive more end_ he hs hf hm =>
    have hn : ∀ a ∈ Action.write p.handle.writeFd :: Action.read p.handle.readFd :: more,
        a.once = false := by
      simp only [List.forall_mem_cons]
      exact ⟨rfl, rfl, fun a ha ↦ hm a ha ▸ rfl⟩
    refine ⟨hr, fun _ ↦ hp.staged alive, fun _ a ha ↦ ?_, fun a ha ↦ ?_, ?_⟩
    · exact (hc hn a ha).trans_le (hp.quota alive a ha)
    · exact (hc hn a ha).trans_le (hp.once a ha)
    · rcases he with rfl | rfl <;> exact nofun
  | system alive end_ he =>
    have hn : ∀ a ∈ [Action.getS f], a.once = false := by simp [Action.once]
    refine ⟨hr, fun _ ↦ hp.staged alive, fun _ a ha ↦ ?_, fun a ha ↦ ?_, ?_⟩
    · exact (hc hn a ha).trans_le (hp.quota alive a ha)
    · exact (hc hn a ha).trans_le (hp.once a ha)
    · rcases he with rfl | rfl <;> exact nofun
  | enosys => exact ⟨hr, nofun, nofun, hp.once, nofun⟩

end

theorem Process.once_fresh : Process.fresh.Once :=
  ⟨regular_fresh, fun _ ↦ ⟨nofun, nofun⟩, fun _ _ _ ↦ Nat.zero_le _, fun _ _ ↦ Nat.zero_le _,
    nofun⟩

section

variable (env : Env) (order : ByteOrder) (depth : Nat)

/-- A step of a client that only initialises and asks for data. -/
def Library.queryStep (l : Library) (q : Query) : Library := l.step env order depth (.query q)

/-- Every such step keeps what is known. -/
theorem Library.once_queryStep (l : Library) (q : Query) (h : l.process.Once) :
    (l.queryStep env order (depth + 2) q).process.Once := by
  rw [queryStep, step]
  split
  · next alive =>
    cases q with
    | init features flags =>
      exact (h.regular.initialising env depth alive features flags).once h alive
    | get f block returned =>
      obtain ⟨q, hi, ha⟩ := l.getL_answering env depth f block returned h.regular alive
      exact ha.once (hi.once h alive)
  · exact h

/-- An opened handle is left as it is. -/
theorem Library.handle_queryStep (l : Library) (q : Query) (h : l.process.Regular)
    (ho : l.process.handle.opened = true) :
    (l.queryStep env order (depth + 2) q).process.handle = l.process.handle := by
  rw [queryStep, step]
  split
  · next alive =>
    have hk := h.opened alive ho
    cases q with
    | init features flags =>
      exact congrArg Process.handle
        (glibtopInitR_of_opened env (depth + 1) features flags l.process hk)
    | get f block returned =>
      obtain ⟨q, hi, ha⟩ := l.getL_answering env depth f block returned h alive
      exact ha.handle.trans (congrArg Process.handle (hi.eq_of_opened hk))
  · rfl

/-- In any run of initialisations and getters everything is set up at most once, the nested
initialisations come to an end, an opened handle is initialised with its system part, a server has
a method, and whatever follows leaves an opened handle as it is. -/
theorem init_once_run (queries : List Query) :
    let l := run (Library.queryStep env order (depth + 2)) .fresh queries
    (∀ a, a.once → l.process.trace.count a ≤ 1) ∧ l.process.ended ≠ some .recursion ∧
    (l.Alive →
      (l.process.handle.opened = true →
        l.process.handle.init = true ∧ l.process.handle.sysdeps = true) ∧
      (l.process.handle.server = true →
        l.process.handle.method = methodPipe ∨ l.process.handle.method = methodInet ∨
          l.process.handle.method = methodUnix) ∧
      (l.process.handle.opened = true → ∀ more,
        let l' := run (Library.queryStep env order (depth + 2)) l more
        l'.process.handle.method = l.process.handle.method ∧
          l'.process.handle.features = l.process.handle.features)) := by
  intro l
  have hl : l.process.Once := run_invariant (Library.queryStep env order (depth + 2))
    (fun l ↦ l.process.Once) (fun l q h ↦ l.once_queryStep env order depth q h) .fresh queries
    Process.once_fresh
  refine ⟨hl.once, hl.bounded, fun alive ↦ ⟨fun ho ↦ ?_, fun hs ↦ ?_, fun ho more ↦ ?_⟩⟩
  · exact ⟨hl.regular.init alive ho, (hl.staged alive).sysdeps ho⟩
  · obtain h | h | h := (hl.staged alive).server hs
    · exact .inr (.inl h)
    · exact .inr (.inr h)
    · exact .inl h
  · have hk := run_invariant (Library.queryStep env order (depth + 2))
      (fun l' ↦ l'.process.Regular ∧ l'.process.handle = l.process.handle)
      (fun l' q h ↦ ⟨l'.regular_step env order depth _ h.1,
        (l'.handle_queryStep env order depth q h.1 (h.2 ▸ ho)).trans h.2⟩) l more
      ⟨hl.regular, rfl⟩
    exact ⟨congrArg Handle.method hk.2, congrArg Handle.features hk.2⟩

end

end LibGTop.Client
