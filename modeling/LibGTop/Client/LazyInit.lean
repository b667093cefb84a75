import LibGTop.Client.Init

/-!
# The order of the first calls

A program that calls getters without initialising the library has its handle
initialised by the first of them, with the mask of that feature alone. Unless
the method is fixed by the environment, this mask decides for all later calls
whether there is a server, so a getter that needs it depends on whether a getter
that does not came first.
-/

namespace LibGTop.Client

open Wire

/-- An initialised and opened handle of a process that has not ended. -/
structure Process.Opened (p : Process) : Prop where
  init : p.handle.init = true
  opened : p.handle.opened = true
  alive : p.ended = none

/-- The verdict of a getter on an opened handle. -/
def settled (cfg : SuidConfig) (s : Handle) (f : Feature) : Verdict :=
  if s.server && names s.features f then .answered
  else if cfg.suid f then .enosys
  else .answered

/-- How a fresh process comes to its server: an unknown method, none, one that is connected to by
whichever call comes first, or one that is connected to if the first call needs it. The mask is
what the server advertises, absent when it cannot be reached. -/
inductive Plan
  | unknown
  | direct
  | always (mask : Option (BitVec 64))
  | demand (mask : Option (BitVec 64))

/-- The plan of a server command that starts with a colon, by the fields between its colons. -/
def planOfFields (env : Env) (fields : List (List Char)) : Plan :=
  if fields.headD [] = "direct".toList then .direct
  else if fields.headD [] = "inet".toList then
    let s := inetServer {} fields.tail
    .always ((env.connect (s.serverHost.getD []) s.serverPort).bind fun _ ↦ env.peer methodInet)
  else if fields.headD [] = "unix".toList then
    .demand ((env.connect "unix".toList 0).bind fun _ ↦ env.peer methodUnix)
  else if fields.headD [] = "pipe".toList then
    .demand ((env.spawn env.libgtopServer).bind fun _ ↦ env.peer methodPipe)
  else .unknown

/-- The plan of a server command. -/
def planOfCommand (env : Env) : List Char → Plan
  | ':' :: command => planOfFields env (command.splitOn ':')
  | command => .demand ((env.spawn command).bind fun _ ↦ env.peer methodPipe)

/-- The plan the environment makes. -/
def plan (env : Env) : Plan := planOfCommand env (env.environment.getD env.libgtopServer)

/-- What the first call opens, by whether its feature needs the server: nothing if the process
ends, else the mask of the server it has reached, if any. -/
def Plan.first : Plan → Bool → Option (Option (BitVec 64))
  | unknown, _ => none
  | direct, _ => some none
  | always mask, _ => mask.map some
  | demand mask, true => mask.map some
  | demand _, false => some none

@[simp] theorem Process.andThen_of_alive {p : Process} (h : p.ended = none)
    (next : Process → Process) : p.andThen next = next p := by
  simp [andThen, h]

theorem Process.andThen_of_ended {p : Process} (h : p.ended ≠ none)
    (next : Process → Process) : p.andThen next = p := by
  cases he : p.ended with
  | none => exact absurd he h
  | some why => simp [andThen, he]

/-- An opened handle is not initialised again. -/
theorem glibtopInitR_of_opened (env : Env) (depth : Nat) (features : BitVec 64)
    (flags : InitFlags) (p : Process) (h : p.Opened) :
    glibtopInitR env (depth + 1) features flags p = p := by
  simp [glibtopInitR, h.init, h.opened, h.alive]

/-- What leaves an opened handle as it is. -/
structure Process.Kept (p p' : Process) : Prop where
  opened : p'.Opened
  handle : p'.handle = p.handle

theorem Process.Opened.kept_act {p : Process} (h : p.Opened) (a : Action) : Kept p (p.act a) :=
  ⟨⟨h.init, h.opened, h.alive⟩, rfl⟩

theorem Process.Kept.trans {p q r : Process} (hpq : Kept p q) (hqr : Kept q r) : Kept p r :=
  ⟨hqr.opened, hqr.handle.trans hpq.handle⟩

section Nested

variable {initR : Process → Process} (nested : ∀ p : Process, p.Opened → initR p = p)
  {p : Process} (h : p.Opened)

include nested h

theorem Process.readL_kept : Kept p (p.readL initR) := by
  rw [readL, nested p h, andThen_of_alive h.alive]
  exact h.kept_act _

theorem Process.writeL_kept : Kept p (p.writeL initR) := by
  rw [writeL, nested p h, andThen_of_alive h.alive]
  exact h.kept_act _

/-- Talking to the server leaves the handle as it is. -/
theorem Process.callL_kept (block : Bool) : Kept p (p.callL initR block) := by
  have hw := writeL_kept nested h
  have hr := readL_kept nested hw.opened
  have hb := readL_kept nested hr.opened
  rw [callL, nested p h, andThen_of_alive h.alive, andThen_of_alive hw.opened.alive,
    andThen_of_alive hr.opened.alive]
  cases block
  · exact hw.trans hr
  · exact (hw.trans hr).trans hb

end Nested

/-- A getter on an opened handle ends as the handle says, and leaves it as it is if it returns. -/
theorem glibtopGetL_of_opened (env : Env) (depth : Nat) (block : Feature → Bool) (f : Feature)
    (p : Process) (h : p.Opened) :
    (glibtopGetL env (depth + 1) block f p).2 = settled env.cfg p.handle f ∧
      (settled env.cfg p.handle f = .answered →
        p.Kept (glibtopGetL env (depth + 1) block f p).1) := by
  have hn : ∀ q : Process, q.Opened → glibtopInitR env (depth + 1) 0 {} q = q :=
    fun q hq ↦ glibtopInitR_of_opened env depth 0 {} q hq
  have hc := Process.callL_kept hn h (block f)
  simp only [glibtopGetL, glibtopInitR_of_opened env depth f.mask {} p h, h.alive, ne_eq,
    not_true_eq_false, if_false, settled]
  split
  · rw [if_pos hc.opened.alive]
    exact ⟨rfl, fun _ ↦ hc⟩
  · split
    · exact ⟨rfl, nofun⟩
    · exact ⟨rfl, fun _ ↦ h.kept_act _⟩

/-- Every verdict on an opened handle is the one the handle says. -/
theorem verdicts_of_opened (env : Env) (depth : Nat) (block : Feature → Bool)
    (calls : List Feature) (p : Process) (h : p.Opened) :
    ∀ v ∈ verdicts env (depth + 1) block calls p, v.2 = settled env.cfg p.handle v.1 := by
  induction calls generalizing p with
  | nil => simp [verdicts]
  | cons f calls ih =>
    obtain ⟨hv, hk⟩ := glibtopGetL_of_opened env depth block f p h
    rw [verdicts, List.forall_mem_cons]
    refine ⟨hv, ?_⟩
    split
    · next ha =>
      have hk' := hk (hv ▸ ha)
      intro v hm
      rw [ih _ hk'.opened v hm, hk'.handle]
    · simp

/-- The first calls on an opened handle are made. -/
theorem mem_verdicts_of_opened (env : Env) (depth : Nat) (block : Feature → Bool) (f g : Feature)
    (calls : List Feature) (p : Process) (h : p.Opened) :
    (f, settled env.cfg p.handle f) ∈ verdicts env (depth + 1) block (f :: g :: calls) p ∧
      (settled env.cfg p.handle f = .answered →
        (g, settled env.cfg p.handle g) ∈ verdicts env (depth + 1) block (f :: g :: calls) p) := by
  obtain ⟨hv, hk⟩ := glibtopGetL_of_opened env depth block f p h
  rw [verdicts]
  constructor
  · rw [← hv]
    exact List.mem_cons_self
  · intro ha
    have hk' := hk ha
    obtain ⟨hv', -⟩ := glibtopGetL_of_opened env depth block g _ hk'.opened
    rw [hk'.handle] at hv'
    rw [if_pos (hv.trans ha), verdicts, ← hv']
    exact List.mem_cons_of_mem _ List.mem_cons_self

/-- The mask of the server a handle's method reaches. -/
def Env.reach (env : Env) (s : Handle) : Option (BitVec 64) :=
  if s.method = methodInet then
    (env.connect (s.serverHost.getD []) s.serverPort).bind fun _ ↦ env.peer methodInet
  else if s.method = methodUnix then
    (env.connect "unix".toList 0).bind fun _ ↦ env.peer methodUnix
  else if s.method = methodPipe then
    (env.spawn (s.serverCommand.getD [])).bind fun _ ↦ env.peer methodPipe
  else none

/-- An initialised handle that is not opened yet, with a method. -/
structure Handle.Ready (s : Handle) : Prop where
  init : s.init = true
  opened : s.opened = false
  server : s.server = false

/-- The method asks for a server. -/
def Handle.Remote (s : Handle) : Prop :=
  s.method = methodInet ∨ s.method = methodUnix ∨ s.method = methodPipe

/-- A feature's mask fits an `unsigned`. -/
theorem mask_setWidth (f : Feature) : (f.mask.setWidth 32).setWidth 64 = f.mask := by
  cases f <;> decide

theorem requestedFeatures_mask (f : Feature) : requestedFeatures f.mask {} = f.mask := by
  cases f <;> decide

/-- A method that only serves features with a switch is given up for any other feature. -/
theorem finishInit_demand (env : Env) (f : Feature) (s : Handle)
    (hm : s.method = methodPipe ∨ s.method = methodUnix) :
    finishInit env f.mask s =
      { s with init := true, method := if env.cfg.suid f then s.method else methodDirect } := by
  have hz := mask_and_glibtopServerFeatures env.cfg f
  rw [BitVec.and_comm] at hz
  simp only [finishInit, hm, true_and]
  cases hs : env.cfg.suid f with
  | false => rw [if_pos (hz.mpr hs)]; rfl
  | true => rw [if_neg fun h ↦ by simp [hz.mp h] at hs]; rfl

/-- Any other method stays. -/
theorem finishInit_other (env : Env) (features : BitVec 64) (s : Handle)
    (hp : s.method ≠ methodPipe) (hu : s.method ≠ methodUnix) :
    finishInit env features s = { s with init := true } := by
  simp [finishInit, hp, hu]

/-- What a first call finds: a plan that fails, no server, or one to connect to. -/
inductive Begun (env : Env) (needed : Bool) : Option Handle → Prop
  | failed (first : (plan env).first needed = none) : Begun env needed none
  | direct {s : Handle} (ready : s.Ready) (method : s.method = methodDirect)
      (first : (plan env).first needed = some none) : Begun env needed (some s)
  | remote {s : Handle} (ready : s.Ready) (remote : s.Remote)
      (first : (plan env).first needed = (env.reach s).map some) : Begun env needed (some s)

/-- A method used on demand begins as the plan says. -/
private theorem begun_demand {env : Env} {f : Feature} {s : Handle} {mask : Option (BitVec 64)}
    (ho : s.opened = false) (hs : s.server = false)
    (hm : s.method = methodPipe ∨ s.method = methodUnix)
    (hp : plan env = .demand mask) (hr : env.reach { s with init := true } = mask) :
    Begun env (env.cfg.suid f) (some (finishInit env f.mask s)) := by
  rw [finishInit_demand env f s hm]
  cases hf : env.cfg.suid f with
  | false => exact .direct ⟨rfl, ho, hs⟩ rfl (by rw [hp]; rfl)
  | true =>
    refine .remote ⟨rfl, ho, hs⟩ (Or.inr hm.symm) ?_
    rw [hp, Plan.first, ← hr]
    rfl

/-- The inet method depends on the handle only through its host and port. -/
private theorem inetServer_eq (s : Handle) (fields : List (List Char))
    (hh : s.serverHost = none) (hp : s.serverPort = 0) :
    inetServer s fields = { s with
      method := methodInet
      serverHost := (inetServer {} fields).serverHost
      serverPort := (inetServer {} fields).serverPort } := by
  cases fields with
  | nil => simp [inetServer, hh, hp]
  | cons host fields => cases fields <;> simp [inetServer, hp]

/-- A command with a colon begins as its fields say. -/
private theorem begun_fields (env : Env) (f : Feature) (fields : List (List Char)) (s : Handle)
    (hp : plan env = planOfFields env fields) (ho : s.opened = false) (hs : s.server = false)
    (hh : s.serverHost = none) (hq : s.serverPort = 0) :
    Begun env (env.cfg.suid f)
      ((dispatchMethod env s fields).map (finishInit env f.mask)) := by
  unfold planOfFields at hp
  simp only [dispatchMethod]
  by_cases hd : fields.headD [] = "direct".toList
  · rw [if_pos hd] at hp ⊢
    rw [Option.map_some, finishInit_other _ _ _ (show methodDirect ≠ methodPipe by decide)
      (show methodDirect ≠ methodUnix by decide)]
    exact .direct ⟨rfl, ho, hs⟩ rfl (by rw [hp]; rfl)
  rw [if_neg hd] at hp ⊢
  by_cases hi : fields.headD [] = "inet".toList
  · rw [if_pos hi] at hp ⊢
    rw [inetServer_eq s _ hh hq, Option.map_some,
      finishInit_other _ _ _ (show methodInet ≠ methodPipe by decide)
        (show methodInet ≠ methodUnix by decide)]
    refine .remote ⟨rfl, ho, hs⟩ (Or.inl rfl) ?_
    rw [hp]
    rfl
  rw [if_neg hi] at hp ⊢
  by_cases hu : fields.headD [] = "unix".toList
  · rw [if_pos hu] at hp ⊢
    exact begun_demand ho hs (Or.inr rfl) hp rfl
  rw [if_neg hu] at hp ⊢
  by_cases hc : fields.headD [] = "pipe".toList
  · rw [if_pos hc] at hp ⊢
    exact begun_demand ho hs (Or.inl rfl) hp rfl
  · rw [if_neg hc] at hp ⊢
    exact .failed (by rw [hp]; rfl)

/-- The first call initialises the handle as the plan says. -/
theorem initialise_fresh (env : Env) (f : Feature) :
    Begun env (env.cfg.suid f) (initialise env f.mask {} {}) := by
  have hm := mask_and_glibtopServerFeatures env.cfg f
  have hp : plan env = planOfCommand env (env.environment.getD env.libgtopServer) := rfl
  rw [initialise, requestedFeatures_mask]
  simp only [initServer, commandOf, mask_setWidth, Option.getD_none, Option.getD_some, ne_eq,
    not_true_eq_false, Bool.false_eq_true, if_false, hm]
  generalize env.environment.getD env.libgtopServer = command at hp ⊢
  split
  · exact begun_fields env f _ _ hp rfl rfl rfl rfl
  · next hc =>
    rw [planOfCommand.eq_2 env command hc] at hp
    split
    · exact begun_demand rfl rfl (Or.inl rfl) hp rfl
    · next hf =>
      rw [Option.map_some, finishInit_other _ _ _ (show methodDirect ≠ methodPipe by decide)
        (show methodDirect ≠ methodUnix by decide)]
      have hs : env.cfg.suid f = false := by simpa using hf
      exact .direct ⟨rfl, rfl, rfl⟩ rfl (by rw [hp, hs]; rfl)

/-- The hooks leave the handle as it is. -/
private theorem kept_hooks (hooks : List Feature) (p : Process) (h : p.Opened) :
    p.Kept (hooks.foldl (fun p f ↦ p.act (.initHook f)) p) := by
  induction hooks generalizing p with
  | nil => exact ⟨h, rfl⟩
  | cons f hooks ih => exact (h.kept_act _).trans (ih _ (h.kept_act _).opened)

/-- The sysdeps initialisation leaves what a getter looks at. -/
theorem glibtopInitS_of_opened (env : Env) (flags : InitFlags) (p : Process) (h : p.Opened) :
    (glibtopInitS env flags p).Opened ∧
      (glibtopInitS env flags p).handle.server = p.handle.server ∧
      (glibtopInitS env flags p).handle.features = p.handle.features := by
  rw [glibtopInitS]
  split
  · exact ⟨h, rfl, rfl⟩
  · have hk := (h.kept_act .openS).trans
      (kept_hooks (initHooks env.cfg) _ (h.kept_act .openS).opened)
    have hs := congrArg Handle.server hk.handle
    have hf := congrArg Handle.features hk.handle
    exact ⟨⟨hk.opened.init, hk.opened.opened, hk.opened.alive⟩, hs, hf⟩

/-- Connecting reaches the server of the handle's method or ends the process. -/
theorem connectServer_of_remote (env : Env) (p : Process) (h : p.Opened)
    (hr : p.handle.Remote) :
    ((p.connectServer env).ended ≠ none ∧ env.reach p.handle = none) ∨
      ((p.connectServer env).Opened ∧ (p.connectServer env).handle.server = true ∧
        env.reach p.handle = env.peer (p.connectServer env).handle.method) := by
  have hd : p.handle.method ≠ methodDirect := by
    rintro hd
    rw [Handle.Remote, hd] at hr
    exact absurd hr (by decide)
  simp only [Process.connectServer, Env.reach, hd, if_false]
  by_cases hi : p.handle.method = methodInet
  · simp only [hi, if_true]
    cases hc : env.connect (p.handle.serverHost.getD []) p.handle.serverPort with
    | none => exact Or.inl ⟨nofun, rfl⟩
    | some fd => exact Or.inr ⟨⟨h.init, h.opened, h.alive⟩, rfl, by rw [← hi]; rfl⟩
  simp only [hi, if_false]
  by_cases hu : p.handle.method = methodUnix
  · simp only [hu, if_true]
    cases hc : env.connect "unix".toList 0 with
    | none => exact Or.inl ⟨nofun, rfl⟩
    | some fd => exact Or.inr ⟨⟨h.init, h.opened, h.alive⟩, rfl, by rw [← hu]; rfl⟩
  simp only [hu, if_false]
  have hp : p.handle.method = methodPipe := (hr.resolve_left hi).resolve_left hu
  simp only [hp, if_true]
  cases hc : env.spawn (p.handle.serverCommand.getD []) with
  | none => exact Or.inl ⟨nofun, rfl⟩
  | some child => exact Or.inr ⟨⟨h.init, h.opened, h.alive⟩, rfl, by rw [← hp]; rfl⟩

/-- The greeting ends the process or leaves the server's mask in the handle. -/
theorem greet_of_server (env : Env) {initR : Process → Process}
    (nested : ∀ p : Process, p.Opened → initR p = p) (p : Process) (h : p.Opened)
    (hs : p.handle.server = true) :
    match env.peer p.handle.method with
    | none => (p.greet env initR).ended ≠ none
    | some mask => (p.greet env initR).Opened ∧ (p.greet env initR).handle.server = true ∧
        (p.greet env initR).handle.features = mask := by
  have h₁ := Process.readL_kept nested h
  have h₂ := Process.readL_kept nested h₁.opened
  have hk := h₁.trans h₂
  rw [Process.greet, if_pos hs, Process.andThen_of_alive h₁.opened.alive,
    Process.andThen_of_alive h₂.opened.alive, hk.handle]
  cases env.peer p.handle.method with
  | none => exact nofun
  | some mask =>
    have hc := hk.trans (Process.callL_kept nested hk.opened false)
    simp only [Process.andThen_of_alive hc.opened.alive]
    refine ⟨⟨hc.opened.init, hc.opened.opened, hc.opened.alive⟩, ?_, rfl⟩
    exact (congrArg Handle.server hc.handle).trans hs

/-- What a getter finds after an initialisation. -/
def Process.Holds (p : Process) : Option (Option (BitVec 64)) → Prop
  | none => p.ended ≠ none
  | some mask => p.Opened ∧ p.handle.server = mask.isSome ∧ p.handle.features = mask.getD 0

section Opening

variable (env : Env) {initR : Process → Process} {p : Process} (alive : p.ended = none)
  (ready : p.handle.Ready)

include alive ready

/-- Opening a handle that was just initialised without a server. -/
theorem glibtopOpenL_of_direct (hd : p.handle.method = methodDirect) :
    (glibtopOpenL env initR {} p).Holds (some none) := by
  let p₁ := (p.act .openL).set
    { p.handle with opened := true, errorMethod := errorMethodDefault }
  let p₂ := p₁.set { p₁.handle with features := 0 }
  have hc : p₁.connectServer env = p₂ := if_pos hd
  have h₂ : p₂.Opened := ⟨ready.init, rfl, alive⟩
  have hs : p₂.handle.server = false := ready.server
  have hg : p₂.greet env initR = p₂ := if_neg (by simp [hs])
  have ho : glibtopOpenL env initR {} p = glibtopInitS env {} p₂ := by
    change (p₁.connectServer env).andThen (fun p ↦
      (p.greet env initR).andThen (glibtopInitS env {})) = _
    rw [hc, Process.andThen_of_alive h₂.alive, hg, Process.andThen_of_alive h₂.alive]
  obtain ⟨h₃, hs₃, hf₃⟩ := glibtopInitS_of_opened env {} p₂ h₂
  rw [ho]
  exact ⟨h₃, hs₃.trans hs, hf₃⟩

/-- Opening a handle that was just initialised for a server. -/
theorem glibtopOpenL_of_remote (nested : ∀ p : Process, p.Opened → initR p = p)
    (hr : p.handle.Remote) :
    (glibtopOpenL env initR {} p).Holds ((env.reach p.handle).map some) := by
  let p₁ := (p.act .openL).set
    { p.handle with opened := true, errorMethod := errorMethodDefault }
  have h₁ : p₁.Opened := ⟨ready.init, rfl, alive⟩
  have hreach : env.reach p₁.handle = env.reach p.handle := rfl
  change Process.Holds ((p₁.connectServer env).andThen fun p ↦
    (p.greet env initR).andThen (glibtopInitS env {})) _
  rcases connectServer_of_remote env p₁ h₁ hr with ⟨he, hn⟩ | ⟨h₂, hs, hm⟩
  · rw [Process.andThen_of_ended he, ← hreach, hn]
    exact he
  · have hg := greet_of_server env nested _ h₂ hs
    rw [Process.andThen_of_alive h₂.alive, ← hreach, hm]
    cases hp : env.peer (p₁.connectServer env).handle.method with
    | none =>
      simp only [hp] at hg
      rw [Process.andThen_of_ended hg]
      exact hg
    | some mask =>
      simp only [hp] at hg
      obtain ⟨h₃, hs₃, hf₃⟩ := hg
      rw [Process.andThen_of_alive h₃.alive]
      obtain ⟨h₄, hs₄, hf₄⟩ := glibtopInitS_of_opened env {} _ h₃
      exact ⟨h₄, hs₄.trans hs₃, hf₄.trans hf₃⟩

end Opening

/-- Initialising a handle for the first time opens it, if its method is known. -/
theorem glibtopInitR_of_not_init (env : Env) (depth : Nat) (features : BitVec 64) (p : Process)
    (alive : p.ended = none) (hi : p.handle.init = false) :
    glibtopInitR env (depth + 1) features {} p =
      match initialise env features {} p.handle with
      | none => (p.act .machineNew).fail .unknownMethod
      | some s =>
        if s.opened then (p.act .machineNew).set s
        else glibtopOpenL env (glibtopInitR env depth 0 {}) {} ((p.act .machineNew).set s) := by
  rw [glibtopInitR]
  simp only [hi, Bool.false_eq_true, if_false]
  cases initialise env features {} p.handle with
  | none => exact Process.andThen_of_ended (by simp [Process.fail]) _
  | some s =>
    have hs : ((p.act .machineNew).set s).ended = none := alive
    simp only [Process.andThen_of_alive hs, Bool.false_or]
    rfl

/-- The first call leaves what the plan says. -/
theorem glibtopInitR_fresh (env : Env) (depth : Nat) (f : Feature) :
    (glibtopInitR env (depth + 2) f.mask {} .fresh).Holds
      ((plan env).first (env.cfg.suid f)) := by
  have hb := initialise_fresh env f
  have hn : ∀ q : Process, q.Opened → glibtopInitR env (depth + 1) 0 {} q = q :=
    fun q hq ↦ glibtopInitR_of_opened env depth 0 {} q hq
  rw [glibtopInitR_of_not_init env (depth + 1) f.mask .fresh rfl rfl]
  change Process.Holds (match initialise env f.mask {} {} with
    | none => _
    | some s => _) _
  cases hb' : initialise env f.mask {} {} with
  | none =>
    rw [hb'] at hb
    cases hb with
    | failed first =>
      rw [first]
      exact nofun
  | some s =>
    rw [hb'] at hb
    cases hb with
    | direct ready method first =>
      simp only [ready.opened, Bool.false_eq_true, if_false, first]
      exact glibtopOpenL_of_direct env rfl ready method
    | remote ready remote first =>
      simp only [ready.opened, Bool.false_eq_true, if_false, first]
      exact glibtopOpenL_of_remote env rfl ready hn remote

/-- The verdict of a getter when this server, if any, was reached. -/
def verdictOf (cfg : SuidConfig) (mask : Option (BitVec 64)) (f : Feature) : Verdict :=
  if mask.any fun mask ↦ names mask f then .answered
  else if cfg.suid f then .enosys
  else .answered

/-- The verdict of a getter in a process whose first call is of a feature that needs the server or
of one that does not. -/
def outcomeOf (env : Env) (needed : Bool) (f : Feature) : Verdict :=
  match (plan env).first needed with
  | none => .failed
  | some mask => verdictOf env.cfg mask f

theorem settled_eq {cfg : SuidConfig} {s : Handle} {mask : Option (BitVec 64)} (f : Feature)
    (hs : s.server = mask.isSome) (hf : s.features = mask.getD 0) :
    settled cfg s f = verdictOf cfg mask f := by
  cases mask <;> simp [settled, verdictOf, hs, hf]

section Orders

variable (env : Env) (depth : Nat) (block : Feature → Bool)

/-- The first getter initialises the library; if that succeeds, it goes on as on the handle it
leaves. -/
theorem glibtopGetL_fresh (f : Feature) :
    let p := glibtopInitR env (depth + 2) f.mask {} .fresh
    (p.ended ≠ none → (glibtopGetL env (depth + 2) block f .fresh).2 = .failed) ∧
      (p.Opened → glibtopGetL env (depth + 2) block f .fresh =
        glibtopGetL env (depth + 2) block f p) := by
  intro p
  constructor
  · intro he
    rw [glibtopGetL]
    exact congrArg Prod.snd (if_pos he)
  · intro h
    have hp : glibtopInitR env (depth + 2) f.mask {} p = p :=
      glibtopInitR_of_opened env (depth + 1) f.mask {} p h
    rw [glibtopGetL, glibtopGetL, hp]

/-- The verdicts of a process whose first call fails, or else leaves an opened handle. -/
theorem verdicts_cons_fresh (f : Feature) (calls : List Feature) :
    let p := glibtopInitR env (depth + 2) f.mask {} .fresh
    (p.ended ≠ none → verdicts env (depth + 2) block (f :: calls) .fresh = [(f, .failed)]) ∧
      (p.Opened → verdicts env (depth + 2) block (f :: calls) .fresh =
        verdicts env (depth + 2) block (f :: calls) p) := by
  intro p
  obtain ⟨hf, ho⟩ := glibtopGetL_fresh env depth block f
  constructor
  · intro he
    rw [verdicts, hf he]
    rfl
  · intro h
    rw [verdicts, verdicts, ho h]

/-- Every verdict of a fresh process is decided by its first call. -/
theorem verdicts_fresh (f : Feature) (calls : List Feature) :
    ∀ v ∈ verdicts env (depth + 2) block (f :: calls) .fresh,
      v.2 = outcomeOf env (env.cfg.suid f) v.1 := by
  have hp := glibtopInitR_fresh env depth f
  obtain ⟨hf, ho⟩ := verdicts_cons_fresh env depth block f calls
  intro v hv
  unfold outcomeOf
  cases hm : (plan env).first (env.cfg.suid f) with
  | none =>
    rw [hm] at hp
    rw [hf hp, List.mem_singleton] at hv
    rw [hv]
  | some mask =>
    rw [hm] at hp
    obtain ⟨h, hs, hfe⟩ := hp
    rw [ho h] at hv
    rw [verdicts_of_opened env (depth + 1) block _ _ h v hv]
    exact settled_eq v.1 hs hfe

/-- The first call of a fresh process has its verdict. -/
theorem mem_verdicts_fresh (f : Feature) (calls : List Feature) :
    (f, outcomeOf env (env.cfg.suid f) f) ∈
      verdicts env (depth + 2) block (f :: calls) .fresh := by
  have hv := verdicts_fresh env depth block f calls
  rw [verdicts] at hv ⊢
  rw [List.forall_mem_cons] at hv
  rw [← hv.1]
  exact List.mem_cons_self

/-- The second call has its verdict if the first is answered. -/
theorem mem_verdicts_fresh_second (f g : Feature) (calls : List Feature)
    (ha : outcomeOf env (env.cfg.suid f) f = .answered) :
    (g, outcomeOf env (env.cfg.suid f) g) ∈
      verdicts env (depth + 2) block (f :: g :: calls) .fresh := by
  have hp := glibtopInitR_fresh env depth f
  obtain ⟨-, ho⟩ := verdicts_cons_fresh env depth block f (g :: calls)
  unfold outcomeOf at ha ⊢
  cases hm : (plan env).first (env.cfg.suid f) with
  | none => simp [hm] at ha
  | some mask =>
    rw [hm] at hp
    simp only [hm] at ha ⊢
    obtain ⟨h, hs, hfe⟩ := hp
    rw [ho h]
    have hg := (mem_verdicts_of_opened env (depth + 1) block f g calls _ h).2
    rw [settled_eq f hs hfe, settled_eq g hs hfe] at hg
    exact hg ha

/-- Only calls that were asked for have verdicts. -/
theorem mem_of_mem_verdicts (calls : List Feature) (p : Process) :
    ∀ v ∈ verdicts env depth block calls p, v.1 ∈ calls := by
  induction calls generalizing p with
  | nil => simp [verdicts]
  | cons f calls ih =>
    rw [verdicts, List.forall_mem_cons]
    refine ⟨List.mem_cons_self, ?_⟩
    split
    · exact fun v hv ↦ List.mem_cons_of_mem _ (ih _ v hv)
    · simp

/-- In whatever order the calls are made, a call that is made ends in the same way. -/
def OrderIndependent (calls : List Feature) : Prop :=
  ∀ first second : List Feature, first.Perm calls → second.Perm calls → ∀ f v w,
    (f, v) ∈ verdicts env depth block first .fresh →
    (f, w) ∈ verdicts env depth block second .fresh → v = w

end Orders

/-- The server is connected to on demand, and among the calls are one that does not need it and
one that does and that the server serves or cannot be reached for. -/
def OrderMatters (env : Env) (calls : List Feature) : Prop :=
  ∃ mask, plan env = .demand mask ∧ (∃ g ∈ calls, env.cfg.suid g = false) ∧
    ∃ f ∈ calls, env.cfg.suid f = true ∧ ∀ m, mask = some m → names m f = true

/-- Whether the first call needs the server matters only for a server used on demand. -/
private theorem outcomeOf_congr {env : Env} {calls : List Feature} {f : Feature}
    (hn : ¬ OrderMatters env calls) (hf : f ∈ calls) {g h : Feature} (hg : g ∈ calls)
    (hh : h ∈ calls) (hsg : env.cfg.suid g = false) (hsh : env.cfg.suid h = true) :
    outcomeOf env true f = outcomeOf env false f := by
  unfold outcomeOf
  cases hp : plan env with
  | unknown => rfl
  | direct => rfl
  | always mask => rfl
  | demand mask =>
    cases mask with
    | none => exact absurd ⟨none, hp, ⟨g, hg, hsg⟩, h, hh, hsh, nofun⟩ hn
    | some m =>
      simp only [Plan.first, Option.map_some, verdictOf, Option.any_some, Option.any_none,
        Bool.false_eq_true, if_false]
      cases hs : env.cfg.suid f with
      | false => simp
      | true =>
        have hm : ¬ names m f = true := by
          intro hm
          refine hn ⟨some m, hp, ⟨g, hg, hsg⟩, f, hf, hs, ?_⟩
          rintro _ ⟨⟩
          exact hm
        simp [hm]

/-- Two members that differ can be called first. -/
private theorem exists_perm_cons_cons {calls : List Feature} {f g : Feature} (hf : f ∈ calls)
    (hg : g ∈ calls) (hne : f ≠ g) : ∃ rest, (f :: g :: rest).Perm calls := by
  have hg' : g ∈ calls.erase f := (List.mem_erase_of_ne (Ne.symm hne)).mpr hg
  refine ⟨(calls.erase f).erase g, ?_⟩
  exact ((List.perm_cons_erase hg').symm.cons f).trans (List.perm_cons_erase hf).symm

/-- When the order matters, a getter that needs the server is refused behind one that does not, but
not at the beginning. -/
theorem not_orderIndependent_of_orderMatters (env : Env) (depth : Nat) (block : Feature → Bool)
    (calls : List Feature) (ho : OrderMatters env calls) :
    ¬ OrderIndependent env (depth + 2) block calls := by
  obtain ⟨mask, hp, ⟨g, hg, hsg⟩, f, hf, hsf, hm⟩ := ho
  intro hi
  have hne : g ≠ f := by
    rintro rfl
    simp [hsg] at hsf
  obtain ⟨behind, hbehind⟩ := exists_perm_cons_cons hg hf hne
  obtain ⟨ahead, hahead⟩ := exists_perm_cons_cons hf hg hne.symm
  have hgv : outcomeOf env (env.cfg.suid g) g = .answered := by
    simp [outcomeOf, hp, hsg, Plan.first, verdictOf]
  have hv := mem_verdicts_fresh_second env depth block g f behind hgv
  have hw := mem_verdicts_fresh env depth block f (g :: ahead)
  have heq := hi _ _ hbehind hahead f _ _ hv hw
  rw [hsg, hsf] at heq
  cases mask with
  | none => simp [outcomeOf, hp, Plan.first, verdictOf, hsf] at heq
  | some m => simp [outcomeOf, hp, Plan.first, verdictOf, hsf, hm m rfl] at heq

/-- Exactly when the order of the first calls does not matter: unless the server is used on demand
and the calls mix a feature that does not need it with one that does and that it serves. -/
theorem order_independent_iff (env : Env) (depth : Nat) (block : Feature → Bool)
    (calls : List Feature) :
    OrderIndependent env (depth + 2) block calls ↔ ¬ OrderMatters env calls := by
  constructor
  · exact fun hi ho ↦ not_orderIndependent_of_orderMatters env depth block calls ho hi
  · intro hn first second hfirst hsecond f v w hv hw
    have hf : f ∈ calls := hfirst.mem_iff.mp (mem_of_mem_verdicts env _ block first _ _ hv)
    cases first with
    | nil => simp [verdicts] at hv
    | cons g first =>
      cases second with
      | nil => simp [verdicts] at hw
      | cons h second =>
        have hg : g ∈ calls := hfirst.mem_iff.mp List.mem_cons_self
        have hh : h ∈ calls := hsecond.mem_iff.mp List.mem_cons_self
        have hv' := verdicts_fresh env depth block g first _ hv
        have hw' := verdicts_fresh env depth block h second _ hw
        simp only at hv' hw'
        rw [hv', hw']
        cases hsg : env.cfg.suid g <;> cases hsh : env.cfg.suid h
        · rfl
        · exact (outcomeOf_congr hn hf hg hh hsg hsh).symm
        · exact outcomeOf_congr hn hf hh hg hsh hsg
        · rfl

/-- A platform that needs the server for `proc_time` only, with a server that serves it. -/
def procTimeEnv : Env where
  cfg :=
    { suid := fun f ↦ f = .procTime
      mountlist_off := by decide
      fsusage_off := by decide }
  libgtopServer := "/usr/libexec/libgtop_server2".toList
  environment := none
  connect _ _ := none
  spawn _ := some ⟨(3, 4), (5, 6), 1000⟩
  peer _ := some (Feature.mask .procTime)

/-- On it `proc_time` is answered when it is called first and refused when `cpu` is. -/
theorem order_matters_procTime :
    ¬ OrderIndependent procTimeEnv 2 (fun _ ↦ false) [.cpu, .procTime] := by
  apply not_orderIndependent_of_orderMatters procTimeEnv 0
  refine ⟨some (Feature.mask .procTime), rfl, ⟨.cpu, by simp, rfl⟩, .procTime, by simp, rfl, ?_⟩
  rintro _ ⟨⟩
  decide

end LibGTop.Client
