import LibGTop.Client.Effects

/-!
# The configured error method

Whether the error method a client has set with `glibtop_set_parameter_l` stays.
`glibtop_open_l` puts it back to its default (`lib/open.c:49`), and the first call
that needs the server or the system part opens the handle.
-/

namespace LibGTop.Client

open Base Wire

/-- The library with the error method its client has last set successfully. -/
structure Configured where
  library : Library
  errorMethod : Option UInt32

/-- A client that has not called the library yet. -/
def Configured.fresh : Configured := ⟨.fresh, none⟩

/-- The error method a call sets successfully. -/
def ApiCall.errorMethod (order : ByteOrder) : ApiCall → Option UInt32
  | .setParameter parameter data =>
    if parameter = paramErrorMethod then
      (checkData 4 data).map fun bytes ↦ UInt32.ofNat (order.load bytes)
    else none
  | _ => none

/-- The call finds a handle that is not opened and opens it. -/
def Opens (s : Handle) : ApiCall → Prop
  | .query (.init _ flags) => s.opened = false ∧ flags.noInit = false ∧ flags.noOpen = false
  | .query (.get _ _ _) => s.opened = false
  | .close => s.opened = false ∧ (s.method = methodUnix ∨ s.method = methodInet)
  | _ => False

/-- The error method that was set is used by the library and returned to its client. -/
def Configured.Kept (order : ByteOrder) (s : Configured) : Prop :=
  s.library.Alive → ∀ method, s.errorMethod = some method →
    s.library.process.handle.errorMethod = method ∧
      ∀ room, 4 ≤ room → s.library.getParameterL order paramErrorMethod (some room) =
        (4#64, order.store 4 method.toNat)

/-- A call that opens the handle finds no error method set, or the default. -/
def Configured.OpensFirst (s : Configured) (c : ApiCall) : Prop :=
  Opens s.library.process.handle c → ∀ method, s.errorMethod = some method →
    method = errorMethodDefault

section

variable {env : Env} {features : BitVec 64} {flags : InitFlags} {p q : Process}

/-- Opening sets the default. -/
theorem Opening.errorMethod (h : Opening env p q) : q.handle.errorMethod = errorMethodDefault := by
  cases h with
  | failed => rfl
  | refused link => exact link.attach_errorMethod _
  | alone => rfl
  | linked link => exact link.attach_errorMethod _

/-- An initialisation that does not open leaves the error method. -/
theorem Initialising.errorMethod (h : Initialising env features flags p q) (hp : p.Regular)
    (alive : p.ended = none) :
    q.handle.errorMethod = p.handle.errorMethod ∨
      q.handle.errorMethod = errorMethodDefault ∧
        p.handle.opened = false ∧ flags.noInit = false ∧ flags.noOpen = false := by
  cases h with
  | kept => exact .inl rfl
  | unknown => exact .inl rfl
  | begun fresh _ made =>
    exact .inl (initialise_unopened made (hp.unopened alive (hp.not_opened alive fresh))).2.2
  | opened _ closed noInit noOpen opening =>
    exact .inr ⟨opening.errorMethod, closed, noInit, noOpen⟩
  | begunOpened fresh noInit noOpen _ opening =>
    exact .inr ⟨opening.errorMethod, hp.not_opened alive fresh, noInit, noOpen⟩

end

section

variable (env : Env) (order : ByteOrder) (depth : Nat)

/-- One step of the client, with the error method it sets. -/
def Configured.step (s : Configured) (c : ApiCall) : Configured :=
  ⟨s.library.step env order depth c,
    if s.library.Alive then (c.errorMethod order).or s.errorMethod else s.errorMethod⟩

/-- A call other than a parameter changes the error method only by opening the handle. -/
theorem Library.call_errorMethod (l : Library) (c : ApiCall) (h : l.process.Regular)
    (alive : l.Alive) (hc : ∀ parameter data, c ≠ .setParameter parameter data) :
    (l.call env order (depth + 2) c).process.handle.errorMethod =
        l.process.handle.errorMethod ∨
      (l.call env order (depth + 2) c).process.handle.errorMethod = errorMethodDefault ∧
        Opens l.process.handle c := by
  cases c with
  | query q =>
    cases q with
    | init features flags =>
      exact (h.initialising env depth alive features flags).errorMethod h alive
    | get f block returned =>
      obtain ⟨q, hi, ha⟩ := l.getL_answering env depth f block returned h alive
      obtain he | ⟨he, ho, -⟩ := hi.errorMethod h alive
      · exact .inl ((congrArg Handle.errorMethod ha.handle).trans he)
      · exact .inr ⟨(congrArg Handle.errorMethod ha.handle).trans he, ho⟩
  | setParameter parameter data => exact absurd rfl (hc parameter data)
  | getParameter => exact .inl rfl
  | close =>
    change (glibtopCloseR env (depth + 2) l.process).handle.errorMethod = _ ∨
      (glibtopCloseR env (depth + 2) l.process).handle.errorMethod = _ ∧ _
    have hq := glibtopCloseR_closing env depth h alive
    generalize glibtopCloseR env (depth + 2) l.process = q at hq ⊢
    cases hq with
    | untouched => exact .inl rfl
    | killed => exact .inl rfl
    | ended method hi =>
      obtain he | ⟨he, ho, -⟩ := hi.errorMethod h alive
      · exact .inl he
      · exact .inr ⟨he, ho, method⟩
    | hungUp method hi =>
      obtain he | ⟨he, ho, -⟩ := hi.errorMethod h alive
      · exact .inl he
      · exact .inr ⟨he, ho, method⟩

/-- What is known of the configured error method along a run. -/
structure Configured.Holds (s : Configured) : Prop where
  regular : s.library.process.Regular
  kept : s.library.Alive → ∀ method, s.errorMethod = some method →
    s.library.process.handle.errorMethod = method

theorem Library.setParameterL_paramErrorMethod (l : Library) (data : Option (List UInt8)) :
    l.setParameterL order paramErrorMethod data =
      match checkData 4 data with
      | some bytes =>
        l.set { l.process.handle with errorMethod := UInt32.ofNat (order.load bytes) }
      | none => l.warn (.wrongSize paramErrorMethod) := rfl

theorem Library.getParameterL_errorMethod (l : Library) (room : Option Nat) :
    l.getParameterL order paramErrorMethod room =
      writeData (some (order.store 4 l.process.handle.errorMethod.toNat)) room := rfl

/-- Setting the error method makes it the one of the handle. -/
theorem Library.setParameterL_set (l : Library) (parameter : UInt32)
    (data : Option (List UInt8)) {method : UInt32}
    (h : (ApiCall.setParameter parameter data).errorMethod order = some method) :
    (l.setParameterL order parameter data).process.handle.errorMethod = method := by
  simp only [ApiCall.errorMethod] at h
  split at h
  · next hp =>
    subst hp
    obtain ⟨bytes, hb, rfl⟩ := Option.map_eq_some_iff.mp h
    rw [setParameterL_paramErrorMethod, hb]
    rfl
  · exact absurd h nofun

/-- Data that is not accepted leaves the error method. -/
theorem Library.setParameterL_not_set (l : Library) (parameter : UInt32)
    (data : Option (List UInt8))
    (h : (ApiCall.setParameter parameter data).errorMethod order = none) :
    (l.setParameterL order parameter data).process.handle.errorMethod =
      l.process.handle.errorMethod := by
  by_cases hp : parameter = paramErrorMethod
  · subst hp
    have hb : checkData 4 data = none := by simpa [ApiCall.errorMethod] using h
    rw [setParameterL_paramErrorMethod, hb]
    rfl
  · exact l.setParameterL_errorMethod order parameter data hp

/-- A call that finds no error method to overwrite keeps the one that was set. -/
theorem Configured.holds_step (s : Configured) (c : ApiCall) (hc : s.OpensFirst c)
    (h : s.Holds) : (s.step env order (depth + 2) c).Holds := by
  refine ⟨s.library.regular_step env order depth c h.regular, ?_⟩
  intro _ method hm
  by_cases alive : s.library.Alive
  · have hl : s.library.step env order (depth + 2) c = s.library.call env order (depth + 2) c :=
      if_pos alive
    simp only [Configured.step, alive, if_true, hl] at hm ⊢
    by_cases hp : ∃ parameter data, c = .setParameter parameter data
    · obtain ⟨parameter, data, rfl⟩ := hp
      cases he : (ApiCall.setParameter parameter data).errorMethod order with
      | none =>
        rw [he, Option.none_or] at hm
        exact (s.library.setParameterL_not_set order parameter data he).trans
          (h.kept alive method hm)
      | some value =>
        rw [he, Option.some_or] at hm
        exact s.library.setParameterL_set order parameter data (he.trans hm)
    · have hn : ∀ parameter data, c ≠ .setParameter parameter data := fun parameter data he ↦
        hp ⟨parameter, data, he⟩
      have he : c.errorMethod order = none := by
        cases c with
        | setParameter parameter data => exact absurd rfl (hn parameter data)
        | query | getParameter | close => rfl
      rw [he, Option.none_or] at hm
      obtain hk | ⟨hd, ho⟩ := s.library.call_errorMethod env order depth c h.regular alive hn
      · exact hk.trans (h.kept alive method hm)
      · exact hd.trans (hc ho method hm).symm
  · next ha =>
    have hl : s.library.step env order (depth + 2) c = s.library := if_neg alive
    exact absurd (hl ▸ ha) alive

/-- In a run whose calls open the handle before an error method is set, or find the default, the
error method that was set is always the one used and returned. -/
theorem error_method_kept (calls : List ApiCall)
    (h : StepsMeet (Configured.step env order (depth + 2)) Configured.OpensFirst .fresh calls) :
    (run (Configured.step env order (depth + 2)) .fresh calls).Kept order := by
  have hk := run_invariant_of_steps _ Configured.Holds
    (fun s c hc hs ↦ s.holds_step env order depth c hc hs) .fresh calls h
    ⟨Process.regular_fresh, nofun⟩
  intro alive method hm
  have he := hk.kept alive method hm
  refine ⟨he, fun room hr ↦ ?_⟩
  rw [Library.getParameterL_errorMethod, he]
  simp [writeData, hr]

end

/-- A platform that never needs the server. -/
def directEnv : Env where
  cfg := ⟨fun _ ↦ false, rfl, rfl⟩
  libgtopServer := []
  environment := none
  connect _ _ := none
  spawn _ := none
  peer _ := none

/-- `GLIBTOP_ERROR_METHOD_ABORT`, set when the handle is opened, stays. -/
theorem error_method_kept_abort :
    (run (Configured.step directEnv .little 2) .fresh
      [.query (.init 0 {}), .setParameter paramErrorMethod (some [3, 0, 0, 0]),
        .query (.get .cpu false 1)]).Kept .little := by
  apply error_method_kept directEnv .little 0
  refine ⟨fun _ _ h ↦ absurd h (Option.some_ne_none _).symm, fun h ↦ absurd h id, fun h ↦ ?_, trivial⟩
  exact absurd (show _ = false from h) (by decide)

/-- `GLIBTOP_ERROR_METHOD_IGNORE`, set before the first getter, is lost by it. -/
theorem error_method_lost :
    ¬(run (Configured.step directEnv .little 2) .fresh
      [.setParameter paramErrorMethod (some [0, 0, 0, 0]),
        .query (.get .cpu false 1)]).Kept .little := by
  intro h
  exact absurd (h (by decide) errorMethodIgnore (by decide)).1 (by decide)

end LibGTop.Client
