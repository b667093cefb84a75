import LibGTop.Client.Library
import LibGTop.Client.Opening

/-!
# What each public call does

For every call on the handle, the processes it can leave. The calls only rely on
two facts about the handle of a process that goes on: what is not opened is
clear, and what is opened is initialised.
-/

namespace LibGTop.Client

open Base Wire

/-- What is not opened is clear, and what is opened is initialised, while the process goes on. -/
structure Process.Regular (p : Process) : Prop where
  unopened : p.ended = none → p.handle.opened = false → p.handle.Unopened
  init : p.ended = none → p.handle.opened = true → p.handle.init = true

theorem Process.regular_fresh : Process.fresh.Regular :=
  ⟨fun _ _ ↦ ⟨rfl, rfl, rfl, rfl, rfl, rfl, rfl⟩, fun _ h ↦ absurd h Bool.false_ne_true⟩

/-- A process that has ended is regular. -/
theorem Process.regular_of_ended {p : Process} (h : p.ended ≠ none) : p.Regular :=
  ⟨fun ha ↦ absurd ha h, fun ha ↦ absurd ha h⟩

/-- An opened process is regular. -/
theorem Process.regular_of_opened {p : Process} (hi : p.handle.init = true)
    (ho : p.handle.opened = true) : p.Regular :=
  ⟨fun _ hn ↦ absurd (ho.symm.trans hn) Bool.noConfusion, fun _ _ ↦ hi⟩

/-- The handle alone decides while the process goes on. -/
theorem Process.Regular.of_handle {p q : Process} (h : p.Regular) (alive : p.ended = none)
    (hq : q.handle = p.handle) : q.Regular := by
  constructor
  · intro _ ho
    rw [hq] at ho ⊢
    exact h.unopened alive ho
  · intro _ ho
    rw [hq] at ho ⊢
    exact h.init alive ho

/-- A handle that is not initialised is not opened. -/
theorem Process.Regular.not_opened {p : Process} (h : p.Regular) (alive : p.ended = none)
    (hi : p.handle.init = false) : p.handle.opened = false := by
  cases ho : p.handle.opened with
  | false => rfl
  | true => exact absurd (hi.symm.trans (h.init alive ho)) Bool.noConfusion

/-- A regular process whose handle is opened. -/
theorem Process.Regular.opened {p : Process} (h : p.Regular) (alive : p.ended = none)
    (ho : p.handle.opened = true) : p.Opened := ⟨h.init alive ho, ho, alive⟩

/-- Opening an initialised handle leaves it opened, if the process goes on. -/
theorem Opening.opened {env : Env} {p q : Process} (h : Opening env p q)
    (hi : p.handle.init = true) : q.ended = none → q.Opened := by
  cases h with
  | failed => exact fun h ↦ absurd h (Option.some_ne_none _)
  | refused => exact fun h ↦ absurd h (Option.some_ne_none _)
  | alone => exact fun _ ↦ ⟨hi, rfl, rfl⟩
  | linked link =>
    exact fun _ ↦ ⟨(link.attach_init _).trans hi, link.attach_opened _, rfl⟩

section

variable {env : Env} {features : BitVec 64} {flags : InitFlags} {p q : Process}

/-- An initialisation keeps a process regular. -/
theorem Initialising.regular (h : Initialising env features flags p q) (hp : p.Regular)
    (alive : p.ended = none) : q.Regular := by
  have hu : p.handle.init = false → p.handle.Unopened := fun hi ↦
    hp.unopened alive (hp.not_opened alive hi)
  have hg : ∀ {p q : Process}, Opening env p q → p.handle.init = true → q.Regular := by
    intro p q hq hi
    by_cases he : q.ended = none
    · exact Process.regular_of_opened (hq.opened hi he).init (hq.opened hi he).opened
    · exact Process.regular_of_ended he
  cases h with
  | kept => exact hp
  | unknown => exact Process.regular_of_ended (Option.some_ne_none _)
  | begun fresh noOpen made =>
    obtain ⟨hs, -, -⟩ := initialise_unopened made (hu fresh)
    exact ⟨fun _ _ ↦ hs, fun _ ho ↦ absurd (hs.opened.symm.trans ho) Bool.noConfusion⟩
  | opened before _ _ _ opening => exact hg opening before
  | begunOpened fresh _ _ made opening =>
    obtain ⟨-, hi, -⟩ := initialise_unopened made (hu fresh)
    exact hg opening hi

/-- An opened handle is not initialised again. -/
theorem Initialising.eq_of_opened (h : Initialising env features flags p q)
    (ho : p.Opened) : q = p := by
  cases h with
  | kept => rfl
  | unknown fresh => exact absurd (fresh.symm.trans ho.init) Bool.noConfusion
  | begun fresh => exact absurd (fresh.symm.trans ho.init) Bool.noConfusion
  | opened _ closed => exact absurd (closed.symm.trans ho.opened) Bool.noConfusion
  | begunOpened fresh => exact absurd (fresh.symm.trans ho.init) Bool.noConfusion

/-- An initialisation that may open the handle leaves it opened, if the process goes on. -/
theorem Initialising.opened_of (h : Initialising env features {} p q) (hp : p.Regular)
    (alive : p.ended = none) (he : q.ended = none) : q.Opened := by
  have hq := h.regular hp alive
  cases h with
  | kept why =>
    obtain hn | ⟨-, hn | ho⟩ := why
    · exact absurd hn Bool.false_ne_true
    · exact absurd hn Bool.false_ne_true
    · exact hp.opened alive ho
  | unknown => exact absurd he (Option.some_ne_none _)
  | begun _ noOpen => exact absurd noOpen Bool.false_ne_true
  | opened before _ _ _ opening => exact opening.opened before he
  | begunOpened fresh _ _ made opening =>
    obtain ⟨_, _, _, _, _, rfl⟩ := initialise_frame made
    exact opening.opened rfl he

end

/-- What a getter does once the handle is initialised: nothing if the process has ended, a call of
the server that the handle names for the feature, or what the system part or its absence does. The
check of required fields may end the process. -/
inductive Answering (f : Feature) (p : Process) : Process → Prop
  | ended (why : p.ended ≠ none) : Answering f p p
  | server (alive : p.ended = none) (more : List Action) (end_ : Option Failure)
      (he : end_ = none ∨ end_ = some .missing)
      (hs : p.handle.server = true) (hf : names p.handle.features f = true)
      (hm : ∀ a ∈ more, a = .read p.handle.readFd) :
      Answering f p ⟨p.handle,
        p.trace ++ .write p.handle.writeFd :: .read p.handle.readFd :: more, end_⟩
  | system (alive : p.ended = none) (end_ : Option Failure)
      (he : end_ = none ∨ end_ = some .missing) :
      Answering f p ⟨p.handle, p.trace ++ [.getS f], end_⟩
  | enosys (alive : p.ended = none) : Answering f p ⟨p.handle, p.trace, some .enosys⟩

theorem Answering.handle {f : Feature} {p q : Process} (h : Answering f p q) :
    q.handle = p.handle := by
  cases h <;> rfl

/-- What `glibtop_close_r` does: to a server at a socket it writes, initialising the handle as
every call does. -/
inductive Closing (env : Env) (p : Process) : Process → Prop
  | untouched (method : p.handle.method ≠ methodPipe ∧ p.handle.method ≠ methodUnix ∧
      p.handle.method ≠ methodInet) : Closing env p p
  | killed (method : p.handle.method = methodPipe) :
      Closing env p (p.did [.kill p.handle.pid, .close p.handle.input.1, .close p.handle.output.2])
  | ended {q : Process} (method : p.handle.method = methodUnix ∨ p.handle.method = methodInet)
      (initialised : Initialising env 0 {} p q) (why : q.ended ≠ none) : Closing env p q
  | hungUp {q : Process} (method : p.handle.method = methodUnix ∨ p.handle.method = methodInet)
      (initialised : Initialising env 0 {} p q) (opened : q.Opened) :
      Closing env p
        (q.did [.write q.handle.writeFd, .read q.handle.readFd, .close q.handle.socket])

section

variable (env : Env) (depth : Nat)

theorem nested_eq (p : Process) (h : p.Opened) : glibtopInitR env (depth + 2) 0 {} p = p :=
  glibtopInitR_of_opened env (depth + 1) 0 {} p h

/-- `glibtop_init_r` from a regular process. -/
theorem Process.Regular.initialising {p : Process} (h : p.Regular) (alive : p.ended = none)
    (features : BitVec 64) (flags : InitFlags) :
    Initialising env features flags p (glibtopInitR env (depth + 2) features flags p) :=
  glibtopInitR_initialising env depth features flags alive (h.unopened alive) (h.init alive)

/-- `glibtop_get_X_l` from a regular process, up to the check of required fields. -/
theorem glibtopGetL_answering (block : Feature → Bool) (f : Feature) {p : Process}
    (h : p.Regular) (alive : p.ended = none) :
    ∃ q, Initialising env f.mask {} p q ∧
      Answering f q (glibtopGetL env (depth + 2) block f p).1 := by
  have hi := h.initialising env depth alive f.mask {}
  refine ⟨_, hi, ?_⟩
  simp only [glibtopGetL]
  generalize glibtopInitR env (depth + 2) f.mask {} p = q at hi ⊢
  by_cases he : q.ended = none
  · have ho := hi.opened_of h alive he
    rw [if_neg (not_not.mpr he)]
    split
    · next hs =>
      simp only [Bool.and_eq_true] at hs
      simp only [Process.callL_eq (nested_eq env depth) ho]
      refine .server he _ _ (.inl he) hs.1 hs.2 fun a ha ↦ ?_
      split at ha
      · exact List.mem_singleton.mp ha
      · exact absurd ha List.not_mem_nil
    · split
      · exact .enosys he
      · exact .system he _ (.inl he)
  · rw [if_pos he]
    exact .ended he

/-- A getter that answers has not ended the process. -/
theorem glibtopGetL_answered (block : Feature → Bool) (f : Feature) (p : Process)
    (h : p.Regular) (alive : p.ended = none)
    (ha : (glibtopGetL env (depth + 2) block f p).2 = .answered) :
    (glibtopGetL env (depth + 2) block f p).1.ended = none := by
  have hi := h.initialising env depth alive f.mask {}
  simp only [glibtopGetL] at ha ⊢
  generalize glibtopInitR env (depth + 2) f.mask {} p = q at hi ha ⊢
  by_cases he : q.ended = none
  · rw [if_neg (not_not.mpr he)] at ha ⊢
    split
    · exact (Process.callL_eq (nested_eq env depth) (hi.opened_of h alive he) (block f)) ▸ he
    · next hs =>
      rw [if_neg hs] at ha
      split
      · next hc =>
        rw [if_pos hc] at ha
        exact absurd ha Verdict.noConfusion
      · exact he
  · rw [if_pos he] at ha
    exact absurd ha Verdict.noConfusion

/-- Ending the process behind an answer. -/
private theorem Answering.missing {f : Feature} {p q : Process} (h : Answering f p q)
    (alive : q.ended = none) : Answering f p (q.fail .missing) := by
  cases h with
  | ended he => exact absurd alive he
  | server ha more _ _ hs hf hm => exact .server ha more _ (.inr rfl) hs hf hm
  | system ha => exact .system ha _ (.inr rfl)
  | enosys => exact absurd alive (Option.some_ne_none _)

/-- The check of required fields can only end the process. -/
theorem Library.checkRequired_process (l : Library) (f : Feature) (flags : BitVec 64) :
    (l.checkRequired f flags).process = l.process ∨
      (l.checkRequired f flags).process = l.process.fail .missing := by
  simp only [Library.checkRequired]
  split
  · exact .inl rfl
  · exact .inl rfl
  · exact .inr rfl

/-- `glibtop_get_X_l` from a regular process. -/
theorem Library.getL_answering (l : Library) (f : Feature) (block : Bool) (returned : BitVec 64)
    (h : l.process.Regular) (alive : l.Alive) :
    ∃ q, Initialising env f.mask {} l.process q ∧
      Answering f q (l.getL env (depth + 2) f block returned).process := by
  obtain ⟨q, hi, ha⟩ := glibtopGetL_answering env depth (fun _ ↦ block) f h alive
  refine ⟨q, hi, ?_⟩
  have hv := glibtopGetL_answered env depth (fun _ ↦ block) f l.process h alive
  simp only [Library.getL]
  split
  · next hr =>
    obtain hc | hc := checkRequired_process
      { l with process := (glibtopGetL env (depth + 2) (fun _ ↦ block) f l.process).1 } f returned
    · rw [hc]
      exact ha
    · rw [hc]
      exact ha.missing (hv hr)
  · exact ha

/-- `glibtop_close_r` from a regular process. -/
theorem glibtopCloseR_closing {p : Process} (h : p.Regular) (alive : p.ended = none) :
    Closing env p (glibtopCloseR env (depth + 2) p) := by
  have hi := h.initialising env depth alive 0 {}
  unfold glibtopCloseR
  dsimp only
  by_cases hs : p.handle.method = methodUnix ∨ p.handle.method = methodInet
  · rw [if_pos hs]
    by_cases he : (glibtopInitR env (depth + 2) 0 {} p).ended = none
    · have ho := hi.opened_of h alive he
      have hc : p.callL (glibtopInitR env (depth + 2) 0 {}) false =
          (glibtopInitR env (depth + 2) 0 {} p).callL (glibtopInitR env (depth + 2) 0 {}) false := by
        rw [Process.callL, Process.callL, nested_eq env depth _ ho]
      rw [hc, Process.callL_eq (nested_eq env depth) ho, Process.andThen_of_alive (ho.did _).alive]
      have hg : Closing env p _ := .hungUp hs hi ho
      simpa [Process.did, Process.act] using hg
    · have hc : p.callL (glibtopInitR env (depth + 2) 0 {}) false =
          glibtopInitR env (depth + 2) 0 {} p := by
        rw [Process.callL, Process.andThen_of_ended he]
      rw [hc, Process.andThen_of_ended he]
      exact .ended hs hi he
  · rw [if_neg hs]
    by_cases hp : p.handle.method = methodPipe
    · rw [if_pos hp]
      have hg : Closing env p _ := .killed hp
      simpa [Process.did, Process.act] using hg
    · rw [if_neg hp]
      exact .untouched ⟨hp, fun hu ↦ hs (.inl hu), fun hi ↦ hs (.inr hi)⟩

end

/-- A getter keeps a process regular. -/
theorem Answering.regular {f : Feature} {p q : Process} (h : Answering f p q) (hp : p.Regular) :
    q.Regular := by
  cases h with
  | ended => exact hp
  | server alive => exact hp.of_handle alive rfl
  | system alive => exact hp.of_handle alive rfl
  | enosys alive => exact hp.of_handle alive rfl

/-- So does a close. -/
theorem Closing.regular {env : Env} {p q : Process} (h : Closing env p q) (hp : p.Regular)
    (alive : p.ended = none) : q.Regular := by
  cases h with
  | untouched => exact hp
  | killed => exact hp.of_handle alive rfl
  | ended _ initialised => exact initialised.regular hp alive
  | hungUp _ _ opened => exact Process.regular_of_opened opened.init opened.opened

section

variable (order : ByteOrder) (parameter : UInt32) (data : Option (List UInt8)) (l : Library)

/-- `glibtop_set_parameter_l` only sets the method or the error method of the handle. -/
theorem Library.setParameterL_process :
    ∃ method errorMethod, (l.setParameterL order parameter data).process =
      l.process.set { l.process.handle with method := method, errorMethod := errorMethod } := by
  simp only [setParameterL]
  split
  · split <;> exact ⟨_, _, rfl⟩
  · split
    · exact ⟨_, _, rfl⟩
    · split
      · split <;> exact ⟨_, _, rfl⟩
      · split
        · split <;> exact ⟨_, _, rfl⟩
        · exact ⟨_, _, rfl⟩

/-- Other parameters do not change the error method. -/
theorem Library.setParameterL_errorMethod (h : parameter ≠ paramErrorMethod) :
    (l.setParameterL order parameter data).process.handle.errorMethod =
      l.process.handle.errorMethod := by
  simp only [setParameterL, h, if_false]
  split
  · split <;> rfl
  · split
    · rfl
    · split
      · split <;> rfl
      · rfl

end

/-- Every public call keeps the process regular. -/
theorem Library.regular_step (env : Env) (order : ByteOrder) (depth : Nat) (l : Library)
    (c : ApiCall) (h : l.process.Regular) :
    (l.step env order (depth + 2) c).process.Regular := by
  rw [step]
  split
  · next alive =>
    cases c with
    | query q =>
      cases q with
      | init features flags => exact (h.initialising env depth alive features flags).regular h alive
      | get f block returned =>
        obtain ⟨q, hi, ha⟩ := l.getL_answering env depth f block returned h alive
        exact ha.regular (hi.regular h alive)
    | setParameter parameter data =>
      obtain ⟨method, errorMethod, hp⟩ := l.setParameterL_process order parameter data
      change (l.setParameterL order parameter data).process.Regular
      rw [hp]
      constructor
      · intro _ ho
        have hu := h.unopened alive ho
        exact ⟨hu.opened, hu.server, hu.sysdeps, hu.socket, hu.input, hu.output, hu.pid⟩
      · exact fun _ ho ↦ h.init alive ho
    | getParameter => exact h
    | close => exact (glibtopCloseR_closing env depth h alive).regular h alive
  · exact h

end LibGTop.Client
