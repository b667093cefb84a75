import Mathlib.Logic.Basic

/-!
# Programs that return, exit or still run

A program over a state returns with a value, ends the process, or is still in a loop when its
fuel is used up. The rules say what holds whenever it returns.
-/

namespace LibGTop.Base

/-- How a program stops without returning. -/
inductive Stop
  | exited
  | running
  deriving DecidableEq

/-- A program over a state. -/
abbrev Prog (State Value : Type) := StateT State (Except Stop) Value

section

variable {State Value Result : Type}

/-- The end of the process where there is no value. -/
def orExit : Option Value → Prog State Value
  | some a => pure a
  | none => throw .exited

/-- Whenever the program returns from a state of the one condition, the other holds. -/
def Ensures (pre : State → Prop) (m : Prog State Value) (post : Value → State → Prop) : Prop :=
  ∀ s, pre s → ∀ a s', m.run s = .ok (a, s') → post a s'

variable {pre : State → Prop} {post : Value → State → Prop}

theorem ensures_pure {a : Value} (h : ∀ s, pre s → post a s) :
    Ensures pre (pure a : Prog State Value) post := by
  intro s hs b s' hr
  obtain ⟨rfl, rfl⟩ : a = b ∧ s = s' := Prod.mk.inj (Except.ok.inj hr)
  exact h s hs

/-- What holds before a value is returned still holds. -/
theorem ensures_same (a : Value) : Ensures pre (pure a : Prog State Value) fun _ ↦ pre :=
  ensures_pure fun _ hs ↦ hs

theorem ensures_throw (stop : Stop) : Ensures pre (throw stop : Prog State Value) post := by
  intro s _ a s' hr
  exact absurd hr nofun

/-- What holds after the first program goes into the second. -/
theorem ensures_bind {mid : Result → State → Prop} {m : Prog State Result}
    {f : Result → Prog State Value} (hm : Ensures pre m mid)
    (hf : ∀ a, Ensures (mid a) (f a) post) : Ensures pre (m >>= f) post := by
  intro s hs b s' hr
  rw [StateT.run_bind] at hr
  cases hfirst : m.run s with
  | error stop =>
    rw [hfirst] at hr
    exact absurd hr nofun
  | ok result =>
    rw [hfirst] at hr
    exact hf result.1 result.2 (hm s hs result.1 result.2 hfirst) b s' hr

theorem ensures_modify {f : State → State} {post : Unit → State → Prop}
    (h : ∀ s, pre s → post () (f s)) : Ensures pre (modify f : Prog State Unit) post := by
  intro s hs a s' hr
  obtain ⟨rfl, rfl⟩ : () = a ∧ f s = s' := Prod.mk.inj (Except.ok.inj hr)
  exact h s hs

/-- A value that is there is the one that is returned. -/
theorem ensures_orExit {value : Option Value}
    (h : ∀ a ∈ value, ∀ s, pre s → post a s) : Ensures pre (orExit value) post := by
  cases value with
  | none => exact ensures_throw .exited
  | some a => exact ensures_pure (h a rfl)

theorem ensures_orExit_same (value : Option Value) :
    Ensures pre (orExit value : Prog State Value) fun _ ↦ pre :=
  ensures_orExit fun _ _ _ hs ↦ hs

/-- The program returns from every state. -/
def Returns (m : Prog State Value) : Prop := ∀ s, ∃ a s', m.run s = .ok (a, s')

theorem returns_pure (a : Value) : Returns (pure a : Prog State Value) := fun s ↦ ⟨a, s, rfl⟩

theorem returns_bind {m : Prog State Result} {f : Result → Prog State Value} (hm : Returns m)
    (hf : ∀ a, Returns (f a)) : Returns (m >>= f) := by
  intro s
  obtain ⟨a, s', hr⟩ := hm s
  obtain ⟨b, s'', hb⟩ := hf a s'
  refine ⟨b, s'', ?_⟩
  rw [StateT.run_bind, hr]
  exact hb

/-- A program that returns goes on with its value. -/
theorem run_bind_of_ok {m : Prog State Result} {f : Result → Prog State Value} {s s' : State}
    {a : Result} (h : m.run s = .ok (a, s')) : (m >>= f).run s = (f a).run s' := by
  rw [StateT.run_bind, h]
  rfl

/-- A value that is there is gone on with. -/
theorem run_orExit_bind (a : Value) (f : Value → Prog State Result) (s : State) :
    (orExit (some a) >>= f).run s = (f a).run s := rfl

/-- What follows a program does not run on, so both do if the program does. -/
theorem run_bind_ne_running {m : Prog State Result} {f : Result → Prog State Value} {s : State}
    (hf : ∀ a s, (f a).run s ≠ .error .running) :
    (m >>= f).run s ≠ .error .running ↔ m.run s ≠ .error .running := by
  rw [StateT.run_bind]
  cases m.run s with
  | error stop =>
    have he : ∀ {Other : Type}, (.error stop : Except Stop Other) = .error .running ↔
        stop = .running := fun {_} ↦ ⟨Except.error.inj, congrArg Except.error⟩
    exact not_congr (he.trans he.symm)
  | ok result => exact iff_of_true (hf result.1 result.2) nofun

end

end LibGTop.Base
