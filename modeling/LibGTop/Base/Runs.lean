import Mathlib.Data.List.Basic

/-!
# Runs of a state machine

A machine is a step function; a run folds it over a list of events. The
invariant rules turn what one step preserves into what holds in every state a
run reaches, for all runs or for those whose steps all meet a condition.
-/

namespace LibGTop.Base

universe u v

variable {State : Type u} {Event : Type v} (step : State → Event → State)

/-- The state a run of events ends in. -/
def run (s : State) (events : List Event) : State := events.foldl step s

@[simp] theorem run_nil (s : State) : run step s [] = s := rfl

@[simp] theorem run_cons (s : State) (e : Event) (events : List Event) :
    run step s (e :: events) = run step (step s e) events := rfl

/-- A run continues where its first part ended. -/
theorem run_append (s : State) (first second : List Event) :
    run step s (first ++ second) = run step (run step s first) second :=
  List.foldl_append

/-- Every step of the run meets the condition in the state it is taken from. -/
def StepsMeet (guard : State → Event → Prop) : State → List Event → Prop
  | _, [] => True
  | s, e :: events => guard s e ∧ StepsMeet guard (step s e) events

instance decidableStepsMeet {guard : State → Event → Prop} [∀ s e, Decidable (guard s e)] :
    ∀ s events, Decidable (StepsMeet step guard s events)
  | _, [] => inferInstanceAs (Decidable True)
  | s, e :: events =>
    @instDecidableAnd _ _ (inferInstanceAs (Decidable (guard s e)))
      (decidableStepsMeet (step s e) events)

/-- The steps of a run in two parts. -/
theorem stepsMeet_append {guard : State → Event → Prop} (s : State) (first second : List Event) :
    StepsMeet step guard s (first ++ second) ↔
      StepsMeet step guard s first ∧ StepsMeet step guard (run step s first) second := by
  induction first generalizing s with
  | nil => simp [StepsMeet]
  | cons e first ih =>
    rw [List.cons_append, StepsMeet, StepsMeet, ih, and_assoc]
    rfl

/-- Where the condition is on the events alone, every one of them meets it. -/
theorem stepsMeet_of_forall {guard : Event → Prop} (s : State) {events : List Event}
    (h : ∀ e ∈ events, guard e) : StepsMeet step (fun _ e ↦ guard e) s events := by
  induction events generalizing s with
  | nil => trivial
  | cons e events ih =>
    obtain ⟨he, h⟩ := List.forall_mem_cons.mp h
    exact ⟨he, ih _ h⟩

/-- What the steps that meet a condition preserve holds after a run of such steps. -/
theorem run_invariant_of_steps {guard : State → Event → Prop} (inv : State → Prop)
    (preserved : ∀ s e, guard s e → inv s → inv (step s e)) (s : State) (events : List Event)
    (meets : StepsMeet step guard s events) (initial : inv s) : inv (run step s events) := by
  induction events generalizing s with
  | nil => exact initial
  | cons e events ih => exact ih _ meets.2 (preserved s e meets.1 initial)

/-- What every step preserves holds after every run. -/
theorem run_invariant (inv : State → Prop) (preserved : ∀ s e, inv s → inv (step s e))
    (s : State) (events : List Event) (initial : inv s) : inv (run step s events) := by
  induction events generalizing s with
  | nil => exact initial
  | cons e events ih => exact ih _ (preserved s e initial)

end LibGTop.Base
