import Mathlib.Data.List.Basic
import Mathlib.Data.List.TakeWhile

/-!
# Maximal runs of a list

The runs of members of a kind in a list, in order, and where a list can be cut without cutting a
run.
-/

namespace LibGTop.Base

universe u

variable {α : Type u}

/-- The maximal runs of members of a kind. -/
def runs (p : α → Bool) (xs : List α) : List (List α) :=
  (xs.splitOnP fun x ↦ !p x).filter fun run ↦ !run.isEmpty

/-- No run goes on from the first list to the second. -/
def Apart (p : α → Bool) (before rest : List α) : Prop :=
  (∀ x ∈ before.getLast?, p x = false) ∨ ∀ x ∈ rest.head?, p x = false

section

variable {p : α → Bool}

@[simp] theorem runs_nil : runs p [] = [] := rfl

theorem runs_append_cons (before : List α) {x : α} (hx : p x = false) (rest : List α) :
    runs p (before ++ x :: rest) = runs p before ++ runs p rest := by
  have hsep : (fun y ↦ !p y) x = true := by
    show (!p x) = true
    rw [hx]
    rfl
  rw [runs, List.splitOnP_append_cons before rest hsep, List.filter_append]
  rfl

@[simp] theorem runs_cons_of_neg {x : α} (hx : p x = false) (rest : List α) :
    runs p (x :: rest) = runs p rest :=
  runs_append_cons [] hx rest

/-- A list of one run. -/
theorem runs_run {run : List α} (hn : run ≠ []) (h : ∀ x ∈ run, p x) : runs p run = [run] := by
  have hsep : ∀ x ∈ run, (!p x) = false := by
    intro x hx
    rw [h x hx]
    rfl
  have hkeep : run.isEmpty = false := List.isEmpty_eq_false_iff.mpr hn
  rw [runs, List.splitOnP_eq_singleton hsep, List.filter_cons_of_pos (by rw [hkeep]; rfl)]
  rfl

theorem apart_dropWhile (before xs : List α) : Apart p before (xs.dropWhile p) := by
  refine .inr fun x hx ↦ ?_
  have hd := List.head?_dropWhile_not p xs
  rw [Option.mem_def.mp hx] at hd
  exact hd

/-- The runs of a list that is cut between two runs. -/
theorem runs_append {before rest : List α} (h : Apart p before rest) :
    runs p (before ++ rest) = runs p before ++ runs p rest := by
  obtain h | h := h
  · obtain rfl | ⟨front, x, he⟩ := List.eq_nil_or_concat before
    · rfl
    · rw [List.concat_eq_append] at he
      subst he
      have hx : p x = false := h x (by rw [List.getLast?_concat]; rfl)
      rw [List.append_assoc, List.singleton_append, runs_append_cons _ hx,
        runs_append_cons _ hx, runs_nil, List.append_nil]
  · cases rest with
    | nil => rw [runs_nil, List.append_nil, List.append_nil]
    | cons x rest =>
      have hx : p x = false := h x rfl
      rw [runs_append_cons _ hx, runs_cons_of_neg hx]

/-- A cut of a list, and a cut of what is behind it. -/
theorem Apart.append {front before rest : List α} (hf : Apart p front (before ++ rest))
    (h : Apart p before rest) : Apart p (front ++ before) rest := by
  by_cases hn : before = []
  · subst hn
    rwa [List.append_nil]
  · refine h.imp_left fun hl x hx ↦ hl x ?_
    rw [List.getLast?_append] at hx
    rwa [List.getLast?_eq_some_getLast hn] at hx ⊢

/-- Members of a kind at the start of a list, before what is none of them. -/
theorem takeWhile_dropWhile_append (xs : List α) {tail : List α}
    (h : ∀ x ∈ tail.head?, p x = false) :
    (xs ++ tail).takeWhile p = xs.takeWhile p ∧
      (xs ++ tail).dropWhile p = xs.dropWhile p ++ tail := by
  induction xs with
  | nil =>
    cases tail with
    | nil => exact ⟨rfl, rfl⟩
    | cons x tail =>
      have hx : ¬p x = true := by
        rw [h x rfl]
        exact Bool.false_ne_true
      exact ⟨List.takeWhile_cons_of_neg hx, List.dropWhile_cons_of_neg hx⟩
  | cons x xs ih =>
    rw [List.cons_append]
    by_cases hx : p x = true
    · rw [List.takeWhile_cons_of_pos hx, List.takeWhile_cons_of_pos hx, ih.1,
        List.dropWhile_cons_of_pos hx, List.dropWhile_cons_of_pos hx, ih.2]
      exact ⟨rfl, rfl⟩
    · rw [List.takeWhile_cons_of_neg hx, List.takeWhile_cons_of_neg hx,
        List.dropWhile_cons_of_neg hx, List.dropWhile_cons_of_neg hx]
      exact ⟨rfl, rfl⟩

/-- What is before the runs is in none. -/
theorem runs_append_of_neg {before : List α} (h : ∀ x ∈ before, p x = false) (rest : List α) :
    runs p (before ++ rest) = runs p rest := by
  induction before with
  | nil => rfl
  | cons x before ih =>
    obtain ⟨hx, h⟩ := List.forall_mem_cons.mp h
    rw [List.cons_append, runs_cons_of_neg hx, ih h]

/-- What is between the delimiters has none of them. -/
theorem of_mem_splitOnP {text part : List α} (h : part ∈ text.splitOnP p) :
    ∀ b ∈ part, p b = false := by
  induction text generalizing part with
  | nil =>
    obtain rfl := List.mem_singleton.mp h
    exact List.forall_mem_nil _
  | cons b text ih =>
    rw [List.splitOnP_cons_eq_if_modifyHead] at h
    split at h
    · obtain rfl | h := List.mem_cons.mp h
      · exact List.forall_mem_nil _
      · exact ih h
    · next hb =>
      obtain ⟨first, others, hparts⟩ := List.exists_cons_of_ne_nil (List.splitOnP_ne_nil p text)
      rw [hparts] at h ih
      obtain rfl | h := List.mem_cons.mp h
      · exact List.forall_mem_cons.mpr ⟨Bool.eq_false_iff.mpr hb, ih List.mem_cons_self⟩
      · exact ih (List.mem_cons_of_mem first h)

/-- The members of a run are of the kind. -/
theorem of_mem_runs {xs run : List α} (h : run ∈ runs p xs) : ∀ x ∈ run, p x = true := by
  intro x hx
  have hx := of_mem_splitOnP (List.mem_filter.mp h).1 x hx
  rwa [Bool.not_eq_false'] at hx

/-- A list that starts with a run. -/
theorem runs_of_head {xs : List α} (hn : xs ≠ []) (h : ∀ x ∈ xs.head?, p x) :
    runs p xs = xs.takeWhile p :: runs p (xs.dropWhile p) := by
  have hne : xs.takeWhile p ≠ [] := by
    cases xs with
    | nil => exact absurd rfl hn
    | cons x xs =>
      rw [List.takeWhile_cons_of_pos (h x rfl)]
      exact List.cons_ne_nil _ _
  have hruns := runs_append (apart_dropWhile (p := p) (xs.takeWhile p) xs)
  rw [List.takeWhile_append_dropWhile, runs_run hne fun x hx ↦ List.mem_takeWhile_imp hx] at hruns
  exact hruns

end

end LibGTop.Base
