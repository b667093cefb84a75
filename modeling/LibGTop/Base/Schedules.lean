import Mathlib.Data.List.Basic

/-!
# Endless schedules

What the calls of an endless run do, and the first of them as a list. Where calls
of one kind come again and again, the first calls have any number of these.
-/

namespace LibGTop.Base

universe u

variable {Call : Type u}

/-- The first calls of an endless schedule. -/
def firstCalls (calls : Nat → Call) (n : Nat) : List Call := (List.range n).map calls

theorem firstCalls_succ (calls : Nat → Call) (n : Nat) :
    firstCalls calls (n + 1) = firstCalls calls n ++ [calls n] := by
  rw [firstCalls, List.range_succ, List.map_append]
  rfl

theorem exists_firstCalls_append (calls : Nat → Call) {n m : Nat} (h : n ≤ m) :
    ∃ more, firstCalls calls m = firstCalls calls n ++ more := by
  induction h with
  | refl => exact ⟨[], (List.append_nil _).symm⟩
  | step _ ih =>
    obtain ⟨more, hm⟩ := ih
    exact ⟨more ++ [calls _], by rw [firstCalls_succ, hm, List.append_assoc]⟩

/-- Every call of the schedule is one of its own. -/
theorem exists_of_mem_firstCalls {calls : Nat → Call} {n : Nat} {call : Call}
    (h : call ∈ firstCalls calls n) : ∃ i, calls i = call := by
  obtain ⟨i, -, hi⟩ := List.mem_map.mp h
  exact ⟨i, hi⟩

/-- Longer schedules have at least as many calls of a kind. -/
theorem countP_firstCalls_mono (kind : Call → Bool) (calls : Nat → Call) {n m : Nat} (h : n ≤ m) :
    (firstCalls calls n).countP kind ≤ (firstCalls calls m).countP kind := by
  obtain ⟨more, hm⟩ := exists_firstCalls_append calls h
  rw [hm, List.countP_append]
  exact Nat.le_add_right _ _

/-- Calls that come again and again come any number of times. -/
theorem exists_le_countP_firstCalls (kind : Call → Bool) {calls : Nat → Call}
    (h : ∀ i, ∃ j, i ≤ j ∧ kind (calls j) = true) (count : Nat) :
    ∃ n, ∀ m, n ≤ m → count ≤ (firstCalls calls m).countP kind := by
  induction count with
  | zero => exact ⟨0, fun _ _ ↦ Nat.zero_le _⟩
  | succ count ih =>
    obtain ⟨n, hn⟩ := ih
    obtain ⟨j, hj, hk⟩ := h n
    have hone : [calls j].countP kind = 1 := List.countP_cons_of_pos hk
    have hcount : count + 1 ≤ (firstCalls calls (j + 1)).countP kind := by
      have hle := hn j hj
      rw [firstCalls_succ, List.countP_append, hone]
      omega
    exact ⟨j + 1, fun m hm ↦ Nat.le_trans hcount (countP_firstCalls_mono kind calls hm)⟩

end LibGTop.Base
