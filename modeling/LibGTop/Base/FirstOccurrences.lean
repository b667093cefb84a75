import LibGTop.Base.ChainedTable

/-!
# First occurrences

The elements of a list with the first of each key only, and a table in which each key is counted.
-/

namespace LibGTop.Base

variable {ρ κ : Type} [DecidableEq κ]

/-- The first element of each key. -/
def firstsBy (key : ρ → κ) : List ρ → List ρ
  | [] => []
  | r :: rs => r :: (firstsBy key rs).filter (key · ≠ key r)

section

variable (key : ρ → κ)

theorem mem_of_mem_firstsBy {r : ρ} {rs : List ρ} (h : r ∈ firstsBy key rs) : r ∈ rs := by
  induction rs with
  | nil => exact h
  | cons x rs ih =>
    rcases List.mem_cons.mp h with rfl | h
    · exact List.mem_cons_self
    · exact List.mem_cons_of_mem x (ih (List.mem_filter.mp h).1)

/-- Each key that there is has its first element. -/
theorem key_mem_firstsBy (k : κ) (rs : List ρ) :
    k ∈ (firstsBy key rs).map key ↔ k ∈ rs.map key := by
  induction rs with
  | nil => exact Iff.rfl
  | cons x rs ih =>
    rw [firstsBy, List.map_cons, List.map_cons, List.mem_cons, List.mem_cons, ← ih]
    refine or_congr_right' fun hk ↦ ?_
    simp only [List.mem_map, List.mem_filter, decide_eq_true_eq]
    constructor
    · rintro ⟨r, ⟨hr, -⟩, rfl⟩
      exact ⟨r, hr, rfl⟩
    · rintro ⟨r, hr, rfl⟩
      exact ⟨r, ⟨hr, hk⟩, rfl⟩

theorem firstsBy_concat (rs : List ρ) (x : ρ) :
    firstsBy key (rs ++ [x]) =
      firstsBy key rs ++ if key x ∈ rs.map key then [] else [x] := by
  induction rs with
  | nil => rfl
  | cons r rs ih =>
    rw [List.cons_append, firstsBy, ih, List.filter_append, firstsBy, List.map_cons,
      List.cons_append]
    congr 2
    by_cases hr : key x = key r
    · simp [hr]
    · by_cases hx : key x ∈ rs.map key
      · rw [if_pos hx, if_pos (List.mem_cons_of_mem _ hx), List.filter_nil]
      · rw [if_neg hx, if_neg (by simpa [hr] using hx)]
        simp [hr]

/-- Elements with one key have one that is first. -/
theorem firstsBy_eq_singleton {r : ρ} {rs : List ρ} (h : ∀ x ∈ rs, key x = key r) :
    firstsBy key (r :: rs) = [r] := by
  have hnone : (firstsBy key rs).filter (key · ≠ key r) = [] :=
    List.filter_eq_nil_iff.mpr fun x hx ↦ by simpa using h x (mem_of_mem_firstsBy key hx)
  rw [firstsBy, hnone]

end

namespace TableLayout

variable {α : Type} {t : TableLayout α κ}

/-- What a node with a count of its key is. -/
structure Counting (t : TableLayout α κ) (key : ρ → κ) (entry : ρ → Nat → α) (again : α → α) :
    Prop where
  key_entry : ∀ r n, t.key (entry r n) = key r
  again_entry : ∀ r n, again (entry r n) = entry r (n + 1)
  key_again : ∀ x, t.key (again x) = t.key x

/-- The nodes of a list: the first element of each key, and how many have it. -/
def counted (key : ρ → κ) (entry : ρ → Nat → α) (rs : List ρ) : List α :=
  (firstsBy key rs).map fun r ↦ entry r (rs.countP (key · = key r))

variable {key : ρ → κ} {entry : ρ → Nat → α} {again : α → α}

/-- One more element is noted in the nodes. -/
theorem Counting.noted_counted (h : Counting t key entry again) (rs : List ρ) (x : ρ) :
    t.noted again (entry x 1) (counted key entry rs) = counted key entry (rs ++ [x]) := by
  have hseen : t.key (entry x 1) ∈ (counted key entry rs).map t.key ↔ key x ∈ rs.map key := by
    rw [h.key_entry, ← key_mem_firstsBy key, counted, List.map_map]
    have hkeys : t.key ∘ (fun r ↦ entry r (rs.countP (key · = key r))) = key :=
      funext fun r ↦ h.key_entry r _
    rw [hkeys]
  by_cases hx : key x ∈ rs.map key
  · rw [noted, if_pos (hseen.mpr hx), counted, counted, firstsBy_concat, if_pos hx,
      List.append_nil, List.map_map]
    refine List.map_congr_left fun r _ ↦ ?_
    rw [Function.comp_apply, h.key_entry, h.key_entry, List.countP_append, List.countP_singleton]
    by_cases hr : key x = key r
    · simp [hr, h.again_entry]
    · simp [hr, Ne.symm hr]
  · rw [noted, if_neg fun hmem ↦ hx (hseen.mp hmem), counted, counted, firstsBy_concat, if_neg hx,
      List.map_append, List.map_singleton]
    have hothers : ∀ r ∈ rs, key r ≠ key x := fun r hr he ↦ hx (he ▸ List.mem_map_of_mem hr)
    congr 1
    · refine List.map_congr_left fun r hr ↦ ?_
      have hne := hothers r (mem_of_mem_firstsBy key hr)
      rw [List.countP_append, List.countP_singleton]
      simp [Ne.symm hne]
    · have hnone : rs.countP (key · = key x) = 0 :=
        List.countP_eq_zero.mpr fun r hr ↦ by simpa using hothers r hr
      rw [List.countP_append, hnone]
      simp

end TableLayout

end LibGTop.Base
