import Mathlib.Data.List.Count
import Mathlib.Data.List.Nodup

/-!
# Repeats next to each other

What is left of a list when an element is dropped that has the key of the one before it. A key is
left once if and only if all elements that have it stand next to each other.
-/

namespace LibGTop.Base

section

variable {α κ : Type} [DecidableEq κ] (key : α → κ)

/-- The elements that do not have the key of the one before them, or the given one. -/
def starts : Option κ → List α → List α
  | _, [] => []
  | prev, a :: l =>
    if prev = some (key a) then starts prev l else a :: starts (some (key a)) l

/-- Between two elements with the key there is none without it. -/
def Adjacent (l : List α) (k : κ) : Prop :=
  ∀ a b c, [a, b, c].Sublist l → key a = k → key c = k → key b = k

end

section

variable {α κ : Type} [DecidableEq κ] {key : α → κ} {k : κ} {prev : Option κ} {l : List α}

theorem starts_sublist (prev : Option κ) (l : List α) : (starts key prev l).Sublist l := by
  induction l generalizing prev with
  | nil => exact List.Sublist.slnil
  | cons a l ih =>
    rw [starts]
    split
    · exact (ih prev).cons a
    · exact (ih _).cons_cons a

/-- The start of a key that is not the one before the list. -/
theorem mem_starts {c : α} (h : c ∈ l) (hp : prev ≠ some (key c)) :
    key c ∈ (starts key prev l).map key := by
  induction l generalizing prev with
  | nil => exact absurd h List.not_mem_nil
  | cons a l ih =>
    rw [starts]
    by_cases hk : key a = key c
    · rw [if_neg (hk ▸ hp), List.map_cons, hk]
      exact List.mem_cons_self
    · have hc : c ∈ l := (List.mem_cons.mp h).resolve_left fun he ↦ hk (he ▸ rfl)
      split
      · exact ih hc hp
      · rw [List.map_cons]
        exact List.mem_cons_of_mem _ (ih hc fun he ↦ hk (Option.some.inj he))

/-- Behind an element without the key, one with it starts again. -/
theorem mem_starts_of_pair {b c : α} (h : [b, c].Sublist l) (hb : key b ≠ k) (hc : key c = k) :
    k ∈ (starts key prev l).map key := by
  induction l generalizing prev with
  | nil => exact absurd h.length_le (by simp)
  | cons a l ih =>
    rw [starts]
    cases h with
    | cons _ h =>
      split
      · exact ih h
      · exact List.mem_cons_of_mem _ (ih h)
    | cons_cons _ h =>
      have hm : c ∈ l := List.singleton_sublist.mp h
      split
      · next hp => exact hc ▸ mem_starts hm fun he ↦ hb (Option.some.inj (hp.symm.trans (hc ▸ he)))
      · exact List.mem_cons_of_mem _ (hc ▸ mem_starts hm fun he ↦ hb (Option.some.inj (hc ▸ he)))

theorem count_starts_cons (a : α) (h : prev ≠ some (key a)) :
    ((starts key prev (a :: l)).map key).count k =
      ((starts key (some (key a)) l).map key).count k + if key a = k then 1 else 0 := by
  rw [starts, if_neg h, List.map_cons, List.count_cons]
  simp only [beq_iff_eq]

/-- Around an element without the key it starts twice. -/
theorem two_le_count {a b c : α} (h : [a, b, c].Sublist l) (ha : key a = k) (hb : key b ≠ k)
    (hc : key c = k) (hp : prev ≠ some k) : 2 ≤ ((starts key prev l).map key).count k := by
  induction l generalizing prev with
  | nil => exact absurd h.length_le (by simp)
  | cons x l ih =>
    by_cases hx : prev = some (key x)
    · have hxk : key x ≠ k := fun he ↦ hp (he ▸ hx)
      rw [starts, if_pos hx]
      cases h with
      | cons _ h => exact ih h hp
      | cons_cons _ h => exact absurd ha hxk
    · rw [count_starts_cons x hx]
      have hpair : [b, c].Sublist l := by
        cases h with
        | cons _ h => exact (List.sublist_cons_self a _).trans h
        | cons_cons _ h => exact h
      by_cases hxk : key x = k
      · have hm : k ∈ (starts key (some (key x)) l).map key := mem_starts_of_pair hpair hb hc
        have hpos := List.count_pos_iff.mpr hm
        rw [if_pos hxk]
        omega
      · cases h with
        | cons _ h =>
          exact Nat.le_trans (ih h fun he ↦ hxk (Option.some.inj he)) (Nat.le_add_right _ _)
        | cons_cons _ h => exact absurd ha hxk

/-- Where the key before the list starts again, there is an element without it first. -/
theorem pair_of_mem (h : k ∈ (starts key (some k) l).map key) :
    ∃ b c, [b, c].Sublist l ∧ key b ≠ k ∧ key c = k := by
  induction l with
  | nil => exact absurd h List.not_mem_nil
  | cons x l ih =>
    rw [starts] at h
    split at h
    · obtain ⟨b, c, hs, hk⟩ := ih h
      exact ⟨b, c, hs.cons x, hk⟩
    · next hx =>
      have hxk : key x ≠ k := fun he ↦ hx (congrArg some he.symm)
      rw [List.map_cons, List.mem_cons] at h
      obtain ⟨c, hc, hck⟩ := List.mem_map.mp (h.resolve_left (Ne.symm hxk))
      refine ⟨x, c, ?_, hxk, hck⟩
      exact (List.singleton_sublist.mpr ((starts_sublist _ l).subset hc)).cons_cons x

/-- A key that starts twice has an element without it between two that have it. -/
theorem triple_of_count (h : 2 ≤ ((starts key prev l).map key).count k) :
    ∃ a b c, [a, b, c].Sublist l ∧ key a = k ∧ key b ≠ k ∧ key c = k := by
  induction l generalizing prev with
  | nil => exact absurd h (by simp [starts])
  | cons x l ih =>
    by_cases hx : prev = some (key x)
    · rw [starts, if_pos hx] at h
      obtain ⟨a, b, c, hs, hk⟩ := ih h
      exact ⟨a, b, c, hs.cons x, hk⟩
    · rw [count_starts_cons x hx] at h
      by_cases hxk : key x = k
      · rw [if_pos hxk, hxk] at h
        have hm : k ∈ (starts key (some k) l).map key := List.count_pos_iff.mp (by omega)
        obtain ⟨b, c, hs, hb, hc⟩ := pair_of_mem hm
        exact ⟨x, b, c, hs.cons_cons x, hxk, hb, hc⟩
      · rw [if_neg hxk] at h
        obtain ⟨a, b, c, hs, hk⟩ := ih h
        exact ⟨a, b, c, hs.cons x, hk⟩

/-- A key starts at most once if and only if its elements stand next to each other. -/
theorem count_starts_le_one_iff (l : List α) (k : κ) :
    ((starts key none l).map key).count k ≤ 1 ↔ Adjacent key l k := by
  constructor
  · intro h a b c hs ha hc
    by_contra hb
    have := two_le_count hs ha hb hc (Option.some_ne_none k).symm
    omega
  · intro h
    by_contra hn
    obtain ⟨a, b, c, hs, ha, hb, hc⟩ := triple_of_count (Nat.lt_of_not_le hn)
    exact hb (h a b c hs ha hc)

/-- Where equal keys are of equal elements, the starts of a filter have its keys. -/
theorem mem_filter_starts_iff {p : α → Bool} (he : ∀ a ∈ l, ∀ b ∈ l, key a = key b → a = b) :
    k ∈ ((starts key none l).filter p).map key ↔ ∃ a ∈ l, p a ∧ key a = k := by
  rw [List.mem_map]
  constructor
  · rintro ⟨a, ha, hk⟩
    obtain ⟨ha, hp⟩ := List.mem_filter.mp ha
    exact ⟨a, (starts_sublist none l).subset ha, hp, hk⟩
  · rintro ⟨a, ha, hp, hk⟩
    obtain ⟨b, hb, hba⟩ := List.mem_map.mp (mem_starts ha (Option.some_ne_none (key a)).symm)
    have hab : b = a := he b ((starts_sublist none l).subset hb) a ha hba
    exact ⟨a, List.mem_filter.mpr ⟨hab ▸ hb, hp⟩, hk⟩

/-- They are without repeats if and only if each key of the filter stands together. -/
theorem nodup_filter_starts_iff {p : α → Bool} (he : ∀ a ∈ l, ∀ b ∈ l, key a = key b → a = b) :
    (((starts key none l).filter p).map key).Nodup ↔ ∀ a ∈ l, p a → Adjacent key l (key a) := by
  have hcount : ∀ a ∈ l, p a → (((starts key none l).filter p).map key).count (key a) =
      ((starts key none l).map key).count (key a) := by
    intro a ha hp
    rw [List.count_eq_countP, List.count_eq_countP, List.countP_map, List.countP_filter,
      List.countP_map]
    refine List.countP_congr fun b hb ↦ ?_
    simp only [Function.comp_apply, Bool.and_eq_true, beq_iff_eq, and_iff_left_iff_imp]
    exact fun hk ↦ he b ((starts_sublist none l).subset hb) a ha hk ▸ hp
  rw [List.nodup_iff_count_le_one]
  constructor
  · intro h a ha hp
    exact (count_starts_le_one_iff l (key a)).mp (hcount a ha hp ▸ h (key a))
  · intro h k
    by_cases hk : k ∈ ((starts key none l).filter p).map key
    · obtain ⟨a, ha, hp, rfl⟩ := (mem_filter_starts_iff he).mp hk
      exact hcount a ha hp ▸ (count_starts_le_one_iff l (key a)).mpr (h a ha hp)
    · rw [List.count_eq_zero_of_not_mem hk]
      exact Nat.zero_le 1

end

end LibGTop.Base
