import Mathlib.Data.List.Nodup

/-!
# What two filters leave of a list

Where the elements have keys of their own, the keys that are left tell the filters apart.
-/

namespace LibGTop.Base

variable {α κ : Type} {key : α → κ} {p q : α → Bool} {l : List α}

/-- The key of an element is left if and only if the element is. -/
theorem key_mem_filter_iff (hn : (l.map key).Nodup) {a : α} (ha : a ∈ l) :
    key a ∈ (l.filter p).map key ↔ p a := by
  rw [List.mem_map]
  constructor
  · rintro ⟨b, hb, hk⟩
    obtain ⟨hb, hp⟩ := List.mem_filter.mp hb
    exact List.inj_on_of_nodup_map hn hb ha hk ▸ hp
  · intro hp
    exact ⟨a, List.mem_filter.mpr ⟨ha, hp⟩, rfl⟩

/-- Two filters leave the same keys if and only if they leave the same elements. -/
theorem map_filter_eq_iff (hn : (l.map key).Nodup) :
    (l.filter p).map key = (l.filter q).map key ↔ ∀ a ∈ l, (p a ↔ q a) := by
  constructor
  · intro h a ha
    rw [← key_mem_filter_iff hn ha, h, key_mem_filter_iff hn ha]
  · intro h
    rw [List.filter_congr fun a ha ↦ Bool.eq_iff_iff.mpr (h a ha)]

/-- Without the last element the same is left if and only if the last one is not, and the filters
agree on the others. -/
theorem map_filter_concat_eq_iff {last : α} (hn : ((l ++ [last]).map key).Nodup) :
    (l.filter p).map key = ((l ++ [last]).filter q).map key ↔
      ¬q last ∧ ∀ a ∈ l, (p a ↔ q a) := by
  have hl : (l.map key).Nodup := by
    rw [List.map_append] at hn
    exact hn.of_append_left
  rw [← map_filter_eq_iff hl]
  by_cases hq : q last
  · refine iff_of_false (fun h ↦ ?_) fun h ↦ h.1 hq
    have hm : key last ∈ (l.filter p).map key := by
      rw [h, key_mem_filter_iff hn (List.mem_append_right l List.mem_cons_self)]
      exact hq
    rw [List.map_append, List.nodup_append] at hn
    obtain ⟨a, ha, hk⟩ := List.mem_map.mp hm
    exact hn.2.2 _ (List.mem_map_of_mem (List.mem_filter.mp ha).1) _ List.mem_cons_self hk
  · rw [List.filter_append, List.filter_cons_of_neg hq, List.filter_nil, List.append_nil]
    exact (and_iff_right hq).symm

/-- A filter that only one element passes leaves that. -/
theorem filter_eq_singleton {a : α} (hn : l.Nodup) (ha : a ∈ l) (hp : p a)
    (h : ∀ b ∈ l, p b → b = a) : l.filter p = [a] := by
  have hm : a ∈ l.filter p := List.mem_filter.mpr ⟨ha, hp⟩
  have hall : ∀ b ∈ l.filter p, b = a := by
    intro b hb
    obtain ⟨hb, hpb⟩ := List.mem_filter.mp hb
    exact h b hb hpb
  cases hf : l.filter p with
  | nil =>
    rw [hf] at hm
    exact absurd hm List.not_mem_nil
  | cons b rest =>
    have hnf := hn.filter p
    rw [hf] at hall hnf
    obtain rfl := hall b List.mem_cons_self
    cases rest with
    | nil => rfl
    | cons c rest =>
      obtain rfl := hall c (List.mem_cons_of_mem _ List.mem_cons_self)
      exact absurd List.mem_cons_self (List.nodup_cons.mp hnf).1

end LibGTop.Base
