import Mathlib.Data.List.Basic
import Mathlib.Data.List.Nodup
import Mathlib.Data.List.Range
import Mathlib.Data.Finset.Range
import Mathlib.Data.Finset.Card

/-!
# The descriptors of a process

A table of open descriptors under the limit of a process. A call that opens one
takes the lowest number that is free, and fails when there is none.
-/

namespace LibGTop.Base

/-- The open descriptors, in the order they were opened. -/
structure DescriptorTable (limit : Nat) where
  used : List Nat
  nodup : used.Nodup
  lt_limit : ∀ fd ∈ used, fd < limit

variable {limit : Nat}

/-- The lowest descriptor that is not open. -/
def DescriptorTable.free (t : DescriptorTable limit) : Option Nat :=
  (List.range limit).find? fun fd ↦ !t.used.contains fd

theorem DescriptorTable.free_spec {t : DescriptorTable limit} {fd : Nat} (h : t.free = some fd) :
    fd ∉ t.used ∧ fd < limit := by
  refine ⟨?_, List.mem_range.mp (List.mem_of_find?_eq_some h)⟩
  have hf := List.find?_some h
  simpa using hf

/-- What is free is the lowest one. -/
theorem DescriptorTable.free_lowest {t : DescriptorTable limit} {fd : Nat} (h : t.free = some fd) :
    ∀ other < fd, other ∈ t.used := by
  intro other ho
  have hl := (List.find?_range_eq_some.mp h).2.2 other ho
  simpa using hl

/-- None is free when all are open. -/
theorem DescriptorTable.free_none {t : DescriptorTable limit} (h : t.free = none) :
    ∀ fd < limit, fd ∈ t.used := by
  intro fd hl
  have hf := List.find?_eq_none.mp h fd (List.mem_range.mpr hl)
  simpa using hf

/-- The table with one descriptor more. -/
def DescriptorTable.insert (t : DescriptorTable limit) (fd : Nat) (hn : fd ∉ t.used)
    (hl : fd < limit) : DescriptorTable limit where
  used := t.used ++ [fd]
  nodup := List.nodup_append.mpr ⟨t.nodup, List.nodup_singleton fd, by
    intro a ha b hb he
    rw [List.mem_singleton.mp hb] at he
    exact hn (he ▸ ha)⟩
  lt_limit := by
    intro a ha
    obtain ha | ha := List.mem_append.mp ha
    · exact t.lt_limit a ha
    · rw [List.mem_singleton.mp ha]
      exact hl

/-- To open a descriptor; absent when there is none left. -/
def DescriptorTable.allocate (t : DescriptorTable limit) : Option (Nat × DescriptorTable limit) :=
  match h : t.free with
  | none => none
  | some fd => some (fd, t.insert fd (free_spec h).1 (free_spec h).2)

/-- To close a descriptor. -/
def DescriptorTable.release (t : DescriptorTable limit) (fd : Nat) : DescriptorTable limit where
  used := t.used.erase fd
  nodup := t.nodup.erase fd
  lt_limit := fun a ha ↦ t.lt_limit a (List.mem_of_mem_erase ha)

theorem DescriptorTable.ext {t t' : DescriptorTable limit} (h : t.used = t'.used) : t = t' := by
  cases t
  cases t'
  cases h
  rfl

/-- What is opened was not open. -/
theorem DescriptorTable.allocate_some {t t' : DescriptorTable limit} {fd : Nat}
    (h : t.allocate = some (fd, t')) : fd ∉ t.used ∧ t'.used = t.used ++ [fd] := by
  rw [allocate] at h
  split at h
  · exact absurd h (by simp)
  · next fd' hf =>
    obtain ⟨rfl, rfl⟩ := Prod.mk.inj (Option.some.inj h)
    exact ⟨(free_spec hf).1, rfl⟩

/-- The lowest one is opened. -/
theorem DescriptorTable.allocate_lowest {t t' : DescriptorTable limit} {fd : Nat}
    (h : t.allocate = some (fd, t')) : ∀ other < fd, other ∈ t.used := by
  rw [allocate] at h
  split at h
  · exact absurd h (by simp)
  · next fd' hf =>
    obtain ⟨rfl, -⟩ := Prod.mk.inj (Option.some.inj h)
    exact free_lowest hf

/-- All are open when none can be. -/
theorem DescriptorTable.mem_of_allocate_none {t : DescriptorTable limit} (h : t.allocate = none) :
    ∀ fd < limit, fd ∈ t.used := by
  rw [allocate] at h
  split at h
  · next hf => exact free_none hf
  · exact absurd h (by simp)

theorem DescriptorTable.toFinset_subset (t : DescriptorTable limit) :
    t.used.toFinset ⊆ Finset.range limit :=
  fun fd h ↦ Finset.mem_range.mpr (t.lt_limit fd (List.mem_toFinset.mp h))

/-- There are never more than the limit. -/
theorem DescriptorTable.length_le (t : DescriptorTable limit) : t.used.length ≤ limit := by
  have hc := Finset.card_le_card t.toFinset_subset
  rwa [List.toFinset_card_of_nodup t.nodup, Finset.card_range] at hc

/-- None is left exactly when the limit is reached. -/
theorem DescriptorTable.allocate_eq_none_iff (t : DescriptorTable limit) :
    t.allocate = none ↔ t.used.length = limit := by
  have hn : t.allocate = none ↔ t.free = none := by
    rw [allocate]
    split
    · next h => simp [h]
    · next h => simp [h]
  have hfree : t.free = none ↔ ∀ fd < limit, fd ∈ t.used := by
    simp [free]
  rw [hn, hfree]
  constructor
  · intro h
    have hs : Finset.range limit ⊆ t.used.toFinset := fun fd hm ↦
      List.mem_toFinset.mpr (h fd (Finset.mem_range.mp hm))
    have hc := Finset.card_le_card hs
    rw [List.toFinset_card_of_nodup t.nodup, Finset.card_range] at hc
    exact Nat.le_antisymm t.length_le hc
  · intro h fd hl
    have he : t.used.toFinset = Finset.range limit := by
      apply Finset.eq_of_subset_of_card_le t.toFinset_subset
      rw [Finset.card_range, List.toFinset_card_of_nodup t.nodup, h]
    rw [← List.mem_toFinset, he]
    exact Finset.mem_range.mpr hl

/-- To close what was just opened leaves the table as it was. -/
theorem DescriptorTable.release_allocate {t t' : DescriptorTable limit} {fd : Nat}
    (h : t.allocate = some (fd, t')) : t'.release fd = t := by
  obtain ⟨hn, hu⟩ := allocate_some h
  apply ext
  change t'.used.erase fd = t.used
  rw [hu, List.erase_append_right _ hn]
  simp

end LibGTop.Base
