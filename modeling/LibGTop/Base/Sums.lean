import Mathlib.Data.List.Basic
import Mathlib.Data.BitVec

/-!
# Sums over a list

The sum of a number of each member, and the loops that add it up in a word.
-/

namespace LibGTop.Base

universe u

variable {α : Type u}

/-- The sum of a number of each member. -/
def sumOf (f : α → Nat) (xs : List α) : Nat := xs.foldr (fun x sum ↦ f x + sum) 0

section

variable (f g : α → Nat)

@[simp] theorem sumOf_nil : sumOf f [] = 0 := rfl

@[simp] theorem sumOf_cons (x : α) (xs : List α) : sumOf f (x :: xs) = f x + sumOf f xs := rfl

theorem sumOf_append (xs ys : List α) : sumOf f (xs ++ ys) = sumOf f xs + sumOf f ys := by
  induction xs with
  | nil => exact (Nat.zero_add _).symm
  | cons x xs ih => rw [List.cons_append, sumOf_cons, ih, sumOf_cons, Nat.add_assoc]

theorem sumOf_map {β : Type} (h : β → α) (xs : List β) :
    sumOf f (xs.map h) = sumOf (fun x ↦ f (h x)) xs := by
  induction xs with
  | nil => rfl
  | cons x xs ih => rw [List.map_cons, sumOf_cons, sumOf_cons, ih]

/-- The order does not matter. -/
theorem sumOf_perm {xs ys : List α} (h : xs.Perm ys) : sumOf f xs = sumOf f ys := by
  induction h with
  | nil => rfl
  | cons x _ ih => rw [sumOf_cons, sumOf_cons, ih]
  | swap x y xs =>
    simp only [sumOf_cons]
    omega
  | trans _ _ ih ih' => exact ih.trans ih'

theorem sumOf_eq_zero {xs : List α} : sumOf f xs = 0 ↔ ∀ x ∈ xs, f x = 0 := by
  induction xs with
  | nil => exact iff_of_true rfl (List.forall_mem_nil _)
  | cons x xs ih => rw [sumOf_cons, Nat.add_eq_zero_iff, ih, List.forall_mem_cons]

variable {f g}

theorem sumOf_le {xs : List α} (h : ∀ x ∈ xs, f x ≤ g x) : sumOf f xs ≤ sumOf g xs := by
  induction xs with
  | nil => exact Nat.le_refl 0
  | cons x xs ih =>
    obtain ⟨hx, h⟩ := List.forall_mem_cons.mp h
    exact Nat.add_le_add hx (ih h)

theorem sumOf_congr {xs : List α} (h : ∀ x ∈ xs, f x = g x) : sumOf f xs = sumOf g xs :=
  Nat.le_antisymm (sumOf_le fun x hx ↦ Nat.le_of_eq (h x hx))
    (sumOf_le fun x hx ↦ Nat.le_of_eq (h x hx).symm)

/-- A loop that adds to a word. -/
theorem foldl_add_word {w : Nat} (f : α → Nat) (xs : List α) (start : BitVec w) :
    xs.foldl (fun sum x ↦ sum + BitVec.ofNat w (f x)) start =
      start + BitVec.ofNat w (sumOf f xs) := by
  induction xs generalizing start with
  | nil => rw [List.foldl_nil, sumOf_nil, BitVec.add_zero]
  | cons x xs ih => rw [List.foldl_cons, ih, sumOf_cons, BitVec.ofNat_add, BitVec.add_assoc]

theorem foldl_add_zero {w : Nat} (f : α → Nat) (xs : List α) :
    xs.foldl (fun sum x ↦ sum + BitVec.ofNat w (f x)) 0 = BitVec.ofNat w (sumOf f xs) :=
  (foldl_add_word f xs 0).trans (BitVec.zero_add _)

end

end LibGTop.Base
