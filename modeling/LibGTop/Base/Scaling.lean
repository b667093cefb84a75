import Mathlib.Data.Nat.Basic

/-!
# Scaling in a word

When a product that is divided has wrapped, and how much the parts of a scaled number lose.
-/

namespace LibGTop.Base

/-- A quotient shows whether the product that is divided has wrapped. -/
theorem div_mod_eq_iff {product size t : Nat} (ht : 0 < t) (hle : t ≤ size) :
    product % size / t = product / t ↔ product < size := by
  constructor
  · intro h
    by_contra hn
    have hwrap : product % size + size ≤ product := by
      have hdiv := Nat.mod_add_div product size
      have hq : 1 ≤ product / size := Nat.div_pos (by omega) (by omega)
      have hs := Nat.mul_le_mul_left size hq
      omega
    have hmono : (product % size + t) / t ≤ product / t := Nat.div_le_div_right (by omega)
    rw [Nat.add_div_right _ ht, h] at hmono
    omega
  · intro h
    rw [Nat.mod_eq_of_lt h]

/-- The parts of a scaled number do not add up to more. -/
theorem scaled_parts_le (total a b c : Nat) :
    total * a / (a + b + c) + total * b / (a + b + c) + total * c / (a + b + c) ≤ total := by
  by_cases h : a + b + c = 0
  · rw [h]
    simp
  · have hpos : 0 < a + b + c := Nat.pos_of_ne_zero h
    calc total * a / (a + b + c) + total * b / (a + b + c) + total * c / (a + b + c)
        ≤ (total * a + total * b) / (a + b + c) + total * c / (a + b + c) :=
          Nat.add_le_add_right (Nat.div_add_div_le_add_div) _
      _ ≤ (total * a + total * b + total * c) / (a + b + c) := Nat.div_add_div_le_add_div
      _ = total * (a + b + c) / (a + b + c) := by rw [Nat.mul_add, Nat.mul_add]
      _ = total := Nat.mul_div_cancel total hpos

end LibGTop.Base
