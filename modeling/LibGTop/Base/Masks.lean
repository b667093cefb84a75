import Mathlib.Data.List.Nodup

/-!
# Bit masks

A mask names a set of numbered items by its bits. Masks of distinct single bits
may be added as well as joined; the sum then has exactly the bits of the items
that take part.
-/

namespace LibGTop.Base

universe u

variable {Item : Type u} (width : Nat) (bit : Item → Nat) (on : Item → Bool)

/-- The mask of one item, or zero when it takes no part. -/
def itemMask (a : Item) : BitVec width :=
  if on a then BitVec.twoPow width (bit a) else BitVec.ofNat width 0

/-- The sum of the masks of a list of items. -/
def sumMasks : List Item → BitVec width
  | [] => BitVec.ofNat width 0
  | a :: items => itemMask width bit on a + sumMasks items

/-- The mask of an item has its own bit only, and only when it takes part. -/
theorem getLsbD_itemMask (a : Item) (i : Nat) (hi : i < width) :
    (itemMask width bit on a).getLsbD i = (on a && bit a == i) := by
  unfold itemMask
  split
  · next h =>
    rw [BitVec.getLsbD_twoPow, h]
    by_cases he : bit a = i
    · simp [he, hi]
    · simp [he]
  · next h => simp [h]

/-- A sum of masks of distinct bits has the bits of the items that take part. -/
theorem getLsbD_sumMasks (items : List Item) (hd : (items.map bit).Nodup) (i : Nat)
    (hi : i < width) :
    (sumMasks width bit on items).getLsbD i = items.any fun a ↦ on a && bit a == i := by
  induction items generalizing i with
  | nil => simp [sumMasks]
  | cons a items ih =>
    obtain ⟨hn, hd⟩ := List.nodup_cons.mp hd
    have disjoint :
        itemMask width bit on a &&& sumMasks width bit on items = BitVec.ofNat width 0 := by
      apply BitVec.eq_of_getLsbD_eq
      intro j hj
      rw [BitVec.getLsbD_and, getLsbD_itemMask width bit on a j hj, ih hd j hj,
        BitVec.getLsbD_zero, Bool.and_eq_false_iff]
      by_cases he : bit a = j
      · right
        rw [List.any_eq_false]
        intro b hb hbj
        simp only [Bool.and_eq_true, beq_iff_eq] at hbj
        exact hn (List.mem_map.mpr ⟨b, hb, hbj.2.trans he.symm⟩)
      · left
        simp [he]
    rw [sumMasks, BitVec.add_eq_or_of_and_eq_zero _ _ disjoint, BitVec.getLsbD_or,
      getLsbD_itemMask width bit on a i hi, ih hd i hi, List.any_cons]

/-- A single bit meets a mask exactly when the mask has it. -/
theorem twoPow_and_eq_zero_iff {width : Nat} (i : Nat) (hi : i < width) (mask : BitVec width) :
    BitVec.twoPow width i &&& mask = BitVec.ofNat width 0 ↔ mask.getLsbD i = false := by
  constructor
  · intro h
    have hb := congrArg (fun m ↦ m.getLsbD i) h
    simpa [BitVec.getLsbD_and, BitVec.getLsbD_twoPow, hi] using hb
  · intro h
    apply BitVec.eq_of_getLsbD_eq
    intro j hj
    rw [BitVec.getLsbD_and, BitVec.getLsbD_twoPow, BitVec.getLsbD_zero]
    by_cases he : i = j
    · simp [← he, h]
    · simp [he]

end LibGTop.Base
