import Mathlib.Data.List.TakeDrop

/-!
# Arrays that are filled in a growing storage

An array that is written from the front into storage that is allocated ahead of
it, with a capacity and a count that are kept beside the storage. Where resizing
keeps what is stored, the elements written so far are those of a list that is
appended to.
-/

namespace LibGTop.Base

variable {α : Type}

/-- Resizing leaves room for the size asked for, and keeps the elements below it. -/
structure Resizes (setSize : List α → Nat → List α) : Prop where
  size_le : ∀ storage size, size ≤ (setSize storage size).length
  take_eq : ∀ storage size count, count ≤ size → count ≤ storage.length →
    (setSize storage size).take count = storage.take count

/-- Resizing that fills new storage with one value. -/
def padSize (filler : α) (storage : List α) (size : Nat) : List α :=
  storage.take size ++ List.replicate (size - storage.length) filler

theorem resizes_padSize (filler : α) : Resizes (padSize filler) where
  size_le storage size := by
    rw [padSize, List.length_append, List.length_take, List.length_replicate]
    omega
  take_eq storage size count hs hl := by
    rw [padSize, List.take_append_of_le_length (by rw [List.length_take]; omega), List.take_take,
      Nat.min_eq_left hs]

/-- The allocated storage, the capacity it is known to have, and the number of elements added. -/
structure Filling (α : Type) where
  capacity : Nat
  storage : List α
  added : Nat

namespace Filling

/-- The capacity is there, and it is not exceeded. -/
structure Valid (f : Filling α) : Prop where
  capacity_pos : 0 < f.capacity
  capacity_le : f.capacity ≤ f.storage.length
  added_le : f.added ≤ f.capacity

/-- The elements added so far. -/
def contents (f : Filling α) : List α := f.storage.take f.added

/-- Twice the capacity when it is used up. -/
def reserve (setSize : List α → Nat → List α) (f : Filling α) : Filling α :=
  if f.capacity ≤ f.added then
    { f with capacity := f.capacity * 2, storage := setSize f.storage (f.capacity * 2) }
  else f

/-- One element more. -/
def write (f : Filling α) (x : α) : Filling α :=
  { f with storage := f.storage.set f.added x, added := f.added + 1 }

variable {f : Filling α}

@[simp] theorem added_reserve (setSize : List α → Nat → List α) (f : Filling α) :
    (f.reserve setSize).added = f.added := by
  unfold reserve
  split <;> rfl

/-- Behind a reservation there is room for one element more. -/
theorem Valid.room (setSize : List α → Nat → List α) (hv : f.Valid) :
    f.added < (f.reserve setSize).capacity := by
  have hpos := hv.capacity_pos
  have hle := hv.added_le
  unfold reserve
  split
  · change f.added < f.capacity * 2
    omega
  · omega

theorem Valid.reserve {setSize : List α → Nat → List α} (h : Resizes setSize) (hv : f.Valid) :
    (f.reserve setSize).Valid := by
  have hpos := hv.capacity_pos
  have hle := hv.added_le
  unfold Filling.reserve
  split
  · exact ⟨by change 0 < f.capacity * 2; omega, h.size_le _ _,
      by change f.added ≤ f.capacity * 2; omega⟩
  · exact hv

/-- A reservation keeps what was added. -/
theorem contents_reserve {setSize : List α → Nat → List α} (h : Resizes setSize) (hv : f.Valid) :
    (f.reserve setSize).contents = f.contents := by
  have hle := hv.added_le
  have hcap := hv.capacity_le
  unfold reserve
  split
  · exact h.take_eq f.storage (f.capacity * 2) f.added (by omega) (by omega)
  · rfl

theorem Valid.write (hv : f.Valid) (hr : f.added < f.capacity) (x : α) : (f.write x).Valid := by
  refine ⟨hv.capacity_pos, ?_, hr⟩
  rw [Filling.write, List.length_set]
  exact hv.capacity_le

/-- What is written stands behind what was added before. -/
theorem contents_write (hv : f.Valid) (hr : f.added < f.capacity) (x : α) :
    (f.write x).contents = f.contents ++ [x] := by
  have hl : f.added < f.storage.length := Nat.lt_of_lt_of_le hr hv.capacity_le
  rw [contents, contents, write, List.take_add_one, List.getElem?_set_self hl, List.take_set,
    List.set_eq_of_length_le (by rw [List.length_take]; omega)]
  rfl

section

variable {setSize : List α → Nat → List α}

/-- Behind a reservation there is an element to write over. -/
theorem Valid.exists_next (h : Resizes setSize) (hv : f.Valid) :
    ∃ x, (f.reserve setSize).storage[f.added]? = some x :=
  ⟨_, List.getElem?_eq_getElem (Nat.lt_of_lt_of_le (hv.room setSize) (hv.reserve h).capacity_le)⟩

theorem Valid.next (h : Resizes setSize) (hv : f.Valid) (x : α) :
    ((f.reserve setSize).write x).Valid := by
  have hroom := hv.room setSize
  rw [← added_reserve setSize f] at hroom
  exact (hv.reserve h).write hroom x

/-- One element more, with its reservation. -/
theorem contents_next (h : Resizes setSize) (hv : f.Valid) (x : α) :
    ((f.reserve setSize).write x).contents = f.contents ++ [x] := by
  have hroom := hv.room setSize
  rw [← added_reserve setSize f] at hroom
  rw [contents_write (hv.reserve h) hroom, contents_reserve h hv]

@[simp] theorem added_next (setSize : List α → Nat → List α) (f : Filling α) (x : α) :
    ((f.reserve setSize).write x).added = f.added + 1 := by
  rw [write, added_reserve]

end

end Filling

end LibGTop.Base
