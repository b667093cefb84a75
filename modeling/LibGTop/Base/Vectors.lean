import LibGTop.Base.Buffers

/-!
# Vectors of strings in memory

The strings of an argument vector behind one another, each with its terminator, and
the vector that is found again in such bytes.
-/

namespace LibGTop.Base

/-- The strings behind one another, each with its terminator. -/
def flattened (args : List (List UInt8)) : List UInt8 := args.flatMap fun arg ↦ arg ++ [0]

/-- The strings between the terminators: a final one ends the last string and opens no new one. -/
def arguments (bytes : List UInt8) : List (List UInt8) :=
  let parts := bytes.splitOn 0
  if parts.getLast? = some [] then parts.dropLast else parts

@[simp] theorem flattened_nil : flattened [] = [] := rfl

@[simp] theorem flattened_cons (arg : List UInt8) (args : List (List UInt8)) :
    flattened (arg :: args) = arg ++ 0 :: flattened args := by
  simp [flattened]

theorem flattened_concat (args : List (List UInt8)) (arg : List UInt8) :
    flattened (args ++ [arg]) = flattened args ++ (arg ++ [0]) := by
  simp [flattened]

section

variable {args : List (List UInt8)} {last : List UInt8}

theorem splitOn_flattened (h : ∀ arg ∈ args, 0 ∉ arg) (hl : 0 ∉ last) :
    (flattened args ++ last).splitOn 0 = args ++ [last] := by
  induction args with
  | nil => exact List.splitOn_eq_singleton hl
  | cons arg args ih =>
    obtain ⟨ha, h⟩ := List.forall_mem_cons.mp h
    have hs := List.splitOn_append_cons_of_beq arg (flattened args ++ last)
      (beq_self_eq_true (0 : UInt8))
    rw [List.splitOn_eq_singleton ha, ih h] at hs
    rw [flattened_cons, List.append_assoc, List.cons_append, hs]
    rfl

/-- The strings of a flattened vector are the vector. -/
theorem arguments_flattened (h : ∀ arg ∈ args, 0 ∉ arg) : arguments (flattened args) = args := by
  have hs := splitOn_flattened h List.not_mem_nil
  rw [List.append_nil] at hs
  rw [arguments, hs, List.getLast?_concat, if_pos rfl, List.dropLast_concat]

/-- A last string that is not empty needs no terminator. -/
theorem arguments_append (h : ∀ arg ∈ args, 0 ∉ arg) (hl : 0 ∉ last) (hn : last ≠ []) :
    arguments (flattened args ++ last) = args ++ [last] := by
  rw [arguments, splitOn_flattened h hl, List.getLast?_concat]
  exact if_neg fun he ↦ hn (Option.some.inj he)

end

/-- All bytes are those of a vector with a last string that may have no terminator. -/
theorem exists_flattened (bytes : List UInt8) :
    ∃ args last, (∀ arg ∈ args, 0 ∉ arg) ∧ 0 ∉ last ∧ bytes = flattened args ++ last := by
  induction bytes with
  | nil => exact ⟨[], [], List.forall_mem_nil _, List.not_mem_nil, rfl⟩
  | cons b bytes ih =>
    obtain ⟨args, last, ha, hl, rfl⟩ := ih
    by_cases hb : b = 0
    · refine ⟨[] :: args, last, List.forall_mem_cons.mpr ⟨List.not_mem_nil, ha⟩, hl, ?_⟩
      rw [hb, flattened_cons]
      rfl
    · have hcons : ∀ {text : List UInt8}, 0 ∉ text → 0 ∉ b :: text := fun ht ↦
        List.not_mem_cons_of_ne_of_not_mem (Ne.symm hb) ht
      cases args with
      | nil => exact ⟨[], b :: last, ha, hcons hl, rfl⟩
      | cons arg args =>
        obtain ⟨harg, ha⟩ := List.forall_mem_cons.mp ha
        refine ⟨(b :: arg) :: args, last, List.forall_mem_cons.mpr ⟨hcons harg, ha⟩, hl, ?_⟩
        rw [flattened_cons, flattened_cons]
        rfl

end LibGTop.Base
