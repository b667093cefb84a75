import LibGTop.Base.Vectors
import Mathlib.Control.Basic

/-!
# The arguments of a process

`glibtop_get_proc_argv_l` (`sysdeps/common/procargs.c:7–44`), which splits what the getter of
the system has returned. The memory behind a pointer is the list of its bytes.
-/

namespace LibGTop.Common

open Base

/-- `glibtop_proc_args`, `include/glibtop/procargs.h:36–40`. -/
structure ProcArgs where
  flags : BitVec 64 := 0
  size : Nat := 0
  deriving DecidableEq

/-- `_glibtop_sysdeps_proc_args`. -/
def sysdepsProcArgs : BitVec 64 := 1

/-- `split_args0`, `sysdeps/common/procargs.c:12–30`: the vector and the number of bytes that are
read; absent when there is no terminator to stop at. -/
def splitArgs0 (args0 : List UInt8) (size : Nat) : Option (List (List UInt8) × Nat) :=
  if size = 0 then some ([], 0)
  else if 0 ∈ args0 then
    let arg := cString args0
    let next := arg.length + 1
    (splitArgs0 (args0.drop next) (size - next)).map fun (argv, read) ↦ (arg :: argv, next + read)
  else none
termination_by size
decreasing_by omega

/-- `glibtop_get_proc_argv_l`, `sysdeps/common/procargs.c:38–44`, with the getter it calls. No
memory is behind a null pointer. -/
def glibtopGetProcArgvL {m : Type → Type} [Monad m]
    (glibtopGetProcArgsL : Nat → m (ProcArgs × Option (List UInt8))) (maxLen : Nat) :
    m (ProcArgs × Option (List (List UInt8) × Nat)) := do
  let (buf, args0) ← glibtopGetProcArgsL maxLen
  pure (buf, splitArgs0 (args0.getD []) buf.size)

@[simp] theorem splitArgs0_zero (args0 : List UInt8) : splitArgs0 args0 0 = some ([], 0) := by
  rw [splitArgs0, if_pos rfl]

/-- A string with its terminator is split off. -/
theorem splitArgs0_append {arg : List UInt8} (ha : 0 ∉ arg) (rest : List UInt8) {size : Nat}
    (hs : 0 < size) :
    splitArgs0 (arg ++ 0 :: rest) size =
      (splitArgs0 rest (size - (arg.length + 1))).map fun (argv, read) ↦
        (arg :: argv, arg.length + 1 + read) := by
  have hd : (arg ++ 0 :: rest).drop (arg.length + 1) = rest := by
    rw [← List.singleton_append, ← List.append_assoc]
    exact List.drop_left' (List.length_append ..)
  rw [splitArgs0, if_neg (Nat.ne_of_gt hs),
    if_pos (List.mem_append_right arg List.mem_cons_self)]
  simp only [cString_append_zero arg rest ha, hd]

/-- A size that ends in the last string of a vector, or with its terminator, gives the vector, and
its bytes are those that are read. -/
theorem splitArgs0_flattened {args : List (List UInt8)} {last : List UInt8}
    (h : ∀ arg ∈ args, 0 ∉ arg) (hl : 0 ∉ last) (rest : List UInt8) {size : Nat}
    (hlow : (flattened args).length < size)
    (hhigh : size ≤ (flattened (args ++ [last])).length) :
    splitArgs0 (flattened (args ++ [last]) ++ rest) size =
      some (args ++ [last], (flattened (args ++ [last])).length) := by
  induction args generalizing size with
  | nil =>
    have hsize : size - (last.length + 1) = 0 := by
      simp only [List.nil_append, flattened_cons, flattened_nil, List.length_append,
        List.length_cons, List.length_nil] at hhigh
      omega
    rw [List.nil_append, flattened_cons, List.append_assoc, List.cons_append,
      splitArgs0_append hl _ (Nat.zero_lt_of_lt hlow), hsize, splitArgs0_zero]
    simp
  | cons arg args ih =>
    obtain ⟨ha, h⟩ := List.forall_mem_cons.mp h
    simp only [List.cons_append, flattened_cons, List.length_append, List.length_cons]
      at hlow hhigh ⊢
    have hlow' : (flattened args).length < size - (arg.length + 1) := by omega
    have hhigh' : size - (arg.length + 1) ≤ (flattened (args ++ [last])).length := by omega
    rw [List.append_assoc, List.cons_append, splitArgs0_append ha _ (by omega), ih h hlow' hhigh']
    simp only [Option.map_some, Option.some.injEq, Prod.mk.injEq, true_and]
    omega

end LibGTop.Common
