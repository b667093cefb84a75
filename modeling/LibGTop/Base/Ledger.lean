import Mathlib.Data.List.Basic

/-!
# The ledger of buffers

What a program does with the buffers that it obtains, and when it keeps to them: it uses none that
it has released, and releases each exactly once.
-/

namespace LibGTop.Base

universe u

/-- What is done with a buffer. -/
inductive BufferEvent (Buffer : Type u)
  | obtained (b : Buffer)
  | used (b : Buffer)
  | released (b : Buffer)
  deriving DecidableEq

variable {Buffer : Type u} [DecidableEq Buffer]

/-- No buffer is used behind its release, and each that is obtained is released once. -/
structure Disciplined (events : List (BufferEvent Buffer)) : Prop where
  live : events.Pairwise fun first second ↦ ∀ b, first = .released b → second ≠ .used b
  once : ∀ b, .obtained b ∈ events → events.count (.released b) = 1

omit [DecidableEq Buffer] in
/-- A use behind a release is none of the order. -/
theorem not_live {front mid back : List (BufferEvent Buffer)} (b : Buffer) :
    ¬(front ++ .released b :: (mid ++ .used b :: back)).Pairwise
      fun first second ↦ ∀ b, first = .released b → second ≠ .used b := by
  intro h
  have htail := (List.pairwise_append.mp h).2.1
  exact (List.pairwise_cons.mp htail).1 (.used b) (by simp) b rfl rfl

end LibGTop.Base
