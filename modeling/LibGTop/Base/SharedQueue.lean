import LibGTop.Base.Runs
import Mathlib.Data.List.Count
import Mathlib.Data.List.Nodup

/-!
# A queue of questions that several parties share

Parties put questions into one queue and take answers out of another. The
answers come in the order of the questions, but a party takes whichever is next.
It waits for one answer at a time.
-/

namespace LibGTop.Base

universe u

variable {Party : Type u} [DecidableEq Party]

/-- Who has asked, who has taken an answer, both in their order, and how many questions are
answered. -/
structure SharedQueue (Party : Type u) where
  askers : List Party
  takers : List Party
  answered : Nat

/-- What happens at the queue. -/
inductive QueueEvent (Party : Type u)
  | ask (c : Party)
  | answer
  | take (c : Party)

namespace SharedQueue

/-- The party has asked and not taken an answer. -/
def waits (q : SharedQueue Party) (c : Party) : Bool := q.takers.count c < q.askers.count c

/-- A party asks when it does not wait and takes when it does and an answer is there. -/
def step (q : SharedQueue Party) : QueueEvent Party → SharedQueue Party
  | .ask c => if q.waits c then q else { q with askers := q.askers ++ [c] }
  | .answer => if q.answered < q.askers.length then { q with answered := q.answered + 1 } else q
  | .take c =>
    if q.waits c && q.takers.length < q.answered then { q with takers := q.takers ++ [c] } else q

/-- Nothing is asked yet. -/
def empty : SharedQueue Party := ⟨[], [], 0⟩

/-- Each answer that was taken was taken by the party that asked for it. -/
def Own (q : SharedQueue Party) : Prop := q.takers <+: q.askers

/-- No two parties wait. -/
def Alone (q : SharedQueue Party) : Prop := ∀ c d, q.waits c → q.waits d → c = d

/-- No party asks. -/
def Quiet (events : List (QueueEvent Party)) : Prop := ∀ e ∈ events, ∀ c, e ≠ .ask c

/-- What holds of every queue: a party has at most one question open, and there are no more answers
taken than given, nor given than asked for. -/
structure Orderly (q : SharedQueue Party) : Prop where
  single : ∀ c, q.takers.count c ≤ q.askers.count c ∧ q.askers.count c ≤ q.takers.count c + 1
  taken : q.takers.length ≤ q.answered
  given : q.answered ≤ q.askers.length

theorem orderly_empty : Orderly (empty : SharedQueue Party) :=
  ⟨fun _ ↦ ⟨Nat.le_refl _, Nat.zero_le _⟩, Nat.le_refl _, Nat.le_refl _⟩

theorem Orderly.step {q : SharedQueue Party} (h : q.Orderly) (e : QueueEvent Party) :
    (q.step e).Orderly := by
  cases e with
  | ask c =>
    rw [SharedQueue.step]
    split
    · exact h
    · next hw =>
      refine ⟨fun d ↦ ?_, h.taken, ?_⟩
      · have hd := h.single d
        have hc := h.single c
        rw [waits, decide_eq_true_eq, Nat.not_lt] at hw
        rw [List.count_append, List.count_singleton]
        by_cases hcd : c = d
        · subst hcd
          simp only [beq_self_eq_true, if_true]
          omega
        · simp only [beq_iff_eq, hcd, if_false]
          omega
      · rw [List.length_append]
        exact Nat.le_trans h.given (Nat.le_add_right _ _)
  | answer =>
    rw [SharedQueue.step]
    split
    · next hl => exact ⟨h.single, Nat.le_succ_of_le h.taken, hl⟩
    · exact h
  | take c =>
    rw [SharedQueue.step]
    split
    · next hw =>
      simp only [waits, Bool.and_eq_true, decide_eq_true_eq] at hw
      refine ⟨fun d ↦ ?_, ?_, h.given⟩
      · have hd := h.single d
        rw [List.count_append, List.count_singleton]
        by_cases hcd : c = d
        · subst hcd
          simp only [beq_self_eq_true, if_true]
          omega
        · simp only [beq_iff_eq, hcd, if_false]
          omega
      · rw [List.length_append, List.length_singleton]
        exact hw.2
    · exact h

/-- While each answer was taken by its own party, the questions behind them are those of the parties
that wait, one of each. -/
theorem Orderly.open_questions {q : SharedQueue Party} (h : q.Orderly) {open_ : List Party}
    (ho : q.askers = q.takers ++ open_) : open_.Nodup ∧ ∀ c, q.waits c ↔ c ∈ open_ := by
  have hc : ∀ c, q.askers.count c = q.takers.count c + open_.count c := by
    intro c
    rw [ho, List.count_append]
  constructor
  · rw [List.nodup_iff_count_le_one]
    intro c
    have := (h.single c).2
    have := hc c
    omega
  · intro c
    rw [waits, decide_eq_true_eq, hc c, ← List.count_pos_iff]
    omega

/-- Where no two parties wait, what is taken next is taken by its own party. -/
theorem Own.step {q : SharedQueue Party} (h : q.Orderly) (ho : q.Own) (ha : q.Alone)
    {e : QueueEvent Party} (he : ∀ c, e ≠ .ask c) : (q.step e).Own ∧ (q.step e).Alone := by
  cases e with
  | ask c => exact absurd rfl (he c)
  | answer =>
    rw [SharedQueue.step]
    split <;> exact ⟨ho, ha⟩
  | take c =>
    rw [SharedQueue.step]
    split
    · next hw =>
      have hwait : q.waits c := (Bool.and_eq_true_iff.mp hw).1
      obtain ⟨open_, hs⟩ := ho
      obtain ⟨hnd, hm⟩ := h.open_questions hs.symm
      -- the party that waits has the only question that is open
      have hopen : open_ = [c] := by
        have hall : ∀ d ∈ open_, d = c := fun d hd ↦ ha d c ((hm d).mpr hd) hwait
        have hmem := (hm c).mp hwait
        cases open_ with
        | nil => exact absurd hmem List.not_mem_nil
        | cons d rest =>
          obtain rfl := hall d List.mem_cons_self
          cases rest with
          | nil => rfl
          | cons d' rest =>
            obtain rfl := hall d' (by simp)
            exact absurd List.mem_cons_self (List.nodup_cons.mp hnd).1
      have hpre : q.takers ++ [c] = q.askers := by rw [← hs, hopen]
      refine ⟨⟨[], by rw [List.append_nil]; exact hpre⟩, fun d d' hd _ ↦ ?_⟩
      rw [waits, decide_eq_true_eq] at hd
      simp only [hpre, Nat.lt_irrefl] at hd
    · exact ⟨ho, ha⟩

/-- Where two parties wait, one can take the answer of another once an answer is there. -/
theorem exists_not_own {q : SharedQueue Party} (h : q.Orderly) (ho : q.Own) (ha : ¬q.Alone) :
    q.takers.length < q.askers.length ∧ ∃ c, q.waits c ∧
      ∀ answered, q.takers.length < answered →
        ¬(SharedQueue.step { q with answered := answered } (.take c)).Own := by
  obtain ⟨open_, hs⟩ := ho
  obtain ⟨-, hm⟩ := h.open_questions hs.symm
  have hex : ∃ c d, q.waits c = true ∧ q.waits d = true ∧ c ≠ d := by
    by_contra hn
    exact ha fun c d hc hd ↦ by_contra fun hcd ↦ hn ⟨c, d, hc, hd, hcd⟩
  obtain ⟨c, d, hc, hd, hcd⟩ := hex
  cases open_ with
  | nil => exact absurd ((hm c).mp hc) List.not_mem_nil
  | cons first rest =>
    refine ⟨by rw [← hs, List.length_append, List.length_cons]; omega, ?_⟩
    -- one of the two has not asked the question whose answer is next
    obtain ⟨x, hx, hne⟩ : ∃ x, q.waits x = true ∧ x ≠ first := by
      by_cases hf : c = first
      · exact ⟨d, hd, fun he ↦ hcd (hf.trans he.symm)⟩
      · exact ⟨c, hc, hf⟩
    refine ⟨x, hx, fun answered hl ho' ↦ hne ?_⟩
    have hw : SharedQueue.waits { q with answered := answered } x = true := hx
    rw [SharedQueue.step, hw, if_pos (by simpa using hl)] at ho'
    obtain ⟨more, hmore⟩ := ho'
    have hmore : q.takers ++ [x] ++ more = q.askers := hmore
    rw [← hs, List.append_assoc] at hmore
    exact (List.cons.inj (List.append_cancel_left hmore)).1

end SharedQueue

end LibGTop.Base
