import Mathlib.Data.List.Nodup

/-!
# Circular lists

Nodes in a memory that each hold the address of the next one, where the last leads back to the
first.
-/

namespace LibGTop.Base

variable {Addr : Type}

/-- From a node the links lead through the others to the end. -/
def Leads (next : Addr → Addr) : Addr → List Addr → Addr → Prop
  | a, [], stop => next a = stop
  | a, b :: rest, stop => next a = b ∧ Leads next b rest stop

/-- The nodes of a circular list from one of them on. -/
structure Circle (next : Addr → Addr) (first : Addr) (rest : List Addr) : Prop where
  nodup : (first :: rest).Nodup
  leads : Leads next first rest first

instance decidableLeads [DecidableEq Addr] (next : Addr → Addr) :
    ∀ a rest stop, Decidable (Leads next a rest stop)
  | a, [], stop => inferInstanceAs (Decidable (next a = stop))
  | a, b :: rest, stop =>
    letI := decidableLeads next b rest stop
    inferInstanceAs (Decidable (next a = b ∧ Leads next b rest stop))

section

variable {next : Addr → Addr} {first : Addr} {rest : List Addr}

/-- The link of the last node is the end of the list. -/
theorem Leads.next_last {a : Addr} (h : Leads next a [] first) : next a = first := h

/-- The link of any other node leads to one that is not the end. -/
theorem Leads.next_ne {a b : Addr} (h : Leads next a (b :: rest) first)
    (hf : first ∉ b :: rest) : next a ≠ first := by
  rintro rfl
  exact hf (h.1 ▸ List.mem_cons_self)

end

/-- The nodes that a loop turns to which tests the link behind each of them; absent where it is
still running. -/
def visitsDo [DecidableEq Addr] (next : Addr → Addr) (stop : Addr) : Nat → Addr → Option (List Addr)
  | 0, _ => none
  | fuel + 1, a =>
    if next a = stop then some [a] else (visitsDo next stop fuel (next a)).map (a :: ·)

/-- The nodes that a loop turns to which tests the link before each of them, and goes on to the node
that it leads to. -/
def visitsWhile [DecidableEq Addr] (next : Addr → Addr) (stop : Addr) :
    Nat → Addr → Option (List Addr)
  | 0, _ => none
  | fuel + 1, a =>
    if next a = stop then some []
    else (visitsWhile next stop fuel (next a)).map (next a :: ·)

section

variable [DecidableEq Addr] {next : Addr → Addr} {stop a : Addr} {rest : List Addr} {fuel : Nat}

/-- Tested behind its nodes, a list is visited from its first node to its last. -/
theorem visitsDo_eq (h : Leads next a rest stop) (hs : stop ∉ rest) (hf : rest.length < fuel) :
    visitsDo next stop fuel a = some (a :: rest) := by
  induction rest generalizing a fuel with
  | nil =>
    obtain ⟨fuel, rfl⟩ := Nat.exists_eq_succ_of_ne_zero (Nat.ne_zero_of_lt hf)
    rw [visitsDo, if_pos h.next_last]
  | cons b rest ih =>
    obtain ⟨fuel, rfl⟩ := Nat.exists_eq_succ_of_ne_zero (Nat.ne_zero_of_lt hf)
    have hr := ih h.2 (fun hm ↦ hs (List.mem_cons_of_mem b hm)) (Nat.lt_of_succ_lt_succ hf)
    rw [visitsDo, if_neg (h.next_ne hs), h.1, hr]
    rfl

/-- Tested before its nodes, a list is visited from its second node to its last. -/
theorem visitsWhile_eq (h : Leads next a rest stop) (hs : stop ∉ rest) (hf : rest.length < fuel) :
    visitsWhile next stop fuel a = some rest := by
  induction rest generalizing a fuel with
  | nil =>
    obtain ⟨fuel, rfl⟩ := Nat.exists_eq_succ_of_ne_zero (Nat.ne_zero_of_lt hf)
    rw [visitsWhile, if_pos h.next_last]
  | cons b rest ih =>
    obtain ⟨fuel, rfl⟩ := Nat.exists_eq_succ_of_ne_zero (Nat.ne_zero_of_lt hf)
    have hr := ih h.2 (fun hm ↦ hs (List.mem_cons_of_mem b hm)) (Nat.lt_of_succ_lt_succ hf)
    rw [visitsWhile, if_neg (h.next_ne hs), h.1, hr]
    rfl

end

end LibGTop.Base
