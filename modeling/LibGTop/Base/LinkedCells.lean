import Mathlib.Data.List.Nodup
import Mathlib.Logic.Function.Basic

/-!
# Linked cells

A heap of cells, each with an item and the address of the next one, and the loops that follow the
addresses: a search, a fold and a release. A loop is absent where it has not ended within its fuel,
and where it reads or releases what is no cell.
-/

namespace LibGTop.Base

/-- A cell. -/
structure Cell (α : Type) where
  item : α
  next : Option Nat
  deriving DecidableEq

/-- The cells by their addresses, and the address of the next one that is obtained. -/
structure Heap (α : Type) where
  cell : Nat → Option (Cell α)
  fresh : Nat

namespace Heap

variable {α σ : Type}

/-- A write of a cell. -/
def put (heap : Heap α) (a : Nat) (c : Cell α) : Heap α :=
  { heap with cell := Function.update heap.cell a (some c) }

/-- A new cell. -/
def obtain (heap : Heap α) (c : Cell α) : Heap α :=
  { heap.put heap.fresh c with fresh := heap.fresh + 1 }

/-- The heap without a cell. -/
def erase (heap : Heap α) (a : Nat) : Heap α :=
  { heap with cell := Function.update heap.cell a none }

/-- How a search ends: at the first cell that is wanted, or behind the last one. -/
inductive Search
  | found (info : Nat)
  | missing (last : Nat)
  deriving DecidableEq

/-- The search for an item from a pointer on. -/
def search (heap : Heap α) (wanted : α → Bool) : Nat → Nat → Option Nat → Option Search
  | _, last, none => some (.missing last)
  | 0, _, some _ => none
  | fuel + 1, _, some info => do
    let c ← heap.cell info
    if wanted c.item then some (.found info) else search heap wanted fuel info c.next

/-- The fold of the items from a pointer on. -/
def fold (heap : Heap α) (step : σ → α → σ) : Nat → σ → Option Nat → Option σ
  | _, s, none => some s
  | 0, _, some _ => none
  | fuel + 1, s, some info => do
    let c ← heap.cell info
    fold heap step fuel (step s c.item) c.next

/-- The release of the cells from a pointer on, with their addresses in order. -/
def release (heap : Heap α) : Nat → Option Nat → Option (Heap α × List Nat)
  | _, none => some (heap, [])
  | 0, some _ => none
  | fuel + 1, some info => do
    let c ← heap.cell info
    let (rest, freed) ← release (heap.erase info) fuel c.next
    some (rest, info :: freed)

/-- The release of the chains behind these heads. -/
def releaseBehind (heap : Heap α) : List Nat → Option (Heap α × List Nat)
  | [] => some (heap, [])
  | i :: is => do
    let head ← heap.cell i
    let (rest, freed) ← heap.release heap.fresh head.next
    let (rest, more) ← releaseBehind rest is
    some (rest, freed ++ more)

@[simp] theorem put_fresh (heap : Heap α) (a : Nat) (c : Cell α) :
    (heap.put a c).fresh = heap.fresh := rfl

@[simp] theorem obtain_fresh (heap : Heap α) (c : Cell α) :
    (heap.obtain c).fresh = heap.fresh + 1 := rfl

theorem put_cell_self (heap : Heap α) (a : Nat) (c : Cell α) : (heap.put a c).cell a = some c := by
  simp [put]

theorem put_cell_of_ne (heap : Heap α) {a b : Nat} (c : Cell α) (h : b ≠ a) :
    (heap.put a c).cell b = heap.cell b := by
  simp [put, h]

theorem obtain_cell_fresh (heap : Heap α) (c : Cell α) :
    (heap.obtain c).cell heap.fresh = some c := heap.put_cell_self heap.fresh c

theorem obtain_cell_of_ne (heap : Heap α) {b : Nat} (c : Cell α) (h : b ≠ heap.fresh) :
    (heap.obtain c).cell b = heap.cell b := heap.put_cell_of_ne c h

theorem erase_cell (heap : Heap α) (a b : Nat) :
    (heap.erase a).cell b = if b = a then none else heap.cell b := by
  simp [erase, Function.update_apply]

end Heap

section

variable {α : Type} {cell cell' : Nat → Option (Cell α)}

/-- From a pointer on there are the cells of these items at these addresses, and then `NULL`. -/
def Chain (cell : Nat → Option (Cell α)) : Option Nat → List (α × Nat) → Prop
  | p, [] => p = none
  | p, (x, a) :: rest => p = some a ∧ ∃ next, cell a = some ⟨x, next⟩ ∧ Chain cell next rest

theorem Chain.cell_of_mem {p : Option Nat} {xs : List (α × Nat)} (h : Chain cell p xs)
    {q : α × Nat} (hq : q ∈ xs) : ∃ next, cell q.2 = some ⟨q.1, next⟩ := by
  induction xs generalizing p with
  | nil => exact absurd hq List.not_mem_nil
  | cons x xs ih =>
    obtain ⟨-, next, hcell, hrest⟩ := h
    rcases List.mem_cons.mp hq with rfl | hq
    · exact ⟨next, hcell⟩
    · exact ih hrest hq

/-- A write that leaves the links as they are. -/
theorem Chain.map {p : Option Nat} {xs : List (α × Nat)} (f : α → α) (h : Chain cell p xs)
    (hcell : ∀ q ∈ xs, ∀ next, cell q.2 = some ⟨q.1, next⟩ → cell' q.2 = some ⟨f q.1, next⟩) :
    Chain cell' p (xs.map (Prod.map f id)) := by
  induction xs generalizing p with
  | nil => exact h
  | cons x xs ih =>
    obtain ⟨rfl, next, hx, hrest⟩ := h
    obtain ⟨hfirst, hothers⟩ := List.forall_mem_cons.mp hcell
    exact ⟨rfl, next, hfirst next hx, ih hrest hothers⟩

/-- A write outside of the chain. -/
theorem Chain.congr {p : Option Nat} {xs : List (α × Nat)} (h : Chain cell p xs)
    (hcell : ∀ q ∈ xs, cell' q.2 = cell q.2) : Chain cell' p xs := by
  induction xs generalizing p with
  | nil => exact h
  | cons x xs ih =>
    obtain ⟨rfl, next, hx, hrest⟩ := h
    obtain ⟨hfirst, hothers⟩ := List.forall_mem_cons.mp hcell
    exact ⟨rfl, next, hfirst.trans hx, ih hrest hothers⟩

/-- A cell that is linked to the last one. -/
theorem Chain.concat {p : Option Nat} {xs : List (α × Nat)} {x y : α} {a b : Nat}
    (h : Chain cell p (xs ++ [(x, a)])) (hcell : ∀ q ∈ xs, cell' q.2 = cell q.2)
    (hlast : cell' a = some ⟨x, some b⟩) (hnew : cell' b = some ⟨y, none⟩) :
    Chain cell' p (xs ++ [(x, a)] ++ [(y, b)]) := by
  induction xs generalizing p with
  | nil =>
    obtain ⟨rfl, -⟩ := h
    exact ⟨rfl, some b, hlast, rfl, none, hnew, rfl⟩
  | cons z xs ih =>
    obtain ⟨rfl, next, hz, hrest⟩ := h
    obtain ⟨hfirst, hothers⟩ := List.forall_mem_cons.mp hcell
    exact ⟨rfl, next, hfirst.trans hz, ih hrest hothers⟩

end

namespace Heap

variable {α σ : Type} {heap : Heap α}

theorem search_found {wanted : α → Bool} {xs ys : List (α × Nat)} {x : α} {a fuel last : Nat}
    {p : Option Nat} (h : Chain heap.cell p (xs ++ (x, a) :: ys)) (hxs : ∀ q ∈ xs, ¬wanted q.1)
    (hx : wanted x) (hfuel : xs.length < fuel) :
    heap.search wanted fuel last p = some (.found a) := by
  induction xs generalizing p fuel last with
  | nil =>
    obtain ⟨fuel, rfl⟩ := Nat.exists_eq_add_of_lt hfuel
    obtain ⟨rfl, next, hcell, -⟩ := h
    simp [search, hcell, hx]
  | cons z xs ih =>
    obtain ⟨fuel, rfl⟩ := Nat.exists_eq_succ_of_ne_zero (Nat.ne_zero_of_lt hfuel)
    obtain ⟨rfl, next, hcell, hrest⟩ := h
    obtain ⟨hz, hxs⟩ := List.forall_mem_cons.mp hxs
    have hstep : heap.search wanted fuel z.2 next = some (.found a) :=
      ih hrest hxs (Nat.lt_of_succ_lt_succ hfuel)
    simpa [search, hcell, hz] using hstep

theorem search_missing {wanted : α → Bool} {xs : List (α × Nat)} {x : α} {a fuel last : Nat}
    {p : Option Nat} (h : Chain heap.cell p (xs ++ [(x, a)]))
    (hxs : ∀ q ∈ xs ++ [(x, a)], ¬wanted q.1) (hfuel : xs.length < fuel) :
    heap.search wanted fuel last p = some (.missing a) := by
  induction xs generalizing p fuel last with
  | nil =>
    obtain ⟨fuel, rfl⟩ := Nat.exists_eq_succ_of_ne_zero (Nat.ne_zero_of_lt hfuel)
    obtain ⟨rfl, next, hcell, rfl⟩ := h
    have hx : ¬wanted x := hxs (x, a) List.mem_cons_self
    simp [search, hcell, hx]
  | cons z xs ih =>
    obtain ⟨fuel, rfl⟩ := Nat.exists_eq_succ_of_ne_zero (Nat.ne_zero_of_lt hfuel)
    obtain ⟨rfl, next, hcell, hrest⟩ := h
    obtain ⟨hz, hxs⟩ := List.forall_mem_cons.mp hxs
    have hstep : heap.search wanted fuel z.2 next = some (.missing a) :=
      ih hrest hxs (Nat.lt_of_succ_lt_succ hfuel)
    simpa [search, hcell, hz] using hstep

theorem fold_chain (step : σ → α → σ) {xs : List (α × Nat)} {fuel : Nat} {s : σ} {p : Option Nat}
    (h : Chain heap.cell p xs) (hfuel : xs.length ≤ fuel) :
    heap.fold step fuel s p = some ((xs.map Prod.fst).foldl step s) := by
  induction xs generalizing p fuel s with
  | nil =>
    obtain rfl := h
    simp [fold]
  | cons z xs ih =>
    obtain ⟨fuel, rfl⟩ := Nat.exists_eq_succ_of_ne_zero (Nat.ne_zero_of_lt hfuel)
    obtain ⟨rfl, next, hcell, hrest⟩ := h
    have hstep := ih (s := step s z.1) hrest (Nat.le_of_succ_le_succ hfuel)
    simpa [fold, hcell] using hstep

/-- A release takes each cell of the chain once and leaves the others. -/
theorem release_chain {xs : List (α × Nat)} {fuel : Nat} {p : Option Nat}
    (h : Chain heap.cell p xs) (hn : (xs.map Prod.snd).Nodup) (hfuel : xs.length ≤ fuel) :
    ∃ rest, heap.release fuel p = some (rest, xs.map Prod.snd) ∧ rest.fresh = heap.fresh ∧
      ∀ b, rest.cell b = if b ∈ xs.map Prod.snd then none else heap.cell b := by
  induction xs generalizing p fuel heap with
  | nil =>
    obtain rfl := h
    exact ⟨heap, by simp [release], rfl, fun b ↦ (if_neg List.not_mem_nil).symm⟩
  | cons z xs ih =>
    obtain ⟨fuel, rfl⟩ := Nat.exists_eq_succ_of_ne_zero (Nat.ne_zero_of_lt hfuel)
    obtain ⟨rfl, next, hcell, hrest⟩ := h
    obtain ⟨hz, hn⟩ := List.nodup_cons.mp hn
    have herased : ∀ q ∈ xs, (heap.erase z.2).cell q.2 = heap.cell q.2 := by
      intro q hq
      have hne : q.2 ≠ z.2 := fun he ↦ hz (he ▸ List.mem_map_of_mem hq)
      rw [heap.erase_cell, if_neg hne]
    obtain ⟨rest, hrelease, hfresh, hothers⟩ :=
      ih (hrest.congr herased) hn (Nat.le_of_succ_le_succ hfuel)
    refine ⟨rest, by simp [release, hcell, hrelease], hfresh, fun b ↦ ?_⟩
    rw [hothers, heap.erase_cell, List.map_cons]
    by_cases hb : b = z.2
    · rw [hb, if_neg hz, if_pos rfl, if_pos List.mem_cons_self]
    · rw [if_neg hb]
      exact if_congr (List.mem_cons.trans (or_iff_right hb)).symm rfl rfl

end Heap

end LibGTop.Base
