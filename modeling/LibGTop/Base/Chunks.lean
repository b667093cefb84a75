import Mathlib.Data.List.TakeDrop
import Mathlib.Data.Nat.Basic

/-!
# Elements that are collected in blocks

A block of a fixed number of elements is emptied into an array that is grown for it, when it is full
and at the end. The size of the array in bytes and the number of its elements are kept in words
beside it. The array comes out as the list of the elements until its size in bytes is more than the
word for it can tell. -/

namespace LibGTop.Base

/-- What can happen when an array is grown and written to. -/
inductive Mishap
  | noMemory
  | outside
  deriving DecidableEq, Repr

section

variable {α : Type}

/-- `realloc` of an array of elements of `width` bytes; there are no `limit` bytes of memory. -/
def regrow (width limit : Nat) (cells : List (Option α)) (bytes : Nat) :
    Except Mishap (List (Option α)) :=
  if limit ≤ bytes then .error .noMemory
  else .ok (cells.take (bytes / width) ++ List.replicate (bytes / width - cells.length) none)

/-- `memcpy` into an array, from an index on. -/
def copyAt (cells : List (Option α)) (offset : Nat) (data : List α) :
    Except Mishap (List (Option α)) :=
  if offset + data.length ≤ cells.length then
    .ok (cells.take offset ++ data.map some ++ cells.drop (offset + data.length))
  else .error .outside

/-- An array that is grown by the elements that are copied behind it. -/
theorem copyAt_regrow {width limit : Nat} (hw : 0 < width) {cells data : List α}
    (h : (cells.length + data.length) * width < limit) :
    (regrow width limit (cells.map some) ((cells.length + data.length) * width) >>=
        fun grown ↦ copyAt grown cells.length data) = .ok ((cells ++ data).map some) := by
  have hdiv : (cells.length + data.length) * width / width = cells.length + data.length :=
    Nat.mul_div_cancel _ hw
  have htake : (cells.map some).take (cells.length + data.length) = cells.map some :=
    List.take_of_length_le (by rw [List.length_map]; omega)
  rw [regrow, if_neg (Nat.not_le_of_lt h), hdiv, htake, List.length_map, Nat.add_sub_cancel_left]
  change copyAt (cells.map some ++ List.replicate data.length none) cells.length data = _
  have hlen : (cells.map some ++ List.replicate data.length (none : Option α)).length =
      cells.length + data.length := by
    rw [List.length_append, List.length_map, List.length_replicate]
  rw [copyAt, if_pos (Nat.le_of_eq hlen.symm), List.drop_of_length_le (Nat.le_of_eq hlen),
    List.take_left' (List.length_map _), List.append_nil, List.map_append]

/-- Too small, the array does not take the elements; too large, there is no array. -/
theorem copyAt_regrow_error {width limit bytes offset : Nat} {cells : List (Option α)}
    {data : List α} (h : limit ≤ bytes ∨ bytes / width < offset + data.length)
    (hc : cells.length < offset + data.length) :
    ∃ mishap, (regrow width limit cells bytes >>= fun grown ↦ copyAt grown offset data) =
      .error mishap := by
  rw [regrow]
  split
  · exact ⟨.noMemory, rfl⟩
  · next hl =>
    have hlt := h.resolve_left hl
    refine ⟨.outside, ?_⟩
    change copyAt _ offset data = _
    rw [copyAt, if_neg]
    rw [List.length_append, List.length_take, List.length_replicate]
    omega

end

/-- The number of elements of a block, the size of an element and how a word gives a size of memory.
Up to a bound, which is a number of whole blocks, it does so truly. -/
structure Layout (w : Nat) where
  blockCount : Nat
  width : Nat
  limit : Nat
  toSize : BitVec w → Nat
  bound : Nat
  blockCount_pos : 0 < blockCount
  width_pos : 0 < width
  bound_pos : 0 < bound
  dvd_bound : blockCount * width ∣ bound
  bound_le : bound ≤ limit
  toSize_of_lt : ∀ size < bound, toSize (BitVec.ofNat w size) = size
  toSize_bound : limit ≤ toSize (BitVec.ofNat w bound) ∨ toSize (BitVec.ofNat w bound) < bound

/-- The block, the array, its size in bytes, the number of its elements and that of all elements. -/
structure Collecting (w : Nat) (α : Type) where
  block : List α := []
  chain : List (Option α) := []
  size : BitVec w := 0
  offset : BitVec w := 0
  total : BitVec w := 0

namespace Collecting

section

variable {w : Nat} {α : Type} (layout : Layout w)

/-- The array grown by a number of elements, which are copied from the block. -/
def extend (s : Collecting w α) (count : Nat) : Except Mishap (List (Option α)) :=
  regrow layout.width layout.limit s.chain
      (layout.toSize (s.size + BitVec.ofNat w (count * layout.width))) >>= fun grown ↦
    copyAt grown (layout.toSize s.offset) (s.block.take count)

/-- A full block is emptied. -/
def makeRoom (s : Collecting w α) : Except Mishap (Collecting w α) :=
  if layout.blockCount ≤ s.block.length then
    (s.extend layout layout.blockCount).map fun chain ↦
      { s with
        block := []
        chain := chain
        size := s.size + BitVec.ofNat w (layout.blockCount * layout.width)
        offset := s.offset + BitVec.ofNat w layout.blockCount }
  else .ok s

/-- An element is written to the block. -/
def store (s : Collecting w α) (x : α) : Except Mishap (Collecting w α) :=
  if s.block.length < layout.blockCount then
    .ok { s with block := s.block ++ [x], total := s.total + 1 }
  else .error .outside

/-- An element is added. -/
def put (s : Collecting w α) (x : α) : Except Mishap (Collecting w α) :=
  s.makeRoom layout >>= fun s ↦ s.store layout x

/-- The elements are added one after the other. -/
def putAll (s : Collecting w α) : List α → Except Mishap (Collecting w α)
  | [] => .ok s
  | x :: xs => s.put layout x >>= fun s ↦ s.putAll xs

/-- The array with what is left in the block, and the number of elements; absent when there are
none. -/
def finish (s : Collecting w α) : Except Mishap (Option (List (Option α) × BitVec w)) :=
  if s.block.length = 0 then .ok none
  else (s.extend layout s.block.length).map fun chain ↦ some (chain, s.total)

/-- The whole run. -/
def collect (xs : List α) : Except Mishap (Option (List (Option α) × BitVec w)) :=
  ({} : Collecting w α).putAll layout xs >>= fun s ↦ s.finish layout

/-- The array has the elements that are not in the block, a number of whole blocks, and the words
beside it tell its size and theirs. -/
structure Holds (s : Collecting w α) (flushed : List α) : Prop where
  chain_eq : s.chain = flushed.map some
  size_eq : s.size = BitVec.ofNat w (flushed.length * layout.width)
  offset_eq : s.offset = BitVec.ofNat w flushed.length
  total_eq : s.total = BitVec.ofNat w (flushed.length + s.block.length)
  dvd : layout.blockCount ∣ flushed.length
  block_le : s.block.length ≤ layout.blockCount
  block_ne : flushed ≠ [] → s.block ≠ []

end

section

variable {w : Nat} {α : Type} {layout : Layout w} {s : Collecting w α} {flushed : List α}

theorem holds_empty : ({} : Collecting w α).Holds layout [] where
  chain_eq := rfl
  size_eq := by rw [List.length_nil, Nat.zero_mul]; rfl
  offset_eq := rfl
  total_eq := rfl
  dvd := Nat.dvd_zero _
  block_le := Nat.zero_le _
  block_ne h := absurd rfl h

/-- The word of the grown array. -/
theorem Holds.size_add (h : s.Holds layout flushed) :
    s.size + BitVec.ofNat w (s.block.length * layout.width) =
      BitVec.ofNat w ((flushed.length + s.block.length) * layout.width) := by
  rw [h.size_eq, Nat.add_mul, BitVec.ofNat_add]

theorem Holds.toSize_offset (h : s.Holds layout flushed)
    (hb : flushed.length * layout.width < layout.bound) :
    layout.toSize s.offset = flushed.length := by
  have hle : flushed.length ≤ flushed.length * layout.width :=
    Nat.le_mul_of_pos_right _ layout.width_pos
  rw [h.offset_eq, layout.toSize_of_lt _ (Nat.lt_of_le_of_lt hle hb)]

/-- Below the bound the block is copied behind the array. -/
theorem Holds.extend_eq (h : s.Holds layout flushed)
    (hb : (flushed.length + s.block.length) * layout.width < layout.bound) :
    s.extend layout s.block.length = .ok ((flushed ++ s.block).map some) := by
  have hle : flushed.length * layout.width ≤ (flushed.length + s.block.length) * layout.width :=
    Nat.mul_le_mul_right _ (Nat.le_add_right _ _)
  rw [extend, h.size_add, layout.toSize_of_lt _ hb, h.toSize_offset (Nat.lt_of_le_of_lt hle hb),
    List.take_length, h.chain_eq]
  exact copyAt_regrow layout.width_pos (Nat.lt_of_lt_of_le hb layout.bound_le)

/-- At the bound it is not. -/
theorem Holds.extend_error (h : s.Holds layout flushed) (hn : s.block ≠ [])
    (hb : (flushed.length + s.block.length) * layout.width = layout.bound) :
    ∃ mishap, s.extend layout s.block.length = .error mishap := by
  have hpos : 0 < s.block.length := List.length_pos_iff.mpr hn
  have hlt : flushed.length * layout.width < layout.bound :=
    hb ▸ Nat.mul_lt_mul_of_pos_right (by omega) layout.width_pos
  rw [extend, h.size_add, hb, h.toSize_offset hlt, List.take_length, h.chain_eq]
  refine copyAt_regrow_error (layout.toSize_bound.imp_right fun hs ↦ ?_) ?_
  · exact Nat.div_lt_of_lt_mul (by rw [Nat.mul_comm, hb]; exact hs)
  · rw [List.length_map]
    omega

/-- Behind a block that is not full an element is written. -/
theorem put_of_lt (h : s.block.length < layout.blockCount) (x : α) :
    s.put layout x = .ok { s with block := s.block ++ [x], total := s.total + 1 } := by
  rw [Collecting.put, makeRoom, if_neg (Nat.not_le_of_lt h)]
  exact if_pos h

/-- Behind a full block it is, when that is in the array. -/
theorem put_of_full (hf : s.block.length = layout.blockCount) {chain : List (Option α)}
    (hc : s.extend layout s.block.length = .ok chain) (x : α) :
    s.put layout x = .ok
      { block := [x]
        chain := chain
        size := s.size + BitVec.ofNat w (s.block.length * layout.width)
        offset := s.offset + BitVec.ofNat w s.block.length
        total := s.total + 1 } := by
  rw [hf] at hc ⊢
  rw [Collecting.put, makeRoom, if_pos (Nat.le_of_eq hf.symm), hc]
  exact if_pos layout.blockCount_pos

/-- Below the bound an element is added behind the others. -/
theorem Holds.put (h : s.Holds layout flushed)
    (hb : (flushed.length + s.block.length) * layout.width < layout.bound) (x : α) :
    ∃ s' flushed', s.put layout x = .ok s' ∧ s'.Holds layout flushed' ∧
      flushed' ++ s'.block = flushed ++ s.block ++ [x] := by
  have htotal : s.total + 1 = BitVec.ofNat w (flushed.length + s.block.length + 1) := by
    rw [h.total_eq]
    exact (BitVec.ofNat_add _ 1).symm
  by_cases hlt : s.block.length < layout.blockCount
  · refine ⟨_, flushed, put_of_lt hlt x, ?_, (List.append_assoc _ _ _).symm⟩
    refine ⟨h.chain_eq, h.size_eq, h.offset_eq, ?_, h.dvd, ?_, fun _ ↦ by simp⟩
    · rw [List.length_append, ← Nat.add_assoc]
      exact htotal
    · rw [List.length_append]
      exact hlt
  · have hfull : s.block.length = layout.blockCount :=
      Nat.le_antisymm h.block_le (Nat.le_of_not_lt hlt)
    refine ⟨_, flushed ++ s.block, put_of_full hfull (h.extend_eq hb) x, ?_, rfl⟩
    refine ⟨rfl, ?_, ?_, ?_, ?_, layout.blockCount_pos, fun _ ↦ List.cons_ne_nil _ _⟩
    · rw [List.length_append, ← h.size_add]
    · rw [List.length_append, BitVec.ofNat_add, h.offset_eq]
    · rw [List.length_append]
      exact htotal
    · rw [List.length_append, hfull]
      exact Nat.dvd_add h.dvd (Nat.dvd_refl _)

/-- With a full block at the bound no element is added. -/
theorem Holds.put_error (h : s.Holds layout flushed) (hf : s.block.length = layout.blockCount)
    (hb : (flushed.length + s.block.length) * layout.width = layout.bound) (x : α) :
    ∃ mishap, s.put layout x = .error mishap := by
  have hpos := layout.blockCount_pos
  have hn : s.block ≠ [] := List.length_pos_iff.mp (hf ▸ hpos)
  obtain ⟨mishap, he⟩ := h.extend_error hn hb
  refine ⟨mishap, ?_⟩
  rw [Collecting.put, makeRoom, if_pos (Nat.le_of_eq hf.symm), ← hf, he]
  rfl

/-- Up to the bound all elements are added. -/
theorem Holds.putAll (h : s.Holds layout flushed) (xs : List α)
    (hb : (flushed.length + s.block.length + xs.length) * layout.width ≤ layout.bound) :
    ∃ s' flushed', s.putAll layout xs = .ok s' ∧ s'.Holds layout flushed' ∧
      flushed' ++ s'.block = flushed ++ s.block ++ xs := by
  induction xs generalizing s flushed with
  | nil => exact ⟨s, flushed, rfl, h, (List.append_nil _).symm⟩
  | cons x xs ih =>
    rw [List.length_cons] at hb
    have hlt : (flushed.length + s.block.length) * layout.width < layout.bound :=
      Nat.lt_of_lt_of_le (Nat.mul_lt_mul_of_pos_right (by omega) layout.width_pos) hb
    obtain ⟨s₁, flushed₁, hput, h₁, happ⟩ := h.put hlt x
    have hlen : flushed₁.length + s₁.block.length = flushed.length + s.block.length + 1 := by
      have := congrArg List.length happ
      simpa [Nat.add_assoc] using this
    obtain ⟨s', flushed', hall, h', happ'⟩ := ih h₁ (by rw [hlen, Nat.add_right_comm]; exact hb)
    refine ⟨s', flushed', ?_, h', ?_⟩
    · rw [Collecting.putAll, hput]
      exact hall
    · rw [happ', happ, List.append_assoc _ [x]]
      rfl

theorem putAll_empty (xs : List α) (hb : xs.length * layout.width ≤ layout.bound) :
    ∃ s flushed, ({} : Collecting w α).putAll layout xs = .ok s ∧ s.Holds layout flushed ∧
      flushed ++ s.block = xs := by
  refine holds_empty.putAll xs ?_
  change (0 + 0 + xs.length) * layout.width ≤ layout.bound
  rwa [Nat.zero_add]

/-- What the run comes to for all the elements. -/
theorem collect_eq {xs : List α} (hb : xs.length * layout.width < layout.bound) :
    collect layout xs =
      .ok (if xs = [] then none else some (xs.map some, BitVec.ofNat w xs.length)) := by
  obtain ⟨s, flushed, hall, h, rfl⟩ := putAll_empty xs (Nat.le_of_lt hb)
  rw [List.length_append] at hb
  rw [collect, hall]
  change s.finish layout = _
  rw [finish]
  split
  · next h0 =>
    have hblock : s.block = [] := List.length_eq_zero_iff.mp h0
    have hflushed : flushed = [] := by
      by_contra hne
      exact h.block_ne hne hblock
    rw [if_pos (by rw [hflushed, hblock]; rfl)]
  · next h0 =>
    have hne : flushed ++ s.block ≠ [] := fun he ↦
      h0 (List.length_eq_zero_iff.mpr (List.append_eq_nil_iff.mp he).2)
    rw [h.extend_eq hb, if_neg hne, List.length_append, h.total_eq]
    rfl

theorem putAll_append (s : Collecting w α) (xs ys : List α) :
    s.putAll layout (xs ++ ys) = s.putAll layout xs >>= fun s ↦ s.putAll layout ys := by
  induction xs generalizing s with
  | nil => rfl
  | cons x xs ih =>
    rw [List.cons_append, Collecting.putAll, Collecting.putAll]
    cases s.put layout x with
    | error mishap => rfl
    | ok s₁ => exact ih s₁

/-- With elements of whole blocks, the block is full. -/
theorem Holds.block_full (h : s.Holds layout flushed)
    (hd : layout.blockCount ∣ flushed.length + s.block.length)
    (hpos : 0 < flushed.length + s.block.length) : s.block.length = layout.blockCount := by
  have hne : s.block ≠ [] := by
    intro he
    have hf : flushed ≠ [] := by
      rintro rfl
      rw [he] at hpos
      exact absurd hpos (Nat.lt_irrefl 0)
    exact h.block_ne hf he
  have hle : layout.blockCount ≤ s.block.length :=
    Nat.le_of_dvd (List.length_pos_iff.mpr hne) ((Nat.dvd_add_right h.dvd).mp hd)
  exact Nat.le_antisymm h.block_le hle

/-- With a full block at the bound, the rest of the run fails. -/
theorem Holds.rest_error (h : s.Holds layout flushed) (hf : s.block.length = layout.blockCount)
    (hb : (flushed.length + s.block.length) * layout.width = layout.bound) (rest : List α) :
    ∃ mishap, (s.putAll layout rest >>= fun s ↦ s.finish layout) = .error mishap := by
  have hpos := layout.blockCount_pos
  cases rest with
  | nil =>
    obtain ⟨mishap, he⟩ := h.extend_error (List.length_pos_iff.mp (hf ▸ hpos)) hb
    refine ⟨mishap, ?_⟩
    change s.finish layout = _
    rw [finish, if_neg (by omega), he]
    rfl
  | cons x rest =>
    obtain ⟨mishap, he⟩ := h.put_error hf hb x
    refine ⟨mishap, ?_⟩
    rw [Collecting.putAll, he]
    rfl

/-- From the bound on the run fails: the elements up to it are whole blocks. -/
theorem collect_error {xs : List α} (hb : layout.bound ≤ xs.length * layout.width) :
    ∃ mishap, collect layout xs = .error mishap := by
  obtain ⟨blocks, hblocks⟩ := layout.dvd_bound
  have hcount : layout.bound = blocks * layout.blockCount * layout.width := by
    rw [hblocks, Nat.mul_comm, Nat.mul_assoc]
  have hle : blocks * layout.blockCount ≤ xs.length :=
    Nat.le_of_mul_le_mul_right (hcount ▸ hb) layout.width_pos
  have hlen : (xs.take (blocks * layout.blockCount)).length = blocks * layout.blockCount :=
    List.length_take_of_le hle
  obtain ⟨s, flushed, hall, h, happ⟩ := putAll_empty (xs.take (blocks * layout.blockCount))
    (by rw [hlen, hcount])
  have hsum : flushed.length + s.block.length = blocks * layout.blockCount := by
    rw [← List.length_append, happ]
    exact hlen
  have hbound : (flushed.length + s.block.length) * layout.width = layout.bound := by
    rw [hsum, hcount]
  have hpos : 0 < flushed.length + s.block.length :=
    Nat.pos_of_mul_pos_right (hbound ▸ layout.bound_pos)
  have hfull := h.block_full (hsum ▸ Nat.dvd_mul_left _ _) hpos
  rw [collect, ← List.take_append_drop (blocks * layout.blockCount) xs, putAll_append, hall]
  exact h.rest_error hfull hbound _

end

end Collecting

end LibGTop.Base
