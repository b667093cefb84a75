import Mathlib.Data.List.Basic

/-!
# Binary search

`bsearch` over a table, with any rule for the place to look at in a window. What it finds is equal
to the key; it finds what is equal to the key where all before it is smaller and all behind it
larger. Of two neighbours in the wrong order it finds the one that it looks at first.
-/

namespace LibGTop.Base

/-- `strcmp`, on the bytes of two strings. -/
def strcmp : List UInt8 → List UInt8 → Ordering
  | [], [] => .eq
  | [], _ :: _ => .lt
  | _ :: _, [] => .gt
  | a :: as, b :: bs => if a < b then .lt else if b < a then .gt else strcmp as bs

theorem strcmp_eq_iff (a b : List UInt8) : strcmp a b = .eq ↔ a = b := by
  induction a generalizing b with
  | nil => cases b <;> simp [strcmp]
  | cons x xs ih =>
    cases b with
    | nil => simp [strcmp]
    | cons y ys =>
      rw [strcmp, List.cons.injEq, ← ih]
      by_cases hlt : x < y
      · have hne : x ≠ y := UInt8.ne_of_lt hlt
        simp [hlt, hne]
      · by_cases hgt : y < x
        · have hne : x ≠ y := (UInt8.ne_of_lt hgt).symm
          simp [hlt, hgt, hne]
        · have he : x = y := UInt8.le_antisymm (UInt8.not_lt.mp hgt) (UInt8.not_lt.mp hlt)
          simp [he]

theorem strcmp_self (a : List UInt8) : strcmp a a = .eq := (strcmp_eq_iff a a).mpr rfl

/-- The comparison the other way round. -/
theorem strcmp_swap (a b : List UInt8) : strcmp b a = (strcmp a b).swap := by
  induction a generalizing b with
  | nil => cases b <;> rfl
  | cons x xs ih =>
    cases b with
    | nil => rfl
    | cons y ys =>
      rw [strcmp, strcmp]
      by_cases hlt : x < y
      · rw [if_neg (UInt8.lt_asymm hlt), if_pos hlt, if_pos hlt]
        rfl
      · by_cases hgt : y < x
        · rw [if_pos hgt, if_neg hlt, if_pos hgt]
          rfl
        · rw [if_neg hgt, if_neg hlt, if_neg hlt, if_neg hgt, ih]

theorem strcmp_gt {a b : List UInt8} (h : strcmp a b = .lt) : strcmp b a = .gt := by
  rw [strcmp_swap, h]
  rfl

/-- The place that a search looks at in a window. -/
structure Pivot where
  mid : Nat → Nat → Nat
  lower : ∀ {lo hi}, lo < hi → lo ≤ mid lo hi
  upper : ∀ {lo hi}, lo < hi → mid lo hi < hi

/-- The middle of a window. -/
def middle : Pivot where
  mid lo hi := lo + (hi - lo) / 2
  lower _ := Nat.le_add_right _ _
  upper h := by omega

section

variable {α : Type} (pivot : Pivot) (cmp : α → Ordering) (table : List α)

/-- The search in a window; the comparison is that of the key with an element. -/
def searchWindow : Nat → Nat → Nat → Option α
  | 0, _, _ => none
  | fuel + 1, lo, hi =>
    if lo < hi then
      match table[pivot.mid lo hi]? with
      | none => none
      | some a =>
        match cmp a with
        | .eq => some a
        | .lt => searchWindow fuel lo (pivot.mid lo hi)
        | .gt => searchWindow fuel (pivot.mid lo hi + 1) hi
    else none

/-- `bsearch`. -/
def bsearch : Option α := searchWindow pivot cmp table table.length 0 table.length

/-- A search that comes to two neighbouring places looks at the second of them first. -/
def secondFirst (k : Nat) : Nat → Nat → Nat → Bool
  | 0, _, _ => false
  | fuel + 1, lo, hi =>
    if pivot.mid lo hi < k then secondFirst k fuel (pivot.mid lo hi + 1) hi
    else if k + 1 < pivot.mid lo hi then secondFirst k fuel lo (pivot.mid lo hi)
    else pivot.mid lo hi = k + 1

end

section

variable {α : Type} {pivot : Pivot} {cmp : α → Ordering} {table : List α} {fuel lo hi k : Nat}

/-- What is found is in the window, and equal to the key. -/
theorem searchWindow_sound {a : α} (h : searchWindow pivot cmp table fuel lo hi = some a) :
    ∃ i, lo ≤ i ∧ i < hi ∧ table[i]? = some a ∧ cmp a = .eq := by
  induction fuel generalizing lo hi with
  | zero => exact absurd h nofun
  | succ fuel ih =>
    rw [searchWindow] at h
    split at h
    · next hlt =>
      have hlow := pivot.lower hlt
      have hhigh := pivot.upper hlt
      split at h
      · exact absurd h nofun
      · next b hb =>
        split at h
        · next he =>
          obtain rfl := Option.some.inj h
          exact ⟨_, hlow, hhigh, hb, he⟩
        · obtain ⟨i, hl, hh, hi, he⟩ := ih h
          exact ⟨i, hl, Nat.lt_trans hh hhigh, hi, he⟩
        · obtain ⟨i, hl, hh, hi, he⟩ := ih h
          exact ⟨i, Nat.le_trans hlow (Nat.le_of_succ_le hl), hh, hi, he⟩
    · exact absurd h nofun

/-- Nothing is found in a window without what is equal to the key. -/
theorem searchWindow_none (h : ∀ i b, lo ≤ i → i < hi → table[i]? = some b → cmp b ≠ .eq) :
    (searchWindow pivot cmp table fuel lo hi).isSome = false := by
  cases hs : searchWindow pivot cmp table fuel lo hi with
  | none => rfl
  | some a =>
    obtain ⟨i, hl, hh, hi, he⟩ := searchWindow_sound hs
    exact absurd he (h i a hl hh hi)

/-- A place in a table is before one of its elements, at it or behind it. -/
theorem getElem?_split {before after : List α} {a b : α} {i : Nat}
    (h : (before ++ a :: after)[i]? = some b) :
    (i < before.length ∧ b ∈ before) ∨ (i = before.length ∧ b = a) ∨
      (before.length < i ∧ b ∈ after) := by
  rcases Nat.lt_or_ge i before.length with hi | hi
  · rw [List.getElem?_append_left hi] at h
    exact .inl ⟨hi, List.mem_of_getElem? h⟩
  · rw [List.getElem?_append_right hi] at h
    cases hd : i - before.length with
    | zero =>
      rw [hd, List.getElem?_cons_zero] at h
      exact .inr (.inl ⟨by omega, (Option.some.inj h).symm⟩)
    | succ d =>
      rw [hd, List.getElem?_cons_succ] at h
      exact .inr (.inr ⟨by omega, List.mem_of_getElem? h⟩)

/-- What is equal to the key is found, if all before it is smaller and all behind it larger. -/
theorem searchWindow_complete {before after : List α} {a : α} (hf : hi - lo ≤ fuel)
    (hl : lo ≤ before.length) (hh : before.length < hi) (hn : hi ≤ (before ++ a :: after).length)
    (he : cmp a = .eq) (hb : ∀ b ∈ before, cmp b = .gt) (ha : ∀ b ∈ after, cmp b = .lt) :
    searchWindow pivot cmp (before ++ a :: after) fuel lo hi = some a := by
  induction fuel generalizing lo hi with
  | zero => omega
  | succ fuel ih =>
    have hlt : lo < hi := Nat.lt_of_le_of_lt hl hh
    have hlow := pivot.lower hlt
    have hhigh := pivot.upper hlt
    have hm := List.getElem?_eq_getElem (Nat.lt_of_lt_of_le hhigh hn)
    rw [searchWindow, if_pos hlt, hm]
    dsimp only
    rcases getElem?_split hm with ⟨hi, hmem⟩ | ⟨hi, hmem⟩ | ⟨hi, hmem⟩
    · rw [hb _ hmem]
      exact ih (by omega) hi hh hn
    · rw [hmem, he]
    · rw [ha _ hmem]
      exact ih (by omega) hl hi (by omega)

/-- A place in a table with two elements in the middle. -/
theorem getElem?_split_second {low high : List α} {x y b : α} {i : Nat}
    (h : (low ++ x :: y :: high)[i]? = some b) :
    (i < low.length + 1 ∧ b ∈ low ++ [x]) ∨ (i = low.length + 1 ∧ b = y) ∨
      (low.length + 1 < i ∧ b ∈ high) := by
  have hs : low ++ x :: y :: high = (low ++ [x]) ++ y :: high := by
    rw [List.append_assoc, List.singleton_append]
  have hsplit := getElem?_split (hs ▸ h)
  rwa [List.length_append, List.length_singleton] at hsplit

/-- In a window at the front nothing is found if nothing there is equal to the key. -/
theorem searchWindow_front {front rest : List α} (hh : hi ≤ front.length)
    (hb : ∀ b ∈ front, cmp b ≠ .eq) :
    ¬(searchWindow pivot cmp (front ++ rest) fuel lo hi).isSome := by
  refine Bool.eq_false_iff.mp (searchWindow_none fun i b _ hi hib ↦ hb b ?_)
  rw [List.getElem?_append_left (Nat.lt_of_lt_of_le hi hh)] at hib
  exact List.mem_of_getElem? hib

/-- Nor in one at the end. -/
theorem searchWindow_back {rest back : List α} (hl : rest.length ≤ lo)
    (hb : ∀ b ∈ back, cmp b ≠ .eq) :
    ¬(searchWindow pivot cmp (rest ++ back) fuel lo hi).isSome := by
  refine Bool.eq_false_iff.mp (searchWindow_none fun i b hi _ hib ↦ hb b ?_)
  rw [List.getElem?_append_right (Nat.le_trans hl hi)] at hib
  exact List.mem_of_getElem? hib

theorem ne_eq_of_gt {o : Ordering} (h : o = .gt) : o ≠ .eq := h ▸ Ordering.noConfusion

theorem ne_eq_of_lt {o : Ordering} (h : o = .lt) : o ≠ .eq := h ▸ Ordering.noConfusion

/-- Of two neighbours in the wrong order the one that is equal to the key is found if and only if it
is looked at first. -/
theorem searchWindow_swapped {low high : List α} {x y : α} {second : Bool}
    (hf : hi - lo ≤ fuel) (hl : lo ≤ low.length) (hh : low.length + 1 < hi)
    (hn : hi ≤ (low ++ x :: y :: high).length)
    (hb : ∀ b ∈ low, cmp b = .gt) (ha : ∀ b ∈ high, cmp b = .lt)
    (hx : cmp x = if second then .lt else .eq) (hy : cmp y = if second then .eq else .gt) :
    (searchWindow pivot cmp (low ++ x :: y :: high) fuel lo hi).isSome ↔
      secondFirst pivot low.length fuel lo hi = second := by
  induction fuel generalizing lo hi with
  | zero => omega
  | succ fuel ih =>
    have hlt : lo < hi := by omega
    have hlo := pivot.lower hlt
    have hhi := pivot.upper hlt
    have hm := List.getElem?_eq_getElem (Nat.lt_of_lt_of_le hhi hn)
    rw [searchWindow, if_pos hlt, hm, secondFirst]
    dsimp only
    rcases getElem?_split hm with ⟨hat, hmem⟩ | ⟨hat, hmem⟩ | ⟨hat, hmem⟩
    · -- an element before both: the window behind it has both
      rw [hb _ hmem, if_pos hat]
      exact ih (by omega) hat hh hn
    · -- the first of them is looked at; the second one is not in the window before it
      have hfirst : decide (pivot.mid lo hi = low.length + 1) = false := by
        rw [decide_eq_false_iff_not]
        omega
      rw [if_neg (by omega), if_neg (by omega), hfirst, hmem, hx]
      cases second with
      | false => exact iff_of_true rfl rfl
      | true =>
        refine iff_of_false (searchWindow_front (Nat.le_of_eq hat) ?_) Bool.false_ne_true
        exact fun b hbm ↦ ne_eq_of_gt (hb b hbm)
    · rw [if_neg (by omega)]
      rcases getElem?_split_second hm with ⟨hat', -⟩ | ⟨hat', hmem'⟩ | ⟨hat', hmem'⟩
      · omega
      · -- the second of them is looked at; the first one is not in the window behind it
        rw [if_neg (by omega), decide_eq_true hat', hmem', hy]
        cases second with
        | false =>
          have hs : low ++ x :: y :: high = (low ++ [x, y]) ++ high := by
            rw [List.append_assoc, List.cons_append, List.singleton_append]
          have hlen : (low ++ [x, y]).length ≤ pivot.mid lo hi + 1 := by
            rw [List.length_append, hat']
            exact Nat.le_refl _
          rw [hs]
          refine iff_of_false (searchWindow_back hlen ?_) Bool.noConfusion
          exact fun b hbm ↦ ne_eq_of_lt (ha b hbm)
        | true => exact iff_of_true rfl rfl
      · -- an element behind both: the window before it has both
        rw [if_pos hat', ha _ hmem']
        exact ih (by omega) hl hat' (by omega)

end

/-- The strings of a table are in the order of `strcmp`, and no two of them are equal. -/
def Increasing (table : List (List UInt8)) : Prop := table.Pairwise fun a b ↦ strcmp a b = .lt

instance decidableIncreasing (table : List (List UInt8)) : Decidable (Increasing table) :=
  inferInstanceAs (Decidable (table.Pairwise _))

/-- Of two neighbours in the wrong order, the one that a search misses. -/
def missed (pivot : Pivot) (low : List (List UInt8)) (x y : List UInt8)
    (high : List (List UInt8)) : List UInt8 :=
  let size := (low ++ x :: y :: high).length
  if secondFirst pivot low.length size 0 size then x else y

section

variable {pivot : Pivot} {table low high : List (List UInt8)} {key x y : List UInt8}

/-- What is found is in the table. -/
theorem mem_of_bsearch (h : (bsearch pivot (strcmp key) table).isSome) : key ∈ table := by
  obtain ⟨a, ha⟩ := Option.isSome_iff_exists.mp h
  obtain ⟨i, -, -, hi, he⟩ := searchWindow_sound ha
  rw [(strcmp_eq_iff key a).mp he]
  exact List.mem_of_getElem? hi

/-- A string with smaller ones before it and larger ones behind it is found. -/
theorem bsearch_found (hb : ∀ b ∈ low, strcmp b key = .lt) (ha : ∀ b ∈ high, strcmp key b = .lt) :
    (bsearch pivot (strcmp key) (low ++ key :: high)).isSome := by
  have hl : low.length < (low ++ key :: high).length := by
    rw [List.length_append, List.length_cons]
    omega
  have hs : bsearch pivot (strcmp key) (low ++ key :: high) = some key :=
    searchWindow_complete (Nat.sub_le _ 0) (Nat.zero_le _) hl (Nat.le_refl _) (strcmp_self key)
      (fun b hm ↦ strcmp_gt (hb b hm)) ha
  rw [hs]
  rfl

/-- In a sorted table exactly its strings are found. -/
theorem bsearch_isSome_iff (hs : Increasing table) :
    (bsearch pivot (strcmp key) table).isSome ↔ key ∈ table := by
  refine ⟨mem_of_bsearch, fun hm ↦ ?_⟩
  obtain ⟨before, after, rfl⟩ := List.append_of_mem hm
  obtain ⟨-, hc, hbefore⟩ := List.pairwise_append.mp hs
  exact bsearch_found (fun b hb ↦ hbefore b hb key List.mem_cons_self) (List.pairwise_cons.mp hc).1

theorem ne_of_strcmp {a b : List UInt8} (h : strcmp a b = .lt) : a ≠ b := by
  rintro rfl
  rw [strcmp_self] at h
  exact absurd h nofun

/-- One of the two neighbours is found if and only if it is the one that is not missed. -/
theorem bsearch_neighbour {second : Bool} (hs : Increasing (low ++ y :: x :: high))
    (hk : key = if second then y else x) :
    (bsearch pivot (strcmp key) (low ++ x :: y :: high)).isSome ↔
      key ≠ missed pivot low x y high := by
  obtain ⟨-, hyx, hlow⟩ := List.pairwise_append.mp hs
  obtain ⟨hy, hxh⟩ := List.pairwise_cons.mp hyx
  have hlt : strcmp y x = .lt := hy x List.mem_cons_self
  have hl : low.length + 1 < (low ++ x :: y :: high).length := by
    rw [List.length_append, List.length_cons, List.length_cons]
    omega
  have hb : ∀ b ∈ low, strcmp key b = .gt := by
    intro b hm
    refine strcmp_gt (hlow b hm key ?_)
    rw [hk]
    cases second
    · exact List.mem_cons_of_mem y List.mem_cons_self
    · exact List.mem_cons_self
  have ha : ∀ b ∈ high, strcmp key b = .lt := by
    intro b hm
    rw [hk]
    cases second
    · exact (List.pairwise_cons.mp hxh).1 b hm
    · exact hy b (List.mem_cons_of_mem x hm)
  have hx : strcmp key x = if second then .lt else .eq := by
    rw [hk]
    cases second
    · exact strcmp_self x
    · exact hlt
  have hy : strcmp key y = if second then .eq else .gt := by
    rw [hk]
    cases second
    · exact strcmp_gt hlt
    · exact strcmp_self y
  refine (searchWindow_swapped (Nat.sub_le _ 0) (Nat.zero_le _) hl (Nat.le_refl _) hb ha hx
    hy).trans ?_
  have hne : y ≠ x := ne_of_strcmp hlt
  rw [hk, missed]
  cases second with
  | false => cases secondFirst pivot low.length _ 0 _ <;> simp [hne.symm]
  | true => cases secondFirst pivot low.length _ 0 _ <;> simp [hne]

/-- Each other string is found. -/
theorem bsearch_other (hs : Increasing (low ++ y :: x :: high)) (hk : key ∈ low ∨ key ∈ high) :
    (bsearch pivot (strcmp key) (low ++ x :: y :: high)).isSome ∧ key ≠ x ∧ key ≠ y := by
  obtain ⟨hl, hyx, hlow⟩ := List.pairwise_append.mp hs
  obtain ⟨hy, hxh⟩ := List.pairwise_cons.mp hyx
  obtain ⟨hx, hh⟩ := List.pairwise_cons.mp hxh
  rcases hk with hk | hk
  · have hkx := hlow key hk x (List.mem_cons_of_mem y List.mem_cons_self)
    have hky := hlow key hk y List.mem_cons_self
    refine ⟨?_, ne_of_strcmp hkx, ne_of_strcmp hky⟩
    obtain ⟨before, after, rfl⟩ := List.append_of_mem hk
    obtain ⟨-, hc, hbefore⟩ := List.pairwise_append.mp hl
    rw [List.append_assoc, List.cons_append]
    refine bsearch_found (fun b hb ↦ hbefore b hb key List.mem_cons_self) fun b hb ↦ ?_
    rcases List.mem_append.mp hb with hb | hb
    · exact (List.pairwise_cons.mp hc).1 b hb
    · refine hlow key hk b ?_
      rw [List.mem_cons, List.mem_cons] at hb ⊢
      tauto
  · have hkx := hx key hk
    have hky := hy key (List.mem_cons_of_mem x hk)
    refine ⟨?_, (ne_of_strcmp hkx).symm, (ne_of_strcmp hky).symm⟩
    obtain ⟨before, after, rfl⟩ := List.append_of_mem hk
    obtain ⟨-, hc, hbefore⟩ := List.pairwise_append.mp hh
    have ht : low ++ x :: y :: (before ++ key :: after) =
        (low ++ x :: y :: before) ++ key :: after := by
      rw [List.append_assoc, List.cons_append, List.cons_append]
    rw [ht]
    refine bsearch_found (fun b hb ↦ ?_) (List.pairwise_cons.mp hc).1
    rcases List.mem_append.mp hb with hb | hb
    · exact hlow b hb key (List.mem_cons_of_mem y (List.mem_cons_of_mem x hk))
    · rcases List.mem_cons.mp hb with rfl | hb
      · exact hkx
      rcases List.mem_cons.mp hb with rfl | hb
      · exact hky
      · exact hbefore b hb key List.mem_cons_self

/-- The one that is missed is one of the two. -/
theorem missed_eq (pivot : Pivot) (low : List (List UInt8)) (x y : List UInt8)
    (high : List (List UInt8)) :
    missed pivot low x y high = x ∨ missed pivot low x y high = y := ite_eq_or_eq _ _ _

/-- In a table that would be sorted but for two neighbours exactly its strings are found but for one
of the two. -/
theorem bsearch_swapped_isSome_iff (hs : Increasing (low ++ y :: x :: high)) :
    (bsearch pivot (strcmp key) (low ++ x :: y :: high)).isSome ↔
      key ∈ low ++ x :: y :: high ∧ key ≠ missed pivot low x y high := by
  by_cases hm : key ∈ low ++ x :: y :: high
  · rw [and_iff_right hm]
    rw [List.mem_append, List.mem_cons, List.mem_cons] at hm
    rcases hm with hm | hm | hm | hm
    · obtain ⟨hf, hx, hy⟩ := @bsearch_other pivot low high key x y hs (.inl hm)
      refine iff_of_true hf ?_
      rcases missed_eq pivot low x y high with he | he <;> rw [he] <;> assumption
    · exact @bsearch_neighbour pivot low high key x y false hs hm
    · exact @bsearch_neighbour pivot low high key x y true hs hm
    · obtain ⟨hf, hx, hy⟩ := @bsearch_other pivot low high key x y hs (.inr hm)
      refine iff_of_true hf ?_
      rcases missed_eq pivot low x y high with he | he <;> rw [he] <;> assumption
  · exact iff_of_false (fun h ↦ hm (mem_of_bsearch h)) fun h ↦ hm h.1

end

end LibGTop.Base
