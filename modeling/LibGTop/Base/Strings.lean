import LibGTop.Base.Buffers

/-!
# Searching C strings

`strrchr`, `strstr` and the lines of a text, as `getline` delivers them with their
newlines. A text is the list of its bytes up to the terminator.
-/

namespace LibGTop.Base

/-- `strrchr`: the text before the last such byte and the text behind it. -/
def strrchr (c : UInt8) : List UInt8 → Option (List UInt8 × List UInt8)
  | [] => none
  | b :: text =>
    match strrchr c text with
    | some (before, after) => some (b :: before, after)
    | none => if b = c then some ([], text) else none

/-- `strstr`: the text from the first occurrence of the key. -/
def strstr (key : List UInt8) : List UInt8 → Option (List UInt8)
  | [] => if key = [] then some [] else none
  | b :: text => if key.isPrefixOf (b :: text) then some (b :: text) else strstr key text

/-- The lines of a text with their newlines; the last one may have none. -/
def lines : List UInt8 → List (List UInt8)
  | [] => []
  | b :: text =>
    if b = 10 then [b] :: lines text
    else
      match lines text with
      | [] => [[b]]
      | line :: rest => (b :: line) :: rest

theorem strrchr_eq_none {c : UInt8} {text : List UInt8} (h : c ∉ text) : strrchr c text = none := by
  induction text with
  | nil => rfl
  | cons b text ih =>
    obtain ⟨hb, ht⟩ := not_or.mp (mt List.mem_cons.mpr h)
    rw [strrchr, ih ht]
    exact if_neg (Ne.symm hb)

/-- The last byte of its kind is found, whatever stands before it. -/
theorem strrchr_append {c : UInt8} (before : List UInt8) {after : List UInt8} (h : c ∉ after) :
    strrchr c (before ++ c :: after) = some (before, after) := by
  induction before with
  | nil =>
    rw [List.nil_append, strrchr, strrchr_eq_none h]
    exact if_pos rfl
  | cons b before ih => rw [List.cons_append, strrchr, ih]

/-- A key that starts with a newline is found at the first newline that its rest follows. -/
theorem strstr_newline (key : List UInt8) {line : List UInt8} (h : 10 ∉ line) (rest : List UInt8) :
    strstr (10 :: key) (line ++ 10 :: rest) =
      if key.isPrefixOf rest then some (10 :: rest) else strstr (10 :: key) rest := by
  induction line with
  | nil => rw [List.nil_append, strstr, List.isPrefixOf]; simp
  | cons b line ih =>
    obtain ⟨hb, hl⟩ := not_or.mp (mt List.mem_cons.mpr h)
    have hn : (10 :: key).isPrefixOf (b :: (line ++ 10 :: rest)) = false := by
      rw [List.isPrefixOf, beq_false_of_ne hb, Bool.false_and]
    rw [List.cons_append, strstr, hn, ih hl]
    rfl

/-- A text that starts what ends before a byte that is not in it, starts that. -/
theorem prefix_of_prefix_append {key before after : List UInt8} {c : UInt8} (hk : c ∉ key)
    (h : key <+: before ++ c :: after) : key <+: before := by
  obtain ⟨t, ht⟩ := h
  obtain ⟨more, he, -⟩ | ⟨more, he, hm⟩ := List.append_eq_append_iff.mp ht
  · exact ⟨more, he.symm⟩
  · cases more with
    | nil =>
      have hl : key = before := he.trans (List.append_nil before)
      exact hl ▸ List.prefix_rfl
    | cons b more =>
      rw [List.cons_append, List.cons.injEq] at hm
      refine absurd ?_ hk
      rw [he, hm.1]
      exact List.mem_append_right _ List.mem_cons_self

/-- A text without a newline that starts what a line and its newline start, starts the line. -/
theorem prefix_of_prefix_line {key line rest : List UInt8} (hk : 10 ∉ key)
    (h : key <+: line ++ 10 :: rest) : key <+: line :=
  prefix_of_prefix_append hk h

/-- The text of a list of lines. -/
def text (ls : List (List UInt8)) : List UInt8 := ls.flatMap fun line ↦ line ++ [10]

@[simp] theorem text_nil : text [] = [] := rfl

@[simp] theorem text_cons (line : List UInt8) (ls : List (List UInt8)) :
    text (line :: ls) = line ++ 10 :: text ls := by
  simp [text]

/-- In a text of lines a key that starts with a newline is found before the first line, behind the
first of all, that starts with the rest of the key. -/
theorem strstr_text {key : List UInt8} (hk : 10 ∉ key) (first : List UInt8)
    (before : List (List UInt8)) (hf : 10 ∉ first) (hb : ∀ line ∈ before, 10 ∉ line ∧ ¬key <+: line)
    {rest : List UInt8} (hr : key <+: rest) :
    strstr (10 :: key) (first ++ 10 :: (text before ++ rest)) = some (10 :: rest) := by
  induction before generalizing first with
  | nil =>
    rw [text_nil, List.nil_append, strstr_newline key hf, if_pos (List.isPrefixOf_iff_prefix.mpr hr)]
  | cons line before ih =>
    obtain ⟨⟨hl, hn⟩, hb⟩ := List.forall_mem_cons.mp hb
    have hp : ¬key.isPrefixOf (line ++ 10 :: (text before ++ rest)) := fun hp ↦
      hn (prefix_of_prefix_line hk (List.isPrefixOf_iff_prefix.mp hp))
    rw [text_cons, List.append_assoc, List.cons_append, strstr_newline key hf, if_neg hp]
    exact ih line hl hb

/-- A line is split off with its newline. -/
theorem lines_append {line : List UInt8} (h : 10 ∉ line) (rest : List UInt8) :
    lines (line ++ 10 :: rest) = (line ++ [10]) :: lines rest := by
  induction line with
  | nil => rw [List.nil_append, lines, if_pos rfl, List.nil_append]
  | cons b line ih =>
    obtain ⟨hb, hl⟩ := not_or.mp (mt List.mem_cons.mpr h)
    rw [List.cons_append, lines, if_neg (Ne.symm hb), ih hl, List.cons_append]

/-- The lines of a text of lines. -/
theorem lines_text {ls : List (List UInt8)} (h : ∀ line ∈ ls, 10 ∉ line) :
    lines (text ls) = ls.map fun line ↦ line ++ [10] := by
  induction ls with
  | nil => rfl
  | cons line ls ih =>
    obtain ⟨hl, h⟩ := List.forall_mem_cons.mp h
    rw [text_cons, lines_append hl, ih h, List.map_cons]

section

variable {α : Type}

/-- A function that passes over the start of a text goes as far in a text that is cut, if that has
as much. -/
structure Skips (f : List α → List α) : Prop where
  suffix : ∀ text, f text <:+ text
  take : ∀ text room, f (text.take room) = (f text).take (room - (text.length - (f text).length))

theorem Skips.id : Skips fun text : List α ↦ text where
  suffix _ := List.suffix_rfl
  take text room := by rw [Nat.sub_self, Nat.sub_zero]

theorem Skips.comp {f g : List α → List α} (hg : Skips g) (hf : Skips f) :
    Skips fun text ↦ g (f text) where
  suffix text := (hg.suffix _).trans (hf.suffix text)
  take text room := by
    have h1 := (hf.suffix text).length_le
    have h2 := (hg.suffix (f text)).length_le
    rw [hf.take, hg.take]
    congr 1
    omega

theorem skips_dropWhile (q : α → Bool) : Skips (List.dropWhile q) where
  suffix text := List.dropWhile_suffix q
  take text room := by
    induction text generalizing room with
    | nil => simp
    | cons b text ih =>
      have hl : (text.dropWhile q).length ≤ text.length := (List.dropWhile_suffix q).length_le
      cases room with
      | zero => simp
      | succ room =>
        rw [List.take_succ_cons]
        by_cases hb : q b = true
        · rw [List.dropWhile_cons_of_pos hb, List.dropWhile_cons_of_pos hb, ih, List.length_cons]
          congr 1
          omega
        · rw [List.dropWhile_cons_of_neg hb, List.dropWhile_cons_of_neg hb, Nat.sub_self,
            Nat.sub_zero, List.take_succ_cons]

end

end LibGTop.Base
