import LibGTop.Base.MaximalRuns
import LibGTop.Base.Tokens

/-!
# Splits of strings

`g_strsplit` and `g_strsplit_set` without a limit, and what `g_strstrip` leaves of a text. Both
splits give no string for the empty text.
-/

namespace LibGTop.Base

/-- The strings between the occurrences of a delimiter, of which `c` is the first byte. -/
def strsplit (c : UInt8) (more text : List UInt8) : List (List UInt8) :=
  match _h : strstr (c :: more) text with
  | none => [text]
  | some found =>
    text.take (text.length - found.length) :: strsplit c more (found.drop (more.length + 1))
termination_by text.length
decreasing_by
  obtain ⟨hp, hs⟩ := prefix_of_strstr _h
  have hlow := hp.length_le
  have hhigh := hs.length_le
  rw [List.length_cons] at hlow
  rw [List.length_drop]
  omega

/-- `g_strsplit`. -/
def gStrsplit (c : UInt8) (more text : List UInt8) : List (List UInt8) :=
  if text = [] then [] else strsplit c more text

/-- `g_strsplit_set`. -/
def gStrsplitSet (delims text : List UInt8) : List (List UInt8) :=
  if text = [] then [] else text.splitOnP fun b ↦ delims.contains b

section

variable {c : UInt8} {more before rest : List UInt8}

/-- A text whose first delimiter is behind a start of it. -/
theorem strsplit_of_strstr {text : List UInt8}
    (h : strstr (c :: more) text = some ((c :: more) ++ rest))
    (he : text = before ++ ((c :: more) ++ rest)) :
    strsplit c more text = before :: strsplit c more rest := by
  have hd : ((c :: more) ++ rest).drop (more.length + 1) = rest := List.drop_left' rfl
  rw [strsplit]
  split
  · next hnone =>
    rw [h] at hnone
    exact absurd hnone nofun
  · next found hsome =>
    rw [h] at hsome
    obtain rfl := Option.some.inj hsome
    rw [hd, he, List.length_append, Nat.add_sub_cancel, List.take_left]

theorem strsplit_of_none {text : List UInt8} (h : strstr (c :: more) text = none) :
    strsplit c more text = [text] := by
  rw [strsplit]
  split
  · rfl
  · next found hsome =>
    rw [h] at hsome
    exact absurd hsome nofun

/-- A delimiter that has a byte which is not in a text is not found there. -/
theorem strstr_eq_none {key text : List UInt8} {b : UInt8} (hk : b ∈ key) (h : b ∉ text) :
    strstr key text = none := by
  have hnot : ¬key <:+: text := fun hin ↦ h (hin.subset hk)
  rwa [← isSome_strstr, Option.not_isSome_iff_eq_none] at hnot

/-- A delimiter of one byte is found at its first occurrence. -/
theorem strstr_byte (h : c ∉ before) (rest : List UInt8) :
    strstr [c] (before ++ c :: rest) = some (c :: rest) := by
  induction before with
  | nil =>
    rw [List.nil_append, strstr]
    simp
  | cons b before ih =>
    obtain ⟨hb, hbefore⟩ := not_or.mp (mt List.mem_cons.mpr h)
    rw [List.cons_append, strstr, ih hbefore]
    simp [hb]

/-- A delimiter of two bytes is found behind a text without the second one. -/
theorem strstr_two {d : UInt8} (hne : c ≠ d) (h : d ∉ before) (rest : List UInt8) :
    strstr [c, d] (before ++ c :: d :: rest) = some (c :: d :: rest) := by
  induction before with
  | nil =>
    rw [List.nil_append, strstr]
    simp
  | cons b before ih =>
    obtain ⟨-, hbefore⟩ := not_or.mp (mt List.mem_cons.mpr h)
    have hprefix : ¬[c, d].isPrefixOf (b :: (before ++ c :: d :: rest)) := by
      rw [List.isPrefixOf_iff_prefix, List.cons_prefix_cons]
      rintro ⟨-, hnext⟩
      cases before with
      | nil => exact hne (List.cons_prefix_cons.mp hnext).1.symm
      | cons b' before =>
        exact hbefore ((List.cons_prefix_cons.mp hnext).1 ▸ List.mem_cons_self)
    rw [List.cons_append, strstr, if_neg hprefix, ih hbefore]

theorem strsplit_byte (h : c ∉ before) (rest : List UInt8) :
    strsplit c [] (before ++ c :: rest) = before :: strsplit c [] rest :=
  strsplit_of_strstr (strstr_byte h rest) rfl

theorem strsplit_last {piece : List UInt8} (h : c ∉ piece) : strsplit c [] piece = [piece] :=
  strsplit_of_none (strstr_eq_none List.mem_cons_self h)

theorem strsplit_two {d : UInt8} (hne : c ≠ d) (h : d ∉ before) (rest : List UInt8) :
    strsplit c [d] (before ++ c :: d :: rest) = before :: strsplit c [d] rest :=
  strsplit_of_strstr (strstr_two hne h rest) rfl

/-- A split has a first string. -/
theorem exists_strsplit (c : UInt8) (more text : List UInt8) :
    ∃ piece pieces, strsplit c more text = piece :: pieces := by
  rw [strsplit]
  split
  · exact ⟨_, _, rfl⟩
  · exact ⟨_, _, rfl⟩

/-- A text of lines is split into them, with an empty string behind the last newline. -/
theorem strsplit_text {ls : List (List UInt8)} (h : ∀ line ∈ ls, 10 ∉ line) :
    strsplit 10 [] (text ls) = ls ++ [[]] := by
  induction ls with
  | nil => exact strsplit_last List.not_mem_nil
  | cons line ls ih =>
    obtain ⟨hline, h⟩ := List.forall_mem_cons.mp h
    rw [text_cons, strsplit_byte hline, ih h, List.cons_append]

end

section

variable {p : UInt8 → Bool}

theorem infix_strip (p : UInt8 → Bool) (text : List UInt8) : strip p text <:+: text := by
  rw [strip]
  have hrev : ((text.dropWhile p).reverse.dropWhile p).reverse <+: text.dropWhile p := by
    rw [← List.reverse_suffix, List.reverse_reverse]
    exact List.dropWhile_suffix p
  exact hrev.isInfix.trans (List.dropWhile_suffix p).isInfix

/-- A byte that is not of the kind stays. -/
theorem mem_strip {b : UInt8} {text : List UInt8} (h : b ∈ text) (hb : p b = false) :
    b ∈ strip p text := by
  rw [strip, List.mem_reverse]
  exact mem_dropWhile (List.mem_reverse.mpr (mem_dropWhile h hb)) hb

/-- Bytes of the kind around a text are cut off with those at its ends. -/
theorem strip_around {before after : List UInt8} (hb : ∀ b ∈ before, p b) (ha : ∀ b ∈ after, p b)
    (text : List UInt8) : strip p (before ++ (text ++ after)) = strip p text := by
  rw [strip, strip, List.dropWhile_append_of_pos hb, List.dropWhile_append]
  split
  · next hall =>
    rw [List.isEmpty_iff.mp hall, List.dropWhile_eq_nil_iff.mpr ha]
  · rw [List.reverse_append,
      List.dropWhile_append_of_pos fun b hmem ↦ ha b (List.mem_reverse.mp hmem)]

end

end LibGTop.Base
