import LibGTop.Base.Strings
import Mathlib.Data.List.TakeWhile

/-!
# Tokens and pieces of C strings

`strtok` with one delimiter, `fgets` with a small buffer, and `g_strstrip`, on the
lists of what repeated calls deliver; and where `strstr` finds a text that the
delimiters are not in.
-/

namespace LibGTop.Base

/-- What `strtok` delivers in repeated calls. -/
def strtok (delim : UInt8) (text : List UInt8) : List (List UInt8) :=
  (text.splitOn delim).filter fun token ↦ !token.isEmpty

/-- Those of them that start with a key. -/
def keyed (delim : UInt8) (key text : List UInt8) : List (List UInt8) :=
  (strtok delim text).filter fun token ↦ key.isPrefixOf token

/-- A line in pieces of a size. -/
def pieces (size : Nat) (line : List UInt8) : List (List UInt8) :=
  if _h : line.length ≤ size ∨ size = 0 then [line]
  else line.take size :: pieces size (line.drop size)
termination_by line.length
decreasing_by
  rw [List.length_drop]
  omega

/-- What `fgets (line, size, file)` delivers in repeated calls. -/
def fgets (size : Nat) (text : List UInt8) : List (List UInt8) :=
  (lines text).flatMap (pieces (size - 1))

/-- A text without the bytes of a kind at its ends. -/
def strip (p : UInt8 → Bool) (text : List UInt8) : List UInt8 :=
  ((text.dropWhile p).reverse.dropWhile p).reverse

section

variable {delim : UInt8}

theorem strtok_delim (text : List UInt8) : strtok delim (delim :: text) = strtok delim text := by
  have hs := List.splitOn_append_cons_of_beq [] text (beq_self_eq_true delim)
  rw [List.nil_append, List.splitOn_nil] at hs
  rw [strtok, hs]
  rfl

/-- A token before a delimiter. -/
theorem strtok_cons {token : List UInt8} (hn : token ≠ []) (h : delim ∉ token)
    (text : List UInt8) : strtok delim (token ++ delim :: text) = token :: strtok delim text := by
  have he : token.isEmpty = false := by
    rw [List.isEmpty_eq_false_iff]
    exact hn
  have hs := List.splitOn_append_cons_of_beq token text (beq_self_eq_true delim)
  rw [List.splitOn_eq_singleton h, List.singleton_append] at hs
  rw [strtok, hs, List.filter_cons_of_pos (by rw [he]; rfl)]
  rfl

/-- The last token. -/
theorem strtok_last {token : List UInt8} (hn : token ≠ []) (h : delim ∉ token) :
    strtok delim token = [token] := by
  have he : token.isEmpty = false := by
    rw [List.isEmpty_eq_false_iff]
    exact hn
  rw [strtok, List.splitOn_eq_singleton h, List.filter_cons_of_pos (by rw [he]; rfl)]
  rfl

end

/-- A byte that is not of a kind stays where bytes of the kind are dropped. -/
theorem mem_dropWhile {p : UInt8 → Bool} {text : List UInt8} {b : UInt8} (h : b ∈ text)
    (hb : p b = false) : b ∈ text.dropWhile p := by
  rw [← List.takeWhile_append_dropWhile (p := p) (l := text)] at h
  refine (List.mem_append.mp h).resolve_left fun ht ↦ ?_
  exact absurd (List.mem_takeWhile_imp ht) (by rw [hb]; exact Bool.false_ne_true)

/-- Bytes of a kind around a text that has none of them are cut off. -/
theorem strip_append {p : UInt8 → Bool} {before after text : List UInt8} (hb : ∀ b ∈ before, p b)
    (ha : ∀ b ∈ after, p b) (ht : ∀ b ∈ text, p b = false) :
    strip p (before ++ (text ++ after)) = text := by
  have hkeep : ∀ (text rest : List UInt8), text ≠ [] → (∀ b ∈ text, p b = false) →
      (text ++ rest).dropWhile p = text ++ rest := by
    intro text rest hn ht
    cases text with
    | nil => exact absurd rfl hn
    | cons b text =>
      have hp : ¬p b = true := by
        rw [ht b List.mem_cons_self]
        exact Bool.false_ne_true
      rw [List.cons_append, List.dropWhile_cons_of_neg hp]
  rw [strip, List.dropWhile_append_of_pos hb]
  by_cases hn : text = []
  · subst hn
    rw [List.nil_append, List.dropWhile_eq_nil_iff.mpr ha]
    rfl
  · have hr : text.reverse ≠ [] := mt List.reverse_eq_nil_iff.mp hn
    have htr : ∀ b ∈ text.reverse, p b = false := fun b hm ↦ ht b (List.mem_reverse.mp hm)
    have har : ∀ b ∈ after.reverse, p b := fun b hm ↦ ha b (List.mem_reverse.mp hm)
    have hdrop := hkeep text.reverse [] hr htr
    rw [List.append_nil] at hdrop
    rw [hkeep text after hn ht, List.reverse_append, List.dropWhile_append_of_pos har, hdrop,
      List.reverse_reverse]

theorem pieces_short {size : Nat} {line : List UInt8} (h : line.length ≤ size) :
    pieces size line = [line] := by
  rw [pieces, dif_pos (.inl h)]

/-- Lines that fit are delivered one by one. -/
theorem fgets_text {size : Nat} {ls : List (List UInt8)}
    (h : ∀ line ∈ ls, 10 ∉ line ∧ line.length + 1 < size) :
    fgets size (text ls) = ls.map fun line ↦ line ++ [10] := by
  have hpieces : ∀ line ∈ ls, pieces (size - 1) (line ++ [10]) = [line ++ [10]] := by
    intro line hline
    refine pieces_short ?_
    have hl := (h line hline).2
    rw [List.length_append, List.length_singleton]
    omega
  rw [fgets, lines_text fun line hline ↦ (h line hline).1, List.flatMap_map]
  calc ls.flatMap (fun line ↦ pieces (size - 1) (line ++ [10]))
      = ls.flatMap fun line ↦ [line ++ [10]] := List.flatMap_congr hpieces
    _ = ls.map fun line ↦ line ++ [10] := List.map_eq_flatMap.symm

section

variable {key : List UInt8} {c : UInt8}

/-- A text is found exactly when it is somewhere in the other. -/
theorem isSome_strstr (key text : List UInt8) : (strstr key text).isSome ↔ key <:+: text := by
  induction text with
  | nil =>
    rw [strstr, List.infix_nil]
    split
    · next h => exact iff_of_true rfl h
    · next h => exact iff_of_false Bool.false_ne_true h
  | cons b text ih =>
    rw [strstr, List.infix_cons_iff, ← ih]
    split
    · next h => exact iff_of_true rfl (.inl (List.isPrefixOf_iff_prefix.mp h))
    · next h => exact (or_iff_right fun hp ↦ h (List.isPrefixOf_iff_prefix.mpr hp)).symm

/-- What is found starts with the text and ends the other. -/
theorem prefix_of_strstr {text found : List UInt8} (h : strstr key text = some found) :
    key <+: found ∧ found <:+ text := by
  induction text with
  | nil =>
    rw [strstr] at h
    split at h
    · next hk =>
      obtain rfl := Option.some.inj h
      exact ⟨hk ▸ List.prefix_rfl, List.suffix_rfl⟩
    · exact absurd h.symm (Option.some_ne_none found)
  | cons b text ih =>
    rw [strstr] at h
    split at h
    · next hk =>
      obtain rfl := Option.some.inj h
      exact ⟨List.isPrefixOf_iff_prefix.mp hk, List.suffix_rfl⟩
    · exact ⟨(ih h).1, (ih h).2.trans (List.suffix_cons b text)⟩

theorem prefix_cons_of_notMem (hn : key ≠ []) (h : c ∉ key) (text : List UInt8) :
    ¬key <+: c :: text := by
  cases key with
  | nil => exact absurd rfl hn
  | cons b key =>
    intro hp
    exact h (List.mem_cons.mpr (.inl (List.cons_prefix_cons.mp hp).1.symm))

/-- What is before the first such byte of a text is one text. -/
theorem eq_of_append_cons_eq {before before' after after' : List UInt8} (h : c ∉ before)
    (h' : c ∉ before') (he : before ++ c :: after = before' ++ c :: after') : before = before' := by
  have hp : before <+: before' :=
    prefix_of_prefix_append h (he ▸ List.prefix_append before (c :: after))
  have hp' : before' <+: before :=
    prefix_of_prefix_append h' (he ▸ List.prefix_append before' (c :: after'))
  exact hp.eq_of_length (Nat.le_antisymm hp.length_le hp'.length_le)

/-- A text without a byte is before or behind such a byte. -/
theorem infix_append_cons (hn : key ≠ []) (h : c ∉ key) (before after : List UInt8) :
    key <:+: before ++ c :: after ↔ key <:+: before ∨ key <:+: after := by
  induction before with
  | nil =>
    rw [List.nil_append, List.infix_cons_iff, List.infix_nil]
    exact or_congr (iff_of_false (prefix_cons_of_notMem hn h after) hn) Iff.rfl
  | cons b before ih =>
    have hp : key <+: b :: (before ++ c :: after) ↔ key <+: b :: before := by
      constructor
      · intro hp
        rw [← List.cons_append] at hp
        exact prefix_of_prefix_append h hp
      · exact fun hp ↦ hp.trans (List.prefix_append (b :: before) (c :: after))
    rw [List.cons_append, List.infix_cons_iff, List.infix_cons_iff, ih, hp, or_assoc]

/-- A text without a byte ends what is behind such a byte. -/
theorem suffix_append_cons_iff (h : c ∉ key) (before after : List UInt8) :
    key <:+ before ++ c :: after ↔ key <:+ after := by
  constructor
  · intro hs
    rw [← List.reverse_prefix, List.reverse_append, List.reverse_cons, List.append_assoc,
      List.singleton_append] at hs
    rw [← List.reverse_prefix]
    exact prefix_of_prefix_append (fun hm ↦ h (List.mem_reverse.mp hm)) hs
  · intro hs
    exact hs.trans ((List.suffix_cons c after).trans (List.suffix_append before _))

/-- A text is behind bytes that are not in it. -/
theorem infix_append_of_notMem (hn : key ≠ []) {gap : List UInt8} (h : ∀ c ∈ gap, c ∉ key)
    (text : List UInt8) : key <:+: gap ++ text ↔ key <:+: text := by
  induction gap with
  | nil => rfl
  | cons c gap ih =>
    have hs := infix_append_cons hn (h c List.mem_cons_self) [] (gap ++ text)
    rw [List.nil_append, List.infix_nil, or_iff_right hn] at hs
    rw [List.cons_append, hs, ih fun b hb ↦ h b (List.mem_cons_of_mem c hb)]

end

section

variable {delim : UInt8} {key : List UInt8}

theorem strtok_nil : strtok delim [] = [] := by
  rw [strtok, List.splitOn_nil]
  rfl

theorem bne_of_notMem {text : List UInt8} (h : delim ∉ text) : ∀ c ∈ text, (c != delim) = true :=
  fun _ hc ↦ bne_iff_ne.mpr (ne_of_mem_of_not_mem hc h)

/-- A token at the start of a text, and those behind it. -/
theorem strtok_of_head {b : UInt8} (hb : b ≠ delim) (text : List UInt8) :
    strtok delim (b :: text) = (b :: text).takeWhile (· != delim) ::
      strtok delim ((b :: text).dropWhile (· != delim)) := by
  have hsplit : (b :: text).takeWhile (· != delim) ++ (b :: text).dropWhile (· != delim) =
      b :: text := List.takeWhile_append_dropWhile
  have hnotMem : delim ∉ (b :: text).takeWhile (· != delim) := fun hm ↦
    bne_iff_ne.mp (List.mem_takeWhile_imp (p := (· != delim)) hm) rfl
  have hne : (b :: text).takeWhile (· != delim) ≠ [] := by
    rw [List.takeWhile_cons, if_pos (bne_iff_ne.mpr hb)]
    exact List.cons_ne_nil _ _
  have hhead := List.head?_dropWhile_not (· != delim) (b :: text)
  generalize (b :: text).takeWhile (· != delim) = token at hsplit hnotMem hne ⊢
  generalize (b :: text).dropWhile (· != delim) = rest at hsplit hhead ⊢
  rw [← hsplit]
  cases rest with
  | nil => rw [List.append_nil, strtok_last hne hnotMem, strtok_nil]
  | cons c rest =>
    have hc : c = delim := by simpa using hhead
    rw [hc, strtok_cons hne hnotMem, strtok_delim]

/-- Where a text without delimiters starts another, it does so before the first of them. -/
theorem prefix_takeWhile_iff (h : delim ∉ key) (text : List UInt8) :
    key <+: text.takeWhile (· != delim) ↔ key <+: text := by
  refine ⟨fun hp ↦ hp.trans (List.takeWhile_prefix _), ?_⟩
  rintro ⟨rest, rfl⟩
  rw [List.takeWhile_append_of_pos (bne_of_notMem h)]
  exact List.prefix_append _ _

/-- The token with a key that a text starts with, if it starts with one. -/
def keyedAt (delim : UInt8) (key text : List UInt8) : List (List UInt8) :=
  if key.isPrefixOf text then [text.takeWhile (· != delim)] else []

/-- Those that start behind the next delimiter of a text. -/
def keyedBehind (delim : UInt8) (key text : List UInt8) : List (List UInt8) :=
  keyed delim key (text.dropWhile (· != delim))

theorem keyedAt_cons_of_notMem (hn : key ≠ []) {c : UInt8} (h : c ∉ key) (text : List UInt8) :
    keyedAt delim key (c :: text) = [] :=
  if_neg fun hp ↦ prefix_cons_of_notMem hn h text (List.isPrefixOf_iff_prefix.mp hp)

theorem keyedBehind_delim (text : List UInt8) :
    keyedBehind delim key (delim :: text) = keyed delim key text := by
  rw [keyedBehind, List.dropWhile_cons_of_neg (by simp), keyed, strtok_delim]
  rfl

/-- Nothing starts where no delimiter is. -/
theorem keyedBehind_append {before : List UInt8} (h : delim ∉ before) (text : List UInt8) :
    keyedBehind delim key (before ++ text) = keyedBehind delim key text := by
  rw [keyedBehind, List.dropWhile_append_of_pos (bne_of_notMem h)]
  rfl

section

variable (hn : key ≠ []) (h : delim ∉ key)

include hn h

theorem keyed_eq (text : List UInt8) :
    keyed delim key text = keyedAt delim key text ++ keyedBehind delim key text := by
  cases text with
  | nil =>
    have hnil : ¬key.isPrefixOf [] = true := by
      rw [List.isPrefixOf_iff_prefix, List.prefix_nil]
      exact hn
    rw [keyedAt, if_neg hnil, List.nil_append]
    rfl
  | cons b text =>
    by_cases hb : b = delim
    · subst hb
      rw [keyedAt_cons_of_notMem hn h, keyedBehind, List.dropWhile_cons_of_neg (by simp)]
      rfl
    · have hprefix : key.isPrefixOf ((b :: text).takeWhile (· != delim)) =
          key.isPrefixOf (b :: text) := by
        rw [Bool.eq_iff_iff, List.isPrefixOf_iff_prefix, List.isPrefixOf_iff_prefix]
        exact prefix_takeWhile_iff h (b :: text)
      rw [keyed, strtok_of_head hb, List.filter_cons, hprefix, keyedAt]
      split <;> rfl

/-- Behind a byte a token starts if it is a delimiter. -/
theorem keyedBehind_cons (c : UInt8) (text : List UInt8) :
    keyedBehind delim key (c :: text) =
      (if c = delim then keyedAt delim key text else []) ++ keyedBehind delim key text := by
  by_cases hc : c = delim
  · rw [if_pos hc, hc, keyedBehind_delim, keyed_eq hn h]
  · rw [if_neg hc, ← List.singleton_append,
      keyedBehind_append fun hm ↦ hc (List.mem_singleton.mp hm).symm]
    rfl

/-- Behind a gap in which the key does not start, a token starts if the last byte of the gap is a
delimiter. -/
theorem keyedBehind_gap {gap : List UInt8} (hgap : gap ≠ []) (hkey : ∀ c ∈ gap, c ∉ key)
    (text : List UInt8) :
    keyedBehind delim key (gap ++ text) =
      (if gap.getLastD delim = delim then keyedAt delim key text else []) ++
        keyedBehind delim key text := by
  induction gap with
  | nil => exact absurd rfl hgap
  | cons c gap ih =>
    rw [List.cons_append, keyedBehind_cons hn h]
    cases gap with
    | nil =>
      rw [List.nil_append, List.getLastD_cons, List.getLastD_nil]
    | cons d gap =>
      have hd : keyedAt delim key (d :: (gap ++ text)) = [] :=
        keyedAt_cons_of_notMem hn (hkey d (List.mem_cons_of_mem c List.mem_cons_self)) _
      have hgap := ih (List.cons_ne_nil d gap) fun b hb ↦ hkey b (List.mem_cons_of_mem c hb)
      rw [List.cons_append] at hgap ⊢
      rw [hd, ite_self, List.nil_append, List.getLastD_cons, hgap, List.getLastD_cons,
        List.getLastD_cons]

/-- At the start of a text a token starts behind such a gap also if it is empty. -/
theorem keyed_gap {gap : List UInt8} (hkey : ∀ c ∈ gap, c ∉ key) (text : List UInt8) :
    keyed delim key (gap ++ text) =
      (if gap.getLastD delim = delim then keyedAt delim key text else []) ++
        keyedBehind delim key text := by
  cases gap with
  | nil =>
    rw [List.nil_append, keyed_eq hn h, if_pos List.getLastD_nil]
  | cons c gap =>
    rw [keyed_eq hn h, keyedBehind_gap hn h (List.cons_ne_nil c gap) hkey, List.cons_append,
      keyedAt_cons_of_notMem hn (hkey c List.mem_cons_self), List.nil_append]

end

end

end LibGTop.Base
