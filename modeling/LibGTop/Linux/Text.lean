import LibGTop.Base.Scan
import LibGTop.Base.Tokens

/-!
# Tokens of a text file

The helpers of the Linux part that walk over a file in `/proc`
(`sysdeps/linux/glibtop_private.h:37–121`, `glibtop_private.c:17–151`), on the
memory from a pointer on: a NUL ends the text, as the end of the list does. A
position in a line of tokens is a position in the list of their texts.
-/

namespace LibGTop.Linux

open Base

/-- `g_ascii_isspace`, which does not count the vertical tab. -/
def gAsciiIsspace (b : UInt8) : Bool := b = 32 || b = 9 || b = 10 || b = 12 || b = 13

/-- `g_strstrip`. -/
def gStrstrip (text : List UInt8) : List UInt8 := strip gAsciiIsspace text

/-- A byte that `skip_token` takes as part of a token. -/
def isTokenByte (b : UInt8) : Bool := b ≠ 0 && !gAsciiIsspace b

/-- `next_token`, `sysdeps/linux/glibtop_private.h:36–41`. -/
def nextToken (p : List UInt8) : List UInt8 := p.dropWhile gAsciiIsspace

/-- `skip_token`, `sysdeps/linux/glibtop_private.c:50–57`. -/
def skipToken (p : List UInt8) : List UInt8 := nextToken ((nextToken p).dropWhile isTokenByte)

/-- `skip_multiple_token`, `sysdeps/linux/glibtop_private.h:46–53`. -/
def skipMultipleToken (p : List UInt8) : Nat → List UInt8
  | 0 => p
  | count + 1 => skipMultipleToken (skipToken p) count

/-- `skip_line`, `sysdeps/linux/glibtop_private.h:56–61`. -/
def skipLine (p : List UInt8) : List UInt8 :=
  match p.dropWhile fun b ↦ b ≠ 0 && b ≠ 10 with
  | 10 :: rest => rest
  | rest => rest

/-- `proc_stat_after_cmd`, `sysdeps/linux/glibtop_private.h:111–118`: the text before the last
closing parenthesis, which is overwritten, and the text behind it. -/
def procStatAfterCmd (buffer : List UInt8) : Option (List UInt8 × List UInt8) :=
  strrchr 41 buffer

/-- `try_file_to_buffer`, `sysdeps/linux/glibtop_private.c:85–131`: the text in the buffer; absent
when the file cannot be opened or read. -/
def tryFileToBuffer (bufsiz : Nat) (file : Option (List UInt8)) : Option (List UInt8) :=
  file.map fun content ↦ cString (content.take (bufsiz - 1))

/-- The buffer holds the start of a text. -/
theorem tryFileToBuffer_take (bufsiz : Nat) {content : List UInt8} (hn : 0 ∉ content) :
    tryFileToBuffer bufsiz (some content) = some (content.take (bufsiz - 1)) := by
  rw [tryFileToBuffer, Option.map_some, cString_eq_self fun h ↦ hn (List.mem_of_mem_take h)]

/-- A text that fits is in the buffer as it is. -/
theorem tryFileToBuffer_eq {bufsiz : Nat} {content : List UInt8} (hn : 0 ∉ content)
    (h : content.length < bufsiz) : tryFileToBuffer bufsiz (some content) = some content := by
  rw [tryFileToBuffer_take bufsiz hn, List.take_of_length_le (by omega)]

/-- `check_cpu_line`, `sysdeps/linux/glibtop_private.c:197–205`, with its buffer of ten bytes. -/
def checkCpuLine (line : List UInt8) (i : Nat) : Bool :=
  ((asciiBytes ['c', 'p', 'u'] ++ decimal i).take 9).isPrefixOf line

/-- The text of a token: not empty, and neither blank nor NUL in it. -/
def IsToken (word : List UInt8) : Prop := word ≠ [] ∧ ∀ b ∈ word, isTokenByte b

instance (word : List UInt8) : Decidable (IsToken word) :=
  decidable_of_iff (word ≠ [] ∧ word.all isTokenByte = true) (by rw [IsToken, List.all_eq_true])

/-- Tokens with a blank before each, and what follows them. -/
def spaced (words : List (List UInt8)) (tail : List UInt8) : List UInt8 :=
  words.flatMap (fun word ↦ 32 :: word) ++ tail

@[simp] theorem spaced_nil (tail : List UInt8) : spaced [] tail = tail := rfl

@[simp] theorem spaced_cons (word : List UInt8) (words : List (List UInt8)) (tail : List UInt8) :
    spaced (word :: words) tail = 32 :: (word ++ spaced words tail) := by
  simp [spaced]

/-- A pointer to a list of tokens: before the blank of the first, at the first, or, when there is
none left, behind the blanks that follow. -/
inductive At (tail : List UInt8) : List (List UInt8) → List UInt8 → Prop
  | before (words : List (List UInt8)) : At tail words (spaced words tail)
  | inside (word : List UInt8) (words : List (List UInt8)) :
      At tail (word :: words) (word ++ spaced words tail)
  | ended : At tail [] (nextToken tail)

theorem IsToken.head {word : List UInt8} (h : IsToken word) (rest : List UInt8) :
    nextToken (word ++ rest) = word ++ rest := by
  cases word with
  | nil => exact absurd rfl h.1
  | cons b word =>
    have hb := h.2 b List.mem_cons_self
    simp only [isTokenByte, Bool.and_eq_true, Bool.not_eq_true'] at hb
    rw [nextToken, List.cons_append, List.dropWhile_cons_of_neg (by rw [hb.2]; exact nofun)]

theorem nextToken_blank (p : List UInt8) : nextToken (32 :: p) = nextToken p :=
  List.dropWhile_cons_of_pos (by decide)

/-- What follows the tokens starts with a byte of no token, or is the end. -/
def Blank (tail : List UInt8) : Prop := ∀ b ∈ tail.head?, isTokenByte b = false

theorem blank_nil : Blank [] := nofun

theorem blank_cons {b : UInt8} (h : isTokenByte b = false) (rest : List UInt8) :
    Blank (b :: rest) := by
  intro c hc
  obtain rfl := Option.mem_some_iff.mp hc
  exact h

theorem blank_spaced {tail : List UInt8} (h : Blank tail) (words : List (List UInt8)) :
    Blank (spaced words tail) := by
  cases words with
  | nil => exact h
  | cons word words =>
    rw [spaced_cons]
    exact blank_cons (by decide) _

/-- A token is skipped up to the blank behind it. -/
theorem IsToken.dropWhile {word : List UInt8} (h : IsToken word) {rest : List UInt8}
    (hr : Blank rest) : (word ++ rest).dropWhile isTokenByte = rest := by
  rw [List.dropWhile_append_of_pos h.2]
  cases rest with
  | nil => rfl
  | cons b rest =>
    have hb : isTokenByte b = false := hr b rfl
    rw [List.dropWhile_cons_of_neg (by rw [hb]; exact nofun)]

section

variable {tail : List UInt8} {words : List (List UInt8)}

/-- Behind the blanks a pointer is at the first token. -/
theorem at_nextToken (hw : ∀ word ∈ words, IsToken word) :
    At tail words (nextToken (spaced words tail)) := by
  cases words with
  | nil => exact .ended
  | cons word words =>
    have hn : nextToken (spaced (word :: words) tail) = word ++ spaced words tail := by
      rw [spaced_cons, nextToken_blank]
      exact (hw word List.mem_cons_self).head _
    rw [hn]
    exact .inside word words

/-- `skip_token` at a token goes to the next one. -/
theorem skipToken_token {word : List UInt8} (h : IsToken word) {rest : List UInt8}
    (hr : Blank rest) : skipToken (word ++ rest) = nextToken rest := by
  rw [skipToken, h.head, h.dropWhile hr]

/-- `skip_token` goes one token on, if there is one or nothing but blanks is left. -/
theorem at_skipToken_of (hb : Blank tail) (he : words ≠ [] ∨ nextToken tail = [])
    (hw : ∀ word ∈ words, IsToken word) {p : List UInt8} (h : At tail words p) :
    At tail (words.drop 1) (skipToken p) := by
  have hd : nextToken tail = [] → At tail [] [] := fun he ↦ he ▸ .ended
  cases h with
  | before =>
    cases words with
    | nil =>
      have he := he.resolve_left fun hn ↦ hn rfl
      rw [spaced_nil, skipToken, he]
      exact hd he
    | cons word words =>
      obtain ⟨ht, hw⟩ := List.forall_mem_cons.mp hw
      have hn : skipToken (spaced (word :: words) tail) = nextToken (spaced words tail) := by
        rw [spaced_cons, skipToken, nextToken_blank]
        exact skipToken_token ht (blank_spaced hb words)
      rw [hn]
      exact at_nextToken hw
  | inside word words =>
    obtain ⟨ht, hw⟩ := List.forall_mem_cons.mp hw
    rw [skipToken_token ht (blank_spaced hb words)]
    exact at_nextToken hw
  | ended =>
    have he := he.resolve_left fun hn ↦ hn rfl
    rw [he]
    exact hd he

/-- `skip_token` goes one token on. -/
theorem at_skipToken (hb : Blank tail) (he : nextToken tail = [])
    (hw : ∀ word ∈ words, IsToken word) {p : List UInt8} (h : At tail words p) :
    At tail (words.drop 1) (skipToken p) :=
  at_skipToken_of hb (.inr he) hw h

/-- `skip_multiple_token` goes as many tokens on. -/
theorem at_skipMultipleToken (hb : Blank tail) (he : nextToken tail = [])
    (hw : ∀ word ∈ words, IsToken word) {p : List UInt8} (h : At tail words p) (count : Nat) :
    At tail (words.drop count) (skipMultipleToken p count) := by
  induction count generalizing words p with
  | zero => exact h
  | succ count ih =>
    have hs := at_skipToken hb he hw h
    have hr := ih (fun word hm ↦ hw word (List.mem_of_mem_drop hm)) hs
    rw [List.drop_drop, Nat.add_comm] at hr
    exact hr

end

/-- No number follows the tokens. -/
structure NoNumber (base : Nat) (tail : List UInt8) : Prop where
  stops : Stops tail
  here : scanNumber base tail = none
  behind : scanNumber base (nextToken tail) = none

theorem isToken_signedDecimal (value : Int) : IsToken (signedDecimal value) := by
  have hd : ∀ b ∈ decimal value.natAbs, isTokenByte b := by
    intro b hb
    have hb := (mem_decimal hb).1
    have hn : ∀ c : UInt8, c.toNat < 48 → b ≠ c := by
      rintro c hc rfl
      omega
    simp [isTokenByte, gAsciiIsspace, hn 0 (by decide), hn 32 (by decide), hn 9 (by decide),
      hn 10 (by decide), hn 12 (by decide), hn 13 (by decide)]
  unfold signedDecimal
  split
  · exact ⟨List.cons_ne_nil _ _, List.forall_mem_cons.mpr ⟨by decide, hd⟩⟩
  · exact ⟨decimal_ne_nil _, hd⟩

theorem gAsciiIsspace_of_isBlankByte {b : UInt8} (h : isBlankByte b) : gAsciiIsspace b := by
  simp only [isBlankByte, Bool.or_eq_true, decide_eq_true_eq] at h
  obtain rfl | rfl := h <;> decide

theorem isToken_decimal (value : Nat) : IsToken (decimal value) :=
  signedDecimal_natCast value ▸ isToken_signedDecimal value

theorem isToken_numbers (values : List Int) : ∀ word ∈ values.map signedDecimal, IsToken word := by
  intro word hw
  obtain ⟨value, -, rfl⟩ := List.mem_map.mp hw
  exact isToken_signedDecimal value

theorem blank_newline (rest : List UInt8) : Blank (10 :: rest) := blank_cons (by decide) rest

/-- The number at a place of a list, which is 0 behind its end. -/
theorem headD_drop {α : Type} [Zero α] (values : List α) (n : Nat) :
    (values.drop n).headD 0 = values.getD n 0 := by
  rw [List.headD_eq_head?_getD, List.head?_drop, List.getD_eq_getElem?_getD]

theorem noNumber_nil {base : Nat} (h : base = 0 ∨ base = 10) : NoNumber base [] := by
  obtain rfl | rfl := h
  · exact ⟨by decide, by decide, by decide⟩
  · exact ⟨by decide, by decide, by decide⟩

theorem noNumber_newline {base : Nat} (h : base = 0 ∨ base = 10) : NoNumber base [10] := by
  obtain rfl | rfl := h
  · exact ⟨by decide, by decide, by decide⟩
  · exact ⟨by decide, by decide, by decide⟩

section

variable {base : Nat} {tail : List UInt8} {values : List Int} {p : List UInt8}

/-- Behind the numbers there is none. -/
theorem scanNumber_ended (ht : NoNumber base tail) (hp : At tail [] p) :
    scanNumber base p = none := by
  cases hp with
  | before => exact ht.here
  | ended => exact ht.behind

/-- The number at a pointer to a list of numbers. -/
theorem scanNumber_at (h : base = 0 ∨ base = 10) (ht : NoNumber base tail)
    (hp : At tail (values.map signedDecimal) p) :
    scanNumber base p = values.head?.map fun value ↦ (decide (value < 0), value.natAbs,
      spaced ((values.drop 1).map signedDecimal) tail) := by
  have hs : ∀ words, Stops (spaced words tail) := by
    intro words
    cases words with
    | nil => exact ht.stops
    | cons word words =>
      rw [spaced_cons, stops_cons]
      decide
  cases values with
  | nil =>
    exact scanNumber_ended ht hp
  | cons value rest =>
    rw [List.map_cons] at hp
    cases hp with
    | before =>
      rw [spaced_cons]
      exact scanNumber_signedDecimal h (spaces_singleton 32 (by decide)) value (hs _)
    | inside => exact scanNumber_signedDecimal h spaces_nil value (hs _)

/-- `strtol` reads the number at a pointer and goes to the next one. -/
theorem strtol_at (h : base = 0 ∨ base = 10) (ht : NoNumber base tail)
    (hp : At tail (values.map signedDecimal) p) :
    (strtol base p).1 = clampLong (values.headD 0) ∧
      At tail ((values.drop 1).map signedDecimal) (strtol base p).2 := by
  have hn := scanNumber_at h ht hp
  cases values with
  | nil =>
    rw [strtol, hn]
    exact ⟨rfl, hp⟩
  | cons value rest =>
    have hv := signed_natAbs value
    rw [strtol, hn]
    simp only [List.head?_cons, Option.map_some, hv]
    exact ⟨rfl, .before _⟩

/-- `strtoull` reads the number at a pointer and goes to the next one. -/
theorem strtoull_at (h : base = 0 ∨ base = 10) (ht : NoNumber base tail)
    (hp : At tail (values.map signedDecimal) p) :
    (strtoull base p).1 = clampUnsigned (values.headD 0) ∧
      At tail ((values.drop 1).map signedDecimal) (strtoull base p).2 := by
  have hn := scanNumber_at h ht hp
  cases values with
  | nil =>
    rw [strtoull, hn]
    exact ⟨rfl, hp⟩
  | cons value rest =>
    have hv := signed_natAbs value
    rw [strtoull, hn]
    simp only [List.head?_cons, Option.map_some, hv]
    exact ⟨rfl, .before _⟩

end

theorem skipLine_append {line : List UInt8} (h : ∀ b ∈ line, b ≠ 0 ∧ b ≠ 10) (p : List UInt8) :
    skipLine (line ++ p) = skipLine p := by
  have hb : ∀ b ∈ line, (b ≠ 0 && b ≠ 10) = true := by
    intro b hb
    simp [h b hb]
  unfold skipLine
  rw [List.dropWhile_append_of_pos hb]

theorem skipLine_string {word : List UInt8} (h : ∀ b ∈ word, isStringByte b) (p : List UInt8) :
    skipLine (word ++ p) = skipLine p :=
  skipLine_append (fun b hb ↦ ne_of_isStringByte (h b hb)) p

theorem skips_nextToken : Skips nextToken := skips_dropWhile _

theorem skips_skipToken : Skips skipToken :=
  skips_nextToken.comp ((skips_dropWhile _).comp skips_nextToken)

theorem skips_skipMultipleToken (count : Nat) : Skips fun p ↦ skipMultipleToken p count := by
  induction count with
  | zero => exact .id
  | succ count ih => exact ih.comp skips_skipToken

private theorem skips_newline : Skips fun p : List UInt8 ↦
    match p with
    | 10 :: rest => rest
    | rest => rest where
  suffix p := by
    split
    · exact List.suffix_cons 10 _
    · exact List.suffix_rfl
  take p room := by
    cases room with
    | zero => simp
    | succ room =>
      cases p with
      | nil => rfl
      | cons b p =>
        rw [List.take_succ_cons]
        by_cases hb : b = 10
        · subst hb
          simp
        · have h : ∀ q : List UInt8, (match b :: q with
              | 10 :: rest => rest
              | rest => rest) = b :: q := by
            intro q
            split
            · next he => exact absurd (List.cons.inj he).1 hb
            · rfl
          rw [h, h]
          simp

theorem skips_skipLine : Skips skipLine := skips_newline.comp (skips_dropWhile _)

end LibGTop.Linux
