import LibGTop.Linux.Mountlist

/-!
# The records of `utab`

The format of `/run/mount/utab`: on each line a record of tokens `KEY=value`, with blanks
between them and octal escapes in the values. `ignore_fs` looks for the directories in
it with `strstr` and `strtok`, which ends a token at a space, not at a tab.
-/

namespace LibGTop.Linux

open Base

/-- A text with the octal escapes in it decoded. -/
def unmangle : List UInt8 → List UInt8
  | 92 :: a :: b :: c :: rest =>
    if isDigitIn 8 a && isDigitIn 8 b && isDigitIn 8 c then
      UInt8.ofNat (digitsValue 8 [a, b, c]) :: unmangle rest
    else 92 :: unmangle (a :: b :: c :: rest)
  | b :: rest => b :: unmangle rest
  | [] => []

/-- A byte of a token. -/
def isUtabByte (b : UInt8) : Bool := b ≠ 0 && b ≠ 9 && b ≠ 10 && b ≠ 32

/-- `KEY=value`, with the value as it is written. -/
structure UtabToken where
  key : List UInt8
  raw : List UInt8
  isKey : ∀ b ∈ key, isUtabByte b ∧ b ≠ 61
  isRaw : ∀ b ∈ raw, isUtabByte b

/-- The bytes of a token. -/
def UtabToken.text (token : UtabToken) : List UInt8 := token.key ++ 61 :: token.raw

/-- The value that is written. -/
def UtabToken.value (token : UtabToken) : List UInt8 := unmangle token.raw

/-- The tokens of a line: those that blanks follow, each with its blanks, and the one that the
newline follows, if it follows one. -/
structure UtabRecord where
  lead : Blanks
  initial : List (UtabToken × Gap)
  last : Option UtabToken

/-- A token in its line: the blanks before it, and what is behind it, the newline included. -/
structure UtabPlace where
  before : List UInt8
  token : UtabToken
  behind : List UInt8

namespace UtabRecord

/-- The tokens of a record. -/
def tokens (record : UtabRecord) : List UtabToken :=
  record.initial.map Prod.fst ++ record.last.toList

/-- The bytes of tokens and of what is between them. -/
def tokensText (last : Option UtabToken) : List (UtabToken × Gap) → List UInt8
  | [] => last.elim [] UtabToken.text
  | item :: initial => item.1.text ++ (item.2.1 ++ tokensText last initial)

/-- The line of a record, without the newline. -/
def line (record : UtabRecord) : List UInt8 :=
  record.lead.1 ++ tokensText record.last record.initial

/-- The places of tokens behind blanks. -/
def placesBehind (last : Option UtabToken) (before : List UInt8) :
    List (UtabToken × Gap) → List UtabPlace
  | [] => last.toList.map fun token ↦ ⟨before, token, [10]⟩
  | item :: initial =>
    ⟨before, item.1, item.2.1 ++ (tokensText last initial ++ [10])⟩ ::
      placesBehind last item.2.1 initial

/-- The places of the tokens of a record. -/
def places (record : UtabRecord) : List UtabPlace :=
  placesBehind record.last record.lead.1 record.initial

end UtabRecord

/-- The text of the records. -/
def utabText (records : List UtabRecord) : List UInt8 := text (records.map UtabRecord.line)

/-- The key of the directory, without the sign behind it. -/
def targetWord : List UInt8 := asciiBytes ['T', 'A', 'R', 'G', 'E', 'T']

/-- The key of the options. -/
def optsWord : List UInt8 := asciiBytes ['O', 'P', 'T', 'S']

/-- The option is somewhere in the keys and the written values. -/
def UtabRecord.Mentions (record : UtabRecord) : Prop :=
  ∃ token ∈ record.tokens, hideOption <:+: token.key ∨ hideOption <:+: token.raw

namespace UtabPlace

/-- The token starts its line, or a space is directly before it. -/
def Apart (place : UtabPlace) : Prop := place.before.getLastD 32 = 32

instance (place : UtabPlace) : Decidable place.Apart :=
  inferInstanceAs (Decidable (place.before.getLastD 32 = 32))

/-- The value as it is written, and what is behind it before the next space. -/
def written (place : UtabPlace) : List UInt8 := place.token.raw ++ place.behind.takeWhile (· != 32)

/-- A space is directly behind the token, and also directly before it if it does not start its line,
and no escapes are in its value. -/
structure Clear (place : UtabPlace) : Prop where
  apart : place.Apart
  space : place.behind.head? = some 32
  value_eq : place.token.value = place.token.raw

end UtabPlace

section

variable {b : UInt8}

theorem ne_of_isUtabByte (h : isUtabByte b) : b ≠ 10 ∧ b ≠ 32 := by
  constructor
  · rintro rfl
    exact absurd h (by decide)
  · rintro rfl
    exact absurd h (by decide)

theorem UtabToken.isUtabByte_of_mem (token : UtabToken) (h : b ∈ token.text) :
    isUtabByte b := by
  obtain hk | hr := List.mem_append.mp h
  · exact (token.isKey b hk).1
  · obtain rfl | hr := List.mem_cons.mp hr
    · decide
    · exact token.isRaw b hr

theorem UtabToken.newline_notMem (token : UtabToken) : 10 ∉ token.text := fun h ↦
  (ne_of_isUtabByte (token.isUtabByte_of_mem h)).1 rfl

theorem UtabToken.space_notMem (token : UtabToken) : 32 ∉ token.text := fun h ↦
  (ne_of_isUtabByte (token.isUtabByte_of_mem h)).2 rfl

/-- A text without blanks has no byte of a gap. -/
theorem notMem_of_isBlankByte {key : List UInt8} (h9 : 9 ∉ key) (h32 : 32 ∉ key)
    (h : isBlankByte b) : b ∉ key := by
  rw [isBlankByte, Bool.or_eq_true, decide_eq_true_eq, decide_eq_true_eq] at h
  obtain rfl | rfl := h
  · exact h32
  · exact h9

end

theorem newline_notMem_blanks {gap : List UInt8} (h : ∀ b ∈ gap, isBlankByte b) : 10 ∉ gap :=
  fun hm ↦ absurd (h 10 hm) (by decide)

theorem UtabRecord.newline_notMem_tokensText (last : Option UtabToken)
    (initial : List (UtabToken × Gap)) : 10 ∉ tokensText last initial := by
  induction initial with
  | nil =>
    cases last with
    | none => exact List.not_mem_nil
    | some token => exact token.newline_notMem
  | cons item initial ih =>
    rw [tokensText, List.mem_append, List.mem_append]
    rintro (h | h | h)
    · exact item.1.newline_notMem h
    · exact newline_notMem_blanks item.2.2.2 h
    · exact ih h

theorem UtabRecord.newline_notMem_line (record : UtabRecord) : 10 ∉ record.line := by
  rw [line, List.mem_append]
  rintro (h | h)
  · exact newline_notMem_blanks record.lead.2 h
  · exact newline_notMem_tokensText record.last record.initial h

/-- The lines that `getline` delivers. -/
theorem lines_utabText (records : List UtabRecord) :
    lines (utabText records) = records.map fun record ↦ record.line ++ [10] := by
  have hn : ∀ line ∈ records.map UtabRecord.line, 10 ∉ line := by
    intro line h
    obtain ⟨record, -, rfl⟩ := List.mem_map.mp h
    exact record.newline_notMem_line
  rw [utabText, lines_text hn, List.map_map]
  rfl

theorem UtabRecord.map_placesBehind (last : Option UtabToken) (before : List UInt8)
    (initial : List (UtabToken × Gap)) :
    (placesBehind last before initial).map UtabPlace.token =
      initial.map Prod.fst ++ last.toList := by
  induction initial generalizing before with
  | nil => cases last <;> rfl
  | cons item initial ih =>
    rw [placesBehind, List.map_cons, ih]
    rfl

/-- Each token has its place. -/
theorem UtabRecord.mem_tokens_iff {record : UtabRecord} {token : UtabToken} :
    token ∈ record.tokens ↔ ∃ place ∈ record.places, place.token = token := by
  rw [tokens, ← map_placesBehind record.last record.lead.1 record.initial, List.mem_map]
  rfl

/-- A token has the key exactly when it starts with the key and the sign. -/
theorem targetKey_prefix_iff (token : UtabToken) (rest : List UInt8) :
    targetKey <+: token.text ++ rest ↔ token.key = targetWord := by
  have hkey : targetKey = targetWord ++ [61] := rfl
  have hsplit : token.text ++ rest = token.key ++ 61 :: (token.raw ++ rest) := by
    rw [UtabToken.text, List.append_assoc, List.cons_append]
  rw [hkey, hsplit]
  constructor
  · rintro ⟨more, hm⟩
    rw [List.append_assoc, List.singleton_append] at hm
    have hk : 61 ∉ token.key := fun h ↦ (token.isKey 61 h).2 rfl
    exact (eq_of_append_cons_eq (by decide) hk hm).symm
  · intro h
    rw [h, ← List.singleton_append, ← List.append_assoc]
    exact List.prefix_append _ _

theorem targetKey_ne_nil : targetKey ≠ [] := List.cons_ne_nil _ _

/-- What is read where a token is. -/
theorem keyedAt_targetKey (token : UtabToken) (rest : List UInt8) :
    keyedAt 32 targetKey (token.text ++ rest) =
      if token.key = targetWord then [token.text ++ rest.takeWhile (· != 32)] else [] := by
  have hbytes := bne_of_notMem token.space_notMem
  by_cases hk : token.key = targetWord
  · rw [keyedAt, if_pos (List.isPrefixOf_iff_prefix.mpr ((targetKey_prefix_iff token rest).mpr hk)),
      if_pos hk, List.takeWhile_append_of_pos hbytes]
  · have hp := mt List.isPrefixOf_iff_prefix.mp (mt (targetKey_prefix_iff token rest).mp hk)
    rw [keyedAt, if_neg hp, if_neg hk]

/-- What is read at a place. -/
def UtabPlace.keyed (place : UtabPlace) : List (List UInt8) :=
  if place.Apart then keyedAt 32 targetKey (place.token.text ++ place.behind) else []

/-- What is read of the tokens behind blanks is what is read at their places. -/
theorem keyed_tokensText (last : Option UtabToken) {before : List UInt8}
    (initial : List (UtabToken × Gap)) :
    (if before.getLastD 32 = 32 then
        keyedAt 32 targetKey (UtabRecord.tokensText last initial ++ [10]) else []) ++
      keyedBehind 32 targetKey (UtabRecord.tokensText last initial ++ [10]) =
        (UtabRecord.placesBehind last before initial).flatMap UtabPlace.keyed := by
  have hkey : ∀ gap : Gap, ∀ b ∈ gap.1, b ∉ targetKey := fun gap b hb ↦
    notMem_of_isBlankByte (by decide) (by decide) (gap.2.2 b hb)
  have hat : keyedAt 32 targetKey [10] = [] := by decide
  have hbehind : keyedBehind 32 targetKey [10] = [] := by decide
  induction initial generalizing before with
  | nil =>
    cases last with
    | none =>
      rw [UtabRecord.tokensText, Option.elim_none, List.nil_append, hat, ite_self]
      exact hbehind
    | some token =>
      rw [UtabRecord.tokensText, Option.elim_some, keyedBehind_append token.space_notMem, hbehind,
        List.append_nil, UtabRecord.placesBehind]
      exact (List.append_nil _).symm
  | cons item initial ih =>
    have hgap := keyedBehind_gap targetKey_ne_nil (by decide : (32 : UInt8) ∉ targetKey)
      item.2.2.1 (hkey item.2) (UtabRecord.tokensText last initial ++ [10])
    rw [UtabRecord.tokensText, List.append_assoc, List.append_assoc,
      keyedBehind_append item.1.space_notMem, hgap, ih, UtabRecord.placesBehind,
      List.flatMap_cons]
    rfl

/-- What is read of a line is what is read at its places. -/
theorem keyed_line (record : UtabRecord) :
    keyed 32 targetKey (record.line ++ [10]) = record.places.flatMap UtabPlace.keyed := by
  rw [UtabRecord.line, List.append_assoc, keyed_gap targetKey_ne_nil (by decide) fun b hb ↦
    notMem_of_isBlankByte (by decide) (by decide) (record.lead.2 b hb)]
  exact keyed_tokensText record.last record.initial

/-- The directory that is read at a place. -/
theorem mem_map_keyed_iff (place : UtabPlace) (dir : List UInt8) :
    dir ∈ place.keyed.map (List.drop 7) ↔
      place.token.key = targetWord ∧ place.Apart ∧ place.written = dir := by
  rw [UtabPlace.keyed, keyedAt_targetKey]
  by_cases ha : place.Apart
  · by_cases hk : place.token.key = targetWord
    · have hdrop : (place.token.text ++ place.behind.takeWhile (· != 32)).drop 7 =
          place.written := by
        rw [UtabToken.text, hk]
        rfl
      rw [if_pos ha, if_pos hk, List.map_singleton, List.mem_singleton, hdrop, and_iff_right hk,
        and_iff_right ha, eq_comm]
    · rw [if_pos ha, if_neg hk]
      exact iff_of_false List.not_mem_nil fun h ↦ hk h.1
  · rw [if_neg ha]
    exact iff_of_false List.not_mem_nil fun h ↦ ha h.2.1

theorem hideOption_ne_nil : hideOption ≠ [] := List.cons_ne_nil _ _

theorem UtabToken.hideOption_infix_iff (token : UtabToken) :
    hideOption <:+: token.text ↔ hideOption <:+: token.key ∨ hideOption <:+: token.raw :=
  infix_append_cons hideOption_ne_nil (by decide) token.key token.raw

theorem hideOption_infix_tokensText_iff (last : Option UtabToken)
    (initial : List (UtabToken × Gap)) :
    hideOption <:+: UtabRecord.tokensText last initial ↔
      ∃ token ∈ initial.map Prod.fst ++ last.toList, hideOption <:+: token.text := by
  induction initial with
  | nil =>
    cases last with
    | none => exact iff_of_false (mt List.infix_nil.mp hideOption_ne_nil) (by simp)
    | some token => exact (by simp [UtabRecord.tokensText])
  | cons item initial ih =>
    obtain ⟨c, gap, hgap⟩ := List.exists_cons_of_ne_nil item.2.2.1
    have hkey : ∀ b ∈ c :: gap, b ∉ hideOption := fun b hb ↦
      notMem_of_isBlankByte (by decide) (by decide) (item.2.2.2 b (hgap ▸ hb))
    rw [UtabRecord.tokensText, hgap, List.cons_append,
      infix_append_cons hideOption_ne_nil (hkey c List.mem_cons_self),
      infix_append_of_notMem hideOption_ne_nil fun b hb ↦ hkey b (List.mem_cons_of_mem c hb), ih,
      List.map_cons, List.cons_append, List.exists_mem_cons_iff]

/-- The option is somewhere in the line exactly when it is in a key or a value. -/
theorem hideOption_infix_line_iff (record : UtabRecord) :
    hideOption <:+: record.line ++ [10] ↔ record.Mentions := by
  have hnil : ¬hideOption <:+: ([] : List UInt8) := mt List.infix_nil.mp hideOption_ne_nil
  rw [infix_append_cons hideOption_ne_nil (by decide), or_iff_left hnil, UtabRecord.line,
    infix_append_of_notMem hideOption_ne_nil fun b hb ↦
      notMem_of_isBlankByte (by decide) (by decide) (record.lead.2 b hb),
    hideOption_infix_tokensText_iff, UtabRecord.Mentions]
  exact exists_congr fun token ↦ and_congr_right fun _ ↦ token.hideOption_infix_iff

/-- The directories of a record are those that are read at its places, where the option is
anywhere. -/
theorem mem_ignoredDirs_line_iff (record : UtabRecord) (dir : List UInt8) :
    dir ∈ ignoredDirs (record.line ++ [10]) ↔ record.Mentions ∧
      ∃ place ∈ record.places,
        place.token.key = targetWord ∧ place.Apart ∧ place.written = dir := by
  rw [ignoredDirs, ← hideOption_infix_line_iff, ← isSome_strstr]
  split
  · next h =>
    rw [and_iff_right h, ← keyed, keyed_line, List.map_flatMap, List.mem_flatMap]
    simp only [mem_map_keyed_iff]
  · next h => exact iff_of_false List.not_mem_nil fun hw ↦ h hw.1

/-- The directories of all records. -/
theorem mem_ignoredDirs_iff (records : List UtabRecord) (dir : List UInt8) :
    dir ∈ (lines (utabText records)).flatMap ignoredDirs ↔
      ∃ record ∈ records, record.Mentions ∧ ∃ place ∈ record.places,
        place.token.key = targetWord ∧ place.Apart ∧ place.written = dir := by
  rw [lines_utabText, List.mem_flatMap]
  simp only [List.mem_map, exists_exists_and_eq_and, mem_ignoredDirs_line_iff]

end LibGTop.Linux
