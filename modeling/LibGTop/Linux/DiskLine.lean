import LibGTop.Linux.CpuLine
import LibGTop.Linux.Disk

/-!
# A line of `/proc/diskstats`

The lines that the kernel writes for the block devices, and what `glibtop_get_disk_s`
finds in one of which the buffer may hold a part only.
-/

namespace LibGTop.Linux

open Base

/-- A line of `/proc/diskstats`: the numbers of the device with the blanks that are before them,
its name, and the columns. -/
structure DiskLine where
  lead : Nat
  major : BitVec 12
  gap : Nat
  minor : BitVec 20
  name : List UInt8
  values : List (BitVec 64)
  name_ne : name ≠ []
  isStringByte_name : ∀ b ∈ name, isStringByte b
  name_length : name.length < 256
  columns : 8 ≤ values.length

namespace DiskLine

variable (line : DiskLine)

/-- The line from the device name on. -/
def device (next : List UInt8) : List UInt8 := line.name ++ spaced (words line.values) (10 :: next)

/-- The line before what follows it. -/
def text (next : List UInt8) : List UInt8 :=
  List.replicate line.lead 32 ++ (decimal line.major.toNat ++ 32 :: (List.replicate line.gap 32 ++
    (decimal line.minor.toNat ++ 32 :: line.device next)))

/-- The size of what is before the device name. -/
def nameOffset : Nat :=
  line.lead + (decimal line.major.toNat).length + 1 + line.gap +
    (decimal line.minor.toNat).length + 1

/-- The size of the line. -/
def size : Nat := line.nameOffset + line.name.length + lineSize line.values

end DiskLine

/-- The times in the columns of a line; the columns it does not have are 0. -/
def diskTimes (values : List (BitVec 64)) : DiskTimes where
  sectorsRead := values.getD 2 0
  timeRead := values.getD 3 0
  sectorsWrite := values.getD 6 0
  timeWrite := values.getD 7 0

theorem isToken_of_isStringByte {word : List UInt8} (hn : word ≠ [])
    (h : ∀ b ∈ word, isStringByte b) : IsToken word := by
  refine ⟨hn, fun b hb ↦ ?_⟩
  have hs := h b hb
  simp only [isStringByte, isSpace, Bool.and_eq_true, Bool.not_eq_true', Bool.or_eq_false_iff,
    decide_eq_true_eq, decide_eq_false_iff_not] at hs
  obtain ⟨h0, h32, hr⟩ := hs
  have hn : ∀ c : UInt8, (9 ≤ c && c ≤ 13) = true → b ≠ c := by
    rintro c hc rfl
    exact absurd hc (by rw [hr]; exact Bool.false_ne_true)
  simp [isTokenByte, gAsciiIsspace, h0, h32, hn 9 (by decide), hn 10 (by decide),
    hn 12 (by decide), hn 13 (by decide)]

theorem nextToken_replicate (count : Nat) (p : List UInt8) :
    nextToken (List.replicate count 32 ++ p) = nextToken p := by
  have hb : ∀ b ∈ List.replicate count (32 : UInt8), gAsciiIsspace b = true := by
    intro b hb
    obtain rfl := (List.mem_replicate.mp hb).2
    decide
  exact List.dropWhile_append_of_pos hb

/-- A number with blanks before it and one blank behind it is skipped. -/
theorem skipToken_replicate (count value : Nat) (p : List UInt8) :
    skipToken (List.replicate count 32 ++ (decimal value ++ 32 :: p)) = nextToken p := by
  have hs : skipToken (List.replicate count 32 ++ (decimal value ++ 32 :: p)) =
      skipToken (decimal value ++ 32 :: p) := by
    rw [skipToken, nextToken_replicate, skipToken]
  rw [hs, skipToken_token (isToken_decimal value) (blank_cons (by decide) p), nextToken_blank]

/-- Nothing follows the numbers, but for blanks. -/
structure Ended (tail : List UInt8) : Prop where
  token : nextToken tail = []
  number : NoNumber 0 tail
  line : skipLine tail = []

theorem ended_nil : Ended [] := ⟨rfl, noNumber_nil (.inl rfl), rfl⟩

theorem ended_blank : Ended [32] := ⟨rfl, ⟨by decide, by decide, by decide⟩, rfl⟩

theorem words_drop (values : List (BitVec 64)) (count : Nat) :
    (words values).drop count = words (values.drop count) := List.map_drop.symm

section

variable {tail : List UInt8} {values : List (BitVec 64)} {p : List UInt8}

/-- `skip_token` goes one column on. -/
theorem at_skipToken_words (hb : Blank tail) (h : values ≠ [] ∨ Ended tail)
    (hp : At tail (words values) p) : At tail (words (values.drop 1)) (skipToken p) := by
  have he : words values ≠ [] ∨ nextToken tail = [] :=
    h.imp (fun hn he ↦ hn (List.map_eq_nil_iff.mp he)) Ended.token
  rw [← words_drop]
  exact at_skipToken_of hb he (isToken_words values) hp

/-- `strtoull` reads a column and goes to the next one. -/
theorem strtoull_column (hs : Stops tail) (h : values ≠ [] ∨ Ended tail)
    (hp : At tail (words values) p) :
    (strtoull 0 p).1 = values.headD 0 ∧ At tail (words (values.drop 1)) (strtoull 0 p).2 := by
  by_cases hv : values = []
  · have he := (h.resolve_left fun hn ↦ hn hv).number
    subst hv
    rw [strtoull, scanNumber_ended he hp]
    exact ⟨rfl, hp⟩
  · rw [strtoull_words_of hs hv hp]
    exact ⟨rfl, .before _⟩

/-- Behind a column the next line is where it is behind the numbers. -/
theorem skipLine_strtoull (hs : Stops tail) (h : values ≠ [] ∨ Ended tail)
    (hp : At tail (words values) p) : skipLine (strtoull 0 p).2 = skipLine tail := by
  by_cases hv : values = []
  · have he := h.resolve_left fun hn ↦ hn hv
    subst hv
    rw [strtoull, scanNumber_ended he.number hp, he.line]
    cases hp with
    | before => exact he.line
    | ended =>
      rw [he.token]
      rfl
  · rw [strtoull_words_of hs hv hp, skipLine_spaced]

/-- The columns behind a device name are read one after the other. -/
theorem readDisk_spaced (hb : Blank tail) (hs : Stops tail)
    (h : 8 ≤ values.length ∨ Ended tail) {name : List UInt8} (hn : IsToken name) :
    readDisk (name ++ spaced (words values) tail) = (diskTimes values, skipLine tail) := by
  have hd : ∀ count < 8, values.drop count ≠ [] ∨ Ended tail := by
    intro count hc
    refine h.imp_left fun hl he ↦ ?_
    have hz := List.drop_eq_nil_iff.mp he
    omega
  have h0 : At tail (words values) (skipToken (name ++ spaced (words values) tail)) := by
    rw [skipToken_token hn (blank_spaced hb _)]
    exact at_nextToken (isToken_words values)
  have h2 := at_skipToken_words hb (hd 1 (by omega)) (at_skipToken_words hb (hd 0 (by omega)) h0)
  rw [List.drop_drop] at h2
  obtain ⟨hv2, h3⟩ := strtoull_column hs (hd 2 (by omega)) h2
  rw [List.drop_drop] at h3
  obtain ⟨hv3, h4⟩ := strtoull_column hs (hd 3 (by omega)) h3
  have h5 := at_skipToken_words hb (hd 4 (by omega)) (by rw [List.drop_drop] at h4; exact h4)
  rw [List.drop_drop] at h5
  have h6 := at_skipToken_words hb (hd 5 (by omega)) h5
  rw [List.drop_drop] at h6
  obtain ⟨hv6, h7⟩ := strtoull_column hs (hd 6 (by omega)) h6
  rw [List.drop_drop] at h7
  obtain ⟨hv7, -⟩ := strtoull_column hs (hd 7 (by omega)) h7
  have hl := skipLine_strtoull hs (hd 7 (by omega)) h7
  simp only [headD_drop] at hv2 hv3 hv6 hv7
  simp only [readDisk, hv2, hv3, hv6, hv7, hl, diskTimes]

end

namespace DiskLine

variable (line : DiskLine) (next : List UInt8)

theorem length_text : (line.text next).length = line.nameOffset + (line.device next).length := by
  simp only [text, nameOffset, List.length_append, List.length_replicate, List.length_cons]
  omega

theorem length_device :
    (line.device next).length = line.name.length + lineSize line.values + next.length := by
  simp only [device, lineSize, spaced, List.length_append, List.length_cons, List.length_nil]
  omega

theorem length_text_eq : (line.text next).length = line.size + next.length := by
  have hl := line.length_text next
  have hd := line.length_device next
  rw [size]
  omega

theorem nextToken_device : nextToken (line.device next) = line.device next :=
  (isToken_of_isStringByte line.name_ne line.isStringByte_name).head _

theorem skipMultipleToken_text : skipMultipleToken (line.text next) 2 = line.device next := by
  have h2 : skipToken (nextToken (List.replicate line.gap 32 ++
      (decimal line.minor.toNat ++ 32 :: line.device next))) = line.device next := by
    have hm := (isToken_decimal line.minor.toNat).head (32 :: line.device next)
    rw [nextToken_replicate, hm]
    have hs := skipToken_replicate 0 line.minor.toNat (line.device next)
    rw [List.replicate_zero, List.nil_append, nextToken_device] at hs
    exact hs
  rw [skipMultipleToken, skipMultipleToken, skipMultipleToken, text, skipToken_replicate, h2]

/-- The device name in a line that is cut. -/
theorem skipMultipleToken_take (room : Nat) :
    skipMultipleToken ((line.text next).take room) 2 =
      (line.device next).take (room - line.nameOffset) := by
  have hs := (skips_skipMultipleToken 2).take (line.text next) room
  have hl := line.length_text next
  rw [skipMultipleToken_text] at hs
  rw [hs]
  congr 1
  omega

theorem notMem_text {next : List UInt8} (h : 0 ∉ next) : 0 ∉ line.text next := by
  have hn : ∀ value, 0 ∉ decimal value := notMem_decimal (by decide)
  have hname : 0 ∉ line.name := fun hm ↦ (ne_of_isStringByte (line.isStringByte_name 0 hm)).1 rfl
  simp [text, device, spaced, words, List.mem_replicate, hn, hname, h]

theorem skipLine_device : skipLine (line.device next) = next := by
  rw [device, skipLine_string line.isStringByte_name, skipLine_spaced]
  rfl

theorem skipLine_text : skipLine (line.text next) = next := by
  have hn : ∀ value, ∀ b ∈ decimal value, b ≠ 0 ∧ b ≠ 10 := by
    intro value b hb
    constructor
    · rintro rfl
      exact notMem_decimal (by decide) value hb
    · rintro rfl
      exact notMem_decimal (by decide) value hb
  have hs : ∀ count, ∀ b ∈ List.replicate count (32 : UInt8), b ≠ 0 ∧ b ≠ 10 := by
    intro count b hb
    obtain rfl := (List.mem_replicate.mp hb).2
    decide
  have h32 : ∀ p, skipLine (32 :: p) = skipLine p := skipLine_append (hs 1)
  rw [text, skipLine_append (hs _), skipLine_append (hn _), h32, skipLine_append (hs _),
    skipLine_append (hn _), h32, skipLine_device]

theorem size_pos : 0 < line.size := by
  rw [size, nameOffset]
  omega

/-- Behind its size a line goes on with what follows it. -/
theorem drop_text : (line.text next).drop line.size = next := by
  have hs := skips_skipLine.suffix (line.text next)
  rw [skipLine_text, List.suffix_iff_eq_drop, length_text_eq, Nat.add_sub_cancel] at hs
  exact hs.symm

/-- A line that is cut starts with a number, if it is not cut before it. -/
theorem isSome_scanString_take {room : Nat} (h : line.lead < room) :
    (scanString ((line.text next).take room)).isSome := by
  have hn : (decimal line.major.toNat).take (room - line.lead) ≠ [] := by
    intro he
    obtain h0 | hd := List.take_eq_nil_iff.mp he
    · omega
    · exact decimal_ne_nil _ hd
  have hd : ∀ b ∈ (decimal line.major.toNat).take (room - line.lead), isStringByte b := by
    intro b hb
    have h48 := (mem_decimal (List.mem_of_mem_take hb)).1
    have h0 : b ≠ 0 := by
      rintro rfl
      exact absurd h48 (by decide)
    rw [isStringByte, Bool.and_eq_true, Bool.not_eq_true', decide_eq_true_eq]
    exact ⟨h0, Bool.eq_false_of_not_eq_true (isSpace_of_digit h48)⟩
  have hr : ∀ rest count, ∀ b ∈ ((32 :: rest).take count).head?, isStringByte b = false := by
    intro rest count b hb
    cases count with
    | zero => exact absurd hb (Option.not_mem_none b)
    | succ count =>
      obtain rfl := Option.some.inj hb
      decide
  rw [text, List.take_append, List.take_append, List.length_replicate,
    List.take_of_length_le (by rw [List.length_replicate]; omega),
    scanString_string (spaces_replicate _) hn hd (hr _ _)]
  rfl

/-- A line that is cut before its first number is blank. -/
theorem scanString_take {room : Nat} (h : room ≤ line.lead) :
    scanString ((line.text next).take room) = none := by
  rw [text, List.take_append_of_le_length (by rw [List.length_replicate]; exact h),
    List.take_replicate, Nat.min_eq_left h]
  exact scanString_blanks (spaces_replicate room)

/-- Behind a line that is cut the text goes on where it does behind the line. -/
theorem skipLine_take (room : Nat) :
    skipLine ((line.device next).take room) =
      next.take (room - line.name.length - lineSize line.values) := by
  have hs := skips_skipLine.take (line.device next) room
  have hl := line.length_device next
  rw [skipLine_device] at hs
  rw [hs]
  congr 1
  omega

@[inherit_doc skipLine_take]
theorem skipLine_text_take (room : Nat) :
    skipLine ((line.text next).take room) = next.take (room - line.size) := by
  have hs := skips_skipLine.take (line.text next) room
  rw [skipLine_text, length_text_eq, Nat.add_sub_cancel] at hs
  exact hs

theorem device_take (room : Nat) :
    (line.device next).take room = line.name.take room ++
      spaced (words (cutValues (room - line.name.length) line.values))
        (cutTail (room - line.name.length) line.values next) := by
  rw [device, List.take_append, take_spaced]

/-- The name that is found in a line that is cut. -/
theorem deviceName_take (name : List UInt8) {room : Nat} (h : room ≠ 0) :
    deviceName name ((line.device next).take room) = line.name.take room := by
  have hn : line.name.take room ≠ [] := by
    intro he
    obtain h0 | hn := List.take_eq_nil_iff.mp he
    · exact h h0
    · exact line.name_ne hn
  have hb : ∀ b ∈ line.name.take room, isStringByte b := fun b hb ↦
    line.isStringByte_name b (List.mem_of_mem_take hb)
  have hr : ∀ b ∈ ((spaced (words line.values) (10 :: next)).take
      (room - line.name.length)).head?, isStringByte b = false := by
    intro b hb
    rw [List.head?_take] at hb
    split at hb
    · exact absurd hb (Option.not_mem_none b)
    · cases hv : line.values with
      | nil =>
        obtain rfl : 10 = b := by rw [hv] at hb; exact Option.some.inj hb
        decide
      | cons v values =>
        obtain rfl : 32 = b := by rw [hv, words_cons, spaced_cons] at hb; exact Option.some.inj hb
        decide
  have hs := @scanString_string [] _ _ spaces_nil hn hb hr
  rw [List.nil_append] at hs
  rw [deviceName, device, List.take_append, hs]
  rfl

/-- The columns and the next line in a line that is cut. -/
theorem readDisk_take (room : Nat) :
    readDisk ((line.device next).take room) =
      (diskTimes (cutValues (room - line.name.length) line.values),
        next.take (room - line.name.length - lineSize line.values)) := by
  have hl : skipLine (cutTail (room - line.name.length) line.values next) =
      next.take (room - line.name.length - lineSize line.values) := skipLine_cutTail _ _ _
  by_cases hr : room = 0
  · subst hr
    have hv : cutValues (0 - line.name.length) line.values = [] := by
      rw [Nat.zero_sub]
      cases line.values with
      | nil => rfl
      | cons v values => rw [cutValues, if_neg (by omega), if_pos (by omega)]
    rw [hv, Nat.zero_sub, Nat.zero_sub, List.take_zero, List.take_zero]
    decide
  · have hn : IsToken (line.name.take room) := by
      refine isToken_of_isStringByte ?_ fun b hb ↦ line.isStringByte_name b (List.mem_of_mem_take hb)
      intro he
      obtain h0 | hn := List.take_eq_nil_iff.mp he
      · exact hr h0
      · exact line.name_ne hn
    have hb := blank_cutTail (room - line.name.length) line.values next
    rw [device_take, ← hl]
    obtain ⟨count, h⟩ | h | h := cutTail_cases (room - line.name.length) line.values next
    · have hv := cutValues_of_newline h
      exact readDisk_spaced hb (h ▸ .cons 10 (by decide) _) (.inl (by rw [hv]; exact line.columns)) hn
    · exact readDisk_spaced hb (h ▸ by decide) (.inr (h ▸ ended_blank)) hn
    · exact readDisk_spaced hb (h ▸ stops_nil) (.inr (h ▸ ended_nil)) hn

end DiskLine

end LibGTop.Linux
