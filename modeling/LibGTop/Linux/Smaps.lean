import LibGTop.Linux.ProcMap

/-!
# The numbers of smaps

What the entries of `glibtop_get_proc_map_s` hold for a text of smaps as the
kernel writes it: for each mapping a header line and lines `Label:  <n> kB`. The
number is looked for from the colon on, where none is found, so a line with a
known label makes its field 0; a field without a line keeps what was in memory.
-/

namespace LibGTop.Linux

open Base

/-- The digits of a hexadecimal number. -/
structure HexDigits where
  digits : List UInt8
  digits_ne : digits ≠ []
  digits_hex : ∀ b ∈ digits, isDigitIn 16 b

/-- The number itself. -/
def HexDigits.value (h : HexDigits) : BitVec 64 := clampUnsigned (digitsValue 16 h.digits)

/-- The header line of a mapping; `rest` is what follows the blank behind the inode, the path of the
file among it. -/
structure MapHeader where
  start : HexDigits
  stop : HexDigits
  perms : List UInt8
  perms_length : perms.length = 4
  perms_token : ∀ b ∈ perms, isTokenByte b
  offset : HexDigits
  devMajor : HexDigits
  devMinor : HexDigits
  inode : Nat
  rest : List UInt8
  rest_line : 10 ∉ rest
  rest_noNul : 0 ∉ rest

/-- The text of a header line, without its newline. -/
def MapHeader.text (h : MapHeader) : List UInt8 :=
  h.start.digits ++ 45 :: (h.stop.digits ++ 32 :: (h.perms ++ 32 :: (h.offset.digits ++
    32 :: (h.devMajor.digits ++ 58 :: (h.devMinor.digits ++ 32 :: (decimal h.inode ++
      32 :: h.rest))))))

/-- A line with a label: `Label:  <n> kB`, or another one, whose label is none of an entry. -/
inductive ValueLine
  | number (field : SmapField) (blanks : Nat) (n : Nat)
  | other (label : List UInt8) (plain : ∀ b ∈ label, isTokenByte b ∧ ¬isSpace b ∧ b ≠ 58)
      (unknown : glibtopFindSmap label = none) (rest : List UInt8) (line : 10 ∉ rest)
      (noNul : 0 ∉ rest)

/-- The text of the line, without its newline. -/
def ValueLine.text : ValueLine → List UInt8
  | .number field blanks n =>
    field.label ++ 58 :: (List.replicate blanks 32 ++ (decimal n ++ asciiBytes " kB".toList))
  | .other label _ _ rest _ _ => label ++ 58 :: rest

/-- The number in a line, when it is that of a field. -/
def ValueLine.numberOf (field : SmapField) : ValueLine → Option Nat
  | .number field' _ n => if field' = field then some n else none
  | .other .. => none

/-- A mapping: its header line, and the lines behind it. -/
structure Block where
  header : MapHeader
  values : List ValueLine

/-- The number in the line of a field; the kernel writes one such line or none. -/
def Block.numberOf (b : Block) (field : SmapField) : Option Nat :=
  b.values.findSome? (ValueLine.numberOf field)

/-- The number of bytes that the line of a field gives, 0 without a line. -/
def Block.bytes (b : Block) (field : SmapField) : Nat :=
  match b.numberOf field with
  | some n => 1024 * n
  | none => 0

/-- The number in the line of a field is 0, or, without a line, what was in memory is. -/
def Block.Zero (b : Block) (memory : MapEntry) (field : SmapField) : Prop :=
  match b.numberOf field with
  | some n => n = 0
  | none => memory.value field = 0

instance (b : Block) (memory : MapEntry) (field : SmapField) : Decidable (b.Zero memory field) :=
  match h : b.numberOf field with
  | some n => decidable_of_iff (n = 0) (by rw [Block.Zero, h])
  | none => decidable_of_iff (memory.value field = 0) (by rw [Block.Zero, h])

/-- The lines of a block. -/
def Block.lines (b : Block) : List (List UInt8) := b.header.text :: b.values.map ValueLine.text

/-- The text of smaps. -/
def smapsText (blocks : List Block) : List UInt8 := text (blocks.flatMap Block.lines)

/-- The entries are those of the blocks, and in each of them a field that its flags name is 1024
times the number in the line of the field, or 0 when the block has no such line. -/
def ValuesRight (osVersionCode : Nat) (memory : Nat → MapEntry) (blocks : List Block)
    (maps : Option (List UInt8)) : Prop :=
  ∃ buf entries, glibtopGetProcMapS osVersionCode memory (some (smapsText blocks)) maps =
      (buf, some entries) ∧ entries.length = blocks.length ∧
    ∀ (k : Nat) (block : Block) (entry : MapEntry), blocks[k]? = some block →
      entries[k]? = some entry → ∀ field : SmapField, hasFlag entry.flags field.bit = true →
        (entry.value field).toNat = block.bytes field

theorem isSmapValue_blank {word : List UInt8} (h : ∀ b ∈ word, ¬isSpace b ∧ b ≠ 58)
    (rest : List UInt8) : isSmapValue (word ++ 32 :: rest) = none := by
  induction word with
  | nil => rfl
  | cons b word ih =>
    obtain ⟨⟨hs, hc⟩, hw⟩ := List.forall_mem_cons.mp h
    rw [List.cons_append, isSmapValue, if_neg hs, if_neg hc, ih hw]
    rfl

theorem isSmapValue_colon {word : List UInt8} (h : ∀ b ∈ word, ¬isSpace b ∧ b ≠ 58)
    (rest : List UInt8) : isSmapValue (word ++ 58 :: rest) = some (word, 58 :: rest) := by
  induction word with
  | nil => rfl
  | cons b word ih =>
    obtain ⟨⟨hs, hc⟩, hw⟩ := List.forall_mem_cons.mp h
    rw [List.cons_append, isSmapValue, if_neg hs, if_neg hc, ih hw]
    rfl

/-- A number is looked for at the colon, where there is none. -/
theorem getScaled_colon (rest : List UInt8) : getScaled (58 :: rest) none = 0 := by
  have hc : ∀ b ∈ (58 :: rest).head?, startsNone b := by
    intro b hb
    obtain rfl := Option.mem_some_iff.mp hb
    decide
  have hn : strtoull 0 (58 :: rest) = (0, 58 :: rest) := strtoull_none (.inl rfl) hc
  have hz : ∀ next, scale 0 next = 0 := by
    intro next
    induction next with
    | nil => rfl
    | cons b next ih =>
      rw [scale, ih]
      split
      · rfl
      · split <;> rfl
  simp only [getScaled, hn, hz]

theorem findSmap_label (field : SmapField) : glibtopFindSmap field.label = some field := by
  cases field <;> decide

namespace HexDigits

variable (h : HexDigits) {rest : List UInt8}

theorem strtoull_digits (hs : Stops rest) :
    strtoull 16 (h.digits ++ rest) = (h.value, rest) :=
  strtoull_hex spaces_nil h.digits_ne h.digits_hex hs

theorem strtoull_blank (hs : Stops rest) :
    strtoull 16 (32 :: (h.digits ++ rest)) = (h.value, rest) :=
  strtoull_hex (spaces_singleton 32 (by decide)) h.digits_ne h.digits_hex hs

theorem plain : ∀ b ∈ h.digits, ¬isSpace b ∧ b ≠ 58 ∧ b ≠ 0 ∧ b ≠ 10 := by
  intro b hb
  have hd := h.digits_hex b hb
  have h48 : 48 ≤ b.toNat := by
    rw [isDigitIn, decide_eq_true_eq] at hd
    exact le_of_digitValue_lt (by omega)
  refine ⟨isSpace_of_digit h48, ?_, ?_, ?_⟩
  · rintro rfl
    exact absurd hd (by decide)
  · rintro rfl
    exact absurd h48 (by decide)
  · rintro rfl
    exact absurd h48 (by decide)

end HexDigits

namespace MapHeader

variable (h : MapHeader)

/-- What `parse_line` finds in a header line. -/
def found : MapLine where
  start := h.start.value
  stop := h.stop.value
  flags := h.perms
  offset := h.offset.value
  devMajor := h.devMajor.value.setWidth 16
  devMinor := h.devMinor.value.setWidth 16
  inode := clampUnsigned h.inode
  filename := (nextToken (h.rest ++ [10])).takeWhile (· ≠ 10)

private theorem strtoull_inode (inode : Nat) (rest : List UInt8) :
    strtoull 10 (32 :: (decimal inode ++ 32 :: rest)) = (clampUnsigned inode, 32 :: rest) :=
  strtoull_decimal (.inr rfl) (spaces_singleton 32 (by decide)) inode (.cons 32 (by decide) rest)

/-- `parse_line` takes a header line to its parts. -/
theorem parseLine_text : parseLine (h.text ++ [10]) = some h.found := by
  have he : h.text ++ [10] = h.start.digits ++ 45 :: (h.stop.digits ++ 32 :: (h.perms ++
      32 :: (h.offset.digits ++ 32 :: (h.devMajor.digits ++ 58 :: (h.devMinor.digits ++
        32 :: (decimal h.inode ++ 32 :: (h.rest ++ [10]))))))) := by
    simp [text]
  have hperms : IsToken h.perms := by
    refine ⟨fun hn ↦ ?_, h.perms_token⟩
    have hl := h.perms_length
    rw [hn] at hl
    exact absurd hl (by decide)
  rw [parseLine, he, h.start.strtoull_digits (.cons 45 (by decide) _)]
  simp only [h.stop.strtoull_digits (.cons 32 (by decide) _), nextToken_blank, hperms.head,
    List.take_left' h.perms_length, List.drop_left' h.perms_length,
    h.offset.strtoull_blank (.cons 32 (by decide) _),
    h.devMajor.strtoull_blank (.cons 58 (by decide) _),
    h.devMinor.strtoull_digits (.cons 32 (by decide) _), strtoull_inode]
  rfl

/-- A header line is no value line. -/
theorem isSmapValue_text : isSmapValue (h.text ++ [10]) = none := by
  have hw : ∀ b ∈ h.start.digits ++ 45 :: h.stop.digits, ¬isSpace b ∧ b ≠ 58 := by
    intro b hb
    obtain hb | hb := List.mem_append.mp hb
    · exact ⟨(h.start.plain b hb).1, (h.start.plain b hb).2.1⟩
    · obtain rfl | hb := List.mem_cons.mp hb
      · decide
      · exact ⟨(h.stop.plain b hb).1, (h.stop.plain b hb).2.1⟩
  have he : h.text ++ [10] = (h.start.digits ++ 45 :: h.stop.digits) ++ 32 :: (h.perms ++
      32 :: (h.offset.digits ++ 32 :: (h.devMajor.digits ++ 58 :: (h.devMinor.digits ++
        32 :: (decimal h.inode ++ 32 :: (h.rest ++ [10])))))) := by
    simp [text]
  rw [he]
  exact isSmapValue_blank hw _

/-- A byte that no part of a header line has is not in it. -/
theorem notMem_text {c : UInt8} (hc : c = 0 ∨ c = 10) : c ∉ h.text := by
  have hx : ∀ x : HexDigits, c ∉ x.digits := by
    intro x hm
    obtain rfl | rfl := hc
    · exact (x.plain _ hm).2.2.1 rfl
    · exact (x.plain _ hm).2.2.2 rfl
  have hp : c ∉ h.perms := by
    intro hm
    have ht := h.perms_token c hm
    obtain rfl | rfl := hc <;> exact absurd ht (by decide)
  have hi : c ∉ decimal h.inode := notMem_decimal (by obtain rfl | rfl := hc <;> decide) h.inode
  have hr : c ∉ h.rest := by
    obtain rfl | rfl := hc
    · exact h.rest_noNul
    · exact h.rest_line
  obtain rfl | rfl := hc <;> simp [text, hx, hp, hi, hr]

end MapHeader

namespace ValueLine

/-- The label of a line. -/
def label : ValueLine → List UInt8
  | .number field _ _ => field.label
  | .other label .. => label

theorem label_plain (v : ValueLine) : ∀ b ∈ v.label, isTokenByte b ∧ ¬isSpace b ∧ b ≠ 58 := by
  cases v with
  | number field blanks n =>
    have hf : ∀ field : SmapField, ∀ b ∈ field.label, isTokenByte b ∧ ¬isSpace b ∧ b ≠ 58 := by
      intro field
      have ha : field.label.all (fun b ↦ isTokenByte b ∧ ¬isSpace b ∧ b ≠ 58) = true := by
        cases field <;> decide
      exact fun b hb ↦ of_decide_eq_true (List.all_eq_true.mp ha b hb)
    exact hf field
  | other label plain => exact plain

/-- The field a line is stored to. -/
def field : ValueLine → Option SmapField
  | .number field _ _ => some field
  | .other .. => none

/-- A value line makes its field 0. -/
theorem parseSmaps_text (v : ValueLine) (entry : MapEntry) :
    parseSmaps entry (v.text ++ [10]) = some (match v.field with
      | none => entry
      | some field => { entry with value := Function.update entry.value field 0 }) := by
  have hl : ∀ b ∈ v.label, ¬isSpace b ∧ b ≠ 58 := fun b hb ↦ (v.label_plain b hb).2
  cases v with
  | number field blanks n =>
    have he : ValueLine.text (.number field blanks n) ++ [10] = field.label ++ 58 ::
        (List.replicate blanks 32 ++ (decimal n ++ asciiBytes " kB".toList) ++ [10]) := by
      simp [text]
    have hf : ∀ b ∈ field.label, ¬isSpace b ∧ b ≠ 58 := hl
    rw [he, parseSmaps, isSmapValue_colon hf, Option.map_some]
    simp only [findSmap_label, getScaled_colon]
    rfl
  | other label plain unknown rest line noNul =>
    have he : ValueLine.text (.other label plain unknown rest line noNul) ++ [10] =
        label ++ 58 :: (rest ++ [10]) := by
      simp [text]
    have hp : ∀ b ∈ label, ¬isSpace b ∧ b ≠ 58 := hl
    rw [he, parseSmaps, isSmapValue_colon hp, Option.map_some]
    simp only [unknown]
    rfl

theorem isSmapValue_text (v : ValueLine) : (isSmapValue (v.text ++ [10])).isSome := by
  have he := v.parseSmaps_text ⟨0, 0, 0, 0, 0, 0, 0, [], fun _ ↦ 0⟩
  rw [parseSmaps] at he
  obtain ⟨parts, hp, -⟩ := Option.map_eq_some_iff.mp he
  exact hp ▸ rfl

theorem notMem_text (v : ValueLine) {c : UInt8} (hc : c = 0 ∨ c = 10) : c ∉ v.text := by
  have hl : c ∉ v.label := by
    intro hm
    have ht := (v.label_plain c hm).1
    obtain rfl | rfl := hc <;> exact absurd ht (by decide)
  cases v with
  | number field blanks n =>
    have hi : c ∉ decimal n := notMem_decimal (by obtain rfl | rfl := hc <;> decide) n
    have hk : c ∉ asciiBytes [' ', 'k', 'B'] := by
      obtain rfl | rfl := hc <;> decide
    have hf : c ∉ field.label := hl
    obtain rfl | rfl := hc <;> simp [text, hf, hi, hk]
  | other label plain unknown rest line noNul =>
    have hf : c ∉ label := hl
    have hr : c ∉ rest := by
      obtain rfl | rfl := hc
      · exact noNul
      · exact line
    obtain rfl | rfl := hc <;> simp [text, hf, hr]

end ValueLine

/-- An entry behind some of its value lines. -/
def cleared (entry : MapEntry) (values : List ValueLine) : MapEntry :=
  { entry with
    value := fun field ↦ if some field ∈ values.map ValueLine.field then 0 else entry.value field }

/-- One value line more. -/
theorem cleared_cons (entry : MapEntry) (v : ValueLine) (values : List ValueLine) :
    cleared entry (v :: values) = cleared (match v.field with
      | none => entry
      | some field => { entry with value := Function.update entry.value field 0 }) values := by
  cases hv : v.field with
  | none => simp [cleared, hv]
  | some field =>
    have he : (fun field' ↦ if some field' ∈ (v :: values).map ValueLine.field then 0
        else entry.value field') = fun field' ↦ if some field' ∈ values.map ValueLine.field then 0
          else Function.update entry.value field 0 field' := by
      funext field'
      by_cases hf : field' = field
      · simp [hf, hv]
      · simp [hf, hv]
    rw [cleared, he]
    rfl

/-- The value lines of a block are read into its entry, and the line behind them is left. -/
theorem readValues_block (entry : MapEntry) (values : List ValueLine) (rest : List (List UInt8))
    (hr : ∀ line ∈ rest.head?, isSmapValue (cString line) = none) :
    readValues entry (values.map (fun v ↦ v.text ++ [10]) ++ rest) =
      (cleared entry values, rest) := by
  induction values generalizing entry with
  | nil =>
    have he : cleared entry [] = entry := by
      simp [cleared]
    rw [he, List.map_nil, List.nil_append]
    cases rest with
    | nil => rfl
    | cons line rest =>
      have hn : parseSmaps entry (cString line) = none := by
        rw [parseSmaps, hr line rfl]
        rfl
      rw [readValues, hn]
  | cons v values ih =>
    have hz : (0 : UInt8) ∉ v.text ++ [10] := by
      simp [v.notMem_text (.inl rfl)]
    rw [List.map_cons, List.cons_append, readValues, cString_eq_self hz, v.parseSmaps_text]
    simp only [ih, cleared_cons]

/-- The entry of a block. -/
def Block.entry (b : Block) (memory : MapEntry) : MapEntry :=
  cleared (newEntry true memory b.header.found) b.values

/-- Every block gives its own entry. -/
theorem mapEntries_blocks (memory : Nat → MapEntry) (blocks : List Block) (added : Nat) :
    mapEntries true memory added ((blocks.flatMap Block.lines).map fun line ↦ line ++ [10]) =
      blocks.mapIdx fun k b ↦ b.entry (memory (added + k)) := by
  induction blocks generalizing added with
  | nil => rw [List.flatMap_nil, List.map_nil, mapEntries, List.mapIdx_nil]
  | cons b blocks ih =>
    have hz : (0 : UInt8) ∉ b.header.text ++ [10] := by
      simp [b.header.notMem_text (.inl rfl)]
    have hr : ∀ line ∈ ((blocks.flatMap Block.lines).map fun line ↦ line ++ [10]).head?,
        isSmapValue (cString line) = none := by
      cases blocks with
      | nil => exact fun _ hl ↦ absurd hl (Option.not_mem_none _)
      | cons b' blocks =>
        intro line hl
        obtain rfl := Option.mem_some_iff.mp hl
        have hz' : (0 : UInt8) ∉ b'.header.text ++ [10] := by
          simp [b'.header.notMem_text (.inl rfl)]
        rw [cString_eq_self hz']
        exact b'.header.isSmapValue_text
    have hread := readValues_block (newEntry true (memory added) b.header.found) b.values _ hr
    have hl : ((b :: blocks).flatMap Block.lines).map (fun line ↦ line ++ [10]) =
        (b.header.text ++ [10]) :: (b.values.map (fun v ↦ v.text ++ [10]) ++
          (blocks.flatMap Block.lines).map fun line ↦ line ++ [10]) := by
      simp [Block.lines]
    rw [hl, mapEntries, cString_eq_self hz, b.header.parseLine_text]
    have hk : ∀ k, added + 1 + k = added + (k + 1) := fun k ↦ by omega
    simp only [if_true, hread, ih, List.mapIdx_cons, Nat.add_zero, hk]
    rfl

theorem notMem_blocks (blocks : List Block) : ∀ line ∈ blocks.flatMap Block.lines, 10 ∉ line := by
  intro line hm
  obtain ⟨b, -, hm⟩ := List.mem_flatMap.mp hm
  obtain rfl | hm := List.mem_cons.mp hm
  · exact b.header.notMem_text (.inr rfl)
  · obtain ⟨v, -, rfl⟩ := List.mem_map.mp hm
    exact v.notMem_text (.inr rfl)

/-- The entries of a text of smaps. -/
theorem glibtopGetProcMapS_blocks {osVersionCode : Nat}
    (hv : linuxVersionCode 2 6 14 ≤ osVersionCode) (memory : Nat → MapEntry) (blocks : List Block)
    (maps : Option (List UInt8)) :
    ∃ buf, glibtopGetProcMapS osVersionCode memory (some (smapsText blocks)) maps =
      (buf, some (blocks.mapIdx fun k b ↦ b.entry (memory k))) := by
  have hl := notMem_blocks blocks
  have hm := mapEntries_blocks memory blocks 0
  simp only [Nat.zero_add] at hm
  simp only [glibtopGetProcMapS, hv, decide_true, if_true, smapsText, lines_text hl, hm]
  exact ⟨_, rfl⟩

theorem Block.numberOf_eq_none_iff (b : Block) (field : SmapField) :
    b.numberOf field = none ↔ some field ∉ b.values.map ValueLine.field := by
  have hv : ∀ v : ValueLine, v.numberOf field = none ↔ v.field ≠ some field := by
    intro v
    cases v with
    | number field' blanks n => simp [ValueLine.numberOf, ValueLine.field]
    | other => simp [ValueLine.numberOf, ValueLine.field]
  simp [Block.numberOf, List.findSome?_eq_none_iff, hv]

/-- All fields of smaps are named by the flags. -/
theorem Block.hasFlag_entry (b : Block) (memory : MapEntry) (field : SmapField) :
    hasFlag (b.entry memory).flags field.bit = true := by
  have hf : ∀ field : SmapField,
      hasFlag (sysdepsMapEntry ||| sysdepsMapEntrySmaps) field.bit = true := by
    intro field
    cases field <;> decide
  exact hf field

/-- A field of an entry is right when its number is 0, or, without a line, the memory was. -/
theorem Block.value_entry_iff (b : Block) (memory : MapEntry) (field : SmapField) :
    ((b.entry memory).value field).toNat = b.bytes field ↔ b.Zero memory field := by
  have hv : (b.entry memory).value field =
      if some field ∈ b.values.map ValueLine.field then 0 else memory.value field := rfl
  rw [hv, Block.bytes, Block.Zero]
  cases hn : b.numberOf field with
  | none =>
    rw [if_neg ((b.numberOf_eq_none_iff field).mp hn)]
    exact ⟨fun h ↦ BitVec.eq_of_toNat_eq h, fun h ↦ by rw [h]; rfl⟩
  | some n =>
    have hm : some field ∈ b.values.map ValueLine.field := by
      by_contra h
      rw [(b.numberOf_eq_none_iff field).mpr h] at hn
      exact absurd hn.symm (Option.some_ne_none n)
    rw [if_pos hm]
    change 0 = 1024 * n ↔ n = 0
    omega

section

variable {osVersionCode : Nat} {memory : Nat → MapEntry} {blocks : List Block}

private theorem getElem?_entries {k : Nat} {block : Block} (hb : blocks[k]? = some block) :
    (blocks.mapIdx fun k b ↦ b.entry (memory k))[k]? = some (block.entry (memory k)) := by
  rw [List.getElem?_mapIdx, hb, Option.map_some]

/-- Where the numbers are right they are 0. -/
theorem ValuesRight.zero {maps : Option (List UInt8)}
    (h : ValuesRight osVersionCode memory blocks maps)
    (hv : linuxVersionCode 2 6 14 ≤ osVersionCode) (k : Nat) {block : Block}
    (hb : blocks[k]? = some block) (field : SmapField) : block.Zero (memory k) field := by
  obtain ⟨buf, hmap⟩ := glibtopGetProcMapS_blocks hv memory blocks maps
  obtain ⟨buf', entries, he, -, hright⟩ := h
  rw [hmap] at he
  obtain ⟨-, he⟩ := Prod.mk.inj he
  obtain rfl := Option.some.inj he
  exact (block.value_entry_iff (memory k) field).mp
    (hright k block _ hb (getElem?_entries hb) field (block.hasFlag_entry _ _))

end

/-- The numbers of smaps are right exactly when all of them are 0, and the memory was where there
is no line for a field. -/
theorem smaps_values_iff (osVersionCode : Nat) (hv : linuxVersionCode 2 6 14 ≤ osVersionCode)
    (memory : Nat → MapEntry) (blocks : List Block) (maps : Option (List UInt8)) :
    ValuesRight osVersionCode memory blocks maps ↔
      ∀ (k : Nat) (block : Block), blocks[k]? = some block →
        ∀ field : SmapField, block.Zero (memory k) field := by
  constructor
  · exact fun h k block hb field ↦ h.zero hv k hb field
  · intro hzero
    obtain ⟨buf, hmap⟩ := glibtopGetProcMapS_blocks hv memory blocks maps
    refine ⟨buf, _, hmap, List.length_mapIdx, ?_⟩
    intro k block entry hb he field _
    rw [getElem?_entries hb] at he
    obtain rfl := Option.some.inj he
    exact (block.value_entry_iff (memory k) field).mpr (hzero k block hb field)

/-- A hexadecimal number of one digit. -/
private def oneDigit (b : UInt8) (h : isDigitIn 16 b = true) : HexDigits :=
  ⟨[b], List.cons_ne_nil _ _, List.forall_mem_singleton.mpr h⟩

/-- A mapping without a file. -/
def sampleHeader : MapHeader where
  start := oneDigit 56 (by decide)
  stop := oneDigit 57 (by decide)
  perms := asciiBytes "rw-p".toList
  perms_length := by decide
  perms_token := (by decide : IsToken (asciiBytes "rw-p".toList)).2
  offset := oneDigit 48 (by decide)
  devMajor := oneDigit 48 (by decide)
  devMinor := oneDigit 48 (by decide)
  inode := 0
  rest := []
  rest_line := List.not_mem_nil
  rest_noNul := List.not_mem_nil

/-- An entry in which every number has a value. -/
def sampleMemory (value : BitVec 64) : MapEntry :=
  ⟨0, 0, 0, 0, 0, 0, 0, [], fun _ ↦ value⟩

/-- A mapping that nothing is resident of, in memory that was cleared. -/
theorem smaps_values_iff_empty :
    ValuesRight (linuxVersionCode 6 1 0) (fun _ ↦ sampleMemory 0)
      [⟨sampleHeader, [.number .rss 20 0, .number .pss 20 0]⟩] none := by
  refine (smaps_values_iff (linuxVersionCode 6 1 0) (by decide) _ _ none).mpr ?_
  intro k block hb field
  cases k with
  | zero =>
    obtain rfl := Option.some.inj hb
    cases field <;> decide
  | succ k => exact absurd hb.symm (Option.some_ne_none block)

/-- A mapping of 4 kB is given none, and what is not in the file is whatever was in memory. -/
theorem smaps_values_zero :
    ¬ValuesRight (linuxVersionCode 6 1 0) (fun _ ↦ sampleMemory 0)
        [⟨sampleHeader, [.number .size 19 4]⟩] none ∧
      ¬ValuesRight (linuxVersionCode 6 1 0) (fun _ ↦ sampleMemory 7) [⟨sampleHeader, []⟩] none := by
  constructor
  · exact fun h ↦ absurd (h.zero (by decide) 0 rfl .size) (by decide)
  · exact fun h ↦ absurd (h.zero (by decide) 0 rfl .size) (by decide)

end LibGTop.Linux
