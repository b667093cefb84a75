import LibGTop.Base.Scan
import Mathlib.Data.List.DropRight

/-!
# Formats of `sscanf`

`sscanf` on a C string: the directives of a format, and the objects of 32 bits that it
assigns, up to the first directive that fails. What `printf` writes for a number in
capital hexadecimal digits is read back, next to other digits by the width of the field.
-/

namespace LibGTop.Base

/-- A directive of a format. A number has its base, the width of its field and whether it is
assigned. -/
inductive Directive
  | blank
  | byte (b : UInt8)
  | number (base : Nat) (width : Option Nat) (assigned : Bool)
  | string
  deriving DecidableEq

/-- What a conversion has between its `%` and its letter. -/
structure Conversion where
  assigned : Bool := true
  width : Option Nat := none

/-- The directives of a format; `%s` is one that is not assigned. -/
def directives : Option Conversion → List Char → List Directive
  | none, [] => []
  | none, '%' :: format => directives (some {}) format
  | none, ' ' :: format => .blank :: directives none format
  | none, c :: format => .byte (UInt8.ofNat c.toNat) :: directives none format
  | some _, [] => []
  | some conversion, '*' :: format => directives (some { conversion with assigned := false }) format
  | some conversion, 'd' :: format =>
    .number 10 conversion.width conversion.assigned :: directives none format
  | some conversion, 'x' :: format =>
    .number 16 conversion.width conversion.assigned :: directives none format
  | some _, 's' :: format => .string :: directives none format
  | some conversion, c :: format =>
    let width := 10 * conversion.width.getD 0 + (c.toNat - 48)
    directives (some { conversion with width := some width }) format

/-- The text behind a hexadecimal prefix. -/
def behindMark (base : Nat) : List UInt8 → List UInt8
  | 48 :: x :: rest => if base = 16 ∧ isHexMark x then rest else 48 :: x :: rest
  | text => text

/-- The digits of a field behind its sign. -/
def scanfDigits (base : Nat) (negative : Bool) (field : List UInt8) : Option (Int × List UInt8) :=
  let text := behindMark base field
  let digits := text.takeWhile (isDigitIn base)
  if digits = [] then none
  else some (signed negative (digitsValue base digits), text.dropWhile (isDigitIn base))

/-- The number at the start of a field, and what is left of the field. -/
def scanfField (base : Nat) : List UInt8 → Option (Int × List UInt8)
  | 45 :: rest => scanfDigits base true rest
  | 43 :: rest => scanfDigits base false rest
  | rest => scanfDigits base false rest

/-- The number of `%d` and `%x`, behind blanks and no longer than its field. -/
def scanfNumber (base : Nat) (width : Option Nat) (text : List UInt8) :
    Option (Int × List UInt8) :=
  let text := text.dropWhile isSpace
  let size := width.getD text.length
  (scanfField base (text.take size)).map fun (value, rest) ↦ (value, rest ++ text.drop size)

/-- The object that is assigned for `%d` and for `%x`: the low 32 bits of what `strtol` and
`strtoul` give. -/
def assignedNumber (base : Nat) (value : Int) : BitVec 32 :=
  if base = 10 then BitVec.ofInt 32 (clampLong value) else (clampUnsigned value).setWidth 32

/-- The objects that `sscanf` assigns. -/
def sscanf : List Directive → List UInt8 → List (BitVec 32)
  | [], _ => []
  | .blank :: ds, text => sscanf ds (text.dropWhile isSpace)
  | .byte b :: ds, text => if text.head? = some b then sscanf ds text.tail else []
  | .string :: ds, text =>
    let word := text.dropWhile isSpace
    if word = [] then [] else sscanf ds (word.dropWhile fun b ↦ !isSpace b)
  | .number base width assigned :: ds, text =>
    match scanfNumber base width text with
    | none => []
    | some (value, rest) =>
      if assigned then assignedNumber base value :: sscanf ds rest else sscanf ds rest

/-- A capital hexadecimal digit. -/
def hexDigit (value : Nat) : UInt8 := UInt8.ofNat (if value < 10 then 48 + value else 55 + value)

/-- What `printf` writes for `%0nX`, `n` being the number of digits, and a number that has no
more. -/
def hexNumeral : Nat → Nat → List UInt8
  | 0, _ => []
  | count + 1, value => hexNumeral count (value / 16) ++ [hexDigit (value % 16)]

/-- The text does not go on with a digit of the base or with the mark of a prefix. -/
def EndsNumber (base : Nat) (text : List UInt8) : Prop :=
  ∀ b ∈ text.head?, isDigitIn base b = false ∧ isHexMark b = false

theorem EndsNumber.cons {base : Nat} {b : UInt8} (h : isDigitIn base b = false ∧ isHexMark b = false)
    (text : List UInt8) : EndsNumber base (b :: text) := by
  intro c hc
  obtain rfl := Option.mem_some_iff.mp hc
  exact h

theorem endsNumber_nil (base : Nat) : EndsNumber base [] := nofun

section

variable {base : Nat} {digits rest : List UInt8}

theorem not_isHexMark_of_isDigitIn (hbase : base ≤ 16) {b : UInt8} (h : isDigitIn base b = true) :
    isHexMark b = false := by
  by_contra hm
  rw [Bool.not_eq_false, isHexMark, Bool.or_eq_true, decide_eq_true_eq, decide_eq_true_eq] at hm
  rw [isDigitIn, decide_eq_true_eq] at h
  obtain rfl | rfl := hm
  · have hv : digitValue 120 = 33 := by decide
    omega
  · have hv : digitValue 88 = 33 := by decide
    omega

theorem behindMark_digits (hbase : base ≤ 16) (hd : ∀ b ∈ digits, isDigitIn base b)
    (hn : digits ≠ []) (hr : EndsNumber base rest) :
    behindMark base (digits ++ rest) = digits ++ rest := by
  unfold behindMark
  split
  · next x more he =>
    have hx : isHexMark x = false := by
      cases digits with
      | nil => exact absurd rfl hn
      | cons c digits =>
        cases digits with
        | nil =>
          rw [List.cons_append, List.nil_append] at he
          exact (hr x (by rw [(List.cons.inj he).2]; rfl)).2
        | cons c' digits =>
          have hc := (List.cons.inj (List.cons.inj he).2).1
          exact not_isHexMark_of_isDigitIn hbase
            (hc ▸ hd c' (List.mem_cons_of_mem _ List.mem_cons_self))
    rw [if_neg fun h ↦ absurd h.2 (by rw [hx]; exact Bool.false_ne_true), he]
  · rfl

theorem scanfDigits_digits (hbase : base ≤ 16) (negative : Bool)
    (hd : ∀ b ∈ digits, isDigitIn base b) (hn : digits ≠ []) (hr : EndsNumber base rest) :
    scanfDigits base negative (digits ++ rest) =
      some (signed negative (digitsValue base digits), rest) := by
  obtain ⟨htake, hdrop⟩ := splitDigits hd fun b hb ↦ (hr b hb).1
  rw [scanfDigits, behindMark_digits hbase hd hn hr]
  simp only [htake, hdrop, hn, if_false]

/-- A digit is neither a sign nor a blank. -/
theorem ne_of_isDigitIn (hbase : base ≤ 16) {b : UInt8} (h : isDigitIn base b = true) :
    b ≠ 45 ∧ b ≠ 43 ∧ isSpace b = false := by
  rw [isDigitIn, decide_eq_true_eq] at h
  have h48 : 48 ≤ b.toNat := le_of_digitValue_lt (by omega)
  refine ⟨?_, ?_, Bool.eq_false_iff.mpr (isSpace_of_digit h48)⟩
  · rintro rfl
    exact absurd h48 (by decide)
  · rintro rfl
    exact absurd h48 (by decide)

theorem scanfField_digits (hbase : base ≤ 16) (hd : ∀ b ∈ digits, isDigitIn base b)
    (hn : digits ≠ []) (hr : EndsNumber base rest) :
    scanfField base (digits ++ rest) = some ((digitsValue base digits : Int), rest) := by
  have hscan := scanfDigits_digits hbase false hd hn hr
  cases digits with
  | nil => exact absurd rfl hn
  | cons c digits =>
    obtain ⟨hm, hp, -⟩ := ne_of_isDigitIn hbase (hd c List.mem_cons_self)
    unfold scanfField
    split
    · next he => exact absurd (List.cons.inj he).1 hm
    · next he => exact absurd (List.cons.inj he).1 hp
    · exact hscan

/-- Where no digit is, no number is read. -/
theorem scanfField_none {b : UInt8} (hd : isDigitIn base b = false) (h : b ≠ 45 ∧ b ≠ 43 ∧ b ≠ 48)
    (rest : List UInt8) : scanfField base (b :: rest) = none := by
  have hmark : behindMark base (b :: rest) = b :: rest := by
    unfold behindMark
    split
    · next he => exact absurd (List.cons.inj he).1 h.2.2
    · rfl
  unfold scanfField
  split
  · next he => exact absurd (List.cons.inj he).1 h.1
  · next he => exact absurd (List.cons.inj he).1 h.2.1
  · rw [scanfDigits, hmark, List.takeWhile_cons_of_neg (by rw [hd]; exact Bool.false_ne_true)]
    exact if_pos rfl

/-- Digits do not start with a blank. -/
theorem head_digits (hbase : base ≤ 16) (hd : ∀ b ∈ digits, isDigitIn base b) (hn : digits ≠ []) :
    ∀ b ∈ (digits ++ rest).head?, isSpace b = false := by
  intro b hb
  cases digits with
  | nil => exact absurd rfl hn
  | cons c digits =>
    obtain rfl := Option.mem_some_iff.mp hb
    exact (ne_of_isDigitIn hbase (hd c List.mem_cons_self)).2.2

theorem dropWhile_blanks {blanks text : List UInt8} (hb : ∀ b ∈ blanks, isSpace b)
    (ht : ∀ b ∈ text.head?, isSpace b = false) : (blanks ++ text).dropWhile isSpace = text := by
  rw [List.dropWhile_append_of_pos hb]
  cases text with
  | nil => rfl
  | cons c text => rw [List.dropWhile_cons_of_neg (by rw [ht c rfl]; exact Bool.false_ne_true)]

/-- A number without a width is the one at the start of the text behind the blanks. -/
theorem scanfNumber_none {blanks text : List UInt8} (hb : ∀ b ∈ blanks, isSpace b)
    (ht : ∀ b ∈ text.head?, isSpace b = false) :
    scanfNumber base none (blanks ++ text) = scanfField base text := by
  rw [scanfNumber, dropWhile_blanks hb ht, Option.getD_none, List.take_length, List.drop_length]
  simp only [List.append_nil]
  exact Option.map_id'

/-- A number without a width is read up to what ends it. -/
theorem scanfNumber_digits (hbase : base ≤ 16) {blanks : List UInt8}
    (hb : ∀ b ∈ blanks, isSpace b) (hd : ∀ b ∈ digits, isDigitIn base b) (hn : digits ≠ [])
    (hr : EndsNumber base rest) :
    scanfNumber base none (blanks ++ (digits ++ rest)) =
      some ((digitsValue base digits : Int), rest) := by
  rw [← scanfField_digits hbase hd hn hr]
  exact scanfNumber_none hb (head_digits hbase hd hn)

/-- A number that fills its field is read whatever follows it. -/
theorem scanfNumber_field (hbase : base ≤ 16) {blanks : List UInt8}
    (hb : ∀ b ∈ blanks, isSpace b) (hd : ∀ b ∈ digits, isDigitIn base b) (hn : digits ≠ [])
    (rest : List UInt8) :
    scanfNumber base (some digits.length) (blanks ++ (digits ++ rest)) =
      some ((digitsValue base digits : Int), rest) := by
  have hfield : scanfField base digits = some ((digitsValue base digits : Int), []) := by
    conv_lhs => rw [← List.append_nil digits]
    exact scanfField_digits hbase hd hn (endsNumber_nil base)
  rw [scanfNumber, dropWhile_blanks hb (head_digits hbase hd hn), Option.getD_some, List.take_left,
    List.drop_left, hfield]
  rfl

end

theorem isDigitIn_of_mem_decimal {value : Nat} {b : UInt8} (h : b ∈ decimal value) :
    isDigitIn 10 b = true := by
  have hm := mem_decimal h
  rw [isDigitIn, digitValue_of_digit hm, decide_eq_true_eq]
  omega

/-- What `printf` writes for an integer is read back. -/
theorem scanfNumber_signedDecimal {blanks rest : List UInt8} (hb : ∀ b ∈ blanks, isSpace b)
    (value : Int) (hr : EndsNumber 10 rest) :
    scanfNumber 10 none (blanks ++ (signedDecimal value ++ rest)) = some (value, rest) := by
  have hd : ∀ b ∈ decimal value.natAbs, isDigitIn 10 b := fun _ ↦ isDigitIn_of_mem_decimal
  have hn := decimal_ne_nil value.natAbs
  by_cases hneg : value < 0
  · have hhead : ∀ b ∈ (45 :: (decimal value.natAbs ++ rest)).head?, isSpace b = false := by
      intro b hb
      obtain rfl := Option.mem_some_iff.mp hb
      decide
    have hscan : scanfField 10 (45 :: (decimal value.natAbs ++ rest)) = some (value, rest) := by
      change scanfDigits 10 true (decimal value.natAbs ++ rest) = _
      rw [scanfDigits_digits (by decide) true hd hn hr, digitsValue_decimal,
        ← decide_eq_true hneg, signed_natAbs]
    rw [signedDecimal, if_pos hneg, List.cons_append, scanfNumber_none hb hhead]
    exact hscan
  · rw [signedDecimal, if_neg hneg, scanfNumber_digits (by decide) hb hd hn hr,
      digitsValue_decimal, Int.natAbs_of_nonneg (by omega)]

theorem length_hexNumeral (count value : Nat) : (hexNumeral count value).length = count := by
  induction count generalizing value with
  | zero => rfl
  | succ count ih => rw [hexNumeral, List.length_append, ih, List.length_singleton]

theorem hexNumeral_ne_nil {count : Nat} (h : count ≠ 0) (value : Nat) :
    hexNumeral count value ≠ [] := by
  rw [← List.length_pos_iff, length_hexNumeral]
  omega

theorem digitValue_hexDigit : ∀ value < 16, digitValue (hexDigit value) = value := by decide

theorem isDigitIn_of_mem_hexNumeral {count value : Nat} {b : UInt8}
    (h : b ∈ hexNumeral count value) : isDigitIn 16 b = true := by
  induction count generalizing value with
  | zero => exact absurd h List.not_mem_nil
  | succ count ih =>
    obtain h | h := List.mem_append.mp h
    · exact ih h
    · obtain rfl := List.mem_singleton.mp h
      have hlt : value % 16 < 16 := Nat.mod_lt _ (by decide)
      rw [isDigitIn, digitValue_hexDigit _ hlt, decide_eq_true_eq]
      exact hlt

/-- The digits denote the number. -/
theorem digitsValue_hexNumeral {count value : Nat} (h : value < 16 ^ count) :
    digitsValue 16 (hexNumeral count value) = value := by
  induction count generalizing value with
  | zero =>
    rw [Nat.pow_zero] at h
    rw [hexNumeral, digitsValue, List.foldl_nil]
    omega
  | succ count ih =>
    have hhigh : value / 16 < 16 ^ count := by
      rw [Nat.pow_succ] at h
      exact Nat.div_lt_of_lt_mul (by omega)
    have hfold := ih hhigh
    rw [digitsValue] at hfold
    rw [hexNumeral, digitsValue, List.foldl_append, hfold, List.foldl_cons, List.foldl_nil,
      digitValue_hexDigit _ (Nat.mod_lt _ (by decide))]
    omega

/-- A number of as many bits as its digits have is read back from its field. -/
theorem scanfNumber_hexNumeral {blanks : List UInt8} (hb : ∀ b ∈ blanks, isSpace b) {count : Nat}
    (hc : count ≠ 0) {value : Nat} (hv : value < 16 ^ count) (rest : List UInt8) :
    scanfNumber 16 (some count) (blanks ++ (hexNumeral count value ++ rest)) =
      some ((value : Int), rest) := by
  have hscan := scanfNumber_field (by decide) hb (fun _ ↦ isDigitIn_of_mem_hexNumeral)
    (hexNumeral_ne_nil hc value) rest
  rwa [length_hexNumeral, digitsValue_hexNumeral hv] at hscan

section

variable {ds : List Directive}

theorem sscanf_byte (b : UInt8) (text : List UInt8) :
    sscanf (.byte b :: ds) (b :: text) = sscanf ds text := if_pos rfl

/-- Blanks of a format before a number do nothing. -/
theorem sscanf_blank_number (base : Nat) (width : Option Nat) (assigned : Bool)
    (text : List UInt8) :
    sscanf (.blank :: .number base width assigned :: ds) text =
      sscanf (.number base width assigned :: ds) text := by
  have hscan : scanfNumber base width (text.dropWhile isSpace) = scanfNumber base width text := by
    rw [scanfNumber, scanfNumber, List.dropWhile_idempotent]
  rw [sscanf, sscanf, sscanf, hscan]

/-- A word is skipped up to the blank behind it. -/
theorem sscanf_blank_string {blanks word : List UInt8} (hb : ∀ b ∈ blanks, isSpace b)
    (hn : word ≠ []) (hw : ∀ b ∈ word, isSpace b = false) {b : UInt8} (hs : isSpace b = true)
    (rest : List UInt8) :
    sscanf (.blank :: .string :: ds) (blanks ++ (word ++ b :: rest)) = sscanf ds (b :: rest) := by
  have hhead : ∀ c ∈ (word ++ b :: rest).head?, isSpace c = false := by
    intro c hc
    cases word with
    | nil => exact absurd rfl hn
    | cons d word =>
      obtain rfl := Option.mem_some_iff.mp hc
      exact hw d List.mem_cons_self
  have hword : ∀ c ∈ word, (!isSpace c) = true := fun c hc ↦ by rw [hw c hc]; rfl
  have htext := dropWhile_blanks hb hhead
  have hskip : (word ++ b :: rest).dropWhile (fun c ↦ !isSpace c) = b :: rest := by
    rw [List.dropWhile_append_of_pos hword, List.dropWhile_cons_of_neg (by rw [hs]; exact nofun)]
  have hne : word ++ b :: rest ≠ [] := List.append_ne_nil_of_left_ne_nil hn _
  rw [sscanf, sscanf, List.dropWhile_idempotent, htext, if_neg hne, hskip]

/-- A number that is read is skipped. -/
theorem sscanf_skipped {base : Nat} {text rest : List UInt8} {value : Int}
    (h : scanfNumber base none text = some (value, rest)) :
    sscanf (.number base none false :: ds) text = sscanf ds rest := by
  rw [sscanf, h]
  rfl

/-- A number that is read is assigned. -/
theorem sscanf_assigned {base : Nat} {width : Option Nat} {text rest : List UInt8} {value : Int}
    (h : scanfNumber base width text = some (value, rest)) :
    sscanf (.number base width true :: ds) text = assignedNumber base value :: sscanf ds rest := by
  rw [sscanf, h]
  rfl

/-- Nothing is assigned behind a number that is not read. -/
theorem sscanf_failed {base : Nat} {width : Option Nat} {assigned : Bool} {text : List UInt8}
    (h : scanfNumber base width text = none) :
    sscanf (.number base width assigned :: ds) text = [] := by
  rw [sscanf, h]

end

end LibGTop.Base
