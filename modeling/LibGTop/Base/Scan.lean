import LibGTop.Base.Numerals
import Mathlib.Data.List.TakeDrop

/-!
# Numbers in C strings

`strtol`, `strtoul` and `strtoull` with their end pointers, on the text from a
pointer up to its terminator, and what they read from the numerals that `printf`
writes. Where no digit is found the end pointer is the start.
-/

namespace LibGTop.Base

/-- A property of the bytes of a text is decided along the text. -/
instance (priority := high) decidableForallByte {p : UInt8 → Prop} [DecidablePred p]
    (text : List UInt8) : Decidable (∀ b ∈ text, p b) := List.decidableBAll p text

/-- `isspace` in the C locale. -/
def isSpace (b : UInt8) : Bool := b = 32 || (9 ≤ b && b ≤ 13)

/-- The byte is a space or a tab. -/
def isBlankByte (b : UInt8) : Bool := b = 32 || b = 9

/-- Blanks, or none. -/
abbrev Blanks := { gap : List UInt8 // ∀ b ∈ gap, isBlankByte b }

/-- One blank or more. -/
abbrev Gap := { gap : List UInt8 // gap ≠ [] ∧ ∀ b ∈ gap, isBlankByte b }

/-- The value of a digit or letter in the bases up to 36; 36 for any other byte. -/
def digitValue (b : UInt8) : Nat :=
  if 48 ≤ b && b ≤ 57 then b.toNat - 48
  else if 97 ≤ b && b ≤ 122 then b.toNat - 87
  else if 65 ≤ b && b ≤ 90 then b.toNat - 55
  else 36

/-- The byte is a digit in a base. -/
def isDigitIn (base : Nat) (b : UInt8) : Bool := digitValue b < base

/-- The number a list of digits denotes. -/
def digitsValue (base : Nat) (digits : List UInt8) : Nat :=
  digits.foldl (fun value b ↦ base * value + digitValue b) 0

/-- The byte of `'x'` or `'X'`. -/
def isHexMark (b : UInt8) : Bool := b = 120 || b = 88

/-- The base a number is read in and its text behind the prefix. Base 0 goes by the prefix, and a
hexadecimal prefix counts only before a hexadecimal digit. -/
def numberBase (base : Nat) (text : List UInt8) : Nat × List UInt8 :=
  match text with
  | 48 :: x :: d :: rest =>
    if (base = 0 ∨ base = 16) ∧ isHexMark x ∧ isDigitIn 16 d then (16, d :: rest)
    else (if base = 0 then 8 else base, text)
  | 48 :: _ => (if base = 0 then 8 else base, text)
  | _ => (if base = 0 then 10 else base, text)

/-- The digits behind the sign, with the sign: the sign, the magnitude and the rest; absent when
there is no digit. -/
def scanDigits (base : Nat) (negative : Bool) (text : List UInt8) :
    Option (Bool × Nat × List UInt8) :=
  let (base, text) := numberBase base text
  let digits := text.takeWhile (isDigitIn base)
  if digits = [] then none
  else some (negative, digitsValue base digits, text.dropWhile (isDigitIn base))

/-- What the conversions read behind blanks and a sign. -/
def scanNumber (base : Nat) (text : List UInt8) : Option (Bool × Nat × List UInt8) :=
  match text.dropWhile isSpace with
  | 45 :: rest => scanDigits base true rest
  | 43 :: rest => scanDigits base false rest
  | rest => scanDigits base false rest

/-- A number with its sign. -/
def signed (negative : Bool) (magnitude : Nat) : Int := if negative then -magnitude else magnitude

/-- `long`, held at the ends of its range. -/
def clampLong (value : Int) : Int := max (-(2 ^ 63)) (min (2 ^ 63 - 1) value)

/-- `unsigned long` or `unsigned long long`, held at the upper end of its range; a number with a
minus sign is negated in the range. -/
def clampUnsigned (value : Int) : BitVec 64 :=
  if 2 ^ 64 ≤ value.natAbs then -1 else BitVec.ofInt 64 value

/-- `strtol (text, &rest, base)`. -/
def strtol (base : Nat) (text : List UInt8) : Int × List UInt8 :=
  match scanNumber base text with
  | some (negative, magnitude, rest) => (clampLong (signed negative magnitude), rest)
  | none => (0, text)

/-- `strtoull (text, &rest, base)`, and `strtoul` where `long` has 64 bits. -/
def strtoull (base : Nat) (text : List UInt8) : BitVec 64 × List UInt8 :=
  match scanNumber base text with
  | some (negative, magnitude, rest) => (clampUnsigned (signed negative magnitude), rest)
  | none => (0, text)

/-- An `int` that is assigned a `long`. -/
def toInt32 (value : Int) : Int := (BitVec.ofInt 32 value).toInt

/-- What `printf` writes for `%u`, `%lu` or `%llu`. -/
def decimal (value : Nat) : List UInt8 := asciiBytes (numeral value)

/-- What `printf` writes for `%d`, `%ld` or `%lld`. -/
def signedDecimal (value : Int) : List UInt8 :=
  if value < 0 then 45 :: decimal value.natAbs else decimal value.natAbs

/-- The text does not go on with a digit or a letter. -/
def Stops (text : List UInt8) : Prop := ∀ b ∈ text.head?, digitValue b = 36

@[simp] theorem stops_nil : Stops [] := nofun

@[simp] theorem stops_cons (b : UInt8) (text : List UInt8) :
    Stops (b :: text) ↔ digitValue b = 36 := by
  simp [Stops]

theorem Stops.cons (b : UInt8) (h : digitValue b = 36) (text : List UInt8) : Stops (b :: text) :=
  (stops_cons b text).mpr h

instance : (text : List UInt8) → Decidable (Stops text)
  | [] => isTrue stops_nil
  | b :: text => decidable_of_iff _ (stops_cons b text).symm

/-- A byte of a decimal numeral. -/
theorem mem_decimal {value : Nat} {b : UInt8} (h : b ∈ decimal value) :
    48 ≤ b.toNat ∧ b.toNat ≤ 57 := by
  obtain ⟨c, hc, rfl⟩ := List.mem_map.mp h
  have hd := toNat_of_isDigit (isDigit_of_mem_numeral value hc)
  rw [UInt8.toNat_ofNat', Nat.mod_eq_of_lt (by omega)]
  exact hd

theorem notMem_decimal {b : UInt8} (h : b.toNat < 48) (value : Nat) : b ∉ decimal value := by
  intro hm
  have hd := mem_decimal hm
  omega

theorem signedDecimal_natCast (value : Nat) : signedDecimal value = decimal value := by
  rw [signedDecimal, if_neg (by omega), Int.natAbs_natCast]

theorem spaces_nil : ∀ b ∈ ([] : List UInt8), isSpace b := nofun

theorem spaces_replicate (count : Nat) : ∀ b ∈ List.replicate count (32 : UInt8), isSpace b := by
  intro b hb
  obtain rfl := (List.mem_replicate.mp hb).2
  decide

theorem spaces_singleton (b : UInt8) (h : isSpace b) : ∀ c ∈ [b], isSpace c :=
  List.forall_mem_singleton.mpr h

theorem isSpace_of_isBlankByte {b : UInt8} (h : isBlankByte b) : isSpace b := by
  simp only [isBlankByte, Bool.or_eq_true, decide_eq_true_eq] at h
  obtain rfl | rfl := h <;> decide

theorem ne_of_isBlankByte {b : UInt8} (h : isBlankByte b) : b ≠ 0 ∧ b ≠ 10 := by
  simp only [isBlankByte, Bool.or_eq_true, decide_eq_true_eq] at h
  obtain rfl | rfl := h <;> decide

theorem digitValue_of_digit {b : UInt8} (h : 48 ≤ b.toNat ∧ b.toNat ≤ 57) :
    digitValue b = b.toNat - 48 := by
  have hb : (48 ≤ b && b ≤ 57) = true := by
    simp only [Bool.and_eq_true, decide_eq_true_eq, UInt8.le_iff_toNat_le]
    exact h
  rw [digitValue, if_pos hb]

theorem decimal_ne_nil (value : Nat) : decimal value ≠ [] := by
  intro h
  exact numeral_ne_nil value (List.map_eq_nil_iff.mp h)

/-- The digits of a decimal numeral denote its number. -/
theorem digitsValue_decimal (value : Nat) : digitsValue 10 (decimal value) = value := by
  have hd : ∀ (cs : List Char) (init : Nat), (∀ c ∈ cs, c.isDigit) →
      (asciiBytes cs).foldl (fun value b ↦ 10 * value + digitValue b) init =
        Nat.ofDigitChars 10 cs init := by
    intro cs
    induction cs with
    | nil => exact fun _ _ ↦ rfl
    | cons c cs ih =>
      intro init h
      have hc := toNat_of_isDigit (h c List.mem_cons_self)
      have hb : (UInt8.ofNat c.toNat).toNat = c.toNat := by
        rw [UInt8.toNat_ofNat', Nat.mod_eq_of_lt (by omega)]
      have hv : digitValue (UInt8.ofNat c.toNat) = c.toNat - 48 := by
        rw [digitValue_of_digit (by rw [hb]; exact hc), hb]
      change (asciiBytes cs).foldl _ (10 * init + digitValue (UInt8.ofNat c.toNat)) = _
      rw [ih _ fun c hc ↦ h c (List.mem_cons_of_mem _ hc), hv]
      rfl
  rw [digitsValue, decimal, hd _ _ fun c hc ↦ isDigit_of_mem_numeral value hc]
  exact Nat.ofDigitChars_ten_toDigits

/-- A numeral starts with the digit zero only for zero. -/
theorem decimal_head (value : Nat) (h : value ≠ 0) (rest : List UInt8) :
    decimal value ≠ 48 :: rest := by
  have hd : ∀ (n : Nat), n ≠ 0 → ∃ c cs, numeral n = c :: cs ∧ c ≠ '0' := by
    intro n
    induction n using Nat.strongRecOn with
    | ind n ih =>
      intro hn
      by_cases h10 : n < 10
      · refine ⟨n.digitChar, [], Nat.toDigits_of_lt_base h10, ?_⟩
        exact (by decide : ∀ m < 10, m ≠ 0 → m.digitChar ≠ '0') n h10 hn
      · obtain ⟨c, cs, he, hc⟩ := ih (n / 10) (by omega) (by omega)
        refine ⟨c, cs ++ [(n % 10).digitChar], ?_, hc⟩
        rw [numeral, Nat.toDigits_of_base_le (by omega) (by omega)]
        exact congrArg (· ++ _) he
  obtain ⟨c, cs, he, hc⟩ := hd value h
  have hdig := toNat_of_isDigit (isDigit_of_mem_numeral value (he ▸ List.mem_cons_self))
  rw [decimal, he]
  intro hr
  have hb : UInt8.ofNat c.toNat = 48 := (List.cons.inj hr).1
  have hn : c.toNat = 48 := by
    have ht := congrArg UInt8.toNat hb
    rw [UInt8.toNat_ofNat', Nat.mod_eq_of_lt (by omega)] at ht
    exact ht
  apply hc
  rw [← Char.ofNat_toNat c, hn]

/-- The first digits of a numeral are the numeral of a quotient. -/
theorem take_decimal (value : Nat) {count : Nat} (h0 : 0 < count)
    (h : count ≤ (decimal value).length) :
    (decimal value).take count = decimal (value / 10 ^ ((decimal value).length - count)) := by
  induction value using Nat.strongRecOn with
  | ind value ih =>
    by_cases hc : count = (decimal value).length
    · rw [hc, List.take_length, Nat.sub_self, Nat.pow_zero, Nat.div_one]
    · by_cases h10 : value < 10
      · have hl : (decimal value).length = 1 := by
          rw [decimal, numeral, Nat.toDigits_of_lt_base h10]
          rfl
        omega
      · have hd : decimal value =
            decimal (value / 10) ++ asciiBytes [(value % 10).digitChar] := by
          rw [decimal, numeral, Nat.toDigits_of_base_le (by omega) (by omega)]
          exact List.map_append
        have hl : (decimal value).length = (decimal (value / 10)).length + 1 := by
          rw [hd, List.length_append]
          rfl
        have hi := ih (value / 10) (by omega) (by omega)
        have hp : (decimal (value / 10)).length + 1 - count =
            ((decimal (value / 10)).length - count) + 1 := by omega
        rw [hl, hp, Nat.pow_succ', ← Nat.div_div_eq_div_mul, ← hi, hd,
          List.take_append_of_le_length (by omega)]

/-- Digits end where there is no further one. -/
theorem splitDigits {radix : Nat} {digits rest : List UInt8} (hd : ∀ b ∈ digits, isDigitIn radix b)
    (hs : ∀ b ∈ rest.head?, isDigitIn radix b = false) :
    (digits ++ rest).takeWhile (isDigitIn radix) = digits ∧
      (digits ++ rest).dropWhile (isDigitIn radix) = rest := by
  rw [List.takeWhile_append_of_pos hd, List.dropWhile_append_of_pos hd]
  cases rest with
  | nil => exact ⟨List.append_nil digits, rfl⟩
  | cons b rest =>
    have hf : ¬isDigitIn radix b = true := by
      rw [hs b rfl]
      exact Bool.false_ne_true
    rw [List.takeWhile_cons_of_neg hf, List.dropWhile_cons_of_neg hf, List.append_nil]
    exact ⟨rfl, rfl⟩

theorem Stops.noDigit {radix : Nat} (hr : radix ≤ 36) {rest : List UInt8} (hs : Stops rest) :
    ∀ b ∈ rest.head?, isDigitIn radix b = false := by
  intro b hb
  have h36 := hs b hb
  rw [isDigitIn, decide_eq_false_iff_not]
  omega

/-- Digits are read up to what ends them. -/
theorem scanDigits_upTo {base radix : Nat} (negative : Bool) {digits rest : List UInt8}
    (hb : numberBase base (digits ++ rest) = (radix, digits ++ rest)) (hn : digits ≠ [])
    (hd : ∀ b ∈ digits, isDigitIn radix b) (hs : ∀ b ∈ rest.head?, isDigitIn radix b = false) :
    scanDigits base negative (digits ++ rest) =
      some (negative, digitsValue radix digits, rest) := by
  obtain ⟨ht, hdrop⟩ := splitDigits hd hs
  rw [scanDigits, hb]
  simp only [ht, hdrop, hn, if_false]

/-- Digits are read up to what stops them. -/
theorem scanDigits_of_digits {base radix : Nat} (negative : Bool) {digits rest : List UInt8}
    (hb : numberBase base (digits ++ rest) = (radix, digits ++ rest)) (hn : digits ≠ [])
    (hd : ∀ b ∈ digits, isDigitIn radix b) (hr : radix ≤ 36) (hs : Stops rest) :
    scanDigits base negative (digits ++ rest) =
      some (negative, digitsValue radix digits, rest) :=
  scanDigits_upTo negative hb hn hd (hs.noDigit hr)

/-- A decimal numeral has no prefix; in base 0 it is read as an octal one when it is zero. -/
theorem numberBase_decimal {base : Nat} (h : base = 0 ∨ base = 10) (value : Nat)
    {rest : List UInt8} (hs : Stops rest) :
    numberBase base (decimal value ++ rest) =
      (if base = 0 ∧ value = 0 then 8 else 10, decimal value ++ rest) := by
  by_cases hv : value = 0
  · subst hv
    change numberBase base (48 :: rest) = (_, 48 :: rest)
    unfold numberBase
    split
    · next x d rest' he =>
      obtain rfl := (List.cons.inj he).2
      have hx : ¬((base = 0 ∨ base = 16) ∧ isHexMark x = true ∧ isDigitIn 16 d = true) := by
        rintro ⟨-, hm, -⟩
        have h36 : digitValue x = 36 := (stops_cons x _).mp hs
        rw [isHexMark, Bool.or_eq_true, decide_eq_true_eq, decide_eq_true_eq] at hm
        obtain rfl | rfl := hm <;> exact absurd h36 (by decide)
      rw [if_neg hx]
      obtain rfl | rfl := h <;> rfl
    · obtain rfl | rfl := h <;> rfl
    · next hn => exact absurd rfl (hn rest)
  · unfold numberBase
    have hz : ∀ t, decimal value ++ rest ≠ 48 :: t := by
      intro t he
      cases hd : decimal value with
      | nil => exact decimal_ne_nil value hd
      | cons b bs =>
        rw [hd, List.cons_append] at he
        exact decimal_head value hv bs (hd.trans (by rw [(List.cons.inj he).1]))
    split
    · next he => exact absurd he (hz _)
    · next he => exact absurd he (hz _)
    · obtain rfl | rfl := h <;> simp [hv]

private theorem scanDigits_decimal {base : Nat} (h : base = 0 ∨ base = 10) (negative : Bool)
    (value : Nat) {rest : List UInt8} (hs : Stops rest) :
    scanDigits base negative (decimal value ++ rest) = some (negative, value, rest) := by
  have hb := numberBase_decimal h value hs
  by_cases hz : base = 0 ∧ value = 0
  · rw [if_pos hz] at hb
    obtain ⟨-, rfl⟩ := hz
    have hd : ∀ b ∈ decimal 0, isDigitIn 8 b := List.forall_mem_singleton.mpr (by decide)
    exact scanDigits_of_digits negative hb (decimal_ne_nil 0) hd (by omega) hs
  · rw [if_neg hz] at hb
    have hd : ∀ b ∈ decimal value, isDigitIn 10 b := by
      intro b hm
      have hm := mem_decimal hm
      rw [isDigitIn, digitValue_of_digit hm, decide_eq_true_eq]
      omega
    rw [scanDigits_of_digits negative hb (decimal_ne_nil value) hd (by omega) hs,
      digitsValue_decimal]

theorem isSpace_of_digit {b : UInt8} (h : 48 ≤ b.toNat) : ¬isSpace b = true := by
  simp only [isSpace, Bool.or_eq_true, Bool.and_eq_true, decide_eq_true_eq,
    UInt8.le_iff_toNat_le]
  rintro (rfl | ⟨-, hb⟩)
  · exact absurd h (by decide)
  · have h13 : b.toNat ≤ 13 := hb
    omega

/-- What `printf` writes for an integer is read back behind blanks, in base 10 and in base 0. -/
theorem scanNumber_signedDecimal {base : Nat} (h : base = 0 ∨ base = 10) {blanks : List UInt8}
    (hb : ∀ b ∈ blanks, isSpace b) (value : Int) {rest : List UInt8} (hs : Stops rest) :
    scanNumber base (blanks ++ (signedDecimal value ++ rest)) =
      some (decide (value < 0), value.natAbs, rest) := by
  rw [scanNumber, List.dropWhile_append_of_pos hb, signedDecimal]
  by_cases hn : value < 0
  · rw [if_pos hn, List.cons_append, List.dropWhile_cons_of_neg (by decide), decide_eq_true hn]
    exact scanDigits_decimal h true value.natAbs hs
  · rw [if_neg hn, decide_eq_false hn]
    cases hd : decimal value.natAbs with
    | nil => exact absurd hd (decimal_ne_nil _)
    | cons b digits =>
      have hm : b ∈ decimal value.natAbs := hd ▸ List.mem_cons_self
      have hr := scanDigits_decimal h false value.natAbs hs
      rw [hd, List.cons_append] at hr
      rw [List.cons_append, List.dropWhile_cons_of_neg (isSpace_of_digit (mem_decimal hm).1)]
      split
      · next he =>
        rw [(List.cons.inj he).1] at hm
        exact absurd (mem_decimal hm).1 (by decide)
      · next he =>
        rw [(List.cons.inj he).1] at hm
        exact absurd (mem_decimal hm).1 (by decide)
      · exact hr

/-- A number is its magnitude with its sign. -/
theorem signed_natAbs (value : Int) : signed (decide (value < 0)) value.natAbs = value := by
  unfold signed
  by_cases h : value < 0
  · rw [decide_eq_true h, if_pos rfl]
    omega
  · rw [decide_eq_false h, if_neg Bool.false_ne_true]
    omega

/-- Different integers are written differently. -/
theorem signedDecimal_inj {first second : Int} (h : signedDecimal first = signedDecimal second) :
    first = second := by
  have hs : ∀ value : Int, scanNumber 10 (signedDecimal value) =
      some (decide (value < 0), value.natAbs, []) := by
    intro value
    have hscan := @scanNumber_signedDecimal 10 (.inr rfl) [] (fun _ hb ↦ absurd hb List.not_mem_nil)
      value [] stops_nil
    rwa [List.nil_append, List.append_nil] at hscan
  have heq := Option.some.inj ((hs first).symm.trans ((congrArg _ h).trans (hs second)))
  obtain ⟨hneg, habs, -⟩ : _ ∧ _ ∧ _ := by simpa only [Prod.mk.injEq] using heq
  rw [← signed_natAbs first, hneg, habs, signed_natAbs]

theorem strtol_signedDecimal {base : Nat} (h : base = 0 ∨ base = 10) {blanks : List UInt8}
    (hb : ∀ b ∈ blanks, isSpace b) (value : Int) {rest : List UInt8} (hs : Stops rest) :
    strtol base (blanks ++ (signedDecimal value ++ rest)) = (clampLong value, rest) := by
  rw [strtol, scanNumber_signedDecimal h hb value hs]
  simp only [signed_natAbs]

theorem strtoull_signedDecimal {base : Nat} (h : base = 0 ∨ base = 10) {blanks : List UInt8}
    (hb : ∀ b ∈ blanks, isSpace b) (value : Int) {rest : List UInt8} (hs : Stops rest) :
    strtoull base (blanks ++ (signedDecimal value ++ rest)) = (clampUnsigned value, rest) := by
  rw [strtoull, scanNumber_signedDecimal h hb value hs]
  simp only [signed_natAbs]

/-- A number of 64 bits is held as it is. -/
theorem clampUnsigned_toNat (value : BitVec 64) : clampUnsigned value.toNat = value := by
  have hlt := value.isLt
  rw [clampUnsigned, if_neg (by omega), BitVec.ofInt_natCast]
  exact BitVec.ofNat_toNat _ _

theorem strtoull_decimal {base : Nat} (h : base = 0 ∨ base = 10) {blanks : List UInt8}
    (hb : ∀ b ∈ blanks, isSpace b) (value : Nat) {rest : List UInt8} (hs : Stops rest) :
    strtoull base (blanks ++ (decimal value ++ rest)) = (clampUnsigned value, rest) := by
  rw [← signedDecimal_natCast]
  exact strtoull_signedDecimal h hb value hs

theorem le_of_digitValue_lt {b : UInt8} (h : digitValue b < 36) : 48 ≤ b.toNat := by
  unfold digitValue at h
  split at h
  · next hd =>
    simp only [Bool.and_eq_true, decide_eq_true_eq, UInt8.le_iff_toNat_le] at hd
    exact hd.1
  · split at h
    · next hd =>
      simp only [Bool.and_eq_true, decide_eq_true_eq, UInt8.le_iff_toNat_le] at hd
      have h97 : 97 ≤ b.toNat := hd.1
      omega
    · split at h
      · next hd =>
        simp only [Bool.and_eq_true, decide_eq_true_eq, UInt8.le_iff_toNat_le] at hd
        have h65 : 65 ≤ b.toNat := hd.1
        omega
      · omega

/-- A hexadecimal number without a prefix is read behind blanks. -/
theorem strtoull_hex {blanks digits rest : List UInt8} (hb : ∀ b ∈ blanks, isSpace b)
    (hn : digits ≠ []) (hd : ∀ b ∈ digits, isDigitIn 16 b) (hs : Stops rest) :
    strtoull 16 (blanks ++ (digits ++ rest)) = (clampUnsigned (digitsValue 16 digits), rest) := by
  have hmark : ∀ b, isDigitIn 16 b = true ∨ digitValue b = 36 → ¬isHexMark b = true := by
    intro b hb hm
    rw [isHexMark, Bool.or_eq_true, decide_eq_true_eq, decide_eq_true_eq] at hm
    obtain rfl | rfl := hm <;> exact absurd hb (by decide)
  have hbase : numberBase 16 (digits ++ rest) = (16, digits ++ rest) := by
    unfold numberBase
    split
    · next x d more he =>
      have hx : ¬((16 = 0 ∨ 16 = 16) ∧ isHexMark x = true ∧ isDigitIn 16 d = true) := by
        rintro ⟨-, hm, -⟩
        refine hmark x ?_ hm
        cases digits with
        | nil => exact absurd rfl hn
        | cons c digits =>
          cases digits with
          | nil =>
            rw [List.cons_append, List.nil_append] at he
            exact .inr (hs x (by rw [(List.cons.inj he).2]; rfl))
          | cons c' digits =>
            have hc := (List.cons.inj (List.cons.inj he).2).1
            exact .inl (hc ▸ hd c' (List.mem_cons_of_mem _ List.mem_cons_self))
      rw [if_neg hx]
      rfl
    · rfl
    · rfl
  have hscan := scanDigits_of_digits false hbase hn hd (by omega) hs
  cases digits with
  | nil => exact absurd rfl hn
  | cons c digits =>
    have hc : isDigitIn 16 c = true := hd c List.mem_cons_self
    have h48 : 48 ≤ c.toNat := by
      rw [isDigitIn, decide_eq_true_eq] at hc
      exact le_of_digitValue_lt (by omega)
    have hnum : scanNumber 16 (blanks ++ (c :: digits ++ rest)) =
        some (false, digitsValue 16 (c :: digits), rest) := by
      rw [scanNumber, List.dropWhile_append_of_pos hb, List.cons_append,
        List.dropWhile_cons_of_neg (isSpace_of_digit h48)]
      split
      · next he =>
        rw [(List.cons.inj he).1] at h48
        exact absurd h48 (by decide)
      · next he =>
        rw [(List.cons.inj he).1] at h48
        exact absurd h48 (by decide)
      · exact hscan
    rw [strtoull, hnum]
    rfl

/-- A byte that starts no decimal number. -/
def startsNone (b : UInt8) : Bool := !isSpace b && b ≠ 45 && b ≠ 43 && 10 ≤ digitValue b

/-- Where no number starts, none is read. -/
theorem scanNumber_none {base : Nat} (h : base = 0 ∨ base = 10) {blanks rest : List UInt8}
    (hb : ∀ b ∈ blanks, isSpace b) (hr : ∀ b ∈ rest.head?, startsNone b) :
    scanNumber base (blanks ++ rest) = none := by
  rw [scanNumber, List.dropWhile_append_of_pos hb]
  cases rest with
  | nil => obtain rfl | rfl := h <;> rfl
  | cons b rest =>
    have hs : startsNone b = true := hr b rfl
    simp only [startsNone, Bool.and_eq_true, Bool.not_eq_true', decide_eq_true_eq] at hs
    obtain ⟨⟨⟨hsp, hm⟩, hp⟩, hd⟩ := hs
    have h48 : b ≠ 48 := by
      rintro rfl
      exact absurd hd (by decide)
    rw [List.dropWhile_cons_of_neg (by rw [hsp]; exact Bool.false_ne_true)]
    split
    · next he => exact absurd (List.cons.inj he).1 hm
    · next he => exact absurd (List.cons.inj he).1 hp
    · have hn : numberBase base (b :: rest) = (10, b :: rest) := by
        unfold numberBase
        split
        · next he => exact absurd (List.cons.inj he).1 h48
        · next he => exact absurd (List.cons.inj he).1 h48
        · obtain rfl | rfl := h <;> rfl
      have hd' : ¬isDigitIn 10 b = true := by
        rw [isDigitIn, decide_eq_true_eq]
        omega
      rw [scanDigits, hn]
      simp only [List.takeWhile_cons_of_neg hd', if_true]

theorem strtoull_none {base : Nat} (h : base = 0 ∨ base = 10) {text : List UInt8}
    (ht : ∀ b ∈ text.head?, startsNone b) : strtoull base text = (0, text) := by
  have hn := scanNumber_none h spaces_nil ht
  rw [List.nil_append] at hn
  rw [strtoull, hn]

/-- A byte that `%s` takes into a string. -/
def isStringByte (b : UInt8) : Bool := b ≠ 0 && !isSpace b

theorem ne_of_isStringByte {b : UInt8} (h : isStringByte b) : b ≠ 0 ∧ b ≠ 10 := by
  constructor
  · rintro rfl
    exact absurd h (by decide)
  · rintro rfl
    exact absurd h (by decide)

/-- `sscanf (text, "%s", string)`: the string behind the blanks and what follows it; absent when
there is none. -/
def scanString (text : List UInt8) : Option (List UInt8 × List UInt8) :=
  let rest := text.dropWhile isSpace
  let string := rest.takeWhile isStringByte
  if string = [] then none else some (string, rest.dropWhile isStringByte)

/-- A text that starts with a string or with blanks before one is not empty, and does not start
with its terminator. -/
theorem ne_nil_of_scanString {text : List UInt8} (h : (scanString text).isSome) :
    text ≠ [] ∧ text.head? ≠ some 0 := by
  constructor
  · rintro rfl
    exact absurd h (by decide)
  · intro h0
    cases text with
    | nil => exact absurd h0.symm (Option.some_ne_none 0)
    | cons b text =>
      obtain rfl := Option.some.inj h0
      have hd : (0 :: text).dropWhile isSpace = 0 :: text := List.dropWhile_cons_of_neg (by decide)
      have ht : (0 :: text).takeWhile isStringByte = [] := List.takeWhile_cons_of_neg (by decide)
      simp [scanString, hd, ht] at h

/-- A string is read behind blanks, up to what stops it. -/
theorem scanString_string {blanks string rest : List UInt8} (hb : ∀ b ∈ blanks, isSpace b)
    (hn : string ≠ []) (hs : ∀ b ∈ string, isStringByte b)
    (hr : ∀ b ∈ rest.head?, isStringByte b = false) :
    scanString (blanks ++ (string ++ rest)) = some (string, rest) := by
  have hd : (blanks ++ (string ++ rest)).dropWhile isSpace = string ++ rest := by
    rw [List.dropWhile_append_of_pos hb]
    cases string with
    | nil => exact absurd rfl hn
    | cons b string =>
      have hb := hs b List.mem_cons_self
      rw [isStringByte, Bool.and_eq_true, Bool.not_eq_true'] at hb
      rw [List.cons_append, List.dropWhile_cons_of_neg (by rw [hb.2]; exact Bool.false_ne_true)]
  have hrest : rest.takeWhile isStringByte = [] ∧ rest.dropWhile isStringByte = rest := by
    cases rest with
    | nil => exact ⟨rfl, rfl⟩
    | cons b rest =>
      have hf : ¬isStringByte b = true := by
        rw [hr b rfl]
        exact Bool.false_ne_true
      exact ⟨List.takeWhile_cons_of_neg hf, List.dropWhile_cons_of_neg hf⟩
  simp only [scanString, hd, List.takeWhile_append_of_pos hs, List.dropWhile_append_of_pos hs,
    hrest, List.append_nil, hn, if_false]

theorem scanString_blanks {blanks : List UInt8} (hb : ∀ b ∈ blanks, isSpace b) :
    scanString blanks = none := by
  have hd : blanks.dropWhile isSpace = [] := by
    have hd : (blanks ++ []).dropWhile isSpace = [].dropWhile isSpace :=
      List.dropWhile_append_of_pos hb
    rw [List.append_nil] at hd
    exact hd
  simp [scanString, hd]

end LibGTop.Base
