import LibGTop.Base.Scan
import Mathlib.Tactic.Ring

/-!
# Numbers with a prefix

What `strtoull` reads in base 0, where a leading zero makes a number octal and `0x`
hexadecimal, and how the numbers compare that digits denote in two bases.
-/

namespace LibGTop.Base

theorem foldl_digits (base init : Nat) (digits : List UInt8) :
    digits.foldl (fun value b ↦ base * value + digitValue b) init =
      init * base ^ digits.length + digitsValue base digits := by
  induction digits generalizing init with
  | nil => simp [digitsValue]
  | cons b digits ih =>
    rw [digitsValue, List.foldl_cons, List.foldl_cons, ih, ih (base * 0 + digitValue b),
      List.length_cons, pow_succ]
    ring

/-- The first digit counts for what the others leave. -/
theorem digitsValue_cons (base : Nat) (b : UInt8) (digits : List UInt8) :
    digitsValue base (b :: digits) =
      digitValue b * base ^ digits.length + digitsValue base digits := by
  rw [digitsValue, List.foldl_cons, foldl_digits, Nat.mul_zero, Nat.zero_add]

/-- In a larger base digits denote no smaller number. -/
theorem digitsValue_mono {low high : Nat} (h : low ≤ high) (digits : List UInt8) :
    digitsValue low digits ≤ digitsValue high digits := by
  induction digits with
  | nil => exact le_rfl
  | cons b digits ih =>
    rw [digitsValue_cons, digitsValue_cons]
    have hp := Nat.mul_le_mul_left (digitValue b) (Nat.pow_le_pow_left h digits.length)
    omega

/-- The first digits denote no larger number. -/
theorem digitsValue_le_of_isPrefix {base : Nat} (h : 1 ≤ base) {start digits : List UInt8}
    (hp : start <+: digits) : digitsValue base start ≤ digitsValue base digits := by
  obtain ⟨rest, rfl⟩ := hp
  have ha : digitsValue base (start ++ rest) =
      digitsValue base start * base ^ rest.length + digitsValue base rest := by
    rw [digitsValue, List.foldl_append, foldl_digits]
    rfl
  have hm := Nat.le_mul_of_pos_right (digitsValue base start)
    (Nat.pow_pos h : 0 < base ^ rest.length)
  omega

/-- Only the zero has the value 0. -/
theorem digitValue_pos {b : UInt8} (h : b ≠ 48) : 0 < digitValue b := by
  have hn : b.toNat ≠ 48 := fun he ↦ h (UInt8.toNat_inj.mp he)
  unfold digitValue
  split
  · next hd =>
    simp only [Bool.and_eq_true, decide_eq_true_eq, UInt8.le_iff_toNat_le] at hd
    have h48 : (48 : UInt8).toNat = 48 := rfl
    omega
  split
  · next hd =>
    simp only [Bool.and_eq_true, decide_eq_true_eq, UInt8.le_iff_toNat_le] at hd
    have h97 : (97 : UInt8).toNat = 97 := rfl
    omega
  split
  · next hd =>
    simp only [Bool.and_eq_true, decide_eq_true_eq, UInt8.le_iff_toNat_le] at hd
    have h65 : (65 : UInt8).toNat = 65 := rfl
    omega
  · omega

theorem toNat_clampUnsigned_min (value : Nat) :
    (clampUnsigned value).toNat = min value (2 ^ 64 - 1) := by
  rw [clampUnsigned]
  split
  · next h =>
    rw [Int.natAbs_natCast] at h
    rw [Nat.min_eq_right (by omega)]
    rfl
  · next h =>
    rw [Int.natAbs_natCast] at h
    rw [BitVec.ofInt_natCast, BitVec.toNat_ofNat, Nat.mod_eq_of_lt (by omega),
      Nat.min_eq_left (by omega)]

/-- Digits that start a text, in a base that goes with their prefix. -/
theorem scanNumber_digits {radix : Nat} {b : UInt8} {digits rest : List UInt8}
    (hb : numberBase 0 (b :: digits ++ rest) = (radix, b :: digits ++ rest))
    (hd : ∀ c ∈ b :: digits, isDigitIn radix c) (hr : radix ≤ 36)
    (hs : ∀ c ∈ rest.head?, isDigitIn radix c = false) :
    scanNumber 0 (b :: digits ++ rest) =
      some (false, digitsValue radix (b :: digits), rest) := by
  have h48 : 48 ≤ b.toNat := by
    have hb := hd b List.mem_cons_self
    rw [isDigitIn, decide_eq_true_eq] at hb
    exact le_of_digitValue_lt (by omega)
  have hscan := scanDigits_upTo false hb (List.cons_ne_nil _ _) hd hs
  rw [List.cons_append] at hscan ⊢
  rw [scanNumber, List.dropWhile_cons_of_neg (isSpace_of_digit h48)]
  split
  · next he =>
    rw [(List.cons.inj he).1] at h48
    exact absurd h48 (by decide)
  · next he =>
    rw [(List.cons.inj he).1] at h48
    exact absurd h48 (by decide)
  · exact hscan

section

variable {digits rest : List UInt8}

/-- A byte that is neither an octal digit nor the mark of a hexadecimal prefix. -/
def endsOctal (b : UInt8) : Bool := !isDigitIn 8 b && !isHexMark b

theorem endsOctal_of_digitValue {b : UInt8} (h : 8 ≤ digitValue b) (hx : digitValue b ≠ 33) :
    endsOctal b = true := by
  have hm : isHexMark b = false := by
    rw [isHexMark, Bool.or_eq_false_iff, decide_eq_false_iff_not, decide_eq_false_iff_not]
    constructor
    · rintro rfl
      exact hx (by decide)
    · rintro rfl
      exact hx (by decide)
  rw [endsOctal, isDigitIn, hm, decide_eq_false (by omega)]
  rfl

/-- Digits behind a zero are octal. -/
theorem strtoull_octal (hd : ∀ c ∈ digits, isDigitIn 8 c) (hs : ∀ c ∈ rest.head?, endsOctal c) :
    strtoull 0 (48 :: digits ++ rest) = (clampUnsigned (digitsValue 8 digits), rest) := by
  have hmark : ∀ c ∈ (digits ++ rest).head?, isHexMark c = false := by
    intro c hc
    cases digits with
    | nil =>
      have he := hs c hc
      rw [endsOctal, Bool.and_eq_true, Bool.not_eq_true', Bool.not_eq_true'] at he
      exact he.2
    | cons d digits =>
      obtain rfl := Option.some.inj hc
      have hd := hd d List.mem_cons_self
      rw [isHexMark, Bool.or_eq_false_iff, decide_eq_false_iff_not, decide_eq_false_iff_not]
      constructor
      · rintro rfl
        exact absurd hd (by decide)
      · rintro rfl
        exact absurd hd (by decide)
  have hbase : numberBase 0 (48 :: digits ++ rest) = (8, 48 :: digits ++ rest) := by
    unfold numberBase
    split
    · next x d more he =>
      have he : digits ++ rest = x :: d :: more := (List.cons.inj he).2
      have hx := hmark x (by rw [he]; rfl)
      rw [if_neg fun h ↦ absurd h.2.1 (by rw [hx]; exact Bool.false_ne_true)]
      rfl
    · rfl
    · next hn => exact absurd rfl (hn (digits ++ rest))
  have hall : ∀ c ∈ 48 :: digits, isDigitIn 8 c := List.forall_mem_cons.mpr ⟨by decide, hd⟩
  have hend : ∀ c ∈ rest.head?, isDigitIn 8 c = false := by
    intro c hc
    have he := hs c hc
    rw [endsOctal, Bool.and_eq_true, Bool.not_eq_true'] at he
    exact he.1
  have hv : digitsValue 8 (48 :: digits) = digitsValue 8 digits := by
    have h0 : digitValue 48 = 0 := by decide
    rw [digitsValue_cons, h0, Nat.zero_mul, Nat.zero_add]
  rw [strtoull, scanNumber_digits hbase hall (by omega) hend, hv]
  rfl

/-- Digits without a zero before them are decimal. -/
theorem strtoull_nonzero {b : UInt8} (h0 : b ≠ 48) (hd : ∀ c ∈ b :: digits, isDigitIn 10 c)
    (hs : Stops rest) :
    strtoull 0 (b :: digits ++ rest) = (clampUnsigned (digitsValue 10 (b :: digits)), rest) := by
  have hbase : numberBase 0 (b :: digits ++ rest) = (10, b :: digits ++ rest) := by
    unfold numberBase
    split
    · next he => exact absurd (List.cons.inj he).1 h0
    · next he => exact absurd (List.cons.inj he).1 h0
    · rfl
  rw [strtoull, scanNumber_digits hbase hd (by omega) (hs.noDigit (by omega))]
  rfl

/-- Hexadecimal digits behind `0x`. -/
theorem strtoull_prefixed (hn : digits ≠ []) (hd : ∀ c ∈ digits, isDigitIn 16 c)
    (hs : Stops rest) :
    strtoull 0 (48 :: 120 :: digits ++ rest) = (clampUnsigned (digitsValue 16 digits), rest) := by
  cases digits with
  | nil => exact absurd rfl hn
  | cons d digits =>
    have hmark : (0 = 0 ∨ 0 = 16) ∧ isHexMark 120 = true ∧ isDigitIn 16 d = true :=
      ⟨.inl rfl, by decide, hd d List.mem_cons_self⟩
    have hbase : numberBase 0 (48 :: 120 :: d :: digits ++ rest) = (16, d :: digits ++ rest) := by
      rw [List.cons_append, List.cons_append, List.cons_append, numberBase, if_pos hmark]
    obtain ⟨ht, hdrop⟩ := splitDigits hd (hs.noDigit (by omega))
    have hscan : scanNumber 0 (48 :: 120 :: d :: digits ++ rest) =
        some (false, digitsValue 16 (d :: digits), rest) := by
      rw [List.cons_append] at hbase ⊢
      rw [scanNumber, List.dropWhile_cons_of_neg (by decide)]
      change scanDigits 0 false (48 :: (120 :: d :: digits ++ rest)) = _
      rw [scanDigits, hbase]
      simp only [ht, hdrop, List.cons_ne_nil, if_false]
    rw [strtoull, hscan]
    rfl

/-- The octal digits that decimal digits start with. -/
theorem octalPart (hd : ∀ c ∈ digits, isDigitIn 10 c) (hs : Stops rest) :
    ∃ octal others, digits = octal ++ others ∧ (∀ c ∈ octal, isDigitIn 8 c) ∧
      ∀ c ∈ (others ++ rest).head?, endsOctal c := by
  refine ⟨digits.takeWhile (isDigitIn 8), digits.dropWhile (isDigitIn 8),
    List.takeWhile_append_dropWhile.symm, fun c hc ↦ List.mem_takeWhile_imp hc, ?_⟩
  cases ht : digits.dropWhile (isDigitIn 8) with
  | nil =>
    intro c hc
    rw [List.nil_append] at hc
    have h36 := hs c hc
    exact endsOctal_of_digitValue (by omega) (by omega)
  | cons d others =>
    intro c hc
    obtain rfl := Option.some.inj hc
    have hm : d ∈ digits := (List.dropWhile_suffix _).subset (ht ▸ List.mem_cons_self)
    have h8 := List.head?_dropWhile_not (isDigitIn 8) digits
    rw [ht] at h8
    have h10 := hd d hm
    simp only [List.head?_cons, isDigitIn, decide_eq_false_iff_not, decide_eq_true_eq] at h8 h10
    exact endsOctal_of_digitValue (by omega) (by omega)

/-- Decimal digits are read as no larger number than they denote, also where a zero makes them
octal. -/
theorem strtoull_digits_le (hd : ∀ c ∈ digits, isDigitIn 10 c) (hn : digits ≠ [])
    (hs : Stops rest) : (strtoull 0 (digits ++ rest)).1.toNat ≤ digitsValue 10 digits := by
  cases digits with
  | nil => exact absurd rfl hn
  | cons b digits =>
    by_cases h0 : b = 48
    · subst h0
      obtain ⟨octal, others, rfl, ho, hstop⟩ := octalPart (List.forall_mem_cons.mp hd).2 hs
      have hle : digitsValue 8 octal ≤ digitsValue 10 (48 :: (octal ++ others)) := by
        have h0 : digitValue 48 = 0 := by decide
        rw [digitsValue_cons, h0, Nat.zero_mul, Nat.zero_add]
        exact le_trans (digitsValue_mono (by omega) octal)
          (digitsValue_le_of_isPrefix (by omega) (List.prefix_append octal others))
      have hread := strtoull_octal ho hstop
      rw [List.cons_append, List.append_assoc, ← List.cons_append, hread, toNat_clampUnsigned_min]
      exact le_trans (Nat.min_le_left _ _) hle
    · rw [strtoull_nonzero h0 hd hs, toNat_clampUnsigned_min]
      exact Nat.min_le_left _ _

end

end LibGTop.Base
