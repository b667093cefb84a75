import LibGTop.Base.Buffers
import Mathlib.Algebra.Order.Ring.Int
import Mathlib.Data.List.TakeWhile

/-!
# Decimal numerals in text

What `sscanf` with `%ld` and `atoi` read from a string, and the numerals that
`printf` writes. A string is the list of its characters or of its bytes.
-/

namespace LibGTop.Base

/-- The bytes of ASCII text. -/
def asciiBytes (text : List Char) : List UInt8 := text.map fun c ↦ UInt8.ofNat c.toNat

/-- The characters of ASCII bytes. -/
def asciiChars (bytes : List UInt8) : List Char := bytes.map fun b ↦ Char.ofNat b.toNat

/-- `sscanf (text, "%ld", …)`: leading blanks, a sign and digits, held at the ends of the range
of `long`; absent when no digit is found. -/
def scanLong (text : List Char) : Option Int :=
  let blank (c : Char) : Bool := c = ' ' || ('\t' ≤ c && c ≤ '\r')
  let unsigned (text : List Char) : Option Nat :=
    let digits := text.takeWhile Char.isDigit
    if digits = [] then none else some (Nat.ofDigitChars 10 digits 0)
  match text.dropWhile blank with
  | '-' :: rest => (unsigned rest).map fun value : Nat ↦ max (-(2 ^ 63)) (-(value : Int))
  | '+' :: rest => (unsigned rest).map fun value : Nat ↦ min (2 ^ 63 - 1) (value : Int)
  | rest => (unsigned rest).map fun value : Nat ↦ min (2 ^ 63 - 1) (value : Int)

/-- `atoi`, which keeps the low 32 bits of what `strtol` reads; zero when there is no digit. -/
def atoi (text : List UInt8) : Int :=
  (BitVec.ofInt 32 ((scanLong (asciiChars text)).getD 0)).toInt

/-- The numeral `printf` writes for `%d` and a number that is not negative. -/
def numeral (value : Nat) : List Char := Nat.toDigits 10 value

/-- The digits are the characters from 48 to 57. -/
theorem toNat_of_isDigit {c : Char} (h : c.isDigit) : 48 ≤ c.toNat ∧ c.toNat ≤ 57 :=
  Char.isDigit_iff_toNat.mp h

/-- Each character of a numeral is a digit. -/
theorem isDigit_of_mem_numeral (value : Nat) {c : Char} (h : c ∈ numeral value) : c.isDigit :=
  Nat.isDigit_of_mem_toDigits (by decide) (by decide) h

theorem numeral_ne_nil (value : Nat) : numeral value ≠ [] := Nat.toDigits_ne_nil

/-- Bytes written for ASCII characters are read as these characters. -/
theorem asciiChars_asciiBytes (text : List Char) (h : ∀ c ∈ text, c.toNat < 128) :
    asciiChars (asciiBytes text) = text := by
  rw [asciiChars, asciiBytes, List.map_map]
  conv_rhs => rw [← List.map_id text]
  apply List.map_congr_left
  intro c hc
  have hb := h c hc
  simp only [Function.comp_apply, UInt8.toNat_ofNat', id_eq]
  rw [Nat.mod_eq_of_lt (by omega), Char.ofNat_toNat]

private theorem not_blank_of_isDigit {c : Char} (h : c.isDigit) :
    (c = ' ' || ('\t' ≤ c && c ≤ '\r')) = false ∧ c ≠ '-' ∧ c ≠ '+' := by
  have hl := (toNat_of_isDigit h).1
  refine ⟨?_, ?_, ?_⟩
  · have hr : ¬c ≤ '\r' := fun hc ↦
      absurd (Nat.le_trans hl (UInt32.le_iff_toNat_le.mp hc)) (by decide)
    have hs : c ≠ ' ' := fun hc ↦ absurd (hc ▸ hl) (by decide)
    simp [hr, hs]
  · exact fun hc ↦ absurd (hc ▸ hl) (by decide)
  · exact fun hc ↦ absurd (hc ▸ hl) (by decide)

/-- A byte below the digits is not in a numeral. -/
theorem notMem_numeral (value : Nat) {b : UInt8} (h : b.toNat < 48) :
    b ∉ asciiBytes (numeral value) := by
  intro hb
  obtain ⟨c, hc, rfl⟩ := List.mem_map.mp hb
  have hd := toNat_of_isDigit (isDigit_of_mem_numeral value hc)
  rw [UInt8.toNat_ofNat', Nat.mod_eq_of_lt (by omega)] at h
  omega

/-- Digits are read as the number that they denote. -/
theorem scanLong_digits {digits : List Char} (hn : digits ≠ []) (hd : ∀ c ∈ digits, c.isDigit)
    (h : Nat.ofDigitChars 10 digits 0 < 2 ^ 63) :
    scanLong digits = some (Nat.ofDigitChars 10 digits 0 : Int) := by
  have ht : digits.takeWhile Char.isDigit = digits := List.takeWhile_eq_self_iff.2 hd
  cases digits with
  | nil => exact absurd rfl hn
  | cons c cs =>
    obtain ⟨hb, hm, hp⟩ := not_blank_of_isDigit (hd c List.mem_cons_self)
    rw [scanLong, List.dropWhile_cons_of_neg (by rw [hb]; exact Bool.false_ne_true)]
    split
    · next he => exact absurd (List.cons.inj he).1 hm
    · next he => exact absurd (List.cons.inj he).1 hp
    · change (if (c :: cs).takeWhile Char.isDigit = [] then none else _).map _ = _
      rw [ht, if_neg (List.cons_ne_nil c cs), Option.map_some]
      congr 1
      omega

/-- `atoi` reads digits as their number when an `int` holds it, and no digits as zero. -/
theorem atoi_digits {digits : List Char} (hd : ∀ c ∈ digits, c.isDigit)
    (h : Nat.ofDigitChars 10 digits 0 < 2 ^ 31) :
    atoi (asciiBytes digits) = Nat.ofDigitChars 10 digits 0 := by
  have ha : ∀ c ∈ digits, c.toNat < 128 := by
    intro c hc
    have hc := toNat_of_isDigit (hd c hc)
    omega
  have hread : (scanLong digits).getD 0 = Nat.ofDigitChars 10 digits 0 := by
    by_cases hn : digits = []
    · subst hn
      rfl
    · rw [scanLong_digits hn hd (by omega), Option.getD_some]
  rw [atoi, asciiChars_asciiBytes _ ha, hread, BitVec.toInt_ofInt, Int.bmod_def]
  split <;> omega

/-- `atoi` reads a numeral as its number when an `int` holds it. -/
theorem atoi_numeral (value : Nat) (h : value < 2 ^ 31) :
    atoi (asciiBytes (numeral value)) = value := by
  have hv : Nat.ofDigitChars 10 (numeral value) 0 = value := Nat.ofDigitChars_ten_toDigits
  rw [atoi_digits (fun c hc ↦ isDigit_of_mem_numeral value hc) (hv.symm ▸ h), hv]

end LibGTop.Base
