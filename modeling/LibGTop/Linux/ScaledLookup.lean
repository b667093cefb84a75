import LibGTop.Base.Radix
import LibGTop.Base.Tokens
import LibGTop.Linux.ProcMap
import Mathlib.Data.Nat.GCD.Basic

/-!
# Lookups of scaled numbers

`get_scaled` (`sysdeps/linux/glibtop_private.c:17–47`) on the lines of `/proc/meminfo`: each is a
label with a colon and a number, which may have a unit. The line that is found is the first whose
label ends with the one that is looked for. The number of a line has any size; what is computed from
it has 64 bits.
-/

namespace LibGTop.Linux

open Base

/-- The units. -/
inductive MemUnit
  | kB
  | mB
  deriving DecidableEq

/-- What a number with the unit is multiplied by. -/
def MemUnit.factor : MemUnit → Nat
  | kB => 1024
  | mB => 1024 * 1024

/-- The text of the unit. -/
def MemUnit.text : MemUnit → List UInt8
  | kB => [32, 107, 66]
  | mB => [32, 77, 66]

/-- A text without colons. -/
abbrev MemLabel := { label : List UInt8 // ∀ b ∈ label, b ≠ 0 ∧ b ≠ 10 ∧ b ≠ 58 }

/-- The text that is looked for. -/
def MemLabel.key (label : MemLabel) : List UInt8 := label.1 ++ [58]

/-- A line. -/
structure MemLine where
  label : MemLabel
  blanks : Blanks
  number : Nat
  unit : Option MemUnit

namespace MemLine

/-- What follows the colon. -/
def body (line : MemLine) : List UInt8 :=
  line.blanks.1 ++ (decimal line.number ++ (line.unit.elim [] MemUnit.text))

/-- The text of the line, without its newline. -/
def text (line : MemLine) : List UInt8 := line.label.1 ++ 58 :: line.body

/-- The number with its unit. -/
def worth (line : MemLine) : Nat := line.number * line.unit.elim 1 MemUnit.factor

end MemLine

/-- The text of lines. -/
def memText (ls : List MemLine) : List UInt8 := text (ls.map MemLine.text)

/-- The first line whose label ends with the one that is looked for, and the lines behind it. -/
def firstEnding (label : MemLabel) : List MemLine → Option (MemLine × List MemLine)
  | [] => none
  | line :: ls => if label.1 <:+ line.label.1 then some (line, ls) else firstEnding label ls

/-- The number of the line with the label; zero when there is none. -/
def worthOf (ls : List MemLine) (label : MemLabel) : Nat :=
  ((ls.find? fun line ↦ line.label = label).map MemLine.worth).getD 0

/-- The byte that the scan takes for a unit. -/
def isUnitByte (b : UInt8) : Bool := b = 107 || b = 77

/-- What the first of these bytes stands for, wherever it is; one when there is none. -/
def unitBehind : List UInt8 → Nat
  | [] => 1
  | b :: text => if b = 107 then 1024 else if b = 77 then 1024 * 1024 else unitBehind text

/-- What the number of a line is multiplied by: its unit, or what is found in the lines behind. -/
def MemLine.scaledBy (line : MemLine) (after : List MemLine) : Nat :=
  line.unit.elim (unitBehind (memText after)) MemUnit.factor

section

variable {label : MemLabel} {line : MemLine} {ls : List MemLine}

theorem scale_eq_mul (value : BitVec 64) (text : List UInt8) :
    scale value text = value * BitVec.ofNat 64 (unitBehind text) := by
  induction text with
  | nil => exact (BitVec.mul_one value).symm
  | cons b text ih =>
    rw [scale, unitBehind]
    split
    · rfl
    · split
      · rfl
      · exact ih

/-- A key with a colon at its end is found at the next colon if it ends there. -/
theorem strstr_colon {label before : List UInt8} (hl : 58 ∉ label) (hb : 58 ∉ before)
    (rest : List UInt8) :
    strstr (label ++ [58]) (before ++ 58 :: rest) =
      if label <:+ before then some (label ++ 58 :: rest) else strstr (label ++ [58]) rest := by
  have hstart : ∀ before : List UInt8, 58 ∉ before →
      ((label ++ [58]).isPrefixOf (before ++ 58 :: rest) ↔ label = before) := by
    intro before hb
    rw [List.isPrefixOf_iff_prefix]
    constructor
    · rintro ⟨more, hmore⟩
      rw [List.append_assoc, List.singleton_append] at hmore
      exact eq_of_append_cons_eq hl hb hmore
    · rintro rfl
      exact ⟨rest, by rw [List.append_assoc, List.singleton_append]⟩
  induction before with
  | nil =>
    have h := hstart [] hb
    rw [List.nil_append] at h ⊢
    rw [strstr]
    by_cases hn : label = []
    · rw [if_pos (h.mpr hn), if_pos (List.suffix_nil.mpr hn), hn, List.nil_append]
    · rw [if_neg (mt h.mp hn), if_neg (mt List.suffix_nil.mp hn)]
  | cons b before ih =>
    have h := hstart (b :: before) hb
    rw [List.cons_append] at h ⊢
    rw [strstr]
    by_cases hn : label = b :: before
    · rw [if_pos (h.mpr hn), if_pos (List.suffix_cons_iff.mpr (.inl hn)), hn, List.cons_append]
    · have hs : label <:+ b :: before ↔ label <:+ before :=
        List.suffix_cons_iff.trans (or_iff_right hn)
      rw [if_neg (mt h.mp hn), ih (List.not_mem_of_not_mem_cons hb)]
      by_cases hb : label <:+ before
      · rw [if_pos hb, if_pos (hs.mpr hb)]
      · rw [if_neg hb, if_neg (mt hs.mp hb)]

theorem notMem_body {b : UInt8} (hblank : isBlankByte b = false)
    (hdigit : b.toNat < 48 ∨ 57 < b.toNat) (hunit : ∀ unit : MemUnit, b ∉ unit.text)
    (line : MemLine) : b ∉ line.body := by
  rw [MemLine.body, List.mem_append, List.mem_append]
  rintro (h | h | h)
  · exact absurd (line.blanks.2 b h) (by rw [hblank]; exact Bool.false_ne_true)
  · have hd := mem_decimal h
    omega
  · cases hu : line.unit with
    | none =>
      rw [hu] at h
      exact absurd h List.not_mem_nil
    | some unit =>
      rw [hu] at h
      exact hunit unit h

theorem colon_notMem_body (line : MemLine) : 58 ∉ line.body :=
  notMem_body (by decide) (by decide) (fun unit ↦ by cases unit <;> decide) line

theorem zero_notMem_body (line : MemLine) : 0 ∉ line.body :=
  notMem_body (by decide) (by decide) (fun unit ↦ by cases unit <;> decide) line

theorem memText_cons (line : MemLine) (ls : List MemLine) :
    memText (line :: ls) = line.label.1 ++ 58 :: (line.body ++ 10 :: memText ls) := by
  rw [memText, List.map_cons, text_cons, MemLine.text, List.append_assoc, List.cons_append]
  rfl

/-- The first line whose label ends with the one that is looked for is found, at its colon. -/
theorem strstr_memText (label : MemLabel) (ls : List MemLine) {before : List UInt8}
    (hcolon : 58 ∉ before) (hline : before = [] ∨ ∃ text, before = text ++ [10]) :
    (strstr label.key (before ++ memText ls)).map (List.drop label.key.length) =
      (firstEnding label ls).map fun found ↦ found.1.body ++ 10 :: memText found.2 := by
  have hlabel : ∀ label : MemLabel, (58 : UInt8) ∉ label.1 := fun label h ↦ (label.2 58 h).2.2 rfl
  induction ls generalizing before with
  | nil =>
    have hnone : strstr label.key (before ++ memText []) = none := by
      rw [← Option.not_isSome_iff_eq_none, isSome_strstr]
      rintro ⟨start, rest, he⟩
      refine hcolon ?_
      have hm : (58 : UInt8) ∈ start ++ label.key ++ rest := by simp [MemLabel.key]
      rw [he] at hm
      simpa [memText] using hm
    rw [hnone]
    rfl
  | cons line ls ih =>
    have hends : label.1 <:+ before ++ line.label.1 ↔ label.1 <:+ line.label.1 := by
      obtain rfl | ⟨text, rfl⟩ := hline
      · rw [List.nil_append]
      · rw [List.append_assoc, List.singleton_append]
        exact suffix_append_cons_iff (fun h ↦ (label.2 10 h).2.1 rfl) text line.label.1
    have hboth : (58 : UInt8) ∉ before ++ line.label.1 := by
      rw [List.mem_append, not_or]
      exact ⟨hcolon, hlabel line.label⟩
    rw [memText_cons, ← List.append_assoc, MemLabel.key, strstr_colon (hlabel label) hboth,
      firstEnding]
    by_cases h : label.1 <:+ line.label.1
    · have hdrop : (label.1 ++ 58 :: (line.body ++ 10 :: memText ls)).drop
          (label.1 ++ [58]).length = line.body ++ 10 :: memText ls := by
        rw [List.append_cons label.1 58 (line.body ++ 10 :: memText ls)]
        exact List.drop_left
      rw [if_pos (hends.mpr h), if_pos h, Option.map_some, Option.map_some, hdrop]
    · have hbody : (58 : UInt8) ∉ line.body ++ [10] := by
        rw [List.mem_append, not_or]
        exact ⟨colon_notMem_body line, by decide⟩
      have hrest := ih hbody (.inr ⟨line.body, rfl⟩)
      rw [List.append_assoc, List.singleton_append] at hrest
      rw [if_neg (mt hends.mp h), if_neg h]
      exact hrest

/-- The number of a line, as far as it fits, is scaled by its unit, or by what follows. -/
theorem scaled_body (line : MemLine) (ls : List MemLine) :
    scale (strtoull 0 (line.body ++ 10 :: memText ls)).1
        (strtoull 0 (line.body ++ 10 :: memText ls)).2 =
      clampUnsigned line.number * BitVec.ofNat 64 (line.scaledBy ls) := by
  have hspaces : ∀ b ∈ line.blanks.1, isSpace b := fun b hb ↦
    isSpace_of_isBlankByte (line.blanks.2 b hb)
  have hstops : Stops (line.unit.elim [] MemUnit.text ++ 10 :: memText ls) := by
    cases line.unit with
    | none => exact Stops.cons 10 (by decide) _
    | some unit => cases unit <;> exact Stops.cons 32 (by decide) _
  rw [MemLine.body, List.append_assoc, List.append_assoc,
    strtoull_decimal (.inl rfl) hspaces _ hstops, MemLine.scaledBy]
  simp only
  cases line.unit with
  | none => exact scale_eq_mul (clampUnsigned line.number) (memText ls)
  | some unit => cases unit <;> rfl

/-- `get_scaled` finds the first line whose label ends with the one that is looked for. -/
theorem getScaled_memText (label : MemLabel) (ls : List MemLine) :
    getScaled (memText ls) (some label.key) =
      (firstEnding label ls).elim 0 fun found ↦
        clampUnsigned found.1.number * BitVec.ofNat 64 (found.1.scaledBy found.2) := by
  have hfound := strstr_memText label ls List.not_mem_nil (.inl rfl)
  rw [List.nil_append] at hfound
  rw [getScaled]
  simp only [hfound]
  cases firstEnding label ls with
  | none => rfl
  | some found => exact scaled_body found.1 found.2

/-- What is found stands behind lines that do not end with the label. -/
theorem of_firstEnding {after : List MemLine} (h : firstEnding label ls = some (line, after)) :
    label.1 <:+ line.label.1 ∧ ∃ before, ls = before ++ line :: after ∧
      ∀ other ∈ before, ¬label.1 <:+ other.label.1 := by
  induction ls with
  | nil => exact absurd h nofun
  | cons other ls ih =>
    rw [firstEnding] at h
    split at h
    · next hother =>
      obtain ⟨rfl, rfl⟩ := Prod.mk.inj (Option.some.inj h)
      exact ⟨hother, [], rfl, List.forall_mem_nil _⟩
    · next hother =>
      obtain ⟨hline, before, rfl, hbefore⟩ := ih h
      exact ⟨hline, other :: before, rfl, List.forall_mem_cons.mpr ⟨hother, hbefore⟩⟩

theorem firstEnding_eq_none (h : firstEnding label ls = none) :
    ∀ other ∈ ls, ¬label.1 <:+ other.label.1 := by
  induction ls with
  | nil => exact List.forall_mem_nil _
  | cons other ls ih =>
    rw [firstEnding] at h
    split at h
    · exact absurd h nofun
    · next hother => exact List.forall_mem_cons.mpr ⟨hother, ih h⟩

/-- Where no line ends with a label, none has it. -/
theorem find_eq_none {before : List MemLine} (h : ∀ other ∈ before, ¬label.1 <:+ other.label.1) :
    before.find? (fun line ↦ line.label = label) = none := by
  rw [List.find?_eq_none]
  intro other hother he
  have hlabel : other.label = label := of_decide_eq_true he
  exact h other hother (hlabel ▸ List.suffix_rfl)

theorem unitBehind_cases (text : List UInt8) :
    unitBehind text = 1 ∨ unitBehind text = 1024 ∨ unitBehind text = 1024 * 1024 := by
  induction text with
  | nil => exact .inl rfl
  | cons b text ih =>
    rw [unitBehind]
    split
    · exact .inr (.inl rfl)
    · split
      · exact .inr (.inr rfl)
      · exact ih

theorem unitBehind_eq_one_iff (text : List UInt8) :
    unitBehind text = 1 ↔ ∀ b ∈ text, isUnitByte b = false := by
  induction text with
  | nil => exact iff_of_true rfl (List.forall_mem_nil _)
  | cons b text ih =>
    rw [unitBehind, List.forall_mem_cons, ← ih, isUnitByte, Bool.or_eq_false_iff,
      decide_eq_false_iff_not, decide_eq_false_iff_not]
    by_cases hk : b = 107
    · rw [if_pos hk]
      exact iff_of_false (by decide) fun h ↦ h.1.1 hk
    · by_cases hm : b = 77
      · rw [if_neg hk, if_pos hm]
        exact iff_of_false (by decide) fun h ↦ h.1.2 hm
      · rw [if_neg hk, if_neg hm]
        exact (and_iff_right ⟨hk, hm⟩).symm

theorem MemLine.scaledBy_bounds (line : MemLine) (after : List MemLine) :
    1 ≤ line.scaledBy after ∧ line.scaledBy after < 2 ^ 64 := by
  rw [MemLine.scaledBy]
  cases line.unit with
  | none =>
    have hcases := unitBehind_cases (memText after)
    rw [Option.elim_none]
    omega
  | some unit =>
    rw [Option.elim_some]
    cases unit <;> decide

/-- The product of a number, as far as it fits, with what it is scaled by. -/
theorem toNat_clampUnsigned_mul {scaledBy : Nat} (hs : scaledBy < 2 ^ 64) (number : Nat) :
    (clampUnsigned number * BitVec.ofNat 64 scaledBy).toNat =
      min number (2 ^ 64 - 1) * scaledBy % 2 ^ 64 := by
  rw [BitVec.toNat_mul, toNat_clampUnsigned_min, BitVec.toNat_ofNat, Nat.mod_eq_of_lt hs]

/-- A product is its own exactly when it fits. -/
theorem clamped_mul_eq_iff {scaledBy : Nat} (hs : 1 ≤ scaledBy) (number : Nat) :
    min number (2 ^ 64 - 1) * scaledBy % 2 ^ 64 = number * scaledBy ↔
      number * scaledBy < 2 ^ 64 := by
  constructor
  · intro he
    rw [← he]
    exact Nat.mod_lt _ (by decide)
  · intro hlt
    have hnumber : number ≤ number * scaledBy := Nat.le_mul_of_pos_right _ hs
    rw [Nat.min_eq_left (by omega), Nat.mod_eq_of_lt hlt]

/-- A unit that is not its own changes a number, unless it is zero. -/
theorem clamped_mul_unitBehind_eq_iff (number : Nat) (text : List UInt8) :
    min number (2 ^ 64 - 1) * unitBehind text % 2 ^ 64 = number ↔
      number < 2 ^ 64 ∧ (number = 0 ∨ ∀ b ∈ text, isUnitByte b = false) := by
  rw [← unitBehind_eq_one_iff]
  constructor
  · intro he
    have hlt : number < 2 ^ 64 := he ▸ Nat.mod_lt _ (by decide)
    refine ⟨hlt, or_iff_not_imp_right.mpr fun hone ↦ ?_⟩
    rw [Nat.min_eq_left (by omega)] at he
    -- a factor less one is odd, so that it divides no power of two
    have hcoprime : Nat.Coprime (2 ^ 64) (unitBehind text - 1) := by
      have hodd : unitBehind text = 1024 ∨ unitBehind text = 1024 * 1024 :=
        (unitBehind_cases text).resolve_left hone
      obtain hk | hm := hodd
      · rw [hk]
        decide
      · rw [hm]
        decide
    have hdvd : 2 ^ 64 ∣ number * (unitBehind text - 1) := by
      rw [Nat.mul_sub, Nat.mul_one]
      nth_rewrite 2 [← he]
      exact Nat.dvd_sub_mod _
    exact Nat.eq_zero_of_dvd_of_lt (hcoprime.dvd_of_dvd_mul_right hdvd) hlt
  · rintro ⟨hlt, rfl | hone⟩
    · rw [Nat.zero_min, Nat.zero_mul, Nat.zero_mod]
    · rw [hone, Nat.mul_one, Nat.min_eq_left (by omega), Nat.mod_eq_of_lt hlt]

/-- The line that is found is that of the label, with a number that fits and with a unit of its own
where one follows, or it stands for the same number. -/
def FoundRight (ls : List MemLine) (label : MemLabel) : Prop :=
  ∀ line after, firstEnding label ls = some (line, after) →
    if line.label = label then
      line.worth < 2 ^ 64 ∧
        (line.unit.isSome ∨ line.number = 0 ∨ ∀ b ∈ memText after, isUnitByte b = false)
    else min line.number (2 ^ 64 - 1) * line.scaledBy after % 2 ^ 64 = worthOf ls label

/-- The lookup of a label gives the number of its line exactly when the line that is found is the
right one. -/
theorem getScaled_right_iff (ls : List MemLine) (label : MemLabel) :
    (getScaled (memText ls) (some label.key)).toNat = worthOf ls label ↔ FoundRight ls label := by
  rw [getScaled_memText, FoundRight]
  cases hfound : firstEnding label ls with
  | none =>
    refine iff_of_true ?_ nofun
    rw [worthOf, find_eq_none (firstEnding_eq_none hfound)]
    rfl
  | some found =>
    obtain ⟨line, after⟩ := found
    obtain ⟨-, before, hls, hbefore⟩ := of_firstEnding hfound
    simp only [Option.elim_some, Option.some.injEq, Prod.mk.injEq, and_imp, forall_apply_eq_imp_iff,
      forall_eq', toNat_clampUnsigned_mul (line.scaledBy_bounds after).2]
    by_cases he : line.label = label
    · have hworth : worthOf ls label = line.worth := by
        rw [worthOf, hls, List.find?_append, find_eq_none hbefore, Option.none_or,
          List.find?_cons_of_pos (by simpa using he)]
        rfl
      have hpos := (line.scaledBy_bounds after).1
      rw [if_pos he, hworth, MemLine.worth]
      rw [MemLine.scaledBy] at hpos ⊢
      cases hunit : line.unit with
      | none =>
        simp only [Option.elim_none, Option.isSome_none, Bool.false_eq_true, false_or, Nat.mul_one]
        exact clamped_mul_unitBehind_eq_iff line.number (memText after)
      | some unit =>
        rw [hunit] at hpos
        rw [and_iff_left (.inl rfl)]
        exact clamped_mul_eq_iff hpos line.number
    · rw [if_neg he]

end

end LibGTop.Linux
