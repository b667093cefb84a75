import LibGTop.Base.Numerals

/-!
# Texts of a format

What `printf` writes for a format: each field is followed by the literal text
that stands behind its conversion. Where no field has the first character of
that text, the fields can be told from the text.
-/

namespace LibGTop.Base

universe u

variable {α : Type u}

/-- The fields, each with the literal text behind it. -/
def formatText : List (List α) → List (List α) → List α
  | field :: fields, literal :: literals => field ++ (literal ++ formatText fields literals)
  | _, _ => []

/-- A field that does not have the first character of the text behind it. -/
def EndsAt (field literal : List α) : Prop := ∃ c rest, literal = c :: rest ∧ c ∉ field

/-- Two texts that start with a field and its end start with the same field. -/
theorem append_cons_inj {field field' rest rest' : List α} {c : α} (h : c ∉ field)
    (h' : c ∉ field') (he : field ++ c :: rest = field' ++ c :: rest') :
    field = field' ∧ rest = rest' := by
  induction field generalizing field' with
  | nil =>
    cases field' with
    | nil => exact ⟨rfl, (List.cons.inj he).2⟩
    | cons d field' =>
      have hd : c = d := (List.cons.inj he).1
      exact absurd (hd ▸ List.mem_cons_self) h'
  | cons d field ih =>
    cases field' with
    | nil =>
      have hd : d = c := (List.cons.inj he).1
      exact absurd (hd ▸ List.mem_cons_self) h
    | cons d' field' =>
      obtain ⟨rfl, ht⟩ := List.cons.inj he
      obtain ⟨rfl, hr⟩ := ih (fun hm ↦ h (List.mem_cons_of_mem d hm))
        (fun hm ↦ h' (List.mem_cons_of_mem d hm)) ht
      exact ⟨rfl, hr⟩

/-- The text of a format has its fields. -/
theorem formatText_inj {literals fields fields' : List (List α)} {rest rest' : List α}
    (h : List.Forall₂ EndsAt fields literals) (h' : List.Forall₂ EndsAt fields' literals)
    (he : formatText fields literals ++ rest = formatText fields' literals ++ rest') :
    fields = fields' ∧ rest = rest' := by
  induction h generalizing fields' with
  | nil =>
    cases h' with
    | nil => exact ⟨rfl, he⟩
  | @cons field literal fields literals hf _ ih =>
    cases h' with
    | @cons field' _ fields' _ hf' hrest' =>
      obtain ⟨c, more, rfl, hc⟩ := hf
      obtain ⟨c', more', hl, hc'⟩ := hf'
      obtain ⟨rfl, rfl⟩ := List.cons.inj hl
      simp only [formatText, List.append_assoc, List.cons_append] at he
      obtain ⟨rfl, ht⟩ := append_cons_inj hc hc' he
      obtain ⟨rfl, hr⟩ := ih hrest' (List.append_cancel_left ht)
      exact ⟨rfl, hr⟩

/-- Different numbers have different numerals. -/
theorem numeral_inj {value value' : Nat}
    (h : asciiBytes (numeral value) = asciiBytes (numeral value')) : value = value' := by
  have ha : ∀ v, ∀ c ∈ numeral v, c.toNat < 128 := by
    intro v c hc
    have := toNat_of_isDigit (isDigit_of_mem_numeral v hc)
    omega
  have hn := congrArg asciiChars h
  rw [asciiChars_asciiBytes _ (ha value), asciiChars_asciiBytes _ (ha value')] at hn
  have hv : ∀ v, Nat.ofDigitChars 10 (numeral v) 0 = v := fun v ↦ Nat.ofDigitChars_ten_toDigits
  rw [← hv value, hn, hv value']

end LibGTop.Base
