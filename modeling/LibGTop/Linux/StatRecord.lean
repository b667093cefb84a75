import LibGTop.Linux.Readers

/-!
# The stat record of a process

What the readers take from a record `pid (comm) f3 f4 ... fn` as the kernel writes
it. The command may hold any bytes but NUL, so the record is read from its last
closing parenthesis on; behind it a pointer is kept with the number of the field
it is at.
-/

namespace LibGTop.Linux

open Base

/-- The byte of an ASCII letter. -/
def isLetter (b : UInt8) : Bool := (65 ≤ b && b ≤ 90) || (97 ≤ b && b ≤ 122)

/-- A record of `/proc/<pid>/stat`; `fields` are the fields from the fourth on. -/
structure StatRecord where
  pid : Int
  comm : List UInt8
  comm_noNul : 0 ∉ comm
  state : UInt8
  state_isLetter : isLetter state
  fields : List Int

/-- An `int` that holds a field. -/
def asInt (value : Int) : Int :=
  if -(2 ^ 31) ≤ value ∧ value < 2 ^ 31 then value else toInt32 (clampLong value)

/-- A `guint64` that holds a field. -/
def asUnsigned (value : Int) : Nat :=
  if 0 ≤ value ∧ value < 2 ^ 64 then value.toNat else (clampUnsigned value).toNat

theorem toInt32_eq_self {value : Int} (h : -(2 ^ 31) ≤ value ∧ value < 2 ^ 31) :
    toInt32 value = value := by
  rw [toInt32, BitVec.toInt_ofInt]
  exact Int.bmod_eq_of_le (by omega) (by omega)

theorem clampLong_eq_self {value : Int} (h : -(2 ^ 63) ≤ value ∧ value < 2 ^ 63) :
    clampLong value = value := by
  unfold clampLong
  omega

theorem toInt32_clampLong (value : Int) : toInt32 (clampLong value) = asInt value := by
  unfold asInt
  split
  · next h => rw [clampLong_eq_self (by omega), toInt32_eq_self h]
  · rfl

theorem toNat_clampUnsigned (value : Int) : (clampUnsigned value).toNat = asUnsigned value := by
  unfold asUnsigned
  split
  · next h =>
    rw [clampUnsigned, if_neg (by omega), BitVec.toNat_ofInt]
    omega
  · rfl

namespace StatRecord

variable (r : StatRecord)

/-- The number in a field, from the fourth on; 0 where the record has ended. -/
def field (k : Nat) : Int := r.fields.getD (k - 4) 0

/-- The record behind the closing parenthesis of the command. -/
def after : List UInt8 := spaced ([r.state] :: r.fields.map signedDecimal) [10]

/-- The record up to the closing parenthesis. -/
def before : List UInt8 := signedDecimal r.pid ++ 32 :: 40 :: r.comm

/-- The text of a record. -/
def text : List UInt8 := r.before ++ 41 :: r.after

/-- A pointer is at a field: before its blank or at its first digit. -/
def AtField (k : Nat) (p : List UInt8) : Prop :=
  At [10] ((r.fields.drop (k - 4)).map signedDecimal) p

theorem isToken_state : IsToken [r.state] := by
  refine ⟨List.cons_ne_nil _ _, List.forall_mem_singleton.mpr ?_⟩
  have hl := r.state_isLetter
  have hn : ∀ c : UInt8, isLetter c = false → r.state ≠ c := by
    rintro c hc he
    rw [he, hc] at hl
    exact Bool.false_ne_true hl
  simp [isTokenByte, gAsciiIsspace, hn 0 (by decide), hn 32 (by decide), hn 9 (by decide),
    hn 10 (by decide), hn 12 (by decide), hn 13 (by decide)]

variable {r}

/-- `strtol` reads the field and goes to the next one. -/
theorem AtField.strtol {base k : Nat} {p : List UInt8} (h : r.AtField k p)
    (hb : base = 0 ∨ base = 10) (hk : 4 ≤ k) :
    (Base.strtol base p).1 = clampLong (r.field k) ∧ r.AtField (k + 1) (Base.strtol base p).2 := by
  obtain ⟨hv, hp⟩ := strtol_at hb (noNumber_newline hb) h
  rw [headD_drop] at hv
  rw [List.drop_drop] at hp
  have hn : k - 4 + 1 = k + 1 - 4 := by omega
  rw [AtField, ← hn]
  exact ⟨hv, hp⟩

/-- `strtoull` reads the field and goes to the next one. -/
theorem AtField.strtoull {base k : Nat} {p : List UInt8} (h : r.AtField k p)
    (hb : base = 0 ∨ base = 10) (hk : 4 ≤ k) :
    (Base.strtoull base p).1 = clampUnsigned (r.field k) ∧
      r.AtField (k + 1) (Base.strtoull base p).2 := by
  obtain ⟨hv, hp⟩ := strtoull_at hb (noNumber_newline hb) h
  rw [headD_drop] at hv
  rw [List.drop_drop] at hp
  have hn : k - 4 + 1 = k + 1 - 4 := by omega
  rw [AtField, ← hn]
  exact ⟨hv, hp⟩

/-- `skip_multiple_token` goes as many fields on. -/
theorem AtField.skip {k : Nat} {p : List UInt8} (h : r.AtField k p) (hk : 4 ≤ k) (count : Nat) :
    r.AtField (k + count) (skipMultipleToken p count) := by
  have hs := at_skipMultipleToken (blank_newline []) rfl (isToken_numbers _) h count
  rw [← List.map_drop, List.drop_drop] at hs
  have hn : k - 4 + count = k + count - 4 := by omega
  rw [AtField, ← hn]
  exact hs

private theorem at_skip {p : List UInt8}
    (h : At [10] ([r.state] :: r.fields.map signedDecimal) p) (count : Nat) :
    r.AtField (4 + count) (skipMultipleToken p (count + 1)) := by
  have hw : ∀ word ∈ [r.state] :: r.fields.map signedDecimal, IsToken word :=
    List.forall_mem_cons.mpr ⟨r.isToken_state, isToken_numbers _⟩
  have hs := at_skipMultipleToken (blank_newline []) rfl hw h (count + 1)
  rw [List.drop_succ_cons, ← List.map_drop] at hs
  have hn : count = 4 + count - 4 := by omega
  rw [AtField, ← hn]
  exact hs

/-- Behind the command the first token skipped is the state. -/
theorem atField_after (count : Nat) :
    r.AtField (4 + count) (skipMultipleToken r.after (count + 1)) :=
  at_skip (.before _) count

/-- At the state, too. -/
theorem atField_state (count : Nat) :
    r.AtField (4 + count) (skipMultipleToken (nextToken r.after) (count + 1)) := by
  have hw : ∀ word ∈ [r.state] :: r.fields.map signedDecimal, IsToken word :=
    List.forall_mem_cons.mpr ⟨r.isToken_state, isToken_numbers _⟩
  exact at_skip (at_nextToken hw) count

variable (r)

private theorem mem_after {b : UInt8} (h : b ∈ r.after) :
    b = 32 ∨ b = 10 ∨ b = 45 ∨ b = r.state ∨ 48 ≤ b.toNat ∧ b.toNat ≤ 57 := by
  have hd : ∀ value, b ∈ signedDecimal value → b = 45 ∨ 48 ≤ b.toNat ∧ b.toNat ≤ 57 := by
    intro value hb
    unfold signedDecimal at hb
    split at hb
    · exact (List.mem_cons.mp hb).imp_right mem_decimal
    · exact .inr (mem_decimal hb)
  rw [after, spaced, List.mem_append, List.mem_flatMap] at h
  obtain ⟨word, hw, hb⟩ | hb := h
  · obtain rfl | hb := List.mem_cons.mp hb
    · exact .inl rfl
    · obtain rfl | hw := List.mem_cons.mp hw
      · exact .inr (.inr (.inr (.inl (List.mem_singleton.mp hb))))
      · obtain ⟨value, -, rfl⟩ := List.mem_map.mp hw
        obtain hb | hb := hd value hb
        · exact .inr (.inr (.inl hb))
        · exact .inr (.inr (.inr (.inr hb)))
  · exact .inr (.inl (List.mem_singleton.mp hb))

private theorem notMem_after {c : UInt8} (hl : isLetter c = false)
    (hc : c ≠ 32 ∧ c ≠ 10 ∧ c ≠ 45 ∧ c.toNat < 48) : c ∉ r.after := by
  intro h
  obtain he | he | he | he | he := r.mem_after h
  · exact hc.1 he
  · exact hc.2.1 he
  · exact hc.2.2.1 he
  · have hs := r.state_isLetter
    rw [← he, hl] at hs
    exact Bool.false_ne_true hs
  · omega

/-- The record is split at the end of its command, whatever bytes this is of. -/
theorem procStatAfterCmd_text : procStatAfterCmd r.text = some (r.before, r.after) :=
  strrchr_append r.before (r.notMem_after (by decide) (by decide))

theorem noNul_text : 0 ∉ r.text := by
  intro h
  rw [text, before, List.append_assoc, List.mem_append, List.cons_append, List.cons_append,
    List.mem_cons, List.mem_cons, List.mem_append, List.mem_cons] at h
  obtain h | h | h | h | h | h := h
  · have hd := (isToken_signedDecimal r.pid).2 0 h
    exact absurd hd (by decide)
  · exact absurd h (by decide)
  · exact absurd h (by decide)
  · exact r.comm_noNul h
  · exact absurd h (by decide)
  · exact r.notMem_after (by decide) (by decide) h

/-- A record that fits is in the buffer as it is. -/
theorem tryFileToBuffer_text (h : r.text.length < bufsiz) :
    tryFileToBuffer bufsiz (some r.text) = some r.text :=
  tryFileToBuffer_eq r.noNul_text h

/-- The command stands behind the number of the process and the opening parenthesis. -/
theorem skipToken_before : skipToken r.before = 40 :: r.comm := by
  have hb : Blank (32 :: 40 :: r.comm) := blank_cons (by decide) _
  rw [before, skipToken_token (isToken_signedDecimal r.pid) hb, nextToken_blank]
  exact List.dropWhile_cons_of_neg (by decide)

theorem nextToken_after :
    nextToken r.after = r.state :: spaced (r.fields.map signedDecimal) [10] := by
  rw [after, spaced_cons, nextToken_blank]
  exact r.isToken_state.head _

end StatRecord

end LibGTop.Linux
