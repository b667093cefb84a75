import LibGTop.Linux.Cpu

/-!
# A line of the CPU table

What is read from a line `cpuN v1 v2 ...` of which the buffer may hold a part
only: the numbers that fit, and the first digits of the one that is cut.
-/

namespace LibGTop.Linux

open Base

/-- The texts of the numbers in a line. -/
def words (values : List (BitVec 64)) : List (List UInt8) := values.map fun v ↦ decimal v.toNat

@[simp] theorem words_nil : words [] = [] := rfl

@[simp] theorem words_cons (v : BitVec 64) (values : List (BitVec 64)) :
    words (v :: values) = decimal v.toNat :: words values := rfl

private theorem words_eq (values : List (BitVec 64)) :
    words values = (values.map fun v ↦ (v.toNat : Int)).map signedDecimal := by
  rw [words, List.map_map]
  apply List.map_congr_left
  intro v _
  exact (signedDecimal_natCast v.toNat).symm

theorem isToken_words (values : List (BitVec 64)) : ∀ word ∈ words values, IsToken word := by
  rw [words_eq]
  exact isToken_numbers _

section

variable {tail : List UInt8}

private theorem scanNumber_words (ht : NoNumber 0 tail) {values : List (BitVec 64)}
    {p : List UInt8} (hp : At tail (words values) p) :
    scanNumber 0 p = values.head?.map fun v ↦
      (false, v.toNat, spaced (words (values.drop 1)) tail) := by
  rw [words_eq] at hp
  rw [scanNumber_at (.inl rfl) ht hp, ← List.map_drop, ← words_eq]
  cases values with
  | nil => rfl
  | cons v values =>
    have hn : decide ((v.toNat : Int) < 0) = false := decide_eq_false (by omega)
    rw [List.map_cons, List.head?_cons, List.head?_cons, Option.map_some, Option.map_some, hn,
      Int.natAbs_natCast]

/-- `strtoull` reads the number a pointer is at, whatever follows the numbers. -/
theorem strtoull_words_of (hs : Stops tail) {values : List (BitVec 64)} (h : values ≠ [])
    {p : List UInt8} (hp : At tail (words values) p) :
    strtoull 0 p = (values.headD 0, spaced (words (values.drop 1)) tail) := by
  cases values with
  | nil => exact absurd rfl h
  | cons v values =>
    have hv := clampUnsigned_toNat v
    have hr : Stops (spaced (words values) tail) := by
      cases values with
      | nil => exact hs
      | cons w values =>
        rw [words_cons, spaced_cons, stops_cons]
        decide
    rw [words_cons] at hp
    cases hp with
    | before =>
      have hb := strtoull_decimal (.inl rfl) (spaces_singleton 32 (by decide)) v.toNat hr
      rw [hv] at hb
      rw [spaced_cons]
      exact hb
    | inside =>
      have hb := strtoull_decimal (.inl rfl) spaces_nil v.toNat hr
      rw [hv] at hb
      exact hb

/-- `strtoull` reads the number a pointer is at. -/
theorem strtoull_words (ht : NoNumber 0 tail) {values : List (BitVec 64)} (h : values ≠ [])
    {p : List UInt8} (hp : At tail (words values) p) :
    strtoull 0 p = (values.headD 0, spaced (words (values.drop 1)) tail) :=
  strtoull_words_of ht.stops h hp

/-- Before the numbers `strtoull` reads the first one, or 0 when there is none. -/
theorem strtoull_spaced (ht : NoNumber 0 tail) (values : List (BitVec 64)) :
    strtoull 0 (spaced (words values) tail) =
      (values.headD 0, spaced (words (values.drop 1)) tail) := by
  by_cases h : values = []
  · subst h
    rw [strtoull, scanNumber_words ht (.before (words []))]
    rfl
  · exact strtoull_words ht h (.before _)

/-- The times in the columns of a line; the columns it does not have are 0. -/
def timesOf (osVersionCode : Nat) (values : List (BitVec 64)) : CpuTimes :=
  let buf : CpuTimes := {
    user := values.getD 0 0
    nice := values.getD 1 0
    sys := values.getD 2 0
    idle := values.getD 3 0
    total := values.getD 0 0 + values.getD 1 0 + values.getD 2 0 + values.getD 3 0 }
  if linuxVersionCode 2 6 0 ≤ osVersionCode then { buf with
    iowait := values.getD 4 0
    irq := values.getD 5 0
    softirq := values.getD 6 0
    total := buf.total + (values.getD 4 0 + values.getD 5 0 + values.getD 6 0) }
  else buf

/-- The number of columns that are read. -/
def columnCount (osVersionCode : Nat) : Nat :=
  if linuxVersionCode 2 6 0 ≤ osVersionCode then 7 else 4

/-- The columns are read one after the other. -/
theorem readTimesOfCpu_spaced (ht : NoNumber 0 tail) (osVersionCode : Nat)
    (values : List (BitVec 64)) :
    readTimesOfCpu osVersionCode (spaced (words values) tail) =
      (timesOf osVersionCode values,
        spaced (words (values.drop (columnCount osVersionCode))) tail) := by
  have h0 : values.headD 0 = values.getD 0 0 := headD_drop values 0
  simp only [readTimesOfCpu, strtoull_spaced ht, List.drop_drop, headD_drop, timesOf, columnCount,
    h0]
  by_cases ho : linuxVersionCode 2 6 0 ≤ osVersionCode
  · simp only [ho, if_true]
  · simp only [ho, if_false]

/-- The columns are read from the first number on, too. -/
theorem readTimesOfCpu_nextToken (ht : NoNumber 0 tail) (osVersionCode : Nat)
    {values : List (BitVec 64)} (h : values ≠ []) :
    readTimesOfCpu osVersionCode (nextToken (spaced (words values) tail)) =
      readTimesOfCpu osVersionCode (spaced (words values) tail) := by
  have hn := strtoull_words ht h (at_nextToken (isToken_words values))
  rw [readTimesOfCpu, readTimesOfCpu, hn, strtoull_spaced ht]

/-- Two lines have the same times exactly when the columns that are read are the same. -/
theorem timesOf_eq_iff (osVersionCode : Nat) (first second : List (BitVec 64)) :
    timesOf osVersionCode first = timesOf osVersionCode second ↔
      ∀ column < columnCount osVersionCode, first.getD column 0 = second.getD column 0 := by
  by_cases ho : linuxVersionCode 2 6 0 ≤ osVersionCode
  · simp only [timesOf, columnCount, ho, if_true, CpuTimes.mk.injEq, Nat.forall_lt_succ_right,
      Nat.not_lt_zero, false_implies, implies_true, true_and]
    constructor
    · rintro ⟨-, h0, h1, h2, h3, h4, h5, h6⟩
      exact ⟨⟨⟨⟨⟨⟨h0, h1⟩, h2⟩, h3⟩, h4⟩, h5⟩, h6⟩
    · rintro ⟨⟨⟨⟨⟨⟨h0, h1⟩, h2⟩, h3⟩, h4⟩, h5⟩, h6⟩
      rw [h0, h1, h2, h3, h4, h5, h6]
      exact ⟨rfl, rfl, rfl, rfl, rfl, rfl, rfl, rfl⟩
  · simp only [timesOf, columnCount, ho, if_false, CpuTimes.mk.injEq, Nat.forall_lt_succ_right,
      Nat.not_lt_zero, false_implies, implies_true, true_and, and_true]
    constructor
    · rintro ⟨-, h0, h1, h2, h3⟩
      exact ⟨⟨⟨h0, h1⟩, h2⟩, h3⟩
    · rintro ⟨⟨⟨h0, h1⟩, h2⟩, h3⟩
      rw [h0, h1, h2, h3]
      exact ⟨rfl, rfl, rfl, rfl, rfl⟩

end

/-- The numbers of a line are passed over up to what follows them. -/
theorem skipLine_spaced (values : List (BitVec 64)) (tail : List UInt8) :
    skipLine (spaced (words values) tail) = skipLine tail := by
  have hb : ∀ b ∈ (words values).flatMap (fun word ↦ 32 :: word), (b ≠ 0 && b ≠ 10) = true := by
    intro b hb
    obtain ⟨word, hw, hb⟩ := List.mem_flatMap.mp hb
    obtain ⟨v, -, rfl⟩ := List.mem_map.mp hw
    obtain rfl | hb := List.mem_cons.mp hb
    · decide
    · have hn : ∀ c : UInt8, c.toNat < 48 → b ≠ c := fun c hc he ↦
        notMem_decimal hc v.toNat (he ▸ hb)
      simp [hn 0 (by decide), hn 10 (by decide)]
  unfold skipLine
  rw [spaced, List.dropWhile_append_of_pos hb]

/-- The numbers of a line that the buffer has room for; of one that is cut, its first digits. -/
def cutValues : Nat → List (BitVec 64) → List (BitVec 64)
  | _, [] => []
  | room, v :: values =>
    let size := (decimal v.toNat).length
    if size < room then v :: cutValues (room - (size + 1)) values
    else if room ≤ 1 then []
    else [BitVec.ofNat 64 (v.toNat / 10 ^ (size + 1 - room))]

/-- What the buffer has behind these numbers. -/
def cutTail : Nat → List (BitVec 64) → List UInt8 → List UInt8
  | room, [], next => (10 :: next).take room
  | room, v :: values, next =>
    let size := (decimal v.toNat).length
    if size < room then cutTail (room - (size + 1)) values next
    else if room ≤ 1 then [(32 : UInt8)].take room
    else []

/-- The size of the numbers of a line with the newline. -/
def lineSize (values : List (BitVec 64)) : Nat := (spaced (words values) [10]).length

theorem lineSize_cons (v : BitVec 64) (values : List (BitVec 64)) :
    lineSize (v :: values) = (decimal v.toNat).length + 1 + lineSize values := by
  simp [lineSize]
  omega

/-- A line that is cut is a line. -/
theorem take_spaced (room : Nat) (values : List (BitVec 64)) (next : List UInt8) :
    (spaced (words values) (10 :: next)).take room =
      spaced (words (cutValues room values)) (cutTail room values next) := by
  induction values generalizing room with
  | nil => rfl
  | cons v values ih =>
    simp only [cutValues, cutTail, words_cons, spaced_cons]
    cases room with
    | zero => rfl
    | succ room =>
      rw [List.take_succ_cons]
      by_cases hs : (decimal v.toNat).length < room + 1
      · have hr : room - (decimal v.toNat).length = room + 1 - ((decimal v.toNat).length + 1) := by
          omega
        rw [if_pos hs, if_pos hs, words_cons, spaced_cons, List.take_append,
          List.take_of_length_le (by omega), ih, hr]
      · rw [if_neg hs, if_neg hs, List.take_append_of_le_length (by omega)]
        by_cases h1 : room + 1 ≤ 1
        · have h0 : room = 0 := by omega
          rw [if_pos h1, if_pos h1, h0]
          rfl
        · have hq : (decimal v.toNat).length - room = (decimal v.toNat).length + 1 - (room + 1) := by
            omega
          have hv : v.toNat / 10 ^ ((decimal v.toNat).length + 1 - (room + 1)) < 2 ^ 64 :=
            lt_of_le_of_lt (Nat.div_le_self _ _) v.isLt
          rw [if_neg h1, if_neg h1, take_decimal _ (by omega) (by omega), hq, words_cons, words_nil,
            spaced_cons, spaced_nil, List.append_nil, BitVec.toNat_ofNat, Nat.mod_eq_of_lt hv]

/-- Behind a cut line the text goes on where it does behind the line. -/
theorem skipLine_cutTail (room : Nat) (values : List (BitVec 64)) (next : List UInt8) :
    skipLine (cutTail room values next) = next.take (room - lineSize values) := by
  induction values generalizing room with
  | nil =>
    cases room with
    | zero => rfl
    | succ room => rfl
  | cons v values ih =>
    rw [cutTail, lineSize_cons]
    by_cases hs : (decimal v.toNat).length < room
    · rw [if_pos hs, ih, Nat.sub_sub]
    · have h0 : room - ((decimal v.toNat).length + 1 + lineSize values) = 0 := by omega
      rw [if_neg hs, h0, List.take_zero]
      split
      · next h1 =>
        obtain rfl | rfl : room = 0 ∨ room = 1 := by omega
        · rfl
        · rfl
      · rfl

private theorem nextToken_newline {p : List UInt8} (h : ∀ b ∈ p.head?, startsNone b) :
    nextToken (10 :: p) = p := by
  have hn : nextToken (10 :: p) = nextToken p := List.dropWhile_cons_of_pos (by decide)
  rw [hn]
  cases p with
  | nil => rfl
  | cons b p =>
    have hs : startsNone b = true := h b rfl
    have hb : ¬gAsciiIsspace b = true := by
      intro hg
      simp only [gAsciiIsspace, Bool.or_eq_true, decide_eq_true_eq] at hg
      obtain (((rfl | rfl) | rfl) | rfl) | rfl := hg <;> exact absurd hs (by decide)
    exact List.dropWhile_cons_of_neg hb

/-- A line that is not cut has all its numbers. -/
theorem cutValues_of_fits {room : Nat} {values : List (BitVec 64)} (h : lineSize values ≤ room) :
    cutValues room values = values := by
  induction values generalizing room with
  | nil => rfl
  | cons v values ih =>
    rw [lineSize_cons] at h
    rw [cutValues, if_pos (by omega), ih (by omega)]

/-- Behind the numbers of a cut line the buffer has the newline with what follows it, the blank of
the number that is cut off, or nothing. -/
theorem cutTail_cases (room : Nat) (values : List (BitVec 64)) (next : List UInt8) :
    (∃ count, cutTail room values next = 10 :: next.take count) ∨
      cutTail room values next = [32] ∨ cutTail room values next = [] := by
  induction values generalizing room with
  | nil =>
    cases room with
    | zero => exact .inr (.inr rfl)
    | succ room => exact .inl ⟨room, rfl⟩
  | cons v values ih =>
    rw [cutTail]
    by_cases hs : (decimal v.toNat).length < room
    · rw [if_pos hs]
      exact ih _
    · rw [if_neg hs]
      split
      · next h1 =>
        obtain rfl | rfl : room = 0 ∨ room = 1 := by omega
        · exact .inr (.inr rfl)
        · exact .inr (.inl rfl)
      · exact .inr (.inr rfl)

/-- Before a newline all numbers of the line are there. -/
theorem cutValues_of_newline {room : Nat} {values : List (BitVec 64)} {next rest : List UInt8}
    (h : cutTail room values next = 10 :: rest) : cutValues room values = values := by
  induction values generalizing room with
  | nil => rfl
  | cons v values ih =>
    rw [cutTail] at h
    rw [cutValues]
    split at h
    · next hs => rw [if_pos hs, ih h]
    · split at h
      · next h1 =>
        obtain rfl | rfl : room = 0 ∨ room = 1 := by omega
        · exact absurd h nofun
        · exact absurd (List.cons.inj h).1 (by decide)
      · exact absurd h nofun

theorem blank_cutTail (room : Nat) (values : List (BitVec 64)) (next : List UInt8) :
    Blank (cutTail room values next) := by
  obtain ⟨count, h⟩ | h | h := cutTail_cases room values next
  · exact h ▸ blank_newline _
  · exact h ▸ blank_cons (by decide) []
  · exact h ▸ blank_nil

theorem noNumber_cutTail (room : Nat) (values : List (BitVec 64)) {next : List UInt8}
    (hn : ∀ b ∈ next.head?, startsNone b) : NoNumber 0 (cutTail room values next) := by
  obtain ⟨count, h⟩ | h | h := cutTail_cases room values next
  · have hr : ∀ b ∈ (next.take count).head?, startsNone b := by
      intro b hb
      cases count with
      | zero => exact absurd hb (Option.not_mem_none b)
      | succ count =>
        cases next with
        | nil => exact absurd hb (Option.not_mem_none b)
        | cons c next => exact hn b hb
    rw [h]
    refine ⟨.cons 10 (by decide) _, scanNumber_none (.inl rfl) (spaces_singleton 10 (by decide)) hr,
      ?_⟩
    rw [nextToken_newline hr]
    exact scanNumber_none (.inl rfl) spaces_nil hr
  · rw [h]
    exact ⟨by decide, by decide, by decide⟩
  · rw [h]
    exact noNumber_nil (.inl rfl)

/-- The columns that are read are in the buffer, but for zeros. -/
def ColumnsShown : Nat → Nat → List (BitVec 64) → Prop
  | 0, _, _ => True
  | _ + 1, _, [] => True
  | columns + 1, room, v :: values =>
    if (decimal v.toNat).length < room then
      ColumnsShown columns (room - ((decimal v.toNat).length + 1)) values
    else ∀ w ∈ (v :: values).take (columns + 1), w = 0

instance decidableColumnsShown :
    (columns room : Nat) → (values : List (BitVec 64)) → Decidable (ColumnsShown columns room values)
  | 0, _, _ => isTrue trivial
  | _ + 1, _, [] => isTrue trivial
  | columns + 1, room, v :: values =>
    if h : (decimal v.toNat).length < room then
      have := decidableColumnsShown columns (room - ((decimal v.toNat).length + 1)) values
      decidable_of_iff _ (iff_of_eq (if_pos h).symm)
    else decidable_of_iff _ (iff_of_eq (if_neg h).symm)

/-- A number that is cut is another one. -/
private theorem cut_eq_iff (v : BitVec 64) (room : Nat) (hs : ¬(decimal v.toNat).length < room) :
    (if room ≤ 1 then [] else
      [BitVec.ofNat 64 (v.toNat / 10 ^ ((decimal v.toNat).length + 1 - room))]).getD 0 0 = v ↔
        v = 0 := by
  split
  · exact eq_comm
  · next h1 =>
    constructor
    · intro h
      by_contra hv
      have hp : 0 < v.toNat := Nat.pos_of_ne_zero fun h0 ↦ hv (BitVec.eq_of_toNat_eq h0)
      have hd : v.toNat / 10 ^ ((decimal v.toNat).length + 1 - room) < v.toNat :=
        Nat.div_lt_self hp (Nat.one_lt_pow (by omega) (by decide))
      have ht := congrArg BitVec.toNat h
      rw [List.getD_cons_zero, BitVec.toNat_ofNat, Nat.mod_eq_of_lt (hd.trans v.isLt)] at ht
      omega
    · rintro rfl
      have h0 : (decimal (0 : BitVec 64).toNat).length = 1 := by decide
      omega

private theorem getD_eq_zero_iff (values : List (BitVec 64)) (columns : Nat) :
    (∀ column < columns, values.getD column 0 = 0) ↔ ∀ w ∈ values.take columns, w = 0 := by
  induction values generalizing columns with
  | nil => simp
  | cons v values ih =>
    cases columns with
    | zero => simp
    | succ columns =>
      rw [Nat.forall_lt_succ_left, List.take_succ_cons, List.forall_mem_cons, ← ih columns]
      rfl

theorem columnsShown_iff (columns room : Nat) (values : List (BitVec 64)) :
    ColumnsShown columns room values ↔
      ∀ column < columns, (cutValues room values).getD column 0 = values.getD column 0 := by
  induction values generalizing columns room with
  | nil =>
    cases columns with
    | zero => exact iff_of_true trivial fun _ _ ↦ rfl
    | succ columns => exact iff_of_true trivial fun _ _ ↦ rfl
  | cons v values ih =>
    cases columns with
    | zero => exact iff_of_true trivial fun _ hc ↦ absurd hc (Nat.not_lt_zero _)
    | succ columns =>
      rw [ColumnsShown, cutValues, Nat.forall_lt_succ_left]
      by_cases hs : (decimal v.toNat).length < room
      · simp only [if_pos hs, List.getD_cons_zero, List.getD_cons_succ, true_and]
        exact ih _ _
      · have hz : ∀ column,
            (if room ≤ 1 then [] else
              [BitVec.ofNat 64 (v.toNat / 10 ^ ((decimal v.toNat).length + 1 - room))]).getD
                (column + 1) 0 = values.getD column 0 ↔ values.getD column 0 = 0 := by
          intro column
          split
          · exact eq_comm
          · exact eq_comm
        simp only [if_neg hs, List.getD_cons_zero, List.getD_cons_succ, cut_eq_iff v room hs, hz,
          List.take_succ_cons, List.forall_mem_cons, getD_eq_zero_iff]

end LibGTop.Linux
