import LibGTop.Linux.CpuLine

/-!
# The CPU table

What `glibtop_open_s` and `glibtop_get_cpu_s` make of the lines `cpuN v1 v2 ...`
in `/proc/stat`. They expect the line of CPU `i` at place `i`, so the table is
right as long as the labels count up from 0; where they leave off, the label that
is looked for must not be the start of the one that is found.
-/

namespace LibGTop.Linux

open Base

/-- The label of a CPU. -/
def labelText (n : Nat) : List UInt8 := asciiBytes ['c', 'p', 'u'] ++ decimal n

/-- The line of a CPU. -/
structure CpuLine where
  label : Nat
  values : List (BitVec 64)
  values_ne : values ≠ []

/-- The text of a line, without its newline. -/
def CpuLine.text (l : CpuLine) : List UInt8 := labelText l.label ++ spaced (words l.values) []

/-- The lines of the CPUs, and the lines that follow. -/
def tableText : List CpuLine → List UInt8 → List UInt8
  | [], rest => rest
  | l :: ls, rest => labelText l.label ++ spaced (words l.values) (10 :: tableText ls rest)

/-- A text of `/proc/stat`: the line of all CPUs, the lines of the CPUs that are online, and other
lines, each of which starts with its label. -/
structure StatTable where
  total : List (BitVec 64)
  total_ne : total ≠ []
  cpus : List CpuLine
  increasing : cpus.Pairwise fun a b ↦ a.label < b.label
  rest : List UInt8
  rest_noNul : 0 ∉ rest
  rest_label : ∀ b ∈ rest.head?, startsNone b
  rest_other : ¬asciiBytes ['c', 'p', 'u'] <+: rest

/-- The text itself. -/
def StatTable.text (t : StatTable) : List UInt8 :=
  asciiBytes ['c', 'p', 'u'] ++ 32 :: spaced (words t.total) (10 :: tableText t.cpus t.rest)

/-- The line with a label. -/
def lineOf (n : Nat) (cpus : List CpuLine) : Option CpuLine := cpus.find? fun l ↦ l.label = n

/-- The CPUs are all covered, and what is stored at an index are the times of the CPU with this
number: nothing when there is no such CPU. -/
def CpusRight (osVersionCode : Nat) (t : StatTable) : Prop :=
  ∃ realNcpu ncpu cpu, glibtopOpenS (some t.text) = some (realNcpu, ncpu) ∧
    glibtopGetCpuS osVersionCode ncpu (some t.text) = some cpu ∧
    (∀ l ∈ t.cpus, l.label < glibtopNcpu → l.label ≤ ncpu) ∧
    ∀ n < glibtopNcpu, cpu.xcpu[n]? =
      (lineOf n t.cpus).map fun l ↦ timesOf osVersionCode l.values

/-- The lines from a place on, of which the buffer has room for a part, are taken for what they are:
as long as the place is one of the table, the line there has its number for a label, with the label
and the columns in the buffer; or it is one of a CPU that is not in the table, as those behind it
are, and does not look like the one of the place. -/
def InPlace (osVersionCode : Nat) : Nat → Nat → List CpuLine → Prop
  | _, _, [] => True
  | i, room, l :: ls =>
    glibtopNcpu ≤ i ∨
      l.label = i ∧ (labelText i).length ≤ room ∧
        ColumnsShown (columnCount osVersionCode) (room - (labelText i).length) l.values ∧
        InPlace osVersionCode (i + 1) (room - (labelText i).length - lineSize l.values) ls ∨
      i < l.label ∧ glibtopNcpu ≤ l.label ∧ ¬labelText i <+: l.text.take room

instance decidableInPlace (osVersionCode : Nat) :
    (i room : Nat) → (ls : List CpuLine) → Decidable (InPlace osVersionCode i room ls)
  | _, _, [] => isTrue trivial
  | i, room, l :: ls =>
    have := decidableInPlace osVersionCode (i + 1)
      (room - (labelText i).length - lineSize l.values) ls
    inferInstanceAs (Decidable (_ ∨ _ ∨ _))

theorem isToken_labelText (n : Nat) : IsToken (labelText n) := by
  have hc : IsToken (asciiBytes ['c', 'p', 'u']) := by decide
  refine ⟨List.cons_ne_nil _ _, List.forall_mem_append.mpr ⟨hc.2, ?_⟩⟩
  have hw := isToken_signedDecimal n
  rw [signedDecimal_natCast] at hw
  exact hw.2

theorem length_labelText_le {n : Nat} (h : n < glibtopNcpu) : (labelText n).length ≤ 9 := by
  have hn : n < 1024 := h
  have hl : (numeral n).length ≤ 6 :=
    (Nat.length_toDigits_le_iff (by omega) (by omega)).mpr (by omega)
  have hd : (labelText n).length = 3 + (numeral n).length := by
    rw [labelText, List.length_append, decimal]
    simp [asciiBytes]
  omega

/-- The label of a CPU of the table fits in the buffer it is written to. -/
theorem checkCpuLine_iff {n : Nat} (h : n < glibtopNcpu) (line : List UInt8) :
    checkCpuLine line n = true ↔ labelText n <+: line := by
  have ht : (labelText n).take 9 = labelText n := List.take_of_length_le (length_labelText_le h)
  rw [← List.isPrefixOf_iff_prefix, ← ht]
  rfl

theorem notMem_labelText {c : UInt8} (h : c.toNat < 48) (n : Nat) : c ∉ labelText n := by
  intro hm
  obtain hm | hm := List.mem_append.mp hm
  · have hl : (asciiBytes ['c', 'p', 'u']).all (fun b ↦ 48 ≤ b.toNat) = true := by decide
    have hc := of_decide_eq_true (List.all_eq_true.mp hl c hm)
    omega
  · exact notMem_decimal h n hm

theorem notMem_words {c : UInt8} (h : c.toNat < 48) (h32 : c ≠ 32) (values : List (BitVec 64)) :
    c ∉ spaced (words values) [] := by
  intro hm
  rw [spaced, List.append_nil] at hm
  obtain ⟨word, hw, hm⟩ := List.mem_flatMap.mp hm
  obtain ⟨v, -, rfl⟩ := List.mem_map.mp hw
  obtain hm | hm := List.mem_cons.mp hm
  · exact h32 hm
  · exact notMem_decimal h v.toNat hm

theorem notMem_text {c : UInt8} (h : c.toNat < 48) (h32 : c ≠ 32) (l : CpuLine) : c ∉ l.text := by
  intro hm
  obtain hm | hm := List.mem_append.mp hm
  · exact notMem_labelText h l.label hm
  · exact notMem_words h h32 l.values hm

theorem spaced_append (ws : List (List UInt8)) (tail : List UInt8) :
    spaced ws tail = spaced ws [] ++ tail := by
  rw [spaced, spaced, List.append_nil]

/-- The label looked for is the start of the buffer when it is that of the line. -/
theorem checkCpuLine_take {n : Nat} (h : n < glibtopNcpu) (l : CpuLine) (next : List UInt8)
    (room : Nat) :
    checkCpuLine ((labelText l.label ++ spaced (words l.values) (10 :: next)).take room) n = true ↔
      labelText n <+: l.text.take room := by
  have he : labelText l.label ++ spaced (words l.values) (10 :: next) = l.text ++ 10 :: next := by
    rw [spaced_append, CpuLine.text, List.append_assoc]
  rw [checkCpuLine_iff h, he]
  constructor
  · intro hp
    rw [List.take_append] at hp
    by_cases hr : room ≤ l.text.length
    · rw [Nat.sub_eq_zero_of_le hr, List.take_zero, List.append_nil] at hp
      exact hp
    · obtain ⟨rest, hrest⟩ : ∃ rest, room - l.text.length = rest + 1 :=
        ⟨room - l.text.length - 1, by omega⟩
      rw [hrest, List.take_succ_cons, List.take_of_length_le (by omega)] at hp
      rw [List.take_of_length_le (by omega)]
      exact prefix_of_prefix_line (notMem_labelText (by decide) n) hp
  · intro hp
    rw [List.take_append]
    exact hp.trans (List.prefix_append _ _)

theorem le_countCpus (p : List UInt8) (n : Nat) : (n : Int) - 1 ≤ countCpus p n := by
  fun_induction countCpus p n with
  | case1 p n h ih => omega
  | case2 p n h => omega

theorem length_xcpuTimes_le (osVersionCode count i : Nat) (p : List UInt8) :
    (xcpuTimes osVersionCode count i p).length ≤ count := by
  induction count generalizing i p with
  | zero => exact Nat.le_refl _
  | succ count ih =>
    rw [xcpuTimes]
    split
    · exact Nat.succ_le_succ (ih _ _)
    · exact Nat.zero_le _

/-- Where a line is cut before its first number, nothing follows. -/
theorem nextToken_cutTail {room : Nat} {values : List (BitVec 64)} (h : values ≠ [])
    (hc : cutValues room values = []) (next : List UInt8) :
    nextToken (cutTail room values next) = [] ∧ skipLine (cutTail room values next) = [] := by
  cases values with
  | nil => exact absurd rfl h
  | cons v values =>
    rw [cutValues] at hc
    rw [cutTail]
    by_cases hs : (decimal v.toNat).length < room
    · rw [if_pos hs] at hc
      exact absurd hc (List.cons_ne_nil _ _)
    · rw [if_neg hs] at hc ⊢
      by_cases h1 : room ≤ 1
      · rw [if_pos h1]
        obtain rfl | rfl : room = 0 ∨ room = 1 := by omega
        · exact ⟨rfl, rfl⟩
        · exact ⟨rfl, rfl⟩
      · rw [if_neg h1] at hc
        exact absurd hc (List.cons_ne_nil _ _)

/-- The columns of a line that is cut, and the line behind it. -/
theorem readTimesOfCpu_cut (osVersionCode room : Nat) {values : List (BitVec 64)} (h : values ≠ [])
    {next : List UInt8} (hn : ∀ b ∈ next.head?, startsNone b) :
    ∃ p, readTimesOfCpu osVersionCode
        (nextToken ((spaced (words values) (10 :: next)).take room)) =
          (timesOf osVersionCode (cutValues room values), p) ∧
      skipLine p = next.take (room - lineSize values) := by
  have ht := noNumber_cutTail room values hn
  have hs := skipLine_cutTail room values next
  rw [take_spaced]
  by_cases hc : cutValues room values = []
  · obtain ⟨hnil, hskip⟩ := nextToken_cutTail h hc next
    rw [hc, words_nil, spaced_nil, hnil, ← hs, hskip]
    exact ⟨_, readTimesOfCpu_spaced (noNumber_nil (.inl rfl)) osVersionCode [], skipLine_spaced _ _⟩
  · rw [readTimesOfCpu_nextToken ht osVersionCode hc, readTimesOfCpu_spaced ht, ← hs]
    exact ⟨_, rfl, skipLine_spaced _ _⟩

theorem startsNone_tableText {rest : List UInt8} (hr : ∀ b ∈ rest.head?, startsNone b)
    (ls : List CpuLine) : ∀ b ∈ (tableText ls rest).head?, startsNone b := by
  cases ls with
  | nil => exact hr
  | cons l ls =>
    intro b hb
    obtain rfl := Option.mem_some_iff.mp hb
    decide

section

variable {l : CpuLine} {ls : List CpuLine} {rest : List UInt8} {room : Nat}

private theorem take_label (h : (labelText l.label).length ≤ room) :
    (tableText (l :: ls) rest).take room = labelText l.label ++
      (spaced (words l.values) (10 :: tableText ls rest)).take
        (room - (labelText l.label).length) := by
  rw [tableText, List.take_append, List.take_of_length_le h]

/-- The line behind a line. -/
theorem skipLine_table (h : (labelText l.label).length ≤ room) :
    skipLine ((tableText (l :: ls) rest).take room) =
      (tableText ls rest).take (room - (labelText l.label).length - lineSize l.values) := by
  have hl : ∀ b ∈ labelText l.label, b ≠ 0 ∧ b ≠ 10 := by
    intro b hb
    constructor
    · rintro rfl
      exact notMem_labelText (by decide) _ hb
    · rintro rfl
      exact notMem_labelText (by decide) _ hb
  rw [take_label h, skipLine_append hl, take_spaced, skipLine_spaced, skipLine_cutTail]

/-- The columns of a line of the table, and the line behind it. -/
theorem readTimesOfCpu_table (osVersionCode : Nat) (hr : ∀ b ∈ rest.head?, startsNone b)
    (h : (labelText l.label).length ≤ room) :
    ∃ p, readTimesOfCpu osVersionCode (skipToken ((tableText (l :: ls) rest).take room)) =
        (timesOf osVersionCode (cutValues (room - (labelText l.label).length) l.values), p) ∧
      skipLine p =
        (tableText ls rest).take (room - (labelText l.label).length - lineSize l.values) := by
  have hb : Blank ((spaced (words l.values) (10 :: tableText ls rest)).take
      (room - (labelText l.label).length)) := by
    rw [take_spaced]
    exact blank_spaced (blank_cutTail _ _ _) _
  rw [take_label h, skipToken_token (isToken_labelText _) hb]
  exact readTimesOfCpu_cut osVersionCode _ l.values_ne (startsNone_tableText hr ls)

/-- The line at a place is looked for by the label of the place. -/
theorem checkCpuLine_table {n : Nat} (h : n < glibtopNcpu) :
    checkCpuLine ((tableText (l :: ls) rest).take room) n = true ↔
      labelText n <+: l.text.take room :=
  checkCpuLine_take h l (tableText ls rest) room

/-- The line of the place is found when its label is in the buffer. -/
theorem labelText_prefix_take (l : CpuLine) (room : Nat) :
    labelText l.label <+: l.text.take room ↔ (labelText l.label).length ≤ room := by
  constructor
  · intro hp
    have hl := hp.length_le
    rw [List.length_take] at hl
    omega
  · intro hr
    rw [CpuLine.text, List.take_append, List.take_of_length_le hr]
    exact List.prefix_append _ _

end

/-- The rows from an index on are the times of the lines with these labels. -/
def RowsRight (osVersionCode : Nat) (i : Nat) (ls : List CpuLine) (rows : List CpuTimes) : Prop :=
  ∀ n, i ≤ n → n < glibtopNcpu →
    rows[n - i]? = (lineOf n ls).map fun l ↦ timesOf osVersionCode l.values

theorem lineOf_eq_none_iff (n : Nat) (ls : List CpuLine) :
    lineOf n ls = none ↔ ∀ l ∈ ls, l.label ≠ n := by
  simp [lineOf, List.find?_eq_none]

/-- A row is one of the line at its place, and the others are those of the lines behind. -/
theorem rowsRight_cons {osVersionCode i : Nat} {l : CpuLine} {ls : List CpuLine}
    (hi : i < glibtopNcpu) (hl : l.label = i) (row : CpuTimes) (rows : List CpuTimes) :
    RowsRight osVersionCode i (l :: ls) (row :: rows) ↔
      row = timesOf osVersionCode l.values ∧ RowsRight osVersionCode (i + 1) ls rows := by
  have hhead : lineOf i (l :: ls) = some l := List.find?_cons_of_pos (by simp [hl])
  have htail : ∀ n, i < n → lineOf n (l :: ls) = lineOf n ls := by
    intro n hn
    exact List.find?_cons_of_neg (by simp; omega)
  constructor
  · intro h
    constructor
    · have h0 := h i (Nat.le_refl i) hi
      rw [hhead, Nat.sub_self] at h0
      exact Option.some.inj h0
    · intro n hn hlt
      have h1 := h n (by omega) hlt
      have he : n - i = n - (i + 1) + 1 := by omega
      rw [htail n hn, he] at h1
      exact h1
  · rintro ⟨hrow, h⟩ n hn hlt
    by_cases he : n = i
    · rw [he, hhead, Nat.sub_self, hrow]
      rfl
    · have hs : n - i = n - (i + 1) + 1 := by omega
      rw [htail n (by omega), hs]
      exact h n (by omega) hlt

/-- Nothing is stored for lines of CPUs that are not in the table. -/
theorem rowsRight_nil {osVersionCode i : Nat} {ls : List CpuLine} :
    RowsRight osVersionCode i ls [] ↔ ∀ l ∈ ls, i ≤ l.label → glibtopNcpu ≤ l.label := by
  have hn : ∀ n, ([] : List CpuTimes)[n - i]? =
      (lineOf n ls).map (fun l ↦ timesOf osVersionCode l.values) ↔ ∀ l ∈ ls, l.label ≠ n := by
    intro n
    rw [List.getElem?_nil, eq_comm, Option.map_eq_none_iff, lineOf_eq_none_iff]
  constructor
  · intro h l hl hi
    by_contra hlt
    exact (hn l.label).mp (h l.label hi (by omega)) l hl rfl
  · intro h n hi hlt
    refine (hn n).mpr fun l hl he ↦ ?_
    have hge := h l hl (by omega)
    omega

/-- What is stored at a place that no line is of is not right. -/
theorem not_rowsRight_cons {osVersionCode i : Nat} {ls : List CpuLine} {times : CpuTimes}
    {rows : List CpuTimes} (hi : i < glibtopNcpu) (hn : ∀ l ∈ ls, l.label ≠ i) :
    ¬RowsRight osVersionCode i ls (times :: rows) := by
  intro h
  have h0 := h i (Nat.le_refl i) hi
  rw [(lineOf_eq_none_iff i ls).mpr hn, Nat.sub_self] at h0
  exact absurd h0 (Option.some_ne_none _)

section

variable {osVersionCode : Nat} {rest : List UInt8}

/-- The number of turns the loop over the rows has left, when the count of the CPUs goes on at a
text. -/
def turns (text : List UInt8) (i : Nat) : Nat :=
  min glibtopNcpu (countCpus text i + 1).toNat - i

/-- The count stops at a line that does not match, and the loop has no turn left. -/
theorem turns_stop {text : List UInt8} {i : Nat} (h : ¬checkCpuLine text i = true) :
    turns text i = 0 := by
  rw [turns, countCpus, dif_neg h]
  omega

/-- A line that matches takes one turn. -/
theorem turns_step {text : List UInt8} {i : Nat} (hi : i < glibtopNcpu)
    (h : checkCpuLine text i = true) : turns text i = turns (skipLine text) (i + 1) + 1 := by
  have hge := le_countCpus (skipLine text) (i + 1)
  rw [turns, countCpus, dif_pos h, turns]
  omega

/-- A line that matches is stored. -/
theorem xcpuTimes_step {text p : List UInt8} {i : Nat} (hi : i < glibtopNcpu)
    (hp : skipLine p = text) (h : checkCpuLine text i = true) :
    xcpuTimes osVersionCode (turns text i) i p =
      (readTimesOfCpu osVersionCode (skipToken text)).1 ::
        xcpuTimes osVersionCode (turns (skipLine text) (i + 1)) (i + 1)
          (readTimesOfCpu osVersionCode (skipToken text)).2 := by
  rw [turns_step hi h, xcpuTimes, hp]
  exact if_pos h

/-- What follows the table does not look like the line of a CPU, however much of it is read. -/
theorem not_checkCpuLine_rest (ho : ¬asciiBytes ['c', 'p', 'u'] <+: rest) (i room : Nat) :
    ¬checkCpuLine (rest.take room) i = true := by
  intro h
  have hp := List.isPrefixOf_iff_prefix.mp h
  rw [List.take_append] at hp
  exact ho (((List.prefix_append _ _).trans hp).trans (List.take_prefix _ _))

/-- Where the loop ends nothing is stored, which is right when no CPU of the table is left. -/
theorem rowsRight_stop {i room : Nat} {l : CpuLine} {ls : List CpuLine} (hlt : i < glibtopNcpu)
    (hl : ∀ l' ∈ ls, l.label < l'.label) (hil : i ≤ l.label)
    (hc : ¬labelText i <+: l.text.take room) :
    RowsRight osVersionCode i (l :: ls) [] ↔ InPlace osVersionCode i room (l :: ls) := by
  rw [rowsRight_nil, InPlace]
  constructor
  · intro h
    have hge := h l List.mem_cons_self hil
    exact .inr (.inr ⟨by omega, hge, hc⟩)
  · rintro (h | ⟨rfl, hroom, -⟩ | ⟨-, hge, -⟩)
    · exact absurd h (by omega)
    · exact absurd ((labelText_prefix_take l room).mpr hroom) hc
    · intro l' hl' _
      obtain rfl | hl' := List.mem_cons.mp hl'
      · exact hge
      · have hgt := hl l' hl'
        omega

/-- A line of another CPU that looks like the one of the place is stored where no CPU has its
times. -/
theorem rowsRight_other {i room : Nat} {l : CpuLine} {ls : List CpuLine} {times : CpuTimes}
    {rows : List CpuTimes} (hlt : i < glibtopNcpu) (hl : ∀ l' ∈ ls, l.label < l'.label)
    (hil : i ≤ l.label) (he : l.label ≠ i) (hc : labelText i <+: l.text.take room) :
    RowsRight osVersionCode i (l :: ls) (times :: rows) ↔
      InPlace osVersionCode i room (l :: ls) := by
  have hnone : ∀ l' ∈ l :: ls, l'.label ≠ i := by
    refine List.forall_mem_cons.mpr ⟨he, fun l' hl' ↦ ?_⟩
    have hgt := hl l' hl'
    omega
  rw [InPlace]
  apply iff_of_false
  · exact not_rowsRight_cons hlt hnone
  · rintro (h | ⟨h, -⟩ | ⟨-, -, h⟩)
    · exact absurd h (by omega)
    · exact he h
    · exact h hc

/-- The rows of the lines from a place on are right exactly when these are in place. -/
theorem rowsRight_iff (hr : ∀ b ∈ rest.head?, startsNone b)
    (ho : ¬asciiBytes ['c', 'p', 'u'] <+: rest) {ls : List CpuLine}
    (hs : ls.Pairwise fun a b ↦ a.label < b.label) (i room : Nat) (hi : ∀ l ∈ ls, i ≤ l.label)
    (p : List UInt8) (hp : skipLine p = (tableText ls rest).take room) :
    RowsRight osVersionCode i ls
        (xcpuTimes osVersionCode (turns ((tableText ls rest).take room) i) i p) ↔
      InPlace osVersionCode i room ls := by
  induction ls generalizing i room p with
  | nil =>
    rw [tableText, turns_stop (not_checkCpuLine_rest ho i room)]
    exact iff_of_true (rowsRight_nil.mpr fun _ hl ↦ absurd hl List.not_mem_nil) trivial
  | cons l ls ih =>
    obtain ⟨hl, hs⟩ := List.pairwise_cons.mp hs
    obtain ⟨hil, -⟩ := List.forall_mem_cons.mp hi
    by_cases hn : glibtopNcpu ≤ i
    · exact iff_of_true (fun n hin hlt ↦ absurd hlt (by omega)) (.inl hn)
    · have hlt : i < glibtopNcpu := by omega
      have hcheck : checkCpuLine ((tableText (l :: ls) rest).take room) i = true ↔
          labelText i <+: l.text.take room := checkCpuLine_table hlt
      by_cases hc : checkCpuLine ((tableText (l :: ls) rest).take room) i = true
      · rw [xcpuTimes_step hlt hp hc]
        by_cases he : l.label = i
        · -- the line of the place: its columns, and the lines behind it
          subst he
          have hroom := (labelText_prefix_take l room).mp (hcheck.mp hc)
          obtain ⟨q, hq, hqs⟩ := readTimesOfCpu_table osVersionCode hr hroom
          rw [hq, rowsRight_cons hlt rfl, skipLine_table hroom, ih hs _ _ hl q hqs, timesOf_eq_iff,
            ← columnsShown_iff, InPlace]
          constructor
          · rintro ⟨hshown, hin⟩
            exact .inr (.inl ⟨rfl, hroom, hshown, hin⟩)
          · rintro (h | ⟨-, -, hshown, hin⟩ | ⟨h, -⟩)
            · exact absurd h hn
            · exact ⟨hshown, hin⟩
            · exact absurd h (Nat.lt_irrefl _)
        · exact rowsRight_other hlt hl hil he (hcheck.mp hc)
      · rw [turns_stop hc, xcpuTimes]
        exact rowsRight_stop hlt hl hil fun h ↦ hc (hcheck.mpr h)

/-- The place of the first line of a CPU in the buffer. -/
def StatTable.room (t : StatTable) : Nat := statBufsiz - 1 - 4 - lineSize t.total

theorem StatTable.noNul_text (t : StatTable) : 0 ∉ t.text := by
  have hw : ∀ values : List (BitVec 64), 0 ∉ spaced (words values) [] :=
    notMem_words (by decide) (by decide)
  have ht : ∀ ls : List CpuLine, 0 ∉ tableText ls t.rest := by
    intro ls
    induction ls with
    | nil => exact t.rest_noNul
    | cons l ls ih =>
      have hl : 0 ∉ labelText l.label := notMem_labelText (by decide) _
      rw [tableText, spaced_append]
      simp [hl, hw, ih]
  have hc : 0 ∉ asciiBytes ['c', 'p', 'u'] := by decide
  rw [text, spaced_append]
  simp [hc, hw, ht]

/-- Both functions see the lines of the CPUs up to the end of the buffer. -/
theorem StatTable.buffer (t : StatTable) (osVersionCode : Nat) :
    ∃ buffer, tryFileToBuffer statBufsiz (some t.text) = some buffer ∧
      skipLine buffer = (tableText t.cpus t.rest).take t.room ∧
      ∃ times p, readTimesOfCpu osVersionCode (skipToken buffer) = (times, p) ∧
        skipLine p = (tableText t.cpus t.rest).take t.room := by
  have ht : t.text.take (statBufsiz - 1) = asciiBytes ['c', 'p', 'u'] ++ 32 ::
      (spaced (words t.total) (10 :: tableText t.cpus t.rest)).take (statBufsiz - 1 - 4) := by
    rw [text, List.take_append]
    rfl
  refine ⟨_, tryFileToBuffer_take statBufsiz t.noNul_text, ?_, ?_⟩
  · have hl : ∀ b ∈ asciiBytes ['c', 'p', 'u'] ++ [32], b ≠ 0 ∧ b ≠ 10 := by
      have ha : (asciiBytes ['c', 'p', 'u'] ++ [32]).all (fun b ↦ b ≠ 0 ∧ b ≠ 10) = true := by
        decide
      exact fun b hb ↦ of_decide_eq_true (List.all_eq_true.mp ha b hb)
    rw [ht, List.append_cons, skipLine_append hl, take_spaced, skipLine_spaced, skipLine_cutTail]
    rfl
  · have hc : IsToken (asciiBytes ['c', 'p', 'u']) := by decide
    have hblank : Blank (32 :: (spaced (words t.total) (10 :: tableText t.cpus t.rest)).take
        (statBufsiz - 1 - 4)) := blank_cons (by decide) _
    rw [ht, skipToken_token hc hblank, nextToken_blank]
    obtain ⟨p, hp, hs⟩ := readTimesOfCpu_cut osVersionCode (statBufsiz - 1 - 4) t.total_ne
      (startsNone_tableText t.rest_label t.cpus)
    exact ⟨_, p, hp, hs⟩

end

/-- Both functions together, on the lines of the CPUs. -/
theorem cpusRight_iff_rows (osVersionCode : Nat) (t : StatTable) :
    ∃ p, skipLine p = (tableText t.cpus t.rest).take t.room ∧
      (CpusRight osVersionCode t ↔ RowsRight osVersionCode 0 t.cpus (xcpuTimes osVersionCode
        (turns ((tableText t.cpus t.rest).take t.room) 0) 0 p)) := by
  obtain ⟨buffer, hb, hskip, times, p, hread, hp⟩ := t.buffer osVersionCode
  have hturns : (min ((glibtopNcpu : Int) - 1)
      (countCpus ((tableText t.cpus t.rest).take t.room) 0) + 1).toNat =
        turns ((tableText t.cpus t.rest).take t.room) 0 := by
    rw [turns]
    omega
  refine ⟨p, hp, ?_⟩
  rw [CpusRight, glibtopOpenS, hb, Option.map_some]
  simp only [hskip, glibtopGetCpuS, hb, Option.map_some, hread]
  constructor
  · rintro ⟨realNcpu, ncpu, cpu, hopen, hget, -, hright⟩ n - hlt
    obtain ⟨-, rfl⟩ := Prod.mk.inj (Option.some.inj hopen)
    obtain rfl := Option.some.inj hget
    have h := hright n hlt
    rw [hturns] at h
    exact h
  · intro hright
    refine ⟨_, _, _, rfl, rfl, ?_, ?_⟩
    · intro l hl hlt
      have h := hright l.label (Nat.zero_le _) hlt
      have hsome : lineOf l.label t.cpus ≠ none := fun hnone ↦
        (lineOf_eq_none_iff _ _).mp hnone l hl rfl
      have hlen : l.label - 0 < (xcpuTimes osVersionCode
          (turns ((tableText t.cpus t.rest).take t.room) 0) 0 p).length := by
        by_contra hge
        rw [List.getElem?_eq_none (by omega), eq_comm, Option.map_eq_none_iff] at h
        exact hsome h
      have hle := length_xcpuTimes_le osVersionCode
        (turns ((tableText t.cpus t.rest).take t.room) 0) 0 p
      omega
    · intro n hlt
      rw [hturns]
      exact hright n (Nat.zero_le n) hlt

/-- The CPU table is right exactly when the lines are in place. -/
theorem cpu_table_iff (osVersionCode : Nat) (t : StatTable) :
    CpusRight osVersionCode t ↔ InPlace osVersionCode 0 t.room t.cpus := by
  obtain ⟨p, hp, hright⟩ := cpusRight_iff_rows osVersionCode t
  rw [hright]
  exact rowsRight_iff t.rest_label t.rest_other t.increasing 0 t.room (fun _ _ ↦ Nat.zero_le _) p hp

/-- A table of CPUs with one value each. -/
def sampleTable (labels : List Nat) (h : labels.Pairwise (· < ·)) : StatTable where
  total := [0, 0, 0, 0]
  total_ne := List.cons_ne_nil _ _
  cpus := labels.map fun n ↦ ⟨n, [BitVec.ofNat 64 n + 1], List.cons_ne_nil _ _⟩
  increasing := List.pairwise_map.mpr h
  rest := asciiBytes "intr 5\n".toList
  rest_noNul := by decide
  rest_label := by
    intro b hb
    obtain rfl := Option.mem_some_iff.mp hb
    decide
  rest_other := by decide

/-- The times of a CPU behind a gap are not stored, and those of CPU 10 are stored as those of CPU
1 when it follows CPU 0. -/
theorem cpu_table_gap :
    ¬CpusRight 0 (sampleTable [0, 2] (by decide)) ∧
      ¬CpusRight 0 (sampleTable [0, 10] (by decide)) ∧
      (glibtopGetCpuS 0 1 (some (sampleTable [0, 10] (by decide)).text)).map (fun cpu ↦ cpu.xcpu) =
        some [timesOf 0 [1], timesOf 0 [11]] := by
  have hnot : ∀ t : StatTable, ¬InPlace 0 0 t.room t.cpus → ¬CpusRight 0 t := by
    intro t hn h
    obtain ⟨p, hp, hright⟩ := cpusRight_iff_rows 0 t
    exact hn ((rowsRight_iff t.rest_label t.rest_other t.increasing 0 t.room
      (fun _ _ ↦ Nat.zero_le _) p hp).mp (hright.mp h))
  exact ⟨hnot _ (by decide +kernel), hnot _ (by decide +kernel), by decide +kernel⟩

end LibGTop.Linux
