import LibGTop.Linux.NetDev
import Mathlib.Data.List.GetD

/-!
# The table of `/proc/net/dev`

The format of the table, and the counters that `linux_2_4_stats` reads from it. The columns of
the header and of the lines have blanks of their own.
-/

namespace LibGTop.Linux

open Base Common

/-- A byte in the name of a column. -/
def isColumnByte (b : UInt8) : Bool := b ≠ 0 && b ≠ 124 && !isSpace b

/-- The name of a column. -/
abbrev ColumnName := { name : List UInt8 // name ≠ [] ∧ ∀ b ∈ name, isColumnByte b }

/-- The name of an interface: without blanks and colons. -/
abbrev DeviceName := { name : List UInt8 // ∀ b ∈ name, b ≠ 0 ∧ b ≠ 58 ∧ isSpace b = false }

/-- A group of columns in the header. -/
structure ColumnGroup where
  first : ColumnName
  others : List (Gap × ColumnName)

/-- The number of columns. -/
def ColumnGroup.columns (group : ColumnGroup) : Nat := group.others.length + 1

/-- Names with the blanks before each. -/
def namesText (others : List (Gap × ColumnName)) : List UInt8 :=
  others.flatMap fun (gap, name) ↦ gap.1 ++ name.1

/-- The text of the group. -/
def ColumnGroup.text (group : ColumnGroup) : List UInt8 := group.first.1 ++ namesText group.others

/-- Counters with the blanks before each. -/
def countersText (counters : List (Gap × BitVec 64)) : List UInt8 :=
  counters.flatMap fun (gap, value) ↦ gap.1 ++ decimal value.toNat

/-- The line of an interface. -/
structure NetDevice where
  lead : Blanks
  name : DeviceName
  blanks : Blanks
  first : BitVec 64
  others : List (Gap × BitVec 64)
  sent : List (Gap × BitVec 64)
  trail : Blanks

/-- The counters of the receive group. -/
def NetDevice.receivedValues (d : NetDevice) : List (BitVec 64) :=
  d.first :: d.others.map Prod.snd

/-- The counters of the transmit group. -/
def NetDevice.sentValues (d : NetDevice) : List (BitVec 64) := d.sent.map Prod.snd

/-- The text of the line. -/
def NetDevice.line (d : NetDevice) : List UInt8 :=
  d.lead.1 ++ (d.name.1 ++ 58 :: (d.blanks.1 ++
    (decimal d.first.toNat ++ (countersText (d.others ++ d.sent) ++ d.trail.1))))

/-- The name of the column of byte counters. -/
def bytesName : List UInt8 := asciiBytes "bytes".toList

/-- The table: two header lines and the lines of the interfaces. -/
structure NetDevTable where
  title : { line : List UInt8 // 10 ∉ line }
  face : { text : List UInt8 // ∀ b ∈ text, b ≠ 0 ∧ b ≠ 10 ∧ b ≠ 124 }
  receive : ColumnGroup
  transmit : ColumnGroup
  devices : List NetDevice
  bytes_both : receive.first.1 = bytesName ↔ transmit.first.1 = bytesName
  three_columns : 3 ≤ receive.columns
  collisions_column : (if receive.first.1 = bytesName then 6 else 5) ≤ transmit.columns
  matching : ∀ d ∈ devices, d.receivedValues.length = receive.columns ∧
    d.sentValues.length = transmit.columns

namespace NetDevTable

variable (t : NetDevTable)

/-- The second line of the header. -/
def header : List UInt8 := t.face.1 ++ 124 :: (t.receive.text ++ 124 :: t.transmit.text)

/-- The lines. -/
def lines : List (List UInt8) := t.title.1 :: t.header :: t.devices.map NetDevice.line

/-- The text of the table. -/
def text : List UInt8 := Base.text t.lines

/-- There are columns of byte counters. -/
def HasBytes : Prop := t.receive.first.1 = bytesName

instance : Decidable t.HasBytes := inferInstanceAs (Decidable (_ = _))

/-- Each line fits the buffer. -/
def Fits : Prop := ∀ line ∈ t.lines, line.length + 1 < bufsiz - 1

instance : Decidable t.Fits := inferInstanceAs (Decidable (∀ line ∈ _, _))

/-- The name of the first receive column is that of the byte counters or does not start with it. -/
def PlainNames : Prop := bytesName <+: t.receive.first.1 → t.HasBytes

instance : Decidable t.PlainNames := inferInstanceAs (Decidable (_ → _))

end NetDevTable

/-- The counters are those of an interface, where one column may stand before those of the
packets. -/
structure NetDevice.Counted (d : NetDevice) (before : Nat) (buf : NetStats) : Prop where
  packetsIn : buf.counter .packetsIn = d.receivedValues.getD before 0
  errorsIn : buf.counter .errorsIn = d.receivedValues.getD (before + 1) 0
  packetsOut : buf.counter .packetsOut = d.sentValues.getD before 0
  errorsOut : buf.counter .errorsOut = d.sentValues.getD (before + 1) 0
  collisions : buf.counter .collisions = d.sentValues.getD (before + 4) 0
  packetsTotal : buf.counter .packetsTotal = buf.counter .packetsIn + buf.counter .packetsOut
  bytesTotal : buf.counter .bytesTotal = buf.counter .bytesIn + buf.counter .bytesOut
  bytes : before = 1 → buf.counter .bytesIn = d.receivedValues.getD 0 0 ∧
    buf.counter .bytesOut = d.sentValues.getD 0 0

section

variable {gap rest p : List UInt8} {values : List (BitVec 64)}

/-- Names have neither blanks nor bars, so the scan passes over them. -/
theorem countFields_name {name : List UInt8} (h : ∀ b ∈ name, isColumnByte b) (fields : Nat) :
    countFields (name ++ rest) fields = countFields rest fields := by
  induction name with
  | nil => rfl
  | cons b name ih =>
    obtain ⟨hb, h⟩ := List.forall_mem_cons.mp h
    simp only [isColumnByte, Bool.and_eq_true, decide_eq_true_eq] at hb
    rw [List.cons_append, countFields, if_neg hb.1.2, if_pos hb.2, ih h]

/-- Blanks and the byte behind them are a field. -/
theorem countFields_gap (hn : gap ≠ []) (hg : ∀ b ∈ gap, isBlankByte b) {c : UInt8}
    (hc : isSpace c = false) (fields : Nat) :
    countFields (gap ++ c :: rest) fields = countFields rest (fields + 1) := by
  have hpass : ∀ gap : List UInt8, (∀ b ∈ gap, isBlankByte b) →
      passBlanks (gap ++ c :: rest) = some rest := by
    intro gap
    induction gap with
    | nil => exact fun _ ↦ by rw [List.nil_append, passBlanks, hc]; rfl
    | cons b gap ih =>
      intro hg
      obtain ⟨hb, hg⟩ := List.forall_mem_cons.mp hg
      rw [List.cons_append, passBlanks, if_pos (isSpace_of_isBlankByte hb), ih hg]
  cases gap with
  | nil => exact absurd rfl hn
  | cons b gap =>
    obtain ⟨hb, hg⟩ := List.forall_mem_cons.mp hg
    have hspace := isSpace_of_isBlankByte hb
    have hbar : b ≠ 124 := fun he ↦ by
      rw [he] at hspace
      exact absurd hspace (by decide)
    rw [List.cons_append, countFields, if_neg hbar, hspace]
    simp only [Bool.not_true, Bool.false_eq_true, if_false]
    split
    · next hnone =>
      rw [hpass gap hg] at hnone
      exact absurd hnone (Option.some_ne_none rest)
    · next p hsome =>
      rw [hpass gap hg] at hsome
      rw [Option.some.inj hsome]

/-- The scan counts the gaps of a group. -/
theorem countFields_group (group : ColumnGroup) (rest : List UInt8) :
    countFields (group.text ++ 124 :: rest) 0 = some group.others.length := by
  have hnames : ∀ (others : List (Gap × ColumnName)) (fields : Nat),
      countFields (namesText others ++ 124 :: rest) fields = some (fields + others.length) := by
    intro others
    induction others with
    | nil =>
      intro fields
      rw [namesText, List.flatMap_nil, List.nil_append, countFields, if_pos rfl]
      rfl
    | cons column others ih =>
      intro fields
      obtain ⟨⟨gap, hn, hg⟩, ⟨name, hname, hbytes⟩⟩ := column
      obtain ⟨c, name, rfl⟩ := List.exists_cons_of_ne_nil hname
      obtain ⟨hc, hbytes⟩ := List.forall_mem_cons.mp hbytes
      have hspace : isSpace c = false := by
        simp only [isColumnByte, Bool.and_eq_true, Bool.not_eq_true'] at hc
        exact hc.2
      have htext : namesText ((⟨gap, hn, hg⟩, ⟨c :: name, hname, List.forall_mem_cons.mpr
          ⟨hc, hbytes⟩⟩) :: others) ++ 124 :: rest =
          gap ++ c :: (name ++ (namesText others ++ 124 :: rest)) := by
        simp [namesText]
      rw [htext, countFields_gap hn hg hspace, countFields_name hbytes, ih, List.length_cons]
      congr 1
      omega
  rw [ColumnGroup.text, List.append_assoc, countFields_name group.first.2.2, hnames, Nat.zero_add]

/-- A pointer to counters: behind the one that was read last, or at the next. -/
def Columns : List (BitVec 64) → List UInt8 → Prop
  | [], _ => True
  | value :: values, p => ∃ gap rest, (∀ b ∈ gap, isBlankByte b) ∧ Blank rest ∧ Stops rest ∧
      p = gap ++ (decimal value.toNat ++ rest) ∧ Columns values rest

/-- `strtoull` reads the next counter. -/
theorem strtoull_columns {p : List UInt8} {values : List (BitVec 64)} {i : Nat}
    (h : Columns (values.drop i) p) (hi : i < values.length) :
    (strtoull 0 p).1 = values.getD i 0 ∧ Columns (values.drop (i + 1)) (strtoull 0 p).2 := by
  rw [List.drop_eq_getElem_cons hi] at h
  obtain ⟨gap, rest, hg, -, hs, rfl, hrest⟩ := h
  have hspaces : ∀ b ∈ gap, isSpace b := fun b hb ↦ isSpace_of_isBlankByte (hg b hb)
  have hvalue : values.getD i 0 = values[i] := by
    rw [List.getD_eq_getElem?_getD, List.getElem?_eq_getElem hi, Option.getD_some]
  rw [strtoull_decimal (.inl rfl) hspaces _ hs, clampUnsigned_toNat, hvalue]
  exact ⟨rfl, hrest⟩

/-- Blanks before a counter are passed over. -/
theorem columns_nextToken {p : List UInt8} (h : Columns values p) :
    Columns values (nextToken p) := by
  cases values with
  | nil => trivial
  | cons value values =>
    obtain ⟨gap, rest, hg, hb, hs, rfl, hrest⟩ := h
    refine ⟨[], rest, List.forall_mem_nil _, hb, hs, ?_, hrest⟩
    rw [nextToken, List.dropWhile_append_of_pos fun b hb ↦ gAsciiIsspace_of_isBlankByte (hg b hb)]
    exact (isToken_decimal value.toNat).head rest

/-- `skip_token` passes over a counter. -/
theorem columns_skipToken {p : List UInt8} (h : Columns values p) :
    Columns (values.drop 1) (skipToken p) := by
  cases values with
  | nil => trivial
  | cons value values =>
    obtain ⟨gap, rest, hg, hb, hs, rfl, hrest⟩ := h
    have hgap : nextToken (gap ++ (decimal value.toNat ++ rest)) = decimal value.toNat ++ rest := by
      rw [nextToken,
        List.dropWhile_append_of_pos fun b hb ↦ gAsciiIsspace_of_isBlankByte (hg b hb)]
      exact (isToken_decimal value.toNat).head rest
    rw [skipToken, hgap, (isToken_decimal value.toNat).dropWhile hb]
    exact columns_nextToken hrest

/-- `skip_multiple_token` passes over as many counters. -/
theorem columns_skipMultipleToken {p : List UInt8} {i : Nat} (h : Columns (values.drop i) p)
    (count : Nat) : Columns (values.drop (i + count)) (skipMultipleToken p count) := by
  induction count generalizing i p with
  | zero => exact h
  | succ count ih =>
    have hs := columns_skipToken h
    rw [List.drop_drop] at hs
    have hc := ih hs
    rw [Nat.add_assoc, Nat.add_comm 1 count] at hc
    exact hc

end

/-- From a pointer to the counters of a line all are read from their columns. -/
theorem readCounters_counted (d : NetDevice) (haveBytes : Bool) {fields : Nat} {p : List UInt8}
    (buf : NetStats) (hp : Columns (d.receivedValues ++ d.sentValues) p)
    (hreceived : d.receivedValues.length = fields + 2) (hfields : 1 ≤ fields)
    (hsent : (if haveBytes then 6 else 5) ≤ d.sentValues.length) :
    d.Counted (if haveBytes then 1 else 0) (readCounters haveBytes fields p buf) := by
  have hlength : (d.receivedValues ++ d.sentValues).length = fields + 2 + d.sentValues.length := by
    rw [List.length_append, hreceived]
  have hleft : ∀ i < fields + 2, (d.receivedValues ++ d.sentValues).getD i 0 =
      d.receivedValues.getD i 0 := fun i hi ↦
    List.getD_append _ _ _ _ (by omega)
  -- the transmit group starts where the counters of the receive group end
  have hsentAt : ∀ {p i}, i = fields + 2 →
      Columns ((d.receivedValues ++ d.sentValues).drop i) p → Columns (d.sentValues.drop 0) p := by
    rintro p i rfl h
    rwa [List.drop_left' hreceived] at h
  rw [← List.drop_zero (l := d.receivedValues ++ d.sentValues)] at hp
  cases haveBytes with
  | false =>
    simp only [Bool.false_eq_true, if_false] at hsent ⊢
    obtain ⟨hpackets, hp⟩ := strtoull_columns hp (by omega)
    obtain ⟨herrors, hp⟩ := strtoull_columns hp (by omega)
    have hp := hsentAt (by omega) (columns_skipMultipleToken hp fields)
    obtain ⟨hpackets', hp⟩ := strtoull_columns hp (by omega)
    obtain ⟨herrors', hp⟩ := strtoull_columns hp (by omega)
    obtain ⟨hcollisions, -⟩ := strtoull_columns (columns_skipMultipleToken hp 2) (by omega)
    rw [hleft _ (by omega)] at hpackets herrors
    constructor <;>
      simp (disch := decide) only [readCounters, Bool.false_eq_true, if_false, counter_flag,
        counter_set_self, counter_set_of_ne]
    · exact hpackets
    · exact herrors
    · exact hpackets'
    · exact herrors'
    · exact hcollisions
    · exact fun h ↦ absurd h (by decide)
  | true =>
    simp only [if_true] at hsent ⊢
    obtain ⟨hbytes, hp⟩ := strtoull_columns hp (by omega)
    obtain ⟨hpackets, hp⟩ := strtoull_columns hp (by omega)
    obtain ⟨herrors, hp⟩ := strtoull_columns hp (by omega)
    have hp := hsentAt (by omega) (columns_skipMultipleToken hp (fields - 1))
    obtain ⟨hbytes', hp⟩ := strtoull_columns hp (by omega)
    obtain ⟨hpackets', hp⟩ := strtoull_columns hp (by omega)
    obtain ⟨herrors', hp⟩ := strtoull_columns hp (by omega)
    obtain ⟨hcollisions, -⟩ := strtoull_columns (columns_skipMultipleToken hp 2) (by omega)
    rw [hleft _ (by omega)] at hbytes hpackets herrors
    constructor <;>
      simp (disch := decide) only [readCounters, if_true, counter_flag, counter_set_self,
        counter_set_of_ne]
    · exact hpackets
    · exact herrors
    · exact hpackets'
    · exact herrors'
    · exact hcollisions
    · exact fun _ ↦ ⟨hbytes, hbytes'⟩

section

variable {counters : List (Gap × BitVec 64)} {tail : List UInt8}

/-- What is behind a counter. -/
def Ends (tail : List UInt8) : Prop := Blank tail ∧ Stops tail

theorem ends_cons {b : UInt8} (h : isBlankByte b ∨ b = 10) (rest : List UInt8) :
    Ends (b :: rest) := by
  simp only [isBlankByte, Bool.or_eq_true, decide_eq_true_eq] at h
  obtain (rfl | rfl) | rfl := h <;>
    exact ⟨blank_cons (by decide) rest, Stops.cons _ (by decide) rest⟩

theorem ends_gap {gap : List UInt8} (hn : gap ≠ []) (hg : ∀ b ∈ gap, isBlankByte b)
    (rest : List UInt8) : Ends (gap ++ rest) := by
  obtain ⟨b, gap, rfl⟩ := List.exists_cons_of_ne_nil hn
  exact ends_cons (.inl (hg b List.mem_cons_self)) _

theorem countersText_cons (gap : Gap) (value : BitVec 64) (counters : List (Gap × BitVec 64)) :
    countersText ((gap, value) :: counters) =
      gap.1 ++ (decimal value.toNat ++ countersText counters) := by
  simp [countersText]

theorem ends_counters (ht : Ends tail) (counters : List (Gap × BitVec 64)) :
    Ends (countersText counters ++ tail) := by
  cases counters with
  | nil => exact ht
  | cons counter counters =>
    obtain ⟨gap, value⟩ := counter
    rw [countersText_cons, List.append_assoc]
    exact ends_gap gap.2.1 gap.2.2 _

/-- At their text is a pointer to the counters. -/
theorem columns_counters (ht : Ends tail) (counters : List (Gap × BitVec 64)) :
    Columns (counters.map Prod.snd) (countersText counters ++ tail) := by
  induction counters with
  | nil => trivial
  | cons counter counters ih =>
    obtain ⟨gap, value⟩ := counter
    have he := ends_counters ht counters
    refine ⟨gap.1, countersText counters ++ tail, gap.2.2, he.1, he.2, ?_, ih⟩
    rw [countersText_cons, List.append_assoc, List.append_assoc]

theorem ne_of_mem_decimal {value : Nat} {b : UInt8} (h : b ∈ decimal value) : b ≠ 0 ∧ b ≠ 10 :=
  ⟨fun he ↦ notMem_decimal (by decide) value (he ▸ h),
    fun he ↦ notMem_decimal (by decide) value (he ▸ h)⟩

theorem ne_of_mem_countersText {b : UInt8} (h : b ∈ countersText counters) : b ≠ 0 ∧ b ≠ 10 := by
  obtain ⟨⟨gap, value⟩, -, hb⟩ := List.mem_flatMap.mp h
  obtain hb | hb := List.mem_append.mp hb
  · exact ne_of_isBlankByte (gap.2.2 b hb)
  · exact ne_of_mem_decimal hb

end

namespace NetDevice

variable (d : NetDevice)

/-- The text behind the blanks that follow the name, with the newline. -/
def numbers : List UInt8 :=
  decimal d.first.toNat ++ (countersText (d.others ++ d.sent) ++ (d.trail.1 ++ [10]))

theorem line_eq :
    d.line ++ [10] = d.lead.1 ++ (d.name.1 ++ 58 :: (d.blanks.1 ++ d.numbers)) := by
  simp [line, numbers]

theorem ne_of_mem_line {b : UInt8} (h : b ∈ d.line) : b ≠ 0 ∧ b ≠ 10 := by
  simp only [line, List.mem_append, List.mem_cons] at h
  obtain h | h | rfl | h | h | h | h := h
  · exact ne_of_isBlankByte (d.lead.2 b h)
  · obtain ⟨h0, -, hs⟩ := d.name.2 b h
    exact ⟨h0, fun he ↦ absurd (he ▸ hs) (by decide)⟩
  · decide
  · exact ne_of_isBlankByte (d.blanks.2 b h)
  · exact ne_of_mem_decimal h
  · exact ne_of_mem_countersText h
  · exact ne_of_isBlankByte (d.trail.2 b h)

theorem columns_numbers : Columns (d.receivedValues ++ d.sentValues) d.numbers := by
  have htail : Ends (d.trail.1 ++ [10]) := by
    cases htrail : d.trail.1 with
    | nil => exact ends_cons (.inr rfl) []
    | cons b trail =>
      exact ends_cons (.inl (d.trail.2 b (by rw [htrail]; exact List.mem_cons_self))) _
  have he := ends_counters htail (d.others ++ d.sent)
  have hvalues : d.receivedValues ++ d.sentValues =
      d.first :: (d.others ++ d.sent).map Prod.snd := by
    rw [receivedValues, sentValues, List.map_append, List.cons_append]
  rw [hvalues]
  exact ⟨[], _, List.forall_mem_nil _, he.1, he.2, rfl, columns_counters htail _⟩

/-- A line is taken for the interface of its name only, and from its first counter on. -/
theorem interfaceLine_eq (interface : List UInt8) :
    interfaceLine interface (d.line ++ [10]) =
      if d.name.1 = interface then some d.numbers else none := by
  have hzero : (0 : UInt8) ∉ d.line ++ [10] := by
    rw [List.mem_append, List.mem_singleton]
    exact fun h ↦ h.elim (fun h ↦ (d.ne_of_mem_line h).1 rfl) (by decide)
  have hcolon : (58 : UInt8) ∉ d.name.1 := fun h ↦ (d.name.2 58 h).2.1 rfl
  have hname0 : (0 : UInt8) ∉ d.name.1 := fun h ↦ (d.name.2 0 h).1 rfl
  have hdev : (d.line ++ [10]).dropWhile isSpace =
      d.name.1 ++ 58 :: (d.blanks.1 ++ d.numbers) := by
    rw [line_eq, List.dropWhile_append_of_pos fun b hb ↦ isSpace_of_isBlankByte (d.lead.2 b hb)]
    cases hname : d.name.1 with
    | nil => exact List.dropWhile_cons_of_neg (by decide)
    | cons b name =>
      have hb := (d.name.2 b (by rw [hname]; exact List.mem_cons_self)).2.2
      rw [List.cons_append, List.dropWhile_cons_of_neg (by rw [hb]; exact Bool.false_ne_true)]
  obtain ⟨c, digits, hdigits⟩ := List.exists_cons_of_ne_nil (decimal_ne_nil d.first.toNat)
  have hc := mem_decimal (hdigits ▸ List.mem_cons_self : c ∈ decimal d.first.toNat)
  have hp : (d.blanks.1 ++ d.numbers).dropWhile isSpace = d.numbers := by
    rw [List.dropWhile_append_of_pos fun b hb ↦ isSpace_of_isBlankByte (d.blanks.2 b hb), numbers,
      hdigits, List.cons_append, List.dropWhile_cons_of_neg (isSpace_of_digit hc.1)]
  have hdigit : (d.numbers.head?.any fun b ↦ 48 ≤ b && b ≤ 57) = true := by
    rw [numbers, hdigits, List.cons_append, List.head?_cons, Option.any_some]
    simp only [Bool.and_eq_true, decide_eq_true_eq, UInt8.le_iff_toNat_le]
    exact hc
  have htake : (d.name.1 ++ 58 :: (d.blanks.1 ++ d.numbers)).takeWhile (· ≠ 58) = d.name.1 := by
    have hpass : ∀ b ∈ d.name.1, decide (b ≠ 58) = true := fun b hb ↦
      decide_eq_true (d.name.2 b hb).2.1
    rw [List.takeWhile_append_of_pos hpass, List.takeWhile_cons_of_neg (by decide),
      List.append_nil]
  rw [interfaceLine, cString_eq_self hzero, hdev, strchr_append hcolon hname0]
  simp only [List.drop_one, List.tail_cons, hp, hdigit, htake, true_and]

end NetDevice

end LibGTop.Linux
