import LibGTop.Linux.NetDevTable

/-!
# The counters of the requested interface

`linux_2_4_stats` finds the line of the interface and takes its counters from their columns, in
every table whose lines fit the buffer.
-/

namespace LibGTop.Linux

open Base Common

namespace NetDevTable

variable {t : NetDevTable}

theorem notMem_namesText {b : UInt8} (hb : isBlankByte b = false) (hc : isColumnByte b = false)
    (others : List (Gap × ColumnName)) : b ∉ namesText others := by
  intro h
  obtain ⟨⟨gap, name⟩, -, h⟩ := List.mem_flatMap.mp h
  obtain h | h := List.mem_append.mp h
  · exact absurd (gap.2.2 b h) (by rw [hb]; exact Bool.false_ne_true)
  · exact absurd (name.2.2 b h) (by rw [hc]; exact Bool.false_ne_true)

theorem notMem_text {b : UInt8} (hb : isBlankByte b = false) (hc : isColumnByte b = false)
    (group : ColumnGroup) : b ∉ group.text := by
  rw [ColumnGroup.text, List.mem_append, not_or]
  refine ⟨fun h ↦ ?_, notMem_namesText hb hc group.others⟩
  exact absurd (group.first.2.2 b h) (by rw [hc]; exact Bool.false_ne_true)

theorem newline_notMem_header : 10 ∉ t.header := by
  rw [header, List.mem_append, List.mem_cons, List.mem_append, List.mem_cons]
  rintro (h | h | h | h | h)
  · exact (t.face.2 10 h).2.1 rfl
  · exact absurd h (by decide)
  · exact notMem_text (by decide) (by decide) _ h
  · exact absurd h (by decide)
  · exact notMem_text (by decide) (by decide) _ h

theorem newline_notMem_lines : ∀ line ∈ t.lines, 10 ∉ line := by
  intro line hline
  simp only [lines, List.mem_cons, List.mem_map] at hline
  obtain rfl | rfl | ⟨d, -, rfl⟩ := hline
  · exact t.title.2
  · exact newline_notMem_header
  · exact fun hm ↦ (d.ne_of_mem_line hm).2 rfl

/-- The header tells whether the first name starts like that of the byte counters, and one field
less than there are columns behind the first. -/
theorem headerColumns_header :
    headerColumns (t.header ++ [10] ++ [0]) =
      some (some (bytesName.isPrefixOf t.receive.first.1, t.receive.others.length - 1)) := by
  have hbar : (124 : UInt8) ∉ t.face.1 := fun h ↦ (t.face.2 124 h).2.2 rfl
  have hzero : (0 : UInt8) ∉ t.face.1 := fun h ↦ (t.face.2 0 h).1 rfl
  have hthree := t.three_columns
  rw [ColumnGroup.columns] at hthree
  have hsplit : t.header ++ [10] ++ [0] =
      t.face.1 ++ 124 :: (t.receive.text ++ 124 :: (t.transmit.text ++ [10] ++ [0])) := by
    simp [header]
  have hprefix : bytesName.isPrefixOf (t.receive.text ++ 124 :: (t.transmit.text ++ [10] ++ [0])) =
      bytesName.isPrefixOf t.receive.first.1 := by
    obtain ⟨⟨gap, name⟩, others, hothers⟩ := List.exists_cons_of_length_pos
      (show 0 < t.receive.others.length by omega)
    obtain ⟨c, gap', hgap⟩ := List.exists_cons_of_ne_nil gap.2.1
    have hc : c ∉ bytesName := by
      have hblank := gap.2.2 c (by rw [hgap]; exact List.mem_cons_self)
      simp only [isBlankByte, Bool.or_eq_true, decide_eq_true_eq] at hblank
      obtain rfl | rfl := hblank <;> decide
    have htext : t.receive.text ++ 124 :: (t.transmit.text ++ [10] ++ [0]) = t.receive.first.1 ++
        c :: (gap' ++ name.1 ++ namesText others ++ 124 :: (t.transmit.text ++ [10] ++ [0])) := by
      simp [ColumnGroup.text, hothers, namesText, hgap]
    rw [htext, Bool.eq_iff_iff, List.isPrefixOf_iff_prefix, List.isPrefixOf_iff_prefix]
    exact ⟨prefix_of_prefix_append hc, fun h ↦ h.trans (List.prefix_append _ _)⟩
  rw [hsplit, headerColumns, strchr_append hbar hzero]
  simp only [List.drop_one, List.tail_cons, countFields_group, Option.map_some]
  rw [if_neg (by omega)]
  exact congrArg (fun b ↦ some (some (b, _))) hprefix

/-- The file is delivered line by line. -/
theorem Fits.fgets_text (h : t.Fits) :
    fgets (bufsiz - 1) t.text =
      (t.title.1 ++ [10]) :: (t.header ++ [10]) :: t.devices.map fun d ↦ d.line ++ [10] := by
  have hlines : ∀ line ∈ t.lines, 10 ∉ line ∧ line.length + 1 < bufsiz - 1 :=
    fun line hline ↦ ⟨newline_notMem_lines line hline, h line hline⟩
  rw [NetDevTable.text, Base.fgets_text hlines, NetDevTable.lines, List.map_cons, List.map_cons,
    List.map_map]
  rfl

/-- What the lines of a table give for an interface: the numbers of the first device of its name. -/
theorem findSome?_interfaceLine (devices : List NetDevice) (interface : List UInt8) :
    (devices.map fun d ↦ d.line ++ [10]).findSome? (interfaceLine interface) =
      (devices.find? fun d ↦ d.name.1 = interface).map NetDevice.numbers := by
  induction devices with
  | nil => rfl
  | cons d devices ih =>
    rw [List.map_cons, List.findSome?_cons, d.interfaceLine_eq, List.find?_cons]
    by_cases h : d.name.1 = interface
    · simp [h]
    · simp [h, ih]

/-- The first line of the interface is the one that is read. -/
theorem Fits.linux24Stats_find (h : t.Fits) (interface junk : List UInt8) (buf : NetStats) :
    linux24Stats junk (some t.text) interface buf =
      some (match t.devices.find? fun d ↦ d.name.1 = interface with
        | none => buf
        | some d => readCounters (bytesName.isPrefixOf t.receive.first.1)
            (t.receive.others.length - 1) d.numbers buf) := by
  rw [linux24Stats, h.fgets_text]
  simp only [List.take_succ_cons, List.take_zero, List.getLastD_cons, List.getLastD_nil,
    headerColumns_header, Option.map_some, List.drop_succ_cons, List.drop_zero,
    findSome?_interfaceLine]
  cases t.devices.find? fun d ↦ d.name.1 = interface <;> rfl

/-- From the numbers of a line each counter is read from its column. -/
theorem PlainNames.counted (h : t.PlainNames) {d : NetDevice} (hd : d ∈ t.devices)
    (buf : NetStats) :
    d.Counted (if t.HasBytes then 1 else 0) (readCounters (bytesName.isPrefixOf t.receive.first.1)
      (t.receive.others.length - 1) d.numbers buf) := by
  have hbytes : bytesName.isPrefixOf t.receive.first.1 = decide t.HasBytes := by
    rw [Bool.eq_iff_iff, List.isPrefixOf_iff_prefix, decide_eq_true_eq]
    exact ⟨h, fun h ↦ h ▸ List.prefix_rfl⟩
  obtain ⟨hreceived, hsent⟩ := t.matching d hd
  have hthree := t.three_columns
  have hcollisions := t.collisions_column
  rw [ColumnGroup.columns] at hthree hreceived
  have hsix : (if decide t.HasBytes then 6 else 5) ≤ d.sentValues.length := by
    rw [hsent]
    by_cases h : t.receive.first.1 = bytesName
    · rw [if_pos h] at hcollisions
      rwa [if_pos (decide_eq_true (show t.HasBytes from h))]
    · rw [if_neg h] at hcollisions
      rwa [if_neg (mt of_decide_eq_true (show ¬t.HasBytes from h))]
  have hcounted := readCounters_counted d (decide t.HasBytes) buf d.columns_numbers
    (show _ = t.receive.others.length - 1 + 2 by omega) (by omega) hsix
  simpa only [hbytes, decide_eq_true_eq] using hcounted

/-- What is right for an interface: the counters of its first line, and none where it has no
line. -/
def ReadFor (t : NetDevTable) (interface : List UInt8) (buf buf' : NetStats) : Prop :=
  (∀ d ∈ t.devices.find? fun d ↦ d.name.1 = interface,
    d.Counted (if t.HasBytes then 1 else 0) buf') ∧
  ((∀ d ∈ t.devices, d.name.1 ≠ interface) → buf' = buf)

/-- In a table whose lines fit and whose names are plain the counters of the interface are those of
its first line, each from its column, and nothing is read for an interface without a line. -/
theorem linux24Stats_counted (t : NetDevTable) (hfits : t.Fits) (hplain : t.PlainNames)
    (interface junk : List UInt8) (buf : NetStats) :
    ∃ buf', linux24Stats junk (some t.text) interface buf = some buf' ∧
      t.ReadFor interface buf buf' := by
  refine ⟨_, hfits.linux24Stats_find interface junk buf, ?_⟩
  cases hfind : t.devices.find? fun d ↦ d.name.1 = interface with
  | none => exact ⟨fun d hd ↦ absurd (hfind.symm.trans hd) nofun, fun _ ↦ rfl⟩
  | some d =>
    have hd : d ∈ t.devices := List.mem_of_find?_eq_some hfind
    have hname := List.find?_some hfind
    rw [decide_eq_true_eq] at hname
    refine ⟨fun other ho ↦ ?_, fun hn ↦ absurd hname (hn d hd)⟩
    obtain rfl := Option.some.inj (hfind.symm.trans ho)
    exact hplain.counted hd buf

end NetDevTable

/-- A blank. -/
def oneBlank : Gap := ⟨[32], by decide⟩

/-- The line `lo:1 2 3 4 5 6 7 8`. -/
def loDevice : NetDevice where
  lead := ⟨[], by decide⟩
  name := ⟨asciiBytes "lo".toList, by decide⟩
  blanks := ⟨[], by decide⟩
  first := 1
  others := [(oneBlank, 2), (oneBlank, 3)]
  sent := [(oneBlank, 4), (oneBlank, 5), (oneBlank, 6), (oneBlank, 7), (oneBlank, 8)]
  trail := ⟨[], by decide⟩

/-- The name of a column. -/
def errsName : ColumnName := ⟨asciiBytes "errs".toList, by decide⟩

/-- A table without byte counters, with what is before its columns and the name of the first. -/
def loTable (face : { text : List UInt8 // ∀ b ∈ text, b ≠ 0 ∧ b ≠ 10 ∧ b ≠ 124 })
    (name : ColumnName) (h : name.1 ≠ bytesName) : NetDevTable where
  title := ⟨asciiBytes "Inter-|".toList, by decide⟩
  face := face
  receive := ⟨name, [(oneBlank, errsName), (oneBlank, errsName)]⟩
  transmit := ⟨errsName, List.replicate 4 (oneBlank, errsName)⟩
  devices := [loDevice]
  bytes_both := iff_of_false h (by decide)
  three_columns := Nat.le_refl 3
  collisions_column := by
    rw [if_neg h]
    exact Nat.le_refl 5
  matching := List.forall_mem_singleton.mpr ⟨rfl, rfl⟩

/-- The name of a column of packets. -/
def packetsName : ColumnName := ⟨asciiBytes "packets".toList, by decide⟩

/-- Its second line is ` |packets errs errs|errs errs errs errs errs`. -/
def plainTable : NetDevTable := loTable ⟨[32], by decide⟩ packetsName (by decide)

theorem linux24Stats_plainTable :
    ∃ buf', linux24Stats [] (some plainTable.text) loDevice.name.1 {} = some buf' ∧
      plainTable.ReadFor loDevice.name.1 {} buf' :=
  NetDevTable.linux24Stats_counted plainTable (by decide) (by decide) loDevice.name.1 [] {}

/-- Its second line has more blanks before the columns than the buffer has room. -/
def longTable : NetDevTable :=
  loTable ⟨List.replicate (bufsiz - 2) 32, fun b hb ↦ by
    obtain rfl := (List.mem_replicate.mp hb).2
    decide⟩ packetsName (by decide)

/-- Its first column has a name that only starts like that of the byte counters. -/
def prefixTable : NetDevTable :=
  loTable ⟨[32], by decide⟩ ⟨asciiBytes "bytes_in".toList, by decide⟩ (by decide)

/-- The second line is cut before its columns. -/
theorem linux24Stats_longTable (interface : List UInt8) (buf : NetStats) :
    linux24Stats [] (some longTable.text) interface buf = some buf := by
  have hlines : lines longTable.text = longTable.lines.map fun line ↦ line ++ [10] :=
    lines_text NetDevTable.newline_notMem_lines
  have hlength : (List.replicate (bufsiz - 2) (32 : UInt8)).length = bufsiz - 1 - 1 :=
    List.length_replicate
  obtain ⟨more, hmore, hn⟩ : ∃ more, longTable.header ++ [10] =
      List.replicate (bufsiz - 2) 32 ++ more ∧ more ≠ [] :=
    ⟨_, List.append_assoc .., List.cons_ne_nil _ _⟩
  have hpieces : pieces (bufsiz - 1 - 1) (longTable.header ++ [10]) =
      List.replicate (bufsiz - 2) 32 :: pieces (bufsiz - 1 - 1) more := by
    have hpos := List.length_pos_iff.mpr hn
    rw [hmore, pieces, dif_neg (by rw [List.length_append, hlength]; simp only [bufsiz]; omega),
      List.take_left' hlength, List.drop_left' hlength]
  have htitle : pieces (bufsiz - 1 - 1) (longTable.title.1 ++ [10]) = [longTable.title.1 ++ [10]] :=
    pieces_short (by decide)
  have hreads : (fgets (bufsiz - 1) longTable.text).take 2 =
      [longTable.title.1 ++ [10], List.replicate (bufsiz - 2) 32] := by
    rw [fgets, hlines, NetDevTable.lines, List.map_cons, List.map_cons, List.flatMap_cons,
      List.flatMap_cons, htitle, hpieces]
    rfl
  have hbar : (124 : UInt8) ∉ List.replicate (bufsiz - 2) 32 ++ [0] := by
    rw [List.mem_append, List.mem_singleton]
    exact fun h ↦ h.elim (fun h ↦ absurd (List.mem_replicate.mp h).2 (by decide)) (by decide)
  rw [linux24Stats, hreads]
  simp only [List.getLastD_cons, List.getLastD_nil, headerColumns, strchr_eq_none hbar,
    Option.map_some]

/-- Both conditions are needed: without the one the line of the interface is not reached, without
the other its counters are taken for those of the columns before them. -/
theorem not_linux24Stats_counted :
    (¬∀ (t : NetDevTable) (interface : List UInt8), t.PlainNames →
      ∃ buf', linux24Stats [] (some t.text) interface {} = some buf' ∧
        t.ReadFor interface {} buf') ∧
    ¬∀ (t : NetDevTable) (interface : List UInt8), t.Fits →
      ∃ buf', linux24Stats [] (some t.text) interface {} = some buf' ∧
        t.ReadFor interface {} buf' := by
  constructor
  · intro h
    obtain ⟨buf', hrun, hread, -⟩ := h longTable loDevice.name.1 (by decide)
    rw [linux24Stats_longTable] at hrun
    obtain rfl := Option.some.inj hrun
    exact absurd (hread loDevice rfl).packetsIn (by decide)
  · intro h
    have hfits : prefixTable.Fits := by decide
    obtain ⟨buf', hrun, hread, -⟩ := h prefixTable loDevice.name.1 hfits
    obtain rfl := Option.some.inj ((hfits.linux24Stats_find _ _ _).symm.trans hrun)
    have hsecond : (strtoull 0 (strtoull 0 loDevice.numbers).2).1 = 2 := by
      have hfirst := strtoull_columns (i := 0) loDevice.columns_numbers (by decide)
      exact (strtoull_columns hfirst.2 (by decide)).1
    have hpacketsIn : (readCounters true 1 loDevice.numbers {}).counter .packetsIn =
        (strtoull 0 (strtoull 0 loDevice.numbers).2).1 := by
      simp (disch := decide) only [readCounters, if_true, counter_flag, counter_set_self,
        counter_set_of_ne]
    have hpackets := hpacketsIn.symm.trans (hread loDevice rfl).packetsIn
    rw [hsecond] at hpackets
    exact absurd hpackets (by decide)

end LibGTop.Linux
