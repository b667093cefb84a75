import LibGTop.FreeBsd.LsofOutput

/-!
# The records of lsof

When `parse_output` (`sysdeps/freebsd/procopenfiles.c:116–261`) reads an output of records right: by
the lines, by the records, and for the whole output.
-/

namespace LibGTop.FreeBsd

open Base Linux

/-! ### The lines one by one -/

/-- The lines are read, with what is due at each of them. -/
def ReadsRight (s : LsofState) (lines : List (List UInt8)) (due : List (Option DueEntry)) : Prop :=
  ∃ trace, readLines s lines = some trace ∧ List.Forall₂ (Option.Rel Carries) due trace

section

variable {s s' : LsofState} {line : List UInt8} {lines : List (List UInt8)}
  {due : List (Option DueEntry)}

theorem readsRight_cons {d : Option DueEntry} {entry : Option OpenFilesEntry}
    (h : readLine s line = some (s', entry)) :
    ReadsRight s (line :: lines) (d :: due) ↔
      Option.Rel Carries d entry ∧ ReadsRight s' lines due := by
  constructor
  · rintro ⟨trace, htrace, hdue⟩
    rw [readLines, h] at htrace
    cases hrest : readLines s' lines with
    | none => simp [hrest] at htrace
    | some rest =>
      obtain rfl : entry :: rest = trace := by simpa [hrest] using htrace
      obtain ⟨hentry, hrestDue⟩ := List.forall₂_cons.mp hdue
      exact ⟨hentry, rest, hrest, hrestDue⟩
  · rintro ⟨hentry, rest, hrest, hdue⟩
    refine ⟨entry :: rest, ?_, .cons hentry hdue⟩
    simp [readLines, h, hrest]

/-- A line without an entry where none is due. -/
theorem readsRight_cons_none (h : readLine s line = some (s', none)) :
    ReadsRight s (line :: lines) (none :: due) ↔ ReadsRight s' lines due :=
  (readsRight_cons h).trans (and_iff_right .none)

theorem not_readsRight_cons {d : Option DueEntry} (h : readLine s line = none) :
    ¬ReadsRight s (line :: lines) (d :: due) := by
  rintro ⟨trace, htrace, -⟩
  simp [readLines, h] at htrace

end

theorem isAsciiDigit_decimal {value : Nat} {b : UInt8} (h : b ∈ decimal value) :
    isAsciiDigit b := by
  have hd := mem_decimal h
  rw [isAsciiDigit, Bool.and_eq_true, decide_eq_true_eq, decide_eq_true_eq, UInt8.le_iff_toNat_le,
    UInt8.le_iff_toNat_le]
  exact hd

theorem readLine_descriptor (s : LsofState) (descriptor : Descriptor) :
    readLine s (102 :: descriptor.text) = some (s.passDescriptor descriptor, none) := by
  by_cases hskip : s.skip = 0
  · cases descriptor with
    | number fd =>
      obtain ⟨b, text, hd⟩ := List.exists_cons_of_ne_nil (decimal_ne_nil fd.value)
      have hb : isAsciiDigit b := isAsciiDigit_decimal (hd ▸ List.mem_cons_self)
      have hread : atoi (b :: text) = fd.value := hd ▸ atoi_numeral fd.value fd.lt
      simp [readLine, LsofState.passDescriptor, Descriptor.text, hskip, hd, hb, hread]
    | word w =>
      obtain ⟨b, text, hw⟩ := List.exists_cons_of_ne_nil w.ne_nil
      have hb : isAsciiDigit b = false := w.notDigit b (by rw [hw]; rfl)
      simp [readLine, LsofState.passDescriptor, Descriptor.text, hskip, hw, hb]
  · simp [readLine, LsofState.passDescriptor, hskip]

theorem readLine_type (s : LsofState) (type : FieldText) :
    readLine s (116 :: type.bytes) = some (s.passType type, none) := by
  obtain ⟨b, text, ht⟩ := List.exists_cons_of_ne_nil type.ne_nil
  by_cases hskip : s.skip = 0
  · simp [readLine, LsofState.passType, hskip, ht]
  · simp [readLine, LsofState.passType, hskip]

theorem entryInfo_eq_some_iff {ftype fname : List UInt8} {type : LsofType}
    {info : OpenFilesInfo} :
    entryInfo ftype fname = some (some (type, info)) ↔
      lsofType ftype = some type ∧ type.info fname = some (some info) := by
  rw [entryInfo]
  cases lsofType ftype with
  | none => simp
  | some type' =>
    simp only [Option.map_eq_some_iff, Option.some.injEq, Prod.mk.injEq]
    constructor
    · rintro ⟨_, hinfo, info', rfl, rfl, rfl⟩
      exact ⟨rfl, hinfo⟩
    · rintro ⟨rfl, hinfo⟩
      exact ⟨some info, hinfo, info, rfl, rfl, rfl⟩

theorem number_fileType_inj {a b : LsofType} (h : a.fileType.number = b.fileType.number) :
    a = b := by
  revert h
  cases a <;> cases b <;> decide

/-- What is to hold at a name where an entry is due or none. -/
def LsofState.NameLineRight (s : LsofState) (name : List UInt8) : Option DueEntry → Prop
  | some due => s.Leftover due ∧ NameRight due.name due.type
  | none => s.Passed name

/-- A name of which the entry is right is not passed. -/
theorem LsofState.Leftover.exists_entryInfo {s : LsofState} {ftype : List UInt8} {due : DueEntry}
    (h : s.Leftover due) (hft : s.ftype = some ftype) (hname : NameRight due.name due.type) :
    ∃ info, entryInfo ftype due.name = some (some (due.type, info)) ∧
      InfoRight due.name info due.type := by
  obtain ⟨info, hinfo, hright⟩ := (nameRight_iff due.name due.type).mpr hname
  have htype : lsofType ftype = some due.type := by simpa [hft] using h.2.2
  exact ⟨info, entryInfo_eq_some_iff.mpr ⟨htype, hinfo⟩, hright⟩

section

variable {s : LsofState} {name : FieldText} {d : Option DueEntry} {lines : List (List UInt8)}
  {due : List (Option DueEntry)}

/-- A name line where no entry is appended. -/
theorem readsRight_name_none {s' : LsofState}
    (hread : readLine s (110 :: name.bytes) = some (s', none)) (hs' : s.passName none = s')
    (hpassed : s.Passed name.bytes)
    (hnot : ∀ due, d = some due → ¬(s.Leftover due ∧ NameRight due.name due.type)) :
    ReadsRight s ((110 :: name.bytes) :: lines) (d :: due) ↔
      s.NameLineRight name.bytes d ∧ ReadsRight (s.passName d) lines due := by
  rw [readsRight_cons hread]
  cases d with
  | none => exact and_congr (iff_of_true .none hpassed) (by rw [hs'])
  | some due => exact iff_of_false (fun h ↦ nomatch h.1) fun h ↦ hnot due rfl h.1

theorem carries_iff {ftype : List UInt8} {due : DueEntry} {type : LsofType}
    {info : OpenFilesInfo} (hskip : s.skip = 0) (hft : s.ftype = some ftype)
    (hentry : entryInfo ftype due.name = some (some (type, info))) :
    Carries due { fd := s.fd, type := type.fileType.number, info } ↔
      s.Leftover due ∧ NameRight due.name due.type := by
  obtain ⟨htype, hinfo⟩ := entryInfo_eq_some_iff.mp hentry
  constructor
  · rintro ⟨hfd, hnumber, hright⟩
    obtain rfl := number_fileType_inj hnumber
    refine ⟨⟨hskip, hfd, by simpa [hft] using htype⟩, ?_⟩
    exact (nameRight_iff _ _).mp ⟨info, hinfo, hright⟩
  · rintro ⟨hleft, hname⟩
    obtain ⟨info', hsome, hinfo'⟩ := hleft.exists_entryInfo hft hname
    obtain ⟨rfl, rfl⟩ : type = due.type ∧ info = info' := by simpa [hentry] using hsome
    exact ⟨hleft.2.1, rfl, hinfo'⟩

theorem readLine_name (hskip : s.skip = 0) :
    readLine s (110 :: name.bytes) = readName s name.bytes := by
  obtain ⟨b, text, hname⟩ := List.exists_cons_of_ne_nil name.ne_nil
  simp [readLine, hskip, hname]

theorem passName_none_eq_self (hskip : s.skip = 0) : s.passName none = s := by
  cases s
  simp_all [LsofState.passName]

/-- A name line that is not skipped, behind a type. -/
theorem readsRight_name_typed {ftype : List UInt8} (hskip : s.skip = 0) (hft : s.ftype = some ftype)
    (hd : ∀ due, d = some due → due.name = name.bytes) :
    ReadsRight s ((110 :: name.bytes) :: lines) (d :: due) ↔
      s.NameLineRight name.bytes d ∧ ReadsRight (s.passName d) lines due := by
  have hdue : ∀ due, d = some due → s.Leftover due ∧ NameRight due.name due.type →
      ∃ info, entryInfo ftype name.bytes = some (some (due.type, info)) := by
    intro due he h
    obtain ⟨info, hinfo, -⟩ := h.1.exists_entryInfo hft h.2
    exact ⟨info, hd due he ▸ hinfo⟩
  have hpassed : s.Passed name.bytes ↔ entryInfo ftype name.bytes = some none := by
    refine ⟨fun h ↦ h hskip ftype hft, fun h _ t ht ↦ ?_⟩
    rwa [← Option.some.inj (hft.symm.trans ht)]
  cases hentry : entryInfo ftype name.bytes with
  | none =>
    have hread : readName s name.bytes = none := by simp [readName, hft, hentry]
    refine iff_of_false (not_readsRight_cons ((readLine_name hskip).trans hread)) fun h ↦ ?_
    cases d with
    | none => simpa [hentry] using hpassed.mp h.1
    | some due =>
      obtain ⟨info, hsome⟩ := hdue due rfl h.1
      simp [hentry] at hsome
  | some entry =>
    cases entry with
    | none =>
      have hread : readName s name.bytes = some (s, none) := by simp [readName, hft, hentry]
      refine readsRight_name_none ((readLine_name hskip).trans hread)
        (passName_none_eq_self hskip) (hpassed.mpr hentry) fun due he h ↦ ?_
      obtain ⟨info, hsome⟩ := hdue due he h
      simp [hentry] at hsome
    | some made =>
      have hread : readName s name.bytes = some ({ s with fd := -1, ftype := none },
          some { fd := s.fd, type := made.1.fileType.number, info := made.2 }) := by
        simp [readName, hft, hentry]
      rw [readsRight_cons ((readLine_name hskip).trans hread)]
      cases d with
      | none =>
        refine iff_of_false (fun h ↦ nomatch h.1) fun h ↦ ?_
        simpa [hentry] using hpassed.mp h.1
      | some due =>
        rw [Option.rel_some_some]
        exact and_congr_left' (carries_iff hskip hft (hd due rfl ▸ hentry))

/-- A name line is read right with the variables as they are before it. -/
theorem readsRight_name (hd : ∀ due, d = some due → due.name = name.bytes) :
    ReadsRight s ((110 :: name.bytes) :: lines) (d :: due) ↔
      s.NameLineRight name.bytes d ∧ ReadsRight (s.passName d) lines due := by
  by_cases hskip : s.skip = 0
  · cases hft : s.ftype with
    | none =>
      have hread : readName s name.bytes = some (s, none) := by simp [readName, hft]
      refine readsRight_name_none ((readLine_name hskip).trans hread)
        (passName_none_eq_self hskip) (fun _ ftype h ↦ by simp [hft] at h) ?_
      rintro due - ⟨⟨-, -, htype⟩, -⟩
      simp [hft] at htype
    | some ftype => exact readsRight_name_typed hskip hft hd
  · have hread : readLine s (110 :: name.bytes) = some ({ s with skip := s.skip - 1 }, none) := by
      simp [readLine, hskip]
    exact readsRight_name_none hread rfl (fun h ↦ absurd h hskip) fun due _ h ↦ hskip h.1.1

end

/-! ### The records one by one -/

/-- The record that an entry is due for. -/
theorem of_dueEntry {r : LsofRecord} {due : DueEntry} (h : r.dueEntry = some due) :
    ∃ fd type name, r.descriptor = .number fd ∧ r.type = some type ∧ r.name = some name ∧
      lsofType type.bytes = some due.type ∧ fd.value = due.fd ∧ due.name = name.bytes := by
  obtain ⟨descriptor, type, name⟩ := r
  simp only [LsofRecord.dueEntry] at h
  split at h
  · next fd lsofType name htype =>
    obtain rfl := Option.some.inj h
    obtain ⟨text, rfl, ht⟩ := Option.bind_eq_some_iff.mp htype
    exact ⟨fd, text, name, rfl, rfl, rfl, ht, rfl, rfl⟩
  · exact absurd h (by simp)

/-- Where the lines of a record are not skipped, its name meets its own number and type. -/
theorem leftover_of_skip_eq_zero {s : LsofState} {r : LsofRecord} {due : DueEntry}
    (h : r.dueEntry = some due) (hs : s.skip = 0) : (s.beforeName r).Leftover due := by
  obtain ⟨fd, type, name, hfd, htype, -, ht, hvalue, -⟩ := of_dueEntry h
  simp [LsofState.beforeName, LsofState.passDescriptor, LsofState.passType, LsofState.Leftover, hfd,
    htype, hs, ht, hvalue]

theorem nameLineRight_iff {s : LsofState} {r : LsofRecord} {name : FieldText}
    (hname : r.name = some name) :
    (s.beforeName r).NameLineRight name.bytes r.dueEntry ↔ s.RecordRight r := by
  have hrecord : s.RecordRight r ↔
      match r.dueEntry with
      | some due => (s.skip = 0 ∨ (s.beforeName r).Leftover due) ∧ NameRight due.name due.type
      | none => (s.beforeName r).Passed name.bytes := by
    constructor
    · exact fun h ↦ h name hname
    · intro h name' hname'
      obtain rfl := Option.some.inj (hname.symm.trans hname')
      exact h
  rw [hrecord]
  cases hdue : r.dueEntry with
  | none => exact Iff.rfl
  | some due => exact and_congr_left' (or_iff_right_of_imp (leftover_of_skip_eq_zero hdue)).symm

/-- A record is read right by itself, and leaves the variables to the next one. -/
theorem readsRight_record (s : LsofState) (r : LsofRecord) (lines : List (List UInt8))
    (due : List (Option DueEntry)) :
    ReadsRight s (r.lines ++ lines) (r.due ++ due) ↔
      s.RecordRight r ∧ ReadsRight (s.behindRecord r) lines due := by
  have hbefore : ReadsRight s (r.lines ++ lines) (r.due ++ due) ↔
      ReadsRight (s.beforeName r) ((r.name.map (110 :: ·.bytes)).toList ++ lines)
        ((r.name.map fun _ ↦ r.dueEntry).toList ++ due) := by
    rw [LsofRecord.lines, LsofRecord.due, List.cons_append, List.cons_append,
      readsRight_cons_none (readLine_descriptor s r.descriptor), LsofState.beforeName]
    cases r.type with
    | none => exact Iff.rfl
    | some type => exact readsRight_cons_none (readLine_type _ type)
  rw [hbefore]
  cases hname : r.name with
  | none =>
    have hright : s.RecordRight r := fun name h ↦ by simp [hname] at h
    have hbehind : s.behindRecord r = s.beforeName r := by simp [LsofState.behindRecord, hname]
    rw [hbehind]
    exact (and_iff_right hright).symm
  | some name =>
    have hbehind : s.behindRecord r = (s.beforeName r).passName r.dueEntry := by
      simp [LsofState.behindRecord, hname]
    have hd : ∀ due, r.dueEntry = some due → due.name = name.bytes := by
      intro due h
      obtain ⟨-, -, name', -, -, hname', -, -, he⟩ := of_dueEntry h
      obtain rfl := Option.some.inj (hname.symm.trans hname')
      exact he
    rw [hbehind, ← nameLineRight_iff hname]
    exact readsRight_name hd

/-- The records are read right one behind the other. -/
theorem readsRight_records (s : LsofState) (records : List LsofRecord) :
    ReadsRight s (records.flatMap LsofRecord.lines ++ [[]])
      (records.flatMap LsofRecord.due ++ [none]) ↔ s.RecordsRight records := by
  induction records generalizing s with
  | nil =>
    refine iff_of_true ?_ trivial
    by_cases hskip : s.skip = 0
    · exact ⟨[none], by simp [readLines, readLine, hskip], .cons .none .nil⟩
    · exact ⟨[none], by simp [readLines, readLine, hskip], .cons .none .nil⟩
  | cons r records ih =>
    rw [List.flatMap_cons, List.flatMap_cons, List.append_assoc, List.append_assoc,
      readsRight_record, ih]
    exact Iff.rfl

/-! ### The whole output -/

/-- What is at the places that are not empty. -/
theorem forall₂_filterMap_id {α β : Type} {rel : α → β → Prop} {due : List (Option α)}
    {trace : List (Option β)} (h : List.Forall₂ (Option.Rel rel) due trace) :
    List.Forall₂ rel (due.filterMap id) (trace.filterMap id) := by
  induction h with
  | nil => exact .nil
  | cons hrel _ ih =>
    cases hrel with
    | none => exact ih
    | some hrel => exact .cons hrel ih

theorem filterMap_due (r : LsofRecord) : r.due.filterMap id = r.dueEntry.toList := by
  cases hname : r.name with
  | none =>
    have hdue : r.dueEntry = none := by
      cases h : r.dueEntry with
      | none => rfl
      | some due =>
        obtain ⟨-, -, name, -, -, hname', -⟩ := of_dueEntry h
        simp [hname] at hname'
    cases htype : r.type <;> simp [LsofRecord.due, hname, htype, hdue]
  | some name =>
    cases htype : r.type <;> cases hdue : r.dueEntry <;>
      simp [LsofRecord.due, hname, htype, hdue]

theorem filterMap_outputDue (process : Option FieldText) (records : List LsofRecord) :
    (outputDue process records).filterMap id = records.filterMap LsofRecord.dueEntry := by
  have hrecords : (records.flatMap LsofRecord.due).filterMap id =
      records.filterMap LsofRecord.dueEntry := by
    rw [List.filterMap_flatMap, List.flatMap_congr fun r _ ↦ filterMap_due r]
    induction records with
    | nil => rfl
    | cons r records ih =>
      rw [List.flatMap_cons, ih]
      cases h : r.dueEntry <;> simp [h]
  rw [outputDue]
  split
  · next hnil =>
    obtain ⟨-, hnil⟩ := List.append_eq_nil_iff.mp hnil
    cases records with
    | nil => rfl
    | cons r records => simp [LsofRecord.lines] at hnil
  · cases process <;> simpa using hrecords

theorem notMem_descriptor (descriptor : Descriptor) : 10 ∉ descriptor.text := by
  cases descriptor with
  | number fd => exact notMem_decimal (by decide) fd.value
  | word w => exact fun h ↦ (w.clean 10 h).2 rfl

theorem notMem_outputLines {process : Option FieldText} {records : List LsofRecord}
    {line : List UInt8} (h : line ∈ outputLines process records) : 10 ∉ line := by
  have hfield : ∀ (b : UInt8) (field : Option FieldText), 10 ≠ b →
      line ∈ (field.map (b :: ·.bytes)).toList → 10 ∉ line := by
    intro b field hb hline
    obtain ⟨text, -, rfl⟩ := Option.map_eq_some_iff.mp (Option.mem_toList.mp hline)
    exact List.not_mem_cons_of_ne_of_not_mem hb fun hm ↦ (text.clean 10 hm).2 rfl
  rcases List.mem_append.mp h with hprocess | hrecords
  · exact hfield 112 process (by decide) hprocess
  · obtain ⟨r, -, hline⟩ := List.mem_flatMap.mp hrecords
    rcases List.mem_cons.mp hline with rfl | hline
    · exact List.not_mem_cons_of_ne_of_not_mem (by decide) (notMem_descriptor r.descriptor)
    · rcases List.mem_append.mp hline with htype | hname
      · exact hfield 116 r.type (by decide) htype
      · exact hfield 110 r.name (by decide) hname

theorem gStrsplit_outputText {process : Option FieldText} {records : List LsofRecord}
    (h : outputLines process records ≠ []) :
    gStrsplit 10 [] (outputText process records) = outputLines process records ++ [[]] := by
  have hne : outputText process records ≠ [] := by
    obtain ⟨line, lines, hlines⟩ := List.exists_cons_of_ne_nil h
    rw [outputText, hlines, text_cons]
    exact List.append_ne_nil_of_right_ne_nil _ (List.cons_ne_nil _ _)
  rw [gStrsplit, if_neg hne, outputText, strsplit_text fun _ ↦ notMem_outputLines]

theorem readLine_process (process : FieldText) :
    readLine {} (112 :: process.bytes) = some ({}, none) := by
  obtain ⟨b, text, hp⟩ := List.exists_cons_of_ne_nil process.ne_nil
  simp [readLine, hp]

/-- The lines of an output are read right if and only if its records are. -/
theorem readsRight_output (process : Option FieldText) (records : List LsofRecord) :
    (∃ trace, lineEntries (outputText process records) = some trace ∧
      List.Forall₂ (Option.Rel Carries) (outputDue process records) trace) ↔
      LsofState.RecordsRight {} records := by
  by_cases hnil : outputLines process records = []
  · have hrecords : records = [] := by
      cases records with
      | nil => rfl
      | cons r records => simp [outputLines, LsofRecord.lines] at hnil
    subst hrecords
    refine iff_of_true ⟨[], ?_, ?_⟩ trivial
    · rw [lineEntries, outputText, hnil]
      rfl
    · rw [outputDue, if_pos hnil]
      exact .nil
  · rw [lineEntries, gStrsplit_outputText hnil, outputDue, if_neg hnil, ← readsRight_records]
    cases process with
    | none => exact Iff.rfl
    | some process => exact readsRight_cons_none (readLine_process process)

/-- The parser reads an output right if and only if it reads each record right: the two lines that
are skipped behind a word are not the `f` line of a record that an entry is due for, unless what is
left over is the same by chance; the name of such a record is one that is split right; and no other
name is read with a type that makes an entry of it. -/
theorem parse_output_right_iff (process : Option FieldText) (records : List LsofRecord) :
    ParsedRight process records ↔ LsofState.RecordsRight {} records := by
  rw [← readsRight_output process records]
  constructor
  · rintro ⟨trace, -, htrace, hdue, -⟩
    exact ⟨trace, htrace, hdue⟩
  · rintro ⟨trace, htrace, hdue⟩
    refine ⟨trace, trace.filterMap id, htrace, hdue, by rw [parseOutput, htrace]; rfl, ?_⟩
    rw [← filterMap_outputDue process records]
    exact forall₂_filterMap_id hdue

/-! ### Outputs that are misread -/

/-- The field of a text. -/
def fieldOf (bytes : List UInt8) : Option FieldText :=
  if h : bytes ≠ [] ∧ ∀ b ∈ bytes, b ≠ 0 ∧ b ≠ 10 then some ⟨bytes, h.1, h.2⟩ else none

theorem three_lt : 3 < 2 ^ 31 := by decide

theorem cwd_clean : ∀ b ∈ ([99, 119, 100] : List UInt8), b ≠ 0 ∧ b ≠ 10 := by decide

theorem cwd_notDigit : ∀ b ∈ ([99, 119, 100] : List UInt8).head?, isAsciiDigit b = false := by
  intro b hb
  obtain rfl : 99 = b := Option.some.inj hb
  decide

/-- `cwd`. -/
def cwd : FdWord where
  bytes := [99, 119, 100]
  ne_nil := List.cons_ne_nil _ _
  clean := cwd_clean
  notDigit := cwd_notDigit

/-- A socket on port 22 of all addresses. -/
def wildcardSocket : LsofRecord where
  descriptor := .number ⟨3, three_lt⟩
  type := fieldOf (asciiBytes "IPv6".toList)
  name := fieldOf (asciiBytes "*:22".toList)

/-- A directory without a name. -/
def unnamedDirectory : LsofRecord where
  descriptor := .word cwd
  type := fieldOf (asciiBytes "VDIR".toList)
  name := none

/-- A file. -/
def namedFile : LsofRecord where
  descriptor := .number ⟨3, three_lt⟩
  type := fieldOf (asciiBytes "VREG".toList)
  name := fieldOf (asciiBytes "/a".toList)

theorem not_recordsRight_wildcardSocket : ¬LsofState.RecordsRight {} [wildcardSocket] := by
  rintro ⟨h, -⟩
  obtain ⟨-, -, haddress⟩ := h ⟨asciiBytes "*:22".toList, by decide, by decide⟩ rfl
  obtain ⟨-, -, hport⟩ :=
    haddress (.plain ⟨star, by decide, by decide⟩ 22) (.inl (by decide))
  exact absurd hport (by decide)

theorem not_recordsRight_namedFile :
    ¬LsofState.RecordsRight {} [unnamedDirectory, namedFile] := by
  rintro ⟨-, h, -⟩
  obtain ⟨hskip | ⟨-, hfd, -⟩, -⟩ := h ⟨asciiBytes "/a".toList, by decide, by decide⟩ rfl
  · exact absurd hskip (by decide)
  · exact absurd hfd (by decide)

/-- A socket on port 22 of all addresses, and a file behind a directory without a name, are not read
right. -/
theorem parse_output_misread :
    ¬ParsedRight none [wildcardSocket] ∧ ¬ParsedRight none [unnamedDirectory, namedFile] := by
  constructor
  · rintro ⟨trace, -, htrace, hdue, -⟩
    exact not_recordsRight_wildcardSocket ((readsRight_output _ _).mp ⟨trace, htrace, hdue⟩)
  · rintro ⟨trace, -, htrace, hdue, -⟩
    exact not_recordsRight_namedFile ((readsRight_output _ _).mp ⟨trace, htrace, hdue⟩)

end LibGTop.FreeBsd
