import LibGTop.Linux.Utab
import Mathlib.Data.Fintype.EquivFin

/-!
# Which mounts are listed

The filesystems that are to be left out of the list of mounts, and those that `ignore_fs`
leaves out. It reads `/proc/filesystems` in pieces of 127 bytes, takes the option of a record
for anything that has its name in it, and compares directories with values as they are written. What
leaves a mount out is read right, is missed, or is only what is read.
-/

namespace LibGTop.Linux

open Base Common

/-- A line of `/proc/filesystems`. -/
structure FsLine where
  nodev : Bool
  type : List UInt8
  isType : ∀ b ∈ type, isStringByte b

/-- The bytes of a line, without the newline. -/
def FsLine.line (fs : FsLine) : List UInt8 := (if fs.nodev then nodevWord else []) ++ 9 :: fs.type

/-- The text of the lines. -/
def fsText (filesystems : List FsLine) : List UInt8 := text (filesystems.map FsLine.line)

/-- The option is one of the options of the record. -/
def UtabRecord.Hides (record : UtabRecord) : Prop :=
  ∃ token ∈ record.tokens, token.key = optsWord ∧ hideOption ∈ token.value.splitOn 44

/-- The directory is the one of the record. -/
def UtabRecord.Targets (record : UtabRecord) (dir : List UInt8) : Prop :=
  ∃ token ∈ record.tokens, token.key = targetWord ∧ token.value = dir

/-- The line marks the type as one that has no device, other than those that end with `zfs`. -/
def FsLine.Marks (fs : FsLine) (type : List UInt8) : Prop :=
  fs.nodev ∧ ¬zfsWord <:+ fs.type ∧ fs.type = type

/-- A line fits the buffer. -/
def FsLine.Short (fs : FsLine) : Prop := (fs.line ++ [10]).length ≤ 127

/-- A piece of 127 bytes of the line looks like a line that marks the type. -/
def FsLine.PieceMarks (fs : FsLine) (type : List UInt8) : Prop :=
  ∃ piece ∈ pieces 127 (fs.line ++ [10]), nodevWord <+: piece ∧
    ¬zfsWord <+: piece.drop (piece.length - 4) ∧ strip gAsciiIsspace (piece.drop 5) = type

section

variable (filesystems : Option (List FsLine)) (utab : Option (List UtabRecord))

/-- The type is one of those that are to be left out. -/
def Marked (type : List UInt8) : Prop :=
  type = noneType ∨ ∃ fss ∈ filesystems, ∃ fs ∈ fss, fs.Marks type

/-- The directory is one of a record that hides it. -/
def Hidden (dir : List UInt8) : Prop :=
  ∃ records ∈ utab, ∃ record ∈ records, record.Hides ∧ record.Targets dir

/-- The mount is to be listed. -/
def Visible (mnt : Mntent) : Prop := ¬Marked filesystems mnt.type ∧ ¬Hidden utab mnt.dir

/-- The type is left out by its name or by a line that fits the buffer. -/
def SoundType (type : List UInt8) : Prop :=
  type = noneType ∨ ∃ fss ∈ filesystems, ∃ fs ∈ fss, fs.Short ∧ fs.Marks type

/-- The type is to be left out by a line that does not fit. -/
def MissedType (type : List UInt8) : Prop :=
  ∃ fss ∈ filesystems, ∃ fs ∈ fss, ¬fs.Short ∧ fs.Marks type

/-- The type is left out by a piece of a line that does not fit. -/
def SpuriousType (type : List UInt8) : Prop :=
  ∃ fss ∈ filesystems, ∃ fs ∈ fss, ¬fs.Short ∧ fs.PieceMarks type

/-- The directory is the value of a clear token, in a record with the option, whose name is in it as
it is written. -/
def SoundDir (dir : List UInt8) : Prop :=
  ∃ records ∈ utab, ∃ record ∈ records, (record.Mentions ∧ record.Hides) ∧
    ∃ place ∈ record.places, place.token.key = targetWord ∧ place.Clear ∧ place.token.value = dir

/-- The directory is the value of a token of a record with the option, and the token is not clear or
the name of the option is not in the record as it is written. -/
def MissedDir (dir : List UInt8) : Prop :=
  ∃ records ∈ utab, ∃ record ∈ records, record.Hides ∧
    ∃ place ∈ record.places, place.token.key = targetWord ∧ ¬(record.Mentions ∧ place.Clear) ∧
      place.token.value = dir

/-- The directory is written in a record that has the name of the option in it, and the token is not
clear or the record is without the option. -/
def SpuriousDir (dir : List UInt8) : Prop :=
  ∃ records ∈ utab, ∃ record ∈ records, record.Mentions ∧
    ∃ place ∈ record.places, place.token.key = targetWord ∧ place.Apart ∧
      ¬(record.Hides ∧ place.Clear) ∧ place.written = dir

/-- The mount is left out for a reason that is read right. -/
def Sound (mnt : Mntent) : Prop := SoundType filesystems mnt.type ∨ SoundDir utab mnt.dir

/-- The mount is to be left out for a reason that is not read. -/
def Missed (mnt : Mntent) : Prop := MissedType filesystems mnt.type ∨ MissedDir utab mnt.dir

/-- The mount is left out for what is no reason. -/
def Spurious (mnt : Mntent) : Prop := SpuriousType filesystems mnt.type ∨ SpuriousDir utab mnt.dir

end

section

variable {filesystems : Option (List FsLine)} {utab : Option (List UtabRecord)}

theorem FsLine.newline_notMem_line (fs : FsLine) : 10 ∉ fs.line := by
  intro h
  obtain hn | ht := List.mem_append.mp h
  · split at hn
    · exact absurd hn (by decide)
    · exact absurd hn List.not_mem_nil
  · obtain h9 | ht := List.mem_cons.mp ht
    · exact absurd h9 (by decide)
    · exact (ne_of_isStringByte (fs.isType 10 ht)).2 rfl

theorem gAsciiIsspace_of_isStringByte {b : UInt8} (h : isStringByte b) :
    gAsciiIsspace b = false := by
  rw [Bool.eq_false_iff]
  intro hs
  simp only [gAsciiIsspace, Bool.or_eq_true, decide_eq_true_eq, or_assoc] at hs
  obtain rfl | rfl | rfl | rfl | rfl := hs
  all_goals exact absurd h (by decide)

/-- The four bytes at the end of a line. -/
theorem zfsWord_prefix_drop_iff {line : List UInt8} (h : 3 ≤ line.length) :
    zfsWord <+: (line ++ [10]).drop ((line ++ [10]).length - 4) ↔ zfsWord <:+ line := by
  have hlen : (line ++ [10]).length - 4 = line.length - zfsWord.length := by
    rw [List.length_append]
    exact Nat.add_sub_add_right line.length 1 3
  rw [hlen, List.drop_append_of_le_length (Nat.sub_le _ _), List.suffix_iff_eq_drop]
  constructor
  · intro hp
    have hp := prefix_of_prefix_append (by decide) hp
    refine hp.eq_of_length ?_
    have h3 : zfsWord.length = 3 := rfl
    rw [List.length_drop]
    omega
  · intro he
    rw [← he]
    exact List.prefix_append _ _

theorem ignoredType_eq_some_iff (line type : List UInt8) :
    ignoredType line = some type ↔ nodevWord <+: line ∧
      ¬zfsWord <+: line.drop (line.length - 4) ∧ strip gAsciiIsspace (line.drop 5) = type := by
  rw [← List.isPrefixOf_iff_prefix, ← List.isPrefixOf_iff_prefix, ignoredType]
  split
  · next h =>
    rw [Bool.and_eq_true, Bool.not_eq_true', ← Bool.not_eq_true] at h
    rw [Option.some.injEq, and_iff_right h.1, and_iff_right h.2]
  · next h =>
    rw [Bool.and_eq_true, Bool.not_eq_true', ← Bool.not_eq_true] at h
    exact iff_of_false nofun fun hi ↦ h ⟨hi.1, hi.2.1⟩

/-- What is added for a whole line. -/
theorem ignoredType_line_iff (fs : FsLine) (type : List UInt8) :
    ignoredType (fs.line ++ [10]) = some type ↔ fs.Marks type := by
  rw [ignoredType_eq_some_iff, FsLine.Marks]
  by_cases hn : fs.nodev = true
  · have hline : fs.line = nodevWord ++ 9 :: fs.type := by rw [FsLine.line, if_pos hn]
    have h3 : 3 ≤ fs.line.length := by
      have h5 : nodevWord.length = 5 := rfl
      rw [hline, List.length_append]
      omega
    have hp : nodevWord <+: fs.line ++ [10] := by
      rw [hline, List.append_assoc]
      exact List.prefix_append _ _
    have hd : (fs.line ++ [10]).drop 5 = [9] ++ (fs.type ++ [10]) := by
      rw [hline, List.append_assoc]
      rfl
    have hs : strip gAsciiIsspace ([9] ++ (fs.type ++ [10])) = fs.type :=
      strip_append (List.forall_mem_singleton.mpr (by decide))
        (List.forall_mem_singleton.mpr (by decide))
        fun b hb ↦ gAsciiIsspace_of_isStringByte (fs.isType b hb)
    rw [zfsWord_prefix_drop_iff h3, and_iff_right hp, and_iff_right hn, hd, hs, hline,
      suffix_append_cons_iff (by decide)]
  · have hp : ¬nodevWord <+: fs.line ++ [10] := by
      rw [FsLine.line, if_neg hn]
      exact fun h ↦ absurd (List.cons_prefix_cons.mp h).1 (by decide)
    exact iff_of_false (fun h ↦ hp h.1) fun h ↦ hn h.1

/-- A line that fits the buffer is its only piece. -/
theorem FsLine.pieceMarks_iff {fs : FsLine} (h : fs.Short) (type : List UInt8) :
    fs.PieceMarks type ↔ fs.Marks type := by
  rw [PieceMarks, pieces_short h, ← ignoredType_line_iff, ignoredType_eq_some_iff]
  simp only [List.mem_singleton, exists_eq_left]

/-- The types that are left out are those that are read right and those that are only read. -/
theorem mem_tableFstype_iff (type : List UInt8) :
    type ∈ (ignoreList (filesystems.map fsText) (utab.map utabText)).tableFstype ↔
      SoundType filesystems type ∨ SpuriousType filesystems type := by
  have hread : (∃ fss ∈ filesystems, ∃ fs ∈ fss, fs.PieceMarks type) ↔
      (∃ fss ∈ filesystems, ∃ fs ∈ fss, fs.Short ∧ fs.Marks type) ∨
        SpuriousType filesystems type := by
    rw [SpuriousType, ← exists_or]
    refine exists_congr fun fss ↦ ?_
    rw [← and_or_left, ← exists_or]
    refine and_congr_right fun _ ↦ exists_congr fun fs ↦ ?_
    rw [← and_or_left]
    refine and_congr_right fun _ ↦ ?_
    by_cases h : fs.Short
    · simp only [h, true_and, not_true_eq_false, false_and, or_false, FsLine.pieceMarks_iff h]
    · simp only [h, false_and, not_false_eq_true, true_and, false_or]
  rw [SoundType, or_assoc, ← hread, ignoreList, List.mem_cons]
  refine or_congr Iff.rfl ?_
  cases filesystems with
  | none =>
    refine iff_of_false List.not_mem_nil ?_
    rintro ⟨fss, h, -⟩
    exact absurd h nofun
  | some fss =>
    have hn : ∀ line ∈ fss.map FsLine.line, 10 ∉ line := by
      intro line h
      obtain ⟨fs, -, rfl⟩ := List.mem_map.mp h
      exact fs.newline_notMem_line
    simp only [Option.map_some, Option.elim_some, fgets, fsText, lines_text hn, List.mem_filterMap,
      List.mem_flatMap, List.mem_map, exists_exists_and_eq_and, Option.mem_some_iff,
      exists_eq_left', Nat.add_one_sub_one, ignoredType_eq_some_iff]
    constructor
    · rintro ⟨piece, ⟨fs, hm, hp⟩, hi⟩
      exact ⟨fs, hm, piece, hp, hi⟩
    · rintro ⟨fs, hm, piece, hp, hi⟩
      exact ⟨piece, ⟨fs, hm, hp⟩, hi⟩

/-- The types that are to be left out are those that are read right and those that are missed. -/
theorem marked_iff (type : List UInt8) :
    Marked filesystems type ↔ SoundType filesystems type ∨ MissedType filesystems type := by
  rw [SoundType, or_assoc, Marked, MissedType, ← exists_or]
  refine or_congr Iff.rfl (exists_congr fun fss ↦ ?_)
  rw [← and_or_left, ← exists_or]
  refine and_congr_right fun _ ↦ exists_congr fun fs ↦ ?_
  rw [← and_or_left, ← or_and_right, and_iff_right (em fs.Short)]

end

/-- What is written at a clear token is its value. -/
theorem UtabPlace.Clear.written_eq {place : UtabPlace} (h : place.Clear) :
    place.written = place.token.value := by
  obtain ⟨rest, hrest⟩ := List.head?_eq_some_iff.mp h.space
  rw [written, hrest, h.value_eq]
  exact List.append_nil _

section

variable {filesystems : Option (List FsLine)} {utab : Option (List UtabRecord)}

/-- The directories that are left out are those that are read right and those that are only read. -/
theorem mem_tableMntdir_iff (dir : List UInt8) :
    dir ∈ (ignoreList (filesystems.map fsText) (utab.map utabText)).tableMntdir ↔
      SoundDir utab dir ∨ SpuriousDir utab dir := by
  rw [ignoreList]
  cases utab with
  | none =>
    refine iff_of_false List.not_mem_nil ?_
    rintro (⟨records, h, -⟩ | ⟨records, h, -⟩) <;> exact absurd h nofun
  | some records =>
    simp only [Option.map_some, Option.elim_some, mem_ignoredDirs_iff]
    constructor
    · rintro ⟨record, hm, hmentions, place, hp, hk, ha, hw⟩
      by_cases hc : record.Hides ∧ place.Clear
      · exact .inl ⟨records, rfl, record, hm, ⟨hmentions, hc.1⟩, place, hp, hk, hc.2,
          hc.2.written_eq.symm.trans hw⟩
      · exact .inr ⟨records, rfl, record, hm, hmentions, place, hp, hk, ha, hc, hw⟩
    · rintro (⟨_, hr, record, hm, h, place, hp, hk, hc, hv⟩ |
        ⟨_, hr, record, hm, h, place, hp, hk, ha, -, hw⟩)
      · obtain rfl := Option.some.inj hr
        exact ⟨record, hm, h.1, place, hp, hk, hc.apart, hc.written_eq.trans hv⟩
      · obtain rfl := Option.some.inj hr
        exact ⟨record, hm, h, place, hp, hk, ha, hw⟩

/-- The directories that are to be left out are those that are read right and those that are
missed. -/
theorem hidden_iff (dir : List UInt8) :
    Hidden utab dir ↔ SoundDir utab dir ∨ MissedDir utab dir := by
  constructor
  · rintro ⟨records, hr, record, hm, hh, token, ht, hk, hv⟩
    obtain ⟨place, hp, rfl⟩ := UtabRecord.mem_tokens_iff.mp ht
    by_cases hc : record.Mentions ∧ place.Clear
    · exact .inl ⟨records, hr, record, hm, ⟨hc.1, hh⟩, place, hp, hk, hc.2, hv⟩
    · exact .inr ⟨records, hr, record, hm, hh, place, hp, hk, hc, hv⟩
  · rintro (⟨records, hr, record, hm, h, place, hp, hk, -, hv⟩ |
      ⟨records, hr, record, hm, hh, place, hp, hk, -, hv⟩)
    · exact ⟨records, hr, record, hm, h.2, _, UtabRecord.mem_tokens_iff.mpr ⟨place, hp, rfl⟩, hk, hv⟩
    · exact ⟨records, hr, record, hm, hh, _, UtabRecord.mem_tokens_iff.mpr ⟨place, hp, rfl⟩, hk, hv⟩

/-- A mount is listed as it is to be exactly when it is left out for a reason that is read right, or
what is missed of it and what is only read go together. -/
theorem listed_right_iff (mnt : Mntent) :
    (listed (filesystems.map fsText) (utab.map utabText) false mnt ↔
        Visible filesystems utab mnt) ↔
      Sound filesystems utab mnt ∨
        (Missed filesystems utab mnt ↔ Spurious filesystems utab mnt) := by
  have hlisted : listed (filesystems.map fsText) (utab.map utabText) false mnt ↔
      ¬(Sound filesystems utab mnt ∨ Spurious filesystems utab mnt) := by
    rw [listed, Bool.false_or, Bool.not_eq_true', ← Bool.not_eq_true, ignoreFs, Bool.or_eq_true,
      List.contains_iff_mem, List.contains_iff_mem, mem_tableFstype_iff, mem_tableMntdir_iff,
      or_or_or_comm]
    rfl
  have hvisible : Visible filesystems utab mnt ↔
      ¬(Sound filesystems utab mnt ∨ Missed filesystems utab mnt) := by
    rw [Visible, ← not_or, marked_iff, hidden_iff, or_or_or_comm]
    rfl
  rw [hlisted, hvisible, not_iff_not]
  by_cases hs : Sound filesystems utab mnt
  · simp only [hs, true_or]
  · simp only [hs, false_or, iff_comm]

/-- Some type is not in the texts, and some directory. -/
theorem exists_fresh (filesystems : Option (List FsLine)) (utab : Option (List UtabRecord)) :
    (∃ type, ¬SoundType filesystems type ∧ ¬MissedType filesystems type ∧
      ¬SpuriousType filesystems type) ∧
      ∃ dir, ¬SoundDir utab dir ∧ ¬MissedDir utab dir ∧ ¬SpuriousDir utab dir := by
  let ig := ignoreList (filesystems.map fsText) (utab.map utabText)
  constructor
  · obtain ⟨type, htype⟩ := Infinite.exists_notMem_finset
      (ig.tableFstype ++ filesystems.elim [] (List.map FsLine.type)).toFinset
    rw [List.mem_toFinset, List.mem_append, not_or, mem_tableFstype_iff, not_or] at htype
    refine ⟨type, htype.1.1, ?_, htype.1.2⟩
    rintro ⟨fss, rfl, fs, hm, -, -, -, rfl⟩
    exact htype.2 (List.mem_map_of_mem hm)
  · obtain ⟨dir, hdir⟩ := Infinite.exists_notMem_finset
      (ig.tableMntdir ++ utab.elim [] fun records ↦
        records.flatMap fun record ↦ record.tokens.map UtabToken.value).toFinset
    rw [List.mem_toFinset, List.mem_append, not_or, mem_tableMntdir_iff, not_or] at hdir
    refine ⟨dir, hdir.1.1, ?_, hdir.1.2⟩
    rintro ⟨records, rfl, record, hm, -, place, hp, -, -, rfl⟩
    exact hdir.2 (List.mem_flatMap.mpr ⟨record, hm,
      List.mem_map_of_mem (UtabRecord.mem_tokens_iff.mpr ⟨place, hp, rfl⟩)⟩)

end

/-- With all filesystems every mount is listed. Without, a mount is listed as it is to be exactly
when it is left out for a reason that is read right, or what is missed of it and what is only read
go together; and all mounts are exactly when that is so of every type and of every directory. -/
theorem visible_mounts_iff (filesystems : Option (List FsLine)) (utab : Option (List UtabRecord)) :
    (∀ mounts, (glibtopGetMountlistS (filesystems.map fsText) (utab.map utabText) (some mounts)
      true).2 = mounts.map mountEntry) ∧
    (∀ mounts, (glibtopGetMountlistS (filesystems.map fsText) (utab.map utabText) (some mounts)
      false).2 = (mounts.filter
        (listed (filesystems.map fsText) (utab.map utabText) false)).map mountEntry) ∧
    (∀ mnt, (listed (filesystems.map fsText) (utab.map utabText) false mnt ↔
        Visible filesystems utab mnt) ↔
      Sound filesystems utab mnt ∨
        (Missed filesystems utab mnt ↔ Spurious filesystems utab mnt)) ∧
    ((∀ mnt, listed (filesystems.map fsText) (utab.map utabText) false mnt ↔
        Visible filesystems utab mnt) ↔
      (∀ type, SoundType filesystems type ∨
        (MissedType filesystems type ↔ SpuriousType filesystems type)) ∧
      ∀ dir, SoundDir utab dir ∨ (MissedDir utab dir ↔ SpuriousDir utab dir)) := by
  refine ⟨fun mounts ↦ ?_, fun mounts ↦ rfl, listed_right_iff, ?_⟩
  · have hall : mounts.filter (listed (filesystems.map fsText) (utab.map utabText) true) = mounts :=
      List.filter_eq_self.mpr fun _ _ ↦ rfl
    rw [glibtopGetMountlistS, Option.elim_some, hall]
  · simp only [listed_right_iff, Sound, Missed, Spurious]
    constructor
    · -- beside a fresh directory only the type counts, and beside a fresh type the directory
      intro h
      have hmnt : ∀ type dir,
          (SoundType filesystems type ∨ SoundDir utab dir) ∨
            (MissedType filesystems type ∨ MissedDir utab dir ↔
              SpuriousType filesystems type ∨ SpuriousDir utab dir) := fun type dir ↦
        h { fsname := [], dir := dir, type := type, opts := [], behind := []
            notMem_opts := List.not_mem_nil }
      obtain ⟨⟨type₀, ht₁, ht₂, ht₃⟩, dir₀, hd₁, hd₂, hd₃⟩ := exists_fresh filesystems utab
      refine ⟨fun type ↦ ?_, fun dir ↦ ?_⟩
      · have htype := hmnt type dir₀
        rwa [or_iff_left hd₁, or_iff_left hd₂, or_iff_left hd₃] at htype
      · have hdir := hmnt type₀ dir
        rwa [or_iff_right ht₁, or_iff_right ht₂, or_iff_right ht₃] at hdir
    · rintro ⟨htypes, hdirs⟩ mnt
      have htype := htypes mnt.type
      have hdir := hdirs mnt.dir
      tauto

theorem isKey_of_all {key : List UInt8} (h : key.all fun b ↦ isUtabByte b && b ≠ 61) :
    ∀ b ∈ key, isUtabByte b ∧ b ≠ 61 := by
  intro b hb
  have hk := List.all_eq_true.mp h b hb
  rwa [Bool.and_eq_true, decide_eq_true_eq] at hk

/-- `TARGET=/\040b`. -/
def escapedTarget : UtabToken where
  key := targetWord
  raw := asciiBytes ['/', '\\', '0', '4', '0', 'b']
  isKey := isKey_of_all (by decide)
  isRaw := List.all_eq_true.mp (by decide)

/-- `OPTS=x-gdu.hide`. -/
def hideOpts : UtabToken where
  key := optsWord
  raw := hideOption
  isKey := isKey_of_all (by decide)
  isRaw := List.all_eq_true.mp (by decide)

theorem isBlanks_nil : ∀ b ∈ ([] : List UInt8), isBlankByte b := List.forall_mem_nil _

theorem isGap_space : ([32] : List UInt8) ≠ [] ∧ ∀ b ∈ ([32] : List UInt8), isBlankByte b :=
  ⟨List.cons_ne_nil _ _, List.forall_mem_singleton.mpr rfl⟩

/-- The record of a hidden mount. -/
def escapedRecord : UtabRecord where
  lead := ⟨[], isBlanks_nil⟩
  initial := [(escapedTarget, ⟨[32], isGap_space⟩)]
  last := some hideOpts

/-- The mount on `/ b` is listed, though the record of its directory `/\040b` hides it. -/
theorem escaped_mount_listed :
    ¬∀ (filesystems : Option (List FsLine)) (utab : Option (List UtabRecord)) (mnt : Mntent),
      listed (filesystems.map fsText) (utab.map utabText) false mnt ↔
        Visible filesystems utab mnt := by
  intro h
  have hvisible := (h none (some [escapedRecord])
    { fsname := [], dir := asciiBytes ['/', ' ', 'b'], type := asciiBytes ['x'], opts := []
      behind := [], notMem_opts := List.not_mem_nil }).mp (by decide)
  refine hvisible.2 ⟨[escapedRecord], rfl, escapedRecord, List.mem_singleton_self _, ?_, ?_⟩
  · exact ⟨hideOpts, List.mem_append_right _ (List.mem_singleton_self _), rfl, by decide⟩
  · exact ⟨escapedTarget, List.mem_append_left _ (List.mem_singleton_self _), rfl, by decide⟩

end LibGTop.Linux
