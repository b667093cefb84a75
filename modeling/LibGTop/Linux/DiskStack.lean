import LibGTop.Linux.DiskBounds

/-!
# The stack of the disk getter

What `glibtop_get_disk_s` finds depends on what its buffers hold before: the output of
the pipe is not terminated, and neither is a type of four bytes that is copied.
-/

namespace LibGTop.Linux

open Base

/-- What a caller gets: `server->ndisk` and the arrays. -/
def DiskReading.result (reading : DiskReading) : Nat × (Nat → DiskTimes) :=
  (reading.ndisk, reading.xdisk)

/-- Bytes none of which ends a string. -/
private def ones (size : Nat) : List UInt8 := List.replicate size 1

private theorem notMem_ones (size : Nat) : 0 ∉ ones size := fun h ↦
  absurd (List.mem_replicate.mp h).2 (by decide)

/-- A stack on which no string ends. -/
def filledStack : DiskStack where
  primaryPart _ := ⟨[], ones 256, []⟩
  mapBuffer := ones statBufsiz
  mapBuffer_length := List.length_replicate
  name := []

/-- Behind an output without a NUL the buffer has what it had before. -/
theorem terminated_filled {output : List UInt8} (h : 0 ∉ output) :
    terminated (getFromPipe filledStack.mapBuffer output) = none := by
  refine if_neg fun hm ↦ ?_
  rw [getFromPipe, overlay] at hm
  obtain hm | hm := List.mem_append.mp hm
  · exact h (List.mem_of_mem_take hm)
  · exact notMem_ones statBufsiz (List.mem_of_mem_drop hm)

/-- For no text of `/proc/diskstats` and no output of the pipe there is one result that the getter
has whatever is on the stack. -/
theorem result_undetermined (diskstats : List UInt8) {output : List UInt8} (h : 0 ∉ output) :
    ¬∃ result, ∀ stack, (glibtopGetDiskS stack (some diskstats) output).map DiskReading.result =
      some result := by
  rintro ⟨result, hr⟩
  have hs := hr filledStack
  rw [glibtopGetDiskS, terminated_filled h] at hs
  split at hs
  · next hn => exact absurd hn (Option.some_ne_none _).symm
  · exact absurd hs (Option.some_ne_none result).symm

/-- The entries of the table that the rows of a listing write, how many count, and the level. -/
structure Entries where
  entries : List (List UInt8 × List UInt8) := []
  max : Nat := 0
  level : Nat := 0

/-- A row behind entries or over the last of them. -/
def Entries.step (e : Entries) (row : ListingRow) : Entries :=
  let t := transition e.level ((e.entries.getLast?.map Prod.snd).getD []) row.type
  { entries := (if t.back then e.entries.dropLast else e.entries) ++ [row.stored]
    max := if t.counts then e.max + 1 else e.max
    level := t.tlvl }

/-- The table has these entries, and some on the levels above 0. -/
structure Finder.Has (s : Finder) (e : Entries) : Prop where
  written : Written s e.entries e.max e.level
  entries_ne : e.level ≠ 0 → e.entries ≠ []

section

variable {s : Finder} {e : Entries}

/-- Of the type in the entry before only that of an entry matters. -/
theorem Finder.Has.transition_last (h : s.Has e) (type : List UInt8) :
    transition e.level ((e.entries.getLast?.map Prod.snd).getD []) type =
      transition e.level s.last type := by
  by_cases h0 : e.level = 0
  · rw [h0]
    rfl
  · obtain he | ⟨entries, entry, he⟩ := List.eq_nil_or_concat' e.entries
    · exact absurd he (h.entries_ne h0)
    · have hw := h.written
      rw [he] at hw
      rw [he, List.getLast?_concat, hw.last]
      rfl

/-- A row does to the table what it does to its entries. -/
theorem Finder.Has.step (h : s.Has e) (row : ListingRow) :
    (s.step row.strings).Has (e.step row) := by
  have hl := h.transition_last row.type
  obtain ⟨hb, -⟩ := fits_transition e.level s.last row.type
  refine ⟨?_, fun _ ↦ List.append_ne_nil_of_right_ne_nil _ (List.cons_ne_nil _ _)⟩
  rw [Entries.step, hl]
  cases hback : (transition e.level s.last row.type).back with
  | false =>
    have ht : transition e.level s.last row.type =
        ⟨false, (transition e.level s.last row.type).tlvl,
          (transition e.level s.last row.type).counts⟩ := by rw [← hback]
    exact h.written.append row ht
  | true =>
    have ht : transition e.level s.last row.type =
        ⟨true, (transition e.level s.last row.type).tlvl,
          (transition e.level s.last row.type).counts⟩ := by rw [← hback]
    obtain he | ⟨entries, entry, he⟩ := List.eq_nil_or_concat' e.entries
    · exact absurd he (h.entries_ne (hb hback))
    · have hw := h.written
      rw [he] at hw
      simp only [he, List.dropLast_concat, if_true]
      exact hw.replace row ht

theorem Finder.Has.walk (h : s.Has e) (rows : List ListingRow) :
    (walk s rows).Has (rows.foldl Entries.step e) := by
  induction rows generalizing s e with
  | nil => exact h
  | cons row rows ih => exact ih (h.step row)

/-- The names are those of the entries that count. -/
theorem Finder.Has.names (h : s.Has e) (hm : e.max ≤ e.entries.length) :
    s.names = (e.entries.take e.max).map Prod.fst := by
  refine List.ext_getElem (by simp [Finder.names, h.written.max, hm]) fun i h1 h2 ↦ ?_
  rw [Finder.names, List.length_map, List.length_range, h.written.max] at h1
  have he := congrArg Prod.fst (h.written.entry i (by omega))
  simp only [Finder.names, List.getElem_map, List.getElem_range, List.getElem_take]
  exact he

end

/-- With a table in which the types end, the names are the same whatever else it holds. -/
theorem names_of_isShort {table : Int → PartitionInfo} (h : ∀ i, IsShort (table i).type)
    (rows : List ListingRow) :
    (findPrimaryPart table (lsblk rows)).names =
      ((rows.foldl Entries.step {}).entries.take (rows.foldl Entries.step {}).max).map
        Prod.fst := by
  have hs : (Finder.start table).Has {} := ⟨written_start h, fun h0 ↦ absurd rfl h0⟩
  have hw := hs.walk rows
  have hb := ((bounded_start table).foldl (rows.map ListingRow.strings)).max
  rw [findPrimaryPart_lsblk]
  refine hw.names ?_
  have hm := hw.written.max
  have hn := hw.written.n
  rw [walk] at hm hn
  omega

/-- A stack on which the output of the pipe ends, and the types in the table. -/
def Prepared (stack : DiskStack) : Prop :=
  stack.mapBuffer = zeros statBufsiz ∧ ∀ i, IsShort (stack.primaryPart i).type

/-- What a caller gets depends on the names only. -/
theorem result_readDisks {stack : DiskStack} {lines : List DiskLine} {reading : DiskReading}
    {listing : List UInt8}
    (h : reading = readDisks stack ((diskstats lines).take (statBufsiz - 1)) listing) :
    reading.result =
      ((taken reading.finder.names false (statBufsiz - 1) lines).length, fun i ↦
        ((taken reading.finder.names false (statBufsiz - 1) lines)[i]?.map Prod.snd).getD {}) := by
  have hn := (gives_readDisks h).1
  rw [Nat.zero_add] at hn
  rw [DiskReading.result, funext (xdisk_readDisks h)]
  exact congrArg (·, _) hn

/-- On a prepared stack the getter does what it does on a cleared one. -/
theorem result_prepared {stack : DiskStack} (h : Prepared stack) (lines : List DiskLine)
    (rows : List ListingRow) :
    (glibtopGetDiskS stack (some (diskstats lines)) (lsblk rows)).map DiskReading.result =
      (glibtopGetDiskS clearedStack (some (diskstats lines)) (lsblk rows)).map
        DiskReading.result := by
  have hm : clearedStack.mapBuffer = zeros statBufsiz := rfl
  rw [glibtopGetDiskS, glibtopGetDiskS, tryFileToBuffer_take statBufsiz (notMem_diskstats lines),
    h.1, hm]
  by_cases hl : (lsblk rows).length < statBufsiz
  · have hn : (readDisks stack ((diskstats lines).take (statBufsiz - 1)) (lsblk rows)).finder.names =
        (readDisks clearedStack ((diskstats lines).take (statBufsiz - 1))
          (lsblk rows)).finder.names :=
      (names_of_isShort h.2 rows).trans (names_of_isShort (fun _ ↦ isShort_zeros) rows).symm
    rw [terminated_zeros (notMem_lsblk rows) hl]
    simp only [Option.map_some]
    rw [result_readDisks rfl, result_readDisks rfl, hn]
  · have ht : terminated (getFromPipe (zeros statBufsiz) (lsblk rows)) = none := by
      refine if_neg fun h0 ↦ ?_
      have hf : (zeros statBufsiz).length ≤ (lsblk rows).length := by
        rw [length_zeros]
        omega
      rw [getFromPipe, overlay, List.length_take, Nat.min_eq_left hf, List.drop_length,
        List.append_nil] at h0
      exact notMem_lsblk rows (List.mem_of_mem_take h0)
    rw [ht]

/-- A stack on which another listing is left. -/
def leftStack (rows : List ListingRow) : DiskStack where
  primaryPart := clearedTable
  mapBuffer := getFromPipe (zeros statBufsiz) (lsblk rows)
  mapBuffer_length := by
    rw [getFromPipe, length_overlay _ _ (List.length_take_le _ _), length_zeros]
  name := []

/-- A stack on which no type in the table ends. -/
def typeStack : DiskStack where
  primaryPart _ := ⟨[], ones 256, []⟩
  mapBuffer := zeros statBufsiz
  mapBuffer_length := length_zeros statBufsiz
  name := []

/-- The number of devices when the listing ends. -/
theorem ndisk_getDisk (stack : DiskStack) (lines : List DiskLine) (rows : List ListingRow)
    {output : List UInt8} (h : terminated (getFromPipe stack.mapBuffer output) = some (lsblk rows)) :
    (glibtopGetDiskS stack (some (diskstats lines)) output).map (fun reading ↦ reading.result.1) =
      some (taken (walk (.start stack.primaryPart) rows).names false (statBufsiz - 1)
        lines).length := by
  rw [glibtopGetDiskS, tryFileToBuffer_take statBufsiz (notMem_diskstats lines), h]
  simp only [Option.map_some]
  rw [result_readDisks rfl]
  have hw : (readDisks stack ((diskstats lines).take (statBufsiz - 1)) (lsblk rows)).finder =
      walk (.start stack.primaryPart) rows := findPrimaryPart_lsblk stack.primaryPart rows
  rw [hw]

/-- A raid with a volume, behind a disk and a partition. -/
private def raidRows : List ListingRow :=
  [sdaRow,
    sdRow sda partType (List.cons_ne_nil _ _) (List.all_eq_true.mp (by decide)) (by decide),
    sdRow sdb (raidType ++ [49]) (List.cons_ne_nil _ _) (List.all_eq_true.mp (by decide))
      (by decide),
    sdRow sda lvmType (List.cons_ne_nil _ _) (List.all_eq_true.mp (by decide)) (by decide)]

/-- For no text of `/proc/diskstats` and no output of the pipe there is one result that the getter
has whatever is on the stack. On all stacks on which the output ends, and the types in the table, it
has one. -/
theorem disk_result_undetermined (content output : List UInt8) (h : 0 ∉ output) :
    (¬∃ result, ∀ stack,
      (glibtopGetDiskS stack (some content) output).map DiskReading.result = some result) ∧
    ∀ (lines : List DiskLine) (rows : List ListingRow), content = diskstats lines →
      output = lsblk rows → ∀ stack, Prepared stack →
        (glibtopGetDiskS stack (some content) output).map DiskReading.result =
          (glibtopGetDiskS clearedStack (some content) output).map DiskReading.result := by
  refine ⟨result_undetermined content h, ?_⟩
  rintro lines rows rfl rfl stack hs
  exact result_prepared hs lines rows

theorem disk_result_undetermined_sda :
    ¬∃ result, ∀ stack,
      (glibtopGetDiskS stack (some (diskstats [sda])) (lsblk [sdaRow])).map DiskReading.result =
        some result :=
  (disk_result_undetermined (diskstats [sda]) (lsblk [sdaRow]) (notMem_lsblk [sdaRow])).1

/-- The same texts give different numbers of devices when another listing is in the buffer of the
pipe, and when the type of a raid does not end. -/
theorem disk_result_of_garbage :
    let ndisk (stack : DiskStack) (lines : List DiskLine) (rows : List ListingRow) :=
      (glibtopGetDiskS stack (some (diskstats lines)) (lsblk rows)).map
        fun reading ↦ reading.result.1
    (ndisk clearedStack [sda] [] = some 1 ∧ ndisk (leftStack [sdaRow]) [sda] [] = some 0) ∧
      ndisk clearedStack [sdb] raidRows = some 0 ∧ ndisk typeStack [sdb] raidRows = some 1 := by
  have hz : ∀ (stack : DiskStack) (rows : List ListingRow), stack.mapBuffer = zeros statBufsiz →
      (lsblk rows).length < statBufsiz →
        terminated (getFromPipe stack.mapBuffer (lsblk rows)) = some (lsblk rows) := by
    intro stack rows hm hl
    rw [hm]
    exact terminated_zeros (notMem_lsblk rows) hl
  have hleft : terminated (getFromPipe (leftStack [sdaRow]).mapBuffer (lsblk [])) =
      some (lsblk [sdaRow]) := by
    have hb : getFromPipe (leftStack [sdaRow]).mapBuffer (lsblk []) =
        getFromPipe (zeros statBufsiz) (lsblk [sdaRow]) := by
      rw [lsblk_nil, getFromPipe, List.take_nil, overlay, List.nil_append]
      rfl
    rw [hb]
    exact terminated_zeros (notMem_lsblk [sdaRow]) (by decide)
  have h1 := ndisk_getDisk clearedStack [sda] [] (hz clearedStack [] rfl (by decide))
  have h2 := ndisk_getDisk (leftStack [sdaRow]) [sda] [sdaRow] hleft
  have h3 := ndisk_getDisk clearedStack [sdb] raidRows (hz clearedStack raidRows rfl (by decide))
  have h4 := ndisk_getDisk typeStack [sdb] raidRows (hz typeStack raidRows rfl (by decide))
  exact ⟨⟨h1.trans (congrArg some (by decide)), h2.trans (congrArg some (by decide))⟩,
    h3.trans (congrArg some (by decide)), h4.trans (congrArg some (by decide))⟩

end LibGTop.Linux
