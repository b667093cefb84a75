import LibGTop.Linux.DiskListing
import LibGTop.Linux.DiskLoop
import Mathlib.Data.List.Chain

/-!
# The devices that are read

The lines of `/proc/diskstats` that are wanted, those of devices that are not in the
list of names, and when the loop of `glibtop_get_disk_s` takes exactly these.
-/

namespace LibGTop.Linux

open Base

/-- The lines with the offsets at which they start. -/
def placed : Nat → List DiskLine → List (Nat × DiskLine)
  | _, [] => []
  | offset, line :: lines => (offset, line) :: placed (offset + line.size) lines

section

variable (names : List (List UInt8))

/-- The lines that are wanted. -/
def wanted : Nat → List DiskLine → List (List UInt8 × DiskTimes)
  | _, [] => []
  | room, line :: lines =>
    if line.name ∈ names then wanted (room - line.size) lines
    else ((diskstats (line :: lines)).take room, diskTimes line.values) ::
      wanted (room - line.size) lines

/-- The lines that are taken are the wanted ones: behind a line that is passed over there is no
listed one, a line that is cut is passed over exactly when it is listed, and the columns of the
wanted lines are in the buffer, but for zeros. -/
def Kept : Bool → Nat → List DiskLine → Prop
  | _, _, [] => True
  | skip, room, line :: lines =>
    if room ≤ line.lead then ∀ rest ∈ line :: lines, rest.name ∈ names
    else if skip || !passesOver names line room then
      line.name ∉ names ∧ timesShown line room = diskTimes line.values ∧
        Kept false (room - line.size) lines
    else line.name ∈ names ∧ Kept true (room - line.size) lines

variable {names}

section

variable (names) (room : Nat) (lines : List DiskLine)

theorem length_of_mem_taken (skip : Bool) :
    ∀ found ∈ taken names skip room lines,
      found.1.length ≤ room ∧ found.1.length ≤ (diskstats lines).length := by
  induction lines generalizing skip room with
  | nil => exact nofun
  | cons line lines ih =>
    have hl := line.length_text_eq (diskstats lines)
    have hrest : ∀ skip, ∀ found ∈ taken names skip (room - line.size) lines,
        found.1.length ≤ room ∧ found.1.length ≤ (diskstats (line :: lines)).length := by
      intro skip found hf
      have hi := ih (room - line.size) skip found hf
      rw [diskstats_cons]
      omega
    intro found hf
    rw [taken] at hf
    split at hf
    · exact absurd hf List.not_mem_nil
    · split at hf
      · obtain rfl | hf := List.mem_cons.mp hf
        · exact ⟨List.length_take_le _ _, List.length_take_le' _ _⟩
        · exact hrest false found hf
      · exact hrest true found hf

theorem length_of_mem_wanted :
    ∀ found ∈ wanted names room lines,
      found.1.length ≤ room ∧ found.1.length ≤ (diskstats lines).length := by
  induction lines generalizing room with
  | nil => exact nofun
  | cons line lines ih =>
    have hl := line.length_text_eq (diskstats lines)
    have hrest : ∀ found ∈ wanted names (room - line.size) lines,
        found.1.length ≤ room ∧ found.1.length ≤ (diskstats (line :: lines)).length := by
      intro found hf
      have hi := ih (room - line.size) found hf
      rw [diskstats_cons]
      omega
    intro found hf
    rw [wanted] at hf
    split at hf
    · exact hrest found hf
    · obtain rfl | hf := List.mem_cons.mp hf
      · exact ⟨List.length_take_le _ _, List.length_take_le' _ _⟩
      · exact hrest found hf

theorem wanted_eq_nil_iff : wanted names room lines = [] ↔ ∀ line ∈ lines, line.name ∈ names := by
  induction lines generalizing room with
  | nil => exact iff_of_true rfl nofun
  | cons line lines ih =>
    rw [wanted, List.forall_mem_cons, ← ih (room - line.size)]
    split
    · next h => exact (and_iff_right h).symm
    · next h => exact iff_of_false (List.cons_ne_nil _ _) fun hn ↦ h hn.1

end

/-- A text that starts at a line is found among none that start behind it. -/
private theorem notMem_behind (line : DiskLine) (lines : List DiskLine) {room : Nat}
    (hr : 0 < room) {founds : List (List UInt8 × DiskTimes)} (times : DiskTimes)
    (h : ∀ found ∈ founds, found.1.length ≤ room - line.size ∧
      found.1.length ≤ (diskstats lines).length) :
    ((diskstats (line :: lines)).take room, times) ∉ founds := by
  intro hm
  have hb := h _ hm
  have hs := line.size_pos
  have hl := line.length_text_eq (diskstats lines)
  rw [List.length_take, diskstats_cons] at hb
  omega

/-- The lines that are taken are the wanted ones exactly in these cases. -/
theorem taken_eq_wanted_iff (skip : Bool) (room : Nat) (lines : List DiskLine) :
    taken names skip room lines = wanted names room lines ↔ Kept names skip room lines := by
  induction lines generalizing skip room with
  | nil => exact iff_of_true rfl trivial
  | cons line lines ih =>
    rw [taken, Kept]
    by_cases hs : room ≤ line.lead
    · rw [if_pos hs, if_pos hs, eq_comm]
      exact wanted_eq_nil_iff names room (line :: lines)
    · have hw := fun times ↦ notMem_behind line lines (by omega) times
        (length_of_mem_wanted names (room - line.size) lines)
      have ht := fun times ↦ notMem_behind line lines (by omega) times
        (length_of_mem_taken names (room - line.size) lines true)
      rw [if_neg hs, if_neg hs, wanted]
      by_cases hn : line.name ∈ names
      · rw [if_pos hn]
        split
        · refine iff_of_false (fun he ↦ hw (timesShown line room) ?_) fun hk ↦ hk.1 hn
          rw [← he]
          exact List.mem_cons_self
        · rw [ih, and_iff_right hn]
      · rw [if_neg hn]
        split
        · rw [List.cons.injEq, Prod.mk.injEq, and_iff_right rfl, and_iff_right hn, ih]
        · refine iff_of_false (fun he ↦ ht (diskTimes line.values) ?_) fun hk ↦ hn hk.1
          rw [he]
          exact List.mem_cons_self

theorem length_wanted (room : Nat) (lines : List DiskLine) :
    (wanted names room lines).length =
      (lines.filter fun line ↦ line.name ∉ names).length := by
  induction lines generalizing room with
  | nil => rfl
  | cons line lines ih =>
    rw [wanted]
    by_cases h : line.name ∈ names
    · rw [if_pos h, List.filter_cons_of_neg (by simpa using h), ih]
    · rw [if_neg h, List.filter_cons_of_pos (by simpa using h), List.length_cons, List.length_cons,
        ih]

/-- The wanted lines by their offsets in the buffer. -/
theorem wanted_eq_placed (names : List (List UInt8)) {buffer : List UInt8} {offset room : Nat}
    (lines : List DiskLine)
    (h : buffer.drop offset = (diskstats lines).take room) :
    wanted names room lines =
      ((placed offset lines).filter fun place ↦ place.2.name ∉ names).map fun place ↦
        (buffer.drop place.1, diskTimes place.2.values) := by
  induction lines generalizing offset room with
  | nil => rfl
  | cons line lines ih =>
    have hrest : buffer.drop (offset + line.size) = (diskstats lines).take (room - line.size) := by
      rw [← List.drop_drop, h, diskstats_cons, List.drop_take, line.drop_text]
    rw [wanted, placed, ih hrest]
    by_cases hn : line.name ∈ names
    · rw [if_pos hn, List.filter_cons_of_neg (by simpa using hn)]
    · rw [if_neg hn, List.filter_cons_of_pos (by simpa using hn), List.map_cons, h]

/-- A line that is there has all its columns. -/
theorem timesShown_of_fits (line : DiskLine) {room : Nat} (h : line.size ≤ room) :
    timesShown line room = diskTimes line.values := by
  rw [DiskLine.size] at h
  rw [timesShown, cutValues_of_fits (by omega)]

theorem passesOver_of_fits (line : DiskLine) {room : Nat} (h : line.size ≤ room) :
    passesOver names line room = true ↔ line.name ∈ names := by
  have hn := List.length_pos_of_ne_nil line.name_ne
  rw [DiskLine.size] at h
  have hr : decide (room ≤ line.nameOffset) = false := decide_eq_false (by omega)
  rw [passesOver, hr, Bool.false_or, List.take_of_length_le (by omega), List.contains_iff_mem]

/-- In a text that fits no two listed lines follow one another. -/
theorem kept_of_fits (skip : Bool) (room : Nat) (lines : List DiskLine)
    (h : (diskstats lines).length ≤ room) :
    Kept names skip room lines ↔
      (skip = true → ∀ line ∈ lines.head?, line.name ∉ names) ∧
        lines.IsChain fun line next ↦ ¬(line.name ∈ names ∧ next.name ∈ names) := by
  induction lines generalizing skip room with
  | nil => exact iff_of_true trivial ⟨fun _ ↦ nofun, .nil⟩
  | cons line lines ih =>
    rw [diskstats_cons, line.length_text_eq] at h
    have hs : ¬room ≤ line.lead := by
      rw [DiskLine.size, DiskLine.nameOffset] at h
      omega
    have hi := fun skip ↦ ih skip (room - line.size) (by omega)
    have hp : passesOver names line room = true ↔ line.name ∈ names :=
      passesOver_of_fits line (by omega)
    rw [Kept, if_neg hs, timesShown_of_fits line (by omega), List.isChain_cons]
    by_cases hn : line.name ∈ names
    · cases skip with
      | true =>
        rw [Bool.true_or, if_pos rfl]
        exact iff_of_false (fun hk ↦ hk.1 hn) fun hk ↦ hk.1 rfl line rfl hn
      | false =>
        rw [hp.mpr hn, if_neg (by decide), hi true]
        simp [hn]
    · have hf : (skip || !passesOver names line room) = true := by
        rw [Bool.eq_false_of_not_eq_true fun ht ↦ hn (hp.mp ht), Bool.not_false, Bool.or_true]
      rw [hf, if_pos rfl, hi false]
      simp [hn]

end

/-- What the getter finds selects the wanted lines: `server->ndisk` is their number, each element of
the arrays is from the line it belongs to, in the order of the file, and the elements behind are
0. -/
structure SelectsDisks (names : List (List UInt8)) (lines : List DiskLine) (reading : DiskReading) :
    Prop where
  ndisk : reading.ndisk = (lines.filter fun line ↦ line.name ∉ names).length
  rows : ((reading.rows.take reading.ndisk).map fun turn ↦ (turn.line, turn.times)) =
    ((placed 0 lines).filter fun place ↦ place.2.name ∉ names).map fun place ↦
      (((diskstats lines).take (statBufsiz - 1)).drop place.1, diskTimes place.2.values)
  behind : ∀ i, reading.ndisk ≤ i → reading.xdisk i = {}

/-- With a cleared stack the getter reads the texts that fit in its buffers. -/
theorem getDisk_cleared (lines : List DiskLine) (rows : List ListingRow)
    (h : (lsblk rows).length < statBufsiz) :
    glibtopGetDiskS clearedStack (some (diskstats lines)) (lsblk rows) =
      some (readDisks clearedStack ((diskstats lines).take (statBufsiz - 1)) (lsblk rows)) := by
  have ht : terminated (getFromPipe clearedStack.mapBuffer (lsblk rows)) = some (lsblk rows) :=
    terminated_zeros (notMem_lsblk rows) h
  rw [glibtopGetDiskS, tryFileToBuffer_take statBufsiz (notMem_diskstats lines), ht]

private theorem names_cleared (buffer : List UInt8) (rows : List ListingRow) :
    (readDisks clearedStack buffer (lsblk rows)).finder.names =
      ((rows.map ListingRow.strings).foldl Finder.step (.start clearedStack.primaryPart)).names := by
  rw [← findPrimaryPart_lsblk]
  rfl

/-- A device, and a row for it in a listing. -/
def sdLine (name : List UInt8) (hn : name ≠ []) (hs : ∀ b ∈ name, isStringByte b)
    (hl : name.length < 256) : DiskLine where
  lead := 3
  major := 8
  gap := 6
  minor := 0
  name := name
  values := [1, 2, 3, 4, 5, 6, 7, 8]
  name_ne := hn
  isStringByte_name := hs
  name_length := hl
  columns := by decide

@[inherit_doc sdLine]
def sdRow (line : DiskLine) (type : List UInt8) (hn : type ≠ []) (hs : ∀ b ∈ type, isStringByte b)
    (hl : type.length < 256) : ListingRow where
  name := line.name
  type := type
  name_ne := line.name_ne
  type_ne := hn
  isStringByte_name := line.isStringByte_name
  isStringByte_type := hs
  name_length := line.name_length
  type_length := hl

/-- The first devices, and their rows. -/
def sda : DiskLine :=
  sdLine (asciiBytes ['s', 'd', 'a']) (List.cons_ne_nil _ _) (List.all_eq_true.mp (by decide))
    (by decide)

@[inherit_doc sda]
def sdb : DiskLine :=
  sdLine (asciiBytes ['s', 'd', 'b']) (List.cons_ne_nil _ _) (List.all_eq_true.mp (by decide))
    (by decide)

@[inherit_doc sda]
def sdaRow : ListingRow :=
  sdRow sda (asciiBytes ['d', 'i', 's', 'k']) (List.cons_ne_nil _ _)
    (List.all_eq_true.mp (by decide)) (by decide)

@[inherit_doc sda]
def sdbRow : ListingRow :=
  sdRow sdb (asciiBytes ['d', 'i', 's', 'k']) (List.cons_ne_nil _ _)
    (List.all_eq_true.mp (by decide)) (by decide)

section

variable {stack : DiskStack} {lines : List DiskLine} {output : List UInt8} {reading : DiskReading}

/-- What the getter finds is what its loop takes. -/
theorem gives_readDisks {listing : List UInt8}
    (h : reading = readDisks stack ((diskstats lines).take (statBufsiz - 1)) listing) :
    Gives (reading.rows, reading.ndisk) 0
      (taken reading.finder.names false (statBufsiz - 1) lines)
      (turnStarts reading.finder.names false (statBufsiz - 1) lines) := by
  subst h
  have hg := (gives_taken (findPrimaryPart stack.primaryPart listing).names stack.name lines
    (statBufsiz - 1) 0).1
  rw [Nat.zero_add, ← maxLines_take] at hg
  exact hg

/-- The elements of the arrays are those of the lines that are taken. -/
theorem xdisk_readDisks {listing : List UInt8}
    (h : reading = readDisks stack ((diskstats lines).take (statBufsiz - 1)) listing) (i : Nat) :
    reading.xdisk i =
      ((taken reading.finder.names false (statBufsiz - 1) lines)[i]?.map Prod.snd).getD {} := by
  obtain ⟨-, -, extra, hr, hz⟩ := gives_readDisks h
  have hx : reading.xdisk i =
      ((reading.rows.map fun turn ↦ (turn.line, turn.times))[i]?.map Prod.snd).getD {} := by
    rw [List.getElem?_map, Option.map_map]
    rfl
  rw [hx, hr]
  by_cases hi : i < (taken reading.finder.names false (statBufsiz - 1) lines).length
  · rw [List.getElem?_append_left hi]
  · have hn : (taken reading.finder.names false (statBufsiz - 1) lines)[i]? = none :=
      List.getElem?_eq_none (by omega)
    rw [List.getElem?_append_right (by omega), hn]
    cases he : extra[i - (taken reading.finder.names false (statBufsiz - 1) lines).length]? with
    | none => rfl
    | some turn => exact hz turn (List.mem_of_getElem? he)

theorem readDisks_of_getDisk
    (h : glibtopGetDiskS stack (some (diskstats lines)) output = some reading) :
    ∃ listing, reading = readDisks stack ((diskstats lines).take (statBufsiz - 1)) listing := by
  rw [glibtopGetDiskS, tryFileToBuffer_take statBufsiz (notMem_diskstats lines)] at h
  split at h
  · next buffer listing hb hl =>
    obtain rfl := Option.some.inj hb
    exact ⟨listing, (Option.some.inj h).symm⟩
  · exact absurd h (Option.some_ne_none reading).symm

theorem selectsDisks_iff (h : glibtopGetDiskS stack (some (diskstats lines)) output = some reading) :
    SelectsDisks reading.finder.names lines reading ↔
      Kept reading.finder.names false (statBufsiz - 1) lines := by
  obtain ⟨listing, hl⟩ := readDisks_of_getDisk h
  obtain ⟨hn, -, extra, hr, -⟩ := gives_readDisks hl
  rw [Nat.zero_add] at hn
  simp only at hn hr
  have hw := wanted_eq_placed reading.finder.names lines
    (rfl : ((diskstats lines).take (statBufsiz - 1)).drop 0 = _)
  have ht : ((reading.rows.take reading.ndisk).map fun turn ↦ (turn.line, turn.times)) =
      taken reading.finder.names false (statBufsiz - 1) lines := by
    rw [List.map_take, hr, hn, List.take_left]
  rw [← taken_eq_wanted_iff]
  constructor
  · intro hs
    rw [← ht, hs.rows, ← hw]
  · intro hk
    refine ⟨by rw [hn, hk, length_wanted], by rw [ht, hk, hw], fun i hi ↦ ?_⟩
    rw [xdisk_readDisks hl, List.getElem?_eq_none (by omega)]
    rfl

theorem selectsDisks_iff_isChain
    (h : glibtopGetDiskS stack (some (diskstats lines)) output = some reading)
    (hl : (diskstats lines).length < statBufsiz) :
    SelectsDisks reading.finder.names lines reading ↔ lines.IsChain fun line next ↦
      ¬(line.name ∈ reading.finder.names ∧ next.name ∈ reading.finder.names) := by
  rw [selectsDisks_iff h, kept_of_fits false _ lines (by omega)]
  exact and_iff_right nofun

/-- The getter selects the wanted devices exactly when it keeps them; of a text that fits in the
buffer, exactly when no two listed lines follow one another. -/
theorem disks_selected_iff
    (h : glibtopGetDiskS stack (some (diskstats lines)) output = some reading) :
    (SelectsDisks reading.finder.names lines reading ↔
      Kept reading.finder.names false (statBufsiz - 1) lines) ∧
    ((diskstats lines).length < statBufsiz →
      (SelectsDisks reading.finder.names lines reading ↔ lines.IsChain fun line next ↦
        ¬(line.name ∈ reading.finder.names ∧ next.name ∈ reading.finder.names))) :=
  ⟨selectsDisks_iff h, selectsDisks_iff_isChain h⟩

end

theorem disks_selected_iff_sda :
    SelectsDisks [asciiBytes ['s', 'd', 'a']] [sda, sdb]
      (readDisks clearedStack
        ((diskstats [sda, sdb]).take (statBufsiz - 1))
        (lsblk [sdaRow])) := by
  have hn := names_cleared ((diskstats [sda, sdb]).take
    (statBufsiz - 1)) [sdaRow]
  have hs := (disks_selected_iff (getDisk_cleared [sda, sdb]
    [sdaRow] (by decide))).2 (by decide)
  have he : (([sdaRow].map ListingRow.strings).foldl Finder.step
      (.start clearedStack.primaryPart)).names = [asciiBytes ['s', 'd', 'a']] := by decide
  rw [hn, he] at hs
  exact hs.mpr (by decide)

/-- Of two disks that are both in the listing the second is read. -/
theorem consecutive_disks_selected :
    ¬∀ (stack : DiskStack) (lines : List DiskLine) (output : List UInt8) (reading : DiskReading),
      lines.length ≤ glibtopNdisk →
      glibtopGetDiskS stack (some (diskstats lines)) output = some reading →
      SelectsDisks reading.finder.names lines reading := by
  intro h
  have hg := getDisk_cleared [sda, sdb]
    [sdaRow, sdbRow] (by decide)
  have hs := (selectsDisks_iff_isChain hg (by decide)).mp (h _ _ _ _ (by decide) hg)
  have he : (([sdaRow, sdbRow].map ListingRow.strings).foldl
      Finder.step (.start clearedStack.primaryPart)).names =
        [asciiBytes ['s', 'd', 'a'], asciiBytes ['s', 'd', 'b']] := by decide
  rw [names_cleared, he] at hs
  exact absurd hs (by decide)

end LibGTop.Linux
