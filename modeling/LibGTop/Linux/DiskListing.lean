import LibGTop.Linux.Disk
import LibGTop.Linux.Text

/-!
# The listing of the block devices

The rows that `lsblk` writes, and what the pipe leaves in the buffer.
-/

namespace LibGTop.Linux

open Base

/-- A row of the listing: a name and a type, as the buffers of `find_primary_part` take them. -/
structure ListingRow where
  name : List UInt8
  type : List UInt8
  name_ne : name ≠ []
  type_ne : type ≠ []
  isStringByte_name : ∀ b ∈ name, isStringByte b
  isStringByte_type : ∀ b ∈ type, isStringByte b
  name_length : name.length < 256
  type_length : type.length < 256

/-- The name and the type of a row. -/
def ListingRow.strings (row : ListingRow) : List UInt8 × List UInt8 := (row.name, row.type)

/-- The output of the pipe: the name and the type with a blank between them, a row in each line. -/
def lsblk (rows : List ListingRow) : List UInt8 :=
  rows.flatMap fun row ↦ row.name ++ 32 :: (row.type ++ [10])

theorem lsblk_nil : lsblk [] = [] := rfl

theorem lsblk_cons (row : ListingRow) (rows : List ListingRow) :
    lsblk (row :: rows) = row.name ++ 32 :: (row.type ++ 10 :: lsblk rows) := by
  simp [lsblk]

theorem scanRow_lsblk (row : ListingRow) (rest : List UInt8) :
    scanRow (row.name ++ 32 :: (row.type ++ 10 :: rest)) = some row.strings := by
  have hs : ∀ (b : UInt8) (rest : List UInt8), isStringByte b = false →
      ∀ c ∈ (b :: rest).head?, isStringByte c = false := by
    intro b rest h c hc
    obtain rfl := Option.some.inj hc
    exact h
  have hn := @scanString_string [] _ _ spaces_nil row.name_ne row.isStringByte_name
    (hs 32 (row.type ++ 10 :: rest) (by decide))
  have ht := scanString_string (spaces_singleton 32 (by decide)) row.type_ne row.isStringByte_type
    (hs 10 rest (by decide))
  rw [List.nil_append] at hn
  rw [List.singleton_append] at ht
  rw [scanRow, hn]
  simp only [ht, Option.map_some, ListingRow.strings]

theorem skipLine_lsblk (row : ListingRow) (rest : List UInt8) :
    skipLine (row.name ++ 32 :: (row.type ++ 10 :: rest)) = rest := by
  have hb : ∀ b ∈ [(32 : UInt8)], b ≠ 0 ∧ b ≠ 10 := List.forall_mem_singleton.mpr (by decide)
  have h32 := skipLine_append hb (row.type ++ 10 :: rest)
  rw [List.singleton_append] at h32
  rw [skipLine_string row.isStringByte_name, h32, skipLine_string row.isStringByte_type]
  rfl

theorem scanRows_nil : scanRows [] = [] := by
  rw [scanRows, dif_neg (by decide)]

/-- The rows of a listing are found as they were written. -/
theorem scanRows_lsblk (rows : List ListingRow) :
    scanRows (lsblk rows) = rows.map ListingRow.strings := by
  induction rows with
  | nil => exact scanRows_nil
  | cons row rows ih =>
    have hr := scanRow_lsblk row (lsblk rows)
    have hi : (scanRow (row.name ++ 32 :: (row.type ++ 10 :: lsblk rows))).isSome := by
      rw [hr]
      rfl
    rw [lsblk_cons, scanRows, dif_pos hi, skipLine_lsblk, ih, List.map_cons]
    congr 1
    exact Option.get_of_eq_some hi hr

theorem findPrimaryPart_lsblk (table : Int → PartitionInfo) (rows : List ListingRow) :
    findPrimaryPart table (lsblk rows) =
      (rows.map ListingRow.strings).foldl Finder.step (.start table) := by
  rw [findPrimaryPart, scanRows_lsblk]

theorem notMem_lsblk (rows : List ListingRow) : 0 ∉ lsblk rows := by
  intro h0
  obtain ⟨row, -, hm⟩ := List.mem_flatMap.mp h0
  have hr : 0 ∈ row.name ∨ 0 ∈ row.type := by simpa using hm
  obtain hn | ht := hr
  · exact (ne_of_isStringByte (row.isStringByte_name 0 hn)).1 rfl
  · exact (ne_of_isStringByte (row.isStringByte_type 0 ht)).1 rfl

/-- In a buffer that was cleared the listing has an end. -/
theorem terminated_zeros {output : List UInt8} (hn : 0 ∉ output) (h : output.length < statBufsiz) :
    terminated (getFromPipe (zeros statBufsiz) output) = some output := by
  have ht : (output.take (zeros statBufsiz).length) = output :=
    List.take_of_length_le (by rw [length_zeros]; omega)
  obtain ⟨size, hs⟩ : ∃ size, statBufsiz - output.length = size + 1 :=
    ⟨statBufsiz - output.length - 1, by omega⟩
  have hb : getFromPipe (zeros statBufsiz) output = output ++ 0 :: zeros size := by
    rw [getFromPipe, ht, overlay_zeros, hs]
    rfl
  rw [terminated, hb, if_pos (List.mem_append_right _ List.mem_cons_self),
    cString_append_zero output _ hn]

/-- A table that is 0. -/
def clearedTable (_ : Int) : PartitionInfo := ⟨[], zeros 256, []⟩

/-- A stack that is 0. -/
def clearedStack : DiskStack where
  primaryPart := clearedTable
  mapBuffer := zeros statBufsiz
  mapBuffer_length := length_zeros statBufsiz
  name := []

end LibGTop.Linux
