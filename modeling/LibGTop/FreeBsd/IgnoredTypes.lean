import LibGTop.Base.BinarySearch
import LibGTop.Common.Mountlist

/-!
# The ignored types of mounts

`ignore_mount_entry` in its common version (`sysdeps/common/mountlist.c:537–573`) and in that of
FreeBSD (`sysdeps/freebsd/mountlist.c:89–119`), with their `bsearch`. In the table of FreeBSD
`none` stands before `nfs`.
-/

namespace LibGTop

open Base

namespace Common

/-- `ignore_mount_entry` as it searches its table. -/
def searchIgnored (pivot : Pivot) (me : ListEntry) : Bool :=
  (bsearch pivot (strcmp me.type) ignored).isSome

set_option maxRecDepth 4096 in
theorem increasing_ignored : Increasing ignored := by decide

/-- The table is sorted, so the search finds what is in it. -/
theorem searchIgnored_eq (pivot : Pivot) (me : ListEntry) :
    searchIgnored pivot me = ignoreMountEntry me := by
  rw [Bool.eq_iff_iff, searchIgnored, bsearch_isSome_iff increasing_ignored, ignoreMountEntry,
    List.contains_iff_mem]

end Common

namespace FreeBsd

open Common (ListEntry)

/-- `none`. -/
def noneType : List UInt8 := asciiBytes "none".toList

/-- `nfs`. -/
def nfsType : List UInt8 := asciiBytes "nfs".toList

/-- The types in `ignored` before these two. -/
def ignoredBefore : List (List UInt8) :=
  ["autofs", "devfs", "fdescfs", "fusectl", "linprocfs", "linsysfs", "mfs"].map fun name ↦
    asciiBytes name.toList

/-- The types in `ignored` behind them. -/
def ignoredBehind : List (List UInt8) :=
  ["nullfs", "nwfs", "portalfs", "proc", "procfs", "smbfs", "tmpfs", "unionfs", "unknown"].map
    fun name ↦ asciiBytes name.toList

/-- The types in `ignored`, in their order. -/
def ignored : List (List UInt8) := ignoredBefore ++ noneType :: nfsType :: ignoredBehind

/-- `ignore_mount_entry`. -/
def ignoreMountEntry (pivot : Pivot) (me : ListEntry) : Bool :=
  (bsearch pivot (strcmp me.type) ignored).isSome

/-- The type that a search with this rule does not find. -/
def missedType (pivot : Pivot) : List UInt8 :=
  missed pivot ignoredBefore noneType nfsType ignoredBehind

set_option maxRecDepth 4096 in
/-- With `nfs` before `none` the table would be sorted. -/
theorem increasing_sorted : Increasing (ignoredBefore ++ nfsType :: noneType :: ignoredBehind) := by
  decide

theorem missedType_mem (pivot : Pivot) : missedType pivot ∈ ignored := by
  rcases missed_eq pivot ignoredBefore noneType nfsType ignoredBehind with h | h <;>
    rw [missedType, h]
  · exact List.mem_append_right _ List.mem_cons_self
  · exact List.mem_append_right _ (List.mem_cons_of_mem _ List.mem_cons_self)

/-- What a search of FreeBSD finds is in the table; of the table it finds all types but one. -/
theorem ignoreMountEntry_iff (pivot : Pivot) (me : ListEntry) :
    ignoreMountEntry pivot me = true ↔ me.type ∈ ignored ∧ me.type ≠ missedType pivot :=
  bsearch_swapped_isSome_iff increasing_sorted

/-- A search that starts in the middle misses `nfs`. -/
theorem missedType_middle : missedType middle = nfsType := by decide

/-- Both versions answer for a type what their tables say, whatever places their searches look at,
if and only if it is not the one that the search of FreeBSD misses: that is `nfs` or `none`,
whichever it does not look at first. -/
theorem ignoreMountEntry_right_iff (pivot other : Pivot) (me : ListEntry) :
    ((ignoreMountEntry pivot me = true ↔ me.type ∈ ignored) ∧
        (Common.searchIgnored other me = true ↔ me.type ∈ Common.ignored)) ↔
      me.type ≠ missedType pivot := by
  have hc : Common.searchIgnored other me = true ↔ me.type ∈ Common.ignored :=
    bsearch_isSome_iff Common.increasing_ignored
  rw [and_iff_left hc, ignoreMountEntry_iff]
  constructor
  · rintro h hm
    exact (h.mpr (hm ▸ missedType_mem pivot)).2 hm
  · exact fun h ↦ and_iff_left h

/-- A mount of the type `nfs` is not ignored by a search that starts in the middle. -/
theorem ignoreMountEntry_nfs :
    nfsType ∈ ignored ∧ ignoreMountEntry middle ⟨[], [], nfsType, 0⟩ = false ∧
      ¬(ignoreMountEntry middle ⟨[], [], nfsType, 0⟩ = true ↔ nfsType ∈ ignored) := by
  decide

end FreeBsd

end LibGTop
