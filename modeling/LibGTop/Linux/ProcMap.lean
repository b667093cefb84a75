import LibGTop.Linux.Readers
import Mathlib.Logic.Function.Basic

/-!
# The memory map of a process

`glibtop_get_proc_map_s` (`sysdeps/linux/procmap.c:186–318`) on the lines of
`/proc/<pid>/smaps`, or of `/proc/<pid>/maps` under kernels that do not have it.
The entries are written into memory that nobody has cleared, so what this holds
at first is an argument.
-/

namespace LibGTop.Linux

open Base

/-- The fields of an entry that a line of smaps may have, in the order of their flags,
`include/glibtop/procmap.h:45–52`. -/
inductive SmapField
  | size
  | rss
  | sharedClean
  | sharedDirty
  | privateClean
  | privateDirty
  | pss
  | swap
  deriving DecidableEq, Repr

/-- The bit of a field in the flags of an entry. -/
def SmapField.bit : SmapField → Nat
  | size => 7
  | rss => 8
  | sharedClean => 9
  | sharedDirty => 10
  | privateClean => 11
  | privateDirty => 12
  | pss => 13
  | swap => 14

/-- The label of a field, `sysdeps/linux/procmap_smaps.gperf:16–23`. -/
def SmapField.label : SmapField → List UInt8
  | privateClean => asciiBytes "Private_Clean".toList
  | privateDirty => asciiBytes "Private_Dirty".toList
  | pss => asciiBytes "Pss".toList
  | rss => asciiBytes "Rss".toList
  | sharedClean => asciiBytes "Shared_Clean".toList
  | sharedDirty => asciiBytes "Shared_Dirty".toList
  | size => asciiBytes "Size".toList
  | swap => asciiBytes "Swap".toList

/-- The fields. -/
def smapFields : List SmapField :=
  [.privateClean, .privateDirty, .pss, .rss, .sharedClean, .sharedDirty, .size, .swap]

/-- `glibtop_map_entry`, `include/glibtop/procmap.h:68–86`; the numbers of smaps by their field. -/
structure MapEntry where
  flags : BitVec 64
  start : BitVec 64
  stop : BitVec 64
  offset : BitVec 64
  perm : BitVec 64
  inode : BitVec 64
  device : BitVec 64
  filename : List UInt8
  value : SmapField → BitVec 64

/-- `_glibtop_sysdeps_map_entry`. -/
def sysdepsMapEntry : BitVec 64 := flagBits [0, 1, 2, 3, 4, 5, 6]

/-- `_glibtop_sysdeps_map_entry_smaps`. -/
def sysdepsMapEntrySmaps : BitVec 64 := flagBits [7, 8, 13, 14, 10, 9, 12, 11]

/-- `glibtop_proc_map`, `include/glibtop/procmap.h:88–94`. -/
structure ProcMap where
  flags : BitVec 64 := 0
  number : BitVec 64 := 0
  total : BitVec 64 := 0
  size : BitVec 64 := 0

/-- `_glibtop_sysdeps_proc_map`: `NUMBER`, `TOTAL` and `SIZE`. -/
def sysdepsProcMap : BitVec 64 := flagBits [0, 1, 2]

/-- `sizeof (glibtop_map_entry)`. -/
def mapEntrySize : BitVec 64 := 336

/-- The loop of `get_scaled` behind the number, `sysdeps/linux/glibtop_private.c:36–44`. -/
def scale (value : BitVec 64) : List UInt8 → BitVec 64
  | [] => value
  | b :: next =>
    if b = 107 then value * 1024
    else if b = 77 then value * (1024 * 1024)
    else scale value next

/-- `get_scaled`, `sysdeps/linux/glibtop_private.c:17–47`. -/
def getScaled (buffer : List UInt8) (key : Option (List UInt8)) : BitVec 64 :=
  let ptr :=
    match key with
    | none => some buffer
    | some key => (strstr key buffer).map (List.drop key.length)
  match ptr with
  | none => 0
  | some ptr =>
    let (value, next) := strtoull 0 ptr
    scale value next

/-- `is_smap_value`, `sysdeps/linux/procmap.c:71–84`: the text before the colon and the text from
it on. -/
def isSmapValue : List UInt8 → Option (List UInt8 × List UInt8)
  | [] => none
  | b :: s =>
    if isSpace b then none
    else if b = 58 then some ([], b :: s)
    else (isSmapValue s).map fun (before, colon) ↦ (b :: before, colon)

/-- `_glibtop_find_smap`. -/
def glibtopFindSmap (label : List UInt8) : Option SmapField :=
  smapFields.find? fun field ↦ field.label = label

/-- `parse_smaps`, `sysdeps/linux/procmap.c:91–119`; absent when the line is no value line. -/
def parseSmaps (entry : MapEntry) (line : List UInt8) : Option MapEntry :=
  (isSmapValue line).map fun (label, colon) ↦
    match glibtopFindSmap label with
    | none => entry
    | some field => { entry with value := Function.update entry.value field (getScaled colon none) }

/-- What `parse_line` finds in a header line. -/
structure MapLine where
  start : BitVec 64
  stop : BitVec 64
  flags : List UInt8
  offset : BitVec 64
  devMajor : BitVec 16
  devMinor : BitVec 16
  inode : BitVec 64
  filename : List UInt8
  deriving DecidableEq

/-- `parse_line`, `sysdeps/linux/procmap.c:129–183`. -/
def parseLine (line : List UInt8) : Option MapLine :=
  match strtoull 16 line with
  | (start, 45 :: p) =>
    let (stop, p) := strtoull 16 p
    let p := nextToken p
    let (offset, p') := strtoull 16 (p.drop 4)
    match strtoull 16 p' with
    | (devMajor, 58 :: p') =>
      let (devMinor, p') := strtoull 16 p'
      let (inode, p') := strtoull 10 p'
      some {
        start := start
        stop := stop
        flags := p.take 4
        offset := offset
        devMajor := devMajor.setWidth 16
        devMinor := devMinor.setWidth 16
        inode := inode
        filename := (nextToken p').takeWhile (· ≠ 10) }
    | _ => none
  | _ => none

/-- The access permissions, `sysdeps/linux/procmap.c:253–270`. -/
def accessPermissions (flags : List UInt8) : BitVec 64 :=
  (if flags[0]? = some 114 then 1 else 0) ||| (if flags[1]? = some 119 then 2 else 0) |||
    (if flags[2]? = some 120 then 4 else 0) |||
    (if flags[3]? = some 115 then 8 else if flags[3]? = some 112 then 16 else 0)

/-- What is stored for a header line, `sysdeps/linux/procmap.c:282–293`; the other fields stay as
they are in memory. -/
def newEntry (hasSmaps : Bool) (memory : MapEntry) (line : MapLine) : MapEntry :=
  { memory with
    flags := sysdepsMapEntry ||| (if hasSmaps then sysdepsMapEntrySmaps else 0)
    start := line.start
    stop := line.stop
    offset := line.offset
    perm := accessPermissions line.flags
    device := (line.devMajor.setWidth 64 <<< 8) ||| line.devMinor.setWidth 64
    inode := line.inode
    filename := line.filename.take 215 }

/-- The loop over the value lines of an entry, `sysdeps/linux/procmap.c:295–298`: the entry, and the
lines from the one that is none on. -/
def readValues (entry : MapEntry) : List (List UInt8) → MapEntry × List (List UInt8)
  | [] => (entry, [])
  | line :: ls =>
    match parseSmaps entry (cString line) with
    | some entry => readValues entry ls
    | none => (entry, line :: ls)

theorem length_readValues_le (entry : MapEntry) (ls : List (List UInt8)) :
    (readValues entry ls).2.length ≤ ls.length := by
  induction ls generalizing entry with
  | nil => exact Nat.le_refl _
  | cons line ls ih =>
    rw [readValues]
    split
    · exact Nat.le_succ_of_le (ih _)
    · exact Nat.le_refl _

/-- The loop over the lines, `sysdeps/linux/procmap.c:220–303`, from entry `added` on. -/
def mapEntries (hasSmaps : Bool) (memory : Nat → MapEntry) (added : Nat) :
    List (List UInt8) → List MapEntry
  | [] => []
  | line :: ls =>
    match parseLine (cString line) with
    | none => mapEntries hasSmaps memory added ls
    | some header =>
      let entry := newEntry hasSmaps (memory added) header
      if hasSmaps then
        (readValues entry ls).1 :: mapEntries hasSmaps memory (added + 1) (readValues entry ls).2
      else entry :: mapEntries hasSmaps memory (added + 1) ls
termination_by ls => ls.length
decreasing_by
  · exact Nat.lt_succ_self _
  · exact Nat.lt_succ_of_le (length_readValues_le _ _)
  · exact Nat.lt_succ_self _

/-- `glibtop_get_proc_map_s`, `sysdeps/linux/procmap.c:186–318`, on the files smaps and maps. A file
is absent when it cannot be opened, and so is the list when a null pointer is returned. -/
def glibtopGetProcMapS (osVersionCode : Nat) (memory : Nat → MapEntry)
    (smaps maps : Option (List UInt8)) : ProcMap × Option (List MapEntry) :=
  let hasSmaps := decide (linuxVersionCode 2 6 14 ≤ osVersionCode)
  match if hasSmaps then smaps else maps with
  | none => ({}, none)
  | some content =>
    let entries := mapEntries hasSmaps memory 0 (lines content)
    let number := BitVec.ofNat 64 entries.length
    ({ flags := sysdepsProcMap, number := number, size := mapEntrySize,
       total := number * mapEntrySize }, some entries)

end LibGTop.Linux
