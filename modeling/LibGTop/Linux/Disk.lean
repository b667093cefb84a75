import LibGTop.Linux.Cpu
import Mathlib.Logic.Function.Basic

/-!
# Disk statistics

`glibtop_get_disk_s` (`sysdeps/linux/disk.c:50–284`): the devices that are left out
are found in the output of `lsblk`, and the others are read from
`/proc/diskstats`. What the buffers on the stack hold at first is an argument. The
indices that are used are recorded beside what is computed; the arrays are as
large as they need to be.
-/

namespace LibGTop.Linux

open Base

/-- `GLIBTOP_NDISK`, `include/glibtop/disk.h:41`. -/
def glibtopNdisk : Nat := 1024

/-- `partition_info`, `include/glibtop/disk.h:45–51`, without `max`: the strings in `name` and
`raid_num`, and the memory of `type`. -/
structure PartitionInfo where
  name : List UInt8
  type : List UInt8
  raidNum : List UInt8

/-- The types that `find_primary_part` knows. -/
def partType : List UInt8 := asciiBytes ['p', 'a', 'r', 't']

@[inherit_doc partType] def lvmType : List UInt8 := asciiBytes ['l', 'v', 'm']

@[inherit_doc partType] def raidType : List UInt8 := asciiBytes ['r', 'a', 'i', 'd']

/-- A type of level 0: `loop`, `rom` or `disk`. -/
def isDiskType (type : List UInt8) : Bool :=
  type = asciiBytes ['l', 'o', 'o', 'p'] || type = asciiBytes ['r', 'o', 'm'] ||
    type = asciiBytes ['d', 'i', 's', 'k']

/-- A type that starts with `raid`. -/
def isRaidType (type : List UInt8) : Bool := raidType.isPrefixOf type

/-- What a row of the listing does: whether the entry before it is overwritten, the level behind
it, and whether one entry more counts. -/
structure Transition where
  back : Bool
  tlvl : Nat
  counts : Bool
  deriving DecidableEq, Repr

/-- The branches on the level and the type of a row, `sysdeps/linux/disk.c:67–158`; `last` is the
type in the entry before. -/
def transition (tlvl : Nat) (last type : List UInt8) : Transition :=
  match tlvl with
  | 0 =>
    if isDiskType type then ⟨false, 0, true⟩
    else if type = partType then ⟨false, 1, false⟩
    else ⟨false, 0, false⟩
  | 1 =>
    if isDiskType type then ⟨true, 0, true⟩
    else if type = partType then ⟨true, 1, false⟩
    else if type = lvmType ∨ isRaidType type then ⟨false, 2, true⟩
    else ⟨false, 1, false⟩
  | 2 =>
    if isDiskType type then ⟨true, 0, true⟩
    else if last = lvmType ∧ type = lvmType ∨ last = raidType ∧ isRaidType type then ⟨true, 2, false⟩
    else if last = lvmType ∧ type = partType ∨ last = raidType ∧ type = partType then
      ⟨true, 1, false⟩
    else if last = raidType ∧ type = lvmType then ⟨false, 3, true⟩
    else ⟨false, 2, false⟩
  | 3 =>
    if isDiskType type then ⟨true, 0, true⟩
    else if type = lvmType then ⟨true, 3, false⟩
    else if isRaidType type then ⟨true, 2, false⟩
    else if type = partType then ⟨true, 1, false⟩
    else ⟨false, 3, false⟩
  | tlvl => ⟨false, tlvl, false⟩

/-- `strncpy (field, type, 4)`. -/
def copyType (field type : List UInt8) : List UInt8 := overlay field ((type ++ zeros 4).take 4)

/-- What a row stores to its entry, `sysdeps/linux/disk.c:161–168`. -/
def storeRow (entry : PartitionInfo) (name type : List UInt8) : PartitionInfo where
  name := name
  type := copyType entry.type type
  raidNum := if cString (copyType entry.type type) = raidType then type.drop 4 else entry.raidNum

/-- The variables of `find_primary_part` with the indices of `primary_part` that were used. -/
structure Finder where
  table : Int → PartitionInfo
  n : Int
  tlvl : Nat
  max : Nat
  indices : List Int

/-- The variables at first. -/
def Finder.start (table : Int → PartitionInfo) : Finder := ⟨table, 0, 0, 0, []⟩

/-- The type in the entry before. -/
def Finder.last (s : Finder) : List UInt8 := cString (s.table (s.n - 1)).type

/-- One row of the listing; the entry before it is looked at on level 2, unless the type is one of
level 0. -/
def Finder.step (s : Finder) (row : List UInt8 × List UInt8) : Finder :=
  let t := transition s.tlvl s.last row.2
  let n := if t.back then s.n - 1 else s.n
  let looked := if s.tlvl = 2 ∧ !isDiskType row.2 then [s.n - 1] else []
  { table := Function.update s.table n (storeRow (s.table n) row.1 row.2)
    n := n + 1
    tlvl := t.tlvl
    max := if t.counts then s.max + 1 else s.max
    indices := s.indices ++ looked ++ [n] }

/-- `sscanf (m, "%s %s", name, type)`; absent unless both are there. -/
def scanRow (m : List UInt8) : Option (List UInt8 × List UInt8) :=
  match scanString m with
  | none => none
  | some (name, rest) => (scanString rest).map fun type ↦ (name, type.1)

/-- Where a row is there is a string. -/
theorem isSome_scanString {m : List UInt8} (h : (scanRow m).isSome) : (scanString m).isSome := by
  unfold scanRow at h
  split at h
  · exact absurd h Bool.false_ne_true
  · next hs => exact hs ▸ rfl

/-- The rows of a listing, `sysdeps/linux/disk.c:65` and `170`. -/
def scanRows (m : List UInt8) : List (List UInt8 × List UInt8) :=
  if h : (scanRow m).isSome then (scanRow m).get h :: scanRows (skipLine m) else []
termination_by m.length
decreasing_by
  have hs := ne_nil_of_scanString (isSome_scanString h)
  exact skipLine_length_lt hs.1 hs.2

/-- `find_primary_part`, `sysdeps/linux/disk.c:52–176`. -/
def findPrimaryPart (table : Int → PartitionInfo) (m : List UInt8) : Finder :=
  (scanRows m).foldl Finder.step (.start table)

/-- The names in the first `max` entries. -/
def Finder.names (s : Finder) : List (List UInt8) :=
  (List.range s.max).map fun i : Nat ↦ (s.table i).name

/-- The device name at a pointer, which is left as it is in memory when there is none. -/
def deviceName (name p : List UInt8) : List UInt8 := ((scanString p).map Prod.fst).getD name

/-- `is_virtual_drive`, `sysdeps/linux/disk.c:178–208`, on the names in the table. -/
def isVirtualDrive (names : List (List UInt8)) (name p : List UInt8) : Bool :=
  !p.isEmpty && !names.contains (deviceName name p)

/-- The indices of `primary_part` that its loop uses. -/
def virtualIndices (names : List (List UInt8)) (name p : List UInt8) : List Int :=
  if p.isEmpty then []
  else (List.range (min names.length (names.idxOf (deviceName name p) + 1))).map fun i : Nat ↦ (i : Int)

/-- `max_lines`, `sysdeps/linux/disk.c:210–225`. -/
def maxLines (p : List UInt8) : Nat :=
  if h : (scanString p).isSome then maxLines (skipLine p) + 1 else 0
termination_by p.length
decreasing_by exact skipLine_length_lt (ne_nil_of_scanString h).1 (ne_nil_of_scanString h).2

/-- An element of the `xdisk_*` arrays, `include/glibtop/disk.h:55–63`. -/
structure DiskTimes where
  sectorsRead : BitVec 64 := 0
  timeRead : BitVec 64 := 0
  sectorsWrite : BitVec 64 := 0
  timeWrite : BitVec 64 := 0
  deriving DecidableEq

/-- The columns behind a device name, and the next line, `sysdeps/linux/disk.c:267–282`. -/
def readDisk (p : List UInt8) : DiskTimes × List UInt8 :=
  let p := skipToken (skipToken (skipToken p))
  let (sectorsRead, p) := strtoull 0 p
  let (timeRead, p) := strtoull 0 p
  let p := skipToken (skipToken p)
  let (sectorsWrite, p) := strtoull 0 p
  let (timeWrite, p) := strtoull 0 p
  (⟨sectorsRead, timeRead, sectorsWrite, timeWrite⟩, skipLine p)

/-- A turn of the loop: the pointer that `is_virtual_drive` is given, whether a row is passed over,
the line the columns are read from, what is stored to the arrays, and the pointer behind it. -/
structure DiskTurn where
  checked : List UInt8
  passes : Bool
  line : List UInt8
  times : DiskTimes
  next : List UInt8

/-- The body of the loop, `sysdeps/linux/disk.c:256–282`. -/
def diskTurn (names : List (List UInt8)) (name p : List UInt8) : DiskTurn :=
  let device := skipMultipleToken p 2
  if isVirtualDrive names name device then
    ⟨device, false, p, (readDisk device).1, (readDisk device).2⟩
  else
    let line := skipLine device
    let reading := readDisk (skipMultipleToken line 2)
    ⟨device, true, line, reading.1, reading.2⟩

/-- The loop of `sysdeps/linux/disk.c:254–283` from index `i` on: the turns, the first of which
stores to index `i`, and `server->ndisk` at its end. -/
def diskRows (names : List (List UInt8)) (name p : List UInt8) (i ndisk : Nat) :
    List DiskTurn × Nat :=
  if i < ndisk then
    let turn := diskTurn names name p
    let rest := diskRows names name turn.next (i + 1) (if turn.passes then ndisk - 1 else ndisk)
    (turn :: rest.1, rest.2)
  else ([], ndisk)
termination_by ndisk - i
decreasing_by split <;> omega

/-- What the buffers on the stack hold at first: `primary_part`, `map_buffer`, and `name` of
`is_virtual_drive`. -/
structure DiskStack where
  primaryPart : Int → PartitionInfo
  mapBuffer : List UInt8
  mapBuffer_length : mapBuffer.length = statBufsiz
  name : List UInt8

/-- `get_from_pipe`, `sysdeps/linux/glibtop_private.c:60–72`: the buffer behind it. -/
def getFromPipe (buffer output : List UInt8) : List UInt8 :=
  overlay buffer (output.take buffer.length)

/-- The string at the start of a buffer; absent when there is no end to it in the buffer. -/
def terminated (buffer : List UInt8) : Option (List UInt8) :=
  if 0 ∈ buffer then some (cString buffer) else none

/-- What `glibtop_get_disk_s` finds: `server->ndisk` and the turns of its loop, with the state of
`find_primary_part`. -/
structure DiskReading where
  ndisk : Nat
  rows : List DiskTurn
  finder : Finder

/-- `glibtop_get_disk_s` with a listing that has an end, `sysdeps/linux/disk.c:240–283`. -/
def readDisks (stack : DiskStack) (buffer listing : List UInt8) : DiskReading :=
  let finder := findPrimaryPart stack.primaryPart listing
  let (rows, ndisk) := diskRows finder.names stack.name buffer 0 (maxLines buffer)
  ⟨ndisk, rows, finder⟩

/-- `glibtop_get_disk_s`, `sysdeps/linux/disk.c:227–284`, on the contents of `/proc/diskstats` and
the output of `lsblk`; absent when it reads behind the end of `map_buffer`, or when the file cannot
be read, which ends the process. -/
def glibtopGetDiskS (stack : DiskStack) (diskstats : Option (List UInt8)) (lsblk : List UInt8) :
    Option DiskReading :=
  match tryFileToBuffer statBufsiz diskstats, terminated (getFromPipe stack.mapBuffer lsblk) with
  | some buffer, some listing => some (readDisks stack buffer listing)
  | _, _ => none

/-- An element of the arrays, which are 0 behind what is stored. -/
def DiskReading.xdisk (reading : DiskReading) (i : Nat) : DiskTimes :=
  (reading.rows[i]?.map DiskTurn.times).getD {}

end LibGTop.Linux
