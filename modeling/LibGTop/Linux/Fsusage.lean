import LibGTop.Base.Formats
import LibGTop.Linux.FsusagePath

/-!
# The usage of a filesystem

`glibtop_get_fsusage_s` (`sysdeps/linux/fsusage.c:192–214`): what `statvfs` says, and the sectors
read and written of the device that is mounted, which are looked for in the mount table and then in
`/sys/block`.
-/

namespace LibGTop.Linux

open Base

/-- `struct statvfs`. -/
structure Statvfs where
  blocks : BitVec 64
  bfree : BitVec 64
  bavail : BitVec 64
  files : BitVec 64
  ffree : BitVec 64
  bsize : BitVec 64

/-- `glibtop_fsusage`, `include/glibtop/fsusage.h:41–52`. -/
structure Fsusage where
  flags : BitVec 64 := 0
  blocks : BitVec 64 := 0
  bfree : BitVec 64 := 0
  bavail : BitVec 64 := 0
  files : BitVec 64 := 0
  ffree : BitVec 64 := 0
  blockSize : BitVec 32 := 0
  read : BitVec 64 := 0
  write : BitVec 64 := 0
  deriving DecidableEq

/-- `_glibtop_sysdeps_fsusage`. -/
def sysdepsFsusage : BitVec 64 := flagBits [0, 1, 2, 3, 4, 5]

/-- `GLIBTOP_FSUSAGE_READ` and `GLIBTOP_FSUSAGE_WRITE`. -/
def fsusageReadWrite : BitVec 64 := flagBits [6, 7]

/-- What `getmntent` delivers, as far as it is looked at. -/
structure MountLine where
  fsname : List UInt8
  dir : List UInt8

/-- `rootfs`. -/
def rootfs : List UInt8 := asciiBytes "rootfs".toList

/-- `/dev/`. -/
def devDirectory : List UInt8 := asciiBytes "/dev/".toList

/-- The loop of `get_device`, with `g_strlcpy` to an array of 64 bytes. -/
def findDevice (mountpoint : List UInt8) : List MountLine → Option (List UInt8)
  | [] => none
  | mnt :: mounts =>
    if mnt.fsname = rootfs then findDevice mountpoint mounts
    else if mountpoint = mnt.dir then
      if devDirectory.isPrefixOf mnt.fsname then some ((mnt.fsname.drop 5).take 63) else none
    else findDevice mountpoint mounts

/-- `get_device`. -/
def getDevice (mounted : Option (List MountLine)) (mountpoint : List UInt8) :
    Option (List UInt8) :=
  match mounted with
  | none => none
  | some mounts => findDevice mountpoint mounts

/-- The conversions of a format that has only `%llu` and `%*llu`: whether each is assigned. -/
def longConversions : List Char → List Bool
  | '%' :: '*' :: 'l' :: 'l' :: 'u' :: format => false :: longConversions format
  | '%' :: 'l' :: 'l' :: 'u' :: format => true :: longConversions format
  | ' ' :: format => longConversions format
  | _ => []

/-- The objects that `sscanf` assigns for these conversions. -/
def sscanfLong : List Bool → List UInt8 → List (BitVec 64)
  | [], _ => []
  | assigned :: conversions, text =>
    match scanfNumber 10 none text with
    | none => []
    | some (value, rest) =>
      if assigned then clampUnsigned value :: sscanfLong conversions rest
      else sscanfLong conversions rest

/-- `linux_2_6_0`. An object that is assigned stays so when the other is not. -/
def linux260 (osVersionCode : Nat) (mounted : Option (List MountLine))
    (files : List UInt8 → Option (List UInt8)) (path : List UInt8) (buf : Fsusage) : Fsusage :=
  match getDevice mounted path with
  | none => buf
  | some device =>
    let sys := getSysPath osVersionCode device
    match tryFileToBuffer bufsiz (files sys.statPath) with
    | none => buf
    | some buffer =>
      match sscanfLong (longConversions sys.parseFormat) buffer with
      | [read, write] =>
        { buf with read := read, write := write, flags := buf.flags ||| fsusageReadWrite }
      | [read] => { buf with read := read }
      | _ => buf

/-- `get_fsusage_read_write`; `linux_2_4_0` is empty. -/
def getFsusageReadWrite (osVersionCode : Nat) (mounted : Option (List MountLine))
    (files : List UInt8 → Option (List UInt8)) (path : List UInt8) (buf : Fsusage) : Fsusage :=
  if linuxVersionCode 2 6 0 ≤ osVersionCode then linux260 osVersionCode mounted files path buf
  else buf

/-- What `glibtop_get_fsusage_s` stores of `statvfs`. -/
def Statvfs.usage (fsd : Statvfs) : Fsusage where
  flags := sysdepsFsusage
  blocks := fsd.blocks
  bfree := fsd.bfree
  bavail := if fsd.bavail > fsd.bfree then 0 else fsd.bavail
  files := fsd.files
  ffree := fsd.ffree
  blockSize := fsd.bsize.setWidth 32

/-- `glibtop_get_fsusage_s`. -/
def glibtopGetFsusageS (osVersionCode : Nat) (statvfs : Option Statvfs)
    (mounted : Option (List MountLine)) (files : List UInt8 → Option (List UInt8))
    (path : List UInt8) : Fsusage :=
  match statvfs with
  | none => {}
  | some fsd => getFsusageReadWrite osVersionCode mounted files path fsd.usage

/-- A number of a statistics file and the blanks that it is padded with. -/
structure StatColumn where
  pad : Nat
  value : Nat

/-- The text of a number. -/
def StatColumn.text (c : StatColumn) : List UInt8 := List.replicate c.pad 32 ++ decimal c.value

/-- The text of a statistics file. -/
def statText (first : StatColumn) (others : List StatColumn) : List UInt8 :=
  first.text ++ (others.flatMap fun c ↦ 32 :: c.text) ++ [10]

/-- The files of partitions have four numbers before Linux 2.6.25. -/
def BlockDevice.shortFile (osVersionCode : Nat) : BlockDevice → Bool
  | .disk _ => false
  | .partition _ _ => osVersionCode < linuxVersionCode 2 6 25

/-- A block device, and the numbers in its statistics file. -/
structure BlockEntry where
  device : BlockDevice
  first : StatColumn
  others : List StatColumn

namespace BlockEntry

/-- The text of the file. -/
def text (e : BlockEntry) : List UInt8 := statText e.first e.others

/-- The numbers of the file. -/
def values (e : BlockEntry) : List Nat := (e.first :: e.others).map StatColumn.value

/-- The sectors read and written are the third and the seventh number, in a short file the second
and the fourth. -/
def sectors (osVersionCode : Nat) (e : BlockEntry) : Nat × Nat :=
  if e.device.shortFile osVersionCode then (e.values.getD 1 0, e.values.getD 3 0)
  else (e.values.getD 2 0, e.values.getD 6 0)

/-- The file has its numbers and fits the buffer, and the name fits the array for it. -/
structure Valid (osVersionCode : Nat) (e : BlockEntry) : Prop where
  length_values : (if e.device.shortFile osVersionCode then 4 else 7) ≤ e.values.length
  length_text : e.text.length < bufsiz
  length_name : e.device.name.length < 64

end BlockEntry

/-- The block devices below `/sys/block`. -/
structure BlockTree (osVersionCode : Nat) where
  entries : List BlockEntry
  valid : ∀ e ∈ entries, e.Valid osVersionCode
  distinct : (entries.map fun e ↦ e.device.name).Nodup

/-- The files of the tree. -/
def BlockTree.files {osVersionCode : Nat} (t : BlockTree osVersionCode) (path : List UInt8) :
    Option (List UInt8) :=
  (t.entries.find? fun e ↦ e.device.statFile = path).map BlockEntry.text

/-- What the first entry of the table for a directory says that is not `rootfs`. -/
def mountedOn (mounts : List MountLine) (path : List UInt8) : Option (List UInt8) :=
  (mounts.find? fun mnt ↦ mnt.fsname ≠ rootfs ∧ mnt.dir = path).map MountLine.fsname

/-- What is mounted on a directory over everything else there, and is what `statvfs` describes: the
last entry of the table for it. -/
def topMount (mounts : List MountLine) (path : List UInt8) : Option (List UInt8) :=
  (mounts.reverse.find? fun mnt ↦ mnt.dir = path).map MountLine.fsname

/-- The usage with the sectors. -/
def Fsusage.withSectors (buf : Fsusage) (sectors : Nat × Nat) : Fsusage :=
  { buf with
    read := clampUnsigned sectors.1
    write := clampUnsigned sectors.2
    flags := buf.flags ||| fsusageReadWrite }

/-- The loop finds the first entry for the directory. -/
theorem findDevice_eq (path : List UInt8) (mounts : List MountLine) :
    findDevice path mounts = (mountedOn mounts path).bind fun fsname ↦
      if devDirectory.isPrefixOf fsname then some ((fsname.drop 5).take 63) else none := by
  induction mounts with
  | nil => rfl
  | cons mnt mounts ih =>
    rw [findDevice, mountedOn]
    by_cases hr : mnt.fsname = rootfs
    · rw [if_pos hr, ih, List.find?_cons_of_neg (by simp [hr]), mountedOn]
    · rw [if_neg hr]
      by_cases hd : path = mnt.dir
      · rw [if_pos hd, List.find?_cons_of_pos (by simp [hr, hd])]
        rfl
      · rw [if_neg hd, ih, List.find?_cons_of_neg (by simp [Ne.symm hd]), mountedOn]

/-- The numbers that are assigned of those that are there. -/
def assigned : List Bool → List Nat → List (BitVec 64)
  | keep :: conversions, value :: values =>
    if keep then clampUnsigned value :: assigned conversions values
    else assigned conversions values
  | _, _ => []

section

variable {blanks rest : List UInt8}

/-- A number of a file is read up to the blank behind it. -/
theorem sscanfLong_value (keep : Bool) (conversions : List Bool) (hb : ∀ b ∈ blanks, isSpace b)
    (value : Nat) (hr : EndsNumber 10 rest) :
    sscanfLong (keep :: conversions) (blanks ++ (decimal value ++ rest)) =
      if keep then clampUnsigned value :: sscanfLong conversions rest
      else sscanfLong conversions rest := by
  have hscan : scanfNumber 10 none (blanks ++ (decimal value ++ rest)) =
      some ((value : Int), rest) := by
    rw [scanfNumber_digits (by decide) hb (fun _ ↦ isDigitIn_of_mem_decimal)
      (decimal_ne_nil value) hr, digitsValue_decimal]
  rw [sscanfLong, hscan]

/-- What is behind a number of a file. -/
theorem endsNumber_columns (others : List StatColumn) :
    EndsNumber 10 ((others.flatMap fun c ↦ 32 :: c.text) ++ [10]) := by
  cases others with
  | nil => exact .cons (by decide) []
  | cons c others => exact .cons (by decide) _

theorem sscanfLong_columns (others : List StatColumn) :
    ∀ conversions, sscanfLong conversions ((others.flatMap fun c ↦ 32 :: c.text) ++ [10]) =
      assigned conversions (others.map StatColumn.value) := by
  induction others with
  | nil =>
    rintro (- | ⟨keep, conversions⟩)
    · rfl
    · have hscan : scanfNumber 10 none [10] = none := by decide
      rw [List.flatMap_nil, List.nil_append, sscanfLong, hscan]
      rfl
  | cons c others ih =>
    rintro (- | ⟨keep, conversions⟩)
    · rfl
    · have hb : ∀ b ∈ 32 :: List.replicate c.pad 32, isSpace b := by
        intro b hb
        obtain rfl : b = 32 := by
          obtain h | h := List.mem_cons.mp hb
          · exact h
          · exact List.eq_of_mem_replicate h
        decide
      have htext : ((c :: others).flatMap fun c ↦ 32 :: c.text) ++ [10] =
          (32 :: List.replicate c.pad 32) ++
            (decimal c.value ++ ((others.flatMap fun c ↦ 32 :: c.text) ++ [10])) := by
        simp [StatColumn.text]
      rw [htext, sscanfLong_value keep conversions hb _ (endsNumber_columns others), ih,
        List.map_cons, assigned]

/-- A format assigns the numbers that it has no star for. -/
theorem sscanfLong_text (conversions : List Bool) (e : BlockEntry) :
    sscanfLong conversions e.text = assigned conversions e.values := by
  cases conversions with
  | nil => rfl
  | cons keep conversions =>
    have hb : ∀ b ∈ List.replicate e.first.pad (32 : UInt8), isSpace b := by
      intro b hb
      obtain rfl := List.eq_of_mem_replicate hb
      decide
    have htext : e.text = List.replicate e.first.pad 32 ++
        (decimal e.first.value ++ ((e.others.flatMap fun c ↦ 32 :: c.text) ++ [10])) := by
      simp [BlockEntry.text, statText, StatColumn.text]
    rw [htext, sscanfLong_value keep conversions hb _ (endsNumber_columns e.others),
      sscanfLong_columns, BlockEntry.values, List.map_cons, assigned]

theorem zero_notMem_text (e : BlockEntry) : 0 ∉ e.text := by
  have hdec : ∀ v, 0 ∉ decimal v := fun v h ↦ absurd (mem_decimal h).1 (by decide)
  simp [BlockEntry.text, statText, StatColumn.text, hdec]

end

namespace BlockDevice

theorem slash_notMem_name (device : BlockDevice) : 47 ∉ device.name := by
  cases device with
  | disk d => exact d.slash_notMem
  | partition d number =>
    rw [name, List.mem_append, List.mem_append]
    rintro (hd | hm | hn)
    · exact d.slash_notMem hd
    · rw [mark] at hm
      by_cases hb : ∃ b ∈ d.bytes.getLast?, isDigitIn 10 b
      · rw [if_pos hb] at hm
        exact absurd hm (by decide)
      · rw [if_neg hb] at hm
        exact List.not_mem_nil hm
    · exact absurd (mem_decimal hn).1 (by decide)

/-- The path that is made of a name is that of the file of no device with another name. -/
theorem name_eq_of_statPath {osVersionCode : Nat} {device other : BlockDevice}
    (h : (getSysPath osVersionCode device.name).statPath = other.statFile) :
    other.name = device.name := by
  have hslash := device.slash_notMem_name
  by_cases hd : ∀ b ∈ device.name.take 31, ¬isDigitIn 10 b
  · rw [statPath_of_none osVersionCode hd] at h
    cases other with
    | disk d =>
      simp only [statFile, List.append_cancel_right_eq, List.append_cancel_left_eq] at h
      exact h.symm
    | partition d number =>
      simp only [statFile, List.append_assoc, List.append_cancel_left_eq] at h
      simp only [← List.append_assoc, List.append_cancel_right_eq] at h
      exact absurd (h ▸ by simp) hslash
  · obtain ⟨pre, b, rest, ht, hp, hb⟩ := exists_digit hd
    have hpre : 47 ∉ pre := fun hm ↦
      hslash (List.take_subset _ _ (ht ▸ List.mem_append_left (b :: rest) hm))
    rw [statPath_of_digit osVersionCode ht hp hb] at h
    cases other with
    | disk d =>
      simp only [statFile, List.append_assoc, List.append_cancel_left_eq] at h
      simp only [← List.append_assoc, List.append_cancel_right_eq] at h
      exact absurd (h ▸ by simp) d.slash_notMem
    | partition d number =>
      simp only [statFile, List.append_assoc, List.append_cancel_left_eq] at h
      simp only [← List.append_assoc, List.append_cancel_right_eq] at h
      rw [List.append_assoc, List.append_assoc] at h
      exact (append_cons_inj hpre d.slash_notMem h).2.symm

end BlockDevice

namespace BlockTree

variable {osVersionCode : Nat} {t : BlockTree osVersionCode} {e : BlockEntry}

/-- An entry is known by the name of its device. -/
theorem eq_of_name_eq {other : BlockEntry} (he : e ∈ t.entries) (ho : other ∈ t.entries)
    (h : other.device.name = e.device.name) : other = e :=
  List.inj_on_of_nodup_map t.distinct ho he h

/-- The path of a device is that of its own file if its name splits. -/
theorem files_of_splits (he : e ∈ t.entries) (h : e.device.SplitsAtDigit) :
    t.files (getSysPath osVersionCode e.device.name).statPath = some e.text := by
  have hpath := (BlockDevice.statPath_eq_iff osVersionCode e.device).mpr h
  rw [files]
  cases hfind : t.entries.find? fun o ↦
      o.device.statFile = (getSysPath osVersionCode e.device.name).statPath with
  | none =>
    have hne := List.find?_eq_none.mp hfind e he
    rw [decide_eq_true_eq] at hne
    exact absurd hpath.symm hne
  | some o =>
    have ho := List.find?_some hfind
    rw [decide_eq_true_eq] at ho
    rw [eq_of_name_eq he (List.mem_of_find?_eq_some hfind) (BlockDevice.name_eq_of_statPath ho.symm)]
    rfl

/-- Otherwise it is that of no file. -/
theorem files_of_not_splits (he : e ∈ t.entries) (h : ¬e.device.SplitsAtDigit) :
    t.files (getSysPath osVersionCode e.device.name).statPath = none := by
  have hfind : (t.entries.find? fun o ↦
      o.device.statFile = (getSysPath osVersionCode e.device.name).statPath) = none := by
    refine List.find?_eq_none.mpr fun o ho hos ↦ h ?_
    have hos := of_decide_eq_true hos
    obtain rfl := eq_of_name_eq he ho (BlockDevice.name_eq_of_statPath hos.symm)
    exact (BlockDevice.statPath_eq_iff osVersionCode o.device).mp hos.symm
  rw [files, hfind]
  rfl

end BlockTree

section

variable {osVersionCode : Nat} {e : BlockEntry}

theorem longConversions_disk : longConversions
    "%*llu %*llu %llu %*llu %*llu %*llu %llu".toList =
      [false, false, true, false, false, false, true] := by decide

theorem longConversions_partition :
    longConversions "%*llu %llu %*llu %llu".toList = [false, true, false, true] := by decide

theorem longConversions_2625 : longConversions linux2625Format =
    [false, false, true, false, false, false, true, false] := by decide

/-- The format that goes with the path of a device. -/
theorem parseFormat_of_splits (h : e.device.SplitsAtDigit) :
    longConversions (getSysPath osVersionCode e.device.name).parseFormat =
      if e.device.shortFile osVersionCode then [false, true, false, true]
      else if osVersionCode < linuxVersionCode 2 6 25 then
        [false, false, true, false, false, false, true]
      else [false, false, true, false, false, false, true, false] := by
  cases hdev : e.device with
  | disk d =>
    rw [hdev] at h
    have hp : isPartition (BlockDevice.disk d).name 32 = (d.bytes.take 31, false) :=
      cutAtDigit_of_none h
    rw [getSysPath, hp, BlockDevice.shortFile, if_neg Bool.false_ne_true, ← longConversions_disk,
      ← longConversions_2625, ← apply_ite]
  | partition d number =>
    rw [hdev] at h
    obtain ⟨b, rest, ht, hb⟩ := @BlockDevice.take_partition d number h.1 h.2
    have hp : isPartition (BlockDevice.partition d number).name 32 = (d.bytes, true) := by
      rw [isPartition, ht]
      exact cutAtDigit_append h.1 hb
    rw [getSysPath, hp, BlockDevice.shortFile]
    by_cases hv : osVersionCode < linuxVersionCode 2 6 25
    · simp only [hv, if_true, decide_true, longConversions_partition]
    · simp only [hv, if_false, decide_false, longConversions_2625, Bool.false_eq_true]

theorem assigned_false (conversions : List Bool) (values : List Nat) :
    assigned (false :: conversions) values = assigned conversions (values.drop 1) := by
  cases values with
  | nil => cases conversions <;> rfl
  | cons value values => rfl

theorem assigned_true {values : List Nat} (h : 0 < values.length) (conversions : List Bool) :
    assigned (true :: conversions) values =
      clampUnsigned (values.getD 0 0) :: assigned conversions (values.drop 1) := by
  obtain ⟨value, values, rfl⟩ := List.exists_cons_of_length_pos h
  rfl

theorem getD_drop_zero (values : List Nat) (k : Nat) : (values.drop k).getD 0 0 = values.getD k 0 := by
  rw [List.getD_eq_getElem?_getD, List.getElem?_drop, List.getD_eq_getElem?_getD]
  rfl

/-- What is assigned of the numbers of a file: those of the sectors. -/
theorem assigned_values (hv : e.Valid osVersionCode) :
    assigned (if e.device.shortFile osVersionCode then [false, true, false, true]
      else if osVersionCode < linuxVersionCode 2 6 25 then
        [false, false, true, false, false, false, true]
      else [false, false, true, false, false, false, true, false]) e.values =
      [clampUnsigned (e.sectors osVersionCode).1, clampUnsigned (e.sectors osVersionCode).2] := by
  have hl := hv.length_values
  rw [BlockEntry.sectors]
  cases hs : e.device.shortFile osVersionCode with
  | true =>
    rw [hs, if_pos rfl] at hl
    rw [if_pos rfl, if_pos rfl, assigned_false,
      assigned_true (by rw [List.length_drop]; omega), assigned_false, List.drop_drop,
      List.drop_drop, assigned_true (by rw [List.length_drop]; omega), getD_drop_zero,
      getD_drop_zero]
    rfl
  | false =>
    rw [hs, if_neg Bool.false_ne_true] at hl
    have hseven : ∀ more, assigned more (e.values.drop 7) = [] →
        assigned (false :: false :: true :: false :: false :: false :: true :: more) e.values =
          [clampUnsigned (e.values.getD 2 0), clampUnsigned (e.values.getD 6 0)] := by
      intro more hmore
      rw [assigned_false, assigned_false, List.drop_drop,
        assigned_true (by rw [List.length_drop]; omega), assigned_false, assigned_false,
        assigned_false]
      simp only [List.drop_drop, getD_drop_zero, Nat.reduceAdd]
      rw [assigned_true (by rw [List.length_drop]; omega), List.drop_drop, getD_drop_zero, hmore]
    rw [if_neg Bool.false_ne_true, if_neg Bool.false_ne_true]
    by_cases hn : osVersionCode < linuxVersionCode 2 6 25
    · rw [if_pos hn, hseven [] rfl]
    · rw [if_neg hn, hseven [false] (by rw [assigned_false]; rfl)]

end

namespace BlockTree

theorem sda_nonempty : asciiBytes "sda".toList ≠ [] := by decide

theorem zero_notMem_sda : 0 ∉ asciiBytes "sda".toList := by decide

theorem slash_notMem_sda : 47 ∉ asciiBytes "sda".toList := by decide

/-- The first partition of a disk `sda`. -/
def sda1 : BlockEntry where
  device := .partition ⟨asciiBytes "sda".toList, sda_nonempty, zero_notMem_sda, slash_notMem_sda⟩ 1
  first := ⟨5, 166⟩
  others := [⟨5, 0⟩, ⟨3, 11936⟩, ⟨6, 68⟩, ⟨7, 1⟩, ⟨7, 0⟩, ⟨7, 2⟩, ⟨7, 0⟩]

theorem sda1_valid : ∀ e ∈ [sda1], e.Valid (linuxVersionCode 6 1 0) :=
  List.forall_mem_singleton.mpr ⟨by decide, by decide +kernel, by decide⟩

/-- The tree with this partition. -/
def sda1Tree : BlockTree (linuxVersionCode 6 1 0) :=
  ⟨[sda1], sda1_valid, List.nodup_singleton _⟩

end BlockTree

end LibGTop.Linux
