import LibGTop.Base.Scanf
import LibGTop.Linux.Readers

/-!
# The statistics file of a block device

`is_partition` and `get_sys_path` (`sysdeps/linux/fsusage.c:91–153`), and the names that the
kernel gives to disks and to their partitions. A number of a partition has a `p` before it where
the name of the disk ends in a digit.
-/

namespace LibGTop.Linux

open Base

/-- The loop of `is_partition` over the copy of a name: what is left of the copy, and whether it
was cut. -/
def cutAtDigit : List UInt8 → List UInt8 × Bool
  | [] => ([], false)
  | b :: rest =>
    if isDigitIn 10 b then ([], true) else (b :: (cutAtDigit rest).1, (cutAtDigit rest).2)

/-- `is_partition`, with `g_strlcpy`: the prefix and the answer. -/
def isPartition (device : List UInt8) (prefixSize : Nat) : List UInt8 × Bool :=
  cutAtDigit (device.take (prefixSize - 1))

/-- What `get_sys_path` stores. -/
structure SysPath where
  statPath : List UInt8
  parseFormat : List Char
  deriving DecidableEq

/-- `/sys/block/`. -/
def sysBlock : List UInt8 := asciiBytes "/sys/block/".toList

/-- `/stat`. -/
def statSuffix : List UInt8 := asciiBytes "/stat".toList

/-- The local `linux_2_6_25_format` of `get_sys_path`. -/
def linux2625Format : List Char :=
  "%*llu %*llu %llu %*llu%*llu %*llu %llu %*llu".toList

/-- `get_sys_path`. -/
def getSysPath (osVersionCode : Nat) (device : List UInt8) : SysPath :=
  match isPartition device 32 with
  | (pre, true) =>
    { statPath := sysBlock ++ pre ++ [47] ++ device ++ statSuffix
      parseFormat :=
        if osVersionCode < linuxVersionCode 2 6 25 then "%*llu %llu %*llu %llu".toList
        else linux2625Format }
  | (_, false) =>
    { statPath := sysBlock ++ device ++ statSuffix
      parseFormat :=
        if osVersionCode < linuxVersionCode 2 6 25 then
          "%*llu %*llu %llu %*llu %*llu %*llu %llu".toList
        else linux2625Format }

/-- The name of a disk. -/
structure DiskName where
  bytes : List UInt8
  nonempty : bytes ≠ []
  zero_notMem : 0 ∉ bytes
  slash_notMem : 47 ∉ bytes

/-- A disk, or the partition of one by its number. -/
inductive BlockDevice
  | disk (d : DiskName)
  | partition (d : DiskName) (number : Nat)

namespace BlockDevice

/-- What stands between the name of a disk and the number of its partition. -/
def mark (d : DiskName) : List UInt8 :=
  if ∃ b ∈ d.bytes.getLast?, isDigitIn 10 b then [112] else []

/-- The name of a block device. -/
def name : BlockDevice → List UInt8
  | disk d => d.bytes
  | partition d number => d.bytes ++ (mark d ++ decimal number)

/-- The file that has its statistics. -/
def statFile : BlockDevice → List UInt8
  | disk d => sysBlock ++ d.bytes ++ statSuffix
  | partition d number =>
    sysBlock ++ d.bytes ++ [47] ++ name (partition d number) ++ statSuffix

/-- A disk has no digit where `is_partition` looks for one; the disk of a partition has none at
all, and leaves room for one behind its name. -/
def SplitsAtDigit : BlockDevice → Prop
  | disk d => ∀ b ∈ d.bytes.take 31, ¬isDigitIn 10 b
  | partition d _ => (∀ b ∈ d.bytes, ¬isDigitIn 10 b) ∧ d.bytes.length ≤ 30

end BlockDevice

section

variable {text : List UInt8}

theorem cutAtDigit_of_none (h : ∀ b ∈ text, ¬isDigitIn 10 b) : cutAtDigit text = (text, false) := by
  induction text with
  | nil => rfl
  | cons b rest ih =>
    obtain ⟨hb, hr⟩ := List.forall_mem_cons.mp h
    rw [cutAtDigit, if_neg hb, ih hr]

/-- The copy is cut in front of its first digit. -/
theorem cutAtDigit_append {b : UInt8} {rest : List UInt8} (h : ∀ c ∈ text, ¬isDigitIn 10 c)
    (hb : isDigitIn 10 b) : cutAtDigit (text ++ b :: rest) = (text, true) := by
  induction text with
  | nil => rw [List.nil_append, cutAtDigit, if_pos hb]
  | cons c text ih =>
    obtain ⟨hc, ht⟩ := List.forall_mem_cons.mp h
    rw [List.cons_append, cutAtDigit, if_neg hc, ih ht]

/-- A text with a digit is cut at the first one. -/
theorem exists_digit (h : ¬∀ b ∈ text, ¬isDigitIn 10 b) :
    ∃ pre b rest, text = pre ++ b :: rest ∧ (∀ c ∈ pre, ¬isDigitIn 10 c) ∧ isDigitIn 10 b := by
  induction text with
  | nil => exact absurd nofun h
  | cons b text ih =>
    by_cases hb : isDigitIn 10 b
    · exact ⟨[], b, text, rfl, nofun, hb⟩
    · have ht : ¬∀ c ∈ text, ¬isDigitIn 10 c := fun ht ↦ h (List.forall_mem_cons.mpr ⟨hb, ht⟩)
      obtain ⟨pre, c, rest, rfl, hp, hc⟩ := ih ht
      exact ⟨b :: pre, c, rest, rfl, List.forall_mem_cons.mpr ⟨hb, hp⟩, hc⟩

end

section

variable {device : List UInt8} (osVersionCode : Nat)

/-- Without a digit where one is looked for, the path is that of a disk. -/
theorem statPath_of_none (h : ∀ b ∈ device.take 31, ¬isDigitIn 10 b) :
    (getSysPath osVersionCode device).statPath = sysBlock ++ device ++ statSuffix := by
  have hp : isPartition device 32 = (device.take 31, false) := cutAtDigit_of_none h
  rw [getSysPath, hp]

/-- With a digit, the path is that of a partition of what is before it. -/
theorem statPath_of_digit {pre rest : List UInt8} {b : UInt8}
    (ht : device.take 31 = pre ++ b :: rest) (hp : ∀ c ∈ pre, ¬isDigitIn 10 c)
    (hb : isDigitIn 10 b) :
    (getSysPath osVersionCode device).statPath =
      sysBlock ++ pre ++ [47] ++ device ++ statSuffix := by
  have hc : isPartition device 32 = (pre, true) := by
    rw [isPartition, ht]
    exact cutAtDigit_append hp hb
  rw [getSysPath, hc]

end

/-- The path has the name of the device once more than that of a disk has. -/
theorem statPath_ne {pre device : List UInt8} {length : Nat} {bytes : List UInt8}
    (hl : bytes.length = length) (h : length ≤ device.length) :
    sysBlock ++ pre ++ [47] ++ device ++ statSuffix ≠ sysBlock ++ bytes ++ statSuffix := by
  intro he
  have := congrArg List.length he
  simp only [List.length_append, List.length_singleton] at this
  omega

namespace BlockDevice

variable {d : DiskName} {number : Nat} (osVersionCode : Nat)

/-- Without a digit in the name of the disk, the number of its partition follows at once. -/
theorem mark_of_noDigit (h : ∀ b ∈ d.bytes, ¬isDigitIn 10 b) : mark d = [] := by
  refine if_neg ?_
  rintro ⟨b, hb, hd⟩
  exact h b (List.mem_of_getLast? hb) hd

/-- The path of a disk is right without a digit where one is looked for. -/
theorem statPath_disk_iff :
    (getSysPath osVersionCode (disk d).name).statPath = (disk d).statFile ↔
      (disk d).SplitsAtDigit := by
  constructor
  · intro h
    by_contra hd
    obtain ⟨pre, b, rest, ht, hp, hb⟩ := exists_digit hd
    have hs := statPath_of_digit osVersionCode ht hp hb
    exact statPath_ne rfl le_rfl (hs.symm.trans h)
  · exact statPath_of_none osVersionCode

/-- The name of a partition has the number behind its disk. -/
theorem take_partition (h : ∀ b ∈ d.bytes, ¬isDigitIn 10 b) (hl : d.bytes.length ≤ 30) :
    ∃ b rest, ((partition d number).name.take 31) = d.bytes ++ b :: rest ∧ isDigitIn 10 b := by
  obtain ⟨b, digits, hn⟩ := List.exists_cons_of_ne_nil (decimal_ne_nil number)
  have hb : isDigitIn 10 b := isDigitIn_of_mem_decimal (hn ▸ List.mem_cons_self)
  obtain ⟨room, hr⟩ := Nat.exists_eq_add_of_le hl
  refine ⟨b, digits.take room, ?_, hb⟩
  rw [name, mark_of_noDigit h, List.nil_append, hn, List.take_append,
    List.take_of_length_le (by omega)]
  have he : 31 - d.bytes.length = room + 1 := by omega
  rw [he, List.take_succ_cons]

/-- The path of a partition is right where its disk is what is before the first digit. -/
theorem statPath_partition_iff :
    (getSysPath osVersionCode (partition d number).name).statPath =
      (partition d number).statFile ↔ (partition d number).SplitsAtDigit := by
  constructor
  · intro h
    by_cases hd : ∀ b ∈ (partition d number).name.take 31, ¬isDigitIn 10 b
    · have hs := statPath_of_none osVersionCode hd
      exact absurd (h.symm.trans hs) (statPath_ne rfl le_rfl)
    · obtain ⟨pre, b, rest, ht, hp, hb⟩ := exists_digit hd
      have hs := h.symm.trans (statPath_of_digit osVersionCode ht hp hb)
      simp only [statFile, List.append_cancel_right_eq, List.append_cancel_left_eq] at hs
      subst hs
      refine ⟨hp, ?_⟩
      have hl := congrArg List.length ht
      rw [List.length_take, List.length_append, List.length_cons] at hl
      omega
  · rintro ⟨hd, hl⟩
    obtain ⟨b, rest, ht, hb⟩ := take_partition hd hl
    exact statPath_of_digit osVersionCode ht hd hb

/-- For a disk and for a partition of any disk the path is that of the file with its statistics if
and only if the name splits at its first digit into the disk and the number. -/
theorem statPath_eq_iff (osVersionCode : Nat) (device : BlockDevice) :
    (getSysPath osVersionCode device.name).statPath = device.statFile ↔
      device.SplitsAtDigit := by
  cases device with
  | disk d => exact statPath_disk_iff osVersionCode
  | partition d number => exact statPath_partition_iff osVersionCode

/-- The disk `nvme0n1`. -/
def nvme0n1 : DiskName where
  bytes := asciiBytes "nvme0n1".toList
  nonempty := by decide
  zero_notMem := by decide
  slash_notMem := by decide

/-- The first partition of `nvme0n1` is looked for below a disk `nvme`, and the disk itself too. -/
theorem statPath_nvme0n1 :
    (partition nvme0n1 1).name = asciiBytes "nvme0n1p1".toList ∧
      (getSysPath (linuxVersionCode 6 1 0) (partition nvme0n1 1).name).statPath =
        asciiBytes "/sys/block/nvme/nvme0n1p1/stat".toList ∧
      (getSysPath (linuxVersionCode 6 1 0) (partition nvme0n1 1).name).statPath ≠
        (partition nvme0n1 1).statFile ∧
      (getSysPath (linuxVersionCode 6 1 0) (disk nvme0n1).name).statPath =
        asciiBytes "/sys/block/nvme/nvme0n1/stat".toList ∧
      (getSysPath (linuxVersionCode 6 1 0) (disk nvme0n1).name).statPath ≠
        (disk nvme0n1).statFile := by decide

end BlockDevice

end LibGTop.Linux
