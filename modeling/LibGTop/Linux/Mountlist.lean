import LibGTop.Base.Tokens
import LibGTop.Common.Mountlist
import LibGTop.Linux.Text

/-!
# The list of mounted filesystems

`glibtop_get_mountlist_s` of Linux (`sysdeps/linux/mountlist.c`). The types that are
left out are in `/proc/filesystems`, the directories in `/run/mount/utab`.
-/

namespace LibGTop.Linux

open Base Common

/-- `IgnoreList`, `sysdeps/linux/mountlist.c:41–45`. -/
structure IgnoreList where
  tableFstype : List (List UInt8)
  tableMntdir : List (List UInt8)

/-- What starts a line of `/proc/filesystems` for a type without a device. -/
def nodevWord : List UInt8 := asciiBytes ['n', 'o', 'd', 'e', 'v']

/-- The name of a filesystem, and of those that end with it. -/
def zfsWord : List UInt8 := asciiBytes ['z', 'f', 's']

/-- The type that is always left out. -/
def noneType : List UInt8 := asciiBytes ['n', 'o', 'n', 'e']

/-- The option that hides a mount. -/
def hideOption : List UInt8 := asciiBytes ['x', '-', 'g', 'd', 'u', '.', 'h', 'i', 'd', 'e']

/-- The key of a directory. -/
def targetKey : List UInt8 := asciiBytes ['T', 'A', 'R', 'G', 'E', 'T', '=']

/-- The type that is added for what `fgets` delivers, `sysdeps/linux/mountlist.c:114–118`. -/
def ignoredType (line : List UInt8) : Option (List UInt8) :=
  if nodevWord.isPrefixOf line && !zfsWord.isPrefixOf (line.drop (line.length - 4)) then
    some (strip gAsciiIsspace (line.drop 5))
  else none

/-- The directories that are added for a line of `utab`, `sysdeps/linux/mountlist.c:128–136`. -/
def ignoredDirs (uline : List UInt8) : List (List UInt8) :=
  if (strstr hideOption uline).isSome then
    ((strtok 32 uline).filter fun pch ↦ targetKey.isPrefixOf pch).map fun pch ↦ pch.drop 7
  else []

/-- The list that the first call of `ignore_fs` builds, `sysdeps/linux/mountlist.c:104–142`. -/
def ignoreList (filesystems utab : Option (List UInt8)) : IgnoreList where
  tableFstype := noneType :: (filesystems.elim [] fun text ↦ (fgets 128 text).filterMap ignoredType)
  tableMntdir := utab.elim [] fun text ↦ (lines text).flatMap ignoredDirs

/-- `ignore_fs`, `sysdeps/linux/mountlist.c:101–146`. -/
def ignoreFs (ig : IgnoreList) (mntdir fstype : List UInt8) : Bool :=
  ig.tableFstype.contains fstype || ig.tableMntdir.contains mntdir

/-- The entry for one of the mount table, `sysdeps/linux/mountlist.c:179–183`. -/
def mountEntry (mnt : Mntent) : MountEntry :=
  { devname := copyName mnt.fsname
    mountdir := copyName mnt.dir
    type := copyName mnt.type
    dev := devOption 5 mnt }

/-- An entry of the mount table is not passed over, `sysdeps/linux/mountlist.c:174`. -/
def listed (filesystems utab : Option (List UInt8)) (allFs : Bool) (mnt : Mntent) : Bool :=
  allFs || !ignoreFs (ignoreList filesystems utab) mnt.dir mnt.type

/-- `glibtop_get_mountlist_s`, `sysdeps/linux/mountlist.c:149–202`; without entries when the table
cannot be opened. -/
def glibtopGetMountlistS (filesystems utab : Option (List UInt8)) (mounted : Option (List Mntent))
    (allFs : Bool) : Mountlist × List MountEntry :=
  let entries := (mounted.elim [] fun mounts ↦
    mounts.filter (listed filesystems utab allFs)).map mountEntry
  (.of entries, entries)

end LibGTop.Linux
