import LibGTop.Base.Masks
import LibGTop.Base.Scan
import LibGTop.Base.Strings

/-!
# The list of mounted filesystems

`glibtop_get_mountlist_s` of the systems that have no own version
(`sysdeps/common/mountlist.c`), with the reader for `getmntent`
(`MOUNTED_GETMNTENT1`, lines 265–297).
-/

namespace LibGTop.Common

open Base

/-- What `getmntent` delivers for a line of the mount table, and the memory behind the terminator of
the options. -/
structure Mntent where
  fsname : List UInt8
  dir : List UInt8
  type : List UInt8
  opts : List UInt8
  behind : List UInt8
  notMem_opts : 0 ∉ opts

/-- `glibtop_mountentry`, `include/glibtop/mountlist.h:40–46`. -/
structure MountEntry where
  dev : BitVec 64
  devname : List UInt8
  mountdir : List UInt8
  type : List UInt8
  deriving DecidableEq

/-- `glibtop_mountlist`, `include/glibtop/mountlist.h:48–54`. -/
structure Mountlist where
  flags : BitVec 64 := 0
  number : BitVec 64 := 0
  total : BitVec 64 := 0
  size : BitVec 64 := 0

/-- `GLIBTOP_MOUNTENTRY_LEN`, `glibtop.h:64`. -/
def glibtopMountentryLen : Nat := 79

/-- `sizeof (glibtop_mountentry)`. -/
def mountEntrySize : BitVec 64 := 248

/-- `g_strlcpy (field, s, sizeof field)` for the names of an entry. -/
def copyName (s : List UInt8) : List UInt8 := s.take glibtopMountentryLen

/-- The key of the device number. -/
def devKey : List UInt8 := asciiBytes ['d', 'e', 'v', '=']

/-- The number at an offset from the key `dev=` in the options; `(dev_t) -1` when it is not there.
-/
def devOption (offset : Nat) (mnt : Mntent) : BitVec 64 :=
  match strstr devKey mnt.opts with
  | some devopt => (strtoull 0 (cString ((devopt ++ 0 :: mnt.behind).drop offset))).1
  | none => -1

/-- `struct mount_entry`, without the link. -/
structure ListEntry where
  devname : List UInt8
  mountdir : List UInt8
  type : List UInt8
  dev : BitVec 64

/-- The entry of the list for one of the mount table, `sysdeps/common/mountlist.c:277–286`. -/
def listEntry (mnt : Mntent) : ListEntry :=
  { devname := mnt.fsname
    mountdir := mnt.dir
    type := mnt.type
    dev := devOption 4 mnt }

/-- `read_filesystem_list`, `sysdeps/common/mountlist.c:222–534`; absent when the table cannot be
opened or is empty. -/
def readFilesystemList (mounted : Option (List Mntent)) : Option (List ListEntry) :=
  match mounted with
  | none => none
  | some [] => none
  | some mounts => some (mounts.map listEntry)

/-- The types in `ignored`, in their order, which is the one of `strcmp`. -/
def ignored : List (List UInt8) :=
  ["autofs", "binfmt_misc", "ctfs", "devfs", "devpts", "fusectl", "linprocfs", "mfs", "mntfs",
    "mqueue", "none", "nsfd", "objfs", "openpromfs", "proc", "procfs", "rpc_pipefs", "securityfs",
    "supermount", "sysfs", "tmpfs", "unknown", "usbdevfs", "usbfs"].map fun name ↦
      asciiBytes name.toList

/-- `ignore_mount_entry`, `sysdeps/common/mountlist.c:537–573`; `bsearch` finds what is in the
sorted table. -/
def ignoreMountEntry (me : ListEntry) : Bool := ignored.contains me.type

/-- The entry that is appended to the array, `sysdeps/common/mountlist.c:597–602`. -/
def mountEntry (me : ListEntry) : MountEntry :=
  { devname := copyName me.devname
    mountdir := copyName me.mountdir
    type := copyName me.type
    dev := me.dev }

/-- The numbers of a list, `sysdeps/common/mountlist.c:613–619`. -/
def Mountlist.of (entries : List MountEntry) : Mountlist :=
  { size := mountEntrySize
    number := BitVec.ofNat 64 entries.length
    total := BitVec.ofNat 64 entries.length * mountEntrySize
    flags := 7 }

/-- `glibtop_get_mountlist_s`, `sysdeps/common/mountlist.c:576–622`. -/
def glibtopGetMountlistS (mounted : Option (List Mntent)) (allFs : Bool) :
    Mountlist × Option (List MountEntry) :=
  match readFilesystemList mounted with
  | none => ({}, none)
  | some list =>
    let entries := (list.filter fun me ↦ allFs || !ignoreMountEntry me).map mountEntry
    (.of entries, some entries)

end LibGTop.Common
