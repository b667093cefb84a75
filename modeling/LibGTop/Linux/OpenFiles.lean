import LibGTop.Linux.Readers
import LibGTop.Linux.SocketRows

/-!
# Open files

`glibtop_get_proc_open_files_s` (`sysdeps/linux/procopenfiles.c:218–324`): an entry for each link of
`/proc/<pid>/fd` that can be read, and for a socket what the tables say of its inode.
-/

namespace LibGTop.Linux

open Base

/-- `enum glibtop_file_type`, `include/glibtop/procopenfiles.h:52–58`. -/
inductive FileType
  | file
  | pipe
  | inetsocket
  | localsocket
  | inet6socket
  deriving DecidableEq

/-- The value of the type. -/
def FileType.number : FileType → BitVec 16
  | file => 1
  | pipe => 2
  | inetsocket => 4
  | localsocket => 8
  | inet6socket => 16

/-- The union of `struct _glibtop_open_files_entry`, by the member that is written. -/
inductive OpenFilesInfo
  | zeros
  | sock (destHost : List UInt8) (destPort : Int)
  | file (name : List UInt8)
  | localsock (name : List UInt8)
  deriving DecidableEq

/-- `struct _glibtop_open_files_entry`, `include/glibtop/procopenfiles.h:64–87`. -/
structure OpenFilesEntry where
  fd : Int := 0
  type : BitVec 16 := 0
  info : OpenFilesInfo := .zeros
  deriving DecidableEq

/-- `struct _glibtop_proc_open_files`, `include/glibtop/procopenfiles.h:89–95`. -/
structure ProcOpenFiles where
  flags : BitVec 64 := 0
  number : BitVec 64 := 0
  total : BitVec 64 := 0
  size : BitVec 64 := 0

/-- `_glibtop_sysdeps_proc_open_files`. -/
def sysdepsProcOpenFiles : BitVec 64 := flagBits [0, 1, 2]

/-- The tables under `/proc/net`; absent where one cannot be opened. -/
structure SocketFiles where
  tcp6 : Option (List UInt8)
  tcp : Option (List UInt8)
  unix : Option (List UInt8)

/-- What the three lookups of `sysdeps/linux/procopenfiles.c:264–294` make of an entry. -/
def resolve (entry : OpenFilesEntry) :
    Option InetSocketEntry → Option InetSocketEntry → Option (List UInt8) → OpenFilesEntry
  | some i6se, _, _ =>
    { entry with
      type := FileType.inet6socket.number, info := .sock (i6se.host.take 46) i6se.port }
  | none, some ise, _ =>
    { entry with
      type := FileType.inetsocket.number, info := .sock (ise.host.take 46) ise.port }
  | none, none, some lse =>
    { entry with type := FileType.localsocket.number, info := .localsock (lse.take 215) }
  | none, none, none => entry

/-- `"socket:["`. -/
def socketPrefix : List UInt8 := asciiBytes "socket:[".toList

/-- `"pipe:["`. -/
def pipePrefix : List UInt8 := asciiBytes "pipe:[".toList

/-- The entry of a link, `sysdeps/linux/procopenfiles.c:249–307`; `atoi` keeps the low 32 bits of
what `strtol` gives. -/
def openFilesEntry (inetNtop : InetNtop) (files : SocketFiles) (dName tgt : List UInt8) :
    OpenFilesEntry :=
  let entry : OpenFilesEntry := { fd := toInt32 (strtol 10 dName).1 }
  if socketPrefix.isPrefixOf tgt then
    let sockfd := toInt32 (strtol 10 (tgt.drop 8)).1
    resolve entry (getAll (inet6SocketParser inetNtop) files.tcp6 sockfd)
      (getAll (inetSocketParser inetNtop) files.tcp sockfd)
      (getAll localSocketParser files.unix sockfd)
  else if pipePrefix.isPrefixOf tgt then { entry with type := FileType.pipe.number }
  else { entry with type := FileType.file.number, info := .file (tgt.take 215) }

/-- `safe_readlink`, `sysdeps/linux/glibtop_private.c:225–238`: the string in a buffer of `BUFSIZ`
bytes; absent when the link cannot be read. -/
def safeReadlink (link : Option (List UInt8)) : Option (List UInt8) :=
  link.map fun target ↦ cString (target.take (bufsiz - 1))

/-- `glibtop_get_proc_open_files_s`, `sysdeps/linux/procopenfiles.c:218–324`, on the names in the
directory and the targets of the links. -/
def glibtopGetProcOpenFilesS (inetNtop : InetNtop) (files : SocketFiles)
    (dir : Option (List (List UInt8 × Option (List UInt8)))) :
    ProcOpenFiles × Option (List OpenFilesEntry) :=
  match dir with
  | none => ({}, none)
  | some names =>
    let entries := names.filterMap fun (dName, link) ↦
      if dName.head? = some 46 then none
      else (safeReadlink link).map fun tgt ↦ openFilesEntry inetNtop files dName tgt
    let number := BitVec.ofNat 64 entries.length
    ({ flags := sysdepsProcOpenFiles, number := number, total := number * 224, size := 224 },
      some entries)

/-- A table, with its first line. -/
structure Table (row : Type) where
  header : LineText
  rows : List row

/-- The text of a table whose file can be opened. -/
def tableFile {row : Type} (rowText : row → List UInt8) (table : Option (Table row)) :
    Option (List UInt8) :=
  table.map fun table ↦ text (table.header.1 :: table.rows.map rowText)

/-- The lines of a table. -/
def tableRows {row : Type} (table : Option (Table row)) : List row := table.elim [] Table.rows

/-- The tables of sockets. -/
structure SocketTables where
  tcp6 : Option (Table (InetRow In6Addr))
  tcp : Option (Table (InetRow (BitVec 32)))
  unix : Option (Table UnixRow)

/-- Their files. -/
def SocketTables.files (tables : SocketTables) : SocketFiles where
  tcp6 := tableFile tcp6Text tables.tcp6
  tcp := tableFile tcpText tables.tcp
  unix := tableFile unixText tables.unix

/-- What a link of `/proc/<pid>/fd` leads to. -/
inductive Link
  | socket (inode : BitVec 64)
  | pipe (inode : BitVec 64)
  | file (path : { path : List UInt8 //
      0 ∉ path ∧ ¬socketPrefix <+: path ∧ ¬pipePrefix <+: path })

/-- The target of the link. -/
def Link.target : Link → List UInt8
  | socket inode => socketPrefix ++ (decimal inode.toNat ++ [93])
  | pipe inode => pipePrefix ++ (decimal inode.toNat ++ [93])
  | file path => path.1

/-- A name in the directory: one that starts with a dot, or a descriptor, whose link may not be
readable. -/
inductive FdName
  | dots (more : List UInt8)
  | fd (number : { number : Nat // number < 2 ^ 31 }) (link : Option Link)

/-- What `readdir` and `readlink` return. -/
def FdName.entry : FdName → List UInt8 × Option (List UInt8)
  | dots more => (46 :: more, none)
  | fd number link => (decimal number.1, link.map Link.target)

/-- The descriptor and the link, where it can be read. -/
def FdName.readable : FdName → Option (Nat × Link)
  | dots _ => none
  | fd number link => link.map fun link ↦ (number.1, link)

/-- The text of a local name. -/
def UnixRow.nameText (row : UnixRow) : List UInt8 := row.name.elim [] Subtype.val

/-- The address and the port of a line. -/
def InetRow.shown {address : Type} (host : address → HostText) (row : InetRow address) :
    InetSocketEntry := ⟨(host row.remAddress).1, row.remPort.toNat⟩

/-- The entry has what the first table with a line of the inode says of it, or nothing where there
is none. -/
def SocketRight (inetNtop : InetNtop) (tables : SocketTables) (inode : BitVec 64)
    (entry : OpenFilesEntry) : Prop :=
  if ∃ row ∈ tableRows tables.tcp6, row.inode = inode then
    ∃ row ∈ tableRows tables.tcp6, row.inode = inode ∧ entry.type = FileType.inet6socket.number ∧
      entry.info = .sock (inetNtop.inet6 row.remAddress).1 row.remPort.toNat
  else if ∃ row ∈ tableRows tables.tcp, row.inode = inode then
    ∃ row ∈ tableRows tables.tcp, row.inode = inode ∧ entry.type = FileType.inetsocket.number ∧
      entry.info = .sock (inetNtop.inet row.remAddress).1 row.remPort.toNat
  else if ∃ row ∈ tableRows tables.unix, row.inode = inode then
    ∃ row ∈ tableRows tables.unix, row.inode = inode ∧
      entry.type = FileType.localsocket.number ∧ entry.info = .localsock row.nameText
  else entry.type = 0 ∧ entry.info = .zeros

/-- The entry is that of the link. -/
def LinkRight (inetNtop : InetNtop) (tables : SocketTables) :
    Link → OpenFilesEntry → Prop
  | .socket inode, entry => SocketRight inetNtop tables inode entry
  | .pipe _, entry => entry.type = FileType.pipe.number
  | .file path, entry => entry.type = FileType.file.number ∧ entry.info = .file (path.1.take 215)

/-- There is one entry for each link that can be read, in the order of the directory. -/
def OpenFilesRight (inetNtop : InetNtop) (tables : SocketTables) (dir : List FdName) : Prop :=
  ∃ buf entries, glibtopGetProcOpenFilesS inetNtop tables.files (some (dir.map FdName.entry)) =
      (buf, some entries) ∧
    buf.number = BitVec.ofNat 64 (dir.filterMap FdName.readable).length ∧
    List.Forall₂ (fun (item : Nat × Link) (entry : OpenFilesEntry) ↦
        entry.fd = item.1 ∧ LinkRight inetNtop tables item.2 entry)
      (dir.filterMap FdName.readable) entries

/-- The last line that is read with a number. -/
def lastRead {row : Type} (key : row → Option Int) (rows : List row) (sock : Int) : Option row :=
  rows.reverse.find? fun row ↦ key row = some sock

/-- The number a line is read with: the low half of its inode, where its retransmits have no
letter. -/
def InetRow.key {address : Type} (row : InetRow address) : Option Int :=
  if row.Legible then some (inodeKey row.inode) else none

/-- The first table with a line of the inode is the first that has one that is read with its number,
and the last of those shows what a line of the inode does. -/
def Resolves (inetNtop : InetNtop) (tables : SocketTables) (inode : BitVec 64) : Prop :=
  let row6 := lastRead InetRow.key (tableRows tables.tcp6) (inodeKey inode)
  let row4 := lastRead InetRow.key (tableRows tables.tcp) (inodeKey inode)
  let rowU :=
    lastRead (fun row ↦ some (localKey row.inode)) (tableRows tables.unix) (inodeKey inode)
  if ∃ row ∈ tableRows tables.tcp6, row.inode = inode then
    ∃ row ∈ row6, ∃ own ∈ tableRows tables.tcp6, own.inode = inode ∧
      row.shown inetNtop.inet6 = own.shown inetNtop.inet6
  else row6 = none ∧
    if ∃ row ∈ tableRows tables.tcp, row.inode = inode then
      ∃ row ∈ row4, ∃ own ∈ tableRows tables.tcp, own.inode = inode ∧
        row.shown inetNtop.inet = own.shown inetNtop.inet
    else row4 = none ∧
      if ∃ row ∈ tableRows tables.unix, row.inode = inode then
        ∃ row ∈ rowU, ∃ own ∈ tableRows tables.unix, own.inode = inode ∧
          row.keptName = own.nameText
      else rowU = none

end LibGTop.Linux
