import LibGTop.Base.Numerals
import LibGTop.Base.Splits
import LibGTop.Linux.OpenFiles

/-!
# Open files on FreeBSD

`parse_output` (`sysdeps/freebsd/procopenfiles.c:116–261`), which reads what `lsof -Fftn` prints of
a process. A function that reads past the end of a string is absent there.
-/

namespace LibGTop.FreeBsd

open Base Linux

/-- The types of a `t` line that the parser tells apart. -/
inductive LsofType
  | unix
  | pipe
  | file
  | ipv4
  | ipv6
  deriving DecidableEq

/-- The types that are of a file. -/
def fileTypes : List (List UInt8) :=
  ["VREG", "GDIR", "GREG", "VCHR", "VBLK", "DIR", "LINK", "REG", "VDIR"].map (asciiBytes ·.toList)

/-- The type of a text, `sysdeps/freebsd/procopenfiles.c:162–247`; absent where the line is
passed. -/
def lsofType (ftype : List UInt8) : Option LsofType :=
  if ftype = asciiBytes "unix".toList then some .unix
  else if ftype = asciiBytes "PIPE".toList then some .pipe
  else if fileTypes.contains ftype then some .file
  else if ftype = asciiBytes "IPv4".toList then some .ipv4
  else if ftype = asciiBytes "IPv6".toList then some .ipv6
  else none

/-- The type of the entry. -/
def LsofType.fileType : LsofType → FileType
  | unix => .localsocket
  | pipe => .pipe
  | file => .file
  | ipv4 => .inetsocket
  | ipv6 => .inet6socket

/-- `"*"`. -/
def star : List UInt8 := asciiBytes "*".toList

/-- `"0.0.0.0"`. -/
def anyHost : List UInt8 := asciiBytes "0.0.0.0".toList

/-- `"->"`. -/
def arrow : List UInt8 := [45, 62]

/-- The strings of `remote_host`: of the name at colons, or of what is behind its first arrow at the
separator of the type. -/
def remoteHost (separator : UInt8) (fname : List UInt8) : List (List UInt8) :=
  if strstr arrow fname = none then gStrsplit 58 [] fname
  else
    match gStrsplit 45 [62] fname with
    | _ :: remote :: _ => gStrsplit separator [] remote
    | _ => []

/-- The socket of an IPv4 name, `sysdeps/freebsd/procopenfiles.c:180–212`. -/
def inetInfo (fname : List UInt8) : Option OpenFilesInfo :=
  match remoteHost 58 fname with
  | host :: port :: _ => some (.sock ((if host = star then anyHost else host).take 46) (atoi port))
  | _ => none

/-- `string + 1`, which is past the end of an empty string. -/
def behindFirst : List UInt8 → Option (List UInt8)
  | [] => none
  | _ :: rest => some rest

/-- The socket of an IPv6 name, `sysdeps/freebsd/procopenfiles.c:213–245`. -/
def inet6Info (fname : List UInt8) : Option (Option OpenFilesInfo) :=
  match remoteHost 93 fname with
  | host :: port :: _ => do
    let destHost ← if host = star then some anyHost else behindFirst host
    let port ← behindFirst port
    some (some (.sock (destHost.take 46) (atoi port)))
  | _ => some none

/-- What the entry of a name has, by the type. -/
def LsofType.info (fname : List UInt8) : LsofType → Option (Option OpenFilesInfo)
  | unix => some (some (.localsock (fname.take 215)))
  | pipe => some (some .zeros)
  | file => some (some (.file (fname.take 215)))
  | ipv4 => some (inetInfo fname)
  | ipv6 => inet6Info fname

/-- What the entry of a type and a name has, `sysdeps/freebsd/procopenfiles.c:162–247`. -/
def entryInfo (ftype fname : List UInt8) : Option (Option (LsofType × OpenFilesInfo)) :=
  match lsofType ftype with
  | none => some none
  | some type => (type.info fname).map (·.map (type, ·))

/-- The variables that are carried across the lines: the lines that `i` is still to pass, `fd` and
`ftype`. -/
structure LsofState where
  skip : Nat := 0
  fd : Int := -1
  ftype : Option (List UInt8) := none
  deriving DecidableEq

/-- `g_ascii_isdigit`. -/
def isAsciiDigit (b : UInt8) : Bool := 48 ≤ b && b ≤ 57

/-- An `n` line, `sysdeps/freebsd/procopenfiles.c:154–255`. -/
def readName (s : LsofState) (fname : List UInt8) :
    Option (LsofState × Option OpenFilesEntry) :=
  match s.ftype with
  | none => some (s, none)
  | some ftype => do
    match ← entryInfo ftype fname with
    | none => some (s, none)
    | some (type, info) =>
      some ({ s with fd := -1, ftype := none },
        some { fd := s.fd, type := type.fileType.number, info })

/-- The body of the loop, `sysdeps/freebsd/procopenfiles.c:131–256`, with the entry that it
appends. -/
def readLine (s : LsofState) (line : List UInt8) :
    Option (LsofState × Option OpenFilesEntry) :=
  if s.skip ≠ 0 then some ({ s with skip := s.skip - 1 }, none)
  else
    match line with
    | 102 :: b :: text =>
      if isAsciiDigit b then some ({ s with fd := atoi (b :: text) }, none)
      -- `i += 2`
      else some ({ s with skip := 2 }, none)
    | 116 :: b :: text => some ({ s with ftype := some (b :: text) }, none)
    | 110 :: b :: text => readName s (b :: text)
    | _ => some (s, none)

/-- The loop over the lines, with what it appends at each of them. -/
def readLines (s : LsofState) : List (List UInt8) → Option (List (Option OpenFilesEntry))
  | [] => some []
  | line :: lines => do
    let (s, entry) ← readLine s line
    let entries ← readLines s lines
    some (entry :: entries)

/-- What the loop appends at each of the lines of an output. -/
def lineEntries (output : List UInt8) : Option (List (Option OpenFilesEntry)) :=
  readLines {} (gStrsplit 10 [] output)

/-- `parse_output`. -/
def parseOutput (output : List UInt8) : Option (List OpenFilesEntry) :=
  (lineEntries output).map (·.filterMap id)

end LibGTop.FreeBsd
