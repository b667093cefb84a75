import LibGTop.FreeBsd.LsofNames
import Mathlib.Data.List.Forall2

/-!
# The output of lsof

What `lsof -Fftn` prints of a process, by records, and when `parse_output`
(`sysdeps/freebsd/procopenfiles.c:116–261`) makes of each record the entry that is due for it. The
lines of a record are an `f` line with a number or a word, and a `t` and an `n` line where there is
a type and a name.
-/

namespace LibGTop.FreeBsd

open Base Linux

/-! ### The output -/

/-- The text behind the letter of a line. -/
structure FieldText where
  bytes : List UInt8
  ne_nil : bytes ≠ []
  clean : ∀ b ∈ bytes, b ≠ 0 ∧ b ≠ 10

/-- The number of a descriptor, which an `int` holds. -/
structure FdNumber where
  value : Nat
  lt : value < 2 ^ 31

/-- A word in place of a number, such as `cwd`. -/
structure FdWord extends FieldText where
  notDigit : ∀ b ∈ bytes.head?, isAsciiDigit b = false

/-- What an `f` line has. -/
inductive Descriptor
  | number (fd : FdNumber)
  | word (w : FdWord)

/-- The text of the descriptor. -/
def Descriptor.text : Descriptor → List UInt8
  | number n => decimal n.value
  | word w => w.bytes

/-- A record. -/
structure LsofRecord where
  descriptor : Descriptor
  type : Option FieldText
  name : Option FieldText

/-- The lines of a record. -/
def LsofRecord.lines (r : LsofRecord) : List (List UInt8) :=
  (102 :: r.descriptor.text) :: ((r.type.map (116 :: ·.bytes)).toList ++
    (r.name.map (110 :: ·.bytes)).toList)

/-- The lines of an output; before the records there may be the one of the process. -/
def outputLines (process : Option FieldText) (records : List LsofRecord) : List (List UInt8) :=
  (process.map (112 :: ·.bytes)).toList ++ records.flatMap LsofRecord.lines

/-- The output. -/
def outputText (process : Option FieldText) (records : List LsofRecord) : List UInt8 :=
  text (outputLines process records)

/-! ### What is due -/

/-- What the entry of a record is to have. -/
structure DueEntry where
  fd : Nat
  type : LsofType
  name : List UInt8

/-- An entry is due for a number with a type that is told apart and a name. -/
def LsofRecord.dueEntry (r : LsofRecord) : Option DueEntry :=
  match r.descriptor, r.type.bind (lsofType ·.bytes), r.name with
  | .number fd, some type, some name => some ⟨fd.value, type, name.bytes⟩
  | _, _, _ => none

/-- What is due at each line of a record: the entry at the name. -/
def LsofRecord.due (r : LsofRecord) : List (Option DueEntry) :=
  none :: ((r.type.map fun _ ↦ none).toList ++ (r.name.map fun _ ↦ r.dueEntry).toList)

/-- What is due at each string that the output is split into. -/
def outputDue (process : Option FieldText) (records : List LsofRecord) :
    List (Option DueEntry) :=
  if outputLines process records = [] then []
  else (process.map fun _ ↦ none).toList ++ (records.flatMap LsofRecord.due ++ [none])

/-- The entry has the descriptor, the type and the name. -/
structure Carries (due : DueEntry) (entry : OpenFilesEntry) : Prop where
  fd : entry.fd = due.fd
  type : entry.type = due.type.fileType.number
  info : InfoRight due.name entry.info due.type

/-- The parser reads no string past its end, at each line it appends the entry that is due there and
no other, and the entries it returns are those of the records in order. -/
def ParsedRight (process : Option FieldText) (records : List LsofRecord) : Prop :=
  ∃ trace entries, lineEntries (outputText process records) = some trace ∧
    List.Forall₂ (Option.Rel Carries) (outputDue process records) trace ∧
    parseOutput (outputText process records) = some entries ∧
    List.Forall₂ Carries (records.filterMap LsofRecord.dueEntry) entries

/-! ### The condition -/

namespace LsofState

/-- The variables behind an `f` line; behind a word two lines are skipped. -/
def passDescriptor (s : LsofState) (descriptor : Descriptor) : LsofState :=
  if s.skip ≠ 0 then { s with skip := s.skip - 1 }
  else
    match descriptor with
    | .number fd => { s with fd := fd.value }
    | .word _ => { s with skip := 2 }

/-- The variables behind a `t` line. -/
def passType (s : LsofState) (type : FieldText) : LsofState :=
  if s.skip ≠ 0 then { s with skip := s.skip - 1 } else { s with ftype := some type.bytes }

/-- The variables before the name of a record. -/
def beforeName (s : LsofState) (r : LsofRecord) : LsofState :=
  match r.type with
  | none => s.passDescriptor r.descriptor
  | some type => (s.passDescriptor r.descriptor).passType type

/-- The variables behind a name with or without an entry. -/
def passName (s : LsofState) (due : Option DueEntry) : LsofState :=
  match due with
  | none => { s with skip := s.skip - 1 }
  | some _ => { s with fd := -1, ftype := none }

/-- The variables behind a record. -/
def behindRecord (s : LsofState) (r : LsofRecord) : LsofState :=
  match r.name with
  | none => s.beforeName r
  | some _ => (s.beforeName r).passName r.dueEntry

/-- The number and the type that are left over are those of the entry. -/
def Leftover (s : LsofState) (due : DueEntry) : Prop :=
  s.skip = 0 ∧ s.fd = due.fd ∧ s.ftype.bind lsofType = some due.type

/-- A name without an entry is skipped, or passed with the type that is left over. -/
def Passed (s : LsofState) (name : List UInt8) : Prop :=
  s.skip = 0 → ∀ ftype, s.ftype = some ftype → entryInfo ftype name = some none

/-- A record is read right: where an entry is due, the `f` line is not skipped, or by chance the
number and the type that are left over are the same, and the name is one of those that the entry has
right; where none is due, the name is passed. -/
def RecordRight (s : LsofState) (r : LsofRecord) : Prop :=
  ∀ name, r.name = some name →
    match r.dueEntry with
    | some due => (s.skip = 0 ∨ (s.beforeName r).Leftover due) ∧ NameRight due.name due.type
    | none => (s.beforeName r).Passed name.bytes

/-- All records are read right. -/
def RecordsRight : LsofState → List LsofRecord → Prop
  | _, [] => True
  | s, r :: records => s.RecordRight r ∧ RecordsRight (s.behindRecord r) records

end LsofState

end LibGTop.FreeBsd
