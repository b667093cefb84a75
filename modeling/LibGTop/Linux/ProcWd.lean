import LibGTop.Base.FirstOccurrences
import LibGTop.Linux.Readers

/-!
# The working directories of a process

`glibtop_get_proc_wd_s` (`sysdeps/linux/procwd.c:41–98`): the root directory and the executable of a
process, and the working directories of its threads without repetitions.
-/

namespace LibGTop.Linux

open Base

/-- `glibtop_proc_wd`, `include/glibtop/procwd.h:41–47`. -/
structure ProcWd where
  flags : BitVec 64 := 0
  number : BitVec 32 := 0
  root : List UInt8 := []
  exe : List UInt8 := []
  deriving DecidableEq

/-- `safe_readlink` for a buffer of any size: the string in it; absent when the link cannot be
read. -/
def readlinkTo (size : Nat) (link : Option (List UInt8)) : Option (List UInt8) :=
  link.map fun target ↦ cString (target.take (size - 1))

/-- `is_in`. -/
def isIn (dirs : List (List UInt8)) (str : List UInt8) : Bool := dirs.any (· == str)

/-- The loop over the directory of the threads, of each of which there are the name and what its
link `cwd` leads to. -/
def addTasks (dirs : List (List UInt8)) :
    List (List UInt8 × Option (List UInt8)) → List (List UInt8)
  | [] => dirs
  | (name, link) :: task =>
    if name.head?.any (isDigitIn 10) then
      match readlinkTo 256 link with
      | none => addTasks dirs task
      | some dir => addTasks (if isIn dirs dir then dirs else dirs ++ [dir]) task
    else addTasks dirs task

/-- `glibtop_get_proc_wd_s`, on what the links `root`, `exe` and `cwd` lead to and on the directory
of the threads; an absent one cannot be read. -/
def glibtopGetProcWdS (root exe cwd : Option (List UInt8))
    (task : Option (List (List UInt8 × Option (List UInt8)))) : ProcWd × List (List UInt8) :=
  let root := readlinkTo 216 root
  let exe := readlinkTo 216 exe
  let dirs := (readlinkTo 256 cwd).toList
  let dirs := match task with
    | none => dirs
    | some task => addTasks dirs task
  ({ flags := (if root.isSome then flagBits [1] else 0) ||| (if exe.isSome then flagBits [2] else 0)
        ||| flagBits [0]
     number := BitVec.ofNat 32 dirs.length
     root := root.getD []
     exe := exe.getD [] }, dirs)

/-- The directory of a thread, which has a number for a name. -/
def taskDir (t : List UInt8 × Option (List UInt8)) : Option (List UInt8) :=
  if t.1.head?.any (isDigitIn 10) then readlinkTo 256 t.2 else none

/-- The directories that can be read, each cut to the buffer: that of the process and those of the
threads. -/
def workDirs (cwd : Option (List UInt8))
    (task : Option (List (List UInt8 × Option (List UInt8)))) : List (List UInt8) :=
  (readlinkTo 256 cwd).toList ++ (task.getD []).filterMap taskDir

theorem isIn_iff {dirs : List (List UInt8)} {str : List UInt8} : isIn dirs str ↔ str ∈ dirs := by
  simp [isIn]

/-- One directory more. -/
theorem addIn_firstsBy (seen : List (List UInt8)) (dir : List UInt8) :
    (if isIn (firstsBy id seen) dir then firstsBy id seen else firstsBy id seen ++ [dir]) =
      firstsBy id (seen ++ [dir]) := by
  have hmem := key_mem_firstsBy id dir seen
  rw [List.map_id, List.map_id] at hmem
  rw [firstsBy_concat, List.map_id]
  by_cases hi : dir ∈ seen
  · rw [if_pos (isIn_iff.mpr (hmem.mpr hi)), id, if_pos hi, List.append_nil]
  · rw [if_neg fun h ↦ hi (hmem.mp (isIn_iff.mp h)), id, if_neg hi]

/-- The loop goes on with the first occurrences. -/
theorem addTasks_firstsBy (task : List (List UInt8 × Option (List UInt8))) :
    ∀ seen, addTasks (firstsBy id seen) task = firstsBy id (seen ++ task.filterMap taskDir) := by
  induction task with
  | nil => exact fun seen ↦ by rw [List.filterMap_nil, List.append_nil]; rfl
  | cons t task ih =>
    intro seen
    rw [addTasks]
    by_cases hd : t.1.head?.any (isDigitIn 10)
    · have ht : taskDir t = readlinkTo 256 t.2 := if_pos hd
      rw [if_pos hd]
      cases hlink : readlinkTo 256 t.2 with
      | none =>
        rw [List.filterMap_cons_none (ht.trans hlink)]
        exact ih seen
      | some dir =>
        rw [List.filterMap_cons_some (ht.trans hlink), List.append_cons, ← ih, ← addIn_firstsBy]
    · have ht : taskDir t = none := if_neg hd
      rw [if_neg hd, List.filterMap_cons_none ht]
      exact ih seen

/-- The first occurrences of a list have no repetition. -/
theorem nodup_firstsBy_id (dirs : List (List UInt8)) : (firstsBy id dirs).Nodup := by
  induction dirs with
  | nil => exact List.nodup_nil
  | cons dir dirs ih =>
    rw [firstsBy, List.nodup_cons]
    refine ⟨fun hm ↦ ?_, ih.filter _⟩
    simpa using (List.mem_filter.mp hm).2

theorem procWd_flags : ∀ root exe : Bool,
    let flags := (if root then flagBits [1] else 0) ||| (if exe then flagBits [2] else 0) |||
      flagBits [0]
    hasFlag flags 0 ∧ (hasFlag flags 1 ↔ root) ∧ (hasFlag flags 2 ↔ exe) := by decide

/-- Each directory that can be read is listed once, as far as it fits the buffer, in the order in
which they are first read, that of the process before those of its threads; the number is the length
of the list, and the flags are set for the links that can be read. -/
theorem glibtopGetProcWdS_dirs (root exe cwd : Option (List UInt8))
    (task : Option (List (List UInt8 × Option (List UInt8)))) :
    ∃ buf dirs, glibtopGetProcWdS root exe cwd task = (buf, dirs) ∧
      dirs = firstsBy id (workDirs cwd task) ∧ dirs.Nodup ∧
      (∀ dir, dir ∈ dirs ↔ dir ∈ workDirs cwd task) ∧
      buf.number = BitVec.ofNat 32 dirs.length ∧ hasFlag buf.flags 0 ∧
      (hasFlag buf.flags 1 ↔ root.isSome) ∧ (hasFlag buf.flags 2 ↔ exe.isSome) := by
  have hcwd : (readlinkTo 256 cwd).toList = firstsBy id (readlinkTo 256 cwd).toList := by
    cases readlinkTo 256 cwd <;> rfl
  have hdirs : (glibtopGetProcWdS root exe cwd task).2 = firstsBy id (workDirs cwd task) := by
    cases task with
    | none =>
      rw [workDirs, Option.getD_none, List.filterMap_nil, List.append_nil, ← hcwd]
      rfl
    | some task =>
      rw [workDirs, Option.getD_some, ← addTasks_firstsBy, ← hcwd]
      rfl
  have hmem : ∀ dir, dir ∈ firstsBy id (workDirs cwd task) ↔ dir ∈ workDirs cwd task := by
    intro dir
    have h := key_mem_firstsBy id dir (workDirs cwd task)
    rwa [List.map_id, List.map_id] at h
  have hflags := procWd_flags (readlinkTo 216 root).isSome (readlinkTo 216 exe).isSome
  rw [readlinkTo, readlinkTo, Option.isSome_map, Option.isSome_map] at hflags
  refine ⟨(glibtopGetProcWdS root exe cwd task).1, (glibtopGetProcWdS root exe cwd task).2, rfl,
    hdirs, ?_, ?_, rfl, ?_⟩
  · rw [hdirs]
    exact nodup_firstsBy_id _
  · rw [hdirs]
    exact hmem
  · simp only [glibtopGetProcWdS, readlinkTo, Option.isSome_map]
    exact hflags

end LibGTop.Linux
