import LibGTop.FreeBsd.LsofRecords
import LibGTop.Linux.ProcWd

/-!
# The working directory of a process on FreeBSD

`parse_output` of `sysdeps/freebsd/procwd.c:47–97`, which the releases without
`KERN_PROC_FILEDESC` use on the output of lsof. It takes the first name at or behind a record `cwd`
for a working directory, and the first at or behind a record `rtd` for the root.
-/

namespace LibGTop.FreeBsd

open Base Linux

/-- The variables of `parse_output`, with the directories, and what it has stored in `buf`. -/
structure WdState where
  nextwd : Bool := false
  nextrtd : Bool := false
  havertd : Bool := false
  dirs : List (List UInt8) := []
  root : List UInt8 := []
  flags : BitVec 64 := 0

/-- `fcwd`. -/
def cwdLine : List UInt8 := [102, 99, 119, 100]

/-- `frtd`. -/
def rtdLine : List UInt8 := [102, 114, 116, 100]

/-- A line with a name. -/
def readWdName (s : WdState) (name : List UInt8) : WdState :=
  let s := if s.nextwd then { s with dirs := s.dirs ++ [name], nextwd := false } else s
  if s.nextrtd && !s.havertd then
    { s with
      root := name.take 215
      flags := s.flags ||| flagBits [1]
      nextrtd := false
      havertd := true }
  else s

/-- The body of the loop. -/
def readWdLine (s : WdState) (line : List UInt8) : WdState :=
  if line.length < 2 then s
  else if line = cwdLine then { s with nextwd := true }
  else if line = rtdLine then { s with nextrtd := true }
  else
    match line with
    | 110 :: name => readWdName s name
    | _ => s

/-- `parse_output`. -/
def parseWdOutput (output : List UInt8) : WdState := (gStrsplit 10 [] output).foldl readWdLine {}

namespace LsofRecord

/-- The record is of the working directory. -/
def isCwd (r : LsofRecord) : Bool := 102 :: r.descriptor.text = cwdLine

/-- The record is of the root directory. -/
def isRtd (r : LsofRecord) : Bool := 102 :: r.descriptor.text = rtdLine

end LsofRecord

/-- The name of a record of a working directory. -/
def LsofRecord.cwdName (r : LsofRecord) : Option (List UInt8) :=
  if r.isCwd then r.name.map FieldText.bytes else none

/-- The names of the records of working directories. -/
def cwdNames (records : List LsofRecord) : List (List UInt8) :=
  records.filterMap LsofRecord.cwdName

/-- The first name at or behind the first record of a root directory. -/
def rootName (records : List LsofRecord) : Option (List UInt8) :=
  (records.dropWhile fun r ↦ !r.isRtd).findSome? fun r ↦ r.name.map FieldText.bytes

/-- No name is taken for that of a working directory before it: what follows such a record without a
name is, without one too or not, again such a record when the name comes. -/
def CwdsNamed : Bool → List LsofRecord → Prop
  | _, [] => True
  | pending, r :: records =>
    match r.name with
    | none => CwdsNamed (pending || r.isCwd) records
    | some _ => (pending → r.isCwd) ∧ CwdsNamed false records

/-- The names that are taken for working directories. -/
def takenNames : Bool → List LsofRecord → List (List UInt8)
  | _, [] => []
  | pending, r :: records =>
    match r.name with
    | none => takenNames (pending || r.isCwd) records
    | some name =>
      if pending || r.isCwd then name.bytes :: takenNames false records
      else takenNames false records

/-- The name that is taken for the root directory. -/
def takenRoot : Bool → List LsofRecord → Option (List UInt8)
  | _, [] => none
  | pending, r :: records =>
    match r.name with
    | none => takenRoot (pending || r.isRtd) records
    | some name => if pending || r.isRtd then some name.bytes else takenRoot false records

/-- What a record does. -/
def behindWd (s : WdState) (r : LsofRecord) : WdState :=
  let s := { s with nextwd := s.nextwd || r.isCwd, nextrtd := s.nextrtd || r.isRtd }
  match r.name with
  | none => s
  | some name => readWdName s name.bytes

section

variable {s : WdState}

theorem readWdLine_descriptor (s : WdState) (r : LsofRecord) :
    readWdLine s (102 :: r.descriptor.text) =
      { s with nextwd := s.nextwd || r.isCwd, nextrtd := s.nextrtd || r.isRtd } := by
  have hne : r.descriptor.text ≠ [] := by
    cases r.descriptor with
    | number fd => exact decimal_ne_nil fd.value
    | word w => exact w.ne_nil
  have hlen : ¬(102 :: r.descriptor.text).length < 2 := by
    have := List.length_pos_iff.mpr hne
    rw [List.length_cons]
    omega
  unfold readWdLine
  rw [if_neg hlen]
  by_cases hc : 102 :: r.descriptor.text = cwdLine
  · have hr : r.isRtd = false := by
      rw [LsofRecord.isRtd, hc]
      decide
    rw [if_pos hc, hr, LsofRecord.isCwd, decide_eq_true hc, Bool.or_true, Bool.or_false]
  · rw [if_neg hc, LsofRecord.isCwd, decide_eq_false hc, Bool.or_false]
    by_cases hr : 102 :: r.descriptor.text = rtdLine
    · rw [if_pos hr, LsofRecord.isRtd, decide_eq_true hr, Bool.or_true]
    · rw [if_neg hr, LsofRecord.isRtd, decide_eq_false hr, Bool.or_false]
      rfl

theorem readWdLine_field (s : WdState) {b : UInt8} (hb : b ≠ 102) (text : FieldText) :
    readWdLine s (b :: text.bytes) = if b = 110 then readWdName s text.bytes else s := by
  have hlen : ¬(b :: text.bytes).length < 2 := by
    have := List.length_pos_iff.mpr text.ne_nil
    rw [List.length_cons]
    omega
  have hc : b :: text.bytes ≠ cwdLine := fun h ↦ hb (List.cons.inj h).1
  have hr : b :: text.bytes ≠ rtdLine := fun h ↦ hb (List.cons.inj h).1
  unfold readWdLine
  rw [if_neg hlen, if_neg hc, if_neg hr]
  by_cases hn : b = 110
  · subst hn
    rfl
  · rw [if_neg hn]
    split
    · next h => exact absurd (List.cons.inj h).1 hn
    · rfl

theorem foldl_lines (s : WdState) (r : LsofRecord) :
    r.lines.foldl readWdLine s = behindWd s r := by
  obtain ⟨d, type, name⟩ := r
  rw [LsofRecord.lines, List.foldl_cons, readWdLine_descriptor, List.foldl_append]
  cases type with
  | none =>
    cases name with
    | none => rfl
    | some name => exact (readWdLine_field _ (by decide) name).trans (if_pos rfl)
  | some type =>
    have ht := fun s ↦ (readWdLine_field s (b := 116) (by decide) type).trans (if_neg (by decide))
    cases name with
    | none => exact ht _
    | some name =>
      change readWdLine (readWdLine _ (116 :: type.bytes)) (110 :: name.bytes) = _
      rw [ht]
      exact (readWdLine_field _ (by decide) name).trans (if_pos rfl)

/-- The records of an output, behind any others. -/
theorem foldl_records (records : List LsofRecord) : ∀ s,
    let s' := (records.flatMap LsofRecord.lines).foldl readWdLine s
    s'.dirs = s.dirs ++ takenNames s.nextwd records ∧
      (s.havertd = true → s'.root = s.root ∧ s'.flags = s.flags) ∧
      (s.havertd = false →
        s'.root = (takenRoot s.nextrtd records).elim s.root (·.take 215) ∧
        s'.flags = (takenRoot s.nextrtd records).elim s.flags fun _ ↦ s.flags ||| flagBits [1]) := by
  induction records with
  | nil => exact fun s ↦ ⟨(List.append_nil _).symm, fun _ ↦ ⟨rfl, rfl⟩, fun _ ↦ ⟨rfl, rfl⟩⟩
  | cons r records ih =>
    intro s
    rw [List.flatMap_cons, List.foldl_append, foldl_lines]
    obtain ⟨hd, hh, hn⟩ := ih (behindWd s r)
    cases hname : r.name with
    | none =>
      have hs : behindWd s r =
          { s with nextwd := s.nextwd || r.isCwd, nextrtd := s.nextrtd || r.isRtd } := by
        rw [behindWd, hname]
      rw [hs] at hd hh hn
      rw [hs, takenNames, takenRoot, hname]
      exact ⟨hd, hh, hn⟩
    | some name =>
      have hs : behindWd s r =
          readWdName { s with nextwd := s.nextwd || r.isCwd, nextrtd := s.nextrtd || r.isRtd }
            name.bytes := by
        rw [behindWd, hname]
      rw [hs] at hd hh hn
      rw [hs, takenNames, takenRoot, hname]
      cases hw : s.nextwd || r.isCwd <;> cases hr : s.nextrtd || r.isRtd <;>
        cases hv : s.havertd <;> simp_all [readWdName]


end

section

variable {r : LsofRecord} {records : List LsofRecord}

theorem cwdNames_of_none (h : r.name = none) : cwdNames (r :: records) = cwdNames records := by
  refine List.filterMap_cons_none ?_
  rw [LsofRecord.cwdName, h]
  exact ite_self _

theorem cwdNames_of_not_isCwd (h : r.isCwd = false) :
    cwdNames (r :: records) = cwdNames records :=
  List.filterMap_cons_none (if_neg (by rw [h]; exact Bool.false_ne_true))

theorem cwdNames_of_isCwd {name : FieldText} (h : r.isCwd = true) (hn : r.name = some name) :
    cwdNames (r :: records) = name.bytes :: cwdNames records := by
  refine List.filterMap_cons_some ?_
  rw [LsofRecord.cwdName, if_pos h, hn]
  rfl

end

/-- The names that are taken are those of the working directories and perhaps others. -/
theorem length_cwdNames_le (records : List LsofRecord) :
    ∀ pending, (cwdNames records).length ≤ (takenNames pending records).length := by
  induction records with
  | nil => exact fun _ ↦ Nat.le_refl 0
  | cons r records ih =>
    intro pending
    rw [takenNames]
    cases hname : r.name with
    | none =>
      rw [cwdNames_of_none hname]
      exact ih _
    | some name =>
      have hrest := ih false
      cases hc : r.isCwd with
      | false =>
        rw [cwdNames_of_not_isCwd hc]
        cases pending with
        | false => exact hrest
        | true => exact Nat.le_succ_of_le hrest
      | true =>
        rw [cwdNames_of_isCwd hc hname, Bool.or_true]
        exact Nat.succ_le_succ hrest

/-- They are no others if no name is taken for that of a working directory before it. -/
theorem takenNames_iff (records : List LsofRecord) :
    ∀ pending, takenNames pending records = cwdNames records ↔ CwdsNamed pending records := by
  induction records with
  | nil => exact fun _ ↦ iff_of_true rfl trivial
  | cons r records ih =>
    intro pending
    rw [takenNames, CwdsNamed]
    cases hname : r.name with
    | none =>
      rw [cwdNames_of_none hname]
      exact ih _
    | some name =>
      cases hc : r.isCwd with
      | false =>
        rw [cwdNames_of_not_isCwd hc]
        cases pending with
        | false => simpa using ih false
        | true =>
          refine iff_of_false (fun h ↦ ?_) fun h ↦ Bool.false_ne_true (h.1 rfl)
          have hle := length_cwdNames_le records false
          rw [← h] at hle
          exact Nat.not_succ_le_self _ hle
      | true =>
        rw [cwdNames_of_isCwd hc hname, Bool.or_true]
        simpa using ih false

/-- The name that is taken is the first behind a root directory. -/
theorem takenRoot_eq (records : List LsofRecord) :
    takenRoot true records = records.findSome? (fun r ↦ r.name.map FieldText.bytes) ∧
      takenRoot false records = rootName records := by
  induction records with
  | nil => exact ⟨rfl, rfl⟩
  | cons r records ih =>
    rw [takenRoot, takenRoot, rootName, List.findSome?_cons, Bool.true_or, Bool.false_or]
    cases hname : r.name with
    | none =>
      cases hr : r.isRtd with
      | false =>
        rw [List.dropWhile_cons_of_pos (by rw [hr]; rfl)]
        exact ih
      | true =>
        rw [List.dropWhile_cons_of_neg (by rw [hr]; exact Bool.false_ne_true), List.findSome?_cons,
          hname]
        exact ⟨ih.1, ih.1⟩
    | some name =>
      cases hr : r.isRtd with
      | false =>
        rw [List.dropWhile_cons_of_pos (by rw [hr]; rfl)]
        exact ⟨rfl, ih.2⟩
      | true =>
        rw [List.dropWhile_cons_of_neg (by rw [hr]; exact Bool.false_ne_true), List.findSome?_cons,
          hname]
        exact ⟨rfl, rfl⟩

/-- On the output of lsof for any records the directories are the names of the working directories
if and only if no name comes behind a working directory without one, before that of another; and the
root is the first name at or behind a root directory, as far as it fits. -/
theorem parseWdOutput_records (process : Option FieldText) (records : List LsofRecord) :
    ((parseWdOutput (outputText process records)).dirs = cwdNames records ↔
        CwdsNamed false records) ∧
      (parseWdOutput (outputText process records)).root =
        (rootName records).elim [] (·.take 215) ∧
      (hasFlag (parseWdOutput (outputText process records)).flags 1 ↔
        (rootName records).isSome) := by
  have hrun : parseWdOutput (outputText process records) =
      (records.flatMap LsofRecord.lines).foldl readWdLine {} := by
    by_cases hnil : outputLines process records = []
    · have hrecords := (List.append_eq_nil_iff.mp hnil).2
      rw [parseWdOutput, outputText, hnil, hrecords]
      rfl
    · rw [parseWdOutput, gStrsplit_outputText hnil, outputLines, List.append_assoc,
        List.foldl_append, List.foldl_append]
      cases process with
      | none => rfl
      | some process =>
        have hp := (readWdLine_field {} (b := 112) (by decide) process).trans (if_neg (by decide))
        change readWdLine ((records.flatMap LsofRecord.lines).foldl readWdLine
          (readWdLine {} (112 :: process.bytes))) [] = _
        rw [hp]
        rfl
  obtain ⟨hd, -, hroot⟩ := foldl_records records {}
  obtain ⟨hr, hf⟩ := hroot rfl
  rw [hrun, hd, hr, hf, (takenRoot_eq records).2, List.nil_append]
  refine ⟨takenNames_iff records false, rfl, ?_⟩
  cases rootName records with
  | none => decide
  | some name =>
    have hflag : hasFlag (0 ||| flagBits [1]) 1 := by decide
    exact iff_of_true hflag rfl

end LibGTop.FreeBsd
