import LibGTop.Linux.Readers

/-!
# The status file of a process

What `glibtop_get_proc_uid_s` takes from `/proc/<pid>/status` as the kernel writes
it: labelled lines, of which the reader looks for those of the numbers of the
process and of its user and group. The first line has the command in it and is
passed over.
-/

namespace LibGTop.Linux

open Base

/-- The labels the reader looks for. -/
def pidLabel : List UInt8 := asciiBytes "Pid:".toList

@[inherit_doc pidLabel] def ppidLabel : List UInt8 := asciiBytes "PPid:".toList

@[inherit_doc pidLabel] def uidLabel : List UInt8 := asciiBytes "Uid:".toList

@[inherit_doc pidLabel] def gidLabel : List UInt8 := asciiBytes "Gid:".toList

/-- Lines that are passed over when a label is looked for. -/
def Passed (label : List UInt8) (ls : List (List UInt8)) : Prop :=
  ∀ line ∈ ls, 10 ∉ line ∧ ¬label <+: line

instance (label : List UInt8) (ls : List (List UInt8)) : Decidable (Passed label ls) :=
  inferInstanceAs (Decidable (∀ line ∈ ls, _))

/-- A status file; `moreUids` is the rest of the line of the user numbers, and `rest` the file
behind the label of the group numbers. -/
structure StatusFile where
  name : List UInt8
  name_line : 10 ∉ name
  beforePid : List (List UInt8)
  beforePid_passed : Passed pidLabel beforePid
  pid : Int
  ppid : Int
  beforeUid : List (List UInt8)
  beforeUid_passed : Passed uidLabel beforeUid
  uid : UInt32
  euid : UInt32
  moreUids : List UInt8
  moreUids_line : 10 ∉ moreUids
  moreUids_stops : Stops moreUids
  beforeGid : List (List UInt8)
  beforeGid_passed : Passed gidLabel beforeGid
  rest : List UInt8

namespace StatusFile

variable (f : StatusFile)

/-- The file from the lines before the group numbers on. -/
def fromUids (rest : List UInt8) : List UInt8 :=
  f.moreUids ++ 10 :: (Base.text f.beforeGid ++ (gidLabel ++ rest))

/-- The file from the end of the number of the parent on. -/
def fromPpid (rest : List UInt8) : List UInt8 :=
  10 :: (Base.text f.beforeUid ++ (uidLabel ++ 9 :: (signedDecimal f.uid.toNat ++
    9 :: (signedDecimal f.euid.toNat ++ f.fromUids rest))))

/-- The file up to the label of the group numbers, and what stands behind it. -/
def upTo (rest : List UInt8) : List UInt8 :=
  f.name ++ 10 :: (Base.text f.beforePid ++ (pidLabel ++ 9 :: (signedDecimal f.pid ++
    10 :: (ppidLabel ++ 9 :: (signedDecimal f.ppid ++ f.fromPpid rest)))))

/-- The text of a status file. -/
def text : List UInt8 := f.upTo f.rest

/-- `skip_token` passes a label over, with the blanks around it. -/
theorem skipToken_label {label : List UInt8} (h : IsToken label) (value : Int)
    (rest : List UInt8) :
    skipToken (10 :: (label ++ 9 :: (signedDecimal value ++ rest))) =
      signedDecimal value ++ rest := by
  have hb : Blank (9 :: (signedDecimal value ++ rest)) := blank_cons (by decide) _
  have h10 : nextToken (10 :: (label ++ 9 :: (signedDecimal value ++ rest))) =
      nextToken (label ++ 9 :: (signedDecimal value ++ rest)) :=
    List.dropWhile_cons_of_pos (by decide)
  have h9 : nextToken (9 :: (signedDecimal value ++ rest)) = nextToken (signedDecimal value ++ rest) :=
    List.dropWhile_cons_of_pos (by decide)
  have hs := skipToken_token h hb
  rw [skipToken, h.head] at hs
  rw [skipToken, h10, h.head, hs, h9]
  exact (isToken_signedDecimal value).head rest

private theorem strtol_number (value : Int) {rest : List UInt8} (hs : Stops rest) :
    strtol 0 (signedDecimal value ++ rest) = (clampLong value, rest) :=
  strtol_signedDecimal (.inl rfl) spaces_nil value hs

private theorem strtol_next (value : Int) {rest : List UInt8} (hs : Stops rest) :
    strtol 0 (9 :: (signedDecimal value ++ rest)) = (clampLong value, rest) :=
  strtol_signedDecimal (.inl rfl) (spaces_singleton 9 (by decide)) value hs

private theorem clampLong_user (user : UInt32) : clampLong user.toNat = user.toNat := by
  have hu := user.toNat_lt
  unfold clampLong
  omega

private theorem stops_fromUids (rest : List UInt8) : Stops (f.fromUids rest) := by
  cases hm : f.moreUids with
  | nil =>
    rw [fromUids, hm, List.nil_append, stops_cons]
    decide
  | cons b more =>
    have hs := f.moreUids_stops
    rw [hm, stops_cons] at hs
    rw [fromUids, hm, List.cons_append, stops_cons]
    exact hs

/-- The user numbers are taken from their line, whatever follows the label of the group numbers. -/
theorem readStatus_upTo (rest : List UInt8) :
    ∃ gid egid, readStatus (f.upTo rest) = ({
      flags := sysdepsProcUid
      pid := toInt32 (clampLong f.pid)
      ppid := toInt32 (clampLong f.ppid)
      uid := toInt32 f.uid.toNat
      euid := toInt32 f.euid.toNat
      gid := gid
      egid := egid }, true) := by
  have hpid : strstr (asciiBytes ['\n', 'P', 'i', 'd', ':']) (f.upTo rest) =
      some (10 :: (pidLabel ++ 9 :: (signedDecimal f.pid ++
        10 :: (ppidLabel ++ 9 :: (signedDecimal f.ppid ++ f.fromPpid rest))))) :=
    strstr_text (by decide) f.name f.beforePid f.name_line f.beforePid_passed
      (List.prefix_append _ _)
  have huid : strstr (asciiBytes ['\n', 'U', 'i', 'd', ':']) (f.fromPpid rest) =
      some (10 :: (uidLabel ++ 9 :: (signedDecimal f.uid.toNat ++
        9 :: (signedDecimal f.euid.toNat ++ f.fromUids rest)))) :=
    strstr_text (by decide) [] f.beforeUid List.not_mem_nil f.beforeUid_passed
      (List.prefix_append _ _)
  have hgid : strstr (asciiBytes ['\n', 'G', 'i', 'd', ':']) (f.fromUids rest) =
      some (10 :: (gidLabel ++ rest)) :=
    strstr_text (by decide) f.moreUids f.beforeGid f.moreUids_line f.beforeGid_passed
      (List.prefix_append _ _)
  have htpid : IsToken pidLabel := by decide
  have htppid : IsToken ppidLabel := by decide
  have htuid : IsToken uidLabel := by decide
  have hppid : strtol 0 (signedDecimal f.ppid ++ f.fromPpid rest) =
      (clampLong f.ppid, f.fromPpid rest) :=
    strtol_number f.ppid (.cons 10 (by decide) _)
  simp only [readStatus, hpid, skipToken_label htpid, strtol_number f.pid (.cons 10 (by decide) _),
    skipToken_label htppid, hppid, huid, skipToken_label htuid,
    strtol_number f.uid.toNat (.cons 9 (by decide) _),
    strtol_next f.euid.toNat (f.stops_fromUids rest), hgid, clampLong_user]
  exact ⟨_, _, rfl⟩

/-- What the reader needs of the file is in the buffer. -/
structure Fits : Prop where
  length_lt : (f.upTo []).length < bufsiz
  noNul : 0 ∉ f.upTo []

/-- The buffer holds the file up to the group numbers, and as much of the rest as there is room
for. -/
theorem tryFileToBuffer_text (h : f.Fits) :
    ∃ rest, tryFileToBuffer bufsiz (some f.text) = some (f.upTo rest) := by
  have hu : ∀ rest, f.upTo rest = f.upTo [] ++ rest := by
    intro rest
    simp [upTo, fromPpid, fromUids]
  have hl := h.length_lt
  refine ⟨cString (f.rest.take (bufsiz - 1 - (f.upTo []).length)), ?_⟩
  have hz : ∀ b ∈ f.upTo [], (b != 0) = true := fun b hb ↦ bne_iff_ne.mpr fun he ↦
    h.noNul (he ▸ hb)
  rw [tryFileToBuffer, Option.map_some, text, hu f.rest, List.take_append,
    List.take_of_length_le (by omega), cString, List.takeWhile_append_of_pos hz, hu (cString _)]
  rfl

end StatusFile

end LibGTop.Linux
