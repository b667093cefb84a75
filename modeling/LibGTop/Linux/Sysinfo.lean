import LibGTop.Base.Splits
import LibGTop.Linux.Cpu
import Mathlib.Logic.Function.Basic

/-!
# The descriptions of the CPUs

`init_sysinfo` (`sysdeps/linux/sysinfo.c:36–105`) on the text of `/proc/cpuinfo`.
-/

namespace LibGTop.Linux

open Base

/-- `glibtop_entry`, `include/glibtop/sysinfo.h:44–49`. A label is absent whose memory has been
freed. -/
structure SysinfoEntry where
  labels : List (Option (List UInt8)) := []
  values : List UInt8 → Option (List UInt8) := fun _ ↦ none

/-- `glibtop_sysinfo`, `include/glibtop/sysinfo.h:51–56`, with its `ncpu` entries. -/
structure Sysinfo where
  flags : BitVec 64 := 0
  cpuinfo : List SysinfoEntry := []

/-- `_glibtop_sysdeps_sysinfo`. -/
def sysdepsSysinfo : BitVec 64 := flagBits [1]

/-- `g_ptr_array_add` and `g_hash_table_insert`, which frees the key when the table has it. -/
def SysinfoEntry.insert (entry : SysinfoEntry) (pair : List UInt8 × List UInt8) : SysinfoEntry :=
  { labels := entry.labels ++ [if (entry.values pair.1).isSome then none else some pair.1]
    values := Function.update entry.values pair.1 (some pair.2) }

/-- The strings of a list two by two. -/
def pairUp : List (List UInt8) → List (List UInt8 × List UInt8)
  | key :: value :: parts => (key, value) :: pairUp parts
  | _ => []

/-- The entry that is made of a paragraph, `sysdeps/linux/sysinfo.c:69–97`. -/
def readParagraph (paragraph : List UInt8) : SysinfoEntry :=
  ((pairUp (gStrsplitSet [58, 10] paragraph)).map (Prod.map gStrstrip gStrstrip)).foldl
    SysinfoEntry.insert {}

/-- `"processor"`. -/
def processorName : List UInt8 := asciiBytes "processor".toList

/-- The paragraphs an entry is made of in the loop of `sysdeps/linux/sysinfo.c:54–99`, from a number
of entries on. -/
def takenParagraphs : List (List UInt8) → Nat → List (List UInt8)
  | [], _ => []
  | paragraph :: paragraphs, ncpu =>
    if paragraph = [] then []
    else if glibtopNcpu ≤ ncpu then []
    else if (strstr processorName paragraph).isNone then takenParagraphs paragraphs ncpu
    else paragraph :: takenParagraphs paragraphs (ncpu + 1)

/-- `init_sysinfo`, `sysdeps/linux/sysinfo.c:36–105`; absent when the file cannot be read, which
ends the process. -/
def initSysinfo (sysinfo : Sysinfo) (cpuinfo : Option (List UInt8)) : Option Sysinfo :=
  if sysinfo.flags ≠ 0 then some sysinfo
  else cpuinfo.map fun text ↦
    { flags := sysdepsSysinfo
      cpuinfo := (takenParagraphs (gStrsplit 10 [10] (cString text)) 0).map readParagraph }

/-- A line: the text before its first colon, and the text behind it. -/
structure InfoLine where
  name : { text : List UInt8 // ∀ b ∈ text, b ≠ 0 ∧ b ≠ 10 ∧ b ≠ 58 }
  rest : { text : List UInt8 // ∀ b ∈ text, b ≠ 0 ∧ b ≠ 10 }
  deriving DecidableEq

/-- The key of the line. -/
def InfoLine.key (line : InfoLine) : List UInt8 := gStrstrip line.name.1

/-- The value of the line. -/
def InfoLine.value (line : InfoLine) : List UInt8 := gStrstrip line.rest.1

/-- The text of the line. -/
def InfoLine.text (line : InfoLine) : List UInt8 := line.name.1 ++ 58 :: line.rest.1

/-- A paragraph, with its first line. -/
structure InfoParagraph where
  first : InfoLine
  others : List InfoLine
  deriving DecidableEq

namespace InfoParagraph

/-- The lines. -/
def lines (p : InfoParagraph) : List InfoLine := p.first :: p.others

/-- The text, without the newline of the last line. -/
def text (p : InfoParagraph) : List UInt8 :=
  p.first.text ++ p.others.flatMap fun line ↦ 10 :: line.text

/-- The paragraph is that of a processor. -/
def HasProcessor (p : InfoParagraph) : Prop := ∃ line ∈ p.lines, line.key = processorName

/-- The values have no colons, and the keys are different from each other. -/
def Plain (p : InfoParagraph) : Prop :=
  (∀ line ∈ p.lines, 58 ∉ line.rest.1) ∧ (p.lines.map InfoLine.key).Nodup

end InfoParagraph

/-- How the text ends behind the last line. -/
inductive InfoEnding
  | none
  | newline
  | blankLine

/-- The ending of the last paragraph. -/
def InfoEnding.text : InfoEnding → List UInt8
  | none => []
  | newline => [10]
  | blankLine => [10, 10]

/-- The text of paragraphs. -/
def cpuinfoText (ending : InfoEnding) : List InfoParagraph → List UInt8
  | [] => []
  | [p] => p.text ++ ending.text
  | p :: q :: ps => p.text ++ 10 :: 10 :: cpuinfoText ending (q :: ps)

/-- The entry describes the paragraph. -/
def Describes (p : InfoParagraph) (entry : SysinfoEntry) : Prop :=
  entry.labels = p.lines.map (fun line ↦ some line.key) ∧
    ∀ line ∈ p.lines, entry.values line.key = some line.value

section

variable {entry : SysinfoEntry} {pairs : List (List UInt8 × List UInt8)}

theorem labels_foldl (h : (pairs.map Prod.fst).Nodup)
    (hnew : ∀ pair ∈ pairs, entry.values pair.1 = none) :
    (pairs.foldl SysinfoEntry.insert entry).labels =
      entry.labels ++ pairs.map fun pair ↦ some pair.1 := by
  induction pairs generalizing entry with
  | nil => exact (List.append_nil _).symm
  | cons pair pairs ih =>
    obtain ⟨hfirst, hnew⟩ := List.forall_mem_cons.mp hnew
    rw [List.map_cons, List.nodup_cons] at h
    have hnew' : ∀ other ∈ pairs, (entry.insert pair).values other.1 = none := by
      intro other hother
      have hne : other.1 ≠ pair.1 := fun he ↦ h.1 (he ▸ List.mem_map_of_mem hother)
      change Function.update entry.values pair.1 (some pair.2) other.1 = none
      rw [Function.update_of_ne hne]
      exact hnew other hother
    rw [List.foldl_cons, ih h.2 hnew']
    simp [SysinfoEntry.insert, hfirst]

/-- A label whose memory is freed is one of the entry for good. -/
theorem none_mem_labels (h : none ∈ entry.labels) :
    none ∈ (pairs.foldl SysinfoEntry.insert entry).labels := by
  induction pairs generalizing entry with
  | nil => exact h
  | cons pair pairs ih => exact ih (List.mem_append_left _ h)

/-- A key that comes twice is freed. -/
theorem none_mem_labels_of_not_nodup
    (h : ¬(pairs.map Prod.fst).Nodup ∨ ∃ pair ∈ pairs, (entry.values pair.1).isSome) :
    none ∈ (pairs.foldl SysinfoEntry.insert entry).labels := by
  induction pairs generalizing entry with
  | nil => exact absurd h (by simp)
  | cons pair pairs ih =>
    by_cases hsome : (entry.values pair.1).isSome = true
    · have hfreed : none ∈ (entry.insert pair).labels := by
        rw [SysinfoEntry.insert, if_pos hsome]
        exact List.mem_append_right entry.labels (List.mem_singleton_self none)
      rw [List.foldl_cons]
      exact none_mem_labels hfreed
    · refine ih ?_
      rw [List.map_cons, List.nodup_cons, not_and_or, not_not] at h
      obtain (hmem | hdup) | ⟨other, hother, hv⟩ := h
      · obtain ⟨other, hother, he⟩ := List.mem_map.mp hmem
        refine .inr ⟨other, hother, ?_⟩
        change (Function.update entry.values pair.1 (some pair.2) other.1).isSome
        rw [he, Function.update_self]
        rfl
      · exact .inl hdup
      · obtain rfl | hother := List.mem_cons.mp hother
        · exact absurd hv hsome
        · refine .inr ⟨other, hother, ?_⟩
          change (Function.update entry.values pair.1 (some pair.2) other.1).isSome
          by_cases he : other.1 = pair.1
          · rw [he, Function.update_self]
            rfl
          · rwa [Function.update_of_ne he]

/-- A value is that of a pair. -/
theorem mem_of_values_foldl {key value : List UInt8}
    (h : (pairs.foldl SysinfoEntry.insert entry).values key = some value) :
    entry.values key = some value ∨ (key, value) ∈ pairs := by
  induction pairs generalizing entry with
  | nil => exact .inl h
  | cons pair pairs ih =>
    obtain h | h := ih h
    · change Function.update entry.values pair.1 (some pair.2) key = some value at h
      by_cases he : key = pair.1
      · rw [he, Function.update_self] at h
        rw [he, ← Option.some.inj h]
        exact .inr List.mem_cons_self
      · rw [Function.update_of_ne he] at h
        exact .inl h
    · exact .inr (List.mem_cons_of_mem pair h)

/-- Where the keys are different, each has the value of its pair. -/
theorem values_foldl (h : (pairs.map Prod.fst).Nodup) {pair : List UInt8 × List UInt8}
    (hmem : pair ∈ pairs) :
    (pairs.foldl SysinfoEntry.insert entry).values pair.1 = some pair.2 := by
  have hkeep : ∀ (pairs : List (List UInt8 × List UInt8)) (entry : SysinfoEntry)
      {key : List UInt8}, key ∉ pairs.map Prod.fst →
        (pairs.foldl SysinfoEntry.insert entry).values key = entry.values key := by
    intro pairs
    induction pairs with
    | nil => exact fun _ _ _ ↦ rfl
    | cons other pairs ih =>
      intro entry key hkey
      rw [List.map_cons, List.mem_cons, not_or] at hkey
      rw [List.foldl_cons, ih _ hkey.2]
      exact Function.update_of_ne hkey.1 ..
  induction pairs generalizing entry with
  | nil => exact absurd hmem List.not_mem_nil
  | cons other pairs ih =>
    rw [List.map_cons, List.nodup_cons] at h
    rw [List.foldl_cons]
    obtain rfl | hmem := List.mem_cons.mp hmem
    · rw [hkeep _ _ h.1]
      exact Function.update_self ..
    · exact ih h.2 hmem

end

end LibGTop.Linux
