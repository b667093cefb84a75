import LibGTop.Base.Tokens
import LibGTop.Linux.Readers

/-!
# The load average

`glibtop_get_loadavg_s` (`sysdeps/linux/loadavg.c:48–81`) on the text of `/proc/loadavg`, with
`g_ascii_strtod` as it is given. A look behind the terminator of the text has no result.
-/

namespace LibGTop.Linux

open Base

/-- `glibtop_loadavg`, `include/glibtop/loadavg.h:39–46`. -/
structure Loadavg (Value : Type) where
  flags : BitVec 64
  loadavg : Value × Value × Value
  nrRunning : BitVec 64 := 0
  nrTasks : BitVec 64 := 0
  lastPid : BitVec 64 := 0

/-- `_glibtop_sysdeps_loadavg` and, for the tasks, `_glibtop_sysdeps_loadavg_tasks`. -/
def sysdepsLoadavg : BitVec 64 := flagBits [0]

@[inherit_doc sysdepsLoadavg] def sysdepsLoadavgTasks : BitVec 64 := flagBits [1, 2, 3]

/-- The numbers of tasks, `sysdeps/linux/loadavg.c:65–78`; nothing where the function returns before
they are read, and no result where it looks behind the terminator. -/
def readTasks (old : List UInt8) : Option (Option (BitVec 64 × BitVec 64 × BitVec 64)) :=
  if (old.dropWhile (isDigitIn 10)).head?.any (· ≠ 47) then some none
  else
    let (nrRunning, p) := strtoull 0 old
    match p with
    | [] => none
    | _ :: p =>
      let (nrTasks, p) := strtoull 0 p
      let (lastPid, _) := strtoull 0 p
      some (some (nrRunning, nrTasks, lastPid))

section

variable {Value : Type} (strtod : List UInt8 → Value × List UInt8)

/-- What follows the three numbers and the blanks behind them. -/
def afterLoads (buffer : List UInt8) : List UInt8 :=
  nextToken (strtod (strtod (strtod buffer).2).2).2

/-- `glibtop_get_loadavg_s`, `sysdeps/linux/loadavg.c:48–81`; absent when the file cannot be read,
which ends the process. -/
def glibtopGetLoadavgS (file : Option (List UInt8)) : Option (Option (Loadavg Value)) :=
  (tryFileToBuffer bufsiz file).map fun buffer ↦
    let first := strtod buffer
    let second := strtod first.2
    let third := strtod second.2
    let buf := { flags := sysdepsLoadavg, loadavg := (first.1, second.1, third.1) }
    (readTasks (nextToken third.2)).map fun tasks ↦
      match tasks with
      | none => buf
      | some (nrRunning, nrTasks, lastPid) =>
        { buf with
          nrRunning := nrRunning
          nrTasks := nrTasks
          lastPid := lastPid
          flags := buf.flags ||| sysdepsLoadavgTasks }

end

/-- The three numbers are there: digits before a slash, and two numbers behind it. -/
def HasTasks (p : List UInt8) : Prop :=
  ∃ digits behind, p = digits ++ 47 :: behind ∧ digits ≠ [] ∧ (∀ b ∈ digits, isDigitIn 10 b) ∧
    ∃ tasks ∈ scanNumber 0 behind, (scanNumber 0 tasks.2.2).isSome

/-- Behind the digits is a byte that is no slash. -/
def Degrades (p : List UInt8) : Prop := (p.dropWhile (isDigitIn 10)).head?.any (· ≠ 47)

instance (p : List UInt8) : Decidable (Degrades p) := inferInstanceAs (Decidable (_ = true))

section

variable {p : List UInt8}

/-- The base of a number is one of three, and a slash is behind its prefix. -/
theorem numberBase_zero (h : 47 ∈ p) :
    (numberBase 0 p).1 ≤ 16 ∧ 47 ∈ (numberBase 0 p).2 := by
  unfold numberBase
  split
  · next x d rest =>
    split
    · next hx =>
      have hne : (47 : UInt8) ≠ x := fun he ↦ absurd (he ▸ hx.2.1) (by decide)
      refine ⟨Nat.le_refl 16, ?_⟩
      simpa [hne] using h
    · exact ⟨by simp, h⟩
  · exact ⟨by simp, h⟩
  · exact ⟨by simp, h⟩

/-- A number ends before a slash. -/
theorem slash_mem_strtoull (h : 47 ∈ p) : 47 ∈ (strtoull 0 p).2 := by
  have hdigits : ∀ {negative : Bool} {text : List UInt8}, 47 ∈ text →
      ∀ result ∈ scanDigits 0 negative text, 47 ∈ result.2.2 := by
    intro negative text hm result hresult
    obtain ⟨hbase, hmem⟩ := numberBase_zero hm
    rw [scanDigits] at hresult
    simp only at hresult
    split at hresult
    · exact absurd hresult (Option.not_mem_none result)
    · rw [← Option.some.inj hresult]
      have hvalue : digitValue 47 = 36 := by decide
      refine mem_dropWhile hmem ?_
      rw [isDigitIn, hvalue, decide_eq_false_iff_not]
      omega
  have hscan : ∀ result ∈ scanNumber 0 p, 47 ∈ result.2.2 := by
    have hd : 47 ∈ p.dropWhile isSpace := mem_dropWhile h (by decide)
    unfold scanNumber
    split
    · next rest he => exact hdigits (by simpa [he] using hd)
    · next rest he => exact hdigits (by simpa [he] using hd)
    · exact hdigits hd
  rw [strtoull]
  split
  · next negative magnitude rest he => exact hscan _ he
  · exact h

/-- Where a slash follows, or what ends the text before, nothing is read behind the text. -/
theorem readTasks_slash {digits behind : List UInt8} (hd : ∀ b ∈ digits, isDigitIn 10 b) :
    ∃ tasks, readTasks (digits ++ 47 :: behind) = some (some tasks) := by
  have hdrop : (digits ++ 47 :: behind).dropWhile (isDigitIn 10) = 47 :: behind := by
    rw [List.dropWhile_append_of_pos hd, List.dropWhile_cons_of_neg (by decide)]
  have hslash : 47 ∈ (strtoull 0 (digits ++ 47 :: behind)).2 :=
    slash_mem_strtoull (List.mem_append_right digits List.mem_cons_self)
  rw [readTasks, hdrop, if_neg (by simp)]
  obtain ⟨c, rest, hrest⟩ := List.exists_cons_of_ne_nil (List.ne_nil_of_mem hslash)
  simp only [hrest]
  exact ⟨_, rfl⟩

/-- The numbers are taken to be there only if they are exactly where they are, or where another byte
than a slash is behind the digits. -/
theorem readTasks_right_iff (p : List UInt8) :
    (∃ tasks, readTasks p = some tasks ∧ (tasks.isSome → HasTasks p)) ↔
      Degrades p ∨ HasTasks p := by
  by_cases hdeg : Degrades p
  · have hread : readTasks p = some none := if_pos hdeg
    exact iff_of_true ⟨none, hread, nofun⟩ (.inl hdeg)
  rw [or_iff_right hdeg]
  constructor
  · rintro ⟨tasks, hread, htasks⟩
    refine htasks ?_
    rw [readTasks, if_neg (show ¬_ = true from hdeg)] at hread
    simp only at hread
    split at hread
    · exact absurd hread nofun
    · exact Option.some.inj hread ▸ rfl
  · rintro h
    obtain ⟨digits, behind, rfl, -, hd, -⟩ := id h
    obtain ⟨tasks, hread⟩ := @readTasks_slash digits behind hd
    exact ⟨some tasks, hread, fun _ ↦ h⟩

end

/-- The function does not look behind the terminator, and sets the flags of the numbers of tasks
only if they are there. -/
def LoadavgRight {Value : Type} (strtod : List UInt8 → Value × List UInt8) (text : List UInt8) :
    Prop :=
  ∃ buf, glibtopGetLoadavgS strtod (some text) = some (some buf) ∧
    ((∃ bit ∈ [1, 2, 3], hasFlag buf.flags bit) → HasTasks (afterLoads strtod text))

/-- A text that fits is read right exactly when behind the three numbers are digits and a byte that
is no slash, or the numbers of tasks. -/
theorem glibtopGetLoadavgS_right_iff {Value : Type} (strtod : List UInt8 → Value × List UInt8)
    {text : List UInt8} (hn : 0 ∉ text) (hfits : text.length < bufsiz) :
    LoadavgRight strtod text ↔
      Degrades (afterLoads strtod text) ∨ HasTasks (afterLoads strtod text) := by
  rw [← readTasks_right_iff, LoadavgRight, glibtopGetLoadavgS, tryFileToBuffer_eq hn hfits,
    Option.map_some]
  change (∃ buf, some ((readTasks (afterLoads strtod text)).map _) = some (some buf) ∧ _) ↔ _
  cases readTasks (afterLoads strtod text) with
  | none => exact iff_of_false (fun ⟨_, h, _⟩ ↦ nomatch h) (fun ⟨_, h, _⟩ ↦ nomatch h)
  | some tasks =>
    simp only [Option.map_some, Option.some.injEq, exists_eq_left']
    refine imp_congr ?_ Iff.rfl
    cases tasks with
    | none =>
      have hflags : ¬∃ bit ∈ [1, 2, 3], hasFlag sysdepsLoadavg bit := by decide
      exact iff_of_false hflags nofun
    | some tasks =>
      have hflag : hasFlag (sysdepsLoadavg ||| sysdepsLoadavgTasks) 1 := by decide
      exact iff_of_true ⟨1, List.mem_cons_self, hflag⟩ rfl

/-- A `strtod` for numbers without a sign and an exponent. -/
def strtodDecimal (text : List UInt8) : Rat × List UInt8 :=
  let text := text.dropWhile isSpace
  let whole := text.takeWhile (isDigitIn 10)
  match text.dropWhile (isDigitIn 10) with
  | 46 :: rest =>
    let fraction := rest.takeWhile (isDigitIn 10)
    (digitsValue 10 whole + digitsValue 10 fraction / 10 ^ fraction.length,
      rest.dropWhile (isDigitIn 10))
  | rest => (digitsValue 10 whole, rest)

/-- A text with all numbers. -/
def loadavgText : List UInt8 := asciiBytes "0.20 0.18 0.12 1/80 11206\n".toList

/-- A text with the three numbers only. -/
def shortLoadavgText : List UInt8 := asciiBytes "0.20 0.18 0.12\n".toList

theorem loadavgRight_loadavgText : LoadavgRight strtodDecimal loadavgText := by
  refine (glibtopGetLoadavgS_right_iff strtodDecimal (by decide) (by decide)).mpr (.inr ?_)
  have hafter : afterLoads strtodDecimal loadavgText =
      [49] ++ 47 :: asciiBytes "80 11206\n".toList := by decide
  exact ⟨[49], _, hafter, by decide, by decide, _, rfl, rfl⟩

/-- Where nothing follows the three numbers, the function looks behind the terminator. -/
theorem not_loadavgRight_shortLoadavgText :
    ¬∀ text : List UInt8, 0 ∉ text → text.length < bufsiz → LoadavgRight strtodDecimal text := by
  intro h
  obtain ⟨buf, hrun, -⟩ := h shortLoadavgText (by decide) (by decide)
  have hread : glibtopGetLoadavgS strtodDecimal (some shortLoadavgText) = some none := rfl
  rw [hread] at hrun
  exact absurd hrun nofun

end LibGTop.Linux
