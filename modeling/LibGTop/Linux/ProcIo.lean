import LibGTop.Linux.Readers

/-!
# The input and output of a process

`glibtop_get_proc_io_s` (`sysdeps/linux/procio.c:43–70`) on the lines of
`/proc/<pid>/io`, each a label and a number.
-/

namespace LibGTop.Linux

open Base

/-- `glibtop_proc_io`, `include/glibtop/procio.h:57–67`, without what is reserved. -/
structure ProcIo where
  flags : BitVec 64 := 0
  diskRchar : BitVec 64 := 0
  diskWchar : BitVec 64 := 0
  diskRbytes : BitVec 64 := 0
  diskWbytes : BitVec 64 := 0
  deriving DecidableEq

/-- `_glibtop_sysdeps_proc_io`. -/
def sysdepsProcIo : BitVec 64 := flagBits [0, 1, 2, 3]

/-- `glibtop_get_proc_io_s`, `sysdeps/linux/procio.c:43–70`; the file is absent when it cannot be
opened or read. -/
def glibtopGetProcIoS (osVersionCode : Nat) (file : Option (List UInt8)) : ProcIo :=
  if osVersionCode < linuxVersionCode 2 6 20 then {}
  else
    match tryFileToBuffer bufsiz file with
    | none => {}
    | some buffer =>
      let rchar := strtoull 10 (skipToken buffer)
      let p := skipLine rchar.2
      let wchar := strtoull 10 (skipToken p)
      let p := skipLine (skipLine (skipLine wchar.2))
      let rbytes := strtoull 10 (skipToken p)
      let p := skipLine rbytes.2
      let wbytes := strtoull 10 (skipToken p)
      ⟨sysdepsProcIo, rchar.1, wchar.1, rbytes.1, wbytes.1⟩

/-- A line of the file. -/
structure IoLine where
  label : { word : List UInt8 // IsToken word }
  value : Nat

/-- The text of a line. -/
def IoLine.text (l : IoLine) : List UInt8 := l.label.1 ++ 32 :: decimal l.value

/-- The text of the file. -/
def ioText (ls : List IoLine) : List UInt8 := text (ls.map IoLine.text)

/-- The number in a line, and 0 where the file has ended. -/
def ioValue (ls : List IoLine) (k : Nat) : Nat := (ls.map IoLine.value).getD k 0

theorem IoLine.ne_of_mem_text {l : IoLine} {b : UInt8} (h : b ∈ l.text) : b ≠ 0 ∧ b ≠ 10 := by
  rw [text, List.mem_append, List.mem_cons] at h
  obtain h | rfl | h := h
  · have hb := l.label.2.2 b h
    refine ⟨?_, ?_⟩ <;> rintro rfl <;> exact absurd hb (by decide)
  · decide
  · have hb := (mem_decimal h).1
    refine ⟨?_, ?_⟩ <;> rintro rfl <;> exact absurd hb (by decide)

theorem ioText_cons (l : IoLine) (ls : List IoLine) :
    ioText (l :: ls) = l.text ++ 10 :: ioText ls := by
  rw [ioText, List.map_cons, text_cons]
  rfl

theorem zero_notMem_ioText (ls : List IoLine) : 0 ∉ ioText ls := by
  induction ls with
  | nil => exact List.not_mem_nil
  | cons l ls ih =>
    rw [ioText_cons, List.mem_append, List.mem_cons]
    rintro (hl | h10 | hls)
    · exact (IoLine.ne_of_mem_text hl).1 rfl
    · exact absurd h10 (by decide)
    · exact ih hls

/-- `skip_line` goes one line on. -/
theorem skipLine_ioText (ls : List IoLine) : skipLine (ioText ls) = ioText (ls.drop 1) := by
  cases ls with
  | nil => rfl
  | cons l ls =>
    rw [ioText_cons, skipLine_append fun b hb ↦ IoLine.ne_of_mem_text hb]
    rfl

/-- Behind the label of a line `g_ascii_strtoull` reads its number and stops at its end. -/
theorem strtoull_ioText (ls : List IoLine) :
    (strtoull 10 (skipToken (ioText ls))).1 = clampUnsigned (ioValue ls 0) ∧
      skipLine (strtoull 10 (skipToken (ioText ls))).2 = ioText (ls.drop 1) := by
  cases ls with
  | nil => exact ⟨by decide, rfl⟩
  | cons l ls =>
    have hblank : Blank (32 :: (decimal l.value ++ 10 :: ioText ls)) := blank_cons (by decide) _
    have hskip : skipToken (ioText (l :: ls)) = decimal l.value ++ 10 :: ioText ls := by
      rw [ioText_cons, IoLine.text, List.append_assoc, List.cons_append,
        skipToken_token l.label.2 hblank, nextToken_blank]
      exact (isToken_decimal l.value).head _
    have hread : strtoull 10 (decimal l.value ++ 10 :: ioText ls) =
        (clampUnsigned l.value, 10 :: ioText ls) :=
      strtoull_decimal (.inr rfl) (List.forall_mem_nil _) l.value ((stops_cons 10 _).mpr (by decide))
    rw [hskip, hread]
    exact ⟨rfl, rfl⟩

/-- The numbers of the first, second, fifth and sixth line are stored, whatever the labels are and
also where the file has fewer lines. -/
theorem glibtopGetProcIoS_lines (osVersionCode : Nat) (ls : List IoLine)
    (h : (ioText ls).length < bufsiz) :
    glibtopGetProcIoS osVersionCode (some (ioText ls)) =
      if osVersionCode < linuxVersionCode 2 6 20 then {}
      else ⟨sysdepsProcIo, clampUnsigned (ioValue ls 0), clampUnsigned (ioValue ls 1),
        clampUnsigned (ioValue ls 4), clampUnsigned (ioValue ls 5)⟩ := by
  have hv : ∀ n, ioValue (ls.drop n) 0 = ioValue ls n := by
    intro n
    simp [ioValue, List.getD_eq_getElem?_getD, List.getElem?_drop]
  obtain ⟨h0, hl0⟩ := strtoull_ioText ls
  obtain ⟨h1, hl1⟩ := strtoull_ioText (ls.drop 1)
  obtain ⟨h4, hl4⟩ := strtoull_ioText (ls.drop 4)
  obtain ⟨h5, -⟩ := strtoull_ioText (ls.drop 5)
  rw [List.drop_drop] at hl1 hl4
  rw [glibtopGetProcIoS, tryFileToBuffer_eq (zero_notMem_ioText ls) h]
  simp only [hl0, hl1, skipLine_ioText, List.drop_drop, h0, h1, h4, hl4, h5, hv, Nat.reduceAdd]

/-- Two lines, `rchar: 12` and `wchar: 7`. -/
theorem glibtopGetProcIoS_lines_short :
    let ls : List IoLine :=
      [⟨⟨[114, 99, 104, 97, 114, 58], by decide⟩, 12⟩, ⟨⟨[119, 99, 104, 97, 114, 58], by decide⟩, 7⟩]
    glibtopGetProcIoS (linuxVersionCode 6 1 0) (some (ioText ls)) =
      if linuxVersionCode 6 1 0 < linuxVersionCode 2 6 20 then {}
      else ⟨sysdepsProcIo, clampUnsigned (ioValue ls 0), clampUnsigned (ioValue ls 1),
        clampUnsigned (ioValue ls 4), clampUnsigned (ioValue ls 5)⟩ :=
  glibtopGetProcIoS_lines (linuxVersionCode 6 1 0) _ (by decide +kernel)

end LibGTop.Linux
