import LibGTop.Linux.StatRecord

/-!
# The other readers of a process

`glibtop_get_proc_signal_s`, `glibtop_get_proc_kernel_s`,
`glibtop_get_proc_segment_s` and `glibtop_get_proc_mem_s` on the files of
`/proc/<pid>`. A file is absent when it cannot be opened or read.
-/

namespace LibGTop.Linux

open Base

/-- `glibtop_proc_signal`, `include/glibtop/procsignal.h:41–48`, with the first word of each mask;
the second one stays 0. -/
structure ProcSignal where
  flags : BitVec 64 := 0
  signal : BitVec 64 := 0
  blocked : BitVec 64 := 0
  sigignore : BitVec 64 := 0
  sigcatch : BitVec 64 := 0
  deriving DecidableEq

/-- `_glibtop_sysdeps_proc_signal`. -/
def sysdepsProcSignal : BitVec 64 := flagBits [0, 1, 2, 3]

/-- The fields behind the command, `sysdeps/linux/procsignal.c:56–63`. -/
def readSignals (p : List UInt8) : ProcSignal :=
  let signal := strtoull 0 (skipMultipleToken p 28)
  let blocked := strtoull 0 signal.2
  let sigignore := strtoull 0 blocked.2
  let sigcatch := strtoull 0 sigignore.2
  ⟨sysdepsProcSignal, signal.1, blocked.1, sigignore.1, sigcatch.1⟩

/-- `glibtop_get_proc_signal_s`, `sysdeps/linux/procsignal.c:44–64`. -/
def glibtopGetProcSignalS (stat : Option (List UInt8)) : ProcSignal :=
  match tryFileToBuffer bufsiz stat with
  | none => {}
  | some buffer =>
    match procStatAfterCmd buffer with
    | none => {}
    | some (_, p) => readSignals p

/-- `glibtop_proc_kernel`, `include/glibtop/prockernel.h:46–63`. -/
structure ProcKernel where
  flags : BitVec 64 := 0
  kFlags : BitVec 64 := 0
  minFlt : BitVec 64 := 0
  majFlt : BitVec 64 := 0
  cminFlt : BitVec 64 := 0
  cmajFlt : BitVec 64 := 0
  kstkEsp : BitVec 64 := 0
  kstkEip : BitVec 64 := 0
  nwchan : BitVec 64 := 0
  wchan : List UInt8 := []
  deriving DecidableEq

/-- `_glibtop_sysdeps_proc_kernel`. -/
def sysdepsProcKernel : BitVec 64 := flagBits [0, 1, 2, 3, 4, 5, 6, 7, 8]

/-- The fields behind the command and the wait channel, `sysdeps/linux/prockernel.c:59–78`; a comma
stands behind the call for the channel, so its result is not looked at. -/
def readKernel (wchan : Option (List UInt8)) (p : List UInt8) : ProcKernel :=
  let kFlags := strtoull 0 (skipMultipleToken p 6)
  let minFlt := strtoull 0 kFlags.2
  let cminFlt := strtoull 0 minFlt.2
  let majFlt := strtoull 0 cminFlt.2
  let cmajFlt := strtoull 0 majFlt.2
  let kstkEsp := strtoull 0 (skipMultipleToken cmajFlt.2 15)
  let kstkEip := strtoull 0 kstkEsp.2
  let nwchan := strtoull 0 (skipMultipleToken kstkEip.2 4)
  ⟨sysdepsProcKernel, kFlags.1, minFlt.1, majFlt.1, cminFlt.1, cmajFlt.1, kstkEsp.1, kstkEip.1,
    nwchan.1, (tryFileToBuffer 40 wchan).getD []⟩

/-- `glibtop_get_proc_kernel_s`, `sysdeps/linux/prockernel.c:45–79`. -/
def glibtopGetProcKernelS (stat wchan : Option (List UInt8)) : ProcKernel :=
  match tryFileToBuffer bufsiz stat with
  | none => {}
  | some buffer =>
    match procStatAfterCmd buffer with
    | none => {}
    | some (_, p) => readKernel wchan p

/-- `glibtop_proc_segment`, `include/glibtop/procsegment.h:45–57`. -/
structure ProcSegment where
  flags : BitVec 64 := 0
  textRss : BitVec 64 := 0
  shlibRss : BitVec 64 := 0
  dataRss : BitVec 64 := 0
  stackRss : BitVec 64 := 0
  dirtySize : BitVec 64 := 0
  startCode : BitVec 64 := 0
  endCode : BitVec 64 := 0
  startStack : BitVec 64 := 0
  deriving DecidableEq

/-- `_glibtop_sysdeps_proc_segment`. -/
def sysdepsProcSegment : BitVec 64 := flagBits [5, 6, 7]

/-- `_glibtop_sysdeps_proc_segment_statm`. -/
def sysdepsProcSegmentStatm : BitVec 64 := flagBits [0, 2, 4]

/-- The fields behind the command, `sysdeps/linux/procsegment.c:66–72`. -/
def readSegments (p : List UInt8) : ProcSegment :=
  let startCode := strtoull 0 (skipMultipleToken p 23)
  let endCode := strtoull 0 startCode.2
  let startStack := strtoull 0 endCode.2
  { flags := sysdepsProcSegment
    startCode := startCode.1
    endCode := endCode.1
    startStack := startStack.1 }

/-- The sizes in statm, `sysdeps/linux/procsegment.c:77–92`. -/
def readSegmentSizes (pagesize : BitVec 64) (buf : ProcSegment) (buffer : List UInt8) :
    ProcSegment :=
  let textRss := strtoull 0 (skipMultipleToken buffer 3)
  let shlibRss := strtoull 0 textRss.2
  let dataRss := strtoull 0 shlibRss.2
  let dirtySize := strtoull 0 dataRss.2
  { buf with
    textRss := textRss.1 * pagesize
    shlibRss := shlibRss.1 * pagesize
    dataRss := dataRss.1 * pagesize
    dirtySize := dirtySize.1 * pagesize
    flags := buf.flags ||| sysdepsProcSegmentStatm }

/-- `glibtop_get_proc_segment_s`, `sysdeps/linux/procsegment.c:51–93`. -/
def glibtopGetProcSegmentS (pagesize : BitVec 64) (stat statm : Option (List UInt8)) :
    ProcSegment :=
  match tryFileToBuffer bufsiz stat with
  | none => {}
  | some buffer =>
    match procStatAfterCmd buffer with
    | none => {}
    | some (_, p) =>
      match tryFileToBuffer bufsiz statm with
      | none => readSegments p
      | some buffer => readSegmentSizes pagesize (readSegments p) buffer

/-- `glibtop_proc_mem`, `include/glibtop/procmem.h:43–54`. -/
structure ProcMem where
  flags : BitVec 64 := 0
  size : BitVec 64 := 0
  vsize : BitVec 64 := 0
  resident : BitVec 64 := 0
  share : BitVec 64 := 0
  rss : BitVec 64 := 0
  rssRlim : BitVec 64 := 0
  deriving DecidableEq

/-- `_glibtop_sysdeps_proc_mem`. -/
def sysdepsProcMem : BitVec 64 := flagBits [0, 2, 3]

/-- The sizes in statm, `sysdeps/linux/procmem.c:121–142`. -/
def readMemory (pagesize : BitVec 64) (buffer : List UInt8) : ProcMem :=
  let size := strtoull 0 buffer
  let resident := strtoull 0 size.2
  let share := strtoull 0 resident.2
  { flags := sysdepsProcMem
    size := size.1 * pagesize
    vsize := size.1 * pagesize
    resident := resident.1 * pagesize
    share := share.1 * pagesize
    rss := resident.1 * pagesize
    rssRlim := ~~~0 }

/-- `glibtop_get_proc_mem_s`, `sysdeps/linux/procmem.c:81–144`. -/
def glibtopGetProcMemS (pagesize : BitVec 64) (statm : Option (List UInt8)) : ProcMem :=
  match tryFileToBuffer bufsiz statm with
  | none => {}
  | some buffer => readMemory pagesize buffer

/-- A line of `/proc/<pid>/statm`: numbers of pages. -/
structure StatmRecord where
  size : Nat
  resident : Nat
  share : Nat
  text : Nat
  lib : Nat
  data : Nat
  dirty : Nat

namespace StatmRecord

variable (s : StatmRecord)

/-- The numbers. -/
def values : List Int := [s.size, s.resident, s.share, s.text, s.lib, s.data, s.dirty]

/-- The text of the line. -/
def line : List UInt8 :=
  signedDecimal s.size ++ spaced ((s.values.drop 1).map signedDecimal) [10]

/-- A pointer is at a number: before its blank or at its first digit. -/
def AtNumber (k : Nat) (p : List UInt8) : Prop := At [10] ((s.values.drop k).map signedDecimal) p

variable {s}

/-- `strtoull` reads the number and goes to the next one. -/
theorem AtNumber.strtoull {k : Nat} {p : List UInt8} (h : s.AtNumber k p) :
    (Base.strtoull 0 p).1 = clampUnsigned (s.values.getD k 0) ∧
      s.AtNumber (k + 1) (Base.strtoull 0 p).2 := by
  obtain ⟨hv, hp⟩ := strtoull_at (.inl rfl) (noNumber_newline (.inl rfl)) h
  rw [headD_drop] at hv
  rw [List.drop_drop] at hp
  exact ⟨hv, hp⟩

theorem atNumber_line : s.AtNumber 0 s.line := .inside _ _

/-- `skip_multiple_token` goes as many numbers on. -/
theorem atNumber_skip (count : Nat) : s.AtNumber count (skipMultipleToken s.line count) := by
  have hs := at_skipMultipleToken (blank_newline []) rfl (isToken_numbers s.values)
    (atNumber_line (s := s)) count
  rwa [← List.map_drop] at hs

variable (s)

theorem noNul_line : 0 ∉ s.line := by
  have hw : ∀ value, (0 : UInt8) ∉ signedDecimal value := fun value h ↦
    absurd ((isToken_signedDecimal value).2 0 h) (by decide)
  rw [line, spaced, List.mem_append, List.mem_append, List.mem_flatMap]
  rintro (h | ⟨word, hword, h⟩ | h)
  · exact hw _ h
  · obtain ⟨value, -, rfl⟩ := List.mem_map.mp hword
    obtain h | h := List.mem_cons.mp h
    · exact absurd h (by decide)
    · exact hw _ h
  · exact absurd h (by decide)

/-- A line that fits is in the buffer as it is. -/
theorem tryFileToBuffer_line (h : s.line.length < bufsiz) :
    tryFileToBuffer bufsiz (some s.line) = some s.line :=
  tryFileToBuffer_eq s.noNul_line h

end StatmRecord

section

variable (r : StatRecord) (s : StatmRecord)

/-- The masks of signals: the fields 31 to 34. -/
def StatRecord.signals : ProcSignal :=
  ⟨sysdepsProcSignal, clampUnsigned (r.field 31), clampUnsigned (r.field 32),
    clampUnsigned (r.field 33), clampUnsigned (r.field 34)⟩

/-- The fields of the kernel, with the start of a wait channel. -/
def StatRecord.kernel (wchan : List UInt8) : ProcKernel where
  flags := sysdepsProcKernel
  kFlags := clampUnsigned (r.field 9)
  minFlt := clampUnsigned (r.field 10)
  cminFlt := clampUnsigned (r.field 11)
  majFlt := clampUnsigned (r.field 12)
  cmajFlt := clampUnsigned (r.field 13)
  kstkEsp := clampUnsigned (r.field 29)
  kstkEip := clampUnsigned (r.field 30)
  nwchan := clampUnsigned (r.field 35)
  wchan := wchan

/-- The addresses of the segments: the fields 26 to 28. -/
def StatRecord.segments : ProcSegment where
  flags := sysdepsProcSegment
  startCode := clampUnsigned (r.field 26)
  endCode := clampUnsigned (r.field 27)
  startStack := clampUnsigned (r.field 28)

/-- The sizes of the segments in bytes, besides their addresses. -/
def StatmRecord.segmentSizes (pagesize : BitVec 64) (buf : ProcSegment) : ProcSegment :=
  { buf with
    textRss := clampUnsigned s.text * pagesize
    shlibRss := clampUnsigned s.lib * pagesize
    dataRss := clampUnsigned s.data * pagesize
    dirtySize := clampUnsigned s.dirty * pagesize
    flags := buf.flags ||| sysdepsProcSegmentStatm }

/-- The sizes of a process in bytes; there is no number for the limit. -/
def StatmRecord.memory (pagesize : BitVec 64) : ProcMem where
  flags := sysdepsProcMem
  size := clampUnsigned s.size * pagesize
  vsize := clampUnsigned s.size * pagesize
  resident := clampUnsigned s.resident * pagesize
  share := clampUnsigned s.share * pagesize
  rss := clampUnsigned s.resident * pagesize
  rssRlim := ~~~0

theorem readSignals_after : readSignals r.after = r.signals := by
  have h31 := (r.atField_after 27).strtoull (.inl rfl) (by omega)
  have h32 := h31.2.strtoull (.inl rfl) (by omega)
  have h33 := h32.2.strtoull (.inl rfl) (by omega)
  have h34 := h33.2.strtoull (.inl rfl) (by omega)
  simp only [readSignals, StatRecord.signals, h31.1, h32.1, h33.1, h34.1]

theorem readKernel_after (wchan : Option (List UInt8)) :
    readKernel wchan r.after = r.kernel ((tryFileToBuffer 40 wchan).getD []) := by
  have h9 := (r.atField_after 5).strtoull (.inl rfl) (by omega)
  have h10 := h9.2.strtoull (.inl rfl) (by omega)
  have h11 := h10.2.strtoull (.inl rfl) (by omega)
  have h12 := h11.2.strtoull (.inl rfl) (by omega)
  have h13 := h12.2.strtoull (.inl rfl) (by omega)
  have h29 := (h13.2.skip (by omega) 15).strtoull (.inl rfl) (by omega)
  have h30 := h29.2.strtoull (.inl rfl) (by omega)
  have h35 := (h30.2.skip (by omega) 4).strtoull (.inl rfl) (by omega)
  simp only [readKernel, StatRecord.kernel, h9.1, h10.1, h11.1, h12.1, h13.1, h29.1, h30.1, h35.1]

theorem readSegments_after : readSegments r.after = r.segments := by
  have h26 := (r.atField_after 22).strtoull (.inl rfl) (by omega)
  have h27 := h26.2.strtoull (.inl rfl) (by omega)
  have h28 := h27.2.strtoull (.inl rfl) (by omega)
  simp only [readSegments, StatRecord.segments, h26.1, h27.1, h28.1]

theorem readSegmentSizes_line (pagesize : BitVec 64) (buf : ProcSegment) :
    readSegmentSizes pagesize buf s.line = s.segmentSizes pagesize buf := by
  have h3 := (StatmRecord.atNumber_skip (s := s) 3).strtoull
  have h4 := h3.2.strtoull
  have h5 := h4.2.strtoull
  have h6 := h5.2.strtoull
  simp only [readSegmentSizes, h3.1, h4.1, h5.1, h6.1]
  rfl

theorem readMemory_line (pagesize : BitVec 64) :
    readMemory pagesize s.line = s.memory pagesize := by
  have h0 := (StatmRecord.atNumber_line (s := s)).strtoull
  have h1 := h0.2.strtoull
  have h2 := h1.2.strtoull
  simp only [readMemory, h0.1, h1.1, h2.1]
  rfl

end

end LibGTop.Linux
