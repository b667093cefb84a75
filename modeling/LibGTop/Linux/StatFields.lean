import LibGTop.Linux.StatRecord

/-!
# The fields the readers take

What `glibtop_get_proc_state_s`, `glibtop_get_proc_uid_s` and
`glibtop_get_proc_time_s` return for a stat record, field by field, whatever its
command is.
-/

namespace LibGTop.Linux

open Base

variable (r : StatRecord)

/-- What `glibtop_get_proc_state_s` returns for a record. -/
theorem glibtopGetProcStateS_text (h : r.text.length < bufsiz) (uid gid : UInt32) :
    glibtopGetProcStateS (some (uid, gid)) (some r.text) = .ok {
      flags := sysdepsProcStateUid ||| sysdepsProcState
      cmd := r.comm.take 39
      state := processState [r.state]
      uid := toInt32 uid.toNat
      gid := toInt32 gid.toNat
      lastProcessor := asInt (r.field 39) } := by
  have hp := (r.atField_state 35).strtol (.inr rfl) (by omega)
  have hs : processState (nextToken r.after) = processState [r.state] := by
    rw [r.nextToken_after]
    rfl
  have hl : toInt32 (strtol 10 (skipMultipleToken (nextToken r.after) 36)).1 =
      asInt (r.field 39) := by
    rw [hp.1, toInt32_clampLong]
  simp only [glibtopGetProcStateS, r.tryFileToBuffer_text h, r.procStatAfterCmd_text,
    r.skipToken_before, hs, hl]

/-- What the second part of `glibtop_get_proc_uid_s` stores for a record; kernels before 1.3.39
count the priority and the nice value the other way. -/
theorem readStatFields_after (osVersionCode : Nat) (buf : ProcUid) :
    readStatFields osVersionCode buf r.after = { buf with
      pgrp := asInt (r.field 5)
      session := asInt (r.field 6)
      tty := if asInt (r.field 7) = 0 then -1 else asInt (r.field 7)
      tpgid := asInt (r.field 8)
      priority :=
        if osVersionCode < linuxVersionCode 1 3 39 then toInt32 (30 - asInt (r.field 18))
        else asInt (r.field 18)
      nice :=
        if osVersionCode < linuxVersionCode 1 3 39 then toInt32 (15 - asInt (r.field 19))
        else asInt (r.field 19)
      flags := buf.flags ||| sysdepsProcUidStat } := by
  have h5 := (r.atField_after 1).strtol (.inl rfl) (by omega)
  have h6 := h5.2.strtol (.inl rfl) (by omega)
  have h7 := h6.2.strtol (.inl rfl) (by omega)
  have h8 := h7.2.strtol (.inl rfl) (by omega)
  have h18 := (h8.2.skip (by omega) 9).strtol (.inl rfl) (by omega)
  have h19 := h18.2.strtol (.inl rfl) (by omega)
  have hv : linuxVersionCode 1 1 30 ≤ linuxVersionCode 1 3 39 := by decide
  simp only [readStatFields, h5.1, h6.1, h7.1, h8.1, h18.1, h19.1, toInt32_clampLong]
  by_cases ho : osVersionCode < linuxVersionCode 1 3 39
  · simp only [ho, if_true]
    split <;> rfl
  · have hl : ¬osVersionCode < linuxVersionCode 1 1 30 := by omega
    simp only [ho, hl, false_and, if_false]
    split <;> rfl

/-- Once the status file has been read, `glibtop_get_proc_uid_s` returns the fields of the
record. -/
theorem glibtopGetProcUidS_text (h : r.text.length < bufsiz) (osVersionCode : Nat)
    {status : Option (List UInt8)} {buffer : List UInt8}
    (hf : tryFileToBuffer bufsiz status = some buffer) (hs : (readStatus buffer).2 = true) :
    glibtopGetProcUidS osVersionCode status (some r.text) =
      readStatFields osVersionCode (readStatus buffer).1 r.after := by
  simp only [glibtopGetProcUidS, hf, hs, r.tryFileToBuffer_text h, r.procStatAfterCmd_text,
    if_true]

/-- What `glibtop_get_proc_time_s` stores for a record before it looks at the CPUs. -/
theorem readTimes_after (boot : BitVec 64) :
    (readTimes boot r.after).1 = {
      flags := sysdepsProcTime
      startTime := boot + clampUnsigned (r.field 22) / 100
      rtime := clampUnsigned (r.field 14) + clampUnsigned (r.field 15)
      utime := clampUnsigned (r.field 14)
      stime := clampUnsigned (r.field 15)
      cutime := clampUnsigned (r.field 16)
      cstime := clampUnsigned (r.field 17)
      itRealValue := clampUnsigned (r.field 21)
      frequency := 100 } := by
  have h14 := (r.atField_after 10).strtoull (.inl rfl) (by omega)
  have h15 := h14.2.strtoull (.inl rfl) (by omega)
  have h16 := h15.2.strtoull (.inl rfl) (by omega)
  have h17 := h16.2.strtoull (.inl rfl) (by omega)
  have h21 := (h17.2.skip (by omega) 3).strtoull (.inl rfl) (by omega)
  have h22 := h21.2.strtoull (.inl rfl) (by omega)
  simp only [readTimes, h14.1, h15.1, h16.1, h17.1, h21.1, h22.1]

/-- The fields of `glibtop_get_proc_time_s` do not depend on what the CPU file gives. -/
theorem glibtopGetProcTimeS_text (h : r.text.length < bufsiz) (ncpu : Int) (boot : BitVec 64)
    (stack : List UInt8) (cpu : Option (List UInt8)) :
    ∃ flags xcpu, glibtopGetProcTimeS ncpu (some boot) stack (some r.text) cpu =
      some { (readTimes boot r.after).1 with flags := flags, xcpu := xcpu } := by
  simp only [glibtopGetProcTimeS, r.tryFileToBuffer_text h, r.procStatAfterCmd_text,
    Option.map_some]
  generalize readTimes boot r.after = times
  by_cases hn : ncpu = 0
  · rw [if_pos hn]
    exact ⟨times.1.flags, times.1.xcpu, rfl⟩
  · rw [if_neg hn]
    cases tryFileToBuffer bufsiz cpu with
    | none => exact ⟨times.1.flags, times.1.xcpu, rfl⟩
    | some _ => exact ⟨_, _, rfl⟩

private theorem notMem_btime {c : UInt8} (h : c ∉ asciiBytes ['b', 't', 'i', 'm', 'e'])
    (h32 : c ≠ 32) (h48 : c.toNat < 48) (btime : Nat) :
    c ∉ asciiBytes ['b', 't', 'i', 'm', 'e'] ++ 32 :: decimal btime := by
  intro hm
  obtain hm | hm := List.mem_append.mp hm
  · exact h hm
  · obtain hm | hm := List.mem_cons.mp hm
    · exact h32 hm
    · exact notMem_decimal h48 btime hm

/-- The number in the line of the boot time. -/
private theorem strtoull_btime (btime : Nat) :
    (strtoull 10 (skipToken (asciiBytes ['b', 't', 'i', 'm', 'e'] ++ 32 :: decimal btime ++
      [10]))).1 = clampUnsigned btime := by
  have ht : IsToken (asciiBytes ['b', 't', 'i', 'm', 'e']) := by decide
  have hs : 32 :: decimal btime ++ [10] = spaced ([(btime : Int)].map signedDecimal) [10] := by
    rw [List.map_singleton, spaced_cons, spaced_nil]
    rfl
  have hb : Blank (spaced ([(btime : Int)].map signedDecimal) [10]) := blank_spaced (blank_newline []) _
  rw [List.append_assoc, hs, skipToken_token ht hb]
  exact (strtoull_at (.inr rfl) (noNumber_newline (.inr rfl))
    (at_nextToken (isToken_numbers _))).1

/-- The boot time is the number in the first line of `/proc/stat` that starts with its label. -/
theorem getBootTime_text (ls : List (List UInt8))
    (hl : ∀ line ∈ ls, 10 ∉ line ∧ ¬asciiBytes ['b', 't', 'i', 'm', 'e'] <+: line) (btime : Nat)
    (rest : List UInt8) :
    getBootTime 0 (some (text ls ++ (asciiBytes ['b', 't', 'i', 'm', 'e'] ++ 32 :: decimal btime ++
      10 :: rest))) = some (clampUnsigned btime) := by
  rw [getBootTime, if_pos rfl, Option.map_some]
  congr 1
  induction ls with
  | nil =>
    have hp : (asciiBytes ['b', 't', 'i', 'm', 'e']).isPrefixOf
        (asciiBytes ['b', 't', 'i', 'm', 'e'] ++ 32 :: decimal btime ++ [10]) := by
      rw [List.isPrefixOf_iff_prefix, List.append_assoc]
      exact List.prefix_append _ _
    have hz : 0 ∉ asciiBytes ['b', 't', 'i', 'm', 'e'] ++ 32 :: decimal btime ++ [10] := by
      rw [List.mem_append, not_or]
      exact ⟨notMem_btime (by decide) (by decide) (by decide) btime, by decide⟩
    rw [text_nil, List.nil_append,
      lines_append (notMem_btime (by decide) (by decide) (by decide) btime), readBootTime,
      if_pos hp, cString_eq_self hz]
    exact strtoull_btime btime
  | cons line ls ih =>
    obtain ⟨⟨hn, hp⟩, hl⟩ := List.forall_mem_cons.mp hl
    have hf : ¬(asciiBytes ['b', 't', 'i', 'm', 'e']).isPrefixOf (line ++ [10]) := fun h ↦
      hp (prefix_of_prefix_line (by decide) (List.isPrefixOf_iff_prefix.mp h))
    rw [text_cons, List.append_assoc, List.cons_append, lines_append hn, readBootTime, if_neg hf]
    exact ih hl

/-- The readers return the fields of a record as their types hold them, whatever the command is. -/
theorem stat_fields_read (h : r.text.length < bufsiz) (osVersionCode : Nat)
    (hv : linuxVersionCode 1 3 39 ≤ osVersionCode) (uid gid : UInt32)
    (status : Option (List UInt8)) (buffer : List UInt8)
    (hf : tryFileToBuffer bufsiz status = some buffer) (hs : (readStatus buffer).2 = true)
    (cached boot : BitVec 64) (procStat : Option (List UInt8))
    (hb : getBootTime cached procStat = some boot) (ncpu : Int) (stack : List UInt8)
    (cpu : Option (List UInt8)) :
    (∃ state, glibtopGetProcStateS (some (uid, gid)) (some r.text) = .ok state ∧
      state.state = processState [r.state] ∧ state.lastProcessor = asInt (r.field 39) ∧
      state.cmd = r.comm.take 39) ∧
    (∃ procuid, glibtopGetProcUidS osVersionCode status (some r.text) = procuid ∧
      procuid.pgrp = asInt (r.field 5) ∧ procuid.session = asInt (r.field 6) ∧
      procuid.tty = (if asInt (r.field 7) = 0 then -1 else asInt (r.field 7)) ∧
      procuid.tpgid = asInt (r.field 8) ∧ procuid.priority = asInt (r.field 18) ∧
      procuid.nice = asInt (r.field 19)) ∧
    ∃ time, glibtopGetProcTimeS ncpu (getBootTime cached procStat) stack (some r.text) cpu =
        some time ∧
      time.utime.toNat = asUnsigned (r.field 14) ∧ time.stime.toNat = asUnsigned (r.field 15) ∧
      time.rtime.toNat = (asUnsigned (r.field 14) + asUnsigned (r.field 15)) % 2 ^ 64 ∧
      time.cutime.toNat = asUnsigned (r.field 16) ∧ time.cstime.toNat = asUnsigned (r.field 17) ∧
      time.itRealValue.toNat = asUnsigned (r.field 21) ∧
      time.startTime.toNat = (boot.toNat + asUnsigned (r.field 22) / 100) % 2 ^ 64 := by
  refine ⟨⟨_, glibtopGetProcStateS_text r h uid gid, rfl, rfl, rfl⟩, ⟨_, rfl, ?_⟩, ?_⟩
  · have hn : ¬osVersionCode < linuxVersionCode 1 3 39 := by omega
    rw [glibtopGetProcUidS_text r h osVersionCode hf hs, readStatFields_after, if_neg hn, if_neg hn]
    exact ⟨rfl, rfl, rfl, rfl, rfl, rfl⟩
  · obtain ⟨flags, xcpu, ht⟩ := glibtopGetProcTimeS_text r h ncpu boot stack cpu
    rw [hb, ht]
    refine ⟨_, rfl, ?_⟩
    rw [readTimes_after]
    refine ⟨toNat_clampUnsigned _, toNat_clampUnsigned _, ?_, toNat_clampUnsigned _,
      toNat_clampUnsigned _, toNat_clampUnsigned _, ?_⟩
    · rw [BitVec.toNat_add, toNat_clampUnsigned, toNat_clampUnsigned]
    · rw [BitVec.toNat_add, BitVec.toNat_udiv, toNat_clampUnsigned]
      rfl

/-- A process whose command looks like the rest of a record. -/
def imitatingRecord : StatRecord where
  pid := 42
  comm := asciiBytes "a) R 7 (b".toList
  comm_noNul := by decide
  state := 83
  state_isLetter := by decide
  fields := [1, 42, 41, 0, -1, 4194304, 100, 0, 0, 0, 25, 17, 3, 2, 20, -5, 1, 9, 8675,
    10000000000, 250, 18446744073709551615, 1, 1, 0, 0, 0, 0, 0, 4096, 0, 0, 0, 0, 17, 3]

/-- The status file of the process. -/
def imitatingStatus : List UInt8 :=
  asciiBytes ("Name:\ta) R 7 (b\nState:\tS (sleeping)\nPid:\t42\nPPid:\t1\nTracerPid:\t0\n" ++
    "Uid:\t1000\t1000\t1000\t1000\nGid:\t100\t100\t100\t100\n").toList

private theorem imitatingRecord_fits : imitatingRecord.text.length < bufsiz := by decide +kernel

private theorem imitatingStatus_read :
    tryFileToBuffer bufsiz (some imitatingStatus) = some imitatingStatus ∧
      (readStatus imitatingStatus).2 = true := by
  decide +kernel

/-- The readers on a record whose command has a closing parenthesis. -/
theorem stat_fields_read_imitating :
    (∃ state, glibtopGetProcStateS (some (1000, 100)) (some imitatingRecord.text) = .ok state ∧
      state.state = 2 ∧ state.lastProcessor = 3) ∧
    (glibtopGetProcUidS (linuxVersionCode 6 1 0) (some imitatingStatus)
      (some imitatingRecord.text)).nice = -5 ∧
    ∃ time, glibtopGetProcTimeS 0 (getBootTime 1700000000 none) [] (some imitatingRecord.text)
      none = some time ∧ time.startTime.toNat = 1700000086 := by
  obtain ⟨⟨state, hs, h3, h39, -⟩, ⟨_, rfl, -, -, -, -, -, h19⟩, time, ht, -, -, -, -, -, -, h22⟩ :=
    stat_fields_read imitatingRecord imitatingRecord_fits (linuxVersionCode 6 1 0) (by decide)
      1000 100 (some imitatingStatus) imitatingStatus imitatingStatus_read.1 imitatingStatus_read.2
      1700000000 1700000000 none (by decide) 0 [] none
  refine ⟨⟨state, hs, ?_, ?_⟩, ?_, time, ht, ?_⟩
  · rw [h3]
    decide
  · rw [h39]
    decide
  · rw [h19]
    decide
  · rw [h22]
    decide

/-- Under a kernel before 1.3.39 the readers return the priority the other way round, and a field
out of the range of its type is cut. -/
theorem stat_fields_converted :
    (glibtopGetProcUidS 0 (some imitatingStatus) (some imitatingRecord.text)).priority = 10 ∧
      imitatingRecord.field 18 = 20 ∧
    ∃ record : StatRecord, record.text.length < bufsiz ∧
      (glibtopGetProcUidS (linuxVersionCode 6 1 0) (some imitatingStatus)
        (some record.text)).pgrp = -2147483648 ∧
      record.field 5 = 2147483648 := by
  obtain ⟨hf, hs⟩ := imitatingStatus_read
  refine ⟨?_, by decide, { imitatingRecord with fields := [1, 2147483648] }, ?_, ?_, by decide⟩
  · rw [glibtopGetProcUidS_text _ imitatingRecord_fits 0 hf hs, readStatFields_after]
    decide
  · decide +kernel
  · rw [glibtopGetProcUidS_text _ (by decide +kernel) (linuxVersionCode 6 1 0) hf hs,
      readStatFields_after]
    decide

end LibGTop.Linux
