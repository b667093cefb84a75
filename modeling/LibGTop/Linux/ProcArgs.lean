import LibGTop.Common.ProcArgs

/-!
# The arguments of a process

`glibtop_get_proc_args_s` (`sysdeps/linux/procargs.c:40–70`) on the text of
`/proc/<pid>/cmdline`, and the vector that `glibtop_get_proc_argv_l` makes of it.
-/

namespace LibGTop.Linux

open Base Common

/-- `glibtop_get_proc_args_s`, `sysdeps/linux/procargs.c:40–70`, with what `g_file_get_contents`
finds: the text, behind which it puts a terminator. -/
def glibtopGetProcArgsS (cmdline : Option (List UInt8)) (maxLen : Nat) :
    ProcArgs × Option (List UInt8) :=
  match cmdline with
  | none => ({}, none)
  | some text =>
    if maxLen ≠ 0 ∧ maxLen < text.length then
      ({ size := maxLen, flags := sysdepsProcArgs },
        some (((text ++ [0]).take maxLen).set (maxLen - 1) 0))
    else ({ size := text.length, flags := sysdepsProcArgs }, some (text ++ [0]))

/-- The position of the first terminator at or behind a position. -/
def terminator (memory : List UInt8) (position : Nat) : Nat :=
  position + (memory.drop position).idxOf 0

/-- The bytes of a text that are returned: all of it, or what fits with a terminator behind it. -/
def keptBytes (text : List UInt8) (maxLen : Nat) : List UInt8 :=
  if maxLen = 0 ∨ text.length ≤ maxLen then text else text.take (maxLen - 1) ++ [0]

theorem length_keptBytes (text : List UInt8) (maxLen : Nat) :
    (keptBytes text maxLen).length =
      if maxLen = 0 ∨ text.length ≤ maxLen then text.length else maxLen := by
  rw [keptBytes]
  split
  · rfl
  · simp only [List.length_append, List.length_take, List.length_singleton]
    omega

/-- What is returned is the kept bytes, with a terminator behind all of a text. -/
theorem glibtopGetProcArgsS_some (text : List UInt8) (maxLen : Nat) :
    glibtopGetProcArgsS (some text) maxLen =
      ({ size := (keptBytes text maxLen).length, flags := sysdepsProcArgs },
        some (if maxLen = 0 ∨ text.length ≤ maxLen then text ++ [0]
          else keptBytes text maxLen)) := by
  rw [length_keptBytes, glibtopGetProcArgsS, keptBytes]
  by_cases hcut : maxLen ≠ 0 ∧ maxLen < text.length
  · have hkeep : ¬(maxLen = 0 ∨ text.length ≤ maxLen) := by omega
    have hset : ((text ++ [0]).take maxLen).set (maxLen - 1) 0 = text.take (maxLen - 1) ++ [0] := by
      obtain ⟨room, rfl⟩ := Nat.exists_eq_succ_of_ne_zero hcut.1
      have hroom : room < text.length := by omega
      have hlength : (text.take room).length = room := List.length_take_of_le (Nat.le_of_lt hroom)
      rw [List.take_append_of_le_length hroom, Nat.succ_sub_one,
        List.take_succ_eq_append_getElem hroom, List.set_append_right _ _ (Nat.le_of_eq hlength),
        hlength, Nat.sub_self]
      rfl
    simp only [if_pos hcut, if_neg hkeep, hset]
  · have hkeep : maxLen = 0 ∨ text.length ≤ maxLen := by omega
    simp only [if_neg hcut, if_pos hkeep]

theorem terminator_append {between : List UInt8} (h : 0 ∉ between) (before rest : List UInt8) :
    terminator (before ++ (between ++ 0 :: rest)) before.length =
      before.length + between.length := by
  rw [terminator, List.drop_left, List.idxOf_append_of_notMem h, List.idxOf_cons_self, Nat.add_zero]

/-- A vector is split into its strings, and nothing is read behind the last of them. -/
theorem splitArgs0_vector {args : List (List UInt8)} (ha : ∀ arg ∈ args, 0 ∉ arg)
    (rest : List UInt8) :
    ∃ read, splitArgs0 (flattened args ++ rest) (flattened args).length = some (args, read) ∧
      read ≤ if (flattened args).length = 0 then 0
        else terminator (flattened args ++ rest) ((flattened args).length - 1) + 1 := by
  obtain rfl | ⟨init, arg, rfl⟩ := List.eq_nil_or_concat' args
  · exact ⟨0, splitArgs0_zero _, Nat.zero_le _⟩
  obtain ⟨hinit, harg⟩ := List.forall_mem_append.mp ha
  have hlength : (flattened (init ++ [arg])).length = (flattened init ++ arg).length + 1 := by
    rw [flattened_concat, ← List.append_assoc, List.length_append, List.length_singleton]
  have hlow : (flattened init).length < (flattened (init ++ [arg])).length := by
    rw [hlength, List.length_append]
    omega
  have hstop : terminator (flattened (init ++ [arg]) ++ rest)
      ((flattened (init ++ [arg])).length - 1) = (flattened init ++ arg).length := by
    have ht := terminator_append List.not_mem_nil (flattened init ++ arg) rest
    rw [hlength, Nat.add_sub_cancel, flattened_concat]
    simpa only [List.append_assoc, List.nil_append, List.singleton_append, List.length_nil,
      Nat.add_zero] using ht
  refine ⟨_, splitArgs0_flattened hinit (harg arg (List.mem_singleton_self arg)) rest hlow
    (Nat.le_refl _), Nat.le_of_eq ?_⟩
  rw [if_neg (by omega), hstop, hlength]

/-- So is one whose last string gets its terminator behind the bytes. -/
theorem splitArgs0_unterminated {args : List (List UInt8)} {last : List UInt8}
    (ha : ∀ arg ∈ args, 0 ∉ arg) (hl : 0 ∉ last) (hn : last ≠ []) :
    ∃ read, splitArgs0 (flattened (args ++ [last])) (flattened args ++ last).length =
        some (args ++ [last], read) ∧
      read ≤ terminator (flattened (args ++ [last])) ((flattened args ++ last).length - 1) + 1 := by
  obtain rfl | ⟨text, b, rfl⟩ := List.eq_nil_or_concat' last
  · exact absurd rfl hn
  have hb : (0 : UInt8) ∉ [b] := fun hm ↦ hl (List.mem_append_right text hm)
  have hlength : (flattened args ++ (text ++ [b])).length =
      (flattened args ++ text).length + 1 := by
    rw [← List.append_assoc, List.length_append, List.length_singleton]
  have hflat : (flattened (args ++ [text ++ [b]])).length =
      (flattened args ++ (text ++ [b])).length + 1 := by
    rw [flattened_concat, ← List.append_assoc, List.length_append, List.length_singleton]
  have hlow : (flattened args).length < (flattened args ++ (text ++ [b])).length := by
    rw [hlength, List.length_append]
    omega
  have hsplit := splitArgs0_flattened ha hl [] hlow (by omega)
  rw [List.append_nil, hflat] at hsplit
  have hstop : terminator (flattened (args ++ [text ++ [b]]))
      ((flattened args ++ (text ++ [b])).length - 1) = (flattened args ++ text).length + 1 := by
    have ht := terminator_append hb (flattened args ++ text) []
    rw [hlength, Nat.add_sub_cancel, flattened_concat]
    simpa only [List.append_assoc, List.singleton_append, List.length_singleton] using ht
  refine ⟨_, hsplit, Nat.le_of_eq ?_⟩
  rw [hstop, hlength]

/-- Bytes with a terminator behind them, or as their last byte, are split into their strings, and
nothing is read behind the first terminator that is not before their last byte. -/
theorem splitArgs0_eq {bytes memory : List UInt8}
    (h : memory = bytes ++ [0] ∨ memory = bytes ∧ ∃ text, bytes = text ++ [0]) :
    ∃ read, splitArgs0 memory bytes.length = some (arguments bytes, read) ∧
      read ≤ if bytes.length = 0 then 0 else terminator memory (bytes.length - 1) + 1 := by
  obtain ⟨args, last, ha, hl, rfl⟩ := exists_flattened bytes
  by_cases hn : last = []
  · obtain ⟨rest, rfl⟩ : ∃ rest, memory = flattened args ++ rest := by
      rw [hn, List.append_nil] at h
      obtain hm | ⟨hm, -⟩ := h
      · exact ⟨[0], hm⟩
      · exact ⟨[], by rw [hm, List.append_nil]⟩
    rw [hn, List.append_nil, arguments_flattened ha]
    exact splitArgs0_vector ha rest
  · have hmemory : memory = flattened (args ++ [last]) := by
      obtain hm | ⟨-, text, ht⟩ := h
      · rw [hm, flattened_concat, List.append_assoc]
      · obtain ⟨init, b, rfl⟩ := (List.eq_nil_or_concat' last).resolve_left hn
        rw [← List.append_assoc] at ht
        have he := (List.append_inj' ht rfl).2
        exact absurd (List.mem_append_right init (he ▸ List.mem_singleton_self 0)) hl
    have hpos : (flattened args ++ last).length ≠ 0 := fun h0 ↦
      hn (List.append_eq_nil_iff.mp (List.length_eq_zero_iff.mp h0)).2
    rw [hmemory, arguments_append ha hl hn, if_neg hpos]
    exact splitArgs0_unterminated ha hl hn

/-- The text of the arguments is returned whole, or cut with a terminator as its last byte, and the
vector is that of the bytes that are returned. Where there are some, nothing is read behind the
first terminator that is not before the last of them. -/
theorem glibtopGetProcArgvL_cmdline (text : List UInt8) (maxLen : Nat) :
    ∃ memory read,
      glibtopGetProcArgsS (some text) maxLen =
        ({ size := if maxLen = 0 ∨ text.length ≤ maxLen then text.length else maxLen,
           flags := sysdepsProcArgs }, some memory) ∧
      memory = (if maxLen = 0 ∨ text.length ≤ maxLen then text ++ [0]
        else text.take (maxLen - 1) ++ [0]) ∧
      glibtopGetProcArgvL (m := Id) (glibtopGetProcArgsS (some text)) maxLen =
        ({ size := (keptBytes text maxLen).length, flags := sysdepsProcArgs },
          some (arguments (keptBytes text maxLen), read)) ∧
      read ≤ if (keptBytes text maxLen).length = 0 then 0
        else terminator memory ((keptBytes text maxLen).length - 1) + 1 := by
  have hgot := glibtopGetProcArgsS_some text maxLen
  have hlength := length_keptBytes text maxLen
  obtain ⟨memory, hmemory, hcases⟩ : ∃ memory,
      memory = (if maxLen = 0 ∨ text.length ≤ maxLen then text ++ [0]
        else keptBytes text maxLen) ∧
      (memory = keptBytes text maxLen ++ [0] ∨
        memory = keptBytes text maxLen ∧ ∃ before, keptBytes text maxLen = before ++ [0]) := by
    by_cases hkeep : maxLen = 0 ∨ text.length ≤ maxLen
    · exact ⟨text ++ [0], (if_pos hkeep).symm, .inl (by rw [keptBytes, if_pos hkeep])⟩
    · refine ⟨keptBytes text maxLen, (if_neg hkeep).symm, .inr ⟨rfl, text.take (maxLen - 1), ?_⟩⟩
      rw [keptBytes, if_neg hkeep]
  obtain ⟨read, hsplit, hread⟩ := splitArgs0_eq hcases
  rw [← hmemory] at hgot
  refine ⟨memory, read, by rw [hgot, hlength], ?_, ?_, hread⟩
  · rw [hmemory, keptBytes]
    split <;> rfl
  · change ((glibtopGetProcArgsS (some text) maxLen).1,
      splitArgs0 ((glibtopGetProcArgsS (some text) maxLen).2.getD [])
        (glibtopGetProcArgsS (some text) maxLen).1.size) = _
    rw [hgot]
    exact congrArg _ hsplit

/-- Empty arguments count, and the last one needs no terminator. -/
example : arguments [97, 0, 0, 98, 99] = [[97], [], [98, 99]] := by decide

end LibGTop.Linux
