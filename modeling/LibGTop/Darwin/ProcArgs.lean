import LibGTop.Base.Buffers
import LibGTop.Base.Tokens
import LibGTop.Base.Words
import LibGTop.Common.ProcArgs

/-!
# The arguments of a process on Darwin

`glibtop_get_proc_args_p` (`sysdeps/darwin/procargs.c:46–130`): the scans of the block that the
kernel returns, and when they stay inside of it.
-/

namespace LibGTop.Darwin

open Base Common

/-- How the scans end before there is a range: with a read outside of the block, or with `NULL`. -/
inductive ScanStop
  | outside
  | null
  deriving DecidableEq

/-- The word of four bytes at an offset. -/
def wordAt (order : ByteOrder) (bytes : List UInt8) (offset : Nat) : BitVec 32 :=
  BitVec.ofNat 32 (order.load (slice bytes offset 4))

/-- A read of a word. -/
def readWord (order : ByteOrder) (bytes : List UInt8) (offset : Nat) :
    Except ScanStop (BitVec 32) :=
  if offset + 4 ≤ bytes.length then .ok (wordAt order bytes offset) else .error .outside

/-- A read of a byte. -/
def readByte (bytes : List UInt8) (offset : Nat) : Except ScanStop UInt8 :=
  match bytes[offset]? with
  | some b => .ok b
  | none => .error .outside

/-- `while (*--ip) if (ip == (int *) argbuf) return NULL`, from the offset `rest + 4 * count` of
`ip` on: how many words are before the word that ends the loop. -/
def scanWords (order : ByteOrder) (bytes : List UInt8) (rest : Nat) : Nat → Except ScanStop Nat
  | 0 => .error .outside
  | count + 1 => do
    let ip := rest + 4 * count
    let word ← readWord order bytes ip
    if word = 0 then pure count
    else if ip = 0 then throw .null
    else scanWords order bytes rest count

/-- `strlen`, on the bytes of the block from a pointer on. -/
def strlen : List UInt8 → Except ScanStop Nat
  | [] => .error .outside
  | b :: bytes => if b = 0 then pure 0 else (· + 1) <$> strlen bytes

/-- `while (!*start) start++`. -/
def skipNuls : List UInt8 → Except ScanStop Nat
  | [] => .error .outside
  | b :: bytes => if b = 0 then (· + 1) <$> skipNuls bytes else pure 0

/-- `while (*str != '\0' && str > start) str--`. -/
def backToNul (bytes : List UInt8) (start : Nat) : Nat → Except ScanStop Nat
  | 0 => do
    let _ ← readByte bytes 0
    pure 0
  | str + 1 => do
    let b ← readByte bytes (str + 1)
    if b ≠ 0 ∧ start < str + 1 then backToNul bytes start str
    else pure (str + 1)

/-- `for (; str < end - 1; str++)`, with so many bytes left before `end - 1`. -/
def findEnd (bytes : List UInt8) (start : Nat) : Nat → Nat → Except ScanStop Nat
  | 0, str => pure str
  | left + 1, str => do
    let b ← readByte bytes str
    if b = 61 then backToNul bytes start str
    else findEnd bytes start left (str + 1)

/-- `(ip[0] & 0xbfff0000) == 0xbfff0000`. -/
def isStackAddress (word : BitVec 32) : Bool := word &&& 0xbfff0000 = 0xbfff0000

/-- `start[0] == '-' || start[0] == '?' || start[0] <= ' '`, where `char` has a sign. -/
def isRejected (b : UInt8) : Bool := b = 45 || b = 63 || b ≤ 32 || 128 ≤ b

/-- The start behind a path with its address at `ip`, `sysdeps/darwin/procargs.c:91–96`. -/
def skipPath (order : ByteOrder) (bytes : List UInt8) (ip start : Nat) : Except ScanStop Nat := do
  let word ← readWord order bytes ip
  if isStackAddress word then
    let ip := ip + 8
    let length ← strlen (bytes.drop ip)
    let start := ip + 4 * ((length + 3) / 4)
    let skipped ← skipNuls (bytes.drop start)
    pure (start + skipped)
  else pure start

/-- The range from a start on, `sysdeps/darwin/procargs.c:98–109`. -/
def rangeFrom (bytes : List UInt8) (start : Nat) : Except ScanStop (Nat × Nat) := do
  let length ← strlen (bytes.drop start)
  let stop ← findEnd bytes start (bytes.length - 1 - (start + length)) (start + length)
  let b ← readByte bytes start
  if isRejected b then throw .null
  pure (start, stop)

/-- The range from `start` to `end`, `sysdeps/darwin/procargs.c:73–109`. -/
def argsRange (order : ByteOrder) (bytes : List UInt8) : Except ScanStop (Nat × Nat) := do
  let bufsize := bytes.length
  let rest := bufsize % 4
  let first ← scanWords order bytes rest ((bufsize - 8) / 4)
  let second ← scanWords order bytes rest first
  let start ← skipPath order bytes (rest + 4 * (second + 1)) (rest + 4 * (first + 1))
  rangeFrom bytes start

/-- `glibtop_get_proc_args_p`, `sysdeps/darwin/procargs.c:46–130`, by the block that the kernel
returns; absent where a read is outside of the block. -/
def glibtopGetProcArgsP (order : ByteOrder) (maxLen : Nat) (block : Option (List UInt8)) :
    Option (ProcArgs × Option (List UInt8)) :=
  match block with
  | none => some ({}, none)
  | some bytes =>
    match argsRange order bytes with
    | .error .outside => none
    | .error .null => some ({}, none)
    | .ok (start, stop) =>
      let length := stop - start
      let length := if maxLen ≠ 0 ∧ maxLen < length then maxLen else length
      some ({ size := length, flags := sysdepsProcArgs }, some (slice bytes start length ++ [0]))

/-- No read is outside of the block, and the range is in it, unless the result is `NULL`. -/
def Inside (bytes : List UInt8) : Except ScanStop (Nat × Nat) → Prop
  | .error .outside => False
  | .error .null => True
  | .ok (start, stop) => start ≤ stop ∧ stop ≤ bytes.length

/-- The last zero word of so many words. -/
def lastZero (order : ByteOrder) (bytes : List UInt8) (count : Nat) : Option Nat :=
  (List.range count).reverse.find? fun i ↦
    wordAt order bytes (bytes.length % 4 + 4 * i) = 0

/-- What is behind two zero words is a terminated string; behind the address of a path, the path is
one, and behind its padding there is another. -/
def Terminated (order : ByteOrder) (bytes : List UInt8) (first second : Nat) : Prop :=
  let rest := bytes.length % 4
  if isStackAddress (wordAt order bytes (rest + 4 * (second + 1))) then
    let path := bytes.drop (rest + 4 * (second + 1) + 8)
    0 ∈ path ∧ 0 ∈ (path.drop (4 * (((path.takeWhile (· ≠ 0)).length + 3) / 4))).dropWhile (· = 0)
  else 0 ∈ bytes.drop (rest + 4 * (first + 1))

/-- The block has three words, and two zero words before the last two with a string behind them; or
whole words only, of which none but the last two or one behind the first is zero. -/
def Scannable (order : ByteOrder) (bytes : List UInt8) : Prop :=
  12 ≤ bytes.length ∧
    match lastZero order bytes ((bytes.length - 8) / 4) with
    | none => 4 ∣ bytes.length
    | some first =>
      match lastZero order bytes first with
      | none => 0 < first ∧ 4 ∣ bytes.length
      | some second => Terminated order bytes first second

section

variable {order : ByteOrder} {bytes : List UInt8}

theorem ok_bind {α β : Type} (a : α) (f : α → Except ScanStop β) :
    (Except.ok a >>= f) = f a := rfl

theorem lastZero_succ (count : Nat) : lastZero order bytes (count + 1) =
    if wordAt order bytes (bytes.length % 4 + 4 * count) = 0 then some count
    else lastZero order bytes count := by
  rw [lastZero, List.range_succ, List.reverse_append, List.reverse_singleton,
    List.singleton_append, List.find?_cons]
  by_cases hz : wordAt order bytes (bytes.length % 4 + 4 * count) = 0
  · rw [if_pos hz, decide_eq_true hz]
  · rw [if_neg hz, decide_eq_false hz]
    rfl

theorem lastZero_lt {count i : Nat} (h : lastZero order bytes count = some i) : i < count :=
  List.mem_range.mp (List.mem_reverse.mp (List.mem_of_find?_eq_some h))

/-- The scan ends at the last zero word, at the start of the block, or outside of it. -/
theorem scanWords_eq {count : Nat} (h : bytes.length % 4 + 4 * count ≤ bytes.length) :
    scanWords order bytes (bytes.length % 4) count =
      match lastZero order bytes count with
      | some i => .ok i
      | none =>
        if 0 < count ∧ bytes.length % 4 = 0 then .error .null else .error .outside := by
  induction count with
  | zero => rfl
  | succ count ih =>
    have hread : readWord order bytes (bytes.length % 4 + 4 * count) =
        .ok (wordAt order bytes (bytes.length % 4 + 4 * count)) := if_pos (by omega)
    rw [scanWords, hread, lastZero_succ]
    by_cases hz : wordAt order bytes (bytes.length % 4 + 4 * count) = 0
    · rw [if_pos hz]
      exact if_pos hz
    · rw [if_neg hz]
      refine (if_neg hz).trans ?_
      by_cases hip : bytes.length % 4 + 4 * count = 0
      · obtain rfl : count = 0 := by omega
        have hrest : 0 < 0 + 1 ∧ bytes.length % 4 = 0 := ⟨Nat.zero_lt_one, by omega⟩
        refine (if_pos hip).trans ?_
        rw [if_pos hrest]
        rfl
      · have hrest : (0 < count + 1 ∧ bytes.length % 4 = 0) ↔
            (0 < count ∧ bytes.length % 4 = 0) := by omega
        refine (if_neg hip).trans ?_
        simp only [hrest]
        exact ih (by omega)

theorem strlen_eq (text : List UInt8) :
    strlen text = if 0 ∈ text then .ok (text.takeWhile (· ≠ 0)).length else .error .outside := by
  induction text with
  | nil => rfl
  | cons b text ih =>
    rw [strlen, ih]
    by_cases hb : b = 0
    · subst hb
      rw [if_pos rfl, if_pos List.mem_cons_self, List.takeWhile_cons_of_neg (by decide)]
      rfl
    · have hmem : 0 ∈ b :: text ↔ 0 ∈ text := by
        rw [List.mem_cons, or_iff_right (Ne.symm hb)]
      rw [if_neg hb, List.takeWhile_cons_of_pos (by simpa using hb)]
      simp only [hmem]
      split <;> rfl

theorem skipNuls_eq (text : List UInt8) :
    skipNuls text = if text.dropWhile (· = 0) = [] then .error .outside
      else .ok (text.takeWhile (· = 0)).length := by
  induction text with
  | nil => rfl
  | cons b text ih =>
    rw [skipNuls, ih]
    by_cases hb : b = 0
    · rw [if_pos hb, List.takeWhile_cons_of_pos (by simpa using hb),
        List.dropWhile_cons_of_pos (by simpa using hb)]
      split <;> rfl
    · rw [if_neg hb, List.takeWhile_cons_of_neg (by simpa using hb),
        List.dropWhile_cons_of_neg (by simpa using hb), if_neg (List.cons_ne_nil _ _)]
      rfl

theorem readByte_ok {offset : Nat} (h : offset < bytes.length) :
    ∃ b, readByte bytes offset = .ok b := by
  rw [readByte, List.getElem?_eq_getElem h]
  exact ⟨_, rfl⟩

/-- The search back for a NUL stays behind the start. -/
theorem backToNul_inside {start str : Nat} (hs : start ≤ str) (h : str < bytes.length) :
    ∃ stop, backToNul bytes start str = .ok stop ∧ start ≤ stop ∧ stop ≤ str := by
  induction str with
  | zero =>
    obtain ⟨b, hb⟩ := readByte_ok h
    refine ⟨0, ?_, hs, Nat.le_refl 0⟩
    rw [backToNul, hb]
    rfl
  | succ str ih =>
    obtain ⟨b, hb⟩ := readByte_ok h
    rw [backToNul, hb]
    by_cases hc : b ≠ 0 ∧ start < str + 1
    · obtain ⟨stop, hstop, hlow, hhigh⟩ := ih (by omega) (by omega)
      refine ⟨stop, ?_, hlow, by omega⟩
      rw [← hstop]
      exact if_pos hc
    · exact ⟨str + 1, if_neg hc, hs, Nat.le_refl _⟩

/-- The search for the end stays behind the start and before the last byte. -/
theorem findEnd_inside {start str left : Nat} (hs : start ≤ str)
    (h : str + left + 1 = bytes.length) :
    ∃ stop, findEnd bytes start left str = .ok stop ∧ start ≤ stop ∧ stop < bytes.length := by
  induction left generalizing str with
  | zero => exact ⟨str, rfl, hs, by omega⟩
  | succ left ih =>
    have hlt : str < bytes.length := by omega
    obtain ⟨b, hb⟩ := readByte_ok hlt
    rw [findEnd, hb]
    by_cases hc : b = 61
    · obtain ⟨stop, hstop, hlow, hhigh⟩ := backToNul_inside hs hlt
      exact ⟨stop, (if_pos hc).trans hstop, hlow, by omega⟩
    · have hnext : str + 1 + left + 1 = bytes.length := by omega
      obtain ⟨stop, hstop, hbounds⟩ := ih (Nat.le_succ_of_le hs) hnext
      exact ⟨stop, (if_neg hc).trans hstop, hbounds⟩

theorem drop_takeWhile_length (p : UInt8 → Bool) (text : List UInt8) :
    text.drop (text.takeWhile p).length = text.dropWhile p := by
  have hsplit := congrArg (List.drop (text.takeWhile p).length)
    (List.takeWhile_append_dropWhile (p := p) (l := text))
  rw [List.drop_left' rfl] at hsplit
  exact hsplit.symm

/-- A string ends before the end of the bytes that its terminator is in. -/
theorem takeWhile_length_lt {text : List UInt8} (h : 0 ∈ text) :
    (text.takeWhile (· ≠ 0)).length < text.length := by
  have hpos := List.length_pos_of_mem (mem_dropWhile (p := fun b ↦ decide (b ≠ 0)) h (by decide))
  have hsplit := congrArg List.length
    (List.takeWhile_append_dropWhile (p := fun b : UInt8 ↦ decide (b ≠ 0)) (l := text))
  rw [List.length_append] at hsplit
  omega

/-- From a start on, the reads are inside of the block where a string starts there. -/
theorem inside_rangeFrom (start : Nat) :
    Inside bytes (rangeFrom bytes start) ↔ 0 ∈ bytes.drop start := by
  rw [rangeFrom, strlen_eq]
  by_cases h0 : 0 ∈ bytes.drop start
  · rw [if_pos h0]
    have hlen := takeWhile_length_lt h0
    rw [List.length_drop] at hlen
    have hleft : start + ((bytes.drop start).takeWhile (· ≠ 0)).length +
        (bytes.length - 1 - (start + ((bytes.drop start).takeWhile (· ≠ 0)).length)) + 1 =
          bytes.length := by omega
    obtain ⟨stop, hstop, hlow, hhigh⟩ := findEnd_inside (Nat.le_add_right start _) hleft
    have hstart : start < bytes.length := by omega
    obtain ⟨b, hb⟩ := readByte_ok hstart
    refine iff_of_true ?_ h0
    show Inside bytes (do
      let stop ← findEnd bytes start _ _
      let b ← readByte bytes start
      if isRejected b then throw .null
      pure (start, stop))
    rw [hstop, hb]
    show Inside bytes (if isRejected b then _ else _)
    split
    · trivial
    · exact ⟨hlow, Nat.le_of_lt hhigh⟩
  · rw [if_neg h0]
    exact iff_of_false id h0

/-- Behind the address of a path, the start is behind the path and its padding. -/
theorem inside_skipPath {ip start : Nat} (h : ip + 4 ≤ bytes.length) :
    Inside bytes (skipPath order bytes ip start >>= rangeFrom bytes) ↔
      if isStackAddress (wordAt order bytes ip) then
        0 ∈ bytes.drop (ip + 8) ∧
          0 ∈ ((bytes.drop (ip + 8)).drop
            (4 * ((((bytes.drop (ip + 8)).takeWhile (· ≠ 0)).length + 3) / 4))).dropWhile (· = 0)
      else 0 ∈ bytes.drop start := by
  have hread : readWord order bytes ip = .ok (wordAt order bytes ip) := if_pos h
  by_cases hs : isStackAddress (wordAt order bytes ip) = true
  · simp only [skipPath, hread, ok_bind, if_pos hs, strlen_eq]
    by_cases h0 : 0 ∈ bytes.drop (ip + 8)
    · simp only [if_pos h0, ok_bind, skipNuls_eq]
      generalize ((bytes.drop (ip + 8)).takeWhile (· ≠ 0)).length = length
      rw [List.drop_drop]
      by_cases hd : (bytes.drop (ip + 8 + 4 * ((length + 3) / 4))).dropWhile (· = 0) = []
      · rw [if_pos hd, hd]
        exact iff_of_false id fun hmem ↦ List.not_mem_nil hmem.2
      · rw [if_neg hd, and_iff_right h0, ← drop_takeWhile_length, List.drop_drop]
        exact inside_rangeFrom _
    · rw [if_neg h0]
      exact iff_of_false id fun hmem ↦ h0 hmem.1
  · rw [if_neg hs]
    simp only [skipPath, hread, ok_bind, if_neg hs, pure_bind]
    exact inside_rangeFrom start

theorem argsRange_inside_iff_of :
    Inside bytes (argsRange order bytes) ↔ Scannable order bytes := by
  by_cases hlen : 12 ≤ bytes.length
  · rw [Scannable, and_iff_right hlen]
    have hcount : 0 < (bytes.length - 8) / 4 := by omega
    have hdvd : bytes.length % 4 = 0 ↔ 4 ∣ bytes.length := by omega
    rw [argsRange]
    have hwords : bytes.length % 4 + 4 * ((bytes.length - 8) / 4) ≤ bytes.length := by omega
    simp only [scanWords_eq hwords]
    cases hfirst : lastZero order bytes ((bytes.length - 8) / 4) with
    | none =>
      simp only [hcount, true_and, hdvd]
      split
      · next h => exact iff_of_true trivial h
      · next h => exact iff_of_false id h
    | some first =>
      have hlt := lastZero_lt hfirst
      simp only [ok_bind]
      have hrest : bytes.length % 4 + 4 * first ≤ bytes.length := by omega
      simp only [scanWords_eq hrest]
      cases hsecond : lastZero order bytes first with
      | none =>
        simp only [hdvd]
        split
        · next h => exact iff_of_true trivial h
        · next h => exact iff_of_false id h
      | some second =>
        have hlt' := lastZero_lt hsecond
        exact inside_skipPath (by omega)
  · have hnone : (bytes.length - 8) / 4 = 0 := by omega
    rw [argsRange, hnone]
    exact iff_of_false id fun h ↦ hlen h.1

/-- Every read of the scans is inside of the block that the kernel returns, and so is the range
that is copied, exactly where the block has one of the two forms. -/
theorem argsRange_inside_iff (order : ByteOrder) (bytes : List UInt8) :
    Inside bytes (argsRange order bytes) ↔ Scannable order bytes := argsRange_inside_iff_of

end

/-- The block is empty, or its only zero word is its first: the scan reads before the block. -/
theorem argsRange_outside :
    argsRange .little [] = .error .outside ∧
      argsRange .little (zeros 4 ++ List.replicate 12 97) = .error .outside ∧
      ¬∀ (order : ByteOrder) (bytes : List UInt8), bytes.length ≤ 4096 →
        Inside bytes (argsRange order bytes) := by
  have hempty : argsRange .little [] = .error .outside := rfl
  refine ⟨hempty, by decide, fun h ↦ ?_⟩
  have hinside := h .little [] (Nat.zero_le 4096)
  rw [hempty] at hinside
  exact hinside

section

variable {bytes : List UInt8}

/-- A scan that stays inside of the block ends with a range that is in it. -/
theorem outside_or_inside_bind {α : Type} (m : Except ScanStop α)
    {f : α → Except ScanStop (Nat × Nat)}
    (h : ∀ a, f a = .error .outside ∨ Inside bytes (f a)) :
    (m >>= f) = .error .outside ∨ Inside bytes (m >>= f) := by
  cases m with
  | ok a => exact h a
  | error stop =>
    cases stop with
    | outside => exact .inl rfl
    | null => exact .inr trivial

theorem outside_or_inside (order : ByteOrder) (bytes : List UInt8) :
    argsRange order bytes = .error .outside ∨ Inside bytes (argsRange order bytes) := by
  refine outside_or_inside_bind _ fun first ↦ outside_or_inside_bind _ fun second ↦
    outside_or_inside_bind _ fun start ↦ ?_
  by_cases h0 : 0 ∈ bytes.drop start
  · exact .inr ((inside_rangeFrom start).mpr h0)
  · refine .inl ?_
    rw [rangeFrom, strlen_eq, if_neg h0]
    rfl

/-- The function returns, with arguments or without, exactly where the block has one of the forms;
what it copies is in the block then. -/
theorem glibtopGetProcArgsP_isSome_iff (order : ByteOrder) (maxLen : Nat) :
    (glibtopGetProcArgsP order maxLen (some bytes)).isSome ↔ Scannable order bytes := by
  rw [← argsRange_inside_iff_of, glibtopGetProcArgsP]
  have hcases := outside_or_inside order bytes
  generalize argsRange order bytes = result at hcases
  match result with
  | .error .outside => exact iff_of_false Bool.false_ne_true id
  | .error .null => exact iff_of_true rfl trivial
  | .ok (start, stop) =>
    exact iff_of_true rfl (hcases.resolve_left nofun)

end

end LibGTop.Darwin
