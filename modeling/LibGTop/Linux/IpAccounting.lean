import LibGTop.Linux.NetDev

/-!
# The accounting of old kernels

`linux_2_0_stats` (`sysdeps/linux/netload.c:258–333`), which adds up what the rules of
`/proc/net/ip_acct` have counted for an interface. It looks for the name one byte behind the second
field of a row, and compares it with the blanks that follow.
-/

namespace LibGTop.Linux

open Base Common

namespace NetStats

/-- `buf->field += value`. -/
def add (field : NetloadField) (value : BitVec 64) (buf : NetStats) : NetStats :=
  buf.set field (buf.counter field + value)

/-- What a rule has counted, `sysdeps/linux/netload.c:298–329`. -/
def account (flags packets bytes : BitVec 64) (buf : NetStats) : NetStats :=
  if flags &&& 0x1000 ≠ 0 then
    let buf := (buf.add .packetsTotal packets).add .packetsIn packets
    let buf := (buf.add .bytesTotal bytes).add .bytesIn bytes
    (((buf.flag .packetsTotal).flag .bytesTotal).flag .packetsIn).flag .bytesIn
  else if flags &&& 0x2000 ≠ 0 then
    let buf := (buf.add .packetsTotal packets).add .packetsOut packets
    let buf := (buf.add .bytesTotal bytes).add .bytesOut bytes
    (((buf.flag .packetsTotal).flag .bytesTotal).flag .packetsOut).flag .bytesOut
  else
    let buf := (buf.add .packetsTotal packets).add .bytesTotal bytes
    (buf.flag .packetsTotal).flag .bytesTotal

end NetStats

/-- The body of the loop, `sysdeps/linux/netload.c:276–329`, on what is in the buffer: a terminator
is written behind the name. -/
def accountLine (interface buffer : List UInt8) (buf : NetStats) : List UInt8 × NetStats :=
  let dev := (skipToken buffer).drop 1
  let p := skipToken dev
  let buffer := buffer.set (buffer.length - p.length) 0
  if cString (dev.take (dev.length - p.length)) ≠ interface then (buffer, buf)
  else
    let flags := strtoull 16 (skipToken (p.drop 1))
    let packets := strtoull 0 (skipMultipleToken flags.2 2)
    let bytes := strtoull 0 packets.2
    (buffer, buf.account flags.1 packets.1 bytes.1)

/-- The loop over what `fgets` delivers. -/
def accountLines (interface : List UInt8) : List (List UInt8) → List UInt8 → NetStats → NetStats
  | [], _, buf => buf
  | line :: lines, buffer, buf =>
    let done := accountLine interface (overlay buffer (line ++ [0])) buf
    accountLines interface lines done.1 done.2

/-- `linux_2_0_stats`, `sysdeps/linux/netload.c:258–333`, on what the buffer holds at first. -/
def linux20Stats (stack : List UInt8) (file : Option (List UInt8)) (interface : List UInt8)
    (buf : NetStats) : NetStats :=
  match file with
  | none => buf
  | some text =>
    let reads := fgets (bufsiz - 1) text
    let buffer := (reads.head?).elim stack fun header ↦ overlay stack (header ++ [0])
    accountLines interface (reads.drop 1) buffer buf

/-- A rule that counts: the addresses, the name of its interface, and what else is in its row. -/
structure AccountRule where
  lead : Blanks
  network : { word : List UInt8 // IsToken word }
  gap : Gap
  dev : { word : List UInt8 // IsToken word }
  others : { text : List UInt8 // ∀ b ∈ text, b ≠ 0 ∧ b ≠ 10 }

/-- The row of a rule. -/
def AccountRule.row (r : AccountRule) : List UInt8 :=
  r.lead.1 ++ (r.network.1 ++ (r.gap.1 ++ (r.dev.1 ++ r.others.1)))

theorem nextToken_blanks {blanks : List UInt8} (h : ∀ b ∈ blanks, isBlankByte b)
    (rest : List UInt8) : nextToken (blanks ++ rest) = nextToken rest :=
  List.dropWhile_append_of_pos fun b hb ↦ gAsciiIsspace_of_isBlankByte (h b hb)

/-- `skip_token` goes on to the second field of a row. -/
theorem AccountRule.skipToken_row (r : AccountRule) (rest : List UInt8) :
    skipToken (r.row ++ rest) = r.dev.1 ++ (r.others.1 ++ rest) := by
  have hgap : Blank (r.gap.1 ++ (r.dev.1 ++ (r.others.1 ++ rest))) := by
    obtain ⟨gap, hn, hg⟩ := r.gap
    cases gap with
    | nil => exact absurd rfl hn
    | cons b gap =>
      have hb := gAsciiIsspace_of_isBlankByte (hg b List.mem_cons_self)
      exact blank_cons (by rw [isTokenByte, hb]; exact Bool.and_false _) _
  simp only [AccountRule.row, List.append_assoc]
  rw [skipToken, nextToken_blanks r.lead.2, r.network.2.head, r.network.2.dropWhile hgap,
    nextToken_blanks r.gap.2.2, r.dev.2.head]

/-- `skip_token` passes the first blank that it finds. -/
theorem skipToken_suffix {text : List UInt8} (ht : ∀ b ∈ text, isTokenByte b) {b : UInt8}
    (hb : gAsciiIsspace b) (rest : List UInt8) : skipToken (text ++ b :: rest) <:+ rest := by
  have hn : nextToken (b :: rest) = nextToken rest := List.dropWhile_cons_of_pos hb
  have hblank : Blank (b :: rest) :=
    blank_cons (by rw [isTokenByte, hb]; exact Bool.and_false _) rest
  by_cases he : text = []
  · rw [he, List.nil_append, skipToken, hn]
    exact (List.dropWhile_suffix _).trans
      ((List.dropWhile_suffix _).trans (List.dropWhile_suffix _))
  · rw [skipToken_token ⟨he, ht⟩ hblank, hn]
    exact List.dropWhile_suffix _

/-- In a text with a newline the first byte that is of no token is a blank. -/
theorem exists_blank {line : List UInt8} (hz : ∀ b ∈ line, b ≠ 0) (rest : List UInt8) :
    ∃ text b others, line ++ 10 :: rest = text ++ b :: others ∧ (∀ b ∈ text, isTokenByte b) ∧
      gAsciiIsspace b := by
  induction line with
  | nil => exact ⟨[], 10, rest, rfl, List.forall_mem_nil _, by decide⟩
  | cons c line ih =>
    obtain ⟨hc, hz⟩ := List.forall_mem_cons.mp hz
    by_cases hs : gAsciiIsspace c
    · exact ⟨[], c, line ++ 10 :: rest, rfl, List.forall_mem_nil _, hs⟩
    · obtain ⟨text, b, others, he, ht, hb⟩ := ih hz
      refine ⟨c :: text, b, others, by rw [List.cons_append, he]; rfl,
        List.forall_mem_cons.mpr ⟨?_, ht⟩, hb⟩
      simp [isTokenByte, hc, hs]

/-- What is compared with the name of an interface has a blank in it. -/
theorem compared_ne {interface : List UInt8} (hi : ∀ b ∈ interface, isTokenByte b)
    {line : List UInt8} (hz : ∀ b ∈ line, b ≠ 0) (rest : List UInt8) :
    cString ((line ++ 10 :: rest).take
      ((line ++ 10 :: rest).length - (skipToken (line ++ 10 :: rest)).length)) ≠ interface := by
  obtain ⟨text, b, others, he, ht, hb⟩ := exists_blank hz rest
  obtain ⟨passed, hp⟩ := skipToken_suffix ht hb others
  have hsplit : text ++ b :: others =
      (text ++ b :: passed) ++ skipToken (text ++ b :: others) := by
    rw [List.append_assoc, List.cons_append, hp]
  have htake : (text ++ b :: others).take
      ((text ++ b :: others).length - (skipToken (text ++ b :: others)).length) =
        text ++ b :: passed := by
    have hs := List.suffix_iff_eq_append.mp ⟨text ++ b :: passed, hsplit.symm⟩
    exact List.append_cancel_right (hs.trans hsplit)
  have hzero : ∀ c ∈ text ++ [b], (c != 0) = true := by
    intro c hc
    have hkind : isTokenByte c ∨ gAsciiIsspace c := by
      obtain hc | hc := List.mem_append.mp hc
      · exact .inl (ht c hc)
      · exact .inr (List.mem_singleton.mp hc ▸ hb)
    rw [bne_iff_ne]
    rintro rfl
    exact absurd hkind (by decide)
  intro hc
  rw [he, htake, List.append_cons, cString, List.takeWhile_append_of_pos hzero] at hc
  have hbi := hi b (hc ▸ List.mem_append_left _ (List.mem_append_right _ List.mem_cons_self))
  rw [isTokenByte, hb] at hbi
  exact absurd hbi (by simp)

/-- No row is taken for one of an interface. -/
theorem AccountRule.accountLine_row (r : AccountRule) {interface : List UInt8}
    (hi : ∀ b ∈ interface, isTokenByte b) (stack : List UInt8) (buf : NetStats) :
    (accountLine interface (overlay stack (r.row ++ [10] ++ [0])) buf).2 = buf := by
  have hdev : (skipToken (overlay stack (r.row ++ [10] ++ [0]))).drop 1 =
      (r.dev.1.drop 1 ++ r.others.1) ++
        10 :: 0 :: stack.drop (r.row ++ [10] ++ [0]).length := by
    rw [overlay, List.append_assoc, List.append_assoc, r.skipToken_row]
    have hd := r.dev.2.1
    revert hd
    cases r.dev.1 with
    | nil => exact fun hd ↦ absurd rfl hd
    | cons b dev => simp
  have hz : ∀ b ∈ r.dev.1.drop 1 ++ r.others.1, b ≠ 0 := by
    intro b hb
    obtain hb | hb := List.mem_append.mp hb
    · rintro rfl
      exact absurd (r.dev.2.2 0 (List.mem_of_mem_drop hb)) (by decide)
    · exact (r.others.2 b hb).1
  rw [accountLine]
  simp only [hdev]
  rw [if_pos (compared_ne hi hz _)]

/-- Nor in any number of rows. -/
theorem accountLines_rows {interface : List UInt8} (hi : ∀ b ∈ interface, isTokenByte b)
    (rules : List AccountRule) (stack : List UInt8) (buf : NetStats) :
    accountLines interface (rules.map fun r ↦ r.row ++ [10]) stack buf = buf := by
  induction rules generalizing stack with
  | nil => rfl
  | cons r rules ih =>
    rw [List.map_cons, accountLines, r.accountLine_row hi]
    exact ih _

/-- The text of `/proc/net/ip_acct`: a header and the rows, which fit the buffer. -/
structure AccountTable where
  header : { line : List UInt8 // 10 ∉ line ∧ line.length + 1 < 8191 }
  rules : List { r : AccountRule // r.row.length + 1 < 8191 }

/-- The text of the table. -/
def AccountTable.text (t : AccountTable) : List UInt8 :=
  Base.text (t.header.1 :: t.rules.map fun r ↦ r.1.row)

theorem AccountRule.newline_notMem (r : AccountRule) : 10 ∉ r.row := by
  have hword : ∀ word : { word : List UInt8 // IsToken word }, 10 ∉ word.1 := fun word h ↦
    absurd (word.2.2 10 h) (by decide)
  simp only [row, List.mem_append, not_or]
  exact ⟨fun h ↦ (ne_of_isBlankByte (r.lead.2 10 h)).2 rfl, hword r.network,
    fun h ↦ (ne_of_isBlankByte (r.gap.2.2 10 h)).2 rfl, hword r.dev,
    fun h ↦ (r.others.2 10 h).2 rfl⟩

/-- What the rules have counted is never found: for every table and every name of an interface,
which has no blank in it, the load stays as it is. -/
theorem linux20Stats_table (t : AccountTable) {interface : List UInt8}
    (hi : ∀ b ∈ interface, isTokenByte b) (stack : List UInt8) (buf : NetStats) :
    linux20Stats stack (some t.text) interface buf = buf := by
  have hlines : ∀ line ∈ t.header.1 :: t.rules.map fun r ↦ r.1.row,
      10 ∉ line ∧ line.length + 1 < bufsiz - 1 := by
    refine List.forall_mem_cons.mpr ⟨t.header.2, fun line hl ↦ ?_⟩
    obtain ⟨r, -, rfl⟩ := List.mem_map.mp hl
    exact ⟨r.1.newline_notMem, r.2⟩
  have hrows : (t.rules.map fun r ↦ r.1.row).map (fun line ↦ line ++ [10]) =
      (t.rules.map Subtype.val).map fun r ↦ r.row ++ [10] := by
    rw [List.map_map, List.map_map]
    rfl
  rw [linux20Stats, AccountTable.text, fgets_text hlines]
  simp only [List.map_cons, List.drop_succ_cons, List.drop_zero, hrows]
  exact accountLines_rows hi _ _ buf

end LibGTop.Linux
