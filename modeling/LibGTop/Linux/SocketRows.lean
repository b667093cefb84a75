import LibGTop.Base.Splits
import LibGTop.Linux.SocketTables

/-!
# Reading the tables of sockets

What the parsers make of each line: the column of retransmits, which is printed in hexadecimal, is
read as a decimal number, so that a line with a letter in it is not read.
-/

namespace LibGTop.Linux

open Base

/-- The directives of the columns behind the remote address. -/
def columnsFormat : List Directive :=
  directives none " %*x %*x:%*x %*x:%*x %*d %*d %*d %d".toList

theorem inetFormat_eq :
    inetFormat = directives none "%*d: %*x:%*x %8x:%4x".toList ++ columnsFormat := by decide

theorem inet6Format_eq : inet6Format =
    directives none "%*d: %*s %8x%8x%8x%8x:%4x".toList ++ columnsFormat := by decide

section

variable {ds : List Directive} {rest : List UInt8}

theorem sscanf_hex (column : HexText) (hr : EndsNumber 16 rest) :
    sscanf (.number 16 none false :: ds) (column.1 ++ rest) = sscanf ds rest :=
  sscanf_skipped (scanfNumber_digits (by decide) spaces_nil column.2.2 column.2.1 hr)

theorem sscanf_blank_hex (column : HexText) (hr : EndsNumber 16 rest) :
    sscanf (.blank :: .number 16 none false :: ds) (32 :: (column.1 ++ rest)) = sscanf ds rest := by
  have hscan : scanfNumber 16 none ([32] ++ (column.1 ++ rest)) = _ :=
    scanfNumber_digits (by decide) (spaces_singleton 32 (by decide)) column.2.2 column.2.1 hr
  rw [sscanf_blank_number]
  exact sscanf_skipped hscan

theorem spaces_cons_replicate (count : Nat) :
    ∀ b ∈ 32 :: List.replicate count (32 : UInt8), isSpace b :=
  List.forall_mem_cons.mpr ⟨by decide, spaces_replicate count⟩

theorem sscanf_padded (width : Nat) (value : Int) (hr : EndsNumber 10 rest) :
    sscanf (.number 10 none false :: ds) (padded width (signedDecimal value) ++ rest) =
      sscanf ds rest := by
  rw [padded, List.append_assoc]
  exact sscanf_skipped (scanfNumber_signedDecimal (spaces_replicate _) value hr)

theorem sscanf_blank_padded (width : Nat) (value : Int) (hr : EndsNumber 10 rest) :
    sscanf (.blank :: .number 10 none false :: ds)
      (32 :: (padded width (signedDecimal value) ++ rest)) = sscanf ds rest := by
  rw [sscanf_blank_number, padded, List.append_assoc, ← List.cons_append]
  exact sscanf_skipped (scanfNumber_signedDecimal (spaces_cons_replicate _) value hr)

theorem assignedNumber_toNat (word : BitVec 32) : assignedNumber 16 word.toNat = word := by
  have hlt := word.isLt
  have hclamp := clampUnsigned_toNat (word.setWidth 64)
  rw [BitVec.toNat_setWidth, Nat.mod_eq_of_lt (by omega)] at hclamp
  rw [assignedNumber, if_neg (by decide), hclamp, BitVec.setWidth_setWidth_of_le _ (by decide),
    BitVec.setWidth_eq]

/-- A word of an address is read from its eight digits. -/
theorem sscanf_word (word : BitVec 32) :
    sscanf (.number 16 (some 8) true :: ds) (hexNumeral 8 word.toNat ++ rest) =
      word :: sscanf ds rest := by
  have hscan := scanfNumber_hexNumeral spaces_nil (Nat.succ_ne_zero 7) word.isLt rest
  exact (sscanf_assigned hscan).trans (by rw [assignedNumber_toNat])

theorem sscanf_blank_word (word : BitVec 32) :
    sscanf (.blank :: .number 16 (some 8) true :: ds) (32 :: (hexNumeral 8 word.toNat ++ rest)) =
      word :: sscanf ds rest := by
  have hscan := scanfNumber_hexNumeral (spaces_singleton 32 (by decide)) (Nat.succ_ne_zero 7)
    word.isLt rest
  rw [sscanf_blank_number]
  exact (sscanf_assigned hscan).trans (by rw [assignedNumber_toNat])

/-- A port is read from its four digits. -/
theorem sscanf_port (port : BitVec 16) :
    sscanf (.number 16 (some 4) true :: ds) (hexNumeral 4 port.toNat ++ rest) =
      port.setWidth 32 :: sscanf ds rest := by
  have hlt := port.isLt
  have hport := assignedNumber_toNat (port.setWidth 32)
  rw [BitVec.toNat_setWidth, Nat.mod_eq_of_lt (by omega)] at hport
  have hscan := scanfNumber_hexNumeral spaces_nil (Nat.succ_ne_zero 3) hlt rest
  exact (sscanf_assigned hscan).trans (by rw [hport])

/-- A hexadecimal numeral without a letter is read as a decimal number. -/
theorem sscanf_blank_legible {digits : List UInt8} (hn : digits ≠ [])
    (h : ∀ b ∈ digits, isDigitIn 10 b) (hr : EndsNumber 10 rest) :
    sscanf (.blank :: .number 10 none false :: ds) (32 :: (digits ++ rest)) = sscanf ds rest := by
  have hscan : scanfNumber 10 none ([32] ++ (digits ++ rest)) = _ :=
    scanfNumber_digits (by decide) (spaces_singleton 32 (by decide)) h hn hr
  rw [sscanf_blank_number]
  exact sscanf_skipped hscan

/-- At a letter no decimal number is read. -/
theorem scanfNumber_letter {blanks : List UInt8} (hb : ∀ b ∈ blanks, isSpace b) {b : UInt8}
    (h16 : isDigitIn 16 b = true) (h10 : isDigitIn 10 b = false) :
    scanfNumber 10 none (blanks ++ b :: rest) = none := by
  obtain ⟨hm, hp, hs⟩ := ne_of_isDigitIn (by decide) h16
  have h48 : b ≠ 48 := by
    rintro rfl
    exact absurd h10 (by decide)
  have hhead : ∀ c ∈ (b :: rest).head?, isSpace c = false := by
    intro c hc
    obtain rfl := Option.mem_some_iff.mp hc
    exact hs
  rw [scanfNumber_none hb hhead]
  exact scanfField_none h10 ⟨hm, hp, h48⟩ rest

/-- With a letter in a hexadecimal numeral, it or the decimal number behind it is not read. -/
theorem sscanf_blank_letter {digits : List UInt8} (hd : ∀ b ∈ digits, isDigitIn 16 b)
    (h : ¬∀ b ∈ digits, isDigitIn 10 b) (assigned : Bool) :
    sscanf (.blank :: .number 10 none false :: .blank :: .number 10 none assigned :: ds)
      (32 :: (digits ++ rest)) = [] := by
  have hsplit := List.takeWhile_append_dropWhile (p := isDigitIn 10) (l := digits)
  have hpre : ∀ b ∈ digits.takeWhile (isDigitIn 10), isDigitIn 10 b := fun b hb ↦
    List.mem_takeWhile_imp hb
  cases hdrop : digits.dropWhile (isDigitIn 10) with
  | nil => exact absurd (List.dropWhile_eq_nil_iff.mp hdrop) h
  | cons b post =>
    have hb10 : isDigitIn 10 b = false := by
      have hhead := List.head?_dropWhile_not (isDigitIn 10) digits
      rw [hdrop, List.head?_cons] at hhead
      simpa using hhead
    have hb16 : isDigitIn 16 b = true :=
      hd b ((List.dropWhile_suffix (isDigitIn 10)).subset (hdrop ▸ List.mem_cons_self))
    rw [hdrop] at hsplit
    rw [← hsplit, List.append_assoc, List.cons_append]
    by_cases hn : digits.takeWhile (isDigitIn 10) = []
    · have hscan : scanfNumber 10 none ([32] ++ b :: (post ++ rest)) = none :=
        scanfNumber_letter (spaces_singleton 32 (by decide)) hb16 hb10
      rw [hn, List.nil_append, sscanf_blank_number]
      exact sscanf_failed hscan
    · have hends : EndsNumber 10 (b :: (post ++ rest)) :=
        .cons ⟨hb10, not_isHexMark_of_isDigitIn (by decide) hb16⟩ _
      rw [sscanf_blank_legible hn hpre hends, sscanf_blank_number]
      exact sscanf_failed (scanfNumber_letter spaces_nil hb16 hb10)

end

/-- The number that is kept of an inode that is read with `%d`, and with `atoi`. -/
def inodeKey (inode : BitVec 64) : Int := toInt32 (clampLong inode.toNat)

/-- The inode is read where the retransmits have no letter, and nothing is where they have one. -/
theorem sscanf_columns {address : Type} (row : InetRow address) (ending : List UInt8) :
    sscanf columnsFormat (row.columns ++ ending) =
      if row.Legible then [BitVec.ofInt 32 (clampLong row.inode.toNat)] else [] := by
  have hformat : columnsFormat =
      [.blank, .number 16 none false, .blank, .number 16 none false, .byte 58,
        .number 16 none false, .blank, .number 16 none false, .byte 58, .number 16 none false,
        .blank, .number 10 none false, .blank, .number 10 none false, .blank,
        .number 10 none false, .blank, .number 10 none true] := by decide
  have h32 : ∀ text, EndsNumber 16 (32 :: text) := .cons (by decide)
  have h58 : ∀ text, EndsNumber 16 (58 :: text) := .cons (by decide)
  have h32' : ∀ text, EndsNumber 10 (32 :: text) := .cons (by decide)
  have huid : decimal row.uid = signedDecimal row.uid := (signedDecimal_natCast _).symm
  rw [hformat, InetRow.columns]
  simp only [List.cons_append, List.append_assoc]
  rw [sscanf_blank_hex row.st (h32 _), sscanf_blank_hex row.txQueue (h58 _), sscanf_byte,
    sscanf_hex row.rxQueue (h32 _), sscanf_blank_hex row.tr (h58 _), sscanf_byte,
    sscanf_hex row.tmWhen (h32 _)]
  split
  · next hlegible =>
    rw [sscanf_blank_legible (hexNumeral_ne_nil (by decide) _) hlegible (h32' _), huid,
      sscanf_blank_padded 5 _ (h32' _), sscanf_blank_padded 8 _ (h32' _), sscanf_blank_number,
      ← signedDecimal_natCast]
    exact sscanf_assigned
      (scanfNumber_signedDecimal (spaces_singleton 32 (by decide)) _ (h32' _))
  · next hletter =>
    exact sscanf_blank_letter (fun _ ↦ isDigitIn_of_mem_hexNumeral) hletter false

theorem toInt_port (port : BitVec 16) : (port.setWidth 32).toInt = port.toNat := by
  have hlt := port.isLt
  rw [BitVec.toInt_eq_toNat_of_lt (by rw [BitVec.toNat_setWidth]; omega), BitVec.toNat_setWidth,
    Nat.mod_eq_of_lt (by omega)]

/-- A line of `/proc/net/tcp` is read where its retransmits have no letter. -/
theorem inetSocketParser_tcpText (inetNtop : InetNtop) (row : InetRow (BitVec 32))
    (ending : List UInt8) :
    inetSocketParser inetNtop (tcpText row ++ ending) =
      if row.Legible then
        some (inodeKey row.inode, ⟨(inetNtop.inet row.remAddress).1, row.remPort.toNat⟩)
      else none := by
  have hformat : inetFormat = .number 10 none false :: .byte 58 :: .blank ::
      .number 16 none false :: .byte 58 :: .number 16 none false :: .blank ::
        .number 16 (some 8) true :: .byte 58 :: .number 16 (some 4) true :: columnsFormat :=
    inetFormat_eq
  have hsl : decimal row.sl = signedDecimal row.sl := (signedDecimal_natCast _).symm
  have hscan : sscanf inetFormat (tcpText row ++ ending) =
      row.remAddress :: row.remPort.setWidth 32 ::
        sscanf columnsFormat (row.columns ++ ending) := by
    rw [hformat, tcpText, InetRow.text, hsl]
    simp only [List.cons_append, List.append_assoc]
    rw [sscanf_padded 4 _ (.cons (by decide) _), sscanf_byte,
      sscanf_blank_hex row.localAddress (.cons (by decide) _), sscanf_byte,
      sscanf_hex row.localPort (.cons (by decide) _), sscanf_blank_word, sscanf_byte, sscanf_port]
  rw [inetSocketParser, hscan, sscanf_columns]
  by_cases h : row.Legible
  · simp only [if_pos h, toInt_port]
    rfl
  · simp only [if_neg h]

/-- The local address and its port are skipped as a word. -/
theorem sscanf_localText {address : Type} (row : InetRow address) {ds : List Directive}
    (rest : List UInt8) :
    sscanf (.blank :: .string :: ds)
        (32 :: (row.localAddress.1 ++ 58 :: (row.localPort.1 ++ 32 :: rest))) =
      sscanf ds (32 :: rest) := by
  have hdigit : ∀ b, isDigitIn 16 b = true → isSpace b = false := fun b hb ↦
    (ne_of_isDigitIn (by decide) hb).2.2
  have hword : ∀ b ∈ row.localAddress.1 ++ 58 :: row.localPort.1, isSpace b = false := by
    rw [List.forall_mem_append, List.forall_mem_cons]
    exact ⟨fun b hb ↦ hdigit b (row.localAddress.2.2 b hb), by decide,
      fun b hb ↦ hdigit b (row.localPort.2.2 b hb)⟩
  have hn := List.append_ne_nil_of_left_ne_nil row.localAddress.2.1 (58 :: row.localPort.1)
  have htext : 32 :: (row.localAddress.1 ++ 58 :: (row.localPort.1 ++ 32 :: rest)) =
      [32] ++ ((row.localAddress.1 ++ 58 :: row.localPort.1) ++ 32 :: rest) := by simp
  rw [htext]
  exact sscanf_blank_string (spaces_singleton 32 (by decide)) hn hword (by decide) rest

/-- A line of `/proc/net/tcp6` is read where its retransmits have no letter. -/
theorem inet6SocketParser_tcp6Text (inetNtop : InetNtop) (row : InetRow In6Addr)
    (ending : List UInt8) :
    inet6SocketParser inetNtop (tcp6Text row ++ ending) =
      if row.Legible then
        some (inodeKey row.inode, ⟨(inetNtop.inet6 row.remAddress).1, row.remPort.toNat⟩)
      else none := by
  have hformat : inet6Format = .number 10 none false :: .byte 58 :: .blank :: .string :: .blank ::
      .number 16 (some 8) true :: .number 16 (some 8) true :: .number 16 (some 8) true ::
        .number 16 (some 8) true :: .byte 58 :: .number 16 (some 4) true :: columnsFormat :=
    inet6Format_eq
  have hsl : decimal row.sl = signedDecimal row.sl := (signedDecimal_natCast _).symm
  have hscan : sscanf inet6Format (tcp6Text row ++ ending) =
      row.remAddress.word0 :: row.remAddress.word1 :: row.remAddress.word2 ::
        row.remAddress.word3 :: row.remPort.setWidth 32 ::
          sscanf columnsFormat (row.columns ++ ending) := by
    rw [hformat, tcp6Text, InetRow.text, hsl]
    simp only [List.cons_append, List.append_assoc]
    rw [sscanf_padded 4 _ (.cons (by decide) _), sscanf_byte, sscanf_localText, sscanf_blank_word,
      sscanf_word, sscanf_word, sscanf_word, sscanf_byte, sscanf_port]
  rw [inet6SocketParser, hscan, sscanf_columns]
  by_cases h : row.Legible
  · simp only [if_pos h, toInt_port]
    rfl
  · simp only [if_neg h]

section

variable {tail : List UInt8} {words : List (List UInt8)}

/-- As many tokens are skipped as there are. -/
theorem skipMultipleToken_words (hw : ∀ word ∈ words, IsToken word) (ht : Blank tail) :
    skipMultipleToken (nextToken (spaced words tail)) words.length = nextToken tail := by
  induction words with
  | nil => rfl
  | cons word words ih =>
    obtain ⟨hword, hw⟩ := List.forall_mem_cons.mp hw
    rw [spaced_cons, nextToken_blank, hword.head, List.length_cons, skipMultipleToken,
      skipToken_token hword (blank_spaced ht words)]
    exact ih hw

end

theorem isTokenByte_of_isDigitIn {b : UInt8} (h : isDigitIn 16 b = true) :
    isTokenByte b = true := by
  rw [isDigitIn, decide_eq_true_eq] at h
  have h48 : 48 ≤ b.toNat := le_of_digitValue_lt (by omega)
  have hne : ∀ c : UInt8, c.toNat < 48 → b ≠ c := by
    rintro c hc rfl
    omega
  simp [isTokenByte, gAsciiIsspace, hne 0 (by decide), hne 32 (by decide), hne 9 (by decide),
    hne 10 (by decide), hne 12 (by decide), hne 13 (by decide)]

theorem HexText.isToken (column : HexText) : IsToken column.1 :=
  ⟨column.2.1, fun b hb ↦ isTokenByte_of_isDigitIn (column.2.2 b hb)⟩

/-- The number that is kept of an inode that is read with `strtoul`. -/
def localKey (inode : BitVec 64) : Int := (inode.setWidth 32).toInt

/-- What is kept of the name of a local socket. -/
def UnixRow.keptName (row : UnixRow) : List UInt8 :=
  gStrstrip ((row.name.elim [] Subtype.val).take 45)

/-- A line of `/proc/net/unix`. -/
theorem localSocketParser_unixText (row : UnixRow) :
    localSocketParser (unixText row ++ [10]) = some (localKey row.inode, row.keptName) := by
  let words :=
    [row.num.1 ++ [58], row.refCount.1, row.protocol.1, row.flags.1, row.type.1, row.st.1]
  let tail := 32 :: (padded 5 (decimal row.inode.toNat) ++
    (row.name.elim [] (fun name ↦ 32 :: name.1) ++ [10]))
  have hnum : IsToken (row.num.1 ++ [58]) := by
    refine ⟨List.append_ne_nil_of_left_ne_nil row.num.2.1 _, ?_⟩
    rw [List.forall_mem_append, List.forall_mem_singleton]
    exact ⟨row.num.2.2, by decide⟩
  have hwords : ∀ word ∈ words, IsToken word := by
    simp only [words, List.forall_mem_cons]
    exact ⟨hnum, row.refCount.isToken, row.protocol.isToken, row.flags.isToken, row.type.isToken,
      row.st.isToken, List.forall_mem_nil _⟩
  have hline : unixText row ++ [10] = nextToken (spaced words tail) := by
    rw [spaced_cons, nextToken_blank, hnum.head]
    simp [unixText, tail]
  have hp : skipMultipleToken (unixText row ++ [10]) 6 = nextToken tail := by
    rw [hline]
    exact skipMultipleToken_words hwords (blank_cons (by decide) _)
  have hspace : ∀ b ∈ 32 :: List.replicate (5 - (decimal row.inode.toNat).length) (32 : UInt8),
      gAsciiIsspace b = true := by
    intro b hb
    rw [← List.replicate_succ, List.mem_replicate] at hb
    rw [hb.2]
    rfl
  have hstops : Stops (row.name.elim [] (fun name ↦ 32 :: name.1) ++ [10]) := by
    cases row.name with
    | none => exact .cons 10 (by decide) []
    | some name => exact .cons 32 (by decide) _
  have hnumber : nextToken tail = decimal row.inode.toNat ++
      (row.name.elim [] (fun name ↦ 32 :: name.1) ++ [10]) := by
    simp only [tail, padded, List.append_assoc]
    rw [← List.cons_append, nextToken, List.dropWhile_append_of_pos hspace]
    exact (isToken_decimal _).head _
  have hread := strtoull_decimal (.inr rfl) spaces_nil row.inode.toNat hstops
  rw [List.nil_append, clampUnsigned_toNat] at hread
  rw [localSocketParser, hp, hnumber, hread]
  refine congrArg (fun name ↦ some (localKey row.inode, name)) ?_
  rw [UnixRow.keptName, gStrstrip, gStrstrip]
  cases row.name with
  | none => rfl
  | some name =>
    change strip gAsciiIsspace (32 :: (name.1 ++ [10]).take 45) =
      strip gAsciiIsspace (name.1.take 45)
    rw [List.take_append]
    have hblank : ∀ b ∈ [32], gAsciiIsspace b = true := by decide
    refine strip_around hblank (fun b hb ↦ ?_) _
    obtain rfl := List.mem_singleton.mp (List.mem_of_mem_take hb)
    rfl

/-- The bytes are those of a line. -/
def IsLine (text : List UInt8) : Prop := ∀ b ∈ text, b ≠ 0 ∧ b ≠ 10

@[simp] theorem isLine_nil : IsLine [] := List.forall_mem_nil _

@[simp] theorem isLine_cons (b : UInt8) (text : List UInt8) :
    IsLine (b :: text) ↔ (b ≠ 0 ∧ b ≠ 10) ∧ IsLine text := List.forall_mem_cons

@[simp] theorem isLine_append (before text : List UInt8) :
    IsLine (before ++ text) ↔ IsLine before ∧ IsLine text := List.forall_mem_append

theorem isLine_of_digits {digits : List UInt8} (h : ∀ b ∈ digits, isDigitIn 16 b) :
    IsLine digits := by
  intro b hb
  have hd := h b hb
  constructor
  · rintro rfl
    exact absurd hd (by decide)
  · rintro rfl
    exact absurd hd (by decide)

@[simp] theorem isLine_hexText (column : HexText) : IsLine column.1 :=
  isLine_of_digits column.2.2

@[simp] theorem isLine_hexNumeral (count value : Nat) : IsLine (hexNumeral count value) :=
  isLine_of_digits fun _ ↦ isDigitIn_of_mem_hexNumeral

@[simp] theorem isLine_lineText (more : LineText) : IsLine more.1 := more.2

theorem isLine_of_isToken {word : List UInt8} (h : IsToken word) : IsLine word := by
  intro b hb
  have ht := h.2 b hb
  constructor
  · rintro rfl
    exact absurd ht (by decide)
  · rintro rfl
    exact absurd ht (by decide)

@[simp] theorem isLine_decimal (value : Nat) : IsLine (decimal value) :=
  isLine_of_isToken (isToken_decimal value)

@[simp] theorem isLine_signedDecimal (value : Int) : IsLine (signedDecimal value) :=
  isLine_of_isToken (isToken_signedDecimal value)

@[simp] theorem isLine_padded (width : Nat) (number : List UInt8) :
    IsLine (padded width number) ↔ IsLine number := by
  have hblanks : IsLine (List.replicate (width - number.length) 32) := by
    intro b hb
    rw [(List.mem_replicate.mp hb).2]
    decide
  rw [padded, isLine_append, and_iff_right hblanks]

theorem isLine_tcpText (row : InetRow (BitVec 32)) : IsLine (tcpText row) := by
  simp [tcpText, InetRow.text, InetRow.columns]

theorem isLine_tcp6Text (row : InetRow In6Addr) : IsLine (tcp6Text row) := by
  simp [tcp6Text, InetRow.text, InetRow.columns]

theorem isLine_unixText (row : UnixRow) : IsLine (unixText row) := by
  have hname : IsLine (row.name.elim [] fun name ↦ 32 :: name.1) := by
    cases row.name with
    | none => exact isLine_nil
    | some name => simp
  simp [unixText, hname, isLine_of_isToken row.num.2]

end LibGTop.Linux
