import LibGTop.Daemon.Handshake

/-!
# Authentication of an internet client

Whom `permitted` lets in. The cookie is compared over as many bytes as the
client says it sends, and a line that fills its maximum is stored without a
terminator; each of the two theorems says for which input this matters.
-/

namespace LibGTop.Protocol

open Base Daemon

/-- What `connect_to_internet_server` writes on its new connection,
`sysdeps/common/gnuslib.c:289–299`, when it has found a cookie and when it has not. -/
def credentials : Option (List UInt8) → List UInt8
  | some data => mcookieName ++ newline :: (asciiBytes (numeral data.length) ++ newline :: data)
  | none => defauthName ++ [newline]

/-- A client that has the cookie presents the whole of it. -/
theorem presented_credentials (arrays : Arrays) (data rest : List UInt8) (hd : data ≠ [])
    (hl : data.length ≤ 1024) :
    presented arrays (credentials (some data) ++ rest) = some data := by
  have hpos : 0 < data.length := List.length_pos_iff.mpr hd
  have hdigits : (asciiBytes (numeral data.length)).length < 10 := by
    rw [asciiBytes, List.length_map]
    exact Nat.lt_succ_of_le ((Nat.length_toDigits_le_iff (by decide) (by decide)).mpr (by omega))
  have hname := timedRead_text authNamesz mcookieName
    (asciiBytes (numeral data.length) ++ newline :: (data ++ rest)) (by decide) (by decide)
  have hlen := timedRead_text 10 (asciiBytes (numeral data.length)) (data ++ rest)
    (notMem_numeral _ (by decide)) hdigits
  have hatoi : atoi (asciiBytes (numeral data.length)) = data.length :=
    atoi_numeral _ (by omega)
  have hm : cString (overlay arrays.authProtocol (mcookieName ++ [0])) = mcookieName := by
    rw [overlay, List.append_assoc]
    exact cString_append_zero _ _ (by decide)
  have hn : cString (overlay arrays.buf (asciiBytes (numeral data.length) ++ [0])) =
      asciiBytes (numeral data.length) := by
    rw [overlay, List.append_assoc]
    exact cString_append_zero _ _ (notMem_numeral _ (by decide))
  have hlong : ¬((data.length : Int) < 1 ∨ 1024 < (data.length : Int)) := by omega
  rw [presented, credentials]
  simp only [List.append_assoc, List.cons_append, hname, hm, hlen, hn, hatoi, hlong, ne_eq,
    not_true_eq_false, if_false, Int.toNat_natCast, timedRead_data data rest hd, Option.map_some]

/-- The client presents the cookie of the server, the whole of it. -/
def PresentsCookie (server : AuthServer) (arrays : Arrays) (stream : List UInt8) : Prop :=
  ∃ c, server.cookie = some c ∧ presented arrays stream = some c.data

/-- `permitted` accepts by the cookie only a client that presents the whole cookie, and any other
client only from an address of the host table. -/
def CookieSound (server : AuthServer) (hostAddr : BitVec 64) (arrays : Arrays)
    (stream : List UInt8) : Prop :=
  ((permitted server hostAddr arrays stream).decision = .cookie →
    PresentsCookie server arrays stream) ∧
  ((permitted server hostAddr arrays stream).decision ≠ .refused →
    ¬PresentsCookie server arrays stream → hostAddr ∈ server.permittedHosts)

/-- The client does not present, to a server that may compare it, data of another length that
agrees with the memory at the cookie as far as it goes. -/
def LengthHonest (server : AuthServer) (arrays : Arrays) (stream : List UInt8) : Prop :=
  server.invokedFromInetd = false → ∀ c data, server.cookie = some c →
    presented arrays stream = some data →
    data.length = c.data.length ∨ data ≠ c.memory data.length

private theorem cookieMatches_iff (server : AuthServer) (data : List UInt8) :
    server.cookieMatches data ↔ server.invokedFromInetd = false ∧
      ∃ c, server.cookie = some c ∧ data = c.memory data.length := by
  rw [AuthServer.cookieMatches, Bool.and_eq_true, Bool.not_eq_true']
  cases server.cookie with
  | none => simp
  | some c => simp

/-- A client that has the cookie of the server is let in by it. -/
theorem permitted_credentials (server : AuthServer) (hostAddr : BitVec 64) (arrays : Arrays)
    (c : Cookie) (rest : List UInt8) (hi : server.invokedFromInetd = false)
    (hc : server.cookie = some c) (hd : c.data ≠ []) (hl : c.data.length ≤ 1024) :
    (permitted server hostAddr arrays (credentials (some c.data) ++ rest)).decision = .cookie := by
  apply (permitted_cookie_iff server hostAddr arrays _).mpr
  refine ⟨c.data, presented_credentials arrays c.data rest hd hl, ?_⟩
  exact (cookieMatches_iff server c.data).mpr ⟨hi, c, hc, c.memory_length.symm⟩

/-- The authentication by cookie is sound exactly for clients that present no proper prefix of the
memory at the cookie, nor more of it than the cookie. -/
theorem cookie_sound_iff (server : AuthServer) (hostAddr : BitVec 64) (arrays : Arrays)
    (stream : List UInt8) :
    CookieSound server hostAddr arrays stream ↔ LengthHonest server arrays stream := by
  have hd := permitted_cookie_iff server hostAddr arrays stream
  constructor
  · intro h hi c data hc hp
    by_cases hm : data = c.memory data.length
    · left
      have ha : server.cookieMatches data :=
        (cookieMatches_iff server data).mpr ⟨hi, c, hc, hm⟩
      obtain ⟨c', hc', hp'⟩ := h.1 (hd.mpr ⟨data, hp, ha⟩)
      rw [hc, Option.some.injEq] at hc'
      rw [hp, Option.some.injEq] at hp'
      rw [hp', hc']
    · exact .inr hm
  · intro h
    have hs : (permitted server hostAddr arrays stream).decision = .cookie →
        PresentsCookie server arrays stream := by
      intro ha
      obtain ⟨data, hp, hm⟩ := hd.mp ha
      obtain ⟨hi, c, hc, hm⟩ := (cookieMatches_iff server data).mp hm
      refine ⟨c, hc, ?_⟩
      obtain hl | hn := h hi c data hc hp
      · rw [hp, hm, hl, Cookie.memory_length]
      · exact absurd hm hn
    refine ⟨hs, fun ha hw ↦ ?_⟩
    cases he : (permitted server hostAddr arrays stream).decision with
    | cookie => exact absurd (hs he) hw
    | host => exact permitted_host he
    | refused => exact absurd he ha

/-- Local arrays that are zero. -/
def zeroArrays : Arrays := ⟨zeros 128, zeros 1024, length_zeros 128, length_zeros 1024⟩

/-- A client that sends the first byte of a cookie and says that this is one byte is let in,
whatever its address. -/
theorem cookie_prefix_accepted :
    ¬CookieSound ⟨some ⟨[7, 1, 9, 4], fun _ ↦ 0⟩, false, []⟩ 0 zeroArrays
      (asciiBytes ['M', 'A', 'G', 'I', 'C', '-', '1', '\n', '1', '\n'] ++ [7]) := by
  intro h
  obtain ⟨c, hc, hp⟩ := h.1 (by decide)
  have hd : presented zeroArrays
      (asciiBytes ['M', 'A', 'G', 'I', 'C', '-', '1', '\n', '1', '\n'] ++ [7]) = some [7] := by
    decide
  rw [hd, Option.some.injEq] at hp
  rw [← Option.some.inj hc] at hp
  exact absurd hp (by decide)

/-- The text of the line at the start of a stream, read up to `max` bytes. -/
def lineText (max : Nat) (stream : List UInt8) : List UInt8 :=
  (stream.take max).takeWhile (· != newline)

/-- The stream behind this line. -/
def afterLine (max : Nat) (stream : List UInt8) : List UInt8 :=
  stream.drop (min max ((lineText max stream).length + 1))

/-- The first `max` bytes of a stream do not make a line without an end: they hold a newline or a
terminator, or there are fewer. -/
def LineTerminated (max : Nat) (stream : List UInt8) : Prop :=
  stream.length < max ∨ newline ∈ stream.take max ∨ 0 ∈ stream.take max

/-- Each line a client sends has an end: the name and, when it is that of the magic-cookie
protocol, the length. -/
def LinesTerminated (stream : List UInt8) : Prop :=
  LineTerminated authNamesz stream ∧
    (cString (lineText authNamesz stream) = mcookieName →
      LineTerminated 10 (afterLine authNamesz stream))

/-- The authentication depends on its input only: not on what its local arrays held, neither in
its decision nor in how much it reads, and every string it compares or parses has a terminator
that `timed_read` has stored. -/
def InputDetermined (server : AuthServer) (hostAddr : BitVec 64) (stream : List UInt8) : Prop :=
  (∀ a b : Arrays,
    (permitted server hostAddr a stream).decision = (permitted server hostAddr b stream).decision ∧
    (permitted server hostAddr a stream).rest = (permitted server hostAddr b stream).rest) ∧
  ∀ a : Arrays, ∀ line ∈ (permitted server hostAddr a stream).lines, 0 ∈ line

private theorem takeWhile_text {text rest : List UInt8} (hn : newline ∉ text) :
    (text ++ newline :: rest).takeWhile (· != newline) = text := by
  have ht : ∀ c ∈ text, (c != newline) = true := fun c hc ↦
    bne_iff_ne.mpr fun he ↦ hn (he ▸ hc)
  rw [List.takeWhile_append_of_pos ht, List.takeWhile_cons_of_neg (by simp), List.append_nil]

private theorem takeWhile_self {text : List UInt8} (hn : newline ∉ text) :
    text.takeWhile (· != newline) = text :=
  List.takeWhile_eq_self_iff.mpr fun _ hc ↦ bne_iff_ne.mpr fun he ↦ hn (he ▸ hc)

/-- A line that is read is the text at the start of the stream, and it has a terminator exactly
when it has an end. -/
theorem lineRead_some {max : Nat} {stream line rest : List UInt8}
    (h : LineRead max stream (some (line, rest))) :
    cString line = cString (lineText max stream) ∧ rest = afterLine max stream ∧
      (0 ∈ line ↔ LineTerminated max stream) := by
  cases h with
  | full _ _ hs hn hl =>
    have ht : stream.take max = line := by rw [hs, ← hl, List.take_left]
    have hx : lineText max stream = line := by rw [lineText, ht, takeWhile_self hn]
    refine ⟨by rw [hx], ?_, ?_⟩
    · rw [afterLine, hx, hl, Nat.min_eq_left (Nat.le_succ max), hs, ← hl, List.drop_left]
    · have hlen : ¬stream.length < max := by
        rw [hs, List.length_append]
        omega
      rw [LineTerminated, ht]
      tauto
  | ended text _ hs hn hl =>
    obtain ⟨k, hk⟩ := Nat.exists_eq_add_of_lt hl
    have ht : stream.take max = text ++ newline :: rest.take k := by
      rw [hs, List.take_append, List.take_of_length_le (by omega),
        show max - text.length = k + 1 by omega, List.take_succ_cons]
    have hx : lineText max stream = text := by rw [lineText, ht, takeWhile_text hn]
    refine ⟨?_, ?_, ?_⟩
    · rw [hx, cString_concat_zero]
    · rw [afterLine, hx, Nat.min_eq_right hl, hs, List.append_cons, List.drop_left' (by simp)]
    · rw [LineTerminated, ht]
      simp

/-- A line that is not read is the end of the stream. -/
theorem lineRead_none {max : Nat} {stream : List UInt8} (h : LineRead max stream none) :
    LineTerminated max stream ∧ afterLine max stream = [] := by
  cases h with
  | short hl hn =>
    have ht : stream.take max = stream := List.take_of_length_le (Nat.le_of_lt hl)
    refine ⟨.inl hl, ?_⟩
    rw [afterLine, lineText, ht, takeWhile_self hn, Nat.min_eq_right hl]
    exact List.drop_of_length_le (Nat.le_succ _)

/-- A string with a terminator of its own does not depend on the array it is stored in. -/
private theorem cString_stored (array : List UInt8) {line : List UInt8} (h : 0 ∈ line) :
    cString (overlay array line) = cString line :=
  cString_append_of_mem line _ h

/-- With an end to each line, the arrays do not matter. -/
theorem permitted_congr (server : AuthServer) (hostAddr : BitVec 64) {stream : List UInt8}
    (h : LinesTerminated stream) (a b : Arrays) :
    permitted server hostAddr a stream = permitted server hostAddr b stream := by
  have hn := timedRead_line authNamesz stream (by decide)
  rw [permitted, permitted]
  cases hr : timedRead true authNamesz stream with
  | none => rfl
  | some read =>
    obtain ⟨name, rest⟩ := read
    rw [hr] at hn
    obtain ⟨ht, hrest, hz⟩ := lineRead_some hn
    have hname := hz.mpr h.1
    simp only [cString_stored _ hname]
    by_cases hc : cString name = mcookieName
    · have hl := timedRead_line 10 rest (by decide)
      simp only [hc]
      cases hr' : timedRead true 10 rest with
      | none => rfl
      | some read' =>
        obtain ⟨line, rest'⟩ := read'
        rw [hr', hrest] at hl
        have hline := (lineRead_some hl).2.2.mpr (h.2 (ht ▸ hc))
        simp only [cString_stored _ hline]
    · simp only [hc, if_false]

/-- A line that is read has a terminator exactly when it has an end. -/
theorem timedRead_terminated_iff (max : Nat) (stream : List UInt8) (hm : 0 < max) :
    (∀ read, timedRead true max stream = some read → 0 ∈ read.1) ↔ LineTerminated max stream := by
  have hl := timedRead_line max stream hm
  cases hr : timedRead true max stream with
  | none =>
    rw [hr] at hl
    exact iff_of_true nofun (lineRead_none hl).1
  | some read =>
    rw [hr] at hl
    simp only [Option.some.injEq, forall_eq']
    exact (lineRead_some hl).2.2

/-- Every string that is compared or parsed has a terminator exactly when each line has an
end. -/
theorem lines_terminated_iff (server : AuthServer) (hostAddr : BitVec 64) (stream : List UInt8) :
    (∀ a : Arrays, ∀ line ∈ (permitted server hostAddr a stream).lines, 0 ∈ line) ↔
      LinesTerminated stream := by
  have hl := timedRead_line authNamesz stream (by decide)
  simp only [permitted_lines]
  cases hr : timedRead true authNamesz stream with
  | none =>
    rw [hr] at hl
    obtain ⟨ht, ha⟩ := lineRead_none hl
    refine iff_of_true (fun _ _ hm ↦ absurd hm List.not_mem_nil) ⟨ht, fun _ ↦ .inl ?_⟩
    rw [ha]
    exact Nat.zero_lt_succ _
  | some read =>
    obtain ⟨name, rest⟩ := read
    rw [hr] at hl
    obtain ⟨ht, rfl, hz⟩ := lineRead_some hl
    rw [LinesTerminated, ← hz, ← ht, ← timedRead_terminated_iff 10 _ (by decide)]
    simp only [List.forall_mem_cons]
    constructor
    · intro h
      obtain ⟨hname, hlen⟩ := h zeroArrays
      refine ⟨hname, fun hc read hread ↦ hlen read.1 ?_⟩
      simp [cString_stored _ hname, hc, hread]
    · intro ⟨hname, hlen⟩ a
      refine ⟨hname, fun line hline ↦ ?_⟩
      rw [cString_stored _ hname] at hline
      split at hline
      · next hc =>
        obtain ⟨read, hread, rfl⟩ := Option.map_eq_some_iff.mp (Option.mem_toList.mp hline)
        exact hlen hc read hread
      · exact absurd hline List.not_mem_nil

/-- The authentication depends on its input only exactly when each line of the client has an
end. -/
theorem input_determined_iff (server : AuthServer) (hostAddr : BitVec 64)
    (stream : List UInt8) :
    InputDetermined server hostAddr stream ↔ LinesTerminated stream := by
  constructor
  · intro h
    exact (lines_terminated_iff server hostAddr stream).mp h.2
  · intro h
    refine ⟨fun a b ↦ ?_, (lines_terminated_iff server hostAddr stream).mpr h⟩
    rw [permitted_congr server hostAddr h a b]
    exact ⟨rfl, rfl⟩

/-- Local arrays with a digit behind the first ten bytes of `buf`. -/
private def digitArrays : Arrays :=
  ⟨zeros 128, zeros 10 ++ 48 :: zeros 1013, length_zeros 128, by simp⟩

/-- A length of ten digits without a newline goes on with what the stack held: the same client is
let in or refused. -/
theorem length_runs_on :
    ¬InputDetermined ⟨some ⟨[7], fun _ ↦ 0⟩, false, []⟩ 0
      (asciiBytes ['M', 'A', 'G', 'I', 'C', '-', '1', '\n', '0', '0', '0', '0', '0', '0', '0',
        '0', '0', '1'] ++ [7]) := by
  intro h
  have hd := (h.1 zeroArrays digitArrays).1
  exact absurd hd (by decide)

end LibGTop.Protocol
