import LibGTop.Base.Numerals

/-!
# The authentication of an internet client

`timed_read` (`src/daemon/gnuserv.c:117–157`) and `permitted`
(`src/daemon/gnuserv.c:164–258`), with `AUTH_MAGIC_COOKIE` defined. The bytes a
client sends are those that arrive before it closes the connection, a call
fails or the time is up, so a read that needs more of them fails.
-/

namespace LibGTop.Daemon

open Base

/-- `MCOOKIE_NAME`, `include/glibtop/gnuserv.h:80`. -/
def mcookieName : List UInt8 := asciiBytes ['M', 'A', 'G', 'I', 'C', '-', '1']

/-- `DEFAUTH_NAME`, `include/glibtop/gnuserv.h:84`. -/
def defauthName : List UInt8 := asciiBytes ['G', 'N', 'U', '-', 'S', 'E', 'C', 'U', 'R', 'E']

/-- `AUTH_NAMESZ`, `include/glibtop/gnuserv.h:86`. -/
def authNamesz : Nat := 15

/-- The byte of `'\n'`. -/
def newline : UInt8 := 10

/-- The loop of `timed_read`, `src/daemon/gnuserv.c:132–150`: the bytes read and those left. It
reads one byte at least. -/
def readBytes (oneLine : Bool) : Nat → List UInt8 → Option (List UInt8 × List UInt8)
  | _, [] => none
  | max, c :: stream =>
    if 1 < max ∧ ¬(oneLine ∧ c = newline) then
      (readBytes oneLine (max - 1) stream).map fun (bytes, rest) ↦ (c :: bytes, rest)
    else some ([c], stream)

/-- What `timed_read` leaves of a line it has read: a final newline becomes the terminator, and
there is no other terminator. -/
def storeLine (bytes : List UInt8) : List UInt8 :=
  if bytes.getLast? = some newline then bytes.dropLast ++ [0] else bytes

/-- `timed_read`, `src/daemon/gnuserv.c:117–157`: the bytes stored and those left. -/
def timedRead (oneLine : Bool) (max : Nat) (stream : List UInt8) :
    Option (List UInt8 × List UInt8) :=
  (readBytes oneLine max stream).map fun (bytes, rest) ↦
    (if oneLine then storeLine bytes else bytes, rest)

/-- The local arrays of `permitted` as the stack leaves them. -/
structure Arrays where
  authProtocol : List UInt8
  buf : List UInt8
  authProtocol_length : authProtocol.length = 128
  buf_length : buf.length = 1024

/-- The data of `server_xauth` and the bytes of the heap behind it. -/
structure Cookie where
  data : List UInt8
  beyond : Nat → UInt8

/-- The first bytes at the address of the cookie. -/
def Cookie.memory (c : Cookie) (size : Nat) : List UInt8 :=
  (c.data ++ (List.range size).map c.beyond).take size

/-- Over its own length the memory of a cookie is the cookie. -/
theorem Cookie.memory_length (c : Cookie) : c.memory c.data.length = c.data := by
  rw [Cookie.memory, List.take_left]

/-- What a server checks a client against: `server_xauth` when it has data, `invoked_from_inetd`
and the table `permitted_hosts`. -/
structure AuthServer where
  cookie : Option Cookie
  invokedFromInetd : Bool
  permittedHosts : List (BitVec 64)

/-- The comparison of `src/daemon/gnuserv.c:211–212`, which takes its length from the client. -/
def AuthServer.cookieMatches (server : AuthServer) (data : List UInt8) : Bool :=
  !server.invokedFromInetd &&
    match server.cookie with
    | none => false
    | some c => data = c.memory data.length

/-- The scan of the host table, `src/daemon/gnuserv.c:247–257`; an empty entry ends it. -/
def tableScan (hostAddr : BitVec 64) : List (BitVec 64) → Bool
  | [] => false
  | entry :: table =>
    if entry = 0#64 then false else if hostAddr = entry then true else tableScan hostAddr table

/-- The exits of `permitted`: `TRUE` for the cookie, `TRUE` for the host and `FALSE`. -/
inductive Decision
  | cookie
  | host
  | refused
  deriving DecidableEq, Repr

/-- How `permitted` ends: its decision, the lines it has compared with a name or parsed as a
number, as `timed_read` has stored them, and the bytes it has not read. -/
structure Verdict where
  decision : Decision
  lines : List (List UInt8)
  rest : List UInt8
  deriving DecidableEq

/-- The old authentication, `src/daemon/gnuserv.c:241–257`. -/
def AuthServer.gnuSecure (server : AuthServer) (hostAddr : BitVec 64) : Decision :=
  if tableScan hostAddr server.permittedHosts then .host else .refused

/-- `permitted`, `src/daemon/gnuserv.c:164–258`. A string without a terminator goes on with what
its array held before, to the end of the array. -/
def permitted (server : AuthServer) (hostAddr : BitVec 64) (arrays : Arrays)
    (stream : List UInt8) : Verdict :=
  match timedRead true authNamesz stream with
  | none => ⟨.refused, [], []⟩
  | some (name, stream) =>
    let authProtocol := cString (overlay arrays.authProtocol name)
    if authProtocol ≠ defauthName ∧ authProtocol ≠ mcookieName then
      ⟨.refused, [name], stream⟩
    else if authProtocol = mcookieName then
      match timedRead true 10 stream with
      | none => ⟨.refused, [name], []⟩
      | some (line, stream) =>
        let authDataLen := atoi (cString (overlay arrays.buf line))
        if authDataLen < 1 ∨ 1024 < authDataLen then ⟨.refused, [name, line], stream⟩
        else
          match timedRead false authDataLen.toNat stream with
          | none => ⟨.refused, [name, line], []⟩
          | some (data, stream) =>
            if server.cookieMatches data then ⟨.cookie, [name, line], stream⟩
            else ⟨server.gnuSecure hostAddr, [name, line], stream⟩
    else ⟨server.gnuSecure hostAddr, [name], stream⟩

/-- The data a client presents: what follows the name of the magic-cookie protocol and a length
that is accepted. -/
def presented (arrays : Arrays) (stream : List UInt8) : Option (List UInt8) :=
  match timedRead true authNamesz stream with
  | none => none
  | some (name, stream) =>
    if cString (overlay arrays.authProtocol name) ≠ mcookieName then none
    else
      match timedRead true 10 stream with
      | none => none
      | some (line, stream) =>
        let authDataLen := atoi (cString (overlay arrays.buf line))
        if authDataLen < 1 ∨ 1024 < authDataLen then none
        else (timedRead false authDataLen.toNat stream).map Prod.fst

/-- How a `timed_read` of a line can end: before the line has, with the line filled up, or with
its newline. -/
inductive LineRead (max : Nat) (stream : List UInt8) : Option (List UInt8 × List UInt8) → Prop
  | short (hl : stream.length < max) (hn : newline ∉ stream) : LineRead max stream none
  | full (bytes rest : List UInt8) (hs : stream = bytes ++ rest) (hn : newline ∉ bytes)
      (hl : bytes.length = max) : LineRead max stream (some (bytes, rest))
  | ended (text rest : List UInt8) (hs : stream = text ++ newline :: rest) (hn : newline ∉ text)
      (hl : text.length < max) : LineRead max stream (some (text ++ [0], rest))

private theorem storeLine_of_notMem {bytes : List UInt8} (h : newline ∉ bytes) :
    storeLine bytes = bytes := by
  rw [storeLine, if_neg]
  exact fun hl ↦ h (List.mem_of_getLast? hl)

private theorem storeLine_newline (text : List UInt8) :
    storeLine (text ++ [newline]) = text ++ [0] := by
  rw [storeLine, if_pos List.getLast?_concat, List.dropLast_concat]

/-- The bytes a line is read from: either it fills up or its last byte is its first newline. -/
private theorem readBytes_line (max : Nat) (stream : List UInt8) (hm : 0 < max) :
    match readBytes true max stream with
    | none => stream.length < max ∧ newline ∉ stream
    | some (bytes, rest) => stream = bytes ++ rest ∧
        ((newline ∉ bytes ∧ bytes.length = max) ∨
          ∃ text, bytes = text ++ [newline] ∧ newline ∉ text ∧ text.length < max) := by
  induction stream generalizing max with
  | nil => exact ⟨hm, List.not_mem_nil⟩
  | cons c stream ih =>
    rw [readBytes]
    by_cases hc : 1 < max ∧ ¬(true ∧ c = newline)
    · rw [if_pos hc]
      obtain ⟨h1, hn⟩ := hc
      have hn : newline ≠ c := fun he ↦ hn ⟨rfl, he.symm⟩
      have hr := ih (max - 1) (by omega)
      cases he : readBytes true (max - 1) stream with
      | none =>
        rw [he] at hr
        simp only [Option.map_none, List.length_cons, List.mem_cons, not_or]
        exact ⟨by omega, hn, hr.2⟩
      | some read =>
        rw [he] at hr
        obtain ⟨hs, hb | ⟨text, ht, hb, hl⟩⟩ := hr
        · refine ⟨by rw [hs]; rfl, .inl ⟨?_, ?_⟩⟩
          · simp only [List.mem_cons, not_or]
            exact ⟨hn, hb.1⟩
          · rw [List.length_cons, hb.2]
            omega
        · refine ⟨by rw [hs]; rfl, .inr ⟨c :: text, by rw [ht]; rfl, ?_, ?_⟩⟩
          · simp only [List.mem_cons, not_or]
            exact ⟨hn, hb⟩
          · rw [List.length_cons]
            omega
    · rw [if_neg hc]
      refine ⟨rfl, ?_⟩
      by_cases hn : c = newline
      · exact .inr ⟨[], by rw [hn]; rfl, List.not_mem_nil, hm⟩
      · refine .inl ⟨fun he ↦ hn (List.mem_singleton.mp he).symm, ?_⟩
        have h1 : ¬1 < max := fun h1 ↦ hc ⟨h1, fun he ↦ hn he.2⟩
        simp only [List.length_singleton]
        omega

/-- `timed_read` of a line ends in one of the three ways. -/
theorem timedRead_line (max : Nat) (stream : List UInt8) (hm : 0 < max) :
    LineRead max stream (timedRead true max stream) := by
  have hr := readBytes_line max stream hm
  rw [timedRead]
  cases he : readBytes true max stream with
  | none =>
    rw [he] at hr
    exact .short hr.1 hr.2
  | some read =>
    obtain ⟨bytes, rest⟩ := read
    rw [he] at hr
    obtain ⟨hs, hb | ⟨text, ht, hb, hl⟩⟩ := hr
    · simp only [Option.map_some, if_true, storeLine_of_notMem hb.1]
      exact .full bytes rest hs hb.1 hb.2
    · simp only [Option.map_some, if_true, ht, storeLine_newline]
      exact .ended text rest (by rw [hs, ht, List.append_assoc]; rfl) hb hl

/-- `timed_read` of a line that fits takes the line and its newline. -/
theorem timedRead_text (max : Nat) (text rest : List UInt8) (hn : newline ∉ text)
    (hl : text.length < max) :
    timedRead true max (text ++ newline :: rest) = some (text ++ [0], rest) := by
  have hr : readBytes true max (text ++ newline :: rest) = some (text ++ [newline], rest) := by
    induction text generalizing max with
    | nil => simp [readBytes]
    | cons c text ih =>
      obtain ⟨hc, hn⟩ := not_or.mp (mt List.mem_cons.mpr hn)
      rw [List.length_cons] at hl
      rw [List.cons_append, readBytes, if_pos ⟨by omega, fun he ↦ hc he.2.symm⟩,
        ih (max - 1) hn (by omega)]
      rfl
  simp only [timedRead, hr, Option.map_some, if_true, storeLine_newline]

/-- `timed_read` of data takes exactly the bytes it is asked for. -/
theorem timedRead_data (data rest : List UInt8) (hd : data ≠ []) :
    timedRead false data.length (data ++ rest) = some (data, rest) := by
  have hr : readBytes false data.length (data ++ rest) = some (data, rest) := by
    induction data with
    | nil => exact absurd rfl hd
    | cons c data ih =>
      rw [List.cons_append, readBytes]
      cases data with
      | nil => rw [if_neg (by simp)]; rfl
      | cons b data =>
        rw [if_pos (by simp), List.length_cons, Nat.add_sub_cancel, ih (List.cons_ne_nil b data)]
        rfl
  rw [timedRead, hr]
  rfl

theorem AuthServer.gnuSecure_ne_cookie (server : AuthServer) (hostAddr : BitVec 64) :
    server.gnuSecure hostAddr ≠ .cookie := by
  rw [gnuSecure]
  split <;> exact Decision.noConfusion

/-- `permitted` accepts by the cookie exactly when the data the client presents passes the
comparison. -/
theorem permitted_cookie_iff (server : AuthServer) (hostAddr : BitVec 64) (arrays : Arrays)
    (stream : List UInt8) :
    (permitted server hostAddr arrays stream).decision = .cookie ↔
      ∃ data, presented arrays stream = some data ∧ server.cookieMatches data := by
  have hg := server.gnuSecure_ne_cookie hostAddr
  rw [permitted, presented]
  cases timedRead true authNamesz stream with
  | none => simp
  | some name =>
    by_cases hn : cString (overlay arrays.authProtocol name.1) = mcookieName
    · simp only [hn, ne_eq, not_true_eq_false, and_false, if_false, if_true]
      cases timedRead true 10 name.2 with
      | none => simp
      | some line =>
        by_cases hl : atoi (cString (overlay arrays.buf line.1)) < 1 ∨
          1024 < atoi (cString (overlay arrays.buf line.1))
        · simp only [hl, if_true]
          simp
        · simp only [hl, if_false]
          cases timedRead false _ line.2 with
          | none => simp
          | some data =>
            simp only [Option.map_some, Option.some.injEq, exists_eq_left']
            by_cases hm : server.cookieMatches data.1
            · simp [hm]
            · simp [hm, hg]
    · simp only [hn, ne_eq, not_false_eq_true, and_true, if_true, if_false, reduceCtorEq,
        false_and, exists_false, iff_false]
      split
      · exact Decision.noConfusion
      · exact hg

theorem tableScan_mem {hostAddr : BitVec 64} {table : List (BitVec 64)}
    (h : tableScan hostAddr table) : hostAddr ∈ table := by
  induction table with
  | nil => exact absurd h Bool.false_ne_true
  | cons entry table ih =>
    rw [tableScan] at h
    split at h
    · exact absurd h Bool.false_ne_true
    · split at h
      · next he => exact he ▸ List.mem_cons_self
      · exact List.mem_cons_of_mem _ (ih h)

/-- `permitted` accepts by the host only an address of the table. -/
theorem permitted_host {server : AuthServer} {hostAddr : BitVec 64} {arrays : Arrays}
    {stream : List UInt8} (h : (permitted server hostAddr arrays stream).decision = .host) :
    hostAddr ∈ server.permittedHosts := by
  have hg : server.gnuSecure hostAddr = .host → hostAddr ∈ server.permittedHosts := by
    intro hd
    rw [AuthServer.gnuSecure] at hd
    split at hd
    · next ht => exact tableScan_mem ht
    · exact absurd hd Decision.noConfusion
  rw [permitted] at h
  split at h
  · exact absurd h Decision.noConfusion
  · simp only at h
    split at h
    · exact absurd h Decision.noConfusion
    · split at h
      · split at h
        · exact absurd h Decision.noConfusion
        · split at h
          · exact absurd h Decision.noConfusion
          · split at h
            · exact absurd h Decision.noConfusion
            · split at h
              · exact absurd h Decision.noConfusion
              · exact hg h
      · exact hg h

/-- The lines `permitted` looks at: the name and, when it is that of the magic-cookie protocol,
the length. -/
theorem permitted_lines (server : AuthServer) (hostAddr : BitVec 64) (arrays : Arrays)
    (stream : List UInt8) :
    (permitted server hostAddr arrays stream).lines =
      match timedRead true authNamesz stream with
      | none => []
      | some (name, rest) =>
        name :: if cString (overlay arrays.authProtocol name) = mcookieName then
          ((timedRead true 10 rest).map Prod.fst).toList else [] := by
  rw [permitted]
  cases timedRead true authNamesz stream with
  | none => rfl
  | some name =>
    by_cases hn : cString (overlay arrays.authProtocol name.1) = mcookieName
    · simp only [hn, ne_eq, not_true_eq_false, and_false, if_false, if_true]
      cases timedRead true 10 name.2 with
      | none => rfl
      | some line =>
        simp only [Option.map_some, Option.toList_some]
        split
        · rfl
        · split
          · rfl
          · split <;> rfl
    · simp only [hn, if_false]
      split <;> rfl

end LibGTop.Daemon
