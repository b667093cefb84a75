import LibGTop.Daemon.Handshake

/-!
# The table of permitted hosts

`setup_table` (`src/daemon/gnuserv.c:261–332`) and the two ways `main` gets to
`permitted` (`src/daemon/gnuserv.c:339–381`, `564–608`). The table is static, so
it is empty until `setup_table` has run, and the entry of an unset name stays
empty.
-/

namespace LibGTop.Daemon

/-- What `glibtop_internet_addr` returns for a name it cannot resolve. -/
def unresolved : BitVec 64 := -1

/-- How the daemon was started: it listens itself, or inetd has accepted its client. -/
inductive Startup
  | standalone
  | inetd
  deriving DecidableEq, Repr

section

variable (resolve : List Char → BitVec 64)

/-- The entry of `permitted_hosts` for an entry of `permitted_host_names`. -/
def hostEntry (name : Option (List Char)) : BitVec 64 := (name.map resolve).getD 0

/-- The loop of `setup_table` over the names, `src/daemon/gnuserv.c:306–321`; absent when it ends
the process. -/
def resolveHosts : List (Option (List Char)) → Option (List (BitVec 64))
  | [] => some []
  | none :: names => (resolveHosts names).map fun table ↦ 0 :: table
  | some name :: names =>
    if resolve name = unresolved then none
    else (resolveHosts names).map fun table ↦ resolve name :: table

/-- `setup_table`, `src/daemon/gnuserv.c:261–332`; absent when it ends the process. -/
def setupTable (hostname : List Char) (names : List (Option (List Char))) :
    Option (List (BitVec 64)) :=
  if resolve hostname = unresolved then none else resolveHosts resolve names

/-- What `main` has set up when it calls `permitted`, `src/daemon/gnuserv.c:564–608`. Only
`internet_init` calls `setup_table`; `xauth` is what `XauGetAuthByAddr` finds there. -/
def startServer (startup : Startup) (xauth : Option Cookie) (hostname : List Char)
    (names : List (Option (List Char))) : Option AuthServer :=
  match startup with
  | .inetd => some ⟨none, true, List.replicate names.length 0⟩
  | .standalone => (setupTable resolve hostname names).map fun table ↦ ⟨xauth, false, table⟩

/-- A table that is set up has the entry of each name at the place of the name. -/
theorem resolveHosts_eq_some {names : List (Option (List Char))} {table : List (BitVec 64)}
    (h : resolveHosts resolve names = some table) : table = names.map (hostEntry resolve) := by
  induction names generalizing table with
  | nil => exact (Option.some.inj h).symm
  | cons name names ih =>
    cases name with
    | none =>
      obtain ⟨rest, hr, rfl⟩ := Option.map_eq_some_iff.mp h
      rw [ih hr]
      rfl
    | some name =>
      rw [resolveHosts] at h
      split at h
      · exact absurd h (Option.some_ne_none table).symm
      · obtain ⟨rest, hr, rfl⟩ := Option.map_eq_some_iff.mp h
        rw [ih hr]
        rfl

/-- The table of a server that listens itself. -/
theorem startServer_standalone {xauth : Option Cookie} {hostname : List Char}
    {names : List (Option (List Char))} {server : AuthServer}
    (h : startServer resolve .standalone xauth hostname names = some server) :
    server.permittedHosts = names.map (hostEntry resolve) := by
  obtain ⟨table, ht, rfl⟩ := Option.map_eq_some_iff.mp h
  rw [setupTable] at ht
  split at ht
  · exact absurd ht (Option.some_ne_none table).symm
  · exact resolveHosts_eq_some resolve ht

end

/-- The scan finds the addresses that stand before the first empty entry. -/
theorem tableScan_iff (hostAddr : BitVec 64) (table : List (BitVec 64)) :
    tableScan hostAddr table ↔ hostAddr ∈ table.takeWhile (· ≠ 0#64) := by
  induction table with
  | nil => simp [tableScan]
  | cons entry table ih =>
    rw [tableScan]
    by_cases he : entry = 0#64
    · rw [if_pos he, List.takeWhile_cons_of_neg (by simpa using he)]
      simp
    · rw [if_neg he, List.takeWhile_cons_of_pos (by simpa using he), List.mem_cons, ← ih]
      split
      · next ha => simp [ha]
      · next ha => simp [ha]

/-- The client announces the protocol that is not the magic cookie. -/
def AnnouncesDefault (arrays : Arrays) (stream : List UInt8) : Prop :=
  ∃ name rest, timedRead true authNamesz stream = some (name, rest) ∧
    Base.cString (Base.overlay arrays.authProtocol name) = defauthName

/-- Such a client is judged by its address alone. -/
theorem permitted_of_default (server : AuthServer) (hostAddr : BitVec 64) {arrays : Arrays}
    {stream : List UInt8} (h : AnnouncesDefault arrays stream) :
    (permitted server hostAddr arrays stream).decision = server.gnuSecure hostAddr := by
  obtain ⟨name, rest, hr, hn⟩ := h
  have hne : defauthName ≠ mcookieName := by decide
  rw [permitted, hr]
  simp only [hn, hne, ne_eq, not_true_eq_false, false_and, if_false]

end LibGTop.Daemon
