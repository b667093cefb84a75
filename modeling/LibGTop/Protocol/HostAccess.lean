import LibGTop.Daemon.HostTable
import LibGTop.Protocol.Authentication

/-!
# Access by address

Which of the configured hosts `permitted` lets in. The table is filled entry by
entry but scanned only up to its first empty entry, and a daemon that inetd has
started does not fill it at all.
-/

namespace LibGTop.Protocol

open Daemon

/-- The address of some name of a list. -/
def Listed (resolve : List Char → BitVec 64) (names : List (Option (List Char)))
    (hostAddr : BitVec 64) : Prop :=
  ∃ name, some name ∈ names ∧ resolve name = hostAddr

/-- The names before the first entry that is not set. -/
def leadingNames (names : List (Option (List Char))) : List (Option (List Char)) :=
  names.takeWhile Option.isSome

/-- A client that has found no cookie announces the default protocol. -/
theorem announcesDefault_credentials (arrays : Arrays) (rest : List UInt8) :
    AnnouncesDefault arrays (credentials none ++ rest) := by
  refine ⟨defauthName ++ [0], rest, ?_, ?_⟩
  · rw [credentials, List.append_assoc]
    exact timedRead_text authNamesz defauthName rest (by decide) (by decide)
  · rw [Base.overlay, List.append_assoc]
    exact Base.cString_append_zero _ _ (by decide)

/-- A server lets a client in exactly when its address is that of a configured host. -/
def AccessListed (resolve : List Char → BitVec 64) (names : List (Option (List Char)))
    (hostAddr : BitVec 64) (decision : Decision) : Prop :=
  decision ≠ .refused ↔ Listed resolve names hostAddr

/-- A host with this address, if there is one, has been entered where the scan gets to: by a daemon
that listens itself, and before the first entry that is not set. -/
def Reached (resolve : List Char → BitVec 64) (names : List (Option (List Char)))
    (startup : Startup) (hostAddr : BitVec 64) : Prop :=
  Listed resolve names hostAddr →
    startup = .standalone ∧ Listed resolve (leadingNames names) hostAddr

section

variable {resolve : List Char → BitVec 64} {names : List (Option (List Char))}

private theorem mem_hostEntries_iff (hn : ∀ name, some name ∈ names → resolve name ≠ 0)
    (hostAddr : BitVec 64) :
    hostAddr ∈ (names.map (hostEntry resolve)).takeWhile (· ≠ 0#64) ↔
      Listed resolve (leadingNames names) hostAddr := by
  have ht : (names.map (hostEntry resolve)).takeWhile (· ≠ 0#64) =
      (leadingNames names).map (hostEntry resolve) := by
    rw [leadingNames]
    induction names with
    | nil => rfl
    | cons name names ih =>
      cases name with
      | none => rfl
      | some name =>
        have hz : hostEntry resolve (some name) ≠ 0 := hn name List.mem_cons_self
        rw [List.map_cons, List.takeWhile_cons_of_pos (by simpa using hz),
          List.takeWhile_cons_of_pos rfl, List.map_cons,
          ih fun n hm ↦ hn n (List.mem_cons_of_mem _ hm)]
  rw [ht, List.mem_map, Listed]
  constructor
  · rintro ⟨name, hm, he⟩
    have hs : name.isSome := List.mem_takeWhile_imp hm
    obtain ⟨n, rfl⟩ := Option.isSome_iff_exists.mp hs
    exact ⟨n, hm, he⟩
  · rintro ⟨name, hm, he⟩
    exact ⟨some name, hm, he⟩

private theorem listed_of_leading {hostAddr : BitVec 64}
    (h : Listed resolve (leadingNames names) hostAddr) : Listed resolve names hostAddr := by
  obtain ⟨name, hm, he⟩ := h
  exact ⟨name, (List.takeWhile_sublist _).subset hm, he⟩

/-- Whom the table of a started server lets in. -/
theorem gnuSecure_ne_refused_iff {startup : Startup} {xauth : Option Cookie}
    {hostname : List Char} {server : AuthServer}
    (hn : ∀ name, some name ∈ names → resolve name ≠ 0)
    (hs : startServer resolve startup xauth hostname names = some server)
    (hostAddr : BitVec 64) :
    server.gnuSecure hostAddr ≠ .refused ↔
      startup = .standalone ∧ Listed resolve (leadingNames names) hostAddr := by
  have hg : server.gnuSecure hostAddr ≠ .refused ↔ tableScan hostAddr server.permittedHosts := by
    rw [AuthServer.gnuSecure]
    split
    · next ht => simp [ht]
    · next ht => simp [ht]
  rw [hg, tableScan_iff]
  cases startup with
  | standalone =>
    rw [startServer_standalone resolve hs, mem_hostEntries_iff hn]
    simp
  | inetd =>
    rw [← Option.some.inj hs]
    simp

/-- A started server applies its access list to the clients of the default protocol exactly where
a listed host has been reached: not behind an entry that is not set, nor under inetd. -/
theorem host_access_iff (startup : Startup) (xauth : Option Cookie) (hostname : List Char)
    {server : AuthServer} (hn : ∀ name, some name ∈ names → resolve name ≠ 0)
    (hs : startServer resolve startup xauth hostname names = some server)
    (hostAddr : BitVec 64) {arrays : Arrays} {stream : List UInt8}
    (hd : AnnouncesDefault arrays stream) :
    AccessListed resolve names hostAddr (permitted server hostAddr arrays stream).decision ↔
      Reached resolve names startup hostAddr := by
  rw [AccessListed, permitted_of_default server hostAddr hd, gnuSecure_ne_refused_iff hn hs,
    Reached]
  constructor
  · intro h hl
    exact h.mpr hl
  · intro h
    exact ⟨fun hr ↦ listed_of_leading hr.2, h⟩

end

/-- A resolver that gives every name one address. -/
private def loopback : List Char → BitVec 64 := fun _ ↦ 0x0100007f

/-- A daemon with one host that listens itself lets that host in. -/
theorem host_access_one :
    AccessListed loopback [some ['h']] 0x0100007f
      (permitted ⟨none, false, [0x0100007f]⟩ 0x0100007f zeroArrays (credentials none)).decision :=
  (host_access_iff .standalone none ['s'] (fun _ _ ↦ (by decide : (0x0100007f#64) ≠ 0)) rfl
    0x0100007f (announcesDefault_credentials zeroArrays [])).mpr fun _ ↦ ⟨rfl, ['h'], by decide, rfl⟩

/-- A host behind an entry that is not set is refused. -/
theorem host_behind_null :
    startServer loopback .standalone none ['s'] [none, some ['h']] =
        some ⟨none, false, [0, 0x0100007f]⟩ ∧
      ¬AccessListed loopback [none, some ['h']] 0x0100007f
        (permitted ⟨none, false, [0, 0x0100007f]⟩ 0x0100007f zeroArrays
          (credentials none)).decision := by
  refine ⟨rfl, fun h ↦ ?_⟩
  exact h.mpr ⟨['h'], by decide, rfl⟩ (by decide)

end LibGTop.Protocol
