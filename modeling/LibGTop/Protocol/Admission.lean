import LibGTop.Protocol.Authentication
import LibGTop.Protocol.Service

/-!
# Clients of the library at the daemon

What the daemon makes of the credentials that `connect_to_internet_server` writes.
Whom it lets in, on how much of them, and that its handler then reads the requests
of the client from their first byte on.
-/

namespace LibGTop.Protocol

open Base Wire Daemon

/-- A client of the library on an internet connection: the data of its `Xauth` when it has found
one, whose length is an `unsigned short`, and the bytes of its requests. -/
structure LibraryClient where
  xauth : Option (List UInt8)
  requests : List UInt8
  short : ∀ data ∈ xauth, data.length < 65536

/-- All bytes this client sends. -/
def LibraryClient.sent (client : LibraryClient) : List UInt8 :=
  credentials client.xauth ++ client.requests

/-- The data of this client, if it has any, is of a length that the daemon takes. -/
def LibraryClient.Presentable (client : LibraryClient) : Prop :=
  ∀ data ∈ client.xauth, data ≠ [] ∧ data.length ≤ 1024

/-- The data of this client passes the comparison with the cookie, or its host is in the table. -/
def LibraryClient.Vouched (server : AuthServer) (hostAddr : BitVec 64) (client : LibraryClient) :
    Prop :=
  (∃ data ∈ client.xauth, server.cookieMatches data) ∨ tableScan hostAddr server.permittedHosts

/-- The daemon lets this client in when the whole of its credentials arrives in time. -/
def LibraryClient.Admissible (server : AuthServer) (hostAddr : BitVec 64) (arrived : Nat)
    (client : LibraryClient) : Prop :=
  (credentials client.xauth).length ≤ arrived ∧ client.Presentable ∧
    client.Vouched server hostAddr

/-- The old authentication refuses exactly the hosts its scan does not find. -/
theorem gnuSecure_ne_refused (server : AuthServer) (hostAddr : BitVec 64) :
    server.gnuSecure hostAddr ≠ .refused ↔ tableScan hostAddr server.permittedHosts := by
  rw [AuthServer.gnuSecure]
  split
  · next ht => exact iff_of_true Decision.noConfusion ht
  · next ht => exact iff_of_false (fun h ↦ h rfl) ht

section Credentials

variable (server : AuthServer) (hostAddr : BitVec 64) (arrays : Arrays)

/-- A string that `timed_read` stores with its terminator is the string that is compared. -/
private theorem cString_overlay (array text : List UInt8) (h : 0 ∉ text) :
    cString (overlay array (text ++ [0])) = text := by
  rw [overlay, List.append_assoc]
  exact cString_append_zero _ _ h

/-- A client without data is judged by its host. -/
theorem permitted_defauth (rest : List UInt8) :
    permitted server hostAddr arrays (credentials none ++ rest) =
      ⟨server.gnuSecure hostAddr, [defauthName ++ [0]], rest⟩ := by
  have hname := timedRead_text authNamesz defauthName rest (by decide) (by decide)
  have hm := cString_overlay arrays.authProtocol defauthName (by decide)
  have hne : defauthName ≠ mcookieName := by decide
  rw [credentials, List.append_assoc, List.singleton_append, permitted, hname]
  simp only [hm, ne_eq, not_true_eq_false, false_and, hne, if_false]

/-- What `permitted` makes of the length that a client with data sends. -/
theorem permitted_length {data : List UInt8} (hl : data.length < 65536) (rest : List UInt8) :
    permitted server hostAddr arrays (credentials (some data) ++ rest) =
      let lines := [mcookieName ++ [0], asciiBytes (numeral data.length) ++ [0]]
      if data = [] ∨ 1024 < data.length then ⟨.refused, lines, data ++ rest⟩
      else if server.cookieMatches data then ⟨.cookie, lines, rest⟩
      else ⟨server.gnuSecure hostAddr, lines, rest⟩ := by
  have hdigits : (asciiBytes (numeral data.length)).length < 10 := by
    rw [asciiBytes, List.length_map]
    exact Nat.lt_succ_of_le ((Nat.length_toDigits_le_iff (by decide) (by decide)).mpr (by omega))
  have hname := timedRead_text authNamesz mcookieName
    (asciiBytes (numeral data.length) ++ newline :: (data ++ rest)) (by decide) (by decide)
  have hlen := timedRead_text 10 (asciiBytes (numeral data.length)) (data ++ rest)
    (notMem_numeral _ (by decide)) hdigits
  have hm := cString_overlay arrays.authProtocol mcookieName (by decide)
  have hn := cString_overlay arrays.buf _ (notMem_numeral data.length (b := 0) (by decide))
  have hatoi : atoi (asciiBytes (numeral data.length)) = data.length :=
    atoi_numeral _ (by omega)
  have hcond : ((data.length : Int) < 1 ∨ 1024 < (data.length : Int)) ↔
      data = [] ∨ 1024 < data.length := by
    rw [← List.length_eq_zero_iff]
    omega
  rw [permitted, credentials]
  simp only [List.append_assoc, List.cons_append, hname, hm, hlen, hn, hatoi, hcond, ne_eq,
    not_true_eq_false, and_false, if_false, if_true, Int.toNat_natCast]
  split
  · rfl
  · next hd =>
    rw [timedRead_data data rest fun he ↦ hd (.inl he)]

/-- A client of the library is let in when it is presentable and vouched for, and what is left of
what it sends are then its requests. -/
theorem permitted_client (client : LibraryClient) :
    ((permitted server hostAddr arrays client.sent).decision ≠ .refused ↔
      client.Presentable ∧ client.Vouched server hostAddr) ∧
    ((permitted server hostAddr arrays client.sent).decision ≠ .refused →
      (permitted server hostAddr arrays client.sent).rest = client.requests) := by
  obtain ⟨xauth, requests, short⟩ := client
  simp only [LibraryClient.sent, LibraryClient.Presentable, LibraryClient.Vouched]
  cases xauth with
  | none =>
    rw [permitted_defauth]
    refine ⟨?_, fun _ ↦ rfl⟩
    simp only [Option.not_mem_none, false_and, exists_false, false_or, false_imp_iff, implies_true,
      true_and]
    exact gnuSecure_ne_refused server hostAddr
  | some data =>
    rw [permitted_length server hostAddr arrays (short data rfl)]
    simp only [Option.mem_def, Option.some.injEq, forall_eq', exists_eq_left']
    by_cases hd : data = [] ∨ 1024 < data.length
    · have hn : ¬(data ≠ [] ∧ data.length ≤ 1024) := by
        rw [not_and_or, not_not, Nat.not_le]
        exact hd
      simp only [hd, if_true, hn, false_and, ne_eq, not_true_eq_false, false_imp_iff, and_self]
    · have hp : data ≠ [] ∧ data.length ≤ 1024 := by
        rw [not_or, Nat.not_lt] at hd
        exact hd
      rw [if_neg hd, and_iff_right hp]
      by_cases hm : server.cookieMatches data
      · rw [if_pos hm, or_iff_left_of_imp fun _ ↦ hm]
        exact ⟨iff_of_true Decision.noConfusion hm, fun _ ↦ rfl⟩
      · rw [if_neg hm, or_iff_right hm]
        exact ⟨gnuSecure_ne_refused server hostAddr, fun _ ↦ rfl⟩

end Credentials

/-- A client of the library that connects is let in exactly when it is admissible: of credentials
that are cut off nobody is let in. Its child is left its requests, whether they have arrived by
then or not. -/
theorem verdict_client (server : AuthServer) {a : Arrival} {client : LibraryClient}
    (hs : a.sent = client.sent) :
    ((a.verdict server).decision ≠ .refused ↔
      client.Admissible server a.hostAddr a.arrived) ∧
    ((a.verdict server).decision ≠ .refused → a.behind server = client.requests) := by
  have hc := permitted_client server a.hostAddr a.arrays client
  rw [← hs] at hc
  have hleft : (a.verdict server).decision ≠ .refused → a.behind server = client.requests := by
    intro hd
    obtain ⟨hsame, hrest⟩ := a.permitted_sent server hd
    rw [← hrest]
    exact hc.2 (hsame ▸ hd)
  refine ⟨⟨fun hd ↦ ?_, fun ⟨hl, hp, hv⟩ ↦ ?_⟩, hleft⟩
  · obtain ⟨hsame, -⟩ := a.permitted_sent server hd
    refine ⟨?_, hc.1.mp (hsame ▸ hd)⟩
    -- what has not arrived is a part of the requests
    have hlen : (a.sent.drop a.arrived).length ≤ client.requests.length := by
      rw [← hleft hd, Arrival.behind, List.length_append]
      exact Nat.le_add_left _ _
    rw [hs, LibraryClient.sent, List.length_drop, List.length_append] at hlen
    omega
  · have ht : a.sent.take a.arrived =
        credentials client.xauth ++ client.requests.take (a.arrived -
          (credentials client.xauth).length) := by
      rw [hs, LibraryClient.sent, List.take_append, List.take_of_length_le hl]
    rw [Arrival.verdict, ht]
    exact (permitted_client server a.hostAddr a.arrays
      ⟨client.xauth, client.requests.take (a.arrived - (credentials client.xauth).length),
        client.short⟩).1.mpr ⟨hp, hv⟩

variable {abi : Abi} {limit : Nat}

/-- With a descriptor for it, a client of the library that is admissible gets a child that starts on
its requests; one that is not leaves nothing behind. -/
theorem request_client (server : AuthServer) {a : Arrival} {client : LibraryClient}
    (hsent : a.sent = client.sent) {s : DaemonState abi limit} {socket : Nat}
    {descriptors : DescriptorTable limit}
    (ha : s.descriptors.allocate = some (socket, descriptors)) :
    (client.Admissible server a.hostAddr a.arrived →
      s.request server a true =
        { s with
          phase := .reaping
          descriptors := descriptors
          children := s.children ++ [⟨s.grants.length, .fresh abi client.requests⟩]
          grants := s.grants ++ [⟨socket, a⟩] }) ∧
    (¬client.Admissible server a.hostAddr a.arrived →
      s.request server a true = { s with phase := .reaping }) := by
  obtain ⟨hd, hleft⟩ := verdict_client server hsent
  rw [DaemonState.request, ha]
  constructor
  · intro hc
    have hn : ¬(a.verdict server).decision = .refused := hd.mpr hc
    simp only [hn, if_false, if_true]
    rw [hleft hn]
  · intro hc
    have hn : (a.verdict server).decision = .refused := not_not.mp (mt hd.mp hc)
    simp only [hn, if_true]
    rw [DescriptorTable.release_allocate ha]

end LibGTop.Protocol
