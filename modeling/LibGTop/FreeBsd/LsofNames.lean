import LibGTop.Base.Scan
import LibGTop.FreeBsd.ProcOpenFiles

/-!
# The names of sockets

The names `host:port`, `local:port->host:port`, `[addr]:port` and `[addr]:port->[addr]:port` of
`lsof -n -P`, and when `parse_output` (`sysdeps/freebsd/procopenfiles.c:180–245`) has the remote
address of one.
-/

namespace LibGTop.FreeBsd

open Base Linux

/-- A host without brackets: no byte of it is one of `:`, `[`, `]` and `>`. -/
structure PlainHost where
  bytes : List UInt8
  ne_nil : bytes ≠ []
  plain : ∀ b ∈ bytes, b ≠ 58 ∧ b ≠ 91 ∧ b ≠ 93 ∧ b ≠ 62

/-- An address with colons, which is written in brackets. -/
structure ColonAddress where
  bytes : List UInt8
  colon : 58 ∈ bytes
  plain : ∀ b ∈ bytes, b ≠ 91 ∧ b ≠ 93 ∧ b ≠ 62

/-- A host and its port. -/
inductive SocketAddress
  | plain (host : PlainHost) (port : BitVec 16)
  | bracketed (addr : ColonAddress) (port : BitVec 16)

namespace SocketAddress

/-- `host:port` or `[addr]:port`. -/
def text : SocketAddress → List UInt8
  | plain host port => host.bytes ++ 58 :: decimal port.toNat
  | bracketed addr port => (91 :: addr.bytes) ++ 93 :: 58 :: decimal port.toNat

/-- The address has brackets. -/
def isBracketed : SocketAddress → Bool
  | plain _ _ => false
  | bracketed _ _ => true

/-- The host without brackets, which is that of all addresses for `*`. -/
def destHost : SocketAddress → List UInt8
  | plain host _ => if host.bytes = star then anyHost else host.bytes
  | bracketed addr _ => addr.bytes

/-- The port. -/
def destPort : SocketAddress → Int
  | plain _ port => port.toNat
  | bracketed _ port => port.toNat

end SocketAddress

/-- The address is the only one of a name, or the remote one behind an arrow. -/
def IsRemote (name : List UInt8) (a : SocketAddress) : Prop :=
  name = a.text ∨ ∃ near : SocketAddress, near.isBracketed = a.isBracketed ∧
    name = near.text ++ 45 :: 62 :: a.text

/-- The entry of a name has what is to be had of it: the name, or the remote address. -/
def InfoRight (name : List UInt8) (info : OpenFilesInfo) : LsofType → Prop
  | .unix => info = .localsock name
  | .pipe => True
  | .file => info = .file name
  | .ipv4 | .ipv6 => ∀ a, IsRemote name a → info = .sock a.destHost a.destPort

/-- The addresses that are split right: for IPv4 those without brackets; for IPv6 those with
brackets behind an arrow, and `*:0` alone. The host fits in its field. -/
def AddressRight (name : List UInt8) : LsofType → SocketAddress → Prop
  | .ipv4, .plain host port => (SocketAddress.plain host port).destHost.length ≤ 46
  | .ipv6, .plain host port =>
    name = (SocketAddress.plain host port).text ∧ host.bytes = star ∧ port = 0
  | .ipv6, .bracketed addr port =>
    name ≠ (SocketAddress.bracketed addr port).text ∧ addr.bytes.length ≤ 46
  | _, _ => False

/-- The names that the entry has right: those that fit, and for a socket those that are split in
two, with the address in them right where there is one. -/
def NameRight (name : List UInt8) : LsofType → Prop
  | .unix => name.length ≤ 215
  | .pipe => True
  | .file => name.length ≤ 215
  | .ipv4 => (inetInfo name).isSome ∧ ∀ a, IsRemote name a → AddressRight name .ipv4 a
  | .ipv6 => (∃ info, inet6Info name = some (some info)) ∧
      ∀ a, IsRemote name a → AddressRight name .ipv6 a

/-! ### The parts of an address -/

namespace SocketAddress

theorem notMem_decimal_of_lt {b : UInt8} (h : b.toNat < 48 ∨ 57 < b.toNat) (value : Nat) :
    b ∉ decimal value := by
  intro hb
  have hd := mem_decimal hb
  omega

theorem arrow_notMem_text (a : SocketAddress) : 62 ∉ a.text := by
  cases a with
  | plain host port =>
    have hport : 62 ∉ decimal port.toNat := notMem_decimal_of_lt (.inr (by decide)) _
    have hhost : 62 ∉ host.bytes := fun h ↦ (host.plain _ h).2.2.2 rfl
    simp [text, hport, hhost]
  | bracketed addr port =>
    have hport : 62 ∉ decimal port.toNat := notMem_decimal_of_lt (.inr (by decide)) _
    have haddr : 62 ∉ addr.bytes := fun h ↦ (addr.plain _ h).2.2 rfl
    simp [text, hport, haddr]

theorem text_ne_nil (a : SocketAddress) : a.text ≠ [] := by
  cases a with
  | plain host port => exact List.append_ne_nil_of_right_ne_nil _ (List.cons_ne_nil _ _)
  | bracketed addr port => exact List.cons_ne_nil _ _

/-- A name with one address is split at colons. -/
theorem remoteHost_only (separator : UInt8) (a : SocketAddress) :
    remoteHost separator a.text = strsplit 58 [] a.text := by
  rw [remoteHost, if_pos (strstr_eq_none (b := 62) (by decide) a.arrow_notMem_text), gStrsplit,
    if_neg a.text_ne_nil]

/-- Of a name with two the second one is split at the separator. -/
theorem remoteHost_pair (separator : UInt8) (near a : SocketAddress) :
    remoteHost separator (near.text ++ 45 :: 62 :: a.text) = strsplit separator [] a.text := by
  have hfound : strstr arrow (near.text ++ 45 :: 62 :: a.text) = some (45 :: 62 :: a.text) :=
    strstr_two (by decide) near.arrow_notMem_text a.text
  have hlast : strsplit 45 [62] a.text = [a.text] :=
    strsplit_of_none (strstr_eq_none (b := 62) (by decide) a.arrow_notMem_text)
  have hsplit : gStrsplit 45 [62] (near.text ++ 45 :: 62 :: a.text) = [near.text, a.text] := by
    rw [gStrsplit, if_neg (List.append_ne_nil_of_right_ne_nil _ (List.cons_ne_nil _ _)),
      strsplit_two (by decide) near.arrow_notMem_text, hlast]
  rw [remoteHost, hfound, if_neg (Option.some_ne_none _), hsplit]
  exact if_neg a.text_ne_nil

theorem strsplit_plain (host : PlainHost) (port : BitVec 16) :
    strsplit 58 [] (plain host port).text = [host.bytes, decimal port.toNat] := by
  have hport : 58 ∉ decimal port.toNat := notMem_decimal_of_lt (.inr (by decide)) _
  rw [text, strsplit_byte fun h ↦ (host.plain _ h).1 rfl, strsplit_last hport]

/-- An address in brackets is cut at its first colon. -/
theorem strsplit_bracketed (addr : ColonAddress) (port : BitVec 16) :
    ∃ front second pieces, strsplit 58 [] (bracketed addr port).text =
      (91 :: front) :: second :: pieces ∧ 58 ∉ front := by
  obtain ⟨front, back, hsplit, hfront⟩ := List.eq_append_cons_of_mem addr.colon
  have htext : (bracketed addr port).text =
      (91 :: front) ++ 58 :: (back ++ 93 :: 58 :: decimal port.toNat) := by
    rw [text, hsplit]
    simp
  have hfront' : 58 ∉ 91 :: front := by simp [hfront]
  obtain ⟨second, pieces, hrest⟩ :=
    exists_strsplit 58 [] (back ++ 93 :: 58 :: decimal port.toNat)
  exact ⟨front, second, pieces, by rw [htext, strsplit_byte hfront', hrest], hfront⟩

theorem strsplit_brackets (addr : ColonAddress) (port : BitVec 16) :
    strsplit 93 [] (bracketed addr port).text = [91 :: addr.bytes, 58 :: decimal port.toNat] := by
  have hport : 93 ∉ 58 :: decimal port.toNat := by
    have hdigits : 93 ∉ decimal port.toNat := notMem_decimal_of_lt (.inr (by decide)) _
    simp [hdigits]
  have haddr : 93 ∉ 91 :: addr.bytes := by
    have hbytes : 93 ∉ addr.bytes := fun h ↦ (addr.plain _ h).2.1 rfl
    simp [hbytes]
  rw [text, strsplit_byte haddr, strsplit_last hport]

theorem strsplit_noBrackets (host : PlainHost) (port : BitVec 16) :
    strsplit 93 [] (plain host port).text = [(plain host port).text] := by
  have hport : 93 ∉ decimal port.toNat := notMem_decimal_of_lt (.inr (by decide)) _
  have hhost : 93 ∉ host.bytes := fun h ↦ (host.plain _ h).2.2.1 rfl
  exact strsplit_last (by simp [text, hport, hhost])

theorem remoteHost_colon {name : List UInt8} {a : SocketAddress} (h : IsRemote name a) :
    remoteHost 58 name = strsplit 58 [] a.text := by
  rcases h with rfl | ⟨near, -, rfl⟩
  · exact remoteHost_only 58 a
  · exact remoteHost_pair 58 near a

end SocketAddress

/-! ### The addresses that are split right -/

/-- Behind its first digit a numeral is another number, except for zero. -/
theorem atoi_tail_decimal {value : Nat} (h : value < 2 ^ 31) {d : UInt8} {rest : List UInt8}
    (hd : decimal value = d :: rest) : atoi rest = value ↔ value = 0 := by
  constructor
  · intro hread
    by_contra hne
    obtain ⟨c, cs, hnumeral⟩ := List.exists_cons_of_ne_nil (numeral_ne_nil value)
    have hdigits : ∀ x ∈ c :: cs, x.isDigit := fun x hx ↦
      isDigit_of_mem_numeral value (hnumeral ▸ hx)
    obtain ⟨hlow, hhigh⟩ := toNat_of_isDigit (hdigits c List.mem_cons_self)
    rw [decimal, hnumeral, asciiBytes, List.map_cons, List.cons.injEq] at hd
    -- the first digit is not zero
    have hfirst : c.toNat ≠ 48 := by
      intro hzero
      refine decimal_head value hne rest ?_
      rw [decimal, hnumeral, asciiBytes, List.map_cons, hzero, hd.2]
      rfl
    have hvalue : Nat.ofDigitChars 10 (c :: cs) 0 = value :=
      hnumeral ▸ Nat.ofDigitChars_ten_toDigits
    rw [Nat.ofDigitChars_cons, Nat.ofDigitChars_eq_ofDigitChars_zero] at hvalue
    have hpos : 0 < 10 ^ cs.length * (10 * 0 + (c.toNat - '0'.toNat)) :=
      Nat.mul_pos (Nat.pow_pos (by decide)) (show 0 < 10 * 0 + (c.toNat - 48) by omega)
    have hrest := atoi_digits (fun x hx ↦ hdigits x (List.mem_cons_of_mem c hx))
      (show Nat.ofDigitChars 10 cs 0 < 2 ^ 31 by omega)
    rw [asciiBytes, hd.2, hread] at hrest
    omega
  · rintro rfl
    obtain rfl : rest = [] := (List.cons.inj hd).2.symm
    rfl

theorem sock_take_iff {host dest : List UInt8} {port : Int} (h : host = dest) :
    OpenFilesInfo.sock (host.take 46) port = .sock dest port ↔ dest.length ≤ 46 := by
  simp [h]

theorem atoi_decimal_port (port : BitVec 16) : atoi (decimal port.toNat) = port.toNat :=
  atoi_numeral port.toNat (Nat.lt_trans port.isLt (by decide))

/-- What an IPv4 name is split into is the remote address unless that is in brackets. -/
theorem inet_right_iff {name : List UInt8} {a : SocketAddress} {info : OpenFilesInfo}
    (ha : IsRemote name a) (h : inetInfo name = some info) :
    info = .sock a.destHost a.destPort ↔ AddressRight name .ipv4 a := by
  rw [inetInfo, SocketAddress.remoteHost_colon ha] at h
  cases a with
  | plain host port =>
    rw [SocketAddress.strsplit_plain] at h
    obtain rfl := Option.some.inj h
    rw [atoi_decimal_port]
    exact sock_take_iff rfl
  | bracketed addr port =>
    obtain ⟨front, second, pieces, hsplit, hfront⟩ := SocketAddress.strsplit_bracketed addr port
    have hstar : 91 :: front ≠ star := fun he ↦ absurd (List.cons.inj he).1 (by decide)
    rw [hsplit] at h
    simp only [if_neg hstar] at h
    obtain rfl := Option.some.inj h
    refine iff_of_false (fun he ↦ ?_) id
    have hhost : (91 :: front).take 46 = addr.bytes := by
      injection he
    exact (addr.plain 91 (hhost ▸ List.mem_cons_self)).1 rfl

section

variable {info : OpenFilesInfo} {host : PlainHost} {addr : ColonAddress} {port : BitVec 16}

/-- Of `host:port` both parts lose their first byte, except `*`. -/
theorem inet6_plain_iff (h : inet6Info (SocketAddress.plain host port).text = some (some info)) :
    info = .sock (SocketAddress.plain host port).destHost port.toNat ↔
      host.bytes = star ∧ port = 0 := by
  obtain ⟨d, rest, hd⟩ := List.exists_cons_of_ne_nil (decimal_ne_nil port.toNat)
  have hport := atoi_tail_decimal (Nat.lt_trans port.isLt (by decide)) hd
  rw [inet6Info, SocketAddress.remoteHost_only, SocketAddress.strsplit_plain, hd] at h
  by_cases hstar : host.bytes = star
  · simp only [hstar, if_pos, behindFirst, Option.bind_eq_bind, Option.bind_some,
      Option.some.injEq] at h
    have hdest : (SocketAddress.plain host port).destHost = anyHost := if_pos hstar
    rw [← h, hdest, and_iff_right hstar, ← BitVec.toNat_inj]
    simpa [anyHost, asciiBytes] using hport
  · obtain ⟨b, more, hhost⟩ := List.exists_cons_of_ne_nil host.ne_nil
    have hstar' : b :: more ≠ star := hhost ▸ hstar
    simp only [hhost, if_neg hstar', behindFirst, Option.bind_eq_bind, Option.bind_some,
      Option.some.injEq] at h
    refine iff_of_false (fun he ↦ ?_) fun he ↦ hstar he.1
    have hdest : (SocketAddress.plain host port).destHost = host.bytes := if_neg hstar
    have hmore : more.take 46 = b :: more := by
      rw [← h, hdest, hhost] at he
      injection he
    -- the host without its first byte is shorter
    have hlength := congrArg List.length hmore
    rw [List.length_take, List.length_cons] at hlength
    omega

/-- Of `[addr]:port` the host is cut at the first colon. -/
theorem inet6_bracketed_ne
    (h : inet6Info (SocketAddress.bracketed addr port).text = some (some info)) :
    info ≠ .sock addr.bytes port.toNat := by
  obtain ⟨front, second, pieces, hsplit, hfront⟩ := SocketAddress.strsplit_bracketed addr port
  have hstar : 91 :: front ≠ star := fun he ↦ absurd (List.cons.inj he).1 (by decide)
  rw [inet6Info, SocketAddress.remoteHost_only, hsplit] at h
  cases second with
  | nil => simp [hstar, behindFirst] at h
  | cons b second =>
    simp only [if_neg hstar, behindFirst, Option.bind_eq_bind, Option.bind_some,
      Option.some.injEq] at h
    intro he
    have hhost : front.take 46 = addr.bytes := by
      rw [← h] at he
      injection he
    exact hfront (List.mem_of_mem_take (hhost ▸ addr.colon))

/-- Behind an arrow `host:port` is not split at a bracket. -/
theorem inet6_pair_plain (near : SocketAddress) :
    inet6Info (near.text ++ 45 :: 62 :: (SocketAddress.plain host port).text) = some none := by
  rw [inet6Info, SocketAddress.remoteHost_pair, SocketAddress.strsplit_noBrackets]

/-- Behind an arrow `[addr]:port` is split between its parts. -/
theorem inet6_pair_bracketed (near : SocketAddress) :
    inet6Info (near.text ++ 45 :: 62 :: (SocketAddress.bracketed addr port).text) =
      some (some (.sock (addr.bytes.take 46) port.toNat)) := by
  have hstar : 91 :: addr.bytes ≠ star := fun he ↦ absurd (List.cons.inj he).1 (by decide)
  rw [inet6Info, SocketAddress.remoteHost_pair, SocketAddress.strsplit_brackets,
    ← atoi_decimal_port]
  simp [hstar, behindFirst]

/-- A name with an arrow is no address. -/
theorem pair_ne_text (near a : SocketAddress) : near.text ++ 45 :: 62 :: a.text ≠ a.text := by
  intro he
  refine a.arrow_notMem_text ?_
  rw [← he]
  simp

/-- What an IPv6 name is split into is the remote address where that is in brackets behind an arrow,
and for `*:0`. -/
theorem inet6_right_iff {name : List UInt8} {a : SocketAddress} (ha : IsRemote name a)
    (h : inet6Info name = some (some info)) :
    info = .sock a.destHost a.destPort ↔ AddressRight name .ipv6 a := by
  rcases ha with rfl | ⟨near, hnear, rfl⟩
  · cases a with
    | plain host port =>
      rw [AddressRight, and_iff_right rfl]
      exact inet6_plain_iff h
    | bracketed addr port => exact iff_of_false (inet6_bracketed_ne h) fun he ↦ he.1 rfl
  · cases a with
    | plain host port =>
      rw [inet6_pair_plain] at h
      exact absurd (Option.some.inj h).symm (Option.some_ne_none info)
    | bracketed addr port =>
      rw [inet6_pair_bracketed] at h
      obtain rfl := Option.some.inj (Option.some.inj h)
      rw [AddressRight, and_iff_right (pair_ne_text near _)]
      exact sock_take_iff rfl

end

/-- The names of which the entry is made and right. -/
theorem nameRight_iff (name : List UInt8) (type : LsofType) :
    (∃ info, type.info name = some (some info) ∧ InfoRight name info type) ↔
      NameRight name type := by
  cases type with
  | unix => simp [LsofType.info, InfoRight, NameRight]
  | pipe => simp [LsofType.info, InfoRight, NameRight]
  | file => simp [LsofType.info, InfoRight, NameRight]
  | ipv4 =>
    constructor
    · rintro ⟨info, h, hinfo⟩
      have hsome : inetInfo name = some info := Option.some.inj h
      exact ⟨Option.isSome_iff_exists.mpr ⟨info, hsome⟩, fun a ha ↦
        (inet_right_iff ha hsome).mp (hinfo a ha)⟩
    · rintro ⟨hsome, ha⟩
      obtain ⟨info, hsome⟩ := Option.isSome_iff_exists.mp hsome
      exact ⟨info, congrArg some hsome, fun a h ↦ (inet_right_iff h hsome).mpr (ha a h)⟩
  | ipv6 =>
    constructor
    · rintro ⟨info, h, hinfo⟩
      exact ⟨⟨info, h⟩, fun a ha ↦ (inet6_right_iff ha h).mp (hinfo a ha)⟩
    · rintro ⟨⟨info, h⟩, ha⟩
      exact ⟨info, h, fun a h' ↦ (inet6_right_iff h' h).mpr (ha a h')⟩

end LibGTop.FreeBsd
