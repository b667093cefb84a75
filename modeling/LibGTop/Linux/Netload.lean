import LibGTop.Linux.NetCounters

/-!
# The load of a network interface of Linux

What `glibtop_get_netload_s` (`sysdeps/linux/netload.c:454–558`) asks on its socket, and what it
adds to the counters: the first address of IPv6 with its scope.
-/

namespace LibGTop.Linux

open Base Common

/-- An entry of the list of `getifaddrs`: its name, and the address and the mask when they are of
IPv6. -/
structure IfAddrs where
  name : List UInt8
  inet6 : Option (BitVec 128 × BitVec 128)

/-- What the kernel says: of the name in `ifr_name` the answers to `SIOCGIFFLAGS`, `SIOCGIWNAME`,
`SIOCGIFADDR`, `SIOCGIFNETMASK`, `SIOCGIFMTU` and `SIOCGIFHWADDR`, and the list of the addresses,
unless `getifaddrs` fails. -/
structure NetKernel where
  flags : List UInt8 → Option (BitVec 16)
  wireless : List UInt8 → Bool
  address : List UInt8 → Option (BitVec 32)
  netmask : List UInt8 → Option (BitVec 32)
  mtu : List UInt8 → Option (BitVec 32)
  hwaddr : List UInt8 → Option (BitVec 64)
  addresses : Option (List IfAddrs)

/-- The flags that are translated, in the order of their tests. -/
def translated : List IfFlag :=
  [.up, .broadcast, .debug, .loopback, .pointopoint, .running, .noarp, .promisc, .allmulti,
    .multicast]

/-- The flag of the kernel is set, with the masks `IFF_…` as an argument. -/
def isSet (iff : IfFlag → BitVec 64) (flags : BitVec 16) (flag : IfFlag) : Bool :=
  flags.signExtend 64 &&& iff flag ≠ 0

/-- `glibtop_netload`, with the addresses of IPv6 in network order. -/
structure NetloadBuf where
  stats : NetStats := {}
  ifFlags : BitVec 64 := 0
  mtu : BitVec 32 := 0
  subnet : BitVec 32 := 0
  address : BitVec 32 := 0
  address6 : BitVec 128 := 0
  prefix6 : BitVec 128 := 0
  scope6 : BitVec 8 := 0
  hwaddress : BitVec 64 := 0

namespace NetloadBuf

/-- The answer to a question about a field is stored with its flag. -/
def store {α : Type} (field : NetloadField) (put : α → NetloadBuf → NetloadBuf)
    (answer : Option α) (buf : NetloadBuf) : NetloadBuf :=
  answer.elim buf fun a ↦ put a { buf with stats := buf.stats.flag field }

def putIfFlags (iff : IfFlag → BitVec 64) (flags : BitVec 16) (buf : NetloadBuf) : NetloadBuf :=
  { buf with ifFlags := translate bitCode (isSet iff flags) (ownTests translated) buf.ifFlags }

def putWireless (wireless : Bool) (buf : NetloadBuf) : NetloadBuf :=
  { buf with ifFlags := if wireless then buf.ifFlags ||| bitCode .wireless else buf.ifFlags }

def putAddress (address : BitVec 32) (buf : NetloadBuf) : NetloadBuf :=
  { buf with address := address }

def putSubnet (subnet : BitVec 32) (buf : NetloadBuf) : NetloadBuf := { buf with subnet := subnet }

def putMtu (mtu : BitVec 32) (buf : NetloadBuf) : NetloadBuf := { buf with mtu := mtu }

def putHwaddress (hwaddress : BitVec 64) (buf : NetloadBuf) : NetloadBuf :=
  { buf with hwaddress := hwaddress }

end NetloadBuf

open NetloadBuf

/-- What is asked on the socket, `sysdeps/linux/netload.c:463–528`. -/
def askInterface (iff : IfFlag → BitVec 64) (kernel : NetKernel) (interface : List UInt8)
    (buf : NetloadBuf) : NetloadBuf :=
  let name := interface.take 15
  let buf := (buf.store .ifFlags (putIfFlags iff) (kernel.flags name)).putWireless
    (kernel.wireless name)
  let buf := buf.store .address putAddress (kernel.address name)
  let buf := buf.store .subnet putSubnet (kernel.netmask name)
  let buf := buf.store .mtu putMtu (kernel.mtu name)
  buf.store .hwaddress putHwaddress (kernel.hwaddr name)

/-- `enum GLIBTOP_IF_IN6_SCOPE` of an address, `sysdeps/linux/netload.c:156–174`, with the macro
`IN6_IS_ADDR_GLOBAL` of this file. -/
def scopeOf (address : BitVec 128) : BitVec 8 :=
  let first := address.extractLsb' 120 8
  let second := address.extractLsb' 112 8
  if address.extractLsb' 118 10 = 0x3fa then 1
  else if address.extractLsb' 118 10 = 0x3fb then 2
  else if (first = 0x3f ∨ first = 0x20) ∨ (first = 0xff ∧ second &&& 0xf = 8) ∨
      (address.extractLsb' 32 96 = 0 ∧ 1 < (address.extractLsb' 0 32).toNat) ∨ first = 0xff ∨
      address = 0 then 4
  else if address = 1 then 8
  else 0

/-- Of the global unicast addresses, which start with the bits 001, those of two first bytes are
taken for global ones, and the others for unknown ones. -/
theorem scopeOf_global_unicast (address : BitVec 128) (h : address.extractLsb' 125 3 = 1) :
    scopeOf address =
      if address.extractLsb' 120 8 = 0x3f ∨ address.extractLsb' 120 8 = 0x20 then 4 else 0 := by
  have hn : ∀ {start len : Nat} {value : BitVec len}, address.extractLsb' start len = value →
      address.toNat / 2 ^ start % 2 ^ len = value.toNat := by
    rintro start len _ rfl
    rw [BitVec.extractLsb'_toNat, Nat.shiftRight_eq_div_pow]
  have hprefix := hn h
  -- each of the other tests is of an address with other first bits
  have hlink : address.extractLsb' 118 10 ≠ 0x3fa := by
    intro he
    have he := hn he
    simp at he hprefix
    omega
  have hsite : address.extractLsb' 118 10 ≠ 0x3fb := by
    intro he
    have he := hn he
    simp at he hprefix
    omega
  have hff : address.extractLsb' 120 8 ≠ 0xff := by
    intro he
    have he := hn he
    simp at he hprefix
    omega
  have h96 : address.extractLsb' 32 96 ≠ 0 := by
    intro he
    have he := hn he
    simp at he hprefix
    omega
  have h0 : address ≠ 0 := by
    rintro rfl
    exact absurd h (by decide)
  have h1 : address ≠ 1 := by
    rintro rfl
    exact absurd h (by decide)
  simp only [scopeOf, hlink, hsite, hff, h96, h0, h1, if_false, false_and, or_false]

/-- The first address of IPv6 that an interface has. -/
def firstInet6 (kernel : NetKernel) (interface : List UInt8) : Option (BitVec 128 × BitVec 128) :=
  kernel.addresses.bind fun entries ↦
    entries.findSome? fun entry ↦ if entry.name = interface then entry.inet6 else none

/-- `get_ipv6`, `sysdeps/linux/netload.c:127–180`. -/
def getIpv6 (kernel : NetKernel) (interface : List UInt8) (buf : NetloadBuf) : NetloadBuf :=
  (firstInet6 kernel interface).elim buf fun (address, mask) ↦
    { buf with
      stats := ((buf.stats.flag .address6).flag .prefix6).flag .scope6
      address6 := address
      prefix6 := mask
      scope6 := scopeOf address }

/-- What holds for the calls of a process: the masks of the flags, the version of the kernel and
whether there is a `/sys`. -/
structure NetEnv where
  iff : IfFlag → BitVec 64
  osVersionCode : Nat
  hasSysfs : Bool

/-- A call: the name it is made for, and what it finds. -/
structure NetloadCall where
  interface : List UInt8
  kernel : NetKernel
  files : NetFiles

/-- What a call does behind its socket. -/
def NetEnv.finish (env : NetEnv) (c : NetloadCall) (buf : NetloadBuf) : Option NetloadBuf :=
  (addCounters env.osVersionCode env.hasSysfs c.files c.interface buf.stats).map fun stats ↦
    getIpv6 c.kernel c.interface { buf with stats := stats }

/-- The fields that are asked for on the socket. -/
def askedFields : List NetloadField := [.ifFlags, .address, .subnet, .mtu, .hwaddress]

/-- The fields of IPv6. -/
def inet6Fields : List NetloadField := [.address6, .prefix6, .scope6]

/-- The kernel answers the question for a field. -/
def NetKernel.answers (kernel : NetKernel) (name : List UInt8) : NetloadField → Bool
  | .ifFlags => (kernel.flags name).isSome
  | .address => (kernel.address name).isSome
  | .subnet => (kernel.netmask name).isSome
  | .mtu => (kernel.mtu name).isSome
  | .hwaddress => (kernel.hwaddr name).isSome
  | _ => false

/-- The fields that are asked for on a socket have their flags and their values exactly where there
was a socket to ask on and the kernel answers for the name, cut to the size of `ifr_name`. -/
structure AskedRight (env : NetEnv) (asked : Prop) (c : NetloadCall) (buf : NetloadBuf) : Prop where
  asked_iff : ∀ field ∈ askedFields, hasFlag buf.stats.flags field.number ↔
    asked ∧ c.kernel.answers (c.interface.take 15) field
  ifFlags_iff : ∀ flag ∈ translated, buf.ifFlags.getLsbD flag.number ↔
    asked ∧ ∃ flags ∈ c.kernel.flags (c.interface.take 15), isSet env.iff flags flag
  wireless_iff : buf.ifFlags.getLsbD IfFlag.wireless.number ↔
    asked ∧ c.kernel.wireless (c.interface.take 15)
  address_iff : ∀ a ≠ 0, buf.address = a ↔ asked ∧ c.kernel.address (c.interface.take 15) = some a
  subnet_iff : ∀ a ≠ 0, buf.subnet = a ↔ asked ∧ c.kernel.netmask (c.interface.take 15) = some a
  mtu_iff : ∀ a ≠ 0, buf.mtu = a ↔ asked ∧ c.kernel.mtu (c.interface.take 15) = some a
  hwaddress_iff : ∀ a ≠ 0, buf.hwaddress = a ↔
    asked ∧ c.kernel.hwaddr (c.interface.take 15) = some a

/-- Those of IPv6 have theirs exactly where the interface has an address. -/
structure Inet6Right (c : NetloadCall) (buf : NetloadBuf) : Prop where
  inet6_iff : ∀ field ∈ inet6Fields, hasFlag buf.stats.flags field.number ↔
    (firstInet6 c.kernel c.interface).isSome
  inet6_eq : (buf.address6, buf.prefix6) = (firstInet6 c.kernel c.interface).getD (0, 0)
  scope6_eq : buf.scope6 =
    ((firstInet6 c.kernel c.interface).map fun inet6 ↦ scopeOf inet6.1).getD 0

section Asked

section

variable {α β : Type} {put : α → NetloadBuf → NetloadBuf}

/-- An answer sets its flag. -/
theorem hasFlag_store (put : α → NetloadBuf → NetloadBuf)
    (hput : ∀ a buf, (put a buf).stats = buf.stats) (answer : Option α)
    (buf : NetloadBuf) (field other : NetloadField) :
    hasFlag (buf.store field put answer).stats.flags other.number =
      (hasFlag buf.stats.flags other.number || decide (field = other) && answer.isSome) := by
  cases answer with
  | none => simp [NetloadBuf.store]
  | some a => simp [NetloadBuf.store, hput, hasFlag_flag]

/-- What is stored elsewhere stays. -/
theorem proj_store (proj : NetloadBuf → β) (field : NetloadField) (answer : Option α)
    (buf : NetloadBuf)
    (hput : ∀ a, proj (put a { buf with stats := buf.stats.flag field }) = proj buf) :
    proj (buf.store field put answer) = proj buf := by
  cases answer with
  | none => rfl
  | some a => exact hput a

end

variable (iff : IfFlag → BitVec 64) (kernel : NetKernel) (interface : List UInt8)

/-- The flags behind the questions are those of the answers. -/
theorem hasFlag_askInterface (field : NetloadField) :
    hasFlag (askInterface iff kernel interface {}).stats.flags field.number =
      kernel.answers (interface.take 15) field := by
  have hzero : hasFlag ({} : NetloadBuf).stats.flags field.number = false := BitVec.getLsbD_zero
  have hwireless : ∀ (wireless : Bool) (buf : NetloadBuf),
      (buf.putWireless wireless).stats = buf.stats := fun _ _ ↦ rfl
  simp only [askInterface]
  rw [hasFlag_store putHwaddress fun _ _ ↦ rfl, hasFlag_store putMtu fun _ _ ↦ rfl,
    hasFlag_store putSubnet fun _ _ ↦ rfl, hasFlag_store putAddress fun _ _ ↦ rfl, hwireless,
    hasFlag_store (putIfFlags iff) fun _ _ ↦ rfl, hzero]
  cases field <;> simp [NetKernel.answers]

/-- The values behind the questions are those of the answers. -/
theorem askInterface_values :
    let buf := askInterface iff kernel interface {}
    buf.address = (kernel.address (interface.take 15)).getD 0 ∧
      buf.subnet = (kernel.netmask (interface.take 15)).getD 0 ∧
      buf.mtu = (kernel.mtu (interface.take 15)).getD 0 ∧
      buf.hwaddress = (kernel.hwaddr (interface.take 15)).getD 0 := by
  simp only [askInterface]
  cases kernel.flags (interface.take 15) <;> cases kernel.address (interface.take 15) <;>
    cases kernel.netmask (interface.take 15) <;> cases kernel.mtu (interface.take 15) <;>
    cases kernel.hwaddr (interface.take 15) <;> exact ⟨rfl, rfl, rfl, rfl⟩

/-- What no question is about stays. -/
theorem proj_askInterface {β : Type} (proj : NetloadBuf → β)
    (hp : ∀ (buf : NetloadBuf) flags ifFlags address subnet mtu hwaddress, proj { buf with
      stats := { buf.stats with flags := flags }
      ifFlags := ifFlags
      address := address
      subnet := subnet
      mtu := mtu
      hwaddress := hwaddress } = proj buf) :
    proj (askInterface iff kernel interface {}) = proj {} := by
  have hwireless : ∀ (wireless : Bool) (buf : NetloadBuf),
      proj (buf.putWireless wireless) = proj buf := fun _ buf ↦ hp buf _ _ _ _ _ _
  simp only [askInterface]
  rw [proj_store proj .hwaddress _ _ fun _ ↦ hp _ _ _ _ _ _ _,
    proj_store proj .mtu _ _ fun _ ↦ hp _ _ _ _ _ _ _,
    proj_store proj .subnet _ _ fun _ ↦ hp _ _ _ _ _ _ _,
    proj_store proj .address _ _ fun _ ↦ hp _ _ _ _ _ _ _, hwireless,
    proj_store proj .ifFlags _ _ fun _ ↦ hp _ _ _ _ _ _ _]

/-- The questions leave the fields of IPv6 as they are. -/
theorem askInterface_inet6 :
    let buf := askInterface iff kernel interface {}
    (buf.address6, buf.prefix6, buf.scope6) = (0, 0, 0) :=
  proj_askInterface iff kernel interface (fun buf ↦ (buf.address6, buf.prefix6, buf.scope6))
    fun _ _ _ _ _ _ _ ↦ rfl

/-- The word of the flags behind the questions. -/
theorem ifFlags_askInterface :
    (askInterface iff kernel interface {}).ifFlags =
      (putWireless (kernel.wireless (interface.take 15))
        (({} : NetloadBuf).store .ifFlags (putIfFlags iff)
          (kernel.flags (interface.take 15)))).ifFlags := by
  simp only [askInterface]
  rw [proj_store (·.ifFlags) _ _ _ fun _ ↦ rfl, proj_store (·.ifFlags) _ _ _ fun _ ↦ rfl,
    proj_store (·.ifFlags) _ _ _ fun _ ↦ rfl, proj_store (·.ifFlags) _ _ _ fun _ ↦ rfl]

theorem getLsbD_bitCode (flag other : IfFlag) :
    (bitCode flag).getLsbD other.number ↔ flag = other := by
  rw [bitCode, BitVec.getLsbD_twoPow, decide_eq_true flag.number_lt, Bool.true_and,
    decide_eq_true_eq]
  exact ⟨IfFlag.number_inj, congrArg _⟩

/-- A flag is that of the kernel, or the one that says the interface is wireless. -/
theorem getLsbD_ifFlags (flag : IfFlag) :
    (askInterface iff kernel interface {}).ifFlags.getLsbD flag.number ↔
      (flag ∈ translated ∧ ∃ flags ∈ kernel.flags (interface.take 15), isSet iff flags flag) ∨
        (kernel.wireless (interface.take 15) ∧ flag = .wireless) := by
  have hflags : ((({} : NetloadBuf).store .ifFlags (putIfFlags iff)
      (kernel.flags (interface.take 15))).ifFlags.getLsbD flag.number ↔
        flag ∈ translated ∧ ∃ flags ∈ kernel.flags (interface.take 15), isSet iff flags flag) := by
    cases kernel.flags (interface.take 15) with
    | none => exact iff_of_false (not_getLsbD_zero _) fun h ↦ absurd h.2 (by simp)
    | some flags =>
      have hword : (({} : NetloadBuf).store .ifFlags (putIfFlags iff) (some flags)).ifFlags =
          translate bitCode (isSet iff flags) (ownTests translated) 0 := rfl
      rw [hword, getLsbD_translate, or_iff_right (not_getLsbD_zero _)]
      constructor
      · rintro ⟨test, ht, hs, hb⟩
        obtain ⟨other, ho, rfl⟩ := List.mem_map.mp ht
        obtain rfl := (getLsbD_bitCode other flag).mp hb
        exact ⟨ho, flags, rfl, hs⟩
      · rintro ⟨ht, _, ⟨⟩, hs⟩
        exact ⟨(flag, flag), List.mem_map_of_mem ht, hs, (getLsbD_bitCode flag flag).mpr rfl⟩
  rw [ifFlags_askInterface, putWireless]
  cases kernel.wireless (interface.take 15) with
  | false =>
    rw [if_neg Bool.false_ne_true, or_iff_left fun h ↦ absurd h.1 Bool.false_ne_true]
    exact hflags
  | true =>
    rw [if_pos rfl, BitVec.getLsbD_or, Bool.or_eq_true, getLsbD_bitCode, and_iff_right rfl,
      eq_comm (a := IfFlag.wireless)]
    exact or_congr_left hflags

theorem getD_eq_iff {α : Type} [Zero α] {answer : Option α} {a : α} (h : a ≠ 0) :
    answer.getD 0 = a ↔ answer = some a := by
  cases answer with
  | none => simp [h.symm]
  | some b => simp

end Asked

/-- What is asked is right. -/
theorem askInterface_right (env : NetEnv) (c : NetloadCall) :
    AskedRight env True c (askInterface env.iff c.kernel c.interface {}) where
  asked_iff := by
    intro field _
    rw [hasFlag_askInterface, true_and]
  ifFlags_iff := by
    intro flag hflag
    have hne : flag ≠ .wireless := by
      rintro rfl
      exact absurd hflag (by decide)
    rw [getLsbD_ifFlags, true_and, or_iff_left fun h ↦ hne h.2, and_iff_right hflag]
  wireless_iff := by
    have hn : IfFlag.wireless ∉ translated := by decide
    rw [getLsbD_ifFlags, true_and, or_iff_right fun h ↦ hn h.1, and_iff_left rfl]
  address_iff a ha := by
    rw [(askInterface_values env.iff c.kernel c.interface).1, getD_eq_iff ha, true_and]
  subnet_iff a ha := by
    rw [(askInterface_values env.iff c.kernel c.interface).2.1, getD_eq_iff ha, true_and]
  mtu_iff a ha := by
    rw [(askInterface_values env.iff c.kernel c.interface).2.2.1, getD_eq_iff ha, true_and]
  hwaddress_iff a ha := by
    rw [(askInterface_values env.iff c.kernel c.interface).2.2.2, getD_eq_iff ha, true_and]

/-- What is not asked has no value. -/
theorem unasked_right (env : NetEnv) (c : NetloadCall) : AskedRight env False c {} where
  asked_iff := by
    intro field _
    rw [false_and, iff_false]
    exact not_getLsbD_zero _
  ifFlags_iff := by
    intro flag _
    rw [false_and, iff_false]
    exact not_getLsbD_zero _
  wireless_iff := by
    rw [false_and, iff_false]
    exact not_getLsbD_zero _
  address_iff a ha := iff_of_false (fun he ↦ ha he.symm) And.left
  subnet_iff a ha := iff_of_false (fun he ↦ ha he.symm) And.left
  mtu_iff a ha := iff_of_false (fun he ↦ ha he.symm) And.left
  hwaddress_iff a ha := iff_of_false (fun he ↦ ha he.symm) And.left

/-- Nothing of IPv6 is there yet. -/
structure NoInet6 (buf : NetloadBuf) : Prop where
  hasFlag_eq : ∀ field ∈ inet6Fields, hasFlag buf.stats.flags field.number = false
  values : (buf.address6, buf.prefix6, buf.scope6) = (0, 0, 0)

theorem noInet6_askInterface (iff : IfFlag → BitVec 64) (kernel : NetKernel)
    (interface : List UInt8) : NoInet6 (askInterface iff kernel interface {}) where
  hasFlag_eq := by
    intro field hf
    rw [hasFlag_askInterface]
    simp only [inet6Fields, List.mem_cons, List.not_mem_nil, or_false] at hf
    obtain rfl | rfl | rfl := hf <;> rfl
  values := askInterface_inet6 iff kernel interface

theorem noInet6_default : NoInet6 {} where
  hasFlag_eq _ _ := BitVec.getLsbD_zero
  values := rfl

/-- The flags of IPv6 are added where there is an address. -/
theorem hasFlag_getIpv6 (kernel : NetKernel) (interface : List UInt8) (buf : NetloadBuf)
    (field : NetloadField) :
    hasFlag (getIpv6 kernel interface buf).stats.flags field.number =
      (hasFlag buf.stats.flags field.number ||
        decide (field ∈ inet6Fields) && (firstInet6 kernel interface).isSome) := by
  rw [getIpv6]
  cases firstInet6 kernel interface with
  | none => simp
  | some inet6 =>
    simp only [Option.elim_some, hasFlag_flag, Option.isSome_some, Bool.and_true, Bool.or_assoc]
    cases field <;> simp [inet6Fields]

/-- The fields that are not of IPv6 stay. -/
theorem proj_getIpv6 {β : Type} (proj : NetloadBuf → β) (kernel : NetKernel)
    (interface : List UInt8) (buf : NetloadBuf)
    (hp : ∀ stats address mask scope, proj { buf with
      stats := stats
      address6 := address
      prefix6 := mask
      scope6 := scope } = proj buf) : proj (getIpv6 kernel interface buf) = proj buf := by
  rw [getIpv6]
  cases firstInet6 kernel interface with
  | none => rfl
  | some inet6 => exact hp _ _ _ _

section Finish

variable {env : NetEnv} {asked : Prop} {c : NetloadCall} {buf done : NetloadBuf}

/-- Counters and addresses of IPv6 leave what was asked as it is. -/
theorem AskedRight.finish (ha : AskedRight env asked c buf) (h : env.finish c buf = some done) :
    AskedRight env asked c done := by
  obtain ⟨stats, hs, rfl⟩ := Option.map_eq_some_iff.mp h
  have hstays : ∀ {β : Type} (proj : NetloadBuf → β),
      (∀ stats address mask scope, proj { buf with
        stats := stats
        address6 := address
        prefix6 := mask
        scope6 := scope } = proj buf) →
      proj (getIpv6 c.kernel c.interface { buf with stats := stats }) = proj buf := fun proj hp ↦
    (proj_getIpv6 proj c.kernel c.interface { buf with stats := stats } fun _ _ _ _ ↦
      (hp _ _ _ _).trans (hp stats _ _ _).symm).trans (hp stats _ _ _)
  refine ⟨fun field hf ↦ ?_, fun flag hf ↦ ?_, ?_, fun a h0 ↦ ?_, fun a h0 ↦ ?_,
    fun a h0 ↦ ?_, fun a h0 ↦ ?_⟩
  · have hnot : field ∉ counterFields ∧ field ∉ inet6Fields := by
      revert field
      decide
    rw [hasFlag_getIpv6, keepsOthers_addCounters hs field hnot.1, decide_eq_false hnot.2,
      Bool.false_and, Bool.or_false]
    exact ha.asked_iff field hf
  · rw [hstays (·.ifFlags) fun _ _ _ _ ↦ rfl]
    exact ha.ifFlags_iff flag hf
  · rw [hstays (·.ifFlags) fun _ _ _ _ ↦ rfl]
    exact ha.wireless_iff
  · rw [hstays (·.address) fun _ _ _ _ ↦ rfl]
    exact ha.address_iff a h0
  · rw [hstays (·.subnet) fun _ _ _ _ ↦ rfl]
    exact ha.subnet_iff a h0
  · rw [hstays (·.mtu) fun _ _ _ _ ↦ rfl]
    exact ha.mtu_iff a h0
  · rw [hstays (·.hwaddress) fun _ _ _ _ ↦ rfl]
    exact ha.hwaddress_iff a h0

/-- Where nothing of IPv6 is there yet, the first address of the interface is stored. -/
theorem NoInet6.finish (hn : NoInet6 buf) (h : env.finish c buf = some done) :
    Inet6Right c done := by
  obtain ⟨stats, hs, rfl⟩ := Option.map_eq_some_iff.mp h
  obtain ⟨h6, hprefix, hscope⟩ : buf.address6 = 0 ∧ buf.prefix6 = 0 ∧ buf.scope6 = 0 := by
    simpa using hn.values
  refine ⟨fun field hf ↦ ?_, ?_, ?_⟩
  · have hnot : field ∉ counterFields := by
      revert field
      decide
    rw [hasFlag_getIpv6, keepsOthers_addCounters hs field hnot, hn.hasFlag_eq field hf,
      decide_eq_true hf, Bool.true_and, Bool.false_or]
  · rw [getIpv6]
    cases firstInet6 c.kernel c.interface with
    | none => exact Prod.ext h6 hprefix
    | some inet6 => rfl
  · rw [getIpv6]
    cases firstInet6 c.kernel c.interface with
    | none => exact hscope
    | some inet6 => rfl

/-- Counters and addresses of IPv6 are added to what was asked. -/
theorem finish_right (ha : AskedRight env asked c buf) (hn : NoInet6 buf)
    (h : env.finish c buf = some done) : AskedRight env asked c done ∧ Inet6Right c done :=
  ⟨ha.finish h, hn.finish h⟩

end Finish

end LibGTop.Linux
