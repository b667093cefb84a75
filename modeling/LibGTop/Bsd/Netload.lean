import LibGTop.Common.Netload

/-!
# The load of a network interface

`glibtop_get_netload_p` of NetBSD (`sysdeps/bsd/netload.c:81–244`), on the list of interfaces in the
kernel's memory and their lists of addresses. BSDi and old versions of FreeBSD build the name of an
interface from `tname` and the number of its unit, which is left out; OpenBSD has a `netload.c` of
its own.
-/

namespace LibGTop.Bsd

open Base Common

/-- An address of an interface: `AF_LINK`, `AF_INET` with the subnet, `AF_INET6`, or another one. -/
inductive IfAddr
  | link (hwaddress : List UInt8)
  | inet (subnet address : BitVec 32)
  | inet6 (address : List UInt8)
  | other

/-- `struct ifnet`. -/
structure Ifnet where
  xname : List UInt8
  notMem_xname : 0 ∉ xname
  length_xname : xname.length < 16
  flags : BitVec 32
  mtu : BitVec 32
  counters : Counters
  addrs : List IfAddr

/-- `_glibtop_sysdeps_netload`. -/
def sysdepsNetload : BitVec 64 := Linux.flagBits [0, 4, 5, 6, 7, 8, 9, 10, 11, 12, 13]

/-- `_glibtop_sysdeps_netload_data`. -/
def sysdepsNetloadData : BitVec 64 := Linux.flagBits [3, 2, 1]

/-- The flags that are translated, in the order of their tests. -/
def translated : List IfFlag :=
  [.up, .broadcast, .debug, .loopback, .pointopoint, .running, .noarp, .promisc, .allmulti,
    .oactive, .simplex, .link0, .link1, .link2, .multicast]

/-- The flag of the kernel is set, with the masks `IFF_…` as an argument. -/
def Ifnet.isSet (iff : IfFlag → BitVec 32) (ifnet : Ifnet) (flag : IfFlag) : Bool :=
  ifnet.flags &&& iff flag ≠ 0

/-- The address makes its fields, `sysdeps/bsd/netload.c:211–233`. The numbers of `ADDRESS6` and
`HWADDRESS` are taken for masks. -/
def addAddress (ifnet : Ifnet) (buf : Netload) : IfAddr → Netload
  | .link hwaddress =>
    { buf with
      hwaddress := some hwaddress
      flags := buf.flags ||| BitVec.ofNat 64 NetloadField.hwaddress.number }
  | .inet subnet address =>
    { buf with
      subnet := some (htonl subnet)
      address := some address
      mtu := some ifnet.mtu
      flags := buf.flags ||| sysdepsNetloadData }
  | .inet6 address =>
    { buf with
      address6 := some address
      flags := buf.flags ||| BitVec.ofNat 64 NetloadField.address6.number }
  | .other => buf

/-- The load of the interface before its addresses, `sysdeps/bsd/netload.c:147–201`. -/
def ifnetLoad (iff : IfFlag → BitVec 32) (ifnet : Ifnet) : Netload :=
  { ifFlags := some (translate bitCode (ifnet.isSet iff) (ownTests translated) 0)
    load := some ifnet.counters.load
    flags := sysdepsNetload }

/-- `glibtop_get_netload_p`, `sysdeps/bsd/netload.c:81–244`. -/
def glibtopGetNetloadP (iff : IfFlag → BitVec 32) (interface : List UInt8) :
    List Ifnet → Netload
  | [] => {}
  | ifnet :: rest =>
    if ifnet.xname.take 31 ≠ interface then glibtopGetNetloadP iff interface rest
    else ifnet.addrs.foldl (addAddress ifnet) (ifnetLoad iff ifnet)

/-- The interface has an address of IPv4. -/
def Ifnet.HasInet (ifnet : Ifnet) : Prop := ∃ subnet address, .inet subnet address ∈ ifnet.addrs

/-- The interface has an address of IPv6. -/
def Ifnet.HasInet6 (ifnet : Ifnet) : Prop := ∃ address, .inet6 address ∈ ifnet.addrs

/-- The interfaces that have the name. -/
def named (interface : List UInt8) (ifnets : List Ifnet) : List Ifnet :=
  ifnets.filter fun ifnet ↦ ifnet.xname = interface

section

variable {iff : IfFlag → BitVec 32} {interface : List UInt8}

theorem glibtopGetNetloadP_cons (ifnet : Ifnet) (rest : List Ifnet) :
    glibtopGetNetloadP iff interface (ifnet :: rest) =
      if ifnet.xname = interface then
        ifnet.addrs.foldl (addAddress ifnet) (ifnetLoad iff ifnet)
      else glibtopGetNetloadP iff interface rest := by
  have hl := ifnet.length_xname
  rw [glibtopGetNetloadP, List.take_of_length_le (by omega), ite_not]

/-- The answer is made from the first interface of the name. -/
theorem glibtopGetNetloadP_eq (ifnets : List Ifnet) :
    glibtopGetNetloadP iff interface ifnets =
      match (named interface ifnets).head? with
      | none => {}
      | some ifnet => ifnet.addrs.foldl (addAddress ifnet) (ifnetLoad iff ifnet) := by
  induction ifnets with
  | nil => rfl
  | cons ifnet rest ih =>
    rw [glibtopGetNetloadP_cons]
    by_cases h : ifnet.xname = interface
    · have hn : named interface (ifnet :: rest) = ifnet :: named interface rest :=
        List.filter_cons_of_pos (decide_eq_true h)
      rw [if_pos h, hn]
      rfl
    · have hn : named interface (ifnet :: rest) = named interface rest :=
        List.filter_cons_of_neg (by rwa [decide_eq_true_eq])
      rw [if_neg h, ih, hn]

/-- The bits that an address adds to the flags. -/
def IfAddr.mask : IfAddr → BitVec 64
  | .link _ => BitVec.ofNat 64 NetloadField.hwaddress.number
  | .inet _ _ => sysdepsNetloadData
  | .inet6 _ => BitVec.ofNat 64 NetloadField.address6.number
  | .other => 0

/-- The fields that an address of IPv4 fills. -/
def dataFields : List NetloadField := [.mtu, .subnet, .address]

/-- What addresses make of a load. -/
structure Made (addrs : List IfAddr) (buf done : Netload) : Prop where
  ifFlags_eq : done.ifFlags = buf.ifFlags
  load_eq : done.load = buf.load
  data_iff : ∀ field ∈ dataFields,
    done.filled field ↔ buf.filled field ∨ ∃ subnet address, .inet subnet address ∈ addrs
  flags_iff : ∀ n, done.flags.getLsbD n ↔ buf.flags.getLsbD n ∨ ∃ addr ∈ addrs, addr.mask.getLsbD n

theorem flags_addAddress (ifnet : Ifnet) (buf : Netload) (addr : IfAddr) :
    (addAddress ifnet buf addr).flags = buf.flags ||| addr.mask := by
  cases addr with
  | other => exact (BitVec.or_zero).symm
  | _ => rfl

theorem filled_addAddress_iff (ifnet : Ifnet) (buf : Netload) (addr : IfAddr)
    {field : NetloadField} (h : field ∈ dataFields) :
    (addAddress ifnet buf addr).filled field ↔
      buf.filled field ∨ ∃ subnet address, .inet subnet address = addr := by
  cases addr with
  | inet subnet address =>
    refine iff_of_true ?_ (.inr ⟨subnet, address, rfl⟩)
    simp only [dataFields, List.mem_cons, List.not_mem_nil, or_false] at h
    obtain rfl | rfl | rfl := h <;> rfl
  | _ =>
    refine Iff.symm ((or_iff_left ?_).trans (Bool.coe_iff_coe.mpr ?_))
    · rintro ⟨subnet, address, he⟩
      exact absurd he nofun
    · simp only [dataFields, List.mem_cons, List.not_mem_nil, or_false] at h
      obtain rfl | rfl | rfl := h <;> rfl

theorem made_foldl (ifnet : Ifnet) (addrs : List IfAddr) (buf : Netload) :
    Made addrs buf (addrs.foldl (addAddress ifnet) buf) := by
  induction addrs generalizing buf with
  | nil => exact ⟨rfl, rfl, by simp, by simp⟩
  | cons addr addrs ih =>
    have hmade := ih (addAddress ifnet buf addr)
    refine ⟨hmade.ifFlags_eq.trans ?_, hmade.load_eq.trans ?_, fun field h ↦ ?_, fun n ↦ ?_⟩
    · cases addr <;> rfl
    · cases addr <;> rfl
    · rw [List.foldl_cons, hmade.data_iff field h, filled_addAddress_iff ifnet buf addr h, or_assoc]
      simp only [List.mem_cons, exists_or]
    · rw [List.foldl_cons, hmade.flags_iff n, flags_addAddress, BitVec.getLsbD_or, Bool.or_eq_true,
        List.exists_mem_cons_iff, or_assoc]

/-- The bits of the flags before the addresses are of fields that are filled. -/
theorem filled_of_getLsbD_sysdepsNetload (field : NetloadField) (buf : Netload)
    (hf : buf.ifFlags.isSome) (hl : buf.load.isSome)
    (h : sysdepsNetload.getLsbD field.number) : buf.filled field := by
  cases field <;> first | exact hf | exact hl | exact absurd h (by decide)

/-- The bits that addresses add are of fields that are filled before them, or of those that an
address of IPv4 fills. -/
theorem field_of_getLsbD_mask {addr : IfAddr} {field : NetloadField}
    (h : addr.mask.getLsbD field.number) :
    sysdepsNetload.getLsbD field.number ∨
      field ∈ dataFields ∧
        ((∃ subnet address, .inet subnet address = addr) ∨ ∃ address, .inet6 address = addr) := by
  cases addr with
  | link hwaddress =>
    left
    change (BitVec.ofNat 64 17).getLsbD field.number = true at h
    cases field <;> first | rfl | exact absurd h (by decide)
  | inet subnet address =>
    refine .inr ⟨?_, .inl ⟨subnet, address, rfl⟩⟩
    change sysdepsNetloadData.getLsbD field.number = true at h
    cases field <;> first | decide | exact absurd h (by decide)
  | inet6 address =>
    refine .inr ⟨?_, .inr ⟨address, rfl⟩⟩
    change (BitVec.ofNat 64 14).getLsbD field.number = true at h
    cases field <;> first | decide | exact absurd h (by decide)
  | other =>
    exact absurd h (not_getLsbD_zero field.number)

/-- The flags of a load have no bit for a field that is not filled exactly when the interface has an
address of IPv4 with every one of IPv6. -/
theorem filled_iff (iff : IfFlag → BitVec 32) (ifnet : Ifnet) :
    (∀ field : NetloadField,
      (ifnet.addrs.foldl (addAddress ifnet) (ifnetLoad iff ifnet)).flags.getLsbD field.number →
        (ifnet.addrs.foldl (addAddress ifnet) (ifnetLoad iff ifnet)).filled field) ↔
      (ifnet.HasInet6 → ifnet.HasInet) := by
  have hmade := made_foldl ifnet ifnet.addrs (ifnetLoad iff ifnet)
  have hdata : ∀ field ∈ dataFields, (ifnet.addrs.foldl (addAddress ifnet)
      (ifnetLoad iff ifnet)).filled field ↔ ifnet.HasInet := by
    intro field h
    rw [hmade.data_iff field h, Ifnet.HasInet, or_iff_right]
    simp only [dataFields, List.mem_cons, List.not_mem_nil, or_false] at h
    obtain rfl | rfl | rfl := h <;> exact Bool.false_ne_true
  constructor
  · rintro h ⟨address, h6⟩
    rw [← hdata .mtu (by decide)]
    refine h .mtu ((hmade.flags_iff _).mpr (.inr ⟨_, h6, ?_⟩))
    change (BitVec.ofNat 64 14).getLsbD 1 = true
    decide
  · intro h field hbit
    have hstart : sysdepsNetload.getLsbD field.number →
        (ifnet.addrs.foldl (addAddress ifnet) (ifnetLoad iff ifnet)).filled field :=
      filled_of_getLsbD_sysdepsNetload field _ (by rw [hmade.ifFlags_eq]; rfl)
        (by rw [hmade.load_eq]; rfl)
    obtain hs | ⟨addr, ha, hm⟩ := (hmade.flags_iff _).mp hbit
    · exact hstart hs
    · obtain hs | ⟨hfield, hinet⟩ := field_of_getLsbD_mask hm
      · exact hstart hs
      · rw [hdata field hfield]
        obtain ⟨subnet, address, rfl⟩ | ⟨address, rfl⟩ := hinet
        · exact ⟨subnet, address, ha⟩
        · exact h ⟨address, ha⟩

/-- The answer is right exactly when the first interface of the name, if there is one, has an
address of IPv4 with every one of IPv6. -/
theorem rightAnswer_iff (ifnets : List Ifnet) :
    RightAnswer translated (Ifnet.isSet iff) Ifnet.counters (named interface ifnets)
        (some (glibtopGetNetloadP iff interface ifnets)) ↔
      ∀ ifnet ∈ (named interface ifnets).head?, ifnet.HasInet6 → ifnet.HasInet := by
  rw [RightAnswer, glibtopGetNetloadP_eq]
  cases hn : named interface ifnets with
  | nil =>
    refine iff_of_true ⟨{}, rfl, ?_⟩ nofun
    rw [if_pos rfl]
  | cons ifnet rest =>
    have hmade := made_foldl ifnet ifnet.addrs (ifnetLoad iff ifnet)
    simp only [List.head?_cons, Option.some.injEq, exists_eq_left', List.cons_ne_nil, if_false,
      Option.mem_def, forall_eq']
    rw [← filled_iff iff]
    refine ⟨fun ⟨i, hi, ha⟩ ↦ ha.filled, fun h ↦ ⟨ifnet, List.mem_cons_self, ?_, ?_, h⟩⟩
    · rw [hmade.load_eq]
      rfl
    · intro flag hf
      rw [hmade.ifFlags_eq, Bool.eq_iff_iff]
      exact (getLsbD_translate_bitCode hf 0).trans (or_iff_right (not_getLsbD_zero flag.number))

end

end LibGTop.Bsd
