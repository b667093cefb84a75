import LibGTop.Common.Netload

/-!
# The load of a network interface

`glibtop_get_netload_p` of Darwin (`sysdeps/darwin/netload.c:62–165`), on the messages that
`sysctl` delivers: one for each interface, and one for each of its addresses behind it.
-/

namespace LibGTop.Darwin

open Base Common

/-- `struct if_msghdr` with the `struct sockaddr_dl` behind it: `sdl_nlen` bytes of `sdl_data` are
the name, and the link address and other memory is behind them. -/
structure IfInfo where
  isLink : Bool
  name : List UInt8
  notMem_name : 0 ∉ name
  behind : List UInt8
  flags : BitVec 32
  mtu : BitVec 32
  counters : Counters

/-- A message: `RTM_IFINFO`, `RTM_NEWADDR`, or another one. -/
inductive RtMsg
  | ifinfo (info : IfInfo)
  | newaddr
  | other

/-- The message is `RTM_NEWADDR`. -/
def RtMsg.isNewaddr : RtMsg → Bool
  | newaddr => true
  | _ => false

/-- `_glibtop_sysdeps_netload`. -/
def sysdepsNetload : BitVec 64 := Linux.flagBits [0, 1, 4, 5, 6, 7, 8, 9, 10, 11, 12, 13]

/-- The interface is taken for the one of the name. -/
def IfInfo.found (info : IfInfo) (interface : List UInt8) : Bool :=
  info.isLink && interface.length = info.name.length &&
    interface = cString (info.name ++ info.behind)

/-- The loop over the messages, `sysdeps/darwin/netload.c:91–116`. -/
def lookup (interface : List UInt8) : List RtMsg → Option IfInfo
  | .ifinfo info :: rest =>
    if info.found interface then some info else lookup interface (rest.dropWhile RtMsg.isNewaddr)
  | _ => none
termination_by msgs => msgs.length
decreasing_by
  have hl := (List.dropWhile_suffix RtMsg.isNewaddr : rest.dropWhile RtMsg.isNewaddr <:+ rest).length_le
  rw [List.length_cons]
  omega

/-- The number of a flag, taken for its mask. -/
def numberCode (flag : IfFlag) : BitVec 64 := BitVec.ofNat 64 flag.number

/-- The flags that are translated. -/
def translated : List IfFlag :=
  [.up, .broadcast, .debug, .loopback, .pointopoint, .running, .noarp, .promisc, .allmulti,
    .oactive, .simplex, .link0, .link1, .link2, .altphys, .multicast]

/-- The tests of the flags; the one for `PROMISC` is of `IFF_NOARP`. -/
def tests : List (IfFlag × IfFlag) :=
  ownTests [.up, .broadcast, .debug, .loopback, .pointopoint, .running, .noarp] ++
    (.noarp, .promisc) ::
      ownTests [.allmulti, .oactive, .simplex, .link0, .link1, .link2, .altphys, .multicast]

/-- The flag of the kernel is set, with the masks `IFF_…` as an argument. -/
def IfInfo.isSet (iff : IfFlag → BitVec 32) (info : IfInfo) (flag : IfFlag) : Bool :=
  info.flags &&& iff flag ≠ 0

/-- The load of an interface that is found, `sysdeps/darwin/netload.c:119–163`. -/
def infoLoad (iff : IfFlag → BitVec 32) (info : IfInfo) : Netload :=
  { ifFlags := some (translate numberCode (info.isSet iff) tests 0)
    mtu := some info.mtu
    subnet := some 0
    address := some 0
    load := some info.counters.load
    flags := sysdepsNetload }

/-- The caller's buffer when the function returns, and whether it is freed by then. -/
structure Returned where
  buf : Netload
  freed : Bool

/-- What the caller finds in its buffer. -/
def Returned.memory (r : Returned) : Option Netload := if r.freed then none else some r.buf

/-- `glibtop_get_netload_p`, `sysdeps/darwin/netload.c:62–165`, which frees the caller's buffer in
place of that of `sysctl`. -/
def glibtopGetNetloadP (iff : IfFlag → BitVec 32) (interface : List UInt8) (msgs : List RtMsg) :
    Returned :=
  match lookup interface msgs with
  | none => { buf := {}, freed := false }
  | some info => { buf := infoLoad iff info, freed := true }

/-- The messages for interfaces, each with the number of its addresses. -/
def messages (infos : List (IfInfo × Nat)) : List RtMsg :=
  infos.flatMap fun item ↦ .ifinfo item.1 :: List.replicate item.2 .newaddr

/-- The interface has the name. -/
def IfInfo.hasName (interface : List UInt8) (info : IfInfo) : Bool :=
  info.isLink && info.name = interface

/-- The interfaces that have the name. -/
def named (interface : List UInt8) (infos : List (IfInfo × Nat)) : List IfInfo :=
  (infos.map Prod.fst).filter (IfInfo.hasName interface)

section

variable {iff : IfFlag → BitVec 32} {interface : List UInt8}

/-- What is taken for the interface has the name. -/
theorem IfInfo.hasName_of_found {info : IfInfo} (h : info.found interface) :
    info.hasName interface := by
  simp only [found, Bool.and_eq_true, decide_eq_true_eq] at h
  obtain ⟨⟨hlink, hlength⟩, hname⟩ := h
  have hprefix : info.name <+: interface := by
    rw [hname, cString, List.takeWhile_append_of_pos]
    · exact List.prefix_append _ _
    · intro b hb
      rw [bne_iff_ne]
      rintro rfl
      exact info.notMem_name hb
  rw [hasName, hlink, Bool.true_and, decide_eq_true_eq]
  exact hprefix.eq_of_length hlength.symm

/-- The messages of addresses are passed over. -/
theorem dropWhile_messages (count : Nat) (infos : List (IfInfo × Nat)) :
    (List.replicate count RtMsg.newaddr ++ messages infos).dropWhile RtMsg.isNewaddr =
      messages infos := by
  induction count with
  | zero =>
    cases infos with
    | nil => rfl
    | cons item infos => rfl
  | succ count ih => exact ih

theorem lookup_messages (infos : List (IfInfo × Nat)) :
    lookup interface (messages infos) =
      (infos.map Prod.fst).find? fun info ↦ info.found interface := by
  induction infos with
  | nil =>
    rw [messages, List.flatMap_nil, lookup]
    · rfl
    · exact nofun
  | cons item infos ih =>
    have hcons : messages (item :: infos) =
        .ifinfo item.1 :: (List.replicate item.2 .newaddr ++ messages infos) := rfl
    rw [hcons, lookup, dropWhile_messages, ih, List.map_cons, List.find?_cons]
    cases item.1.found interface <;> rfl

/-- The answer is right exactly when no interface has the name: of one that has it either nothing is
found, or the caller's buffer is freed. -/
theorem rightAnswer_iff (infos : List (IfInfo × Nat)) :
    RightAnswer translated (IfInfo.isSet iff) IfInfo.counters (named interface infos)
        (glibtopGetNetloadP iff interface (messages infos)).memory ↔
      named interface infos = [] := by
  rw [RightAnswer, glibtopGetNetloadP, lookup_messages]
  cases hfind : (infos.map Prod.fst).find? fun info ↦ info.found interface with
  | none =>
    constructor
    · rintro ⟨load, hload, hright⟩
      obtain rfl := Option.some.inj hload
      by_contra hn
      rw [if_neg hn] at hright
      obtain ⟨i, -, ha⟩ := hright
      exact absurd ha.load_eq nofun
    · intro hn
      refine ⟨{}, rfl, ?_⟩
      rw [if_pos hn]
  | some info =>
    refine iff_of_false ?_ fun hn ↦ ?_
    · rintro ⟨load, hload, -⟩
      exact absurd hload nofun
    · have hfound := List.find?_some hfind
      have hmem : info ∈ named interface infos :=
        List.mem_filter.mpr ⟨List.mem_of_find?_eq_some hfind, info.hasName_of_found hfound⟩
      rw [hn] at hmem
      exact absurd hmem List.not_mem_nil

/-- A bit of the number of a flag is below the number of the flag that is tested for it. -/
theorem number_lt_of_getLsbD {flag : IfFlag} {test : IfFlag × IfFlag} (h : test ∈ tests)
    (hb : (numberCode test.2).getLsbD flag.number) : flag.number < test.1.number := by
  have hpow : 2 ^ flag.number ≤ test.2.number := by
    rw [numberCode, BitVec.getLsbD_ofNat, Bool.and_eq_true] at hb
    exact Nat.ge_two_pow_of_testBit hb.2
  have hlt : flag.number < 2 ^ flag.number := Nat.lt_two_pow_self
  obtain hown | hrest := List.mem_append.mp h
  · obtain ⟨other, -, rfl⟩ := List.mem_map.mp hown
    exact Nat.lt_of_lt_of_le hlt hpow
  · obtain rfl | hown := List.mem_cons.mp hrest
    · have h8 : 2 ^ flag.number ≤ 2 ^ 3 := hpow
      have h3 := (Nat.pow_le_pow_iff_right (by omega)).mp h8
      exact Nat.lt_of_le_of_lt h3 (by decide)
    · obtain ⟨other, -, rfl⟩ := List.mem_map.mp hown
      exact Nat.lt_of_lt_of_le hlt hpow

/-- The word of flags that is written is right exactly when no flag that is translated is set. -/
theorem flag_eq_iff (info : IfInfo) :
    (∀ flag ∈ translated,
      ((infoLoad iff info).ifFlags.getD 0).getLsbD flag.number = info.isSet iff flag) ↔
      ∀ flag ∈ translated, info.isSet iff flag = false := by
  have hbit : ∀ flag : IfFlag,
      ((infoLoad iff info).ifFlags.getD 0).getLsbD flag.number = true ↔
        ∃ test ∈ tests, info.isSet iff test.1 ∧ (numberCode test.2).getLsbD flag.number :=
    fun flag ↦ (getLsbD_translate tests 0 flag.number).trans
      (or_iff_right (not_getLsbD_zero flag.number))
  have htested : ∀ test ∈ tests, test.1 ∈ translated := by decide
  constructor
  · intro h
    -- from the largest number down: a bit comes from flags of larger numbers only
    have hdown : ∀ room : Nat, ∀ flag ∈ translated, 64 ≤ flag.number + room →
        info.isSet iff flag = false := by
      intro room
      induction room with
      | zero =>
        intro flag _ hroom
        have hlt := flag.number_lt
        omega
      | succ room ih =>
        intro flag hf hroom
        rw [← h flag hf, ← Bool.not_eq_true, hbit flag]
        rintro ⟨test, ht, hs, hb⟩
        have hlt := number_lt_of_getLsbD ht hb
        rw [ih test.1 (htested test ht) (by omega)] at hs
        exact absurd hs Bool.false_ne_true
    exact fun flag hf ↦ hdown 64 flag hf (by omega)
  · intro h flag hf
    rw [h flag hf, ← Bool.not_eq_true, hbit flag]
    rintro ⟨test, ht, hs, -⟩
    rw [h test.1 (htested test ht)] at hs
    exact absurd hs Bool.false_ne_true

end

end LibGTop.Darwin
