import LibGTop.Base.Scan
import LibGTop.Common.Netload

/-!
# The load of a network interface

`glibtop_get_netload_p` of AIX (`sysdeps/aix/netload.c:110–208`), which goes through the whole
list of the kernel's interfaces and makes their names from two parts.
-/

namespace LibGTop.Aix

open Base Common

/-- An address of an interface: `AF_INET` with the mask, or another one. -/
inductive IfAddr
  | inet (address mask : BitVec 32)
  | other

/-- `struct ifnet`, with the name in the memory that `if_name` points to. -/
structure Ifnet where
  ifName : List UInt8
  notMem_ifName : 0 ∉ ifName
  unit : Int
  flags : BitVec 32
  mtu : BitVec 32
  counters : Counters
  addrs : List IfAddr

/-- The name of the interface: `%s%d` of the two parts. -/
def Ifnet.name (ifnet : Ifnet) : List UInt8 := ifnet.ifName ++ signedDecimal ifnet.unit

/-- The name and its terminator fit `name[16]`. -/
def Ifnet.Fits (ifnet : Ifnet) : Prop := ifnet.name.length < 16

instance (ifnet : Ifnet) : Decidable ifnet.Fits :=
  inferInstanceAs (Decidable (ifnet.name.length < 16))

/-- `_glibtop_sysdeps_netload`. -/
def sysdepsNetload : BitVec 64 := Linux.flagBits [0, 1, 2, 3, 4, 5, 6, 7, 8, 9, 10, 11, 12, 13]

/-- The flags that are translated. -/
def translated : List IfFlag :=
  [.up, .broadcast, .loopback, .pointopoint, .running, .noarp, .promisc, .allmulti, .oactive,
    .simplex, .link0, .link1, .link2, .link2, .multicast]

/-- The flag of the kernel is set, with the masks `IFF_…` as an argument; that of `MULTICAST` is
0x80000. -/
def Ifnet.isSet (iff : IfFlag → BitVec 32) (ifnet : Ifnet) (flag : IfFlag) : Bool :=
  ifnet.flags &&& (if flag = .multicast then 0x80000 else iff flag) ≠ 0

/-- `get_ifaddr`, `sysdeps/aix/netload.c:40–77`: the first address of IPv4 and its mask. -/
def getIfaddr : List IfAddr → BitVec 32 × BitVec 32
  | [] => (0, 0)
  | .inet address mask :: _ => (address, mask)
  | .other :: next => getIfaddr next

/-- The fields that an interface of the name sets, `sysdeps/aix/netload.c:154–204`. -/
def fill (iff : IfFlag → BitVec 32) (buf : Netload) (ifnet : Ifnet) : Netload :=
  let (addr, mask) := getIfaddr ifnet.addrs
  { buf with
    ifFlags := some (translate bitCode (ifnet.isSet iff) (ownTests translated)
      (buf.ifFlags.getD 0))
    mtu := some ifnet.mtu
    subnet := some (addr &&& mask)
    address := some addr
    load := some ifnet.counters.load }

/-- The loop of `glibtop_get_netload_p`; no value when a name is written behind its buffer. -/
def loop (iff : IfFlag → BitVec 32) (interface : List UInt8) :
    List Ifnet → Netload → Option Netload
  | [], buf => some buf
  | ifnet :: next, buf =>
    if ifnet.Fits then
      if ifnet.name ≠ interface then loop iff interface next buf
      else loop iff interface next (fill iff buf ifnet)
    else none

/-- `glibtop_get_netload_p`, `sysdeps/aix/netload.c:110–208`. -/
def glibtopGetNetloadP (iff : IfFlag → BitVec 32) (interface : List UInt8) (ifnets : List Ifnet) :
    Option Netload :=
  (loop iff interface ifnets {}).map fun buf ↦ { buf with flags := sysdepsNetload }

/-- The interfaces that have the name. -/
def named (interface : List UInt8) (ifnets : List Ifnet) : List Ifnet :=
  ifnets.filter fun ifnet ↦ ifnet.name = interface

/-- One of the interfaces has the load of the last one and the flags of all. -/
def Alike (iff : IfFlag → BitVec 32) (ifnets : List Ifnet) : Prop :=
  ∃ i ∈ ifnets, (∀ last ∈ ifnets.getLast?, i.counters.load = last.counters.load) ∧
    ∀ j ∈ ifnets, ∀ flag ∈ translated, j.isSet iff flag → i.isSet iff flag

section

variable {iff : IfFlag → BitVec 32} {interface : List UInt8}

/-- When all names fit, the interfaces of the name are all that counts. -/
theorem loop_eq {ifnets : List Ifnet} (h : ∀ ifnet ∈ ifnets, ifnet.Fits) (buf : Netload) :
    loop iff interface ifnets buf = some ((named interface ifnets).foldl (fill iff) buf) := by
  induction ifnets generalizing buf with
  | nil => rfl
  | cons ifnet ifnets ih =>
    obtain ⟨hfits, h⟩ := List.forall_mem_cons.mp h
    rw [loop, if_pos hfits]
    by_cases hn : ifnet.name = interface
    · have hnamed : named interface (ifnet :: ifnets) = ifnet :: named interface ifnets :=
        List.filter_cons_of_pos (decide_eq_true hn)
      rw [if_neg (not_not.mpr hn), ih h, hnamed, List.foldl_cons]
    · have hnamed : named interface (ifnet :: ifnets) = named interface ifnets :=
        List.filter_cons_of_neg (by rwa [decide_eq_true_eq])
      rw [if_pos hn, ih h, hnamed]

/-- A name that does not fit leaves nothing defined, wherever it is. -/
theorem loop_eq_none {ifnets : List Ifnet} (h : ¬∀ ifnet ∈ ifnets, ifnet.Fits) (buf : Netload) :
    loop iff interface ifnets buf = none := by
  induction ifnets generalizing buf with
  | nil => exact absurd (fun _ hm ↦ absurd hm List.not_mem_nil) h
  | cons ifnet ifnets ih =>
    rw [loop]
    split
    · next hfits =>
      have h : ¬∀ ifnet ∈ ifnets, ifnet.Fits := fun hall ↦
        h (List.forall_mem_cons.mpr ⟨hfits, hall⟩)
      split
      · exact ih h buf
      · exact ih h _
    · rfl

theorem load_foldl_fill (iff : IfFlag → BitVec 32) (buf : Netload) (ifnet : Ifnet)
    (ifnets : List Ifnet) :
    ((ifnet :: ifnets).foldl (fill iff) buf).load =
      some ((ifnet :: ifnets).getLast (List.cons_ne_nil _ _)).counters.load := by
  induction ifnets generalizing buf ifnet with
  | nil => rfl
  | cons next ifnets ih =>
    rw [List.foldl_cons, ih, List.getLast_cons (List.cons_ne_nil next ifnets)]

/-- The flags of all interfaces are set. -/
theorem flags_foldl_fill {flag : IfFlag} (hf : flag ∈ translated) (buf : Netload)
    (ifnets : List Ifnet) :
    ((ifnets.foldl (fill iff) buf).ifFlags.getD 0).getLsbD flag.number ↔
      (buf.ifFlags.getD 0).getLsbD flag.number ∨ ∃ j ∈ ifnets, j.isSet iff flag := by
  induction ifnets generalizing buf with
  | nil => simp
  | cons ifnet ifnets ih =>
    have hfill : ((fill iff buf ifnet).ifFlags.getD 0).getLsbD flag.number ↔
        (buf.ifFlags.getD 0).getLsbD flag.number ∨ ifnet.isSet iff flag :=
      getLsbD_translate_bitCode hf _
    rw [List.foldl_cons, ih, hfill, List.exists_mem_cons_iff, or_assoc]

/-- After an interface all fields have a value that have a bit. -/
theorem filled_foldl_fill (buf : Netload) (ifnet : Ifnet) (ifnets : List Ifnet)
    {field : NetloadField} (h : sysdepsNetload.getLsbD field.number) :
    ((ifnet :: ifnets).foldl (fill iff) buf).filled field := by
  induction ifnets generalizing buf ifnet with
  | nil => cases field <;> first | rfl | exact absurd h (by decide)
  | cons next ifnets ih => exact ih (fill iff buf ifnet) next

/-- The answer is right exactly when all names fit, some interface has the name, and one that has it
has the load of the last one and the flags of all. -/
theorem rightAnswer_iff (ifnets : List Ifnet) :
    RightAnswer translated (Ifnet.isSet iff) Ifnet.counters (named interface ifnets)
        (glibtopGetNetloadP iff interface ifnets) ↔
      (∀ ifnet ∈ ifnets, ifnet.Fits) ∧ Alike iff (named interface ifnets) := by
  by_cases hfits : ∀ ifnet ∈ ifnets, ifnet.Fits
  · rw [and_iff_right hfits, RightAnswer, glibtopGetNetloadP, loop_eq hfits, Option.map_some]
    cases hn : named interface ifnets with
    | nil =>
      refine iff_of_false ?_ ?_
      · rintro ⟨load, hload, hright⟩
        obtain rfl := Option.some.inj hload
        rw [if_pos rfl] at hright
        have hz : sysdepsNetload = 0 := hright
        exact absurd hz (by decide)
      · rintro ⟨i, hi, -⟩
        exact absurd hi List.not_mem_nil
    | cons ifnet rest =>
      have hflags : ∀ flag ∈ translated,
          (((ifnet :: rest).foldl (fill iff) {}).ifFlags.getD 0).getLsbD flag.number = true ↔
            ∃ j ∈ ifnet :: rest, j.isSet iff flag := fun flag hf ↦
        (flags_foldl_fill hf {} (ifnet :: rest)).trans
          (or_iff_right (not_getLsbD_zero flag.number))
      have hlast := List.getLast?_eq_some_getLast (List.cons_ne_nil ifnet rest)
      have hload := load_foldl_fill iff {} ifnet rest
      simp only [Option.some.injEq, exists_eq_left', List.cons_ne_nil, if_false]
      rw [Alike, hlast]
      refine exists_congr fun i ↦ and_congr_right fun hi ↦ ⟨fun ha ↦ ⟨?_, ?_⟩, fun ha ↦ ⟨?_, ?_, ?_⟩⟩
      · rintro last hm
        obtain rfl := Option.some.inj hm
        exact Option.some.inj (ha.load_eq.symm.trans hload)
      · intro j hj flag hf hs
        rw [← ha.flag_eq flag hf]
        exact (hflags flag hf).mpr ⟨j, hj, hs⟩
      · exact hload.trans (congrArg some (ha.1 _ rfl).symm)
      · intro flag hf
        rw [Bool.eq_iff_iff]
        refine (hflags flag hf).trans ⟨?_, fun hs ↦ ⟨i, hi, hs⟩⟩
        rintro ⟨j, hj, hs⟩
        exact ha.2 j hj flag hf hs
      · exact fun field h ↦ filled_foldl_fill {} ifnet rest h
  · refine iff_of_false ?_ fun h ↦ hfits h.1
    rintro ⟨load, hload, -⟩
    rw [glibtopGetNetloadP, loop_eq_none hfits] at hload
    exact absurd hload nofun

/-- Of one interface the load is the one of the last. -/
theorem alike_singleton (ifnet : Ifnet) : Alike iff [ifnet] := by
  refine ⟨ifnet, List.mem_singleton_self ifnet, fun last hm ↦ ?_, fun j hj flag _ hs ↦ ?_⟩
  · obtain rfl := Option.some.inj hm
    rfl
  · exact List.mem_singleton.mp hj ▸ hs

end

end LibGTop.Aix
