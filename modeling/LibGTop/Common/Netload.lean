import LibGTop.Linux.Readers

/-!
# The load of a network interface

`glibtop_netload` (`include/glibtop/netload.h`), the encoding of its two words of flags, and
what an answer to the request for an interface must be like.
-/

namespace LibGTop.Common

open Base

/-- The flags of an interface, `include/glibtop/netload.h:53–71`. -/
inductive IfFlag
  | up
  | broadcast
  | debug
  | loopback
  | pointopoint
  | running
  | noarp
  | promisc
  | allmulti
  | oactive
  | simplex
  | link0
  | link1
  | link2
  | altphys
  | multicast
  | wireless
  deriving DecidableEq

/-- `GLIBTOP_IF_FLAGS_…`. -/
def IfFlag.number : IfFlag → Nat
  | up => 1
  | broadcast => 2
  | debug => 3
  | loopback => 4
  | pointopoint => 5
  | running => 6
  | noarp => 7
  | promisc => 8
  | allmulti => 9
  | oactive => 10
  | simplex => 11
  | link0 => 12
  | link1 => 13
  | link2 => 14
  | altphys => 15
  | multicast => 16
  | wireless => 17

/-- The fields of a load. -/
inductive NetloadField
  | ifFlags
  | mtu
  | subnet
  | address
  | packetsIn
  | packetsOut
  | packetsTotal
  | bytesIn
  | bytesOut
  | bytesTotal
  | errorsIn
  | errorsOut
  | errorsTotal
  | collisions
  | address6
  | prefix6
  | scope6
  | hwaddress
  deriving DecidableEq

/-- `GLIBTOP_NETLOAD_…`, `include/glibtop/netload.h:30–47`. -/
def NetloadField.number : NetloadField → Nat
  | ifFlags => 0
  | mtu => 1
  | subnet => 2
  | address => 3
  | packetsIn => 4
  | packetsOut => 5
  | packetsTotal => 6
  | bytesIn => 7
  | bytesOut => 8
  | bytesTotal => 9
  | errorsIn => 10
  | errorsOut => 11
  | errorsTotal => 12
  | collisions => 13
  | address6 => 14
  | prefix6 => 15
  | scope6 => 16
  | hwaddress => 17

/-- What the kernel counts for an interface. -/
structure Counters where
  ipackets : BitVec 64
  opackets : BitVec 64
  ibytes : BitVec 64
  obytes : BitVec 64
  ierrors : BitVec 64
  oerrors : BitVec 64
  collisions : BitVec 64
  deriving DecidableEq

/-- The counters of a load, with their totals. -/
structure Load where
  packetsIn : BitVec 64
  packetsOut : BitVec 64
  packetsTotal : BitVec 64
  bytesIn : BitVec 64
  bytesOut : BitVec 64
  bytesTotal : BitVec 64
  errorsIn : BitVec 64
  errorsOut : BitVec 64
  errorsTotal : BitVec 64
  collisions : BitVec 64
  deriving DecidableEq

/-- The load that the counters are. -/
def Counters.load (c : Counters) : Load :=
  { packetsIn := c.ipackets
    packetsOut := c.opackets
    packetsTotal := c.ipackets + c.opackets
    bytesIn := c.ibytes
    bytesOut := c.obytes
    bytesTotal := c.ibytes + c.obytes
    errorsIn := c.ierrors
    errorsOut := c.oerrors
    errorsTotal := c.ierrors + c.oerrors
    collisions := c.collisions }

/-- `glibtop_netload`; a field is absent that is as `memset` left it. -/
structure Netload where
  flags : BitVec 64 := 0
  ifFlags : Option (BitVec 64) := none
  mtu : Option (BitVec 32) := none
  subnet : Option (BitVec 32) := none
  address : Option (BitVec 32) := none
  load : Option Load := none
  address6 : Option (List UInt8) := none
  hwaddress : Option (List UInt8) := none

/-- The field is filled. -/
def Netload.filled (buf : Netload) : NetloadField → Bool
  | .ifFlags => buf.ifFlags.isSome
  | .mtu => buf.mtu.isSome
  | .subnet => buf.subnet.isSome
  | .address => buf.address.isSome
  | .address6 => buf.address6.isSome
  | .prefix6 => false
  | .scope6 => false
  | .hwaddress => buf.hwaddress.isSome
  | _ => buf.load.isSome

/-- The word of flags after the tests of a list: each is of a flag of the kernel and adds the code
of a flag. -/
def translate (code : IfFlag → BitVec 64) (isSet : IfFlag → Bool) (tests : List (IfFlag × IfFlag))
    (word : BitVec 64) : BitVec 64 :=
  tests.foldl (fun word test ↦ if isSet test.1 then word ||| code test.2 else word) word

/-- The tests of flags that are each translated to themselves. -/
def ownTests (flags : List IfFlag) : List (IfFlag × IfFlag) := flags.map fun flag ↦ (flag, flag)

/-- `htonl` of a machine that is little-endian. -/
def htonl (word : BitVec 32) : BitVec 32 :=
  word.extractLsb' 0 8 ++ word.extractLsb' 8 8 ++ word.extractLsb' 16 8 ++ word.extractLsb' 24 8

/-- `1L << GLIBTOP_IF_FLAGS_…`. -/
def bitCode (flag : IfFlag) : BitVec 64 := BitVec.twoPow 64 flag.number

/-- The answer is the one for an interface with these counters and flags: it has the counters, of
the flags that are translated just those that are set, and no bit for a field that is not filled. -/
structure Answers (translated : List IfFlag) (isSet : IfFlag → Bool) (counters : Counters)
    (buf : Netload) : Prop where
  load_eq : buf.load = some counters.load
  flag_eq : ∀ flag ∈ translated, (buf.ifFlags.getD 0).getLsbD flag.number = isSet flag
  filled : ∀ field : NetloadField, buf.flags.getLsbD field.number → buf.filled field

/-- What is found in the caller's memory is the answer for one of the interfaces of the name, and if
there is none has no flags. -/
def RightAnswer {Interface : Type} (translated : List IfFlag) (isSet : Interface → IfFlag → Bool)
    (counters : Interface → Counters) (named : List Interface) (buf : Option Netload) : Prop :=
  ∃ load, buf = some load ∧
    if named = [] then load.flags = 0
    else ∃ i ∈ named, Answers translated (isSet i) (counters i) load

theorem IfFlag.number_inj {a b : IfFlag} (h : a.number = b.number) : a = b := by
  have hnumber : ∀ flag : IfFlag, flag.number = flag.ctorIdx + 1 := fun flag ↦ by
    cases flag <;> rfl
  rw [hnumber, hnumber, Nat.add_right_cancel_iff] at h
  rw [← IfFlag.ofNat_ctorIdx a, h, IfFlag.ofNat_ctorIdx]

theorem IfFlag.number_lt (flag : IfFlag) : flag.number < 64 := by
  cases flag <;> decide

theorem NetloadField.number_inj {a b : NetloadField} (h : a.number = b.number) : a = b := by
  have hnumber : ∀ field : NetloadField, field.number = field.ctorIdx := fun field ↦ by
    cases field <;> rfl
  rw [hnumber, hnumber] at h
  rw [← NetloadField.ofNat_ctorIdx a, h, NetloadField.ofNat_ctorIdx]

theorem NetloadField.number_lt (field : NetloadField) : field.number < 64 := by
  cases field <;> decide

theorem not_getLsbD_zero (i : Nat) : ¬(0 : BitVec 64).getLsbD i = true := by simp

/-- A bit of the word is one that it had, or of the code of a flag whose test succeeds. -/
theorem getLsbD_translate {code : IfFlag → BitVec 64} {isSet : IfFlag → Bool}
    (tests : List (IfFlag × IfFlag)) (word : BitVec 64) (i : Nat) :
    (translate code isSet tests word).getLsbD i ↔
      word.getLsbD i ∨ ∃ test ∈ tests, isSet test.1 ∧ (code test.2).getLsbD i := by
  induction tests generalizing word with
  | nil => simp [translate]
  | cons test tests ih =>
    rw [translate, List.foldl_cons, ← translate, ih, List.exists_mem_cons_iff]
    by_cases hs : isSet test.1 = true
    · rw [if_pos hs, BitVec.getLsbD_or, Bool.or_eq_true, or_assoc, and_iff_right hs]
    · have hn : ¬(isSet test.1 = true ∧ (code test.2).getLsbD i = true) := fun h ↦ hs h.1
      rw [if_neg hs, or_iff_right hn]

/-- Codes of one bit each are right for the flags that are translated to themselves. -/
theorem getLsbD_translate_bitCode {isSet : IfFlag → Bool} {flags : List IfFlag} {flag : IfFlag}
    (h : flag ∈ flags) (word : BitVec 64) :
    (translate bitCode isSet (ownTests flags) word).getLsbD flag.number ↔
      word.getLsbD flag.number ∨ isSet flag := by
  rw [getLsbD_translate]
  refine or_congr Iff.rfl ⟨?_, fun hs ↦ ⟨(flag, flag), List.mem_map_of_mem h, hs, ?_⟩⟩
  · rintro ⟨test, ht, hs, hb⟩
    obtain ⟨other, -, rfl⟩ := List.mem_map.mp ht
    rw [bitCode, BitVec.getLsbD_twoPow, Bool.and_eq_true, decide_eq_true_eq,
      decide_eq_true_eq] at hb
    exact IfFlag.number_inj hb.2 ▸ hs
  · rw [bitCode, BitVec.getLsbD_twoPow, Bool.and_eq_true, decide_eq_true_eq,
      decide_eq_true_eq]
    exact ⟨flag.number_lt, rfl⟩

end LibGTop.Common
