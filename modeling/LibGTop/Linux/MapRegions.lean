import LibGTop.Linux.MapArray
import LibGTop.Linux.Smaps

/-!
# The mappings of a process

What the entries of `glibtop_get_proc_map_s` say for a text of maps or smaps as the
kernel writes it: one entry for each header line, with its address range, offset,
permissions, inode and path, and when two of them name the same device.
-/

namespace LibGTop.Linux

open Base

/-- A header line whose numbers have the ranges of the kernel's; the path follows some padding. -/
structure Region extends MapHeader where
  start_lt : digitsValue 16 start.digits < 2 ^ 64
  stop_lt : digitsValue 16 stop.digits < 2 ^ 64
  offset_lt : digitsValue 16 offset.digits < 2 ^ 64
  devMajor_lt : digitsValue 16 devMajor.digits < 2 ^ 12
  devMinor_lt : digitsValue 16 devMinor.digits < 2 ^ 20
  inode_lt : inode < 2 ^ 64
  pad : Nat
  path : List UInt8
  path_start : ∀ b ∈ path.head?, ¬gAsciiIsspace b = true
  rest_eq : rest = List.replicate pad 32 ++ path

/-- A mapping: its header line, and in smaps the lines behind it. -/
structure Mapping where
  region : Region
  values : List ValueLine

/-- The block of a mapping in smaps. -/
def Mapping.block (m : Mapping) : Block := ⟨m.region.toMapHeader, m.values⟩

/-- The text of maps. -/
def mapsFile (ms : List Mapping) : List UInt8 := text (ms.map fun m ↦ m.region.text)

/-- The text of smaps. -/
def smapsFile (ms : List Mapping) : List UInt8 := smapsText (ms.map Mapping.block)

namespace Region

variable (r : Region)

/-- The permission with this bit is in the header line. -/
def HasPerm : Nat → Prop
  | 0 => r.perms[0]? = some 114
  | 1 => r.perms[1]? = some 119
  | 2 => r.perms[2]? = some 120
  | 3 => r.perms[3]? = some 115
  | 4 => r.perms[3]? = some 112
  | _ => False

/-- The major and the minor number of the device. -/
def device : Nat × Nat := (digitsValue 16 r.devMajor.digits, digitsValue 16 r.devMinor.digits)

/-- An entry has what the header line says. -/
structure Stored (e : MapEntry) : Prop where
  start : e.start.toNat = digitsValue 16 r.start.digits
  stop : e.stop.toNat = digitsValue 16 r.stop.digits
  offset : e.offset.toNat = digitsValue 16 r.offset.digits
  perm : ∀ bit, e.perm.getLsbD bit = true ↔ r.HasPerm bit
  inode : e.inode.toNat = r.inode
  filename : e.filename = r.path.take 215

theorem toNat_clampUnsigned_of_lt {n : Nat} (h : n < 2 ^ 64) : (clampUnsigned n).toNat = n := by
  rw [clampUnsigned, if_neg (by omega), BitVec.ofInt_natCast, BitVec.toNat_ofNat,
    Nat.mod_eq_of_lt h]

private theorem getLsbD_ite (p : Prop) [Decidable p] (mask other : BitVec 64) (bit : Nat) :
    (if p then mask else other).getLsbD bit =
      if p then mask.getLsbD bit else other.getLsbD bit := by
  split <;> rfl

theorem getLsbD_accessPermissions (bit : Nat) :
    (accessPermissions r.perms).getLsbD bit = true ↔ r.HasPerm bit := by
  have h1 : (1 : BitVec 64) = BitVec.twoPow 64 0 := rfl
  have h2 : (2 : BitVec 64) = BitVec.twoPow 64 1 := rfl
  have h4 : (4 : BitVec 64) = BitVec.twoPow 64 2 := rfl
  have h8 : (8 : BitVec 64) = BitVec.twoPow 64 3 := rfl
  have h16 : (16 : BitVec 64) = BitVec.twoPow 64 4 := rfl
  have hz : (0 : BitVec 64).getLsbD bit = false := BitVec.getLsbD_zero
  simp only [accessPermissions, BitVec.getLsbD_or, getLsbD_ite, h1, h2, h4, h8, h16,
    BitVec.getLsbD_twoPow, hz]
  match bit with
  | 0 => simp [HasPerm]
  | 1 => simp [HasPerm]
  | 2 => simp [HasPerm]
  | 3 => simp [HasPerm]
  | 4 =>
    by_cases hs : r.perms[3]? = some 115
    · simp [HasPerm, hs]
    · simp [HasPerm, hs]
  | bit + 5 => simp [HasPerm]

/-- The path is what is left behind the padding. -/
theorem filename_found : r.found.filename = r.path := by
  have hn : nextToken (r.rest ++ [10]) = nextToken (r.path ++ [10]) := by
    have hp : ∀ b ∈ List.replicate r.pad (32 : UInt8), gAsciiIsspace b = true := by
      intro b hb
      rw [List.eq_of_mem_replicate hb]
      decide
    rw [r.rest_eq, List.append_assoc, nextToken, List.dropWhile_append_of_pos hp]
    rfl
  have hl : 10 ∉ r.path := fun h ↦ r.rest_line (r.rest_eq ▸ List.mem_append_right _ h)
  change (nextToken (r.rest ++ [10])).takeWhile (· ≠ 10) = r.path
  rw [hn]
  cases hc : r.path with
  | nil => rfl
  | cons b path =>
    have hb : ¬gAsciiIsspace b = true := r.path_start b (hc ▸ rfl)
    have ht : ∀ c ∈ b :: path, (decide (c ≠ 10)) = true := fun c hm ↦
      decide_eq_true fun he ↦ hl (hc ▸ he ▸ hm)
    rw [nextToken, List.cons_append, List.dropWhile_cons_of_neg hb, ← List.cons_append,
      List.takeWhile_append_of_pos ht, List.takeWhile_cons_of_neg (by decide), List.append_nil]

/-- What is stored for a header line is what it says. -/
theorem stored_newEntry (hasSmaps : Bool) (memory : MapEntry) :
    r.Stored (newEntry hasSmaps memory r.found) where
  start := toNat_clampUnsigned_of_lt r.start_lt
  stop := toNat_clampUnsigned_of_lt r.stop_lt
  offset := toNat_clampUnsigned_of_lt r.offset_lt
  perm := r.getLsbD_accessPermissions
  inode := toNat_clampUnsigned_of_lt r.inode_lt
  filename := congrArg (List.take 215) r.filename_found

end Region

/-- The entry of a mapping. -/
def Mapping.entry (hasSmaps : Bool) (m : Mapping) (memory : MapEntry) : MapEntry :=
  if hasSmaps then m.block.entry memory else newEntry false memory m.region.found

theorem Mapping.stored_entry (hasSmaps : Bool) (m : Mapping) (memory : MapEntry) :
    m.region.Stored (m.entry hasSmaps memory) := by
  cases hasSmaps with
  | true =>
    have hs := m.region.stored_newEntry true memory
    exact ⟨hs.start, hs.stop, hs.offset, hs.perm, hs.inode, hs.filename⟩
  | false => exact m.region.stored_newEntry false memory

/-- Every header line of maps gives its own entry. -/
theorem mapEntries_headers (memory : Nat → MapEntry) (ms : List Mapping) (added : Nat) :
    mapEntries false memory added ((ms.map fun m ↦ m.region.text).map fun line ↦ line ++ [10]) =
      ms.mapIdx fun k m ↦ m.entry false (memory (added + k)) := by
  induction ms generalizing added with
  | nil => rw [List.map_nil, List.map_nil, mapEntries, List.mapIdx_nil]
  | cons m ms ih =>
    have hz : (0 : UInt8) ∉ m.region.text ++ [10] := by
      simp [m.region.notMem_text (.inl rfl)]
    have hk : ∀ k, added + 1 + k = added + (k + 1) := fun k ↦ by omega
    rw [List.map_cons, List.map_cons, mapEntries, cString_eq_self hz, m.region.parseLine_text]
    simp only [Bool.false_eq_true, if_false, ih, List.mapIdx_cons, Nat.add_zero, hk]
    rfl

/-- The entries of a text of maps or smaps. -/
theorem glibtopGetProcMapS_mappings (osVersionCode : Nat) (memory : Nat → MapEntry)
    (ms : List Mapping) :
    glibtopGetProcMapS osVersionCode memory (some (smapsFile ms)) (some (mapsFile ms)) =
      ({ flags := sysdepsProcMap, number := BitVec.ofNat 64 ms.length, size := mapEntrySize,
         total := BitVec.ofNat 64 ms.length * mapEntrySize },
        some (ms.mapIdx fun k m ↦
          m.entry (decide (linuxVersionCode 2 6 14 ≤ osVersionCode)) (memory k))) := by
  have hsmaps : mapEntries true memory 0 (lines (smapsFile ms)) =
      ms.mapIdx fun k m ↦ m.entry true (memory k) := by
    have hm := mapEntries_blocks memory (ms.map Mapping.block) 0
    rw [smapsFile, smapsText, lines_text (notMem_blocks _), hm]
    apply List.ext_getElem?
    intro k
    rw [List.getElem?_mapIdx, List.getElem?_mapIdx, List.getElem?_map, Option.map_map, Nat.zero_add]
    rfl
  have hmaps : mapEntries false memory 0 (lines (mapsFile ms)) =
      ms.mapIdx fun k m ↦ m.entry false (memory k) := by
    have hl : ∀ line ∈ ms.map (fun m ↦ m.region.text), 10 ∉ line := by
      intro line hm
      obtain ⟨m, -, rfl⟩ := List.mem_map.mp hm
      exact m.region.notMem_text (.inr rfl)
    have hm := mapEntries_headers memory ms 0
    rw [mapsFile, lines_text hl, hm]
    simp only [Nat.zero_add]
  unfold glibtopGetProcMapS
  by_cases hv : linuxVersionCode 2 6 14 ≤ osVersionCode
  · simp only [hv, decide_true, if_true, hsmaps, List.length_mapIdx]
  · simp only [hv, decide_false, Bool.false_eq_true, if_false, hmaps, List.length_mapIdx]

/-- A number of a device below a bound. -/
def DeviceDigits (bound : Nat) (digits : List UInt8) : Prop :=
  digits ≠ [] ∧ digits.all (isDigitIn 16) = true ∧ digitsValue 16 digits < bound

instance (bound : Nat) (digits : List UInt8) : Decidable (DeviceDigits bound digits) :=
  inferInstanceAs (Decidable (_ ∧ _))

/-- A mapping of a file whose path has a blank and a colon in it, on a given device. -/
def sampleMapping (devMajor devMinor : List UInt8) (hmajor : DeviceDigits (2 ^ 12) devMajor)
    (hminor : DeviceDigits (2 ^ 20) devMinor) : Mapping where
  region :=
    { sampleHeader with
      devMajor := ⟨devMajor, hmajor.1, List.all_eq_true.mp hmajor.2.1⟩
      devMinor := ⟨devMinor, hminor.1, List.all_eq_true.mp hminor.2.1⟩
      rest := asciiBytes "  /a b:c".toList
      rest_line := by decide
      rest_noNul := by decide
      start_lt := (by decide : digitsValue 16 sampleHeader.start.digits < 2 ^ 64)
      stop_lt := (by decide : digitsValue 16 sampleHeader.stop.digits < 2 ^ 64)
      offset_lt := (by decide : digitsValue 16 sampleHeader.offset.digits < 2 ^ 64)
      devMajor_lt := hmajor.2.2
      devMinor_lt := hminor.2.2
      inode_lt := (by decide : sampleHeader.inode < 2 ^ 64)
      pad := 2
      path := asciiBytes "/a b:c".toList
      path_start := by
        intro b hb
        obtain rfl := Option.mem_some_iff.mp hb
        decide
      rest_eq := (by decide : asciiBytes "  /a b:c".toList =
        List.replicate 2 32 ++ asciiBytes "/a b:c".toList) }
  values := []

/-- The array has one entry for each header line, in their order and with what they say, and the
numbers agree with it. -/
theorem map_structure {setSize : List MapEntry → Nat → List MapEntry} (h : Resizes setSize)
    {reserved : List MapEntry} (hr : 100 ≤ reserved.length) (osVersionCode : Nat)
    (ms : List Mapping) :
    ∃ buf entries,
      fillProcMap osVersionCode setSize reserved (some (smapsFile ms)) (some (mapsFile ms)) =
        some (buf, some entries) ∧
      entries.length = ms.length ∧
      (∀ (k : Nat) (m : Mapping) (e : MapEntry), ms[k]? = some m → entries[k]? = some e →
        m.region.Stored e) ∧
      (∀ m ∈ ms, isSmapValue (m.region.text ++ [10]) = none ∧
        ∀ v ∈ m.values, (isSmapValue (v.text ++ [10])).isSome) ∧
      buf.flags = sysdepsProcMap ∧ buf.number = BitVec.ofNat 64 entries.length ∧
      buf.size = mapEntrySize ∧ buf.total = buf.number * buf.size := by
  obtain ⟨memory, hf⟩ := fillProcMap_refines h hr osVersionCode (some (smapsFile ms))
    (some (mapsFile ms))
  rw [glibtopGetProcMapS_mappings] at hf
  refine ⟨_, _, hf, List.length_mapIdx, ?_, ?_, rfl, ?_, rfl, rfl⟩
  · intro k m e hm he
    rw [List.getElem?_mapIdx, hm, Option.map_some] at he
    obtain rfl := Option.some.inj he
    exact m.stored_entry _ _
  · intro m _
    exact ⟨m.region.isSmapValue_text, fun v _ ↦ v.isSmapValue_text⟩
  · rw [List.length_mapIdx]

theorem eight_major : DeviceDigits (2 ^ 12) [56] := by decide

theorem eight_minor : DeviceDigits (2 ^ 20) [56] := by decide

/-- More mappings than are reserved at first, the last of them without a line behind its header. -/
def grownMappings : List Mapping :=
  List.replicate 120 ⟨(sampleMapping [56] [56] eight_major eight_minor).region,
    [.number .rss 20 4, .number .pss 20 2]⟩ ++ [sampleMapping [56] [56] eight_major eight_minor]

theorem map_structure_grown :
    ∃ buf entries, fillProcMap (linuxVersionCode 6 1 0) (padSize (sampleMemory 0))
        (List.replicate 100 (sampleMemory 7)) (some (smapsFile grownMappings))
        (some (mapsFile grownMappings)) = some (buf, some entries) ∧
      entries.length = 121 ∧ buf.total = 121 * 336 ∧
      ∀ e, entries[120]? = some e → e.filename = asciiBytes "/a b:c".toList := by
  have hreserved : 100 = (List.replicate 100 (sampleMemory 7)).length := List.length_replicate.symm
  have hlength : grownMappings.length = 121 := by
    rw [grownMappings, List.length_append, List.length_replicate]
    rfl
  obtain ⟨buf, entries, hf, hl, hs, -, -, hn, hz, ht⟩ :=
    map_structure (resizes_padSize (sampleMemory 0)) (Nat.le_of_eq hreserved)
      (linuxVersionCode 6 1 0) grownMappings
  refine ⟨buf, entries, hf, hl.trans hlength, ?_, ?_⟩
  · rw [ht, hn, hz, hl, hlength]
    rfl
  · intro e he
    rw [(hs 120 _ e rfl he).filename]
    decide

/-- The device numbers of two entries are the same exactly when their header lines name the same
device. -/
def DevicesIdentify (osVersionCode : Nat) (memory : Nat → MapEntry) (ms : List Mapping)
    (k k' : Nat) : Prop :=
  ∃ (m m' : Mapping) (buf : ProcMap) (entries : List MapEntry) (e e' : MapEntry),
    ms[k]? = some m ∧ ms[k']? = some m' ∧
    glibtopGetProcMapS osVersionCode memory (some (smapsFile ms)) (some (mapsFile ms)) =
      (buf, some entries) ∧ entries[k]? = some e ∧ entries[k']? = some e' ∧
    (e.device = e'.device ↔ m.region.device = m'.region.device)

/-- The two device numbers are told apart: the devices are the same, or the low eight bits of their
minor numbers differ, or what is stored above these does: the major number joined with the next
eight bits of the minor number. -/
def DevicesApart (r r' : Region) : Prop :=
  r.device = r'.device ∨ r.device.2 % 256 ≠ r'.device.2 % 256 ∨
    r.device.1 ||| r.device.2 / 256 % 256 ≠ r'.device.1 ||| r'.device.2 / 256 % 256

/-- What stands above and what stands in the low eight bits of a device number. -/
def Region.deviceNumber (r : Region) : Nat × Nat :=
  (r.device.1 ||| r.device.2 / 256 % 256, r.device.2 % 256)

theorem shiftLeft_or_mod (a b : Nat) :
    a <<< 8 ||| b % 2 ^ 16 = (a ||| b / 256 % 256) * 256 + b % 256 := by
  have hb : b % 2 ^ 16 = (b / 256 % 256) <<< 8 ||| b % 256 := by
    rw [← Nat.shiftLeft_add_eq_or_of_lt (by omega : b % 256 < 2 ^ 8), Nat.shiftLeft_eq]
    omega
  rw [hb, ← Nat.or_assoc, ← Nat.shiftLeft_or_distrib,
    ← Nat.shiftLeft_add_eq_or_of_lt (by omega : b % 256 < 2 ^ 8), Nat.shiftLeft_eq]

/-- The number that is stored for a device: of the minor number only 16 bits are kept. -/
theorem Mapping.toNat_device (m : Mapping) (hasSmaps : Bool) (memory : MapEntry) :
    (m.entry hasSmaps memory).device.toNat =
      m.region.deviceNumber.1 * 256 + m.region.deviceNumber.2 := by
  have he : (m.entry hasSmaps memory).device =
      (m.region.found.devMajor.setWidth 64 <<< 8) ||| m.region.found.devMinor.setWidth 64 := by
    cases hasSmaps <;> rfl
  have hmajor : m.region.found.devMajor.toNat = m.region.device.1 := by
    have hlt := m.region.devMajor_lt
    have hv : m.region.devMajor.value.toNat = digitsValue 16 m.region.devMajor.digits :=
      Region.toNat_clampUnsigned_of_lt (by omega)
    change (m.region.devMajor.value.setWidth 16).toNat = digitsValue 16 m.region.devMajor.digits
    rw [BitVec.toNat_setWidth, hv, Nat.mod_eq_of_lt (by omega)]
  have hminor : m.region.found.devMinor.toNat = m.region.device.2 % 2 ^ 16 := by
    have hlt := m.region.devMinor_lt
    have hv : m.region.devMinor.value.toNat = digitsValue 16 m.region.devMinor.digits :=
      Region.toNat_clampUnsigned_of_lt (by omega)
    change (m.region.devMinor.value.setWidth 16).toNat =
      digitsValue 16 m.region.devMinor.digits % 2 ^ 16
    rw [BitVec.toNat_setWidth, hv]
  have hlt : m.region.device.1 < 2 ^ 12 := m.region.devMajor_lt
  rw [he, BitVec.toNat_or, BitVec.toNat_shiftLeft, BitVec.toNat_setWidth, BitVec.toNat_setWidth,
    hmajor, hminor, Nat.mod_eq_of_lt (by omega : m.region.device.1 < 2 ^ 64),
    Nat.mod_eq_of_lt (by omega : m.region.device.2 % 2 ^ 16 < 2 ^ 64),
    Nat.mod_eq_of_lt (by rw [Nat.shiftLeft_eq]; omega), shiftLeft_or_mod]
  rfl

/-- Whether two entries name the same device is decided by their numbers. -/
theorem devicesIdentify_iff_numbers (osVersionCode : Nat) (memory : Nat → MapEntry)
    {ms : List Mapping} {k k' : Nat} {m m' : Mapping} (hk : ms[k]? = some m)
    (hk' : ms[k']? = some m') :
    DevicesIdentify osVersionCode memory ms k k' ↔
      (m.region.deviceNumber = m'.region.deviceNumber ↔ m.region.device = m'.region.device) := by
  have heq : ∀ (hasSmaps : Bool) (memory memory' : MapEntry),
      (m.entry hasSmaps memory).device = (m'.entry hasSmaps memory').device ↔
        m.region.deviceNumber = m'.region.deviceNumber := by
    intro hasSmaps memory memory'
    have hlow : m.region.deviceNumber.2 < 256 := Nat.mod_lt _ (by decide)
    have hlow' : m'.region.deviceNumber.2 < 256 := Nat.mod_lt _ (by decide)
    rw [← BitVec.toNat_inj, m.toNat_device, m'.toNat_device, Prod.ext_iff]
    constructor
    · intro h
      exact ⟨by omega, by omega⟩
    · rintro ⟨h₁, h₂⟩
      rw [h₁, h₂]
  have he : ∀ {k : Nat} {m : Mapping}, ms[k]? = some m → (ms.mapIdx fun k m ↦
      m.entry (decide (linuxVersionCode 2 6 14 ≤ osVersionCode)) (memory k))[k]? =
        some (m.entry (decide (linuxVersionCode 2 6 14 ≤ osVersionCode)) (memory k)) := by
    intro k m hk
    rw [List.getElem?_mapIdx, hk, Option.map_some]
  constructor
  · rintro ⟨m₁, m₁', buf, entries, e, e', hm, hm', hget, hentry, hentry', hiff⟩
    obtain rfl := Option.some.inj (hk.symm.trans hm)
    obtain rfl := Option.some.inj (hk'.symm.trans hm')
    rw [glibtopGetProcMapS_mappings] at hget
    obtain rfl := Option.some.inj (Prod.mk.inj hget).2
    obtain rfl := Option.some.inj ((he hk).symm.trans hentry)
    obtain rfl := Option.some.inj ((he hk').symm.trans hentry')
    rw [← hiff, heq]
  · intro hiff
    exact ⟨m, m', _, _, _, _, hk, hk', glibtopGetProcMapS_mappings osVersionCode memory ms, he hk,
      he hk', (heq _ _ _).trans hiff⟩

/-- Device numbers identify the devices of two entries exactly when these are told apart by the low
eight bits of the minor numbers or by what is stored above them. -/
theorem device_identity_iff (osVersionCode : Nat) (memory : Nat → MapEntry) {ms : List Mapping}
    {k k' : Nat} {m m' : Mapping} (hk : ms[k]? = some m) (hk' : ms[k']? = some m') :
    DevicesIdentify osVersionCode memory ms k k' ↔ DevicesApart m.region m'.region := by
  rw [devicesIdentify_iff_numbers osVersionCode memory hk hk', DevicesApart]
  have hd : m.region.deviceNumber = m'.region.deviceNumber ↔
      m.region.device.1 ||| m.region.device.2 / 256 % 256 =
        m'.region.device.1 ||| m'.region.device.2 / 256 % 256 ∧
      m.region.device.2 % 256 = m'.region.device.2 % 256 := Prod.ext_iff
  have hsame : m.region.device = m'.region.device →
      m.region.deviceNumber = m'.region.deviceNumber := by
    intro h
    rw [Region.deviceNumber, Region.deviceNumber, h]
  constructor
  · intro h
    by_cases hn : m.region.deviceNumber = m'.region.deviceNumber
    · exact .inl (h.mp hn)
    · rw [hd, not_and_or] at hn
      exact .inr hn.symm
  · rintro (h | h)
    · exact iff_of_true (hsame h) h
    · have hn : ¬m.region.deviceNumber = m'.region.deviceNumber := by
        rw [hd, not_and_or]
        exact h.symm
      exact iff_of_false hn fun he ↦ hn (hsame he)

/-- Two mappings of files on the devices 8:8 and 100:8. -/
theorem device_identity_iff_apart :
    DevicesIdentify (linuxVersionCode 6 1 0) (fun _ ↦ sampleMemory 7)
      [sampleMapping [56] [56] (by decide) (by decide),
        sampleMapping [49, 48, 48] [56] (by decide) (by decide)] 0 1 :=
  (device_identity_iff (linuxVersionCode 6 1 0) _ rfl rfl).mpr (.inr (.inr (by decide)))

/-- The devices 1:0 and 0:100 have the same number. -/
theorem devices_collide :
    ¬DevicesIdentify (linuxVersionCode 6 1 0) (fun _ ↦ sampleMemory 7)
      [sampleMapping [49] [48] (by decide) (by decide),
        sampleMapping [48] [49, 48, 48] (by decide) (by decide)] 0 1 := by
  rw [devicesIdentify_iff_numbers (linuxVersionCode 6 1 0) _ rfl rfl]
  intro h
  exact absurd (h.mp (by decide)) (by decide)

end LibGTop.Linux
