import LibGTop.Linux.ProcMap
import LibGTop.Linux.Readers
import LibGTop.Solaris.ProcList

/-!
# The map of a process on Solaris

`glibtop_get_proc_map_s` (`sysdeps/solaris/procmap.c:54–201`), and which of the fields that it fills
in are in the flags of their entry.
-/

namespace LibGTop.Solaris

open Base
open Linux (flagBits hasFlag ProcMap)

/-- The bits of `pr_mflags`. -/
structure Mflags where
  read : Bool
  write : Bool
  exec : Bool
  shared : Bool
  anon : Bool
  deriving DecidableEq

/-- `prxmap_t`, or `prmap_t` in the releases before 5.6, which has no device and no inode. -/
structure Prmap where
  vaddr : BitVec 64
  size : BitVec 64
  offset : BitVec 64
  mflags : Mflags
  dev : BitVec 64
  ino : BitVec 64
  deriving DecidableEq

/-- The fields of `glibtop_map_entry` that are set. -/
structure MapEntry where
  flags : BitVec 64 := 0
  start : BitVec 64 := 0
  stop : BitVec 64 := 0
  offset : BitVec 64 := 0
  perm : BitVec 64 := 0
  inode : BitVec 64 := 0
  device : BitVec 64 := 0
  size : BitVec 64 := 0
  filename : List UInt8 := []

/-- `_glibtop_sysdeps_proc_map`. -/
def sysdepsProcMap : BitVec 64 := flagBits [0, 1, 2]

/-- `_glibtop_sysdeps_map_entry`: `START`, `END`, `OFFSET` and `PERM`. -/
def sysdepsMapEntry : BitVec 64 := flagBits [0, 1, 2, 3]

/-- `_glibtop_sysdeps_map_device`: `DEVICE` and `INODE`. -/
def sysdepsMapDevice : BitVec 64 := flagBits [5, 4]

/-- The system: whether its release is at least 5.6, whether the process can be grabbed for its
names, and the path that is resolved for a map, of length 0 where there is none. -/
structure MapSystem where
  release56 : Bool
  grabbed : Bool
  path : Nat → List UInt8

/-- The permissions of a map. -/
def Mflags.perm (flags : Mflags) : BitVec 64 :=
  (if flags.read then 1 else 0) ||| (if flags.write then 2 else 0) |||
    (if flags.exec then 4 else 0) ||| (if flags.shared then 8 else 16)

/-- The fields that do not depend on names, `sysdeps/solaris/procmap.c:139–166`. -/
def fillEntry (system : MapSystem) (map : Prmap) (entry : MapEntry) : MapEntry :=
  let entry := { entry with
    start := map.vaddr
    stop := map.vaddr + map.size }
  let entry :=
    if system.release56 ∧ map.dev ≠ prnodev then
      { entry with
        device := map.dev
        inode := map.ino
        flags := entry.flags ||| sysdepsMapDevice }
    else entry
  { entry with
    offset := map.offset
    perm := entry.perm ||| map.mflags.perm
    size := if map.mflags.write then map.size else entry.size
    flags := sysdepsMapEntry }

/-- The name, `sysdeps/solaris/procmap.c:168–192`, with `heap`, which says whether an anonymous map
has been seen. -/
def nameEntry (system : MapSystem) (last : Bool) (i : Nat) (heap : Bool) (map : Prmap)
    (entry : MapEntry) : MapEntry × Bool :=
  if system.release56 = false then (entry, heap)
  else if map.mflags.anon then
    let filename :=
      if heap = false then asciiBytes "[ heap ]".toList
      else if last then asciiBytes "[ stack ]".toList
      else asciiBytes "[ anon ]".toList
    ({ entry with
        filename
        flags := entry.flags ||| flagBits [6] }, true)
  else if system.grabbed ∧ 0 < (system.path i).length then
    ({ entry with
        filename := system.path i
        flags := entry.flags ||| flagBits [6] }, heap)
  else (entry, heap)

/-- The loop over the maps from one of them on. -/
def mapLoop (system : MapSystem) (nmaps : Nat) (i : Nat) (heap : Bool) :
    List Prmap → List MapEntry
  | [] => []
  | map :: maps =>
    let (entry, heap) := nameEntry system (i = nmaps - 1) i heap map (fillEntry system map {})
    entry :: mapLoop system nmaps (i + 1) heap maps

/-- `glibtop_get_proc_map_s`, `sysdeps/solaris/procmap.c:54–201`, by the maps that are read. -/
def glibtopGetProcMapS (entrySize : BitVec 64) (system : MapSystem) (maps : Option (List Prmap)) :
    ProcMap × Option (List MapEntry) :=
  match maps with
  | none => ({}, none)
  | some maps =>
    ({ number := BitVec.ofNat 64 maps.length
       size := entrySize
       total := BitVec.ofNat 64 maps.length * entrySize
       flags := sysdepsProcMap },
      some (mapLoop system maps.length 0 false maps))

/-- The flags of an entry have the fields that are filled in from its map, and no others. -/
structure Announced (system : MapSystem) (map : Prmap) (entry : MapEntry) : Prop where
  always : ∀ bit ∈ [0, 1, 2, 3], hasFlag entry.flags bit = true
  inode : hasFlag entry.flags 4 = true ↔ system.release56 = true ∧ map.dev ≠ prnodev
  device : hasFlag entry.flags 5 = true ↔ system.release56 = true ∧ map.dev ≠ prnodev
  filename : hasFlag entry.flags 6 = true ↔ entry.filename ≠ []
  size : hasFlag entry.flags 7 = true ↔ map.mflags.write = true
  others : ∀ bit, 7 < bit → hasFlag entry.flags bit = false

section

variable {system : MapSystem} {map : Prmap}

/-- Before the names are given an entry has the flags of every entry. -/
theorem fillEntry_flags : (fillEntry system map {}).flags = sysdepsMapEntry ∧
    (fillEntry system map {}).filename = [] := by
  unfold fillEntry
  dsimp only
  split <;> exact ⟨rfl, rfl⟩

/-- With a name it has the flag of the name. -/
theorem nameEntry_flags (last : Bool) (i : Nat) (heap : Bool) {entry : MapEntry}
    (h : entry.flags = sysdepsMapEntry ∧ entry.filename = []) :
    ((nameEntry system last i heap map entry).1.flags = sysdepsMapEntry ∧
        (nameEntry system last i heap map entry).1.filename = []) ∨
      ((nameEntry system last i heap map entry).1.flags = sysdepsMapEntry ||| flagBits [6] ∧
        (nameEntry system last i heap map entry).1.filename ≠ []) := by
  unfold nameEntry
  split
  · exact .inl h
  · split
    · refine .inr ⟨congrArg (· ||| flagBits [6]) h.1, ?_⟩
      show (if heap = false then asciiBytes "[ heap ]".toList
        else if last then asciiBytes "[ stack ]".toList
        else asciiBytes "[ anon ]".toList) ≠ []
      split
      · decide
      · split <;> decide
    · split
      · next hp => exact .inr ⟨congrArg (· ||| flagBits [6]) h.1, List.ne_nil_of_length_pos hp.2⟩
      · exact .inl h

theorem hasFlag_small {flags : BitVec 64} (h : flags.toNat < 2 ^ 8) {bit : Nat} (hb : 7 < bit) :
    hasFlag flags bit = false := by
  rw [hasFlag, BitVec.getLsbD]
  exact Nat.testBit_lt_two_pow (Nat.lt_of_lt_of_le h (Nat.pow_le_pow_right (by decide) hb))

/-- Flags without those of the device, the inode and the size announce a map that has none. -/
theorem announced_iff {entry : MapEntry}
    (h : (entry.flags = sysdepsMapEntry ∧ entry.filename = []) ∨
      (entry.flags = sysdepsMapEntry ||| flagBits [6] ∧ entry.filename ≠ [])) :
    Announced system map entry ↔
      (system.release56 = true → map.dev = prnodev) ∧ map.mflags.write = false := by
  have hflags : (∀ bit ∈ [0, 1, 2, 3], hasFlag entry.flags bit = true) ∧
      (∀ bit ∈ [4, 5, 7], hasFlag entry.flags bit = false) ∧
      (hasFlag entry.flags 6 = true ↔ entry.filename ≠ []) ∧ entry.flags.toNat < 2 ^ 8 := by
    obtain ⟨hf, hn⟩ | ⟨hf, hn⟩ := h
    · rw [hf, hn]
      exact ⟨by decide, by decide, by decide, by decide⟩
    · rw [hf]
      exact ⟨by decide, by decide, iff_of_true (by decide) hn, by decide⟩
  obtain ⟨halways, hnone, hname, hsmall⟩ := hflags
  obtain ⟨hinode, hdevice, hsize⟩ : hasFlag entry.flags 4 = false ∧
      hasFlag entry.flags 5 = false ∧ hasFlag entry.flags 7 = false := by simpa using hnone
  have hdev : (false = true ↔ system.release56 = true ∧ map.dev ≠ prnodev) ↔
      (system.release56 = true → map.dev = prnodev) := by simp
  have hwrite : (false = true ↔ map.mflags.write = true) ↔ map.mflags.write = false := by simp
  constructor
  · intro ha
    have hd := ha.device
    have hs := ha.size
    rw [hdevice] at hd
    rw [hsize] at hs
    exact ⟨hdev.mp hd, hwrite.mp hs⟩
  · rintro ⟨hd, hw⟩
    exact {
      always := halways
      inode := hinode ▸ hdev.mpr hd
      device := hdevice ▸ hdev.mpr hd
      filename := hname
      size := hsize ▸ hwrite.mpr hw
      others := fun bit hb ↦ hasFlag_small hsmall hb }

theorem announced_mapLoop_iff (nmaps i : Nat) (heap : Bool) (maps : List Prmap) :
    List.Forall₂ (Announced system) maps (mapLoop system nmaps i heap maps) ↔
      ∀ map ∈ maps, (system.release56 = true → map.dev = prnodev) ∧ map.mflags.write = false := by
  induction maps generalizing i heap with
  | nil => exact iff_of_true .nil (List.forall_mem_nil _)
  | cons map maps ih =>
    have hfill : (fillEntry system map {}).flags = sysdepsMapEntry ∧
        (fillEntry system map {}).filename = [] := fillEntry_flags
    rw [mapLoop, List.forall₂_cons, List.forall_mem_cons, ih,
      announced_iff (nameEntry_flags (decide (i = nmaps - 1)) i heap hfill)]

end

/-- The flags announce what is filled in exactly when no map has a device and none is writable. -/
theorem proc_map_announced_iff (entrySize : BitVec 64) (system : MapSystem) (maps : List Prmap) :
    (∃ entries, (glibtopGetProcMapS entrySize system (some maps)).2 = some entries ∧
        List.Forall₂ (Announced system) maps entries) ↔
      ∀ map ∈ maps, (system.release56 = true → map.dev = prnodev) ∧ map.mflags.write = false := by
  rw [← announced_mapLoop_iff maps.length 0 false]
  constructor
  · rintro ⟨entries, he, ha⟩
    obtain rfl := Option.some.inj he
    exact ha
  · exact fun ha ↦ ⟨_, rfl, ha⟩

/-- A map of a file, and one without a file that may be written. -/
def textMap : Prmap := ⟨0x10000, 0x2000, 0, ⟨true, false, true, false, false⟩, 5, 7⟩

@[inherit_doc textMap] def dataMap : Prmap :=
  ⟨0x20000, 0x1000, 0, ⟨true, true, false, false, true⟩, prnodev, 0⟩

/-- A system without names. -/
def namelessSystem : MapSystem := ⟨true, false, fun _ ↦ []⟩

/-- The device of the one and the size of the other are filled in and not announced. -/
theorem proc_map_unannounced :
    (mapLoop namelessSystem 2 0 false [textMap, dataMap]).map MapEntry.flags = [15, 79] ∧
      (mapLoop namelessSystem 2 0 false [textMap, dataMap]).map MapEntry.device = [5, 0] ∧
      (mapLoop namelessSystem 2 0 false [textMap, dataMap]).map MapEntry.size = [0, 0x1000] ∧
      ¬∃ entries, (glibtopGetProcMapS 344 namelessSystem (some [textMap, dataMap])).2 =
          some entries ∧
        List.Forall₂ (Announced namelessSystem) [textMap, dataMap] entries := by
  refine ⟨by decide, by decide, by decide, fun ⟨entries, he, h⟩ ↦ ?_⟩
  obtain rfl := Option.some.inj he
  have hfirst := (List.forall₂_cons.mp h).1.device
  exact absurd hfirst (by decide)

end LibGTop.Solaris
