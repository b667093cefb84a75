import LibGTop.Base.Storage
import LibGTop.Linux.ProcMap

/-!
# The array of the memory map

The entries of `glibtop_get_proc_map_s` in the storage of the array they are
written to (`sysdeps/linux/procmap.c:190–317`): the capacity starts at 100 and is
doubled when it is used up. What `g_array_set_size` makes of the storage is an
argument. The entries are those of the list of the memory map.
-/

namespace LibGTop.Linux

open Base

/-- The loop over the lines, with the entries in their storage; absent when an entry would be
written behind it. -/
def fillEntries (setSize : List MapEntry → Nat → List MapEntry) (hasSmaps : Bool)
    (list : Filling MapEntry) : List (List UInt8) → Option (Filling MapEntry)
  | [] => some list
  | line :: ls =>
    match parseLine (cString line) with
    | none => fillEntries setSize hasSmaps list ls
    | some header =>
      let list := list.reserve setSize
      match list.storage[list.added]? with
      | none => none
      | some memory =>
        let entry := newEntry hasSmaps memory header
        if hasSmaps then
          fillEntries setSize hasSmaps (list.write (readValues entry ls).1) (readValues entry ls).2
        else fillEntries setSize hasSmaps (list.write entry) ls
termination_by ls => ls.length
decreasing_by
  · exact Nat.lt_succ_self _
  · exact Nat.lt_succ_of_le (length_readValues_le _ _)
  · exact Nat.lt_succ_self _

/-- `glibtop_get_proc_map_s` with its array; `reserved` is what `g_array_sized_new` allocates. -/
def fillProcMap (osVersionCode : Nat) (setSize : List MapEntry → Nat → List MapEntry)
    (reserved : List MapEntry) (smaps maps : Option (List UInt8)) :
    Option (ProcMap × Option (List MapEntry)) :=
  let hasSmaps := decide (linuxVersionCode 2 6 14 ≤ osVersionCode)
  match if hasSmaps then smaps else maps with
  | none => some ({}, none)
  | some content =>
    (fillEntries setSize hasSmaps ⟨100, reserved, 0⟩ (lines content)).map fun list ↦
      let number := BitVec.ofNat 64 list.added
      ({ flags := sysdepsProcMap, number := number, size := mapEntrySize,
         total := number * mapEntrySize },
        some ((setSize list.storage list.added).take list.added))

/-- Only the memory from the next entry on matters. -/
theorem mapEntries_congr {hasSmaps : Bool} {memory memory' : Nat → MapEntry} {added : Nat}
    (ls : List (List UInt8)) (h : ∀ k, added ≤ k → memory k = memory' k) :
    mapEntries hasSmaps memory added ls = mapEntries hasSmaps memory' added ls := by
  induction hl : ls.length using Nat.strongRecOn generalizing added ls with
  | ind length ih =>
    cases ls with
    | nil => rw [mapEntries, mapEntries]
    | cons line ls =>
      rw [mapEntries, mapEntries]
      have hlen : ls.length < length := hl ▸ Nat.lt_succ_self _
      cases parseLine (cString line) with
      | none => exact ih ls.length hlen ls h rfl
      | some header =>
        have hnext : ∀ k, added + 1 ≤ k → memory k = memory' k := fun k hk ↦ h k (by omega)
        have hrest := length_readValues_le (newEntry hasSmaps (memory' added) header) ls
        simp only [h added (Nat.le_refl _)]
        rw [ih ls.length hlen ls hnext rfl, ih _ (by omega) _ hnext rfl]

/-- The entries behind the next one do not depend on the memory of the next one. -/
theorem mapEntries_update {hasSmaps : Bool} (memory : Nat → MapEntry) (added : Nat)
    (entry : MapEntry) (ls : List (List UInt8)) :
    mapEntries hasSmaps (Function.update memory added entry) (added + 1) ls =
      mapEntries hasSmaps memory (added + 1) ls := by
  refine mapEntries_congr ls fun k hk ↦ ?_
  rw [Function.update_of_ne (by omega)]

/-- The storage holds what was there before and the entries of the lines behind it. -/
theorem fillEntries_refines {setSize : List MapEntry → Nat → List MapEntry} (h : Resizes setSize)
    (hasSmaps : Bool) (ls : List (List UInt8)) {list : Filling MapEntry} (hv : list.Valid) :
    ∃ (memory : Nat → MapEntry) (list' : Filling MapEntry),
      fillEntries setSize hasSmaps list ls = some list' ∧ list'.Valid ∧
      list'.contents = list.contents ++ mapEntries hasSmaps memory list.added ls := by
  induction hl : ls.length using Nat.strongRecOn generalizing list ls with
  | ind length ih =>
    cases ls with
    | nil =>
      refine ⟨fun _ ↦ ⟨0, 0, 0, 0, 0, 0, 0, [], fun _ ↦ 0⟩, list, by rw [fillEntries], hv, ?_⟩
      rw [mapEntries, List.append_nil]
    | cons line ls =>
      have hlen : ls.length < length := hl ▸ Nat.lt_succ_self _
      rw [fillEntries]
      cases hp : parseLine (cString line) with
      | none =>
        obtain ⟨memory, list', hf, hv', hc⟩ := ih ls.length hlen ls hv rfl
        refine ⟨memory, list', hf, hv', ?_⟩
        rw [hc, mapEntries, hp]
      | some header =>
        obtain ⟨memory₀, hm⟩ := hv.exists_next h
        -- the entry is written in place, and the lines behind it are read into storage as valid
        have hnext : ∀ (entry : MapEntry) (rest : List (List UInt8)), rest.length < length →
            ∃ (memory : Nat → MapEntry) (list' : Filling MapEntry), memory list.added = memory₀ ∧
              fillEntries setSize hasSmaps ((list.reserve setSize).write entry) rest = some list' ∧
              list'.Valid ∧ list'.contents = list.contents ++ entry ::
                mapEntries hasSmaps memory (list.added + 1) rest := by
          intro entry rest hrest
          obtain ⟨memory, list', hf, hv', hc⟩ := ih rest.length hrest rest (hv.next h entry) rfl
          refine ⟨Function.update memory list.added memory₀, list', Function.update_self _ _ _, hf,
            hv', ?_⟩
          rw [hc, Filling.contents_next h hv, Filling.added_next, mapEntries_update,
            List.append_assoc, List.singleton_append]
        simp only [Filling.added_reserve, hm]
        cases hasSmaps with
        | true =>
          have hle := length_readValues_le (newEntry true memory₀ header) ls
          obtain ⟨memory, list', hmem, hf, hv', hc⟩ :=
            hnext (readValues (newEntry true memory₀ header) ls).1 _ (Nat.lt_of_le_of_lt hle hlen)
          refine ⟨memory, list', hf, hv', ?_⟩
          rw [hc, mapEntries, hp]
          simp only [hmem, if_true]
        | false =>
          obtain ⟨memory, list', hmem, hf, hv', hc⟩ :=
            hnext (newEntry false memory₀ header) ls hlen
          refine ⟨memory, list', hf, hv', ?_⟩
          rw [hc, mapEntries, hp]
          simp only [hmem, Bool.false_eq_true, if_false]

/-- The array holds the entries of the memory map, whatever the memory holds at first. -/
theorem fillProcMap_refines {setSize : List MapEntry → Nat → List MapEntry} (h : Resizes setSize)
    {reserved : List MapEntry} (hr : 100 ≤ reserved.length) (osVersionCode : Nat)
    (smaps maps : Option (List UInt8)) :
    ∃ memory, fillProcMap osVersionCode setSize reserved smaps maps =
      some (glibtopGetProcMapS osVersionCode memory smaps maps) := by
  have hv : (⟨100, reserved, 0⟩ : Filling MapEntry).Valid := ⟨Nat.succ_pos 99, hr, Nat.zero_le _⟩
  unfold fillProcMap glibtopGetProcMapS
  cases hc : if decide (linuxVersionCode 2 6 14 ≤ osVersionCode) = true then smaps else maps with
  | none => exact ⟨fun _ ↦ ⟨0, 0, 0, 0, 0, 0, 0, [], fun _ ↦ 0⟩, by simp only [hc]⟩
  | some content =>
    obtain ⟨memory, list', hf, hv', hcontents⟩ := fillEntries_refines h
      (decide (linuxVersionCode 2 6 14 ≤ osVersionCode)) (lines content) hv
    have he : list'.storage.take list'.added =
        mapEntries (decide (linuxVersionCode 2 6 14 ≤ osVersionCode)) memory 0 (lines content) :=
      hcontents
    have hle : list'.added ≤ list'.storage.length := Nat.le_trans hv'.added_le hv'.capacity_le
    have hlen : list'.added = (mapEntries (decide (linuxVersionCode 2 6 14 ≤ osVersionCode)) memory 0
        (lines content)).length := by
      rw [← he, List.length_take, Nat.min_eq_left hle]
    refine ⟨memory, ?_⟩
    simp only [hc, hf, Option.map_some, h.take_eq _ _ _ (Nat.le_refl _) hle, he, ← hlen]

end LibGTop.Linux
