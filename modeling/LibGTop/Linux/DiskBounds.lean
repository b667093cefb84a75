import LibGTop.Linux.DiskSelection
import LibGTop.Linux.DiskTree

/-!
# The bounds of the disk tables

The indices that `find_primary_part`, `is_virtual_drive` and `glibtop_get_disk_s` use
on `primary_part` and on the arrays of `glibtop_disk`. None is negative; how large they
get is the number of the entries and of the turns.
-/

namespace LibGTop.Linux

open Base

/-- The indices that a run uses. -/
def DiskReading.indices (stack : DiskStack) (reading : DiskReading) : List Int :=
  reading.finder.indices ++
    reading.rows.flatMap (fun turn ↦
      virtualIndices reading.finder.names stack.name turn.checked) ++
    (List.range reading.rows.length).map fun i : Nat ↦ (i : Int)

/-- The indices are in the arrays. -/
def DiskReading.InRange (stack : DiskStack) (reading : DiskReading) : Prop :=
  ∀ i ∈ reading.indices stack, 0 ≤ i ∧ i < glibtopNdisk

/-- What the rows before one have come to: the level, the entries, and the type in the last one. -/
structure Progress where
  tlvl : Nat
  entries : Nat
  last : List UInt8

/-- The type of a row, which takes an entry of its own or that of the row before it. The entry holds
four bytes of the type, and behind them what was there at first. -/
def Progress.step (fields : Nat → List UInt8) (s : Progress) (type : List UInt8) : Progress :=
  let t := transition s.tlvl s.last type
  let entries := s.entries + (!t.back).toNat
  ⟨t.tlvl, entries, cString (copyType (fields (entries - 1)) type)⟩

/-- How many of the types do not overwrite the entry before them. -/
def newEntries (fields : Nat → List UInt8) (types : List (List UInt8)) : Nat :=
  (types.foldl (Progress.step fields) ⟨0, 0, []⟩).entries

/-- The types in the table at first. -/
def DiskStack.fields (stack : DiskStack) (k : Nat) : List UInt8 := (stack.primaryPart k).type

/-- The entry of a level that does not count: the leaf. -/
def leaves (tlvl : Nat) : Nat := if tlvl = 0 then 0 else 1

/-- Only above level 0 an entry is overwritten, and what counts more and the leaf are in the entries
that there were and the new one. -/
def Transition.Fits (tlvl : Nat) (t : Transition) : Prop :=
  (t.back = true → tlvl ≠ 0) ∧ t.counts.toNat + leaves t.tlvl ≤ leaves tlvl + (!t.back).toNat

instance (tlvl : Nat) (t : Transition) : Decidable (t.Fits tlvl) :=
  inferInstanceAs (Decidable (_ ∧ _))

theorem fits_transition (tlvl : Nat) (last type : List UInt8) :
    (transition tlvl last type).Fits tlvl := by
  unfold transition
  split
  · split_ifs
    · decide
    · decide
    · decide
  · split_ifs
    · decide
    · decide
    · decide
    · decide
  · split_ifs
    · decide
    · decide
    · decide
    · decide
    · decide
  · split_ifs
    · decide
    · decide
    · decide
    · decide
    · decide
  · exact ⟨fun h ↦ absurd h Bool.false_ne_true, by simp⟩

/-- The indices are those of the entries before `n`, and these are the ones that count and the
leaf. -/
structure Bounded (s : Finder) : Prop where
  max : (s.max + leaves s.tlvl : Nat) ≤ s.n
  indices : ∀ i ∈ s.indices, 0 ≤ i ∧ i < s.n
  last : 0 < s.n → s.n - 1 ∈ s.indices

theorem bounded_start (table : Int → PartitionInfo) : Bounded (.start table) where
  max := le_rfl
  indices := nofun
  last h := absurd h (lt_irrefl 0)

section

variable {s : Finder}

theorem Finder.step_n (s : Finder) (row : List UInt8 × List UInt8) :
    (s.step row).n = s.n + (!(transition s.tlvl s.last row.2).back).toNat := by
  cases hb : (transition s.tlvl s.last row.2).back with
  | false => simp [Finder.step, hb]
  | true => simp [Finder.step, hb]

theorem Finder.step_max (s : Finder) (row : List UInt8 × List UInt8) :
    (s.step row).max = s.max + (transition s.tlvl s.last row.2).counts.toNat := by
  cases hc : (transition s.tlvl s.last row.2).counts with
  | false => simp [Finder.step, hc]
  | true => simp [Finder.step, hc]

/-- The indices that a row uses are the ones before, that of the entry it looks at, and that of the
entry it is stored to. -/
theorem Finder.step_indices (s : Finder) (row : List UInt8 × List UInt8) :
    (s.step row).n - 1 ∈ (s.step row).indices ∧
      ∀ i ∈ (s.step row).indices,
        i ∈ s.indices ∨ s.tlvl = 2 ∧ i = s.n - 1 ∨ i = (s.step row).n - 1 := by
  simp only [Finder.step, Int.add_sub_cancel, List.mem_append, List.mem_singleton]
  refine ⟨.inr trivial, fun i hi ↦ ?_⟩
  obtain (hi | hi) | hi := hi
  · exact .inl hi
  · split at hi
    · next h2 => exact .inr (.inl ⟨h2.1, List.mem_singleton.mp hi⟩)
    · exact absurd hi List.not_mem_nil
  · exact .inr (.inr hi)

/-- A row keeps the bounds. -/
theorem Bounded.step (h : Bounded s) (row : List UInt8 × List UInt8) : Bounded (s.step row) := by
  obtain ⟨hb, hc⟩ := fits_transition s.tlvl s.last row.2
  obtain ⟨hlast, hi⟩ := s.step_indices row
  have hn := s.step_n row
  have hm := h.max
  have hleaf : s.tlvl ≠ 0 → 1 ≤ s.n := by
    intro h0
    rw [leaves, if_neg h0] at hm
    omega
  have hge : 1 ≤ (s.step row).n := by
    cases hback : (transition s.tlvl s.last row.2).back with
    | false =>
      rw [hback, Bool.not_false, Bool.toNat_true] at hn
      omega
    | true =>
      have h1 := hleaf (hb hback)
      omega
  refine ⟨?_, fun i hm ↦ ?_, fun _ ↦ hlast⟩
  · have ht : (s.step row).tlvl = (transition s.tlvl s.last row.2).tlvl := rfl
    rw [s.step_max, ht, hn]
    omega
  · obtain hm | ⟨h2, rfl⟩ | rfl := hi i hm
    · have hr := h.indices i hm
      omega
    · have h1 := hleaf (by omega)
      omega
    · omega

theorem Bounded.foldl (h : Bounded s) (rows : List (List UInt8 × List UInt8)) :
    Bounded (rows.foldl Finder.step s) := by
  induction rows generalizing s with
  | nil => exact h
  | cons row rows ih => exact ih (h.step row)

/-- The run has come to this, in a table of which the entries behind the last one, and in the last
one what is behind its type, are as they were at first. -/
structure Finder.At (stack : DiskStack) (s : Finder) (q : Progress) : Prop where
  tlvl : s.tlvl = q.tlvl
  n : s.n = q.entries
  last : q.tlvl ≠ 0 → s.last = q.last
  entries_pos : q.tlvl ≠ 0 → 0 < q.entries
  untouched : ∀ i : Nat, q.entries ≤ i → (s.table i).type = stack.fields i
  behind : ∀ k type, k + 1 = q.entries →
    copyType (s.table k).type type = copyType (stack.fields k) type

theorem copyType_copyType (field type type' : List UInt8) :
    copyType (copyType field type) type' = copyType field type' := by
  have hlength : ∀ type : List UInt8, ((type ++ zeros 4).take 4).length = 4 := by
    intro type
    rw [List.length_take, List.length_append, length_zeros]
    omega
  rw [copyType, copyType, copyType, overlay, overlay, overlay, hlength, hlength,
    List.drop_left' (hlength type)]

section

variable {stack : DiskStack} {q : Progress}

/-- The branches of the next row are those of the progress. -/
theorem Finder.At.transition_eq (h : s.At stack q) (type : List UInt8) :
    transition s.tlvl s.last type = transition q.tlvl q.last type := by
  rw [h.tlvl]
  by_cases h0 : q.tlvl = 0
  · rw [h0]
    rfl
  · rw [h.last h0]

/-- The entry that the next row is stored to, and what it is stored over. -/
theorem Finder.At.exists_entry (h : s.At stack q) (type : List UInt8) :
    ∃ k : Nat, k + 1 = q.entries + (!(transition q.tlvl q.last type).back).toNat ∧
      (if (transition q.tlvl q.last type).back then s.n - 1 else s.n) = k ∧
      copyType (s.table k).type type = copyType (stack.fields k) type := by
  cases hb : (transition q.tlvl q.last type).back with
  | false =>
    refine ⟨q.entries, rfl, h.n, ?_⟩
    rw [h.untouched q.entries (Nat.le_refl _)]
  | true =>
    have hpos := h.entries_pos ((fits_transition q.tlvl q.last type).1 hb)
    refine ⟨q.entries - 1, Nat.sub_add_cancel hpos, ?_, h.behind _ _ (Nat.sub_add_cancel hpos)⟩
    rw [if_pos rfl, h.n]
    omega

theorem Finder.At.step (h : s.At stack q) (row : List UInt8 × List UInt8) :
    (s.step row).At stack (q.step stack.fields row.2) := by
  obtain ⟨k, hk, hn, hcopy⟩ := h.exists_entry row.2
  have hstep : s.step row = { s with
      table := Function.update s.table k (storeRow (s.table k) row.1 row.2)
      n := k + 1
      tlvl := (transition q.tlvl q.last row.2).tlvl
      max := if (transition q.tlvl q.last row.2).counts then s.max + 1 else s.max
      indices := s.indices ++ (if s.tlvl = 2 ∧ !isDiskType row.2 then [s.n - 1] else []) ++
        [(k : Int)] } := by
    rw [Finder.step]
    simp only [h.transition_eq, hn]
  have hq : q.step stack.fields row.2 = ⟨(transition q.tlvl q.last row.2).tlvl, k + 1,
      cString (copyType (stack.fields k) row.2)⟩ := by
    rw [Progress.step]
    simp only [← hk, Nat.add_sub_cancel]
  rw [hstep, hq]
  refine ⟨rfl, rfl, fun _ ↦ ?_, fun _ ↦ Nat.succ_pos k, fun i hi ↦ ?_, fun i type hi ↦ ?_⟩
  · rw [Finder.last]
    simp only [Int.add_sub_cancel, Function.update_self, storeRow, hcopy]
  · have hi : k + 1 ≤ i := hi
    have hne : (i : Int) ≠ k := by omega
    simp only [Function.update_of_ne hne]
    exact h.untouched i (by omega)
  · obtain rfl : i = k := Nat.succ.inj hi
    simp only [Function.update_self, storeRow, hcopy, copyType_copyType]

theorem Finder.At.foldl (h : s.At stack q) (rows : List (List UInt8 × List UInt8)) :
    (rows.foldl Finder.step s).At stack
      ((rows.map Prod.snd).foldl (Progress.step stack.fields) q) := by
  induction rows generalizing s q with
  | nil => exact h
  | cons row rows ih => exact ih (h.step row)

end

end

/-- The entries that a listing makes, over what the table holds at first. -/
def DiskStack.entries (stack : DiskStack) (listing : List UInt8) : Nat :=
  newEntries stack.fields ((scanRows listing).map Prod.snd)

theorem mem_virtualIndices {names : List (List UInt8)} {name p : List UInt8} {i : Int}
    (h : i ∈ virtualIndices names name p) : 0 ≤ i ∧ i < names.length := by
  rw [virtualIndices] at h
  split at h
  · exact absurd h List.not_mem_nil
  · obtain ⟨k, hk, rfl⟩ := List.mem_map.mp h
    have hr := List.mem_range.mp hk
    omega

/-- A disk without partitions. -/
private def aDisk : DiskTree where
  row := ⟨sdaRow, rfl⟩
  parts := []

section

variable (stack : DiskStack) (buffer listing : List UInt8)

theorem bounded_readDisks : Bounded (readDisks stack buffer listing).finder ∧
    (readDisks stack buffer listing).finder.n =
      stack.entries listing := by
  have hstart : (Finder.start stack.primaryPart).At stack ⟨0, 0, []⟩ :=
    ⟨rfl, rfl, fun h ↦ absurd rfl h, fun h ↦ absurd rfl h, fun _ _ ↦ rfl, nofun⟩
  exact ⟨(bounded_start stack.primaryPart).foldl (scanRows listing),
    (hstart.foldl (scanRows listing)).n⟩

/-- The indices are those of the entries that are filled and of the turns. -/
theorem mem_indices {i : Int}
    (h : i ∈ (readDisks stack buffer listing).indices stack) :
    0 ≤ i ∧ (i < stack.entries listing ∨
      i < (readDisks stack buffer listing).rows.length) := by
  obtain ⟨hb, hn⟩ := bounded_readDisks stack buffer listing
  rw [← hn]
  obtain h | h := List.mem_append.mp h
  · obtain h | h := List.mem_append.mp h
    · have hr := hb.indices i h
      exact ⟨hr.1, .inl hr.2⟩
    · obtain ⟨turn, -, h⟩ := List.mem_flatMap.mp h
      have hr := mem_virtualIndices h
      have hl : (readDisks stack buffer listing).finder.names.length =
          (readDisks stack buffer listing).finder.max := by
        rw [Finder.names, List.length_map, List.length_range]
      have hm := hb.max
      exact ⟨hr.1, .inl (by omega)⟩
  · obtain ⟨k, hk, rfl⟩ := List.mem_map.mp h
    have hr := List.mem_range.mp hk
    exact ⟨by omega, .inr (by omega)⟩

theorem inRange_iff :
    (readDisks stack buffer listing).InRange stack ↔
      stack.entries listing ≤ glibtopNdisk ∧
        (readDisks stack buffer listing).rows.length ≤ glibtopNdisk := by
  obtain ⟨hb, hn⟩ := bounded_readDisks stack buffer listing
  constructor
  · intro h
    constructor
    · by_contra hgt
      have hl := hb.last (by omega)
      have hr := h _ (List.mem_append_left _ (List.mem_append_left _ hl))
      omega
    · by_contra hgt
      have hk : glibtopNdisk ∈ List.range (readDisks stack buffer listing).rows.length :=
        List.mem_range.mpr (by omega)
      have hm : (glibtopNdisk : Int) ∈ (List.range
          (readDisks stack buffer listing).rows.length).map fun i : Nat ↦ (i : Int) :=
        List.mem_map.mpr ⟨glibtopNdisk, hk, rfl⟩
      have hr := h _ (List.mem_append_right _ hm)
      omega
  · rintro ⟨he, ht⟩ i hi
    have hr := mem_indices stack buffer listing hi
    omega

/-- The loop makes no more turns than there are lines. -/
theorem length_diskRows_le (names : List (List UInt8)) (name p : List UInt8) (i ndisk : Nat) :
    (diskRows names name p i ndisk).1.length ≤ ndisk - i := by
  fun_induction diskRows names name p i ndisk with
  | case1 p i ndisk h turn rest ih =>
    have hs : (if turn.passes then ndisk - 1 else ndisk) ≤ ndisk := by
      split
      · omega
      · omega
    have hr : rest.1.length ≤ (if turn.passes then ndisk - 1 else ndisk) - (i + 1) := ih
    rw [List.length_cons]
    omega
  | case2 p i ndisk h => exact Nat.zero_le _

/-- No index is negative. For the lines of `/proc/diskstats` the indices are in the arrays exactly
when no more rows of the listing than there are entries do not overwrite the entry before them, and
no more lines than there are elements are not behind a line that is passed over. For any text at all
it is enough that it has no more lines. -/
theorem disk_indices_iff (stack : DiskStack) (listing : List UInt8) :
    (∀ buffer, ∀ i ∈ (readDisks stack buffer listing).indices stack, 0 ≤ i) ∧
    (∀ lines,
      (readDisks stack ((diskstats lines).take (statBufsiz - 1)) listing).InRange stack ↔
        stack.entries listing ≤ glibtopNdisk ∧
          turnStarts (findPrimaryPart stack.primaryPart listing).names false (statBufsiz - 1)
            lines ≤ glibtopNdisk) ∧
    ∀ buffer, stack.entries listing ≤ glibtopNdisk →
      maxLines buffer ≤ glibtopNdisk → (readDisks stack buffer listing).InRange stack := by
  refine ⟨fun buffer i hi ↦ (mem_indices stack buffer listing hi).1, fun lines ↦ ?_,
    fun buffer he hl ↦ ?_⟩
  · rw [inRange_iff, (gives_readDisks rfl).2.1]
    rfl
  · have hr := length_diskRows_le (findPrimaryPart stack.primaryPart listing).names stack.name
      buffer 0 (maxLines buffer)
    exact (inRange_iff stack buffer listing).mpr ⟨he, hr.trans (by omega)⟩

end

/-- Of a listing with more disks than there are entries one is stored behind them. -/
theorem many_disks_out_of_range :
    ¬∀ (stack : DiskStack) (lines : List DiskLine) (rows : List ListingRow),
      (readDisks stack ((diskstats lines).take (statBufsiz - 1)) (lsblk rows)).InRange stack := by
  intro h
  have hforest : ∀ count, (List.replicate count aDisk).flatMap DiskTree.primary =
      List.replicate count aDisk.row.val := by
    intro count
    induction count with
    | zero => rfl
    | succ count ih =>
      rw [List.replicate_succ, List.flatMap_cons, ih]
      rfl
  have hs : Ready (.start clearedTable) [] := .disk (written_start fun _ ↦ isShort_zeros)
  have hr := (hs.walk_forest (List.replicate 1025 aDisk)).length_le
  rw [hforest, List.nil_append, List.length_replicate] at hr
  have hi := ((inRange_iff _ _ _).mp (h clearedStack []
    ((List.replicate 1025 aDisk).flatMap DiskTree.rows))).1
  have hn := (bounded_readDisks clearedStack []
    (lsblk ((List.replicate 1025 aDisk).flatMap DiskTree.rows))).2
  have hw : (readDisks clearedStack [] (lsblk ((List.replicate 1025 aDisk).flatMap
      DiskTree.rows))).finder =
        walk (.start clearedTable) ((List.replicate 1025 aDisk).flatMap DiskTree.rows) :=
    findPrimaryPart_lsblk clearedTable _
  rw [hw] at hn
  have h1024 : glibtopNdisk = 1024 := rfl
  omega

end LibGTop.Linux
