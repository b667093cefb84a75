import LibGTop.Linux.DiskListing

/-!
# The primary devices

What `find_primary_part` keeps of a listing that is the preorder of a forest: the
devices of level 0 and the inner nodes. A leaf is in the entry behind the ones that
count, and the next row is written over it or makes it count.
-/

namespace LibGTop.Linux

open Base

/-- The name and the type that an entry has when a row was stored to it. -/
def ListingRow.stored (row : ListingRow) : List UInt8 × List UInt8 := (row.name, row.type.take 4)

/-- The name and the type in an entry of the table. -/
def Finder.entry (s : Finder) (i : Int) : List UInt8 × List UInt8 :=
  ((s.table i).name, cString (s.table i).type)

/-- A type field that ends behind its first four bytes. -/
def IsShort (field : List UInt8) : Prop := ∃ head tail, head.length = 4 ∧ field = head ++ 0 :: tail

theorem isShort_zeros : IsShort (zeros 256) := ⟨zeros 4, zeros 251, rfl, rfl⟩

theorem length_take_four (type : List UInt8) :
    (type.take 4 ++ zeros (4 - type.length)).length = 4 := by
  rw [List.length_append, List.length_take, length_zeros]
  omega

/-- What is copied is in the first four bytes. -/
theorem copyType_append {head : List UInt8} (hl : head.length = 4) (tail type : List UInt8) :
    copyType (head ++ tail) type = type.take 4 ++ zeros (4 - type.length) ++ tail := by
  have ht : (type ++ zeros 4).take 4 = type.take 4 ++ zeros (4 - type.length) := by
    rw [List.take_append, zeros, zeros, List.take_replicate, Nat.min_eq_left (by omega)]
  rw [copyType, overlay, ht, length_take_four, List.drop_left' hl]

theorem isShort_copyType {field : List UInt8} (h : IsShort field) (type : List UInt8) :
    IsShort (copyType field type) := by
  obtain ⟨head, tail, hl, rfl⟩ := h
  exact ⟨_, tail, length_take_four type, copyType_append hl _ type⟩

/-- The type that is copied to a field has an end. -/
theorem cString_copyType {field type : List UInt8} (h : IsShort field) (hn : 0 ∉ type) :
    cString (copyType field type) = type.take 4 := by
  obtain ⟨head, tail, hl, rfl⟩ := h
  have ht : 0 ∉ type.take 4 := fun hm ↦ hn (List.mem_of_mem_take hm)
  rw [copyType_append hl, List.append_assoc]
  cases hk : 4 - type.length with
  | zero => exact cString_append_zero _ _ ht
  | succ k => exact cString_append_zero _ _ ht

/-- What the table has behind the rows that were scanned: these entries, of which a number counts.
-/
structure Written (s : Finder) (entries : List (List UInt8 × List UInt8)) (max level : Nat) :
    Prop where
  n : s.n = entries.length
  max : s.max = max
  tlvl : s.tlvl = level
  entry : ∀ i (h : i < entries.length), s.entry i = entries[i]
  short : ∀ i, IsShort (s.table i).type

theorem written_start {table : Int → PartitionInfo} (h : ∀ i, IsShort (table i).type) :
    Written (.start table) [] 0 0 :=
  ⟨rfl, rfl, rfl, nofun, h⟩

section

variable {s : Finder} {entries : List (List UInt8 × List UInt8)} {max level : Nat}

theorem Written.last {entry : List UInt8 × List UInt8}
    (h : Written s (entries ++ [entry]) max level) : s.last = entry.2 := by
  have hn : s.n - 1 = (entries.length : Nat) := by
    rw [h.n, List.length_append, List.length_singleton]
    omega
  have he := h.entry entries.length (by simp)
  rw [List.getElem_concat_length rfl] at he
  rw [Finder.last, hn]
  exact congrArg Prod.snd he

theorem ListingRow.notMem_type (row : ListingRow) : 0 ∉ row.type := fun h ↦
  (ne_of_isStringByte (row.isStringByte_type 0 h)).1 rfl

/-- A row that is stored behind the first entries. -/
theorem Written.store (h : Written s entries max level) (row : ListingRow) (count : Nat)
    (hc : count ≤ entries.length) {n : Int} (hn : n = count) (s' : Finder)
    (ht : s'.table = Function.update s.table n (storeRow (s.table n) row.name row.type))
    (hn' : s'.n = n + 1) :
    Written s' (entries.take count ++ [row.stored]) s'.max s'.tlvl := by
  have hl : (entries.take count).length = count := by
    rw [List.length_take]
    omega
  refine ⟨?_, rfl, rfl, fun i hi ↦ ?_, fun i ↦ ?_⟩
  · rw [hn', hn, List.length_append, hl]
    rfl
  · rw [List.length_append, hl, List.length_singleton] at hi
    by_cases he : i = count
    · subst he
      have hs : cString (copyType (s.table n).type row.type) = row.type.take 4 :=
        cString_copyType (h.short n) row.notMem_type
      rw [Finder.entry, ht, ← hn, Function.update_self, List.getElem_append_right (by omega)]
      simp [storeRow, hs, ListingRow.stored]
    · have hne : (i : Int) ≠ n := by omega
      rw [List.getElem_append_left (by omega), List.getElem_take, ← h.entry i (by omega),
        Finder.entry, ht, Function.update_of_ne hne]
      rfl
  · rw [ht]
    by_cases he : i = n
    · rw [he, Function.update_self]
      exact isShort_copyType (h.short n) row.type
    · rw [Function.update_of_ne he]
      exact h.short i

/-- A row behind the entries. -/
theorem Written.append (h : Written s entries max level) (row : ListingRow) {tlvl : Nat}
    {counts : Bool} (ht : transition level s.last row.type = ⟨false, tlvl, counts⟩) :
    Written (s.step row.strings) (entries ++ [row.stored]) (if counts then max + 1 else max)
      tlvl := by
  rw [← h.tlvl] at ht
  have hs := h.store row entries.length le_rfl h.n (s.step row.strings)
    (by simp [Finder.step, ListingRow.strings, ht]) (by simp [Finder.step, ListingRow.strings, ht])
  rw [List.take_length] at hs
  have hm : (s.step row.strings).max = if counts then max + 1 else max := by
    simp [Finder.step, ListingRow.strings, ht, h.max]
  have hl : (s.step row.strings).tlvl = tlvl := by
    simp [Finder.step, ListingRow.strings, ht]
  rw [hm, hl] at hs
  exact hs

/-- A row over the last of the entries. -/
theorem Written.replace {entry : List UInt8 × List UInt8}
    (h : Written s (entries ++ [entry]) max level) (row : ListingRow) {tlvl : Nat} {counts : Bool}
    (ht : transition level s.last row.type = ⟨true, tlvl, counts⟩) :
    Written (s.step row.strings) (entries ++ [row.stored]) (if counts then max + 1 else max)
      tlvl := by
  rw [← h.tlvl] at ht
  have hn : s.n - 1 = (entries.length : Nat) := by
    rw [h.n, List.length_append, List.length_singleton]
    omega
  have hs := h.store row entries.length (by simp) hn (s.step row.strings)
    (by simp [Finder.step, ListingRow.strings, ht]) (by simp [Finder.step, ListingRow.strings, ht])
  rw [List.take_left] at hs
  have hm : (s.step row.strings).max = if counts then max + 1 else max := by
    simp [Finder.step, ListingRow.strings, ht, h.max]
  have hl : (s.step row.strings).tlvl = tlvl := by
    simp [Finder.step, ListingRow.strings, ht]
  rw [hm, hl] at hs
  exact hs

end

/-- A row of each of the kinds. -/
abbrev DiskRow := { row : ListingRow // isDiskType row.type }

@[inherit_doc DiskRow] abbrev PartRow := { row : ListingRow // row.type = partType }

@[inherit_doc DiskRow] abbrev LvmRow := { row : ListingRow // row.type = lvmType }

@[inherit_doc DiskRow] abbrev RaidRow := { row : ListingRow // isRaidType row.type }

/-- A raid with the volumes on it. -/
structure RaidTree where
  row : RaidRow
  lvms : List LvmRow

/-- A partition with the volumes or the raids on it. -/
inductive PartTree where
  | withLvms (row : PartRow) (lvms : List LvmRow)
  | withRaids (row : PartRow) (raids : List RaidTree)

/-- A device of level 0 with its partitions. -/
structure DiskTree where
  row : DiskRow
  parts : List PartTree

/-- The rows of a tree in preorder. -/
def RaidTree.rows (tree : RaidTree) : List ListingRow := tree.row :: tree.lvms.map Subtype.val

@[inherit_doc RaidTree.rows]
def PartTree.rows : PartTree → List ListingRow
  | .withLvms row lvms => row :: lvms.map Subtype.val
  | .withRaids row raids => row :: raids.flatMap RaidTree.rows

@[inherit_doc RaidTree.rows]
def DiskTree.rows (tree : DiskTree) : List ListingRow := tree.row :: tree.parts.flatMap PartTree.rows

/-- The rows of a tree that have a child, in preorder. -/
def RaidTree.inner (tree : RaidTree) : List ListingRow :=
  if tree.lvms.isEmpty then [] else [tree.row.val]

@[inherit_doc RaidTree.inner]
def PartTree.inner : PartTree → List ListingRow
  | .withLvms row lvms => if lvms.isEmpty then [] else [row.val]
  | .withRaids row raids => (if raids.isEmpty then [] else [row.val]) ++ raids.flatMap RaidTree.inner

/-- The row of level 0 and the ones of the tree that have a child, in preorder. -/
def DiskTree.primary (tree : DiskTree) : List ListingRow :=
  tree.row :: tree.parts.flatMap PartTree.inner

/-- The state of the table behind a tree: these rows count, and behind them there may be a leaf, the
type of which goes with the level. -/
inductive Ready (s : Finder) (kept : List ListingRow) : Prop
  | disk (h : Written s (kept.map ListingRow.stored) kept.length 0)
  | leaf (entry : List UInt8 × List UInt8) (level : Nat)
      (h : Written s (kept.map ListingRow.stored ++ [entry]) kept.length level)
      (hl : level = 1 ∨ level = 2 ∧ (entry.2 = lvmType ∨ entry.2 = raidType) ∨ level = 3)

theorem transition_disk {level : Nat} (hl : level = 1 ∨ level = 2 ∨ level = 3)
    (last : List UInt8) {type : List UInt8} (h : isDiskType type) :
    transition level last type = ⟨true, 0, true⟩ := by
  obtain rfl | rfl | rfl := hl
  · simp [transition, h]
  · simp [transition, h]
  · simp [transition, h]

theorem transition_part {level : Nat} {last : List UInt8}
    (hl : level = 1 ∨ level = 2 ∧ (last = lvmType ∨ last = raidType) ∨ level = 3) :
    transition level last partType = ⟨true, 1, false⟩ := by
  obtain rfl | ⟨rfl, rfl | rfl⟩ | rfl := hl
  · simp only [transition]
    decide
  · decide
  · decide
  · simp only [transition]
    decide

/-- A type that starts with `raid` is none of the others. -/
theorem isRaidType_ne {type : List UInt8} (h : isRaidType type) :
    isDiskType type = false ∧ type ≠ partType ∧ type ≠ lvmType ∧ type.take 4 = raidType := by
  obtain ⟨suffix, rfl⟩ := List.isPrefixOf_iff_prefix.mp h
  have hr : raidType ++ suffix = 114 :: 97 :: 105 :: 100 :: suffix := rfl
  have hp : partType = 112 :: 97 :: 114 :: 116 :: [] := rfl
  have hv : lvmType = 108 :: 118 :: 109 :: [] := rfl
  have hd : isDiskType (114 :: 97 :: 105 :: 100 :: suffix) = false := by
    simp [isDiskType, asciiBytes]
  rw [hr]
  refine ⟨hd, ?_, ?_, rfl⟩
  · rw [hp]
    exact fun he ↦ absurd (List.cons.inj he).1 (by decide)
  · rw [hv]
    exact fun he ↦ absurd (List.cons.inj he).1 (by decide)

/-- The rows that follow a state. -/
def walk (s : Finder) (rows : List ListingRow) : Finder :=
  (rows.map ListingRow.strings).foldl Finder.step s

@[simp] theorem walk_nil (s : Finder) : walk s [] = s := rfl

@[simp] theorem walk_cons (s : Finder) (row : ListingRow) (rows : List ListingRow) :
    walk s (row :: rows) = walk (s.step row.strings) rows := rfl

theorem walk_append (s : Finder) (rows more : List ListingRow) :
    walk s (rows ++ more) = walk (walk s rows) more := by
  rw [walk, List.map_append, List.foldl_append, walk, walk]

section

variable {s : Finder} {kept : List ListingRow}

/-- A device of level 0 counts, and the leaf before it does not. -/
theorem Ready.step_disk (h : Ready s kept) (row : DiskRow) :
    Written (s.step row.val.strings) ((kept ++ [row.val]).map ListingRow.stored)
      (kept ++ [row.val]).length 0 := by
  rw [List.map_append, List.length_append]
  cases h with
  | disk h =>
    have ht : transition 0 s.last row.val.type = ⟨false, 0, true⟩ := by
      simp [transition, row.property]
    exact h.append row.val ht
  | leaf entry level h hl =>
    have hl : level = 1 ∨ level = 2 ∨ level = 3 := hl.imp_right (Or.imp_left And.left)
    exact h.replace row.val (transition_disk hl s.last row.property)

/-- A partition is a leaf at first. -/
theorem Ready.step_part (h : Ready s kept) (row : PartRow) :
    Written (s.step row.val.strings) (kept.map ListingRow.stored ++ [row.val.stored])
      kept.length 1 := by
  cases h with
  | disk h =>
    have ht : transition 0 s.last row.val.type = ⟨false, 1, false⟩ := by
      rw [row.property]
      simp only [transition]
      decide
    exact h.append row.val ht
  | leaf entry level h hl =>
    rw [← h.last] at hl
    exact h.replace row.val (row.property ▸ transition_part hl)

/-- Volumes are written over one another. -/
theorem Written.walk_lvms {entry : List UInt8 × List UInt8}
    (h : Written s (kept.map ListingRow.stored ++ [entry]) kept.length 2)
    (he : entry.2 = lvmType) (lvms : List LvmRow) :
    Ready (walk s (lvms.map Subtype.val)) kept := by
  induction lvms generalizing s entry with
  | nil => exact .leaf entry 2 h (.inr (.inl ⟨rfl, .inl he⟩))
  | cons lvm lvms ih =>
    have ht : transition 2 s.last lvm.val.type = ⟨true, 2, false⟩ := by
      rw [h.last, he, lvm.property]
      decide
    have hs := h.replace lvm.val ht
    have hv : lvm.val.stored.2 = lvmType := by
      rw [ListingRow.stored, lvm.property]
      rfl
    rw [List.map_cons, walk_cons]
    exact ih hs hv

/-- The state of the table behind a raid with its volumes. -/
inductive RaidReady (s : Finder) (kept : List ListingRow) : Prop
  | raid (entry : List UInt8 × List UInt8)
      (h : Written s (kept.map ListingRow.stored ++ [entry]) kept.length 2)
      (he : entry.2 = raidType)
  | lvm (entry : List UInt8 × List UInt8)
      (h : Written s (kept.map ListingRow.stored ++ [entry]) kept.length 3)

theorem RaidReady.ready (h : RaidReady s kept) : Ready s kept := by
  cases h with
  | raid entry h he => exact .leaf entry 2 h (.inr (.inl ⟨rfl, .inr he⟩))
  | lvm entry h => exact .leaf entry 3 h (.inr (.inr rfl))

/-- Volumes on a raid are written over one another. -/
theorem Written.walk_raid_lvms {entry : List UInt8 × List UInt8}
    (h : Written s (kept.map ListingRow.stored ++ [entry]) kept.length 3) (lvms : List LvmRow) :
    RaidReady (walk s (lvms.map Subtype.val)) kept := by
  induction lvms generalizing s entry with
  | nil => exact .lvm entry h
  | cons lvm lvms ih =>
    have ht : transition 3 s.last lvm.val.type = ⟨true, 3, false⟩ := by
      rw [lvm.property]
      simp only [transition]
      decide
    rw [List.map_cons, walk_cons]
    exact ih (h.replace lvm.val ht)

theorem RaidRow.stored_type (row : RaidRow) : row.val.stored.2 = raidType :=
  (isRaidType_ne row.property).2.2.2

/-- A raid counts when there is a volume on it. -/
theorem Written.walk_raid {row : RaidRow}
    (h : Written s (kept.map ListingRow.stored ++ [row.val.stored]) kept.length 2)
    (lvms : List LvmRow) :
    RaidReady (walk s (lvms.map Subtype.val)) (kept ++ RaidTree.inner ⟨row, lvms⟩) := by
  cases lvms with
  | nil =>
    rw [RaidTree.inner, List.isEmpty_nil, if_pos rfl, List.append_nil]
    exact .raid row.val.stored h row.stored_type
  | cons lvm lvms =>
    have ht : transition 2 s.last lvm.val.type = ⟨false, 3, true⟩ := by
      rw [h.last, row.stored_type, lvm.property]
      decide
    have hs := h.append lvm.val ht
    have hk : kept.map ListingRow.stored ++ [row.val.stored] =
        (kept ++ [row.val]).map ListingRow.stored := by
      rw [List.map_append]
      rfl
    have hl : kept.length + 1 = (kept ++ [row.val]).length := by
      rw [List.length_append]
      rfl
    rw [hk, if_pos rfl, hl] at hs
    exact hs.walk_raid_lvms lvms

theorem RaidReady.walk_tree (h : RaidReady s kept) (tree : RaidTree) :
    RaidReady (walk s tree.rows) (kept ++ tree.inner) := by
  obtain ⟨hd, hp, hv, -⟩ := isRaidType_ne tree.row.property
  cases h with
  | raid entry h he =>
    have ht : transition 2 s.last tree.row.val.type = ⟨true, 2, false⟩ := by
      have hn : raidType ≠ lvmType := by decide
      simp [transition, h.last, he, hd, tree.row.property]
    exact (h.replace tree.row.val ht).walk_raid tree.lvms
  | lvm entry h =>
    have ht : transition 3 s.last tree.row.val.type = ⟨true, 2, false⟩ := by
      simp [transition, hd, hv, tree.row.property]
    exact (h.replace tree.row.val ht).walk_raid tree.lvms

theorem RaidReady.walk_trees (h : RaidReady s kept) (trees : List RaidTree) :
    RaidReady (walk s (trees.flatMap RaidTree.rows)) (kept ++ trees.flatMap RaidTree.inner) := by
  induction trees generalizing s kept with
  | nil => exact (List.append_nil kept).symm ▸ h
  | cons tree trees ih =>
    rw [List.flatMap_cons, List.flatMap_cons, walk_append, ← List.append_assoc]
    exact ih (h.walk_tree tree)

/-- A partition counts when there is something on it. -/
theorem Ready.walk_part (h : Ready s kept) (tree : PartTree) :
    Ready (walk s tree.rows) (kept ++ tree.inner) := by
  have hcount : ∀ {part child : ListingRow}, Written (s.step part.strings)
        (kept.map ListingRow.stored ++ [part.stored]) kept.length 1 →
      transition 1 (s.step part.strings).last child.type = ⟨false, 2, true⟩ →
      Written ((s.step part.strings).step child.strings)
        ((kept ++ [part]).map ListingRow.stored ++ [child.stored]) (kept ++ [part]).length 2 := by
    intro part child hw ht
    rw [List.map_append, List.length_append]
    exact hw.append child ht
  cases tree with
  | withLvms row lvms =>
    have hw := h.step_part row
    rw [PartTree.rows, PartTree.inner, walk_cons]
    cases lvms with
    | nil =>
      rw [List.isEmpty_nil, if_pos rfl, List.append_nil]
      exact .leaf row.val.stored 1 hw (.inl rfl)
    | cons lvm lvms =>
      have ht : transition 1 (s.step row.val.strings).last lvm.val.type = ⟨false, 2, true⟩ := by
        rw [lvm.property]
        simp only [transition]
        decide
      have hv : lvm.val.stored.2 = lvmType := by
        rw [ListingRow.stored, lvm.property]
        rfl
      exact (hcount hw ht).walk_lvms hv lvms
  | withRaids row raids =>
    have hw := h.step_part row
    rw [PartTree.rows, PartTree.inner, walk_cons]
    cases raids with
    | nil =>
      rw [List.isEmpty_nil, if_pos rfl, List.flatMap_nil, List.flatMap_nil, List.append_nil,
        List.append_nil]
      exact .leaf row.val.stored 1 hw (.inl rfl)
    | cons raid raids =>
      obtain ⟨hd, hp, hv, -⟩ := isRaidType_ne raid.row.property
      have ht : transition 1 (s.step row.val.strings).last raid.row.val.type = ⟨false, 2, true⟩ := by
        simp [transition, hd, hp, raid.row.property]
      have hr := ((hcount hw ht).walk_raid raid.lvms).walk_trees raids
      rw [List.flatMap_cons, List.flatMap_cons, walk_append, ← List.append_assoc, RaidTree.rows,
        walk_cons, ← List.append_assoc]
      exact hr.ready

theorem Ready.walk_parts (h : Ready s kept) (parts : List PartTree) :
    Ready (walk s (parts.flatMap PartTree.rows)) (kept ++ parts.flatMap PartTree.inner) := by
  induction parts generalizing s kept with
  | nil => exact (List.append_nil kept).symm ▸ h
  | cons part parts ih =>
    rw [List.flatMap_cons, List.flatMap_cons, walk_append, ← List.append_assoc]
    exact ih (h.walk_part part)

theorem Ready.walk_tree (h : Ready s kept) (tree : DiskTree) :
    Ready (walk s tree.rows) (kept ++ tree.primary) := by
  have hp := (Ready.disk (h.step_disk tree.row)).walk_parts tree.parts
  rw [DiskTree.rows, DiskTree.primary, walk_cons, List.append_cons]
  exact hp

theorem Ready.walk_forest (h : Ready s kept) (forest : List DiskTree) :
    Ready (walk s (forest.flatMap DiskTree.rows)) (kept ++ forest.flatMap DiskTree.primary) := by
  induction forest generalizing s kept with
  | nil => exact (List.append_nil kept).symm ▸ h
  | cons tree forest ih =>
    rw [List.flatMap_cons, List.flatMap_cons, walk_append, ← List.append_assoc]
    exact ih (h.walk_tree tree)

theorem Ready.length_le (h : Ready s kept) : (kept.length : Int) ≤ s.n := by
  cases h with
  | disk h =>
    rw [h.n, List.length_map]
  | leaf entry level h hl =>
    rw [h.n, List.length_append, List.length_map]
    omega

/-- The entries that count are the rows that are kept. -/
theorem Ready.kept_entries (h : Ready s kept) :
    s.max = kept.length ∧
      (List.range s.max).map (fun i ↦ s.entry (i : Nat)) = kept.map ListingRow.stored := by
  have hm : ∀ {entries : List (List UInt8 × List UInt8)} {level : Nat},
      Written s entries kept.length level → kept.map ListingRow.stored <+: entries →
        s.max = kept.length ∧
          (List.range s.max).map (fun i ↦ s.entry (i : Nat)) = kept.map ListingRow.stored := by
    intro entries level hw hp
    refine ⟨hw.max, List.ext_getElem (by simp [hw.max]) fun i h1 h2 ↦ ?_⟩
    have hl := hp.length_le
    rw [List.length_map] at hl h2
    rw [List.getElem_map, List.getElem_range, hw.entry i (by omega)]
    exact (hp.getElem (by rw [List.length_map]; exact h2)).symm
  cases h with
  | disk h => exact hm h List.prefix_rfl
  | leaf entry level h hl => exact hm h (List.prefix_append _ _)

end

/-- Of a listing that is the preorder of a forest the entries that count are, in its order, the
devices of level 0 and the rows that have a child. -/
theorem primary_devices (forest : List DiskTree) :
    let finder := findPrimaryPart clearedTable (lsblk (forest.flatMap DiskTree.rows))
    let primary := forest.flatMap DiskTree.primary
    finder.max = primary.length ∧ finder.names = primary.map ListingRow.name ∧
      (List.range finder.max).map (fun i ↦ finder.entry (i : Nat)) =
        primary.map ListingRow.stored := by
  have hs : Ready (.start clearedTable) [] := .disk (written_start fun _ ↦ isShort_zeros)
  have hr := hs.walk_forest forest
  rw [List.nil_append] at hr
  obtain ⟨hm, he⟩ := hr.kept_entries
  rw [findPrimaryPart_lsblk]
  refine ⟨hm, ?_, he⟩
  have hn := congrArg (List.map Prod.fst) he
  rw [List.map_map, List.map_map] at hn
  exact hn

end LibGTop.Linux
