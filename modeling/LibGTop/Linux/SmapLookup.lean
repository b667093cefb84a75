import LibGTop.Base.PerfectTable
import LibGTop.Linux.Smaps

/-!
# The generated lookup of smaps labels

`hash` and `_glibtop_find_smap` (`sysdeps/linux/procmap_smaps.c:64–161`), which
`gperf` generated from the table of labels. The label is the start of a line, so
there is more memory behind it; an access behind the end of an array has no
result.
-/

namespace LibGTop.Linux

open Base

/-- `asso_values`. -/
def assoValues : List Nat :=
  [19, 19, 19, 19, 19, 19, 19, 19, 19, 19,
   19, 19, 19, 19, 19, 19, 19, 19, 19, 19,
   19, 19, 19, 19, 19, 19, 19, 19, 19, 19,
   19, 19, 19, 19, 19, 19, 19, 19, 19, 19,
   19, 19, 19, 19, 19, 19, 19, 19, 19, 19,
   19, 19, 19, 19, 19, 19, 19, 19, 19, 19,
   19, 19, 19, 19, 19, 19, 19, 19, 19, 19,
   19, 19, 19, 19, 19, 19, 19, 19, 19, 19,
   0, 19, 5, 0, 19, 19, 19, 19, 19, 19,
   19, 19, 19, 19, 19, 19, 19, 19, 19, 19,
   19, 5, 19, 19, 19, 19, 19, 19, 19, 19,
   5, 19, 0, 19, 19, 0, 19, 19, 19, 19,
   19, 0, 19, 19, 19, 19, 19, 19, 19, 19] ++ List.replicate 126 19

/-- `hash`, on memory with `len` bytes of a word. -/
def smapHash (str : List UInt8) (len : Nat) : Option Nat := do
  let last ← str[len - 1]?
  let first ← str[0]?
  let lastValue ← assoValues[last.toNat]?
  let firstValue ← assoValues[first.toNat]?
  some (len + lastValue + firstValue)

/-- The strings of `stringpool_contents`, in their order. -/
def pooledFields : List SmapField :=
  [.pss, .swap, .rss, .size, .sharedDirty, .privateDirty, .sharedClean, .privateClean]

/-- `stringpool`: the strings, each with its terminator. -/
def stringpool : List UInt8 := pooledFields.flatMap fun field ↦ field.label ++ [0]

/-- `lengthtable`. -/
def lengthtable : List Nat := [0, 0, 0, 3, 4, 0, 0, 0, 3, 4, 0, 0, 12, 13, 0, 0, 0, 12, 13]

/-- `wordlist`: the offset of a string in `stringpool` and the field it names, where the offset is
not -1. -/
def wordlist : List (Option (Nat × SmapField)) :=
  [none, none, none, some (0, .pss), some (4, .swap), none, none, none, some (9, .rss),
   some (13, .size), none, none, some (18, .sharedDirty), some (31, .privateDirty), none, none,
   none, some (45, .sharedClean), some (58, .privateClean)]

/-- `!memcmp (a, b, size)`. -/
def memoryEqual (a b : List UInt8) (size : Nat) : Option Bool :=
  if size ≤ a.length ∧ size ≤ b.length then some (a.take size = b.take size) else none

/-- The comparison of a word with the string at an offset of the pool,
`sysdeps/linux/procmap_smaps.c:153–156`. -/
def pooledEqual (str : List UInt8) (len name : Nat) : Option Bool := do
  let first ← str[0]?
  let other ← stringpool[name]?
  if first = other then
    memoryEqual (str.drop 1) (stringpool.drop (name + 1)) (len - 1)
  else some false

/-- `_glibtop_find_smap`, `sysdeps/linux/procmap_smaps.c:104–161`. -/
def generatedFindSmap (str : List UInt8) (len : Nat) : Option (Option SmapField) :=
  if len ≤ 13 ∧ 3 ≤ len then do
    let key ← smapHash str len
    if key ≤ 18 then
      if len = (← lengthtable[key]?) then
        let (name, field) ← ← wordlist[key]?
        if ← pooledEqual str len name then some (some field) else some none
      else some none
    else some none
  else some none

/-- The hash of a whole word, and 19 where there is none. -/
def wordHash (word : List UInt8) : Nat := (smapHash word word.length).getD 19

/-- The slots with the words that lie in the pool. -/
def smapSlots : List (Option (List UInt8 × SmapField)) :=
  wordlist.map (Option.map fun (_, field) ↦ (field.label, field))

/-- Each word lies at its hash. -/
theorem smapSlots_placed (i : Nat) (word : List UInt8) (field : SmapField)
    (h : smapSlots[i]? = some (some (word, field))) : wordHash word = i := by
  have hall : ∀ i : Fin 19, ∀ e ∈ smapSlots[i.val]?.join, wordHash e.1 = i.val := by
    decide +kernel
  by_cases hi : i < 19
  · exact hall ⟨i, hi⟩ (word, field) (by simp [h])
  · rw [List.getElem?_eq_none (show smapSlots.length ≤ i from Nat.le_of_not_lt hi)] at h
    exact absurd h nofun

/-- The table that `gperf` made. -/
def smapTable : PerfectTable (List UInt8) SmapField := ⟨wordHash, smapSlots, smapSlots_placed⟩

theorem mem_entries_smapTable {word : List UInt8} {field : SmapField} :
    (word, field) ∈ smapTable.entries ↔ word = field.label := by
  have he : smapTable.entries = pooledFields.map fun field ↦ (field.label, field) := rfl
  rw [he, List.mem_map]
  constructor
  · rintro ⟨field', -, h⟩
    obtain ⟨rfl, rfl⟩ := Prod.mk.inj h
    rfl
  · rintro rfl
    exact ⟨field, by cases field <;> decide, rfl⟩

/-- The table answers as the search through the labels. -/
theorem find?_smapTable (word : List UInt8) : smapTable.find? word = glibtopFindSmap word := by
  apply PerfectTable.find?_eq
  intro word field
  rw [mem_entries_smapTable]
  constructor
  · intro h
    have h : smapFields.find? (fun field ↦ field.label = word) = some field := h
    have hf := List.find?_some h
    exact (of_decide_eq_true hf).symm
  · rintro rfl
    exact findSmap_label field

/-- The tables fit each other: a slot is unused, or its string lies in the pool and has the length
that is noted for it. -/
theorem slot_cases {key : Nat} (h : key ≤ 18) :
    (lengthtable[key]? = some 0 ∧ wordlist[key]? = some none) ∨
      ∃ name field, lengthtable[key]? = some field.label.length ∧
        wordlist[key]? = some (some (name, field)) ∧
        field.label <+: stringpool.drop name := by
  have hall : ∀ key : Fin 19,
      (lengthtable[key.val]? = some 0 ∧ wordlist[key.val]? = some none) ∨
        ((wordlist[key.val]?.bind id).any fun w ↦
          decide (lengthtable[key.val]? = some w.2.label.length) &&
            w.2.label.isPrefixOf (stringpool.drop w.1)) = true := by
    decide +kernel
  refine (hall ⟨key, Nat.lt_succ_of_le h⟩).imp_right fun hk ↦ ?_
  rw [Option.any_eq_true] at hk
  obtain ⟨⟨name, field⟩, hw, hk⟩ := hk
  obtain ⟨slot, hslot, rfl⟩ := Option.bind_eq_some_iff.mp hw
  obtain ⟨hlength, hp⟩ := Bool.and_eq_true_iff.mp hk
  exact ⟨name, field, of_decide_eq_true hlength, hslot, List.isPrefixOf_iff_prefix.mp hp⟩

/-- The comparison with a string of the pool. -/
theorem pooledEqual_eq {str label : List UInt8} {len name : Nat} (hn : 0 < len)
    (hl : len ≤ str.length) (hlabel : label.length = len) (hp : label <+: stringpool.drop name) :
    pooledEqual str len name = some (decide (str.take len = label)) := by
  obtain ⟨rest, hp⟩ := hp
  obtain ⟨b, str, rfl⟩ := List.exists_cons_of_length_pos (Nat.lt_of_lt_of_le hn hl)
  obtain ⟨c, label, rfl⟩ := List.exists_cons_of_length_pos (hlabel ▸ hn)
  subst hlabel
  have hc : stringpool[name]? = some c := by
    rw [← List.head?_drop, ← hp]
    rfl
  have hd : stringpool.drop (name + 1) = label ++ rest := by
    rw [← List.drop_drop, ← hp]
    rfl
  simp only [List.length_cons, Nat.add_le_add_iff_right] at hl
  have hm : memoryEqual str (label ++ rest) label.length = some (decide (str.take label.length = label)) := by
    rw [memoryEqual, if_pos ⟨hl, by rw [List.length_append]; omega⟩, List.take_left]
  simp only [pooledEqual, List.getElem?_cons_zero, Option.bind_eq_bind, Option.bind_some, hc,
    List.drop_succ_cons, List.drop_zero, hd, List.length_cons, Nat.add_sub_cancel, hm,
    List.take_succ_cons, List.cons.injEq]
  by_cases hbc : b = c
  · simp [hbc]
  · simp [hbc]

theorem length_assoValues : assoValues.length = 256 := by decide +kernel

/-- The hash reads two bytes of the word. -/
theorem smapHash_eq {str : List UInt8} {len : Nat} (hn : 0 < len) (hl : len ≤ str.length) :
    smapHash str len = some (wordHash (str.take len)) := by
  have hlength : (str.take len).length = len := by
    rw [List.length_take]
    omega
  have hsame : smapHash (str.take len) (str.take len).length = smapHash str len := by
    rw [hlength, smapHash, smapHash, List.getElem?_take_of_lt (by omega),
      List.getElem?_take_of_lt hn]
  have hvalue : ∀ b : UInt8, ∃ value, assoValues[b.toNat]? = some value := fun b ↦
    ⟨_, List.getElem?_eq_getElem (length_assoValues ▸ b.toNat_lt)⟩
  obtain ⟨last, hlast⟩ : ∃ last, str[len - 1]? = some last :=
    ⟨_, List.getElem?_eq_getElem (by omega)⟩
  obtain ⟨first, hfirst⟩ : ∃ first, str[0]? = some first :=
    ⟨_, List.getElem?_eq_getElem (by omega)⟩
  obtain ⟨lastValue, hlast'⟩ := hvalue last
  obtain ⟨firstValue, hfirst'⟩ := hvalue first
  have hsome : smapHash str len = some (len + lastValue + firstValue) := by
    simp only [smapHash, hlast, hfirst, hlast', hfirst', Option.bind_eq_bind, Option.bind_some]
  rw [wordHash, hsame, hsome]
  rfl

/-- No label has another length. -/
theorem length_label (field : SmapField) : field.label.length ≤ 13 ∧ 3 ≤ field.label.length := by
  cases field <;> decide

/-- What the table answers depends on the slot. -/
theorem find?_of_slot {word : List UInt8} {slot : Option (Nat × SmapField)}
    (h : wordlist[wordHash word]? = some slot) :
    smapTable.find? word = slot.bind fun e ↦ if word = e.2.label then some e.2 else none := by
  have hs : smapTable.slots[smapTable.hash word]? =
      some (slot.map fun (_, field) ↦ (field.label, field)) := by
    change smapSlots[wordHash word]? = _
    rw [smapSlots, List.getElem?_map, h]
    rfl
  rw [PerfectTable.find?, hs]
  cases slot with
  | none => rfl
  | some e => rfl

/-- The generated lookup stays inside its arrays and finds the field whose label the word is, as a
search through the labels does: for every word that lies in memory. -/
theorem generatedFindSmap_eq (word rest : List UInt8) :
    generatedFindSmap (word ++ rest) word.length = some (glibtopFindSmap word) := by
  have hl : word.length ≤ (word ++ rest).length := by
    rw [List.length_append]
    exact Nat.le_add_right _ _
  have htake : (word ++ rest).take word.length = word := List.take_left
  rw [← find?_smapTable]
  by_cases hr : word.length ≤ 13 ∧ 3 ≤ word.length
  · have hn : 0 < word.length := by omega
    rw [generatedFindSmap, if_pos hr, smapHash_eq hn hl, htake, Option.bind_eq_bind, Option.bind_some]
    by_cases hk : wordHash word ≤ 18
    · rw [if_pos hk]
      obtain ⟨hzero, hslot⟩ | ⟨name, field, hnoted, hslot, hp⟩ := slot_cases hk
      · rw [hzero, find?_of_slot hslot, Option.bind_some, if_neg (by omega)]
        rfl
      · rw [hnoted, find?_of_slot hslot, Option.bind_some]
        by_cases hsame : word.length = field.label.length
        · have hequal := pooledEqual_eq hn hl hsame.symm hp
          rw [htake] at hequal
          simp only [if_pos hsame, hslot, Option.bind_eq_bind, Option.bind_some, hequal,
            decide_eq_true_eq]
          split <;> rfl
        · have hne : word ≠ field.label := fun he ↦ hsame (he ▸ rfl)
          rw [if_neg hsame, Option.bind_some, if_neg hne]
    · have hnone : smapTable.slots[smapTable.hash word]? = none :=
        List.getElem?_eq_none (show smapSlots.length ≤ wordHash _ from Nat.lt_of_not_le hk)
      rw [if_neg hk, PerfectTable.find?, hnone]
  · have hnone : smapTable.find? word = none := by
      rw [Option.eq_none_iff_forall_ne_some]
      intro field hf
      rw [PerfectTable.find?_eq_some_iff, mem_entries_smapTable] at hf
      exact hr (hf ▸ length_label field)
    rw [generatedFindSmap, if_neg hr, hnone]

end LibGTop.Linux
