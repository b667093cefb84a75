import Mathlib.Data.List.Nodup

/-!
# Tables with perfect hashing

An array of slots, each empty or with one entry, which lies at the hash of its
key. A key is compared with one entry only, and found exactly when it is the key
of an entry: the table answers as a search through all of its entries does.
-/

namespace LibGTop.Base

universe u v

variable {κ : Type u} {β : Type v}

/-- The slots, each with a key and its value or with nothing. -/
structure PerfectTable (κ : Type u) (β : Type v) where
  hash : κ → Nat
  slots : List (Option (κ × β))
  placed : ∀ i key value, slots[i]? = some (some (key, value)) → hash key = i

namespace PerfectTable

variable (t : PerfectTable κ β)

/-- The entries in the order of their slots. -/
def entries : List (κ × β) := t.slots.filterMap id

/-- The value of a key: the entry at its hash is compared with it. -/
def find? [DecidableEq κ] (key : κ) : Option β :=
  match t.slots[t.hash key]? with
  | some (some (other, value)) => if key = other then some value else none
  | _ => none

variable {t} {key : κ} {value : β}

theorem mem_entries_iff :
    (key, value) ∈ t.entries ↔ t.slots[t.hash key]? = some (some (key, value)) := by
  rw [entries, List.mem_filterMap]
  constructor
  · rintro ⟨slot, hs, rfl⟩
    obtain ⟨i, hi⟩ := List.mem_iff_getElem?.mp hs
    rw [t.placed i key value hi]
    exact hi
  · intro h
    exact ⟨_, List.mem_of_getElem? h, rfl⟩

variable [DecidableEq κ]

/-- The table has exactly its entries. -/
theorem find?_eq_some_iff : t.find? key = some value ↔ (key, value) ∈ t.entries := by
  rw [mem_entries_iff, find?]
  cases hs : t.slots[t.hash key]? with
  | none => simp
  | some slot =>
    cases slot with
    | none => simp
    | some e =>
      obtain ⟨other, value'⟩ := e
      by_cases hk : key = other
      · subst hk
        simp
      · simp [hk, Ne.symm hk]

/-- The table answers as any search does that has the same entries. -/
theorem find?_eq {search : κ → Option β}
    (h : ∀ key value, search key = some value ↔ (key, value) ∈ t.entries) :
    t.find? key = search key := by
  apply Option.ext
  intro value
  rw [find?_eq_some_iff, h]

end PerfectTable

end LibGTop.Base
