import LibGTop.Base.Chunks
import LibGTop.Linux.ProcList

/-!
# Blocks of pids

The blocks in which Solaris (`sysdeps/solaris/proclist.c:51–52`) and AIX
(`sysdeps/aix/proclist.c:32–33`) collect pids, with the sizes in an `unsigned` and in an `int`, and
the list that is returned of them. `gsize` has 64 bits. -/

namespace LibGTop.Common

open Base
open Linux (ProcList sysdepsProclist)

/-- `BLOCK_COUNT`. -/
def blockCount : Nat := 256

/-- `sizeof (pid_t)` and `sizeof (unsigned)`. -/
def pidWidth : Nat := 4

/-- An object has fewer bytes than this. -/
def memoryLimit : Nat := 2 ^ 63

/-- A size in an `int` as the argument of `g_realloc`. -/
def intSize (size : BitVec 32) : Nat := (size.signExtend 64).toNat

theorem toNat_ofNat_of_lt (size : Nat) (h : size < 2 ^ 32) :
    (BitVec.ofNat 32 size).toNat = size := by
  rw [BitVec.toNat_ofNat, Nat.mod_eq_of_lt h]

/-- A negative size is a very large one. -/
theorem intSize_ofNat_of_lt (size : Nat) (h : size < 2 ^ 31) :
    intSize (BitVec.ofNat 32 size) = size := by
  have hm : (BitVec.ofNat 32 size).msb = false := by
    rw [BitVec.msb_eq_false_iff_two_mul_lt, toNat_ofNat_of_lt size (by omega)]
    omega
  rw [intSize, BitVec.signExtend_eq_setWidth_of_msb_false hm, BitVec.toNat_setWidth,
    toNat_ofNat_of_lt size (by omega)]
  omega

theorem pidBlock_pos : 0 < blockCount := by decide

theorem pidWidth_pos : 0 < pidWidth := by decide

theorem unsignedBound_pos : 0 < 2 ^ 32 := by decide

theorem intBound_pos : 0 < 2 ^ 31 := by decide

theorem block_dvd_unsignedBound : blockCount * pidWidth ∣ 2 ^ 32 := by decide

theorem block_dvd_intBound : blockCount * pidWidth ∣ 2 ^ 31 := by decide

theorem unsignedBound_le : 2 ^ 32 ≤ memoryLimit := by decide

theorem intBound_le : 2 ^ 31 ≤ memoryLimit := by decide

theorem toNat_unsignedBound :
    memoryLimit ≤ (BitVec.ofNat 32 (2 ^ 32)).toNat ∨ (BitVec.ofNat 32 (2 ^ 32)).toNat < 2 ^ 32 := by
  decide

theorem intSize_intBound :
    memoryLimit ≤ intSize (BitVec.ofNat 32 (2 ^ 31)) ∨
      intSize (BitVec.ofNat 32 (2 ^ 31)) < 2 ^ 31 := by
  decide

/-- The sizes in an `unsigned`. -/
def unsignedSizes : Layout 32 where
  blockCount := blockCount
  width := pidWidth
  limit := memoryLimit
  toSize := BitVec.toNat
  bound := 2 ^ 32
  blockCount_pos := pidBlock_pos
  width_pos := pidWidth_pos
  bound_pos := unsignedBound_pos
  dvd_bound := block_dvd_unsignedBound
  bound_le := unsignedBound_le
  toSize_of_lt := toNat_ofNat_of_lt
  toSize_bound := toNat_unsignedBound

/-- The sizes in an `int`. -/
def intSizes : Layout 32 where
  blockCount := blockCount
  width := pidWidth
  limit := memoryLimit
  toSize := intSize
  bound := 2 ^ 31
  blockCount_pos := pidBlock_pos
  width_pos := pidWidth_pos
  bound_pos := intBound_pos
  dvd_bound := block_dvd_intBound
  bound_le := intBound_le
  toSize_of_lt := intSize_ofNat_of_lt
  toSize_bound := intSize_intBound

/-- The array of the pids, each of its elements written, or a null pointer for none. -/
abbrev PidArray : Type := Option (List (Option (BitVec 32)))

/-- What is returned of the array and the number of pids, which `extend` makes 64 bits of. -/
def returned (extend : BitVec 32 → BitVec 64) :
    Option (List (Option (BitVec 32)) × BitVec 32) → ProcList × PidArray
  | none => ({}, none)
  | some (chain, total) =>
    let number := extend total
    ({ flags := sysdepsProclist, size := 4, number := number, total := number * 4 }, some chain)

/-- The list of the pids, its number and its size. -/
def pidList (pids : List (BitVec 32)) : ProcList × PidArray :=
  if pids = [] then ({}, none)
  else
    ({ flags := sysdepsProclist
       size := 4
       number := BitVec.ofNat 64 pids.length
       total := BitVec.ofNat 64 (pids.length * 4) }, some (pids.map some))

/-- Where the number is told truly, what is returned of the collected pids is their list if and only
if their size is below the bound. -/
theorem returned_collect_iff {layout : Layout 32} {extend : BitVec 32 → BitVec 64}
    {pids : List (BitVec 32)}
    (h : pids.length * layout.width < layout.bound →
      extend (BitVec.ofNat 32 pids.length) = BitVec.ofNat 64 pids.length) :
    (Collecting.collect layout pids).map (returned extend) = .ok (pidList pids) ↔
      pids.length * layout.width < layout.bound := by
  constructor
  · intro hl
    by_contra hb
    obtain ⟨mishap, he⟩ := Collecting.collect_error (Nat.le_of_not_lt hb)
    rw [he] at hl
    cases hl
  · intro hb
    rw [Collecting.collect_eq hb]
    by_cases hp : pids = []
    · rw [if_pos hp, pidList, if_pos hp]
      rfl
    · rw [if_neg hp, pidList, if_neg hp, BitVec.ofNat_mul, ← h hb]
      rfl

end LibGTop.Common
