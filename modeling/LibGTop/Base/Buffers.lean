import Mathlib.Data.List.Basic

/-!
# Byte buffers, windows and NUL-terminated strings

Copies into a fixed buffer, windows of a byte list and the string a pointer to
a buffer denotes. A buffer is the list of its bytes; a copy to its start keeps
the bytes behind it.
-/

namespace LibGTop.Base

/-- A cleared buffer, as `memset` with zero leaves it. -/
def zeros (size : Nat) : List UInt8 := List.replicate size 0

/-- The buffer after `bytes` are copied to its start. -/
def overlay (buffer bytes : List UInt8) : List UInt8 := bytes ++ buffer.drop bytes.length

/-- The window of `size` bytes that starts at `offset`. -/
def slice (bytes : List UInt8) (offset size : Nat) : List UInt8 := (bytes.drop offset).take size

/-- The string a pointer to the first byte denotes: everything before the first NUL. -/
def cString (memory : List UInt8) : List UInt8 := memory.takeWhile (· != 0)

@[simp] theorem length_zeros (size : Nat) : (zeros size).length = size := List.length_replicate

/-- Copying bytes that fit keeps the size of the buffer. -/
theorem length_overlay (buffer bytes : List UInt8) (h : bytes.length ≤ buffer.length) :
    (overlay buffer bytes).length = buffer.length := by
  simp only [overlay, List.length_append, List.length_drop]
  omega

/-- Copying into a cleared buffer leaves the bytes and then zeros. -/
theorem overlay_zeros (size : Nat) (bytes : List UInt8) :
    overlay (zeros size) bytes = bytes ++ zeros (size - bytes.length) := by
  simp [overlay, zeros]

/-- A cleared buffer keeps a NUL behind bytes that leave room for one. -/
theorem zero_mem_overlay_zeros (size : Nat) (bytes : List UInt8) (h : bytes.length < size) :
    0 ∈ overlay (zeros size) bytes := by
  rw [overlay_zeros]
  apply List.mem_append_right
  exact List.mem_replicate.mpr ⟨by omega, rfl⟩

/-- The window over the middle of a concatenation is that middle. -/
theorem slice_append (before middle after : List UInt8) (offset size : Nat)
    (ho : before.length = offset) (hs : middle.length = size) :
    slice (before ++ (middle ++ after)) offset size = middle := by
  subst ho hs
  simp [slice]

/-- The window at the start of a concatenation is its first part. -/
theorem slice_append_left (middle after : List UInt8) (size : Nat) (hs : middle.length = size) :
    slice (middle ++ after) 0 size = middle :=
  slice_append [] middle after 0 size rfl hs

/-- Windows that follow each other make up the bytes. -/
theorem flatten_slices {width count : Nat} {bytes : List UInt8} (h : bytes.length = width * count) :
    (List.ofFn fun i : Fin count ↦ slice bytes (width * i.val) width).flatten = bytes := by
  induction count generalizing bytes with
  | zero =>
    rw [Nat.mul_zero, List.length_eq_zero_iff] at h
    rw [h, List.ofFn_zero, List.flatten_nil]
  | succ count ih =>
    have hd : (bytes.drop width).length = width * count := by
      rw [List.length_drop, h, Nat.mul_succ, Nat.add_sub_cancel]
    have hs (i : Fin count) : slice bytes (width * i.succ.val) width =
        slice (bytes.drop width) (width * i.val) width := by
      rw [slice, slice, List.drop_drop, Fin.val_succ, Nat.mul_succ, Nat.add_comm]
    have hz : slice bytes (width * (0 : Fin (count + 1)).val) width = bytes.take width := rfl
    rw [List.ofFn_succ, List.flatten_cons, hz]
    simp only [hs]
    rw [ih hd, List.take_append_drop]

/-- A string stored with its terminator is read back whatever follows it. -/
theorem cString_append_zero (text rest : List UInt8) (h : (0 : UInt8) ∉ text) :
    cString (text ++ 0 :: rest) = text := by
  induction text with
  | nil => simp [cString]
  | cons b bs ih =>
    have hb : b ≠ 0 := fun he ↦ h (by simp [he])
    have ht := ih (fun hm ↦ h (List.mem_cons_of_mem _ hm))
    simp only [cString, List.cons_append] at ht ⊢
    rw [List.takeWhile_cons_of_pos (by simpa using hb), ht]

/-- The string of a buffer with a terminator does not depend on what follows it. -/
theorem cString_append_of_mem (memory rest : List UInt8) (h : (0 : UInt8) ∈ memory) :
    cString (memory ++ rest) = cString memory := by
  obtain ⟨before, after, rfl, hb⟩ := List.eq_append_cons_of_mem h
  rw [List.append_assoc, List.cons_append, cString_append_zero _ _ hb, cString_append_zero _ _ hb]

/-- A terminator behind a text does not change its string. -/
theorem cString_concat_zero (text : List UInt8) : cString (text ++ [0]) = cString text := by
  induction text with
  | nil => rfl
  | cons b bs ih =>
    by_cases hb : b = 0
    · simp [cString, hb]
    · simp only [cString, List.cons_append] at ih ⊢
      rw [List.takeWhile_cons_of_pos (by simpa using hb),
        List.takeWhile_cons_of_pos (by simpa using hb), ih]

/-- A text without a terminator is its own string. -/
theorem cString_eq_self {text : List UInt8} (h : (0 : UInt8) ∉ text) : cString text = text := by
  rw [← cString_concat_zero, cString_append_zero text [] h]

end LibGTop.Base
