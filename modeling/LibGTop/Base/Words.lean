import Mathlib.Data.List.Basic
import Mathlib.Tactic.Ring

/-!
# Fixed-width words in memory

The bytes a machine stores for an unsigned word, in either byte order, and the
word it reads back from bytes. A structure copied to a descriptor with `write`
is the concatenation of the stores of its fields.
-/

namespace LibGTop.Base

/-- The order in which a machine stores the bytes of a word. -/
inductive ByteOrder
  | little
  | big
  deriving DecidableEq, Repr

/-- The low `width` bytes of a number, least significant first. -/
def lowBytes : Nat → Nat → List UInt8
  | 0, _ => []
  | width + 1, value => UInt8.ofNat value :: lowBytes width (value / 256)

/-- The number a byte list denotes, least significant byte first. -/
def lowValue : List UInt8 → Nat
  | [] => 0
  | b :: bs => b.toNat + 256 * lowValue bs

@[simp] theorem length_lowBytes (width value : Nat) : (lowBytes width value).length = width := by
  induction width generalizing value with
  | zero => rfl
  | succ width ih => simp [lowBytes, ih]

/-- Reading the low bytes of a number recovers it modulo their range. -/
theorem lowValue_lowBytes (width value : Nat) :
    lowValue (lowBytes width value) = value % 256 ^ width := by
  induction width generalizing value with
  | zero => simp [lowBytes, lowValue, Nat.mod_one]
  | succ width ih =>
    rw [lowBytes, lowValue, ih, Nat.pow_succ', Nat.mod_mul]
    rfl

/-- Bytes are the low bytes of the number that they denote. -/
theorem lowBytes_lowValue {width : Nat} {bytes : List UInt8} (h : bytes.length = width) :
    lowBytes width (lowValue bytes) = bytes := by
  induction bytes generalizing width with
  | nil =>
    subst h
    rfl
  | cons b bs ih =>
    subst h
    have hd : (b.toNat + 256 * lowValue bs) / 256 = lowValue bs := by
      have := b.toNat_lt
      omega
    have hb : UInt8.ofNat (b.toNat + 256 * lowValue bs) = b := by
      apply UInt8.toNat_inj.mp
      have := b.toNat_lt
      rw [UInt8.toNat_ofNat']
      omega
    rw [lowValue, List.length_cons, lowBytes, hd, hb, ih rfl]

/-- Bytes denote a number that their width holds. -/
theorem lowValue_lt (bytes : List UInt8) : lowValue bytes < 256 ^ bytes.length := by
  have h := lowValue_lowBytes bytes.length (lowValue bytes)
  rw [lowBytes_lowValue rfl] at h
  rw [h]
  exact Nat.mod_lt _ (Nat.pow_pos (by omega))

/-- A byte list is a low part and a high part. -/
theorem lowValue_append (low high : List UInt8) :
    lowValue (low ++ high) = lowValue low + 256 ^ low.length * lowValue high := by
  induction low with
  | nil => simp [lowValue]
  | cons b bs ih =>
    simp only [List.cons_append, lowValue, ih, List.length_cons, Nat.pow_succ]
    ring

/-- The first bytes of a store are the store of the low part. -/
theorem take_lowBytes (count width value : Nat) (h : count ≤ width) :
    (lowBytes width value).take count = lowBytes count value := by
  induction count generalizing width value with
  | zero => simp [lowBytes]
  | succ count ih =>
    obtain ⟨width, rfl⟩ : ∃ w, width = w + 1 := ⟨width - 1, by omega⟩
    simp only [lowBytes, List.take_succ_cons]
    rw [ih _ _ (by omega)]

/-- Dropping the low bytes of a store leaves the store of the high part. -/
theorem drop_lowBytes (count width value : Nat) :
    (lowBytes width value).drop count = lowBytes (width - count) (value / 256 ^ count) := by
  induction count generalizing width value with
  | zero => simp
  | succ count ih =>
    cases width with
    | zero => simp [lowBytes]
    | succ width =>
      rw [lowBytes, List.drop_succ_cons, ih, Nat.div_div_eq_div_mul, Nat.pow_succ',
        Nat.add_sub_add_right]

namespace ByteOrder

/-- The bytes stored for the low `width` bytes of a number. -/
def store (order : ByteOrder) (width value : Nat) : List UInt8 :=
  match order with
  | little => lowBytes width value
  | big => (lowBytes width value).reverse

/-- The number read back from stored bytes. -/
def load (order : ByteOrder) (bytes : List UInt8) : Nat :=
  match order with
  | little => lowValue bytes
  | big => lowValue bytes.reverse

/-- A store occupies exactly its width. -/
@[simp] theorem length_store (order : ByteOrder) (width value : Nat) :
    (order.store width value).length = width := by
  cases order <;> simp [store]

/-- Loading a store recovers the number modulo the range of the width. -/
theorem load_store (order : ByteOrder) (width value : Nat) :
    order.load (order.store width value) = value % 256 ^ width := by
  cases order <;> simp [load, store, lowValue_lowBytes]

/-- Loading a store of a number that fits recovers the number. -/
theorem load_store_of_lt (order : ByteOrder) (width value : Nat) (h : value < 256 ^ width) :
    order.load (order.store width value) = value := by
  rw [load_store, Nat.mod_eq_of_lt h]

/-- Storing a number that was loaded gives back its bytes. -/
theorem store_load (order : ByteOrder) {width : Nat} {bytes : List UInt8}
    (h : bytes.length = width) : order.store width (order.load bytes) = bytes := by
  cases order with
  | little => exact lowBytes_lowValue h
  | big =>
    have hr : bytes.reverse.length = width := by rw [List.length_reverse, h]
    rw [store, load, lowBytes_lowValue hr, List.reverse_reverse]

/-- Bytes are loaded as a number that their width holds. -/
theorem load_lt (order : ByteOrder) {width : Nat} {bytes : List UInt8}
    (h : bytes.length = width) : order.load bytes < 256 ^ width := by
  subst h
  cases order with
  | little => exact lowValue_lt bytes
  | big => exact bytes.length_reverse ▸ lowValue_lt bytes.reverse

/-- Reading a shorter word at the start of a little-endian word gives its low part. -/
theorem load_take_little (count width value : Nat) (h : count ≤ width) :
    little.load ((little.store width value).take count) = value % 256 ^ count := by
  simp only [load, store, take_lowBytes count width value h, lowValue_lowBytes]

/-- Reading a shorter word at the start of a big-endian word gives its high part. -/
theorem load_take_big (count width value : Nat) (h : count ≤ width) :
    big.load ((big.store width value).take count) =
      value / 256 ^ (width - count) % 256 ^ count := by
  simp only [load, store, List.take_reverse, length_lowBytes, List.reverse_reverse,
    drop_lowBytes, lowValue_lowBytes]
  congr 2
  omega

/-- The last bytes of a big-endian word are the store of its low part. -/
theorem drop_store_big (count width value : Nat) :
    (big.store width value).drop count = big.store (width - count) value := by
  simp only [store, List.drop_reverse, length_lowBytes]
  rw [take_lowBytes _ _ _ (Nat.sub_le width count)]

/-- A little-endian word whose first bytes are given has that low part. -/
theorem load_append_little (low high : List UInt8) :
    little.load (low ++ high) = little.load low + 256 ^ low.length * little.load high :=
  lowValue_append low high

/-- A big-endian word whose last bytes are given has that low part. -/
theorem load_append_big (high low : List UInt8) :
    big.load (high ++ low) = big.load low + 256 ^ low.length * big.load high := by
  simp only [load, List.reverse_append]
  rw [lowValue_append, List.length_reverse]

end ByteOrder
end LibGTop.Base
