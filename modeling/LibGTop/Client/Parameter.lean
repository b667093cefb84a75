import LibGTop.Client.Library

/-!
# The buffers of the parameters

What `glibtop_get_parameter_l` writes to a buffer and returns, and what a client reads back after
`glibtop_set_parameter_l` (`lib/parameter.c:27–98`).
-/

namespace LibGTop.Client

open Base Wire

/-- The bytes of the value of a parameter, which are absent for a null pointer. -/
def Library.storedValue (order : ByteOrder) (parameter : UInt32) (l : Library) :
    Option (Option (List UInt8)) :=
  let s := l.process.handle
  if parameter = paramMethod then some (some (order.store 4 s.method.toNat))
  else if parameter = paramFeatures then some (some (order.store 8 s.features.toNat))
  else if parameter = paramCommand then some (s.serverCommand.map asciiBytes)
  else if parameter = paramHost then some (s.serverHost.map asciiBytes)
  else if parameter = paramPort then some (some (order.store 8 s.serverPort.toNat))
  else if parameter = paramErrorMethod then some (some (order.store 4 s.errorMethod.toNat))
  else if parameter = paramRequired then some (some (storeRequired order l.required))
  else none

/-- What a client gets for a value: its bytes, or an empty string for a null pointer. -/
def delivered (value : Option (List UInt8)) : List UInt8 := value.getD [0]

/-- The sizes of the parameters that can be set. -/
def settableSize (parameter : UInt32) : Option Nat :=
  if parameter = paramMethod then some 4
  else if parameter = paramErrorMethod then some 4
  else if parameter = paramRequired then some 296
  else none

namespace Library

/-- A parameter is read into a buffer of `room` bytes as far as that has room. -/
structure ReadsParameter (order : ByteOrder) (parameter : UInt32) (room : Nat) (l : Library) :
    Prop where
  inside : (l.getParameterL order parameter (some room)).2.length ≤ room
  fits : ∀ value, l.storedValue order parameter = some value →
    (delivered value).length ≤ room → l.getParameterL order parameter (some room) =
      (BitVec.ofNat 64 (delivered value).length, delivered value)
  short : ∀ value, l.storedValue order parameter = some value →
    room < (delivered value).length → l.getParameterL order parameter (some room) =
      (-BitVec.ofNat 64 (delivered value).length, [])
  unknown : l.storedValue order parameter = none →
    l.getParameterL order parameter (some room) = (0, [])

/-- The values that a client can set or read are the same. -/
def SameValues (l l' : Library) : Prop := l'.process = l.process ∧ l'.required = l.required

/-- Data of the right size is read back, and any other data changes nothing. -/
structure SetsParameter (order : ByteOrder) (parameter : UInt32) (data : Option (List UInt8))
    (l : Library) : Prop where
  accepted : ∀ bytes, data = some bytes → settableSize parameter = some bytes.length →
    ∀ room, bytes.length ≤ room →
      (l.setParameterL order parameter data).getParameterL order parameter (some room) =
        (BitVec.ofNat 64 bytes.length, bytes)
  rejected : (∀ bytes, data = some bytes → settableSize parameter ≠ some bytes.length) →
    SameValues l (l.setParameterL order parameter data)

variable {order : ByteOrder} {parameter : UInt32} {l : Library}

theorem getParameterL_eq (room : Option Nat) :
    l.getParameterL order parameter room =
      ((l.storedValue order parameter).map fun value ↦ writeData value room).getD (0, []) := by
  simp only [getParameterL, storedValue]
  split_ifs <;> rfl

/-- A value is written where it has room, if there is room for the end of an empty string. -/
theorem writeData_eq {value : Option (List UInt8)} {room : Nat} (h : value = none → 1 ≤ room) :
    writeData value (some room) =
      if (delivered value).length ≤ room then
        (BitVec.ofNat 64 (delivered value).length, delivered value)
      else (-BitVec.ofNat 64 (delivered value).length, []) := by
  cases value with
  | none =>
    have hr : (delivered none).length ≤ room := h rfl
    rw [if_pos hr]
    rfl
  | some bytes =>
    simp only [writeData, delivered, Option.any_some, decide_eq_true_eq, Option.getD_some]
    rfl

theorem readsParameter_iff (room : Nat) :
    l.ReadsParameter order parameter room ↔
      (l.storedValue order parameter = some none → 1 ≤ room) := by
  constructor
  · intro h hn
    have := h.inside
    rw [getParameterL_eq, hn] at this
    exact this
  · intro h
    cases hv : l.storedValue order parameter with
    | none =>
      have hg : l.getParameterL order parameter (some room) = (0, []) := by
        rw [getParameterL_eq, hv]
        rfl
      exact
        { inside := hg ▸ Nat.zero_le room
          fits := fun value hs ↦ absurd (hv.symm.trans hs) nofun
          short := fun value hs ↦ absurd (hv.symm.trans hs) nofun
          unknown := fun _ ↦ hg }
    | some value =>
      have hg : l.getParameterL order parameter (some room) = writeData value (some room) := by
        rw [getParameterL_eq, hv]
        rfl
      have hw := hg.trans (writeData_eq fun hn ↦ h (hn ▸ hv))
      refine
        { inside := ?_
          fits := fun other hs hr ↦ ?_
          short := fun other hs hr ↦ ?_
          unknown := fun hs ↦ absurd (hv.symm.trans hs) nofun }
      · rw [hw]
        split
        · assumption
        · exact Nat.zero_le room
      · obtain rfl : value = other := Option.some.inj (hv.symm.trans hs)
        rw [hw, if_pos hr]
      · obtain rfl : value = other := Option.some.inj (hv.symm.trans hs)
        rw [hw, if_neg (Nat.not_le.mpr hr)]

/-- Data that has the size is taken. -/
theorem checkData_length (bytes : List UInt8) :
    checkData bytes.length (some bytes) = some bytes := by
  rw [checkData, Option.filter_some, if_pos (decide_eq_true rfl)]

theorem store_method (order : ByteOrder) {bytes : List UInt8} (h : bytes.length = 4) :
    order.store 4 (UInt32.ofNat (order.load bytes)).toNat = bytes := by
  have hl : order.load bytes < 2 ^ 32 := order.load_lt h
  rw [UInt32.toNat_ofNat', Nat.mod_eq_of_lt hl, order.store_load h]

/-- The masks of required fields are stored as they were loaded. -/
theorem storeRequired_loadRequired (order : ByteOrder) {bytes : List UInt8}
    (h : bytes.length = 296) : storeRequired order (loadRequired order bytes) = bytes := by
  have hs (i : Fin 37) : order.store 8 (loadRequired order bytes i).toNat =
      slice bytes (8 * i.val) 8 := by
    have hw : (slice bytes (8 * i.val) 8).length = 8 := by
      rw [slice, List.length_take, List.length_drop]
      omega
    have hl : order.load (slice bytes (8 * i.val) 8) < 2 ^ 64 := order.load_lt hw
    rw [loadRequired, BitVec.toNat_ofNat, Nat.mod_eq_of_lt hl, order.store_load hw]
  rw [storeRequired]
  simp only [hs]
  exact flatten_slices h

/-- A parameter that is set to data of its size has these bytes. -/
theorem storedValue_setParameterL {bytes : List UInt8}
    (h : settableSize parameter = some bytes.length) :
    (l.setParameterL order parameter (some bytes)).storedValue order parameter =
      some (some bytes) := by
  rw [settableSize] at h
  split_ifs at h with hm he hr
  · obtain hl : 4 = bytes.length := Option.some.inj h
    subst hm
    have hs : l.setParameterL order paramMethod (some bytes) =
        l.set { l.process.handle with method := UInt32.ofNat (order.load bytes) } := by
      simp only [setParameterL, hl, checkData_length, ↓reduceIte]
    rw [hs]
    exact congrArg (fun b ↦ some (some b)) (store_method order hl.symm)
  · obtain hl : 4 = bytes.length := Option.some.inj h
    subst he
    have hs : l.setParameterL order paramErrorMethod (some bytes) =
        l.set { l.process.handle with errorMethod := UInt32.ofNat (order.load bytes) } := by
      simp only [setParameterL, hl, checkData_length, ↓reduceIte]
      rfl
    rw [hs]
    exact congrArg (fun b ↦ some (some b)) (store_method order hl.symm)
  · obtain hl : 296 = bytes.length := Option.some.inj h
    subst hr
    have hs : l.setParameterL order paramRequired (some bytes) =
        { l with required := loadRequired order bytes } := by
      simp only [setParameterL, hl, checkData_length, ↓reduceIte]
      rfl
    rw [hs]
    exact congrArg (fun b ↦ some (some b)) (storeRequired_loadRequired order hl.symm)

/-- Other data changes no value. -/
theorem sameValues_setParameterL {data : Option (List UInt8)}
    (h : ∀ bytes, data = some bytes → settableSize parameter ≠ some bytes.length) :
    SameValues l (l.setParameterL order parameter data) := by
  have hn (size : Nat) (hs : settableSize parameter = some size) : checkData size data = none := by
    rw [checkData, Option.filter_eq_none_iff]
    intro bytes hb hl
    exact h bytes hb (hs.trans (congrArg some (of_decide_eq_true hl).symm))
  rw [setParameterL]
  split_ifs with hm hf he hr
  · rw [hn 4 (if_pos hm)]
    exact ⟨rfl, rfl⟩
  · exact ⟨rfl, rfl⟩
  · rw [hn 4 (by rw [he]; rfl)]
    exact ⟨rfl, rfl⟩
  · rw [hn 296 (by rw [hr]; rfl)]
    exact ⟨rfl, rfl⟩
  · exact ⟨rfl, rfl⟩

theorem setsParameter (data : Option (List UInt8)) : l.SetsParameter order parameter data where
  accepted := by
    rintro bytes rfl hs room hr
    have hv : (l.setParameterL order parameter (some bytes)).storedValue order parameter =
        some (some bytes) := storedValue_setParameterL hs
    have hw := @writeData_eq (some bytes) room nofun
    rw [getParameterL_eq, hv]
    exact hw.trans (if_pos hr)
  rejected := sameValues_setParameterL

/-- Reading and setting a parameter do what a client expects of its buffers, if and only if the
value is not a null pointer or the buffer to read it into has a byte. -/
theorem parameter_contract_iff (order : ByteOrder) (parameter : UInt32) (room : Nat)
    (data : Option (List UInt8)) (l : Library) :
    l.ReadsParameter order parameter room ∧ l.SetsParameter order parameter data ↔
      (l.storedValue order parameter = some none → 1 ≤ room) := by
  rw [readsParameter_iff, and_iff_left (setsParameter data)]

/-- In a handle that has not been initialised the server command is a null pointer; read into a
buffer of no bytes it writes one byte behind the buffer, and returns 1. -/
theorem getParameterL_fresh :
    Library.fresh.storedValue .little paramCommand = some none ∧
      Library.fresh.getParameterL .little paramCommand (some 0) = (1, [0]) ∧
      ¬Library.fresh.ReadsParameter .little paramCommand 0 := by
  refine ⟨rfl, rfl, fun h ↦ ?_⟩
  have := h.inside
  exact absurd this (by decide)

end Library

end LibGTop.Client
