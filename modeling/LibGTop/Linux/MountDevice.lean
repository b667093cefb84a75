import LibGTop.Base.Radix
import LibGTop.Linux.Mountlist

/-!
# Device numbers of mounts

The two versions of the list of mounted filesystems read the number behind `dev=` from
different places: the common one from the end of the key, the one of Linux from the byte
behind it, as `sizeof "dev="` counts the terminator.
-/

namespace LibGTop.Linux

open Base Common

/-- The device number in the options: the number that follows `dev=`, and -1 without one. -/
def deviceOf (opts : List UInt8) : BitVec 64 :=
  match strstr devKey opts with
  | some devopt => (strtoull 0 (devopt.drop devKey.length)).1
  | none => -1

/-- The entry that is to be listed for one of the mount table. -/
def entryOf (mnt : Mntent) : MountEntry :=
  { devname := copyName mnt.fsname
    mountdir := copyName mnt.dir
    type := copyName mnt.type
    dev := deviceOf mnt.opts }

/-- Both versions make this entry. -/
def EntriesAgree (mnt : Mntent) : Prop :=
  mountEntry mnt = entryOf mnt ∧ Common.mountEntry (listEntry mnt) = entryOf mnt

/-- A text is read as the same number from its second byte; of an empty one the second byte is
what the memory has behind the terminator. -/
def ReadsAlike (behind : List UInt8) : List UInt8 → Prop
  | [] => (strtoull 0 (cString behind)).1 = 0
  | c :: text => (strtoull 0 text).1 = (strtoull 0 (c :: text)).1

/-- What follows the key is read as the same number from its second byte. -/
def SameDevice (mnt : Mntent) : Prop :=
  ∀ value, strstr devKey mnt.opts = some (devKey ++ value) → ReadsAlike mnt.behind value

/-- A number as the options have it. -/
inductive DevNumber where
  | decimal (first : UInt8) (digits : List UInt8) (nonzero : first ≠ 48)
      (isDigits : ∀ c ∈ first :: digits, isDigitIn 10 c)
  | octal (digits : List UInt8) (isDigits : ∀ c ∈ digits, isDigitIn 8 c)
  | hexadecimal (digits : List UInt8) (nonempty : digits ≠ [])
      (isDigits : ∀ c ∈ digits, isDigitIn 16 c)

/-- The bytes of a number. -/
def DevNumber.text : DevNumber → List UInt8
  | .decimal first digits _ _ => first :: digits
  | .octal digits _ => 48 :: digits
  | .hexadecimal digits _ _ => 48 :: 120 :: digits

/-- The number that the bytes denote. -/
def DevNumber.value : DevNumber → Nat
  | .decimal first digits _ _ => digitsValue 10 (first :: digits)
  | .octal digits _ => digitsValue 8 digits
  | .hexadecimal digits _ _ => digitsValue 16 digits

/-- The number is the same without its first byte: it is 0, or octal and of at most one digit behind
the zero that marks it, or of more such zeros. -/
def DevNumber.KeepsValue : DevNumber → Prop
  | .decimal .. => False
  | .octal digits _ => digits.head? = some 48 ∨ digits.length ≤ 1
  | .hexadecimal digits _ _ => digitsValue 16 digits = 0

/-- The options end or go on with the next one. -/
def OptionEnds (rest : List UInt8) : Prop := ∀ c ∈ rest.head?, c = 44

theorem OptionEnds.stops {rest : List UInt8} (h : OptionEnds rest) : Stops rest := by
  intro c hc
  rw [h c hc]
  decide

theorem OptionEnds.endsOctal {rest : List UInt8} (h : OptionEnds rest) :
    ∀ c ∈ rest.head?, endsOctal c := by
  intro c hc
  rw [h c hc]
  decide

section

variable {mnt : Mntent} {value : List UInt8}

/-- What is found of the key in the options is the key and a text. -/
theorem devopt_eq {devopt : List UInt8} (h : strstr devKey mnt.opts = some devopt) :
    ∃ value, devopt = devKey ++ value ∧ 0 ∉ value := by
  obtain ⟨hp, hs⟩ := prefix_of_strstr h
  obtain ⟨value, rfl⟩ := hp
  refine ⟨value, rfl, fun h0 ↦ mnt.notMem_opts (hs.subset ?_)⟩
  exact List.mem_append_right devKey h0

theorem deviceOf_found (h : strstr devKey mnt.opts = some (devKey ++ value)) :
    deviceOf mnt.opts = (strtoull 0 value).1 := by
  rw [deviceOf, h]
  simp only [List.drop_left]

/-- Behind the key the common version reads the number. -/
theorem devOption_key (mnt : Mntent) : devOption 4 mnt = deviceOf mnt.opts := by
  cases h : strstr devKey mnt.opts with
  | none => rw [devOption, deviceOf, h]
  | some devopt =>
    obtain ⟨value, rfl, h0⟩ := devopt_eq h
    have hd : (devKey ++ value ++ 0 :: mnt.behind).drop 4 = value ++ 0 :: mnt.behind := by
      rw [List.append_assoc]
      exact List.drop_left' rfl
    rw [deviceOf_found h, devOption, h]
    simp only [hd, cString_append_zero value mnt.behind h0]

/-- One byte later the number is another one, where the two are not read alike. -/
theorem devOption_next_iff (mnt : Mntent) :
    devOption 5 mnt = deviceOf mnt.opts ↔ SameDevice mnt := by
  cases h : strstr devKey mnt.opts with
  | none =>
    refine iff_of_true ?_ fun value hv ↦ ?_
    · rw [devOption, deviceOf, h]
    · rw [h] at hv
      exact absurd hv nofun
  | some devopt =>
    obtain ⟨value, rfl, h0⟩ := devopt_eq h
    have hsame : SameDevice mnt ↔ ReadsAlike mnt.behind value := by
      refine ⟨fun hs ↦ hs value h, fun hr other ho ↦ ?_⟩
      rw [h, Option.some.injEq] at ho
      exact List.append_cancel_left ho ▸ hr
    have hd : (devKey ++ value ++ 0 :: mnt.behind).drop 5 =
        (value ++ 0 :: mnt.behind).drop 1 := by
      rw [List.append_assoc]
      rfl
    rw [hsame, deviceOf_found h, devOption, h]
    simp only [hd]
    cases value with
    | nil => exact Iff.rfl
    | cons c text =>
      have ht : (0 : UInt8) ∉ text := fun hm ↦ h0 (List.mem_cons_of_mem c hm)
      rw [List.cons_append, List.drop_one, List.tail_cons, cString_append_zero text _ ht]
      exact Iff.rfl

theorem entriesAgree_iff (mnt : Mntent) : EntriesAgree mnt ↔ SameDevice mnt := by
  rw [← devOption_next_iff]
  constructor
  · exact fun h ↦ congrArg MountEntry.dev h.1
  · intro h
    refine ⟨?_, ?_⟩
    · rw [mountEntry, h, entryOf]
    · rw [Common.mountEntry, listEntry, devOption_key, entryOf]

end

/-- More than one digit, the first of them no zero, denotes a larger number in base 10 than in 8. -/
theorem digitsValue_octal_lt {d : UInt8} {digits : List UInt8} (h0 : d ≠ 48) (hn : digits ≠ []) :
    digitsValue 8 (d :: digits) < digitsValue 10 (d :: digits) := by
  have hpos : 0 < digitValue d := digitValue_pos h0
  have hpow : 8 ^ digits.length < 10 ^ digits.length :=
    Nat.pow_lt_pow_left (by omega) (by rwa [Ne, List.length_eq_zero_iff])
  have hmul := Nat.mul_lt_mul_of_pos_left hpow hpos
  have hmono := digitsValue_mono (show 8 ≤ 10 by omega) digits
  rw [digitsValue_cons, digitsValue_cons]
  omega

section

variable {rest : List UInt8}

/-- Behind a number is none. -/
theorem strtoull_ended (h : OptionEnds rest) : (strtoull 0 rest).1 = 0 := by
  cases rest with
  | nil => rfl
  | cons c rest =>
    obtain rfl := h c rfl
    rfl

/-- What is read of a number in the options. -/
theorem strtoull_text (n : DevNumber) (h : OptionEnds rest) :
    (strtoull 0 (n.text ++ rest)).1 = clampUnsigned n.value := by
  cases n with
  | decimal first digits nonzero isDigits =>
    exact congrArg Prod.fst (strtoull_nonzero nonzero isDigits h.stops)
  | octal digits isDigits => exact congrArg Prod.fst (strtoull_octal isDigits h.endsOctal)
  | hexadecimal digits nonempty isDigits =>
    exact congrArg Prod.fst (strtoull_prefixed nonempty isDigits h.stops)

variable {behind : List UInt8}

/-- Without its first digit a decimal number is a smaller one. -/
theorem not_readsAlike_decimal {first : UInt8} {digits : List UInt8} (h0 : first ≠ 48)
    (hd : ∀ c ∈ first :: digits, isDigitIn 10 c) (h : OptionEnds rest)
    (hv : digitsValue 10 (first :: digits) < 2 ^ 64 - 1) :
    ¬ReadsAlike behind (first :: digits ++ rest) := by
  intro hr
  have hr : (strtoull 0 (digits ++ rest)).1 = (strtoull 0 (first :: digits ++ rest)).1 := hr
  have hpos := Nat.mul_pos (digitValue_pos h0) 
    (show 0 < 10 ^ digits.length from Nat.pow_pos (by omega))
  have hle : (strtoull 0 (digits ++ rest)).1.toNat ≤ digitsValue 10 digits := by
    by_cases hn : digits = []
    · subst hn
      rw [List.nil_append, strtoull_ended h]
      exact Nat.zero_le _
    · exact strtoull_digits_le (List.forall_mem_cons.mp hd).2 hn h.stops
  rw [hr, strtoull_nonzero h0 hd h.stops, toNat_clampUnsigned_min, digitsValue_cons] at hle
  rw [digitsValue_cons] at hv
  omega

/-- Without the zero that marks it an octal number is decimal, if no other zero follows. -/
theorem readsAlike_octal_iff {digits : List UInt8} (hd : ∀ c ∈ digits, isDigitIn 8 c)
    (h : OptionEnds rest) (hv : digitsValue 8 digits < 2 ^ 64 - 1) :
    ReadsAlike behind (48 :: digits ++ rest) ↔ digits.head? = some 48 ∨ digits.length ≤ 1 := by
  have hr : ReadsAlike behind (48 :: digits ++ rest) ↔
      (strtoull 0 (digits ++ rest)).1 = clampUnsigned (digitsValue 8 digits) := by
    have he : (strtoull 0 (48 :: digits ++ rest)).1 = clampUnsigned (digitsValue 8 digits) :=
      strtoull_text (.octal digits hd) h
    rw [← he]
    rfl
  rw [hr]
  cases digits with
  | nil => exact iff_of_true (strtoull_ended h) (.inr (Nat.zero_le 1))
  | cons d digits =>
    have hds := (List.forall_mem_cons.mp hd).2
    by_cases h0 : d = 48
    · subst h0
      have hv0 : digitsValue 8 (48 :: digits) = digitsValue 8 digits := by
        have hz : digitValue 48 = 0 := by decide
        rw [digitsValue_cons, hz, Nat.zero_mul, Nat.zero_add]
      refine iff_of_true ?_ (.inl rfl)
      rw [strtoull_octal hds h.endsOctal, hv0]
    · have h10 : ∀ c ∈ d :: digits, isDigitIn 10 c := by
        intro c hc
        have hc := hd c hc
        rw [isDigitIn, decide_eq_true_eq] at hc ⊢
        omega
      rw [strtoull_nonzero h0 h10 h.stops]
      cases digits with
      | nil => exact iff_of_true rfl (.inr le_rfl)
      | cons e digits =>
        have hlt := digitsValue_octal_lt h0 (List.cons_ne_nil e digits)
        refine iff_of_false (fun he ↦ ?_) (fun hor ↦ ?_)
        · have he := congrArg BitVec.toNat he
          rw [toNat_clampUnsigned_min, toNat_clampUnsigned_min] at he
          omega
        · obtain hh | hl := hor
          · exact h0 (Option.some.inj hh)
          · rw [List.length_cons, List.length_cons] at hl
            omega

/-- Without the zero that starts it a hexadecimal number is none. -/
theorem readsAlike_hexadecimal_iff {digits : List UInt8} (hn : digits ≠ [])
    (hd : ∀ c ∈ digits, isDigitIn 16 c) (h : OptionEnds rest)
    (hv : digitsValue 16 digits < 2 ^ 64 - 1) :
    ReadsAlike behind (48 :: 120 :: digits ++ rest) ↔ digitsValue 16 digits = 0 := by
  have h0 : (strtoull 0 (120 :: digits ++ rest)).1 = 0 := by
    have hx : ∀ b ∈ (120 :: digits ++ rest).head?, startsNone b := by
      intro b hb
      obtain rfl := Option.some.inj hb
      decide
    rw [strtoull_none (.inl rfl) hx]
  have hr : ReadsAlike behind (48 :: 120 :: digits ++ rest) ↔
      (strtoull 0 (120 :: digits ++ rest)).1 = clampUnsigned (digitsValue 16 digits) := by
    have he : (strtoull 0 (48 :: 120 :: digits ++ rest)).1 =
        clampUnsigned (digitsValue 16 digits) :=
      strtoull_text (.hexadecimal digits hn hd) h
    rw [← he]
    rfl
  rw [hr, h0]
  constructor
  · intro he
    have he := congrArg BitVec.toNat he
    rw [toNat_clampUnsigned_min] at he
    have hz : (0 : BitVec 64).toNat = 0 := rfl
    omega
  · intro he
    rw [he]
    rfl

/-- The numbers that are the same without their first bytes. -/
theorem readsAlike_text_iff (n : DevNumber) (h : OptionEnds rest) (hv : n.value < 2 ^ 64 - 1) :
    ReadsAlike behind (n.text ++ rest) ↔ n.KeepsValue := by
  cases n with
  | decimal first digits nonzero isDigits =>
    exact iff_of_false (not_readsAlike_decimal nonzero isDigits h hv) id
  | octal digits isDigits => exact readsAlike_octal_iff isDigits h hv
  | hexadecimal digits nonempty isDigits =>
    exact readsAlike_hexadecimal_iff nonempty isDigits h hv

end

/-- The list of Linux is the one that is to be made exactly when the numbers of its entries are read
alike from their second bytes. -/
theorem glibtopGetMountlistS_iff (filesystems utab : Option (List UInt8)) (mounts : List Mntent)
    (allFs : Bool) :
    (glibtopGetMountlistS filesystems utab (some mounts) allFs).2 =
        (mounts.filter (listed filesystems utab allFs)).map entryOf ↔
      ∀ mnt ∈ mounts, listed filesystems utab allFs mnt → SameDevice mnt := by
  have hentry : ∀ mnt, mountEntry mnt = entryOf mnt ↔ SameDevice mnt := by
    intro mnt
    rw [← entriesAgree_iff]
    refine ⟨fun h ↦ ⟨h, ?_⟩, And.left⟩
    rw [Common.mountEntry, listEntry, devOption_key, entryOf]
  simp only [glibtopGetMountlistS, Option.elim_some, List.map_inj_left, List.mem_filter, and_imp,
    hentry]

/-- The common list is the one that is to be made. -/
theorem commonMountlist_eq (first : Mntent) (more : List Mntent) (allFs : Bool) :
    (Common.glibtopGetMountlistS (some (first :: more)) allFs).2 =
      some (((first :: more).filter fun mnt ↦ allFs || !ignoreMountEntry (listEntry mnt)).map
        entryOf) := by
  have hentry : Common.mountEntry ∘ listEntry = entryOf := by
    funext mnt
    rw [Function.comp_apply, Common.mountEntry, listEntry, devOption_key, entryOf]
  have hlist : readFilesystemList (some (first :: more)) = some ((first :: more).map listEntry) := rfl
  rw [Common.glibtopGetMountlistS, hlist]
  simp only [List.filter_map, List.map_map, hentry]
  rfl

/-- Both versions make the same entry, with the number that follows `dev=`, exactly when what
follows is read as the same number from its second byte on. Of the numbers of any form only 0 and
the octal ones of one digit, or with more zeros before them, are. The common list is always the one
that is to be made, that of Linux exactly when this holds for what it lists. -/
theorem mount_entries_agree_iff (filesystems utab : Option (List UInt8)) (first : Mntent)
    (more : List Mntent) (allFs : Bool) :
    (∀ mnt, EntriesAgree mnt ↔ SameDevice mnt) ∧
      (∀ mnt (n : DevNumber) rest, OptionEnds rest → n.value < 2 ^ 64 - 1 →
        strstr devKey mnt.opts = some (devKey ++ (n.text ++ rest)) →
          (EntriesAgree mnt ↔ n.KeepsValue)) ∧
      (Common.glibtopGetMountlistS (some (first :: more)) allFs).2 =
        some (((first :: more).filter fun mnt ↦ allFs || !ignoreMountEntry (listEntry mnt)).map
          entryOf) ∧
      ((glibtopGetMountlistS filesystems utab (some (first :: more)) allFs).2 =
          ((first :: more).filter (listed filesystems utab allFs)).map entryOf ↔
        ∀ mnt ∈ first :: more, listed filesystems utab allFs mnt → SameDevice mnt) := by
  refine ⟨entriesAgree_iff, fun mnt n rest h hv hs ↦ ?_, commonMountlist_eq first more allFs,
    glibtopGetMountlistS_iff filesystems utab (first :: more) allFs⟩
  rw [entriesAgree_iff, ← readsAlike_text_iff n h hv]
  refine ⟨fun hsame ↦ hsame _ hs, fun hr value hv ↦ ?_⟩
  rw [hs, Option.some.injEq] at hv
  exact List.append_cancel_left hv ▸ hr

/-- Of `dev=22` the version of Linux makes the device 2. -/
theorem mount_entries_disagree : ¬∀ mnt, mountEntry mnt = Common.mountEntry (listEntry mnt) := by
  intro h
  have hd := congrArg MountEntry.dev (h
    { fsname := [47], dir := [47], type := [120], opts := devKey ++ [50, 50], behind := []
      notMem_opts := by decide })
  exact absurd hd (by decide)

end LibGTop.Linux
