import LibGTop.Base.Formats
import LibGTop.Wire.Messages

/-!
# The greeting of a server

`glibtop_send_version` (`src/daemon/version.c:29–66`): the length of a text and the
text, which names the two versions and the sizes of four structures
(`LIBGTOP_VERSION_STRING`, `include/glibtop/version.h:27`). The length is a
`size_t`, so it lies in memory as the platform has it.
-/

namespace LibGTop.Wire

open Base

/-- The bytes of text. -/
def literal (text : String) : List UInt8 := asciiBytes text.toList

/-- The text of a version: without blanks and terminators. -/
abbrev VersionText : Type := { text : List UInt8 // 0 ∉ text ∧ 32 ∉ text }

/-- What a build takes from its platform: the byte order, whether `size_t` has 64 bits, and the
sizes of `glibtop_response_union` and of `glibtop_union`. -/
structure Platform where
  order : ByteOrder
  wide : Bool
  responseUnion : Nat
  responseUnion_ge : 296 ≤ responseUnion
  responseUnion_lt : responseUnion < 2 ^ 31
  union : UInt32
  deriving DecidableEq

/-- `sizeof (size_t)`. -/
def Platform.sizeT (p : Platform) : Nat := if p.wide then 8 else 4

/-- What the protocol depends on of the platform, with the `BUFSIZ` of the GNU C library. -/
def Platform.abi (p : Platform) : Abi where
  order := p.order
  bufsiz := linuxAbi.bufsiz
  bufsiz_ge := linuxAbi.bufsiz_ge
  bufsiz_lt := linuxAbi.bufsiz_lt
  unionSize := p.responseUnion
  unionSize_ge := p.responseUnion_ge
  unionSize_lt := p.responseUnion_lt

/-- `sizeof (glibtop_sysdeps)`. -/
def sizeofSysdeps : Nat := 296

/-- The literal texts behind the six conversions of `LIBGTOP_VERSION_STRING`. -/
def versionLiterals : List (List UInt8) :=
  [literal " server version ", literal " (", literal ",", literal ",", literal ",", literal ")."]

/-- What is printed for them: `LIBGTOP_VERSION`, `LIBGTOP_SERVER_VERSION` and the sizes. -/
def versionFields (p : Platform) (version serverVersion : VersionText) : List (List UInt8) :=
  [version.val, serverVersion.val, asciiBytes (numeral sizeofCommand),
    asciiBytes (numeral (sizeofResponse p.abi)), asciiBytes (numeral p.union.toNat),
    asciiBytes (numeral sizeofSysdeps)]

/-- The text `sprintf` writes. -/
def versionText (p : Platform) (version serverVersion : VersionText) : List UInt8 :=
  literal "Libgtop " ++ formatText (versionFields p version serverVersion) versionLiterals

/-- A build of the library or of a server: its text fits `buffer`. -/
structure Build where
  platform : Platform
  version : VersionText
  serverVersion : VersionText
  fits : (versionText platform version serverVersion).length < platform.abi.bufsiz
  deriving DecidableEq

namespace Build

/-- The text of the greeting. -/
def text (b : Build) : List UInt8 := versionText b.platform b.version b.serverVersion

/-- `size`, `src/daemon/version.c:42` and `lib/open.c:130`. -/
def size (b : Build) : Nat := b.text.length + 1

/-- The length as it lies in memory. -/
def sizeField (b : Build) : List UInt8 := b.platform.order.store b.platform.sizeT b.size

/-- The bytes of the greeting, `src/daemon/version.c:46–65`. -/
def greeting (b : Build) : List UInt8 := b.sizeField ++ (b.text ++ [0])

variable (b c : Build)

theorem size_lt : b.size < 2 ^ 16 := by
  have h : b.text.length < 8192 := b.fits
  rw [size]
  omega

theorem size_pos : 0 < b.size := Nat.succ_pos _

/-- The text starts as that of any build. -/
theorem text_eq : b.text = 76 :: 105 :: b.text.drop 2 := rfl

theorem length_sizeField : b.sizeField.length = b.platform.sizeT :=
  b.platform.order.length_store _ _

theorem sizeT_cases : b.platform.sizeT = 4 ∨ b.platform.sizeT = 8 := by
  rw [Platform.sizeT]
  cases b.platform.wide
  · exact .inl rfl
  · exact .inr rfl

/-- The fields of a build end where the text behind them starts. -/
theorem endsAt_fields : List.Forall₂ EndsAt
    (versionFields b.platform b.version b.serverVersion) versionLiterals := by
  have hn : ∀ (value : Nat) (c : UInt8) (rest : List UInt8), c.toNat < 48 →
      EndsAt (asciiBytes (numeral value)) (c :: rest) := fun value c rest hc ↦
    ⟨c, rest, rfl, notMem_numeral value hc⟩
  refine .cons ⟨32, _, rfl, b.version.property.2⟩ (.cons ⟨32, _, rfl, b.serverVersion.property.2⟩
    (.cons ?_ (.cons ?_ (.cons ?_ (.cons ?_ .nil)))))
  · exact hn _ 44 [] (by decide)
  · exact hn _ 44 [] (by decide)
  · exact hn _ 44 [] (by decide)
  · exact hn _ 41 [46] (by decide)

variable {b c}

/-- A build is determined by its text and by how it stores a length. -/
theorem eq_of_text (ho : b.platform.order = c.platform.order)
    (hw : b.platform.wide = c.platform.wide) (ht : b.text = c.text) : b = c := by
  have he : formatText (versionFields b.platform b.version b.serverVersion) versionLiterals ++ [] =
      formatText (versionFields c.platform c.version c.serverVersion) versionLiterals ++ [] :=
    congrArg (· ++ []) (List.append_cancel_left ht)
  have hf := (formatText_inj b.endsAt_fields c.endsAt_fields he).1
  simp only [versionFields, List.cons.injEq, and_true, true_and] at hf
  obtain ⟨hv, hs, hr, hu⟩ := hf
  have hresponse : b.platform.responseUnion = c.platform.responseUnion := by
    have h := numeral_inj hr
    simp only [sizeofResponse, Platform.abi] at h
    omega
  have hunion : b.platform.union = c.platform.union := UInt32.toNat_inj.mp (numeral_inj hu)
  obtain ⟨⟨_, _, _, _, _, _⟩, _, _, _⟩ := b
  obtain ⟨⟨_, _, _, _, _, _⟩, _, _, _⟩ := c
  obtain rfl := Subtype.ext hv
  obtain rfl := Subtype.ext hs
  simp only at ho hw hresponse hunion
  subst ho hw hresponse hunion
  rfl

/-- The bytes of a length: two that may be set, and zeros on the other side. -/
theorem sizeField_eq (b : Build) :
    b.sizeField =
      match b.platform.order with
      | .little => UInt8.ofNat b.size :: UInt8.ofNat (b.size / 256) :: zeros (b.platform.sizeT - 2)
      | .big =>
        zeros (b.platform.sizeT - 2) ++ [UInt8.ofNat (b.size / 256), UInt8.ofNat b.size] := by
  have hs := b.size_lt
  have hz : ∀ width, lowBytes width (b.size / 256 / 256) = zeros width := by
    intro width
    have h0 : b.size / 256 / 256 = 0 := by omega
    rw [h0]
    induction width with
    | zero => rfl
    | succ width ih =>
      rw [lowBytes, Nat.zero_div, ih]
      rfl
  obtain ⟨k, hk⟩ : ∃ k, b.platform.sizeT = k + 2 := by
    obtain h | h := b.sizeT_cases
    · exact ⟨2, h⟩
    · exact ⟨6, h⟩
  have hl : lowBytes b.platform.sizeT b.size =
      UInt8.ofNat b.size :: UInt8.ofNat (b.size / 256) :: zeros (b.platform.sizeT - 2) := by
    rw [hk, lowBytes, lowBytes, hz]
    rfl
  rw [sizeField]
  cases b.platform.order with
  | little => exact hl
  | big =>
    simp only [ByteOrder.store, hl, List.reverse_cons, zeros, List.reverse_replicate,
      List.append_assoc, List.cons_append, List.nil_append]

/-- The two bytes of a length determine it, and they are not both zero. -/
theorem size_bytes {b c : Build} (hlo : UInt8.ofNat b.size = UInt8.ofNat c.size)
    (hhi : UInt8.ofNat (b.size / 256) = UInt8.ofNat (c.size / 256)) : b.size = c.size := by
  have hb := b.size_lt
  have hc := c.size_lt
  have hlo := UInt8.toNat_inj.mpr hlo
  have hhi := UInt8.toNat_inj.mpr hhi
  simp only [UInt8.toNat_ofNat'] at hlo hhi
  omega

theorem size_ne_zero (b : Build) (hlo : UInt8.ofNat b.size = 0)
    (hhi : UInt8.ofNat (b.size / 256) = 0) : False := by
  have hb := b.size_lt
  have hp := b.size_pos
  have hlo := UInt8.toNat_inj.mpr hlo
  have hhi := UInt8.toNat_inj.mpr hhi
  simp only [UInt8.toNat_ofNat', UInt8.toNat_zero] at hlo hhi
  omega

/-- What starts with the length of a build starts with its own: the two store a length alike, or a
little-endian reader has the shorter one and leaves the zeros of the other. -/
theorem sizeField_prefix {b c : Build} {rest : List UInt8}
    (h : c.sizeField <+: b.greeting ++ rest) :
    c.platform.order = b.platform.order ∧ c.size = b.size ∧
      (c.platform.wide = b.platform.wide ∨ b.sizeField = c.sizeField ++ zeros 4) := by
  have hcs := c.sizeField_eq
  have hbs := b.sizeField_eq
  rw [Platform.sizeT] at hcs hbs
  rw [greeting, List.append_assoc, hcs, hbs, text_eq b] at h
  cases hc : c.platform.order with
  | little =>
    cases hb : b.platform.order with
    | little =>
      cases hcw : c.platform.wide <;> cases hbw : b.platform.wide <;>
        simp [hc, hb, hcw, hbw, zeros, List.replicate_succ] at h hcs hbs ⊢
      · exact size_bytes h.1 h.2
      · exact ⟨size_bytes h.1 h.2, by simp [hcs, hbs, h.1, h.2]⟩
      · exact size_bytes h.1 h.2
    | big =>
      -- the first two bytes of a big-endian length are zero
      have hz : UInt8.ofNat c.size = 0 ∧ UInt8.ofNat (c.size / 256) = 0 := by
        cases hcw : c.platform.wide <;> cases hbw : b.platform.wide <;>
          simp [hc, hb, hcw, hbw, zeros, List.replicate_succ] at h <;> simp [h]
      exact (c.size_ne_zero hz.1 hz.2).elim
  | big =>
    cases hb : b.platform.order with
    | little =>
      -- the first two bytes of a little-endian one are not
      have hz : UInt8.ofNat b.size = 0 ∧ UInt8.ofNat (b.size / 256) = 0 := by
        cases hcw : c.platform.wide <;> cases hbw : b.platform.wide <;>
          simp [hc, hb, hcw, hbw, zeros, List.replicate_succ] at h <;> simp [← h.1, ← h.2.1]
      exact (b.size_ne_zero hz.1 hz.2).elim
    | big =>
      cases hcw : c.platform.wide <;> cases hbw : b.platform.wide <;>
        simp [hc, hb, hcw, hbw, zeros, List.replicate_succ] at h ⊢
      · exact size_bytes h.2 h.1
      · exact (c.size_ne_zero h.2 h.1).elim
      · exact size_bytes h.2 h.1

end Build

end LibGTop.Wire
