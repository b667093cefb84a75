import LibGTop.Base.MaximalRuns
import LibGTop.Base.Sums
import LibGTop.Linux.Readers

/-!
# The state of an ISDN connection

`glibtop_get_ppp_s` (`sysdeps/linux/ppp.c:178–197`): whether a B-channel is established, by the line
`flags:` of `/dev/isdninfo`, and the bytes of all channels, whose sums the code keeps in an `int`.
-/

namespace LibGTop.Linux

open Base

/-- `glibtop_ppp`, `include/glibtop/ppp.h:44–50`. -/
structure Ppp where
  flags : BitVec 64 := 0
  state : BitVec 64 := 0
  bytesIn : BitVec 64 := 0
  bytesOut : BitVec 64 := 0
  deriving DecidableEq

/-- `GLIBTOP_PPP_STATE_HANGUP`. -/
def pppStateHangup : BitVec 64 := 1

/-- `GLIBTOP_PPP_STATE_ONLINE`. -/
def pppStateOnline : BitVec 64 := 2

/-- `flags:`. -/
def flagsKey : List UInt8 := asciiBytes "flags:".toList

/-- A field that is not `?` or `0`. -/
def isEstablished (field : List UInt8) : Bool := field ≠ [63] && field ≠ [48]

/-- The loop of `is_ISDN_on` over the fields, with what has been passed of one. A field that the end
of the string follows is not looked at. -/
def scanFields (field : List UInt8) : List UInt8 → Bool
  | [] => false
  | b :: text =>
    if isSpace b then
      if field ≠ [] ∧ isEstablished field then true else scanFields [] text
    else scanFields (field ++ [b]) text

/-- `is_ISDN_on`: `online` where the function returns `TRUE`. -/
def isIsdnOn (isdninfo : Option (List UInt8)) : Option Bool :=
  match isdninfo with
  | none => none
  | some file =>
    match (fgets bufsiz file)[4]? with
    | none => none
    | some line =>
      let buffer := cString line
      if flagsKey.isPrefixOf buffer then some (scanFields [] (buffer.drop 6)) else none

/-- The loop of `get_ISDN_stats` over the counters of the channels. -/
def addChannels (isdnStats : List (BitVec 64 × BitVec 64)) : BitVec 32 × BitVec 32 :=
  isdnStats.foldl (fun sums c ↦ (sums.1 + c.1.setWidth 32, sums.2 + c.2.setWidth 32)) (0, 0)

/-- `glibtop_get_ppp_s`; the counters are absent where `get_ISDN_stats` returns `FALSE`. -/
def glibtopGetPppS (isdninfo : Option (List UInt8))
    (isdnStats : Option (List (BitVec 64 × BitVec 64))) : Ppp :=
  let buf : Ppp :=
    match isIsdnOn isdninfo with
    | none => {}
    | some online =>
      { state := if online then pppStateOnline else pppStateHangup, flags := flagBits [0] }
  match isdnStats with
  | none => buf
  | some stats =>
    { buf with
      bytesIn := (addChannels stats).1.signExtend 64
      bytesOut := (addChannels stats).2.signExtend 64
      flags := buf.flags ||| flagBits [1, 2] }

/-- What `/dev/isdninfo` has: four lines, the one of the flags, and others. -/
structure IsdnStatus where
  before : List (List UInt8)
  fields : List UInt8
  behind : List (List UInt8)
  length_before : before.length = 4
  clean : ∀ line ∈ before ++ (flagsKey ++ fields) :: behind,
    10 ∉ line ∧ 0 ∉ line ∧ line.length + 1 < bufsiz

/-- The text of the device. -/
def IsdnStatus.text (s : IsdnStatus) : List UInt8 :=
  Base.text (s.before ++ (flagsKey ++ s.fields) :: s.behind)

/-- There is a B-channel: a field says so. -/
def IsdnStatus.Online (s : IsdnStatus) : Prop :=
  ∃ field ∈ runs (fun b ↦ !isSpace b) s.fields, field ≠ [63] ∧ field ≠ [48]

/-- A sum that an `int` holds, or one that is the extension of its sign by chance. -/
def SumFits (sum : Nat) : Prop :=
  sum < 0x80000000 ∨ 0xFFFFFFFF80000000 ≤ sum ∧ sum < 0x10000000000000000

theorem runs_field {field : List UInt8} (hf : ∀ b ∈ field, isSpace b = false) :
    (runs (fun b ↦ !isSpace b) field).any isEstablished =
      decide (field ≠ [] ∧ isEstablished field) := by
  by_cases hn : field = []
  · subst hn
    rfl
  · rw [runs_run hn fun b hb ↦ by rw [hf b hb]; rfl]
    simp [hn]

/-- The loop finds a field if there is one, all being followed by a blank. -/
theorem scanFields_eq (text : List UInt8) : ∀ field, (∀ b ∈ field, isSpace b = false) →
    scanFields field (text ++ [10]) =
      (runs (fun b ↦ !isSpace b) (field ++ text)).any isEstablished := by
  induction text with
  | nil =>
    intro field hf
    have h10 : isSpace 10 = true := by decide
    rw [List.nil_append, List.append_nil, scanFields, if_pos h10, runs_field hf]
    by_cases he : field ≠ [] ∧ isEstablished field
    · rw [if_pos he, decide_eq_true he]
    · rw [if_neg he, decide_eq_false he]
      rfl
  | cons b text ih =>
    intro field hf
    rw [List.cons_append, scanFields]
    by_cases hb : isSpace b
    · have hruns := runs_append_cons (p := fun b ↦ !isSpace b) field (by rw [hb]; rfl) text
      rw [if_pos hb, hruns, List.any_append, runs_field hf, ih [] nofun, List.nil_append]
      by_cases he : field ≠ [] ∧ isEstablished field
      · rw [if_pos he, decide_eq_true he, Bool.true_or]
      · rw [if_neg he, decide_eq_false he, Bool.false_or]
    · rw [if_neg hb, ih (field ++ [b]) ?_, List.append_assoc, List.singleton_append]
      intro c hc
      obtain hc | hc := List.mem_append.mp hc
      · exact hf c hc
      · obtain rfl := List.mem_singleton.mp hc
        exact Bool.eq_false_iff.mpr hb

/-- The state of the device. -/
theorem isIsdnOn_status (s : IsdnStatus) :
    isIsdnOn (some s.text) =
      some ((runs (fun b ↦ !isSpace b) s.fields).any isEstablished) := by
  have hfgets : fgets bufsiz s.text =
      (s.before ++ (flagsKey ++ s.fields) :: s.behind).map fun line ↦ line ++ [10] :=
    fgets_text fun line hline ↦ ⟨(s.clean line hline).1, (s.clean line hline).2.2⟩
  have hfifth : (fgets bufsiz s.text)[4]? = some (flagsKey ++ s.fields ++ [10]) := by
    rw [hfgets, List.getElem?_map, ← s.length_before, List.getElem?_append_right (Nat.le_refl _),
      Nat.sub_self]
    rfl
  have hzero : 0 ∉ flagsKey ++ s.fields ++ [10] := by
    have hclean := s.clean (flagsKey ++ s.fields) (by simp)
    rw [List.mem_append, List.mem_singleton]
    rintro (h | h)
    · exact hclean.2.1 h
    · exact absurd h (by decide)
  have hdrop : (flagsKey ++ s.fields ++ [10]).drop 6 = s.fields ++ [10] := by
    rw [List.append_assoc]
    exact List.drop_left' rfl
  have hkey : flagsKey.isPrefixOf (flagsKey ++ s.fields ++ [10]) :=
    List.isPrefixOf_iff_prefix.mpr (by rw [List.append_assoc]; exact List.prefix_append _ _)
  rw [isIsdnOn]
  simp only [hfifth, cString_eq_self hzero]
  rw [if_pos hkey, hdrop, scanFields_eq s.fields [] nofun, List.nil_append]

/-- The sums of the loop. -/
theorem addChannels_eq (stats : List (BitVec 64 × BitVec 64)) :
    addChannels stats = (BitVec.ofNat 32 (sumOf (fun c ↦ c.1.toNat) stats),
      BitVec.ofNat 32 (sumOf (fun c ↦ c.2.toNat) stats)) := by
  have hfold : ∀ start : BitVec 32 × BitVec 32,
      stats.foldl (fun sums c ↦ (sums.1 + c.1.setWidth 32, sums.2 + c.2.setWidth 32)) start =
        (start.1 + BitVec.ofNat 32 (sumOf (fun c ↦ c.1.toNat) stats),
          start.2 + BitVec.ofNat 32 (sumOf (fun c ↦ c.2.toNat) stats)) := by
    induction stats with
    | nil => exact fun start ↦ by simp [sumOf_nil]
    | cons c stats ih =>
      intro start
      rw [List.foldl_cons, ih, sumOf_cons, sumOf_cons, BitVec.ofNat_add, BitVec.ofNat_add,
        ← BitVec.ofNat_toNat, ← BitVec.ofNat_toNat, BitVec.add_assoc, BitVec.add_assoc]
  rw [addChannels, hfold]
  exact Prod.ext (BitVec.zero_add _) (BitVec.zero_add _)

/-- The number that is stored is the sum only if the sum fits. -/
theorem toNat_signExtend_sum (sum : Nat) :
    ((BitVec.ofNat 32 sum).signExtend 64).toNat = sum ↔ SumFits sum := by
  have hlow : (BitVec.ofNat 32 sum).toNat = sum % 2 ^ 32 := BitVec.toNat_ofNat ..
  have hlow64 : ((BitVec.ofNat 32 sum).setWidth 64).toNat = sum % 2 ^ 32 := by
    rw [BitVec.toNat_setWidth, hlow]
    omega
  rw [BitVec.toNat_signExtend, SumFits, hlow64, BitVec.msb_eq_decide, hlow]
  by_cases hmsb : 2 ^ 31 ≤ sum % 2 ^ 32
  · rw [decide_eq_true hmsb, if_pos rfl]
    omega
  · rw [decide_eq_false hmsb, if_neg Bool.false_ne_true]
    omega

end LibGTop.Linux
