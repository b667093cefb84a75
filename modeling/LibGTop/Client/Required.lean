import LibGTop.Base.Runs
import LibGTop.Client.Handle

/-!
# Required fields

The check for missing fields that `lib/lib.pl` generates at the end of every
getter: a guard (`lib/lib.pl:221–236`) and `_glibtop_missing_feature`
(`lib/lib.pl:26–52`), on the mask of one feature in `server->required`. The guard
asks for a required field that is present before the function asks for one that
is not.
-/

namespace LibGTop.Client

open Base Wire

/-- `GLIBTOP_ERROR_METHOD_*`, `include/glibtop/open.h:45–48`. The field may hold any other
number. -/
def errorMethodIgnore : UInt32 := 0

@[inherit_doc errorMethodIgnore] def errorMethodWarnOnce : UInt32 := 1

@[inherit_doc errorMethodIgnore] def errorMethodWarn : UInt32 := 2

@[inherit_doc errorMethodIgnore] def errorMethodAbort : UInt32 := 3

/-- What the check tells the client: nothing, by `glibtop_warn_r`, or by `glibtop_error_r`, which
ends the process. -/
inductive Outcome
  | silent
  | warned
  | aborted
  deriving DecidableEq, Repr

/-- `_glibtop_missing_feature`, `lib/lib.pl:26–52`, with the mask it leaves in `required`. -/
def missingFeature (errorMethod : UInt32) (present required : BitVec 64) :
    Outcome × BitVec 64 :=
  if ~~~present &&& required = 0#64 then (.silent, required)
  else if errorMethod = errorMethodWarnOnce then (.warned, required &&& present)
  else if errorMethod = errorMethodWarn then (.warned, required)
  else if errorMethod = errorMethodAbort then (.aborted, required)
  else (.silent, required)

/-- The check at the end of a getter, `lib/lib.pl:221–236`. -/
def checkRequired (errorMethod : UInt32) (flags required : BitVec 64) : Outcome × BitVec 64 :=
  if flags &&& required ≠ 0#64 then missingFeature errorMethod flags required
  else (.silent, required)

/-- The feature masks of a `glibtop_sysdeps` in their order, `include/glibtop/sysdeps.h:70–98`. -/
def structFeatures : List Feature :=
  [.cpu, .mem, .swap, .uptime, .loadavg, .shmLimits, .msgLimits, .semLimits, .proclist,
    .procState, .procUid, .procMem, .procTime, .procSignal, .procKernel, .procSegment, .procArgs,
    .procMap, .procOpenFiles, .mountlist, .fsusage, .netlist, .netload, .ppp, .procWd,
    .procAffinity, .procIo, .disk]

theorem mem_structFeatures (f : Feature) : f ∈ structFeatures := by
  cases f <;> decide

/-- The masks of a `glibtop_sysdeps`: `flags`, `features`, one for each feature and seven that are
reserved. -/
abbrev Required := Fin 37 → BitVec 64

/-- The number of a feature's mask among these. -/
def field (f : Feature) : Fin 37 := ⟨structFeatures.idxOf f + 2, by cases f <;> decide⟩

/-- Each feature has a mask of its own. -/
theorem field_injective : Function.Injective field := by
  intro f g h
  have hi : structFeatures.idxOf f = structFeatures.idxOf g := by
    have hv := congrArg Fin.val h
    simp only [field] at hv
    omega
  exact (List.idxOf_inj (mem_structFeatures f)).mp hi

/-- After the result of a getter the client is told of missing fields exactly when a required
field is not among the flags, in the way of the error method. -/
def MissingDetected (errorMethod : UInt32) (flags required : BitVec 64) : Prop :=
  let outcome := (checkRequired errorMethod flags required).1
  (errorMethod = errorMethodWarn ∨ errorMethod = errorMethodWarnOnce →
    (outcome = .warned ↔ required &&& ~~~flags ≠ 0#64)) ∧
  (errorMethod = errorMethodAbort → (outcome = .aborted ↔ required &&& ~~~flags ≠ 0#64)) ∧
  (errorMethod = errorMethodIgnore → outcome = .silent)

/-- The error method reports missing fields. -/
def Reporting (errorMethod : UInt32) : Prop :=
  errorMethod = errorMethodWarn ∨ errorMethod = errorMethodWarnOnce ∨
    errorMethod = errorMethodAbort

/-- Nothing is required, or something of what is required is there, unless nothing is reported
anyway. -/
def NotAllMissing (errorMethod : UInt32) (flags required : BitVec 64) : Prop :=
  Reporting errorMethod → required ≠ 0#64 → flags &&& required ≠ 0#64

/-- What the check reports by a method that does report. -/
def reportOf (errorMethod : UInt32) : Outcome :=
  if errorMethod = errorMethodAbort then .aborted else .warned

/-- The check reports when some required field is there and some is not. -/
theorem checkRequired_outcome {errorMethod : UInt32} (hm : Reporting errorMethod)
    (flags required : BitVec 64) :
    (checkRequired errorMethod flags required).1 =
      if flags &&& required ≠ 0#64 ∧ required &&& ~~~flags ≠ 0#64 then reportOf errorMethod
      else .silent := by
  rw [checkRequired, missingFeature, BitVec.and_comm (~~~flags) required]
  by_cases hp : flags &&& required = 0#64
  · simp [hp]
  · by_cases ha : required &&& ~~~flags = 0#64
    · simp [hp, ha]
    · simp only [hp, ha, ne_eq, not_false_eq_true, and_self, if_true, if_false]
      obtain rfl | rfl | rfl := hm <;> rfl

/-- A method that does not report leaves everything as it is. -/
theorem checkRequired_of_not_reporting {errorMethod : UInt32} (hm : ¬Reporting errorMethod)
    (flags required : BitVec 64) : checkRequired errorMethod flags required = (.silent, required) := by
  have hw : errorMethod ≠ errorMethodWarn := fun h ↦ hm (.inl h)
  have ho : errorMethod ≠ errorMethodWarnOnce := fun h ↦ hm (.inr (.inl h))
  have ha : errorMethod ≠ errorMethodAbort := fun h ↦ hm (.inr (.inr h))
  simp [checkRequired, missingFeature, hw, ho, ha]

private theorem and_not_self_of_and_eq_zero {flags required : BitVec 64}
    (h : flags &&& required = 0#64) : required &&& ~~~flags = required := by
  apply BitVec.eq_of_getLsbD_eq
  intro i hi
  have hb := congrArg (fun m ↦ m.getLsbD i) h
  simp only [BitVec.getLsbD_and, BitVec.getLsbD_zero] at hb
  simp only [BitVec.getLsbD_and, BitVec.getLsbD_not, hi, decide_true, Bool.true_and]
  cases hf : flags.getLsbD i
  · simp
  · rw [hf, Bool.true_and] at hb
    simp [hb]

/-- Missing fields are detected exactly unless all that is required is missing. -/
theorem missing_detected_iff (errorMethod : UInt32) (flags required : BitVec 64) :
    MissingDetected errorMethod flags required ↔ NotAllMissing errorMethod flags required := by
  unfold MissingDetected NotAllMissing
  by_cases hm : Reporting errorMethod
  · have hr : ∀ o, o ≠ .silent → reportOf errorMethod = o →
        (((checkRequired errorMethod flags required).1 = o ↔ required &&& ~~~flags ≠ 0#64) ↔
          (required ≠ 0#64 → flags &&& required ≠ 0#64)) := by
      intro o ho he
      rw [checkRequired_outcome hm, he]
      by_cases hp : flags &&& required = 0#64
      · rw [and_not_self_of_and_eq_zero hp]
        simp [hp, ho.symm]
      · by_cases ha : required &&& ~~~flags = 0#64
        · simp [hp, ha, ho.symm]
        · simp [hp, ha]
    obtain rfl | rfl | rfl := hm
    · rw [← hr .warned (by decide) rfl]
      simp [Reporting, errorMethodWarn, errorMethodWarnOnce, errorMethodAbort, errorMethodIgnore]
    · rw [← hr .warned (by decide) rfl]
      simp [Reporting, errorMethodWarn, errorMethodWarnOnce, errorMethodAbort, errorMethodIgnore]
    · rw [← hr .aborted (by decide) rfl]
      simp [Reporting, errorMethodWarn, errorMethodWarnOnce, errorMethodAbort, errorMethodIgnore]
  · rw [checkRequired_of_not_reporting hm]
    constructor
    · exact fun _ h ↦ absurd h hm
    · refine fun _ ↦ ⟨fun h ↦ ?_, fun h ↦ absurd (.inr (.inr h)) hm, fun _ ↦ rfl⟩
      obtain h | h := h
      · exact absurd (.inl h) hm
      · exact absurd (.inr (.inl h)) hm

/-- A client that requires one field and gets none is not told. -/
theorem missing_all_silent : ¬MissingDetected errorMethodWarn 0#64 1#64 := by
  intro h
  have hw := (h.1 (.inl rfl)).mpr (by decide)
  exact absurd hw (by decide)

/-- The result of a getter: its feature and the flags it has returned. -/
structure Returned where
  feature : Feature
  flags : BitVec 64

/-- The check behind a result when every feature has its mask, by `GLIBTOP_ERROR_METHOD_WARN_ONCE`:
the masks it leaves. -/
def warnOnce (required : Required) (r : Returned) : Required :=
  Function.update required (field r.feature)
    (checkRequired errorMethodWarnOnce r.flags (required (field r.feature))).2

/-- The check behind this result reports bit `i` of what is required of `f` as missing: it warns,
and the bit is required but not there. -/
def reported (f : Feature) (i : Nat) (required : Required) (r : Returned) : Bool :=
  r.feature = f &&
    (checkRequired errorMethodWarnOnce r.flags (required (field f))).1 = .warned &&
    (required (field f)).getLsbD i && !r.flags.getLsbD i

/-- How often it is reported in a run of results. -/
def timesReported (f : Feature) (i : Nat) : Required → List Returned → Nat
  | _, [] => 0
  | required, r :: results =>
    (reported f i required r).toNat + timesReported f i (warnOnce required r) results

/-- One result takes from the masks exactly the bits it reports. -/
theorem getLsbD_warnOnce (f : Feature) (i : Nat) (required : Required) (r : Returned) :
    (warnOnce required r (field f)).getLsbD i =
      ((required (field f)).getLsbD i && !reported f i required r) := by
  by_cases hf : r.feature = f
  · subst hf
    simp only [warnOnce, reported, Function.update_self, decide_true, Bool.true_and]
    have hc := checkRequired_outcome (.inr (.inl rfl) : Reporting errorMethodWarnOnce) r.flags
      (required (field r.feature))
    rw [hc, checkRequired, missingFeature, BitVec.and_comm (~~~r.flags)]
    by_cases hp : r.flags &&& required (field r.feature) = 0#64
    · simp [hp]
    · by_cases ha : required (field r.feature) &&& ~~~r.flags = 0#64
      · simp [hp, ha]
      · have hw : reportOf errorMethodWarnOnce = .warned := rfl
        simp only [hp, ha, hw, ne_eq, not_false_eq_true, and_self, if_true, if_false,
          BitVec.getLsbD_and, decide_true, Bool.true_and]
        cases (required (field r.feature)).getLsbD i <;> simp
  · have hn : field f ≠ field r.feature := fun h ↦ hf (field_injective h).symm
    simp [warnOnce, reported, Function.update_of_ne hn, hf]

/-- What is required once reported is not required any more, and only what is required is
reported. -/
theorem timesReported_le (f : Feature) (i : Nat) (required : Required) (results : List Returned) :
    timesReported f i required results ≤ ((required (field f)).getLsbD i).toNat := by
  induction results generalizing required with
  | nil => exact Nat.zero_le _
  | cons r results ih =>
    have hi := ih (warnOnce required r)
    rw [getLsbD_warnOnce] at hi
    rw [timesReported]
    cases hr : reported f i required r with
    | false => simpa [hr] using hi
    | true =>
      have hb : (required (field f)).getLsbD i = true := by
        simp only [reported, Bool.and_eq_true] at hr
        exact hr.1.2
      rw [hr, hb] at hi
      have hz : timesReported f i (warnOnce required r) results = 0 := Nat.le_zero.mp hi
      rw [hz, hb, Nat.add_zero]

/-- In any run of results each required bit is reported at most once, none is added, and one that
disappears is reported by the check that takes it. -/
theorem warn_once_run (f : Feature) (i : Nat) (required : Required) (results : List Returned) :
    timesReported f i required results ≤ 1 ∧
      ∀ before r after, results = before ++ r :: after →
        let s := run warnOnce required before
        ((warnOnce s r (field f)).getLsbD i → (s (field f)).getLsbD i) ∧
        ((s (field f)).getLsbD i → ¬(warnOnce s r (field f)).getLsbD i → reported f i s r) := by
  constructor
  · exact Nat.le_trans (timesReported_le f i required results) (Bool.toNat_le _)
  · intro before r after _ s
    rw [getLsbD_warnOnce]
    cases reported f i s r <;> simp

end LibGTop.Client
