import LibGTop.Base.Sums

/-!
# Counts of pages that are swapped

The part of `glibtop_get_swap_p` that reports `pagein` and `pageout`, of which `sysdeps/bsd/swap.c`
and `sysdeps/openbsd/swap.c` have a copy each, and the runs of its calls: two variables that every
call in the process shares keep what the last one read.
-/

namespace LibGTop.Bsd

/-- `glibtop_swap`. -/
structure Swap where
  flags : BitVec 64 := 0
  total : BitVec 64 := 0
  used : BitVec 64 := 0
  free : BitVec 64 := 0
  pagein : BitVec 64 := 0
  pageout : BitVec 64 := 0

/-- The counters of the kernel, and the variables `swappgsin` and `swappgsout`. -/
structure PageCounters where
  ins : BitVec 32
  outs : BitVec 32
  deriving DecidableEq

/-- The types of the counters: `int`, and `u_int`. -/
inductive CounterType
  | int
  | uInt

namespace CounterType

/-- A counter that is assigned to a `guint64`. -/
def widen : CounterType → BitVec 32 → BitVec 64
  | int, counter => counter.signExtend 64
  | uInt, counter => counter.setWidth 64

/-- The value of a counter. -/
def value : CounterType → BitVec 32 → Int
  | int, counter => counter.toInt
  | uInt, counter => counter.toNat

end CounterType

/-- No page is swapped yet. -/
def PageCounters.zero : PageCounters := ⟨0, 0⟩

/-- `static int swappgsin = -1` and `static int swappgsout = -1`. -/
def PageCounters.initial : PageCounters := ⟨-1, -1⟩

/-- The counts that are reported. -/
def paging (type : CounterType) (statics counters : PageCounters) : BitVec 64 × BitVec 64 :=
  if statics.ins.slt 0 then (0, 0)
  else (type.widen (counters.ins - statics.ins), type.widen (counters.outs - statics.outs))

section

variable {type : CounterType}

@[simp] theorem CounterType.widen_zero : type.widen 0 = 0 := by cases type <;> rfl

theorem CounterType.widen_inj {a b : BitVec 32} : type.widen a = type.widen b ↔ a = b := by
  refine ⟨fun h ↦ ?_, fun h ↦ h ▸ rfl⟩
  cases type with
  | int =>
    have hvalue := congrArg BitVec.toInt h
    rw [widen, widen, BitVec.toInt_signExtend_of_le (by decide),
      BitVec.toInt_signExtend_of_le (by decide)] at hvalue
    exact BitVec.eq_of_toInt_eq hvalue
  | uInt =>
    have hvalue := congrArg (BitVec.setWidth 32) h
    rwa [widen, widen, BitVec.setWidth_setWidth_of_le _ (by decide), BitVec.setWidth_eq,
      BitVec.setWidth_setWidth_of_le _ (by decide), BitVec.setWidth_eq] at hvalue

theorem sub_eq_self_iff {a b : BitVec 32} : a - b = a ↔ b = 0 := by
  constructor <;> intro h <;> bv_omega

/-- The counts since the system booted. -/
def CounterType.counts (type : CounterType) (counters : PageCounters) : BitVec 64 × BitVec 64 :=
  (type.widen counters.ins, type.widen counters.outs)

/-- Both counters are at least those of another reading. -/
def CounterType.Le (type : CounterType) (first second : PageCounters) : Prop :=
  type.value first.ins ≤ type.value second.ins ∧ type.value first.outs ≤ type.value second.outs

instance CounterType.decidableLe (first second : PageCounters) : Decidable (type.Le first second) :=
  inferInstanceAs (Decidable (_ ∧ _))

theorem paging_zero (counters : PageCounters) :
    paging type .zero counters = type.counts counters := by
  have hsub : ∀ a : BitVec 32, a - 0 = a := fun a ↦ BitVec.sub_zero a
  rw [paging, if_neg (by decide), PageCounters.zero, hsub, hsub]
  rfl

/-- Behind a negative variable the counts are right while no page is swapped. -/
theorem paging_negative {statics : PageCounters} (h : statics.ins.slt 0 = true)
    (counters : PageCounters) :
    paging type statics counters = type.counts counters ↔ counters = .zero := by
  rw [paging, if_pos h]
  constructor
  · intro he
    obtain ⟨hins, houts⟩ := Prod.mk.inj he
    rw [← type.widen_zero, CounterType.widen_inj] at hins houts
    cases counters
    exact congrArg₂ PageCounters.mk hins.symm houts.symm
  · rintro rfl
    rw [CounterType.counts, PageCounters.zero, CounterType.widen_zero]

/-- Behind another variable they are right when it is the start of the counts. -/
theorem paging_nonNegative {statics : PageCounters} (h : ¬statics.ins.slt 0 = true)
    (counters : PageCounters) :
    paging type statics counters = type.counts counters ↔ statics = .zero := by
  rw [paging, if_neg h, CounterType.counts, Prod.mk.injEq, CounterType.widen_inj,
    CounterType.widen_inj, sub_eq_self_iff, sub_eq_self_iff]
  cases statics
  exact PageCounters.mk.injEq _ _ _ _ ▸ Iff.rfl

/-- No page is swapped in between two readings without one. -/
theorem eq_zero_of_le {counters : PageCounters} (hlow : type.Le .zero counters)
    (hhigh : type.Le counters .zero) : counters = .zero := by
  have hvalue : ∀ a : BitVec 32, type.value a = type.value 0 → a = 0 := by
    intro a ha
    cases type with
    | int => exact BitVec.eq_of_toInt_eq ha
    | uInt => exact BitVec.eq_of_toNat_eq (Int.ofNat.inj ha)
  obtain ⟨ins, outs⟩ := counters
  rw [hvalue ins (Int.le_antisymm hhigh.1 hlow.1), hvalue outs (Int.le_antisymm hhigh.2 hlow.2)]
  rfl

end

/-- The counts that are reported of the readings in a run are those since the system booted. -/
def RightFrom (type : CounterType) : PageCounters → List PageCounters → Prop
  | _, [] => True
  | statics, counters :: readings =>
    paging type statics counters = type.counts counters ∧ RightFrom type counters readings

/-- The first reading, and every one but the last, is before a page is swapped. -/
def Idle (readings : List PageCounters) : Prop :=
  (∀ counters ∈ readings.head?, counters = .zero) ∧
    ∀ counters ∈ readings.dropLast, counters = .zero

instance decidableIdle (readings : List PageCounters) : Decidable (Idle readings) :=
  inferInstanceAs (Decidable (_ ∧ _))

section

variable {type : CounterType} {readings : List PageCounters}

/-- From the start of the counts on, they are right up to the first reading behind one with a
page. -/
theorem rightFrom_zero (h : (PageCounters.zero :: readings).Pairwise type.Le) :
    RightFrom type .zero readings ↔ ∀ counters ∈ readings.dropLast, counters = .zero := by
  induction readings with
  | nil => exact iff_of_true trivial (List.forall_mem_nil _)
  | cons first rest ih =>
    rw [RightFrom, and_iff_right (paging_zero first)]
    cases rest with
    | nil => exact iff_of_true trivial (List.forall_mem_nil _)
    | cons second rest =>
      rw [List.dropLast_cons_cons, List.forall_mem_cons]
      obtain ⟨hzero, hrest⟩ := List.pairwise_cons.mp h
      obtain ⟨hfirst, hrest'⟩ := List.pairwise_cons.mp hrest
      by_cases hf : first = .zero
      · subst hf
        rw [ih hrest, and_iff_right rfl]
      · refine iff_of_false (fun hr ↦ hf ?_) (fun hr ↦ hf hr.1)
        by_cases hn : first.ins.slt 0 = true
        · have hsecond := (paging_negative hn second).mp hr.1
          exact eq_zero_of_le (hzero first List.mem_cons_self)
            (hsecond ▸ hfirst second List.mem_cons_self)
        · exact (paging_nonNegative hn second).mp hr.1

theorem rightFrom_initial (h : readings.Pairwise type.Le) :
    RightFrom type .initial readings ↔ Idle readings := by
  cases readings with
  | nil => exact iff_of_true trivial ⟨nofun, List.forall_mem_nil _⟩
  | cons first rest =>
    rw [RightFrom, paging_negative (by decide)]
    by_cases hf : first = .zero
    · subst hf
      rw [and_iff_right rfl, rightFrom_zero h, Idle]
      cases rest with
      | nil => simp
      | cons second rest => simp
    · exact iff_of_false (fun hr ↦ hf hr.1) fun hi ↦ hf (hi.1 first rfl)

end

section

variable {Reads : Type} (get : BitVec 64 → Reads → PageCounters → Swap × PageCounters)
  (reading : Reads → Option PageCounters)

/-- What a system's `glibtop_get_swap_p` does with the counters that it reads: it goes by the
features of the server and by whether they can be read. -/
structure CountsPages (type : CounterType) : Prop where
  unread : ∀ {features reads}, features = 0 ∨ reading reads = none → ∀ statics,
    (get features reads statics).2 = statics
  counted : ∀ {features reads counters}, features ≠ 0 → reading reads = some counters →
    ∀ statics, (get features reads statics).2 = counters ∧
      ((get features reads statics).1.pagein, (get features reads statics).1.pageout) =
        paging type statics counters

variable (servers : Nat → BitVec 64)

/-- What the calls of a process return, each for one of its users. -/
def runCalls : PageCounters → List (Nat × Reads) → List Swap
  | _, [] => []
  | statics, (user, reads) :: calls =>
    let (buf, statics) := get (servers user) reads statics
    buf :: runCalls statics calls

/-- The counters that a call reads. -/
def countersRead (call : Nat × Reads) : Option PageCounters :=
  if servers call.1 = 0 then none else reading call.2

/-- Every call of a run that reads the counters returns them. -/
def Documented (type : CounterType) (statics : PageCounters) (calls : List (Nat × Reads)) : Prop :=
  ∀ entry ∈ calls.zip (runCalls get servers statics calls),
    ∀ counters ∈ countersRead reading servers entry.1,
      (entry.2.pagein, entry.2.pageout) = type.counts counters

variable {get reading servers}

theorem documented_iff_rightFrom {type : CounterType} (h : CountsPages get reading type)
    (statics : PageCounters) (calls : List (Nat × Reads)) :
    Documented get reading servers type statics calls ↔
      RightFrom type statics (calls.filterMap (countersRead reading servers)) := by
  induction calls generalizing statics with
  | nil => exact iff_of_true (List.forall_mem_nil _) trivial
  | cons call calls ih =>
    obtain ⟨user, reads⟩ := call
    have hsplit : Documented get reading servers type statics ((user, reads) :: calls) ↔
        (∀ counters ∈ countersRead reading servers (user, reads),
          ((get (servers user) reads statics).1.pagein,
            (get (servers user) reads statics).1.pageout) = type.counts counters) ∧
        Documented get reading servers type (get (servers user) reads statics).2 calls :=
      List.forall_mem_cons
    rw [hsplit, ih]
    cases hread : countersRead reading servers (user, reads) with
    | none =>
      have hun : servers user = 0 ∨ reading reads = none := by
        rw [countersRead] at hread
        split at hread
        · next hz => exact .inl hz
        · exact .inr hread
      rw [List.filterMap_cons_none hread, h.unread hun]
      exact and_iff_right fun counters hc ↦ absurd hc.symm (Option.some_ne_none counters)
    | some counters =>
      have hun : servers user ≠ 0 ∧ reading reads = some counters := by
        rw [countersRead] at hread
        split at hread
        · exact absurd hread.symm (Option.some_ne_none counters)
        · next hz => exact ⟨hz, hread⟩
      obtain ⟨hstatics, hpages⟩ := h.counted hun.1 hun.2 statics
      rw [List.filterMap_cons_some hread, hstatics, hpages, RightFrom]
      refine and_congr_left' ⟨fun hc ↦ hc counters rfl, fun hc c hm ↦ ?_⟩
      obtain rfl := Option.mem_some_iff.mp hm
      exact hc

/-- The counts are right in a run exactly when only its last reading is behind a swapped page. -/
theorem documented_iff {type : CounterType} (h : CountsPages get reading type)
    {calls : List (Nat × Reads)}
    (hmono : (calls.filterMap (countersRead reading servers)).Pairwise type.Le) :
    Documented get reading servers type .initial calls ↔
      Idle (calls.filterMap (countersRead reading servers)) :=
  (documented_iff_rightFrom h .initial calls).trans (rightFrom_initial hmono)

end

end LibGTop.Bsd
