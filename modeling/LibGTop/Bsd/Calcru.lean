import LibGTop.Base.Scaling
import LibGTop.Bsd.ProcTime

/-!
# Times from ticks

When `calcru` (`sysdeps/bsd/proctime.c:58–105`) scales the running time of a process as over the
integers.
-/

namespace LibGTop.Bsd

open Base

/-- The microseconds of a time. -/
def Timeval.total (tv : Timeval) : Nat := tv.sec.toNat * 1000000 + tv.usec.toNat

theorem timevalOf_total (micros : BitVec 64) : (timevalOf micros).total = micros.toNat := by
  rw [timevalOf, Timeval.total, BitVec.toNat_udiv, BitVec.toNat_umod]
  exact Nat.div_add_mod' micros.toNat 1000000

/-- A word that is clamped at 0. -/
theorem toNat_clamp (word : BitVec 64) :
    (if word.slt 0 then 0 else word).toNat = word.toInt.toNat := by
  by_cases h : word.slt 0 = true
  · have hneg : word.toInt < 0 := BitVec.slt_iff_toInt_lt.mp h
    rw [if_pos h, Int.toNat_of_nonpos (Int.le_of_lt hneg)]
    rfl
  · have hsle : (0#64).sle word = true := by
      rw [BitVec.sle_eq_not_slt, Bool.not_eq_true', Bool.eq_false_iff]
      exact h
    rw [if_neg h, BitVec.toNat_toInt_of_sle hsle]

namespace Proc

/-- The running time in microseconds. -/
def runningTime (p : Proc) : Int := p.rtime.sec.toInt * 1000000 + p.rtime.usec.toInt

/-- The running time, clamped at 0. -/
def total (p : Proc) : Nat := p.runningTime.toNat

/-- The ticks of all kinds. -/
def ticks (p : Proc) : Nat := p.sticks.toNat + p.uticks.toNat + p.iticks.toNat

/-- The running time is in the range of `quad_t`, as its seconds are. -/
def TimeFits (p : Proc) : Prop :=
  (-(2 ^ 63) ≤ p.rtime.sec.toInt * 1000000 ∧ p.rtime.sec.toInt * 1000000 < 2 ^ 63) ∧
    -(2 ^ 63) ≤ p.runningTime ∧ p.runningTime < 2 ^ 63

/-- What is stored is computed as over the integers. -/
structure Scaled (p : Proc) (usage : Usage) : Prop where
  time : p.TimeFits
  user : usage.user.total = p.total * p.uticks.toNat / p.ticks
  system : usage.system.total =
    if p.ticks = 0 then p.total else p.total * p.sticks.toNat / p.ticks
  interrupt : ∀ tv ∈ usage.interrupt, tv.total = p.total * p.iticks.toNat / p.ticks
  parts : usage.user.total + usage.system.total + (usage.interrupt.elim 0 Timeval.total) ≤ p.total

/-- The products with the ticks of the parts that are asked for fit. -/
def ProductsFit (p : Proc) (ip : Bool) : Prop :=
  p.total * p.uticks.toNat < 2 ^ 64 ∧ p.total * p.sticks.toNat < 2 ^ 64 ∧
    (ip = true → p.total * p.iticks.toNat < 2 ^ 64)

/-- The running time as a word. -/
def totusec (p : Proc) : BitVec 64 :=
  let totusec := p.rtime.sec * 1000000 + p.rtime.usec
  if totusec.slt 0 then 0 else totusec

theorem toNat_totusec {p : Proc} (h : p.TimeFits) : p.totusec.toNat = p.total := by
  obtain ⟨⟨hlo, hhi⟩, hlow, hhigh⟩ := h
  have hsec : (p.rtime.sec * 1000000).toInt = p.rtime.sec.toInt * 1000000 := by
    rw [BitVec.toInt_mul]
    change (p.rtime.sec.toInt * 1000000).bmod (2 ^ 64) = _
    exact Int.bmod_eq_of_le_mul_two (by omega) (by omega)
  have hvalue : (p.rtime.sec * 1000000 + p.rtime.usec).toInt = p.runningTime := by
    rw [BitVec.toInt_add, hsec]
    change p.runningTime.bmod (2 ^ 64) = _
    exact Int.bmod_eq_of_le_mul_two (by omega) (by omega)
  rw [totusec, total, ← hvalue]
  exact toNat_clamp _

end Proc

section

variable {p : Proc} {ip : Bool}

/-- What `calcru` stores, where there are ticks. -/
theorem calcru_of_ticks (h : p.sticks + p.uticks + p.iticks ≠ 0) :
    calcru p ip =
      { system := timevalOf (p.totusec * p.sticks / (p.sticks + p.uticks + p.iticks))
        user := timevalOf (p.totusec * p.uticks / (p.sticks + p.uticks + p.iticks))
        interrupt := if ip then
            some (timevalOf (p.totusec * p.iticks / (p.sticks + p.uticks + p.iticks)))
          else none } := by
  simp only [calcru, if_neg h, Proc.totusec]

/-- Where there are none, all of the time is system time. -/
theorem calcru_of_noTicks (h : p.sticks + p.uticks + p.iticks = 0) :
    calcru p ip =
      { system := timevalOf (p.totusec * 1 / 1)
        user := timevalOf (p.totusec * p.uticks / 1)
        interrupt := if ip then some (timevalOf (p.totusec * p.iticks / 1)) else none } := by
  simp only [calcru, if_pos h, Proc.totusec]

theorem toNat_ticks (h : p.ticks < 2 ^ 64) :
    (p.sticks + p.uticks + p.iticks).toNat = p.ticks := by
  rw [Proc.ticks] at *
  rw [BitVec.toNat_add_of_lt, BitVec.toNat_add_of_lt]
  · omega
  · rw [BitVec.toNat_add_of_lt] <;> omega

/-- A part is scaled as over the integers where its product fits, and only there. -/
theorem part_eq_iff (ht : p.TimeFits) (h : p.ticks < 2 ^ 64) (hn : p.ticks ≠ 0)
    (ticks : BitVec 64) :
    (timevalOf (p.totusec * ticks / (p.sticks + p.uticks + p.iticks))).total =
        p.total * ticks.toNat / p.ticks ↔ p.total * ticks.toNat < 2 ^ 64 := by
  rw [timevalOf_total, BitVec.toNat_udiv, BitVec.toNat_mul, p.toNat_totusec ht, toNat_ticks h]
  exact div_mod_eq_iff (Nat.pos_of_ne_zero hn) (Nat.le_of_lt h)

theorem scaled_iff_of_ticks (h : p.ticks < 2 ^ 64) (hn : p.ticks ≠ 0) :
    p.Scaled (calcru p ip) ↔ p.TimeFits ∧ p.ProductsFit ip := by
  have hword : p.sticks + p.uticks + p.iticks ≠ 0 := fun he ↦ hn (by
    rw [← toNat_ticks h, he]
    rfl)
  rw [calcru_of_ticks hword]
  constructor
  · intro hs
    have ht := hs.time
    have hsystem := hs.system
    rw [if_neg hn] at hsystem
    refine ⟨ht, (part_eq_iff ht h hn _).mp hs.user, (part_eq_iff ht h hn _).mp hsystem, ?_⟩
    rintro rfl
    exact (part_eq_iff ht h hn _).mp (hs.interrupt _ rfl)
  · rintro ⟨ht, huser, hsystem, hinterrupt⟩
    have hu := (part_eq_iff ht h hn _).mpr huser
    have hs := (part_eq_iff ht h hn _).mpr hsystem
    have hi : ∀ tv ∈ (if ip then
        some (timevalOf (p.totusec * p.iticks / (p.sticks + p.uticks + p.iticks))) else none),
        tv.total = p.total * p.iticks.toNat / p.ticks := by
      intro tv htv
      cases ip with
      | false => exact absurd htv.symm (Option.some_ne_none tv)
      | true =>
        obtain rfl := Option.mem_some_iff.mp htv
        exact (part_eq_iff ht h hn _).mpr (hinterrupt rfl)
    have hsum : p.total * p.uticks.toNat / p.ticks + p.total * p.sticks.toNat / p.ticks +
        p.total * p.iticks.toNat / p.ticks ≤ p.total := by
      rw [Nat.add_comm (p.total * p.uticks.toNat / p.ticks)]
      exact scaled_parts_le p.total p.sticks.toNat p.uticks.toNat p.iticks.toNat
    refine ⟨ht, hu, hs.trans (if_neg hn).symm, hi, ?_⟩
    rw [hu, hs]
    cases ip with
    | false => exact Nat.le_trans (Nat.le_add_right _ _) hsum
    | true =>
      rw [if_pos rfl, Option.elim_some, hi _ rfl]
      exact hsum

theorem total_mul_zero (word : BitVec 64) : (timevalOf (word * 0 / 1)).total = 0 := by
  have hzero : word * 0 = 0 := BitVec.mul_zero
  rw [hzero]
  rfl

theorem total_mul_one (word : BitVec 64) : (timevalOf (word * 1 / 1)).total = word.toNat := by
  have hone : word * 1 = word := BitVec.mul_one word
  rw [timevalOf_total, hone, BitVec.toNat_udiv]
  exact Nat.div_one _

theorem scaled_iff_of_noTicks (h : p.ticks = 0) :
    p.Scaled (calcru p ip) ↔ p.TimeFits ∧ p.ProductsFit ip := by
  have hzero : ∀ {a : BitVec 64}, a.toNat = 0 → a = 0 := fun ha ↦ BitVec.eq_of_toNat_eq ha
  obtain ⟨hst, hut, hit⟩ : p.sticks.toNat = 0 ∧ p.uticks.toNat = 0 ∧ p.iticks.toNat = 0 := by
    rw [Proc.ticks] at h
    omega
  have hword : p.sticks + p.uticks + p.iticks = 0 := by
    rw [hzero hst, hzero hut, hzero hit]
    rfl
  have hfit : p.total * 0 < 2 ^ 64 := by
    rw [Nat.mul_zero]
    exact Nat.two_pow_pos 64
  rw [calcru_of_noTicks hword, hzero hut, hzero hit]
  constructor
  · intro hs
    refine ⟨hs.time, ?_⟩
    rw [Proc.ProductsFit, hst, hut, hit]
    exact ⟨hfit, hfit, fun _ ↦ hfit⟩
  · rintro ⟨ht, -⟩
    have hsystem : (timevalOf (p.totusec * 1 / 1)).total = p.total := by
      rw [total_mul_one, p.toNat_totusec ht]
    have hother : (timevalOf (p.totusec * 0 / 1)).total = 0 := total_mul_zero _
    have hdiv : 0 = p.total * 0 / p.ticks := by rw [Nat.mul_zero, Nat.zero_div]
    refine ⟨ht, ?_, ?_, ?_, ?_⟩
    · rw [hother, hut, ← hdiv]
    · rw [if_pos h]
      exact hsystem
    · intro tv htv
      cases ip with
      | false => exact absurd htv.symm (Option.some_ne_none tv)
      | true =>
        obtain rfl := Option.mem_some_iff.mp htv
        rw [hit, ← hdiv]
        exact hother
    · have hnone : (if ip then some (timevalOf (p.totusec * 0 / 1)) else none).elim 0
          Timeval.total = 0 := by
        cases ip with
        | false => rfl
        | true => rw [if_pos rfl, Option.elim_some, hother]
      exact Nat.le_of_eq (by rw [hother, hsystem, hnone, Nat.zero_add, Nat.add_zero])

/-- `calcru` scales as over the integers exactly when the running time is in range and so are its
products with the ticks. -/
theorem calcru_scaled_iff (h : p.sticks.toNat + p.uticks.toNat + p.iticks.toNat < 2 ^ 64) :
    p.Scaled (calcru p ip) ↔ p.TimeFits ∧ p.ProductsFit ip := by
  by_cases hn : p.ticks = 0
  · exact scaled_iff_of_noTicks hn
  · exact scaled_iff_of_ticks h hn

end

/-- A process that runs in user mode, at 100 ticks in a second. -/
def userProc (seconds : BitVec 64) : Proc :=
  { rtime := ⟨seconds, 0⟩
    uticks := seconds * 100
    sticks := 0
    iticks := 0
    stats := 0 }

instance Proc.decidableTimeFits (p : Proc) : Decidable p.TimeFits :=
  inferInstanceAs (Decidable (_ ∧ _))

instance Proc.decidableProductsFit (p : Proc) (ip : Bool) : Decidable (p.ProductsFit ip) :=
  inferInstanceAs (Decidable (_ ∧ _))

/-- One hour is scaled. -/
theorem calcru_scaled_hour : (userProc 3600).Scaled (calcru (userProc 3600) true) :=
  (@calcru_scaled_iff (userProc 3600) true (by decide)).mpr (by decide)

/-- Twelve days are not. -/
theorem calcru_notScaled_days :
    (calcru (userProc 1036800) false).user.total ≠ 1036800000000 ∧
      ¬(userProc 1036800).Scaled (calcru (userProc 1036800) false) :=
  ⟨by decide, fun h ↦ absurd
    ((@scaled_iff_of_ticks (userProc 1036800) false (by decide) (by decide)).mp h)
    (by decide)⟩

end LibGTop.Bsd
