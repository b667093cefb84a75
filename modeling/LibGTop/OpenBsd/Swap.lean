import LibGTop.Bsd.Swap

/-!
# The swap space of OpenBSD

`glibtop_get_swap_p` (`sysdeps/openbsd/swap.c:55–129`), the sizes that it and the one of NetBSD make
of the swap devices, and the counts of swapped pages in the runs of the three systems.
-/

namespace LibGTop.OpenBsd

open Base Bsd

/-- `DEV_BSIZE`. -/
def devBsize : Nat := 512

/-- `blockdiv`. -/
def blockdiv : Nat := 512 / devBsize

/-- `glibtop_get_swap_p`, `sysdeps/openbsd/swap.c:55–129`. -/
def glibtopGetSwapP (features : BitVec 64) (reads : SwapReads) (statics : PageCounters) :
    Swap × PageCounters :=
  if features = 0 then ({}, statics)
  else
    match reads.counters with
    | none => ({}, statics)
    | some uvmexp =>
      let (pagein, pageout) := paging .int statics uvmexp
      match reads.swaplist with
      | none => ({ pagein, pageout }, uvmexp)
      | some swaplist =>
        let (avail, inuse) := swaplist.foldl
          (fun (avail, inuse) ent ↦
            if ent.enabled then
              (avail + BitVec.ofNat 64 (ent.nblks / blockdiv),
                inuse + BitVec.ofNat 64 (ent.inuse / blockdiv))
            else (avail, inuse)) (0, 0)
        let avail := avail * 512
        let inuse := inuse * 512
        ({ flags := sysdepsSwap
           used := inuse
           free := avail
           total := inuse + avail
           pagein, pageout }, uvmexp)

theorem countsPages_openbsd : CountsPages glibtopGetSwapP SwapReads.counters .int where
  unread := by
    rintro features reads (hf | hr) statics
    · rw [glibtopGetSwapP, if_pos hf]
    · rw [glibtopGetSwapP, hr]
      split <;> rfl
  counted := by
    intro features reads counters hf hr statics
    rw [glibtopGetSwapP, if_neg hf, hr]
    cases reads.swaplist <;> exact ⟨rfl, rfl⟩

/-- The loop adds up the blocks of the enabled devices. -/
theorem foldl_enabled (devices : List Swapent) (avail inuse : BitVec 64) :
    devices.foldl
      (fun (avail, inuse) ent ↦
        if ent.enabled then
          (avail + BitVec.ofNat 64 (ent.nblks / blockdiv),
            inuse + BitVec.ofNat 64 (ent.inuse / blockdiv))
        else (avail, inuse)) (avail, inuse) =
    (avail + BitVec.ofNat 64 (sumOf Swapent.nblks (devices.filter Swapent.enabled)),
      inuse + BitVec.ofNat 64 (sumOf Swapent.inuse (devices.filter Swapent.enabled))) := by
  have hdiv : ∀ n, n / blockdiv = n := Nat.div_one
  induction devices generalizing avail inuse with
  | nil => simp
  | cons ent devices ih =>
    rw [List.foldl_cons]
    cases he : ent.enabled with
    | false =>
      rw [List.filter_cons_of_neg (by rw [he]; exact Bool.false_ne_true), ← ih]
      simp only [Bool.false_eq_true, if_false]
    | true =>
      rw [List.filter_cons_of_pos he, sumOf_cons, sumOf_cons, BitVec.ofNat_add, BitVec.ofNat_add,
        ← BitVec.add_assoc, ← BitVec.add_assoc, ← ih]
      simp only [if_true, hdiv]

theorem toNat_blocks (blocks : Nat) :
    (BitVec.ofNat 64 blocks * 512).toNat = 512 * blocks % 2 ^ 64 := by
  rw [BitVec.toNat_mul, BitVec.toNat_ofNat, Nat.mul_comm 512, Nat.mod_mul_mod]
  rfl

/-- The sizes are right where no enabled device is in use and the total fits, and only there. -/
theorem totalsRight_openbsd (counters statics : PageCounters) (devices : List Swapent) :
    TotalsRight (devices.filter Swapent.enabled)
        (glibtopGetSwapP sysdepsSwap ⟨some counters, some devices⟩ statics).1 ↔
      (∀ ent ∈ devices.filter Swapent.enabled, ent.inuse = 0) ∧
        512 * sumOf Swapent.nblks (devices.filter Swapent.enabled) < 2 ^ 64 := by
  have hle := sumOf_inuse_le (devices.filter Swapent.enabled)
  rw [totalsRight_iff, ← sumOf_eq_zero, glibtopGetSwapP, if_neg (by decide)]
  have hzero : ∀ a : BitVec 64, 0 + a = a := BitVec.zero_add
  simp only [foldl_enabled, hzero, BitVec.toNat_add, toNat_blocks]
  generalize sumOf Swapent.nblks (devices.filter Swapent.enabled) = nblks at *
  generalize sumOf Swapent.inuse (devices.filter Swapent.enabled) = inuse at *
  constructor
  · rintro ⟨htotal, -, hfree⟩
    have hlt : 512 * nblks < 2 ^ 64 := htotal ▸ Nat.mod_lt _ (by decide)
    rw [Nat.mod_eq_of_lt hlt] at hfree
    clear htotal
    omega
  · rintro ⟨rfl, hlt⟩
    rw [Nat.mul_zero, Nat.zero_mod, Nat.zero_add, Nat.mod_mod, Nat.mod_eq_of_lt hlt]
    exact ⟨rfl, rfl, rfl⟩

/-- The documented sizes of the swap devices, for OpenBSD and for NetBSD. -/
theorem swap_totals_iff (release : NetBsd) (counters statics : PageCounters)
    (devices : List Swapent) :
    (TotalsRight (devices.filter Swapent.enabled)
        (glibtopGetSwapP sysdepsSwap ⟨some counters, some devices⟩ statics).1 ↔
      (∀ ent ∈ devices.filter Swapent.enabled, ent.inuse = 0) ∧
        512 * sumOf Swapent.nblks (devices.filter Swapent.enabled) < 2 ^ 64) ∧
    (TotalsRight devices
        (netbsdGetSwapP release sysdepsSwap ⟨some counters, some devices⟩ statics).1 ↔
      ∀ ent ∈ devices, ent.nblks = 0) :=
  ⟨totalsRight_openbsd counters statics devices,
    totalsRight_netbsd release counters statics devices⟩

theorem usedDevice_bounds : 2 ≤ 8 ∧ 8 < 2 ^ 31 := by decide

/-- A swap device of eight blocks of which two are in use. -/
def usedDevice : Swapent := ⟨true, 8, 2, usedDevice_bounds.1, usedDevice_bounds.2⟩

/-- The free space is the whole device, and the total is more than it has. -/
theorem swap_totals_used :
    (glibtopGetSwapP sysdepsSwap ⟨some .zero, some [usedDevice]⟩ .initial).1.free = 4096 ∧
      (glibtopGetSwapP sysdepsSwap ⟨some .zero, some [usedDevice]⟩ .initial).1.total = 5120 ∧
      ¬TotalsRight [usedDevice]
        (glibtopGetSwapP sysdepsSwap ⟨some .zero, some [usedDevice]⟩ .initial).1 ∧
      ¬TotalsRight [usedDevice]
        (netbsdGetSwapP .uvmexp sysdepsSwap ⟨some .zero, some [usedDevice]⟩ .initial).1 :=
  ⟨by decide, by decide, fun h ↦ absurd h.free (by decide), fun h ↦ absurd h.free (by decide)⟩

section

variable (servers : Nat → BitVec 64)

/-- The calls of all users in a process return the counts since the system booted exactly when no
page is swapped before the last of them, and before the first. -/
theorem swap_pages_iff :
    (∀ calls : List (Nat × SwapReads),
      (calls.filterMap (countersRead SwapReads.counters servers)).Pairwise CounterType.int.Le →
      (Documented glibtopGetSwapP SwapReads.counters servers .int .initial calls ↔
        Idle (calls.filterMap (countersRead SwapReads.counters servers)))) ∧
    (∀ (pagesize : BitVec 32) (calls : List (Nat × KvmReads)),
      (calls.filterMap (countersRead KvmReads.vmm servers)).Pairwise CounterType.uInt.Le →
      (Documented (freebsdGetSwapP pagesize) KvmReads.vmm servers .uInt .initial calls ↔
        Idle (calls.filterMap (countersRead KvmReads.vmm servers)))) ∧
    ∀ (release : NetBsd) (calls : List (Nat × SwapReads)), release ≠ .uncounted →
      (calls.filterMap (countersRead SwapReads.counters servers)).Pairwise release.type.Le →
      (Documented (netbsdGetSwapP release) SwapReads.counters servers release.type .initial calls ↔
        Idle (calls.filterMap (countersRead SwapReads.counters servers))) :=
  ⟨fun _ hmono ↦ documented_iff countsPages_openbsd hmono,
    fun pagesize _ hmono ↦ documented_iff (countsPages_freebsd pagesize) hmono,
    fun _ _ hr hmono ↦ documented_iff (countsPages_netbsd hr) hmono⟩

end

/-- A reading of the counters without swap devices. -/
def counted (ins outs : BitVec 32) : SwapReads := ⟨some ⟨ins, outs⟩, some []⟩

/-- Two users that are the first to see swapped pages. -/
theorem swap_pages_iff_two :
    Documented glibtopGetSwapP SwapReads.counters (fun _ ↦ sysdepsSwap) .int .initial
      [(0, counted 0 0), (1, counted 5 3)] :=
  ((swap_pages_iff fun _ ↦ sysdepsSwap).1 [(0, counted 0 0), (1, counted 5 3)]
    (by decide)).mpr (by decide)

/-- Behind the call of another user the second one returns the pages since then, and the first call
returns none. -/
theorem swap_pages_shared :
    (runCalls glibtopGetSwapP (fun _ ↦ sysdepsSwap) .initial
      [(1, counted 10 4)]).map Swap.pagein = [0] ∧
    (runCalls glibtopGetSwapP (fun _ ↦ sysdepsSwap) .initial
      [(0, counted 7 2), (1, counted 10 4)]).map Swap.pagein = [0, 3] ∧
    ¬Documented glibtopGetSwapP SwapReads.counters (fun _ ↦ sysdepsSwap) .int .initial
      [(0, counted 7 2), (1, counted 10 4)] := by
  refine ⟨by decide, by decide, fun h ↦ ?_⟩
  exact absurd (h _ List.mem_cons_self ⟨7, 2⟩ rfl) (by decide)

end LibGTop.OpenBsd
