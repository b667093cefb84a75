import LibGTop.Bsd.Paging
import LibGTop.Linux.Readers

/-!
# The swap space of FreeBSD and NetBSD

`glibtop_get_swap_p` (`sysdeps/bsd/swap.c:140–426`) on FreeBSD from release 4 on and on NetBSD, and
when the sizes that it makes of the swap devices of NetBSD are those that the manual documents.
-/

namespace LibGTop.Bsd

open Base

/-- `_glibtop_sysdeps_swap`. -/
def sysdepsSwap : BitVec 64 := Linux.flagBits [0, 1, 2, 3, 4]

/-- `struct swapent`: whether `se_flags` has `SWF_ENABLE`, and the blocks of 512 bytes, which are
counted in an `int`. -/
structure Swapent where
  enabled : Bool
  nblks : Nat
  inuse : Nat
  inuse_le : inuse ≤ nblks
  nblks_lt : nblks < 2 ^ 31

/-- What the kernel answers: the counters of swapped pages, and the swap devices. -/
structure SwapReads where
  counters : Option PageCounters
  swaplist : Option (List Swapent)

/-- The releases of NetBSD: with the counters in `struct vmmeter`, with those in `struct uvmexp`,
and without them. -/
inductive NetBsd
  | vmmeter
  | uvmexp
  | uncounted

/-- The type of the counters. -/
def NetBsd.type : NetBsd → CounterType
  | vmmeter => .uInt
  | _ => .int

/-- The counts that are reported of a reading, and the one that is kept. -/
def NetBsd.paging : NetBsd → PageCounters → PageCounters → (BitVec 64 × BitVec 64) × PageCounters
  | uncounted, _, _ => ((0, 0), .zero)
  | release, statics, counters => (Bsd.paging release.type statics counters, counters)

/-- The branch of NetBSD. -/
def netbsdGetSwapP (release : NetBsd) (features : BitVec 64) (reads : SwapReads)
    (statics : PageCounters) : Swap × PageCounters :=
  if features = 0 then ({}, statics)
  else
    match reads.counters with
    | none => ({}, statics)
    | some counters =>
      let ((pagein, pageout), statics) := release.paging statics counters
      match reads.swaplist with
      | none => ({ pagein, pageout }, statics)
      | some swaplist =>
        let avail := swaplist.foldl (fun avail ent ↦ avail + BitVec.ofNat 64 ent.nblks) 0
        let inuse := swaplist.foldl (fun inuse ent ↦ inuse + BitVec.ofNat 64 ent.inuse) 0
        ({ flags := sysdepsSwap
           used := inuse
           free := avail
           total := inuse + avail
           pagein, pageout }, statics)

/-- What the kernel of FreeBSD answers: the counters, and the pages of all devices in the entry
that `kvm_getswapinfo` puts behind the devices. -/
structure KvmReads where
  vmm : Option PageCounters
  used : BitVec 32
  total : BitVec 32

/-- The branch of FreeBSD. -/
def freebsdGetSwapP (pagesize : BitVec 32) (features : BitVec 64) (reads : KvmReads)
    (statics : PageCounters) : Swap × PageCounters :=
  if features = 0 then ({}, statics)
  else
    match reads.vmm with
    | none => ({}, statics)
    | some vmm =>
      let (pagein, pageout) := paging .uInt statics vmm
      let used := (reads.used * pagesize).setWidth 64
      let total := (reads.total * pagesize).setWidth 64
      ({ flags := sysdepsSwap
         used := used
         total := total
         free := total - used
         pagein, pageout }, vmm)

theorem countsPages_netbsd {release : NetBsd} (h : release ≠ .uncounted) :
    CountsPages (netbsdGetSwapP release) SwapReads.counters release.type where
  unread := by
    rintro features reads (hf | hr) statics
    · rw [netbsdGetSwapP, if_pos hf]
    · rw [netbsdGetSwapP, hr]
      split <;> rfl
  counted := by
    intro features reads counters hf hr statics
    have hp : release.paging statics counters =
        (paging release.type statics counters, counters) := by
      cases release with
      | uncounted => exact absurd rfl h
      | vmmeter => rfl
      | uvmexp => rfl
    rw [netbsdGetSwapP, if_neg hf, hr]
    simp only [hp]
    cases reads.swaplist <;> exact ⟨rfl, rfl⟩

theorem countsPages_freebsd (pagesize : BitVec 32) :
    CountsPages (freebsdGetSwapP pagesize) KvmReads.vmm .uInt where
  unread := by
    rintro features reads (hf | hr) statics
    · rw [freebsdGetSwapP, if_pos hf]
    · rw [freebsdGetSwapP, hr]
      split <;> rfl
  counted := by
    intro features reads counters hf hr statics
    rw [freebsdGetSwapP, if_neg hf, hr]
    exact ⟨rfl, rfl⟩

/-- The sizes are those of the devices, in bytes. -/
@[mk_iff]
structure TotalsRight (devices : List Swapent) (buf : Swap) : Prop where
  total : buf.total.toNat = 512 * sumOf Swapent.nblks devices
  used : buf.used.toNat = 512 * sumOf Swapent.inuse devices
  free : buf.free.toNat = 512 * sumOf Swapent.nblks devices - 512 * sumOf Swapent.inuse devices

theorem sumOf_inuse_le (devices : List Swapent) :
    sumOf Swapent.inuse devices ≤ sumOf Swapent.nblks devices :=
  sumOf_le fun ent _ ↦ ent.inuse_le

/-- A number of blocks in a word that is their number of bytes is zero. -/
theorem eq_zero_of_blocks {blocks size : Nat} (h : blocks % size = 512 * blocks) : blocks = 0 := by
  have hle : 512 * blocks ≤ blocks := h ▸ Nat.mod_le blocks size
  clear h
  omega

/-- Numbers of blocks are numbers of bytes where there are none, and only there. -/
theorem totalsRight_netbsd (release : NetBsd) (counters statics : PageCounters)
    (devices : List Swapent) :
    TotalsRight devices
        (netbsdGetSwapP release sysdepsSwap ⟨some counters, some devices⟩ statics).1 ↔
      ∀ ent ∈ devices, ent.nblks = 0 := by
  have hle := sumOf_inuse_le devices
  rw [totalsRight_iff, ← sumOf_eq_zero, netbsdGetSwapP, if_neg (by decide)]
  simp only [foldl_add_zero, BitVec.toNat_add, BitVec.toNat_ofNat]
  generalize sumOf Swapent.nblks devices = nblks at *
  generalize sumOf Swapent.inuse devices = inuse at *
  constructor
  · rintro ⟨htotal, hused, -⟩
    obtain rfl := eq_zero_of_blocks hused
    rw [Nat.zero_mod, Nat.zero_add, Nat.mod_mod] at htotal
    exact eq_zero_of_blocks htotal
  · rintro rfl
    obtain rfl := Nat.le_zero.mp hle
    exact ⟨rfl, rfl, rfl⟩

end LibGTop.Bsd
