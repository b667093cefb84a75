import LibGTop.Linux.ScaledLookup

/-!
# Memory and swap

`glibtop_get_mem_s` (`sysdeps/linux/mem.c:46–71`) and `glibtop_get_swap_s`
(`sysdeps/linux/swap.c:52–106`), whose numbers are looked up in `/proc/meminfo` by their labels.
-/

namespace LibGTop.Linux

open Base

/-- The labels that are looked up. -/
inductive MemKey
  | memTotal
  | memFree
  | memAvailable
  | buffers
  | cached
  | slab
  | shmem
  | swapTotal
  | swapFree
  deriving DecidableEq

/-- The text of the label. -/
def MemKey.label : MemKey → MemLabel
  | memTotal => ⟨asciiBytes "MemTotal".toList, by decide⟩
  | memFree => ⟨asciiBytes "MemFree".toList, by decide⟩
  | memAvailable => ⟨asciiBytes "MemAvailable".toList, by decide⟩
  | buffers => ⟨asciiBytes "Buffers".toList, by decide⟩
  | cached => ⟨asciiBytes "Cached".toList, by decide⟩
  | slab => ⟨asciiBytes "Slab".toList, by decide⟩
  | shmem => ⟨asciiBytes "Shmem".toList, by decide⟩
  | swapTotal => ⟨asciiBytes "SwapTotal".toList, by decide⟩
  | swapFree => ⟨asciiBytes "SwapFree".toList, by decide⟩

/-- `glibtop_mem`, `include/glibtop/mem.h`. -/
structure Mem where
  flags : BitVec 64
  total : BitVec 64
  used : BitVec 64
  free : BitVec 64
  shared : BitVec 64
  buffer : BitVec 64
  cached : BitVec 64
  user : BitVec 64
  deriving DecidableEq

/-- `_glibtop_sysdeps_mem`. -/
def sysdepsMem : BitVec 64 := flagBits [0, 1, 2, 3, 4, 5, 6]

/-- What `glibtop_get_mem_s` computes from the numbers it looks up. -/
def memOf (osVersionCode : Nat) (taken : MemKey → BitVec 64) : Mem :=
  let total := taken .memTotal
  let free := taken .memFree
  let buffer := taken .buffers
  let cached := taken .cached + taken .slab
  { flags := sysdepsMem
    total := total
    free := free
    used := total - free
    shared := taken .shmem
    buffer := buffer
    cached := cached
    user :=
      if linuxVersionCode 3 14 0 ≤ osVersionCode then total - taken .memAvailable
      else total - free - cached - buffer }

/-- The labels it looks up. -/
def memKeys (osVersionCode : Nat) : List MemKey :=
  [.memTotal, .memFree, .shmem, .buffers, .cached, .slab] ++
    if linuxVersionCode 3 14 0 ≤ osVersionCode then [.memAvailable] else []

/-- `glibtop_get_mem_s`, `sysdeps/linux/mem.c:46–71`; absent when the file cannot be read, which
ends the process. -/
def glibtopGetMemS (osVersionCode : Nat) (meminfo : Option (List UInt8)) : Option Mem :=
  (tryFileToBuffer bufsiz meminfo).map fun buffer ↦
    memOf osVersionCode fun key ↦ getScaled buffer (some key.label.key)

/-- `glibtop_swap`, `include/glibtop/swap.h`. -/
structure Swap where
  flags : BitVec 64
  total : BitVec 64
  used : BitVec 64
  free : BitVec 64
  pagein : BitVec 64 := 0
  pageout : BitVec 64 := 0
  deriving DecidableEq

/-- `_glibtop_sysdeps_swap` and `_glibtop_sysdeps_swap_paging`. -/
def sysdepsSwap : BitVec 64 := flagBits [0, 1, 2]

@[inherit_doc sysdepsSwap] def sysdepsSwapPaging : BitVec 64 := flagBits [3, 4]

/-- The numbers of pages in `/proc/vmstat`, `sysdeps/linux/swap.c:74–86`. -/
def vmstatPaging (buffer : List UInt8) (buf : Swap) : Swap :=
  match strstr (10 :: asciiBytes "pswpin".toList) buffer with
  | none => buf
  | some p =>
    let pagein := strtoull 0 (skipToken p)
    let pageout := strtoull 0 (skipToken pagein.2)
    { buf with
      pagein := pagein.1
      pageout := pageout.1
      flags := buf.flags ||| sysdepsSwapPaging }

/-- The numbers of pages in `/proc/stat`, `sysdeps/linux/swap.c:91–102`. -/
def statPaging (buffer : List UInt8) (buf : Swap) : Swap :=
  match strstr (10 :: asciiBytes "swap".toList) buffer with
  | none => buf
  | some p =>
    let pagein := strtoull 0 (skipToken p)
    let pageout := strtoull 0 pagein.2
    { buf with
      pagein := pagein.1
      pageout := pageout.1
      flags := buf.flags ||| sysdepsSwapPaging }

/-- `glibtop_get_swap_s`, `sysdeps/linux/swap.c:52–106`; absent when a file cannot be read, which
ends the process. -/
def glibtopGetSwapS (osVersionCode : Nat) (meminfo vmstat stat : Option (List UInt8)) :
    Option Swap :=
  (tryFileToBuffer bufsiz meminfo).bind fun buffer ↦
    let total := getScaled buffer (some MemKey.swapTotal.label.key)
    let free := getScaled buffer (some MemKey.swapFree.label.key)
    let buf : Swap := { flags := sysdepsSwap, total := total, free := free, used := total - free }
    if linuxVersionCode 2 6 0 ≤ osVersionCode then
      (tryFileToBuffer bufsiz vmstat).map fun buffer ↦ vmstatPaging buffer buf
    else (tryFileToBuffer bufsiz stat).map fun buffer ↦ statPaging buffer buf

/-- A number that is looked up is that of its line exactly when the line that is found is the right
one. -/
def LookedUp (ls : List MemLine) (key : MemKey) (value : BitVec 64) : Prop :=
  value.toNat = worthOf ls key.label ↔ FoundRight ls key.label

/-- The numbers of swap are looked up. -/
def SwapLookedUp (ls : List MemLine) (buf : Swap) : Prop :=
  LookedUp ls .swapTotal buf.total ∧ LookedUp ls .swapFree buf.free ∧
    buf.used = buf.total - buf.free

theorem zero_notMem_memText (ls : List MemLine) : 0 ∉ memText ls := by
  induction ls with
  | nil => exact List.not_mem_nil
  | cons line ls ih =>
    rw [memText_cons, List.mem_append, List.mem_cons, List.mem_append, List.mem_cons]
    rintro (h | h | h | h | h)
    · exact (line.label.2 0 h).1 rfl
    · exact absurd h (by decide)
    · exact zero_notMem_body line h
    · exact absurd h (by decide)
    · exact ih h

theorem swapLookedUp_paging {ls : List MemLine} {buf : Swap} (h : SwapLookedUp ls buf)
    (buffer : List UInt8) :
    SwapLookedUp ls (vmstatPaging buffer buf) ∧ SwapLookedUp ls (statPaging buffer buf) := by
  constructor
  · rw [vmstatPaging]
    split <;> exact h
  · rw [statPaging]
    split <;> exact h

/-- A label is looked up right exactly when the line that is found is the right one, and what memory
and swap are computed from is looked up by their labels. -/
theorem getScaled_meminfo (ls : List MemLine) (label : MemLabel) (osVersionCode : Nat)
    (vmstat stat : Option (List UInt8)) :
    ((getScaled (memText ls) (some label.key)).toNat = worthOf ls label ↔ FoundRight ls label) ∧
      ((memText ls).length < bufsiz →
        (∃ taken,
          glibtopGetMemS osVersionCode (some (memText ls)) = some (memOf osVersionCode taken) ∧
            ∀ key ∈ memKeys osVersionCode, LookedUp ls key (taken key)) ∧
        ∀ buf ∈ glibtopGetSwapS osVersionCode (some (memText ls)) vmstat stat,
          SwapLookedUp ls buf) := by
  refine ⟨getScaled_right_iff ls label, fun hfits ↦ ?_⟩
  have hbuffer := tryFileToBuffer_eq (zero_notMem_memText ls) hfits
  have hlooked : ∀ key : MemKey, LookedUp ls key (getScaled (memText ls) (some key.label.key)) :=
    fun key ↦ getScaled_right_iff ls key.label
  constructor
  · refine ⟨fun key ↦ getScaled (memText ls) (some key.label.key), ?_, fun key _ ↦ hlooked key⟩
    rw [glibtopGetMemS, hbuffer, Option.map_some]
  · intro buf hbuf
    rw [glibtopGetSwapS, hbuffer, Option.bind_some] at hbuf
    simp only at hbuf
    have hswap : SwapLookedUp ls
        { flags := sysdepsSwap
          total := getScaled (memText ls) (some MemKey.swapTotal.label.key)
          free := getScaled (memText ls) (some MemKey.swapFree.label.key)
          used := getScaled (memText ls) (some MemKey.swapTotal.label.key) -
            getScaled (memText ls) (some MemKey.swapFree.label.key) } :=
      ⟨hlooked .swapTotal, hlooked .swapFree, rfl⟩
    split at hbuf
    · obtain ⟨buffer, -, rfl⟩ := Option.mem_map.mp hbuf
      exact (swapLookedUp_paging hswap buffer).1
    · obtain ⟨buffer, -, rfl⟩ := Option.mem_map.mp hbuf
      exact (swapLookedUp_paging hswap buffer).2

/-- The line `SwapCached: 7 kB` before the line `Cached: 5 kB`. -/
def swapCachedLines : List MemLine :=
  [⟨⟨asciiBytes "SwapCached".toList, by decide⟩, ⟨[32], by decide⟩, 7, some .kB⟩,
    ⟨MemKey.cached.label, ⟨[32], by decide⟩, 5, some .kB⟩]

/-- The label `Cached` is found in the line of another that ends with it. -/
theorem not_getScaled_meminfo :
    ¬∀ (ls : List MemLine) (label : MemLabel), (ls.map MemLine.label).Nodup →
      (getScaled (memText ls) (some label.key)).toNat = worthOf ls label := by
  intro h
  have hcached := h swapCachedLines MemKey.cached.label (by decide)
  rw [getScaled_memText] at hcached
  exact absurd hcached (by decide)

end LibGTop.Linux
