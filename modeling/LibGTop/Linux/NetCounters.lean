import LibGTop.Linux.IpAccounting

/-!
# The counters of an interface of Linux

Which of the three readers of `sysdeps/linux/netload.c` a kernel gets, and that none of them sets
the flag of another field.
-/

namespace LibGTop.Linux

open Base Common

/-- The files with counters, and what the buffer holds at first. -/
structure NetFiles where
  stack : List UInt8
  ipAcct : Option (List UInt8)
  netDev : Option (List UInt8)
  statistics : StatisticsFile → Option (List UInt8)

/-- The counters, `sysdeps/linux/netload.c:543–553`. -/
def addCounters (osVersionCode : Nat) (hasSysfs : Bool) (files : NetFiles)
    (interface : List UInt8) (buf : NetStats) : Option NetStats :=
  if osVersionCode < linuxVersionCode 2 1 14 then
    some (linux20Stats files.stack files.ipAcct interface buf)
  else if linuxVersionCode 2 6 0 < osVersionCode ∧ hasSysfs then
    some (linux26Stats files.statistics buf)
  else linux24Stats files.stack files.netDev interface buf

/-- The flags of the fields that are no counters stay. -/
def KeepsOthers (buf buf' : NetStats) : Prop :=
  ∀ field, field ∉ counterFields →
    hasFlag buf'.flags field.number = hasFlag buf.flags field.number

theorem keepsOthers_refl (buf : NetStats) : KeepsOthers buf buf := fun _ _ ↦ rfl

variable {buf buf' : NetStats}

theorem KeepsOthers.set (h : KeepsOthers buf buf') (field : NetloadField) (value : BitVec 64) :
    KeepsOthers buf (buf'.set field value) := h

theorem KeepsOthers.flag (h : KeepsOthers buf buf') (field : NetloadField)
    (hc : field ∈ counterFields) : KeepsOthers buf (buf'.flag field) := by
  intro other ho
  have hne : field ≠ other := by
    rintro rfl
    exact ho hc
  rw [hasFlag_flag, h other ho, decide_eq_false hne, Bool.or_false]

theorem KeepsOthers.read (h : KeepsOthers buf buf') (file : Option (List UInt8))
    (field : NetloadField) (hc : field ∈ counterFields) :
    KeepsOthers buf (buf'.read file field) := by
  rw [NetStats.read]
  cases readValue file with
  | none => exact h
  | some value => exact (h.set field value).flag field hc

theorem KeepsOthers.addUp (h : KeepsOthers buf buf') (field received sent : NetloadField)
    (hc : field ∈ counterFields) : KeepsOthers buf (buf'.addUp field received sent) :=
  (h.set field _).flag field hc

theorem KeepsOthers.add (h : KeepsOthers buf buf') (field : NetloadField) (value : BitVec 64) :
    KeepsOthers buf (buf'.add field value) := h.set field _

theorem keepsOthers_account (flags packets bytes : BitVec 64) (buf : NetStats) :
    KeepsOthers buf (buf.account flags packets bytes) := by
  have hpackets := (keepsOthers_refl buf).add .packetsTotal packets
  -- every rule sets the flags of the totals
  have htotals : ∀ values, KeepsOthers buf values →
      KeepsOthers buf ((values.flag .packetsTotal).flag .bytesTotal) := fun _ h ↦
    (h.flag .packetsTotal (by decide)).flag .bytesTotal (by decide)
  rw [NetStats.account]
  split
  · have hin := ((hpackets.add .packetsIn packets).add .bytesTotal bytes).add .bytesIn bytes
    exact ((htotals _ hin).flag .packetsIn (by decide)).flag .bytesIn (by decide)
  · split
    · have hout := ((hpackets.add .packetsOut packets).add .bytesTotal bytes).add .bytesOut bytes
      exact ((htotals _ hout).flag .packetsOut (by decide)).flag .bytesOut (by decide)
    · exact htotals _ (hpackets.add .bytesTotal bytes)

theorem keepsOthers_accountLines (interface : List UInt8) (lines : List (List UInt8)) :
    ∀ (buffer : List UInt8) {buf' : NetStats}, KeepsOthers buf buf' →
      KeepsOthers buf (accountLines interface lines buffer buf') := by
  induction lines with
  | nil => exact fun _ _ h ↦ h
  | cons line lines ih =>
    intro buffer buf' h
    rw [accountLines]
    apply ih
    rw [accountLine]
    split
    · exact h
    · intro field hf
      rw [keepsOthers_account _ _ _ _ field hf]
      exact h field hf

theorem keepsOthers_linux26Stats (files : StatisticsFile → Option (List UInt8)) (buf : NetStats) :
    KeepsOthers buf (linux26Stats files buf) := by
  rw [linux26Stats]
  have hpackets := ((keepsOthers_refl buf).read (files .rxPackets) .packetsIn (by decide)).read
    (files .txPackets) .packetsOut (by decide)
  have hbytes := ((hpackets.addUp .packetsTotal .packetsIn .packetsOut (by decide)).read
    (files .rxBytes) .bytesIn (by decide)).read (files .txBytes) .bytesOut (by decide)
  have herrors := ((hbytes.addUp .bytesTotal .bytesIn .bytesOut (by decide)).read
    (files .rxErrors) .errorsIn (by decide)).read (files .txErrors) .errorsOut (by decide)
  exact (herrors.addUp .errorsTotal .errorsIn .errorsOut (by decide)).read _ .collisions (by decide)

theorem keepsOthers_readCounters (haveBytes : Bool) (fields : Nat) (p : List UInt8)
    (buf : NetStats) : KeepsOthers buf (readCounters haveBytes fields p buf) := by
  -- the values are set before any flag is
  have hset : ∃ values : NetStats, KeepsOthers buf values ∧
      readCounters haveBytes fields p buf =
        let buf := ((values.flag .errorsIn).flag .errorsOut).flag .collisions
        let buf := ((buf.flag .packetsIn).flag .packetsOut).flag .packetsTotal
        if haveBytes then ((buf.flag .bytesIn).flag .bytesOut).flag .bytesTotal else buf := by
    refine ⟨_, ?_, rfl⟩
    exact fun _ _ ↦ rfl
  obtain ⟨values, hv, he⟩ := hset
  have herrors := ((hv.flag .errorsIn (by decide)).flag .errorsOut (by decide)).flag .collisions
    (by decide)
  have hpackets := ((herrors.flag .packetsIn (by decide)).flag .packetsOut (by decide)).flag
    .packetsTotal (by decide)
  rw [he]
  simp only
  split
  · exact ((hpackets.flag .bytesIn (by decide)).flag .bytesOut (by decide)).flag .bytesTotal
      (by decide)
  · exact hpackets

/-- The counters leave the flags of the other fields as they are. -/
theorem keepsOthers_addCounters {osVersionCode : Nat} {hasSysfs : Bool} {files : NetFiles}
    {interface : List UInt8}
    (h : addCounters osVersionCode hasSysfs files interface buf = some buf') :
    KeepsOthers buf buf' := by
  rw [addCounters] at h
  split at h
  · rw [← Option.some.inj h]
    cases hfile : files.ipAcct with
    | none => exact keepsOthers_refl buf
    | some text => exact keepsOthers_accountLines interface _ _ (keepsOthers_refl buf)
  · split at h
    · rw [← Option.some.inj h]
      exact keepsOthers_linux26Stats files.statistics buf
    · cases hfile : files.netDev with
      | none =>
        rw [hfile] at h
        rw [← Option.some.inj h]
        exact keepsOthers_refl buf
      | some text =>
        rw [hfile, linux24Stats] at h
        obtain ⟨columns, -, rfl⟩ := Option.map_eq_some_iff.mp h
        split
        · exact keepsOthers_refl buf
        · split
          · exact keepsOthers_refl buf
          · exact keepsOthers_readCounters _ _ _ buf

end LibGTop.Linux
