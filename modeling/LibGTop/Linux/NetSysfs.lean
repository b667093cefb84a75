import LibGTop.Common.Netload
import Mathlib.Logic.Function.Basic

/-!
# The counters of an interface in sysfs

The counters of `glibtop_netload` with their flags, and `linux_2_6_stats`
(`sysdeps/linux/netload.c:187–253`) on the files of
`/sys/class/net/<interface>/statistics`.
-/

namespace LibGTop.Linux

open Base Common

/-- The flags of `glibtop_netload` and its counters by their field. -/
structure NetStats where
  flags : BitVec 64 := 0
  counter : NetloadField → BitVec 64 := fun _ ↦ 0

/-- The files of `statistics`, as `sysdeps/linux/netload.c:221–251` names them. -/
inductive StatisticsFile
  | rxPackets
  | txPackets
  | rxBytes
  | txBytes
  | rxErrors
  | txErrors
  | collisions
  deriving DecidableEq

/-- `read_value`, `sysdeps/linux/netload.c:187–212`, with the text of the file, unless it cannot be
opened or read. -/
def readValue (file : Option (List UInt8)) : Option (BitVec 64) :=
  (tryFileToBuffer bufsiz file).map fun buffer ↦ (strtoull 10 buffer).1

namespace NetStats

/-- `buf->field = value`. -/
def set (field : NetloadField) (value : BitVec 64) (buf : NetStats) : NetStats :=
  { buf with counter := Function.update buf.counter field value }

/-- `buf->flags |= (1 << GLIBTOP_NETLOAD_FIELD)`. -/
def flag (field : NetloadField) (buf : NetStats) : NetStats :=
  { buf with flags := buf.flags ||| BitVec.twoPow 64 field.number }

/-- The step `if (read_value (…, &buf->field)) buf->flags |= (1 << GLIBTOP_NETLOAD_FIELD)`. -/
def read (file : Option (List UInt8)) (field : NetloadField) (buf : NetStats) : NetStats :=
  match readValue file with
  | none => buf
  | some value => (buf.set field value).flag field

/-- The step `buf->total = buf->in + buf->out` with the flag of the total. -/
def addUp (total received sent : NetloadField) (buf : NetStats) : NetStats :=
  (buf.set total (buf.counter received + buf.counter sent)).flag total

end NetStats

/-- `linux_2_6_stats`, `sysdeps/linux/netload.c:217–253`. -/
def linux26Stats (files : StatisticsFile → Option (List UInt8)) (buf : NetStats) : NetStats :=
  let buf := (buf.read (files .rxPackets) .packetsIn).read (files .txPackets) .packetsOut
  let buf := buf.addUp .packetsTotal .packetsIn .packetsOut
  let buf := (buf.read (files .rxBytes) .bytesIn).read (files .txBytes) .bytesOut
  let buf := buf.addUp .bytesTotal .bytesIn .bytesOut
  let buf := (buf.read (files .rxErrors) .errorsIn).read (files .txErrors) .errorsOut
  let buf := buf.addUp .errorsTotal .errorsIn .errorsOut
  buf.read (files .collisions) .collisions

/-- The files that a counter is computed from. -/
def sourceFiles : NetloadField → List StatisticsFile
  | .packetsIn => [.rxPackets]
  | .packetsOut => [.txPackets]
  | .packetsTotal => [.rxPackets, .txPackets]
  | .bytesIn => [.rxBytes]
  | .bytesOut => [.txBytes]
  | .bytesTotal => [.rxBytes, .txBytes]
  | .errorsIn => [.rxErrors]
  | .errorsOut => [.txErrors]
  | .errorsTotal => [.rxErrors, .txErrors]
  | .collisions => [.collisions]
  | _ => []

/-- The fields that are counters. -/
def counterFields : List NetloadField :=
  [.packetsIn, .packetsOut, .packetsTotal, .bytesIn, .bytesOut, .bytesTotal, .errorsIn, .errorsOut,
    .errorsTotal, .collisions]

/-- The totals with the two counters of each. -/
def totalFields : List (NetloadField × NetloadField × NetloadField) :=
  [(.packetsTotal, .packetsIn, .packetsOut), (.bytesTotal, .bytesIn, .bytesOut),
    (.errorsTotal, .errorsIn, .errorsOut)]

/-- The counters that are read with their files. -/
def readFields : List (NetloadField × StatisticsFile) :=
  [(.packetsIn, .rxPackets), (.packetsOut, .txPackets), (.bytesIn, .rxBytes), (.bytesOut, .txBytes),
    (.errorsIn, .rxErrors), (.errorsOut, .txErrors), (.collisions, .collisions)]

/-- No counter has a flag or a value yet. -/
def NetStats.Cleared (buf : NetStats) : Prop :=
  ∀ field ∈ counterFields, hasFlag buf.flags field.number = false ∧ buf.counter field = 0

/-- A counter with a flag is computed from files that were read, one without is zero, and the totals
are the sums. -/
structure NetStats.Honest (files : StatisticsFile → Option (List UInt8)) (buf : NetStats) :
    Prop where
  read_of_flag : ∀ field ∈ counterFields, hasFlag buf.flags field.number →
    ∀ file ∈ sourceFiles field, (files file).isSome
  zero_of_not_flag : ∀ field ∈ counterFields, ¬hasFlag buf.flags field.number →
    buf.counter field = 0
  total_eq : ∀ total ∈ totalFields,
    buf.counter total.1 = buf.counter total.2.1 + buf.counter total.2.2

section

variable (buf : NetStats) (field other : NetloadField)

@[simp] theorem counter_set_self (value : BitVec 64) :
    (buf.set field value).counter field = value := by
  change Function.update buf.counter field value field = value
  exact Function.update_self ..

@[simp] theorem counter_set_of_ne (value : BitVec 64) (h : other ≠ field) :
    (buf.set field value).counter other = buf.counter other := by
  change Function.update buf.counter field value other = buf.counter other
  exact Function.update_of_ne h ..

@[simp] theorem counter_flag : (buf.flag field).counter = buf.counter := rfl

theorem isSome_readValue (file : Option (List UInt8)) :
    (readValue file).isSome = file.isSome := by
  rw [readValue, Option.isSome_map, tryFileToBuffer, Option.isSome_map]

/-- The flag of a field is the only one that is set. -/
theorem hasFlag_flag :
    hasFlag (buf.flag field).flags other.number =
      (hasFlag buf.flags other.number || decide (field = other)) := by
  have hbit : (BitVec.twoPow 64 field.number).getLsbD other.number = decide (field = other) := by
    rw [BitVec.getLsbD_twoPow, decide_eq_true field.number_lt, Bool.true_and]
    exact decide_eq_decide.mpr ⟨NetloadField.number_inj, congrArg _⟩
  rw [NetStats.flag, hasFlag, BitVec.getLsbD_or, hbit]
  rfl

/-- A read gives its field the value and the flag, and leaves both where it fails. -/
theorem hasFlag_read (file : Option (List UInt8)) :
    hasFlag (buf.read file field).flags other.number =
      (hasFlag buf.flags other.number || decide (field = other) && file.isSome) := by
  rw [NetStats.read, ← isSome_readValue]
  cases readValue file with
  | none => simp
  | some value =>
    simp only [hasFlag_flag, Option.isSome_some, Bool.and_true]
    rfl

theorem counter_read_self (file : Option (List UInt8)) :
    (buf.read file field).counter field = (readValue file).getD (buf.counter field) := by
  rw [NetStats.read]
  cases readValue file with
  | none => rfl
  | some value => exact counter_set_self buf field value

theorem counter_read_of_ne (file : Option (List UInt8)) (h : other ≠ field) :
    (buf.read file field).counter other = buf.counter other := by
  rw [NetStats.read]
  cases readValue file with
  | none => rfl
  | some value => exact counter_set_of_ne buf field other value h

theorem hasFlag_addUp (received sent : NetloadField) :
    hasFlag (buf.addUp field received sent).flags other.number =
      (hasFlag buf.flags other.number || decide (field = other)) :=
  hasFlag_flag (buf.set field _) field other

theorem counter_addUp_self (received sent : NetloadField) :
    (buf.addUp field received sent).counter field = buf.counter received + buf.counter sent :=
  counter_set_self buf field _

theorem counter_addUp_of_ne (received sent : NetloadField) (h : other ≠ field) :
    (buf.addUp field received sent).counter other = buf.counter other :=
  counter_set_of_ne buf field other _ h

end

section

variable (files : StatisticsFile → Option (List UInt8)) {buf : NetStats}

/-- The flag of a counter is set where its file is read, and that of a total always. -/
theorem NetStats.Cleared.hasFlag_stats (h : buf.Cleared) :
    ∀ field ∈ counterFields, hasFlag (linux26Stats files buf).flags field.number =
      match sourceFiles field with
      | [file] => (files file).isSome
      | _ => true := by
  intro field hfield
  have hclear := (h field hfield).1
  simp only [linux26Stats, hasFlag_read, hasFlag_addUp, hclear]
  simp only [counterFields, List.mem_cons, List.not_mem_nil, or_false] at hfield
  obtain rfl | rfl | rfl | rfl | rfl | rfl | rfl | rfl | rfl | rfl := hfield <;>
    simp [sourceFiles]

/-- The counters are the values that were read, and zero where none was. -/
theorem NetStats.Cleared.counter_stats (h : buf.Cleared) :
    ∀ source ∈ readFields, (linux26Stats files buf).counter source.1 =
      (readValue (files source.2)).getD 0 := by
  intro source hsource
  have hmem : source.1 ∈ counterFields := by
    revert source
    decide
  have hclear := (h source.1 hmem).2
  simp only [readFields, List.mem_cons, List.not_mem_nil, or_false] at hsource
  rw [linux26Stats]
  obtain rfl | rfl | rfl | rfl | rfl | rfl | rfl := hsource <;>
    simp (disch := decide) only [counter_read_self, counter_read_of_ne, counter_addUp_of_ne,
      hclear]

/-- The totals are sums. -/
theorem counter_total (buf : NetStats) :
    ∀ total ∈ totalFields, (linux26Stats files buf).counter total.1 =
      (linux26Stats files buf).counter total.2.1 +
        (linux26Stats files buf).counter total.2.2 := by
  intro total htotal
  simp only [totalFields, List.mem_cons, List.not_mem_nil, or_false] at htotal
  rw [linux26Stats]
  obtain rfl | rfl | rfl := htotal <;>
    simp (disch := decide) only [counter_read_self, counter_read_of_ne, counter_addUp_of_ne,
      counter_addUp_self]

end

/-- A field without a flag is one that is read, and its file was not. -/
theorem NetStats.Cleared.counter_eq_zero (files : StatisticsFile → Option (List UInt8))
    {buf : NetStats} (h : buf.Cleared) {field : NetloadField} (hfield : field ∈ counterFields)
    (hflag : ¬hasFlag (linux26Stats files buf).flags field.number) :
    (linux26Stats files buf).counter field = 0 := by
  have hread : ∀ field ∈ counterFields, (∃ file, (field, file) ∈ readFields ∧
      sourceFiles field = [file]) ∨ ∀ file, sourceFiles field ≠ [file] := by
    simp [counterFields, sourceFiles, readFields]
  rw [h.hasFlag_stats files field hfield] at hflag
  obtain ⟨file, hmem, hsource⟩ | hsource := hread field hfield
  · simp only [hsource, Bool.not_eq_true] at hflag
    rw [h.counter_stats files (field, file) hmem]
    rw [← isSome_readValue, Option.isSome_eq_false_iff, Option.isNone_iff_eq_none] at hflag
    rw [hflag, Option.getD_none]
  · split at hflag
    · next file hfile => exact absurd hfile (hsource file)
    · exact absurd rfl hflag

/-- The flags are honest exactly when both files of each total can be read. -/
theorem linux26Stats_honest_iff (files : StatisticsFile → Option (List UInt8)) {buf : NetStats}
    (h : buf.Cleared) :
    (linux26Stats files buf).Honest files ↔
      ∀ total ∈ totalFields, ∀ file ∈ sourceFiles total.1, (files file).isSome := by
  constructor
  · intro honest total htotal
    have hmem : total.1 ∈ counterFields := by
      revert total
      decide
    refine honest.read_of_flag total.1 hmem ?_
    rw [h.hasFlag_stats files total.1 hmem]
    simp only [totalFields, List.mem_cons, List.not_mem_nil, or_false] at htotal
    obtain rfl | rfl | rfl := htotal <;> rfl
  · intro hread
    have hfiles : ∀ file, file ≠ .collisions → (files file).isSome := by
      intro file hfile
      obtain ⟨total, htotal, hsource⟩ : ∃ total ∈ totalFields, file ∈ sourceFiles total.1 := by
        cases file <;> first | exact absurd rfl hfile | decide
      exact hread total htotal file hsource
    refine ⟨fun field hfield hflag file hfile ↦ ?_,
      fun field hfield ↦ h.counter_eq_zero files hfield, counter_total files buf⟩
    by_cases hcollisions : file = .collisions
    · subst hcollisions
      have hsource : ∀ field ∈ counterFields, .collisions ∈ sourceFiles field →
          sourceFiles field = [.collisions] := by decide
      rw [h.hasFlag_stats files field hfield, hsource field hfield hfile] at hflag
      exact hflag
    · exact hfiles file hcollisions

/-- The files of an interface. -/
def allFiles (file : StatisticsFile) : Option (List UInt8) :=
  some (asciiBytes (if file = .collisions then ['0', '\n'] else ['1', '\n']))

/-- An interface that is gone when its sent packets are read. -/
def goneFiles (file : StatisticsFile) : Option (List UInt8) :=
  if file = .rxPackets then allFiles file else none

theorem cleared_default : ({} : NetStats).Cleared := by
  intro field _
  exact ⟨BitVec.getLsbD_zero, rfl⟩

theorem linux26Stats_allFiles : (linux26Stats allFiles {}).Honest allFiles :=
  (linux26Stats_honest_iff allFiles cleared_default).mpr fun _ _ _ _ ↦ rfl

/-- Where the second file of a total is gone, the flag of the total is set all the same. -/
theorem not_linux26Stats_honest :
    ¬∀ (files : StatisticsFile → Option (List UInt8)) (buf : NetStats), buf.Cleared →
      (linux26Stats files buf).Honest files := by
  intro h
  have hflag := cleared_default.hasFlag_stats goneFiles .packetsTotal (by decide)
  have hread := (h goneFiles {} cleared_default).read_of_flag .packetsTotal (by decide) hflag
  exact absurd (hread .txPackets (by decide)) (by decide)

end LibGTop.Linux
