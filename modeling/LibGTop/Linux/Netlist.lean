import LibGTop.Linux.NetDevCounters

/-!
# The list of the interfaces

`glibtop_get_netlist_s` (`sysdeps/linux/netlist.c:41–80`), which reads the table
of `/proc/net/dev` as well, and what `linux_2_4_stats` makes of a name on the list.
-/

namespace LibGTop.Linux

open Base Common

/-- `glibtop_netlist`, `include/glibtop/netlist.h:38–42`. -/
structure Netlist where
  flags : BitVec 64 := 0
  number : BitVec 32 := 0
  deriving DecidableEq

/-- `_glibtop_sysdeps_netlist`. -/
def sysdepsNetlist : BitVec 64 := flagBits [0]

/-- The name in a line, `sysdeps/linux/netlist.c:63–69`; absent for a line without a colon. -/
def listedName (line : List UInt8) : Option (List UInt8) :=
  (strchr 58 line).map fun sep ↦ gStrstrip (line.take (line.length - sep.length))

/-- `glibtop_get_netlist_s`, `sysdeps/linux/netlist.c:41–80`, on the text of `/proc/net/dev`, unless
it cannot be opened. -/
def glibtopGetNetlistS (file : Option (List UInt8)) : Option (List (List UInt8)) × Netlist :=
  match file with
  | none => (none, {})
  | some text =>
    let devices := (fgets 1024 text).filterMap listedName
    (some devices, ⟨sysdepsNetlist, BitVec.ofNat 32 devices.length⟩)

theorem isSpace_of_gAsciiIsspace {b : UInt8} (h : isSpace b = false) : gAsciiIsspace b = false := by
  rw [Bool.eq_false_iff]
  intro hs
  simp only [gAsciiIsspace, Bool.or_eq_true, decide_eq_true_eq, or_assoc] at hs
  obtain rfl | rfl | rfl | rfl | rfl := hs
  all_goals exact absurd h (by decide)

/-- The line of an interface gives its name. -/
theorem NetDevice.listedName_line (d : NetDevice) :
    listedName (d.line ++ [10]) = some d.name.1 := by
  have hcolon : (58 : UInt8) ∉ d.lead.1 ++ d.name.1 := by
    rw [List.mem_append, not_or]
    refine ⟨fun h ↦ ?_, fun h ↦ (d.name.2 58 h).2.1 rfl⟩
    exact absurd (d.lead.2 58 h) (by decide)
  have hzero : (0 : UInt8) ∉ d.lead.1 ++ d.name.1 := by
    rw [List.mem_append, not_or]
    exact ⟨fun h ↦ (ne_of_isBlankByte (d.lead.2 0 h)).1 rfl, fun h ↦ (d.name.2 0 h).1 rfl⟩
  have hlead : ∀ b ∈ d.lead.1, gAsciiIsspace b := by
    intro b hb
    have hblank := d.lead.2 b hb
    simp only [isBlankByte, Bool.or_eq_true, decide_eq_true_eq] at hblank
    obtain rfl | rfl := hblank <;> decide
  have hline : d.line ++ [10] = (d.lead.1 ++ d.name.1) ++ 58 :: (d.blanks.1 ++ d.numbers) := by
    rw [d.line_eq, List.append_assoc]
  have htake : ((d.lead.1 ++ d.name.1) ++ 58 :: (d.blanks.1 ++ d.numbers)).take
      (((d.lead.1 ++ d.name.1) ++ 58 :: (d.blanks.1 ++ d.numbers)).length -
        (58 :: (d.blanks.1 ++ d.numbers)).length) = d.lead.1 ++ (d.name.1 ++ []) := by
    rw [List.length_append, Nat.add_sub_cancel, List.take_left, List.append_nil]
  rw [listedName, hline, strchr_append hcolon hzero, Option.map_some, htake, gStrstrip,
    strip_append hlead (List.forall_mem_nil _) fun b hb ↦
      isSpace_of_gAsciiIsspace (d.name.2 b hb).2.2]

namespace NetDevTable

variable {t : NetDevTable}

/-- The list has the names of all devices, where colons are behind these only. -/
theorem filterMap_listedName (hshort : ∀ line ∈ t.lines, line.length + 1 < 1024)
    (htitle : 58 ∉ t.title.1) (hheader : 58 ∉ t.header) :
    (fgets 1024 t.text).filterMap listedName = t.devices.map fun d ↦ d.name.1 := by
  have hskip : ∀ line : List UInt8, 58 ∉ line → listedName (line ++ [10]) = none := by
    intro line h
    have hn : (58 : UInt8) ∉ line ++ [10] := by
      rw [List.mem_append, List.mem_singleton, not_or]
      exact ⟨h, by decide⟩
    rw [listedName, strchr_eq_none hn, Option.map_none]
  have hlines : ∀ line ∈ t.lines, 10 ∉ line ∧ line.length + 1 < 1024 :=
    fun line hline ↦ ⟨newline_notMem_lines line hline, hshort line hline⟩
  have hd : (listedName ∘ ((fun line ↦ line ++ [10]) ∘ NetDevice.line)) =
      some ∘ fun d : NetDevice ↦ d.name.1 := funext fun d ↦ d.listedName_line
  rw [NetDevTable.text, Base.fgets_text hlines, NetDevTable.lines, List.map_cons, List.map_cons,
    List.filterMap_cons_none (hskip _ htitle), List.filterMap_cons_none (hskip _ hheader),
    List.map_map, List.filterMap_map, hd, List.filterMap_eq_map]

/-- The two readers of the table agree on the interfaces. For every table whose lines fit the
smaller of their buffers, with colons behind the names only: the list has the names of all devices
in their order, and the counters that are read for a name are those behind the first device of that
name when the name is on the list, each from its column where the names of the columns are plain;
for any other name nothing is read. -/
theorem netlist_netload (t : NetDevTable) (hshort : ∀ line ∈ t.lines, line.length + 1 < 1024)
    (htitle : 58 ∉ t.title.1) (hheader : 58 ∉ t.header) :
    ∃ names, glibtopGetNetlistS (some t.text) =
        (some names, ⟨sysdepsNetlist, BitVec.ofNat 32 t.devices.length⟩) ∧
      names = t.devices.map (fun d ↦ d.name.1) ∧
      ∀ interface junk buf,
        (interface ∈ names → ∃ d, (t.devices.find? fun d ↦ d.name.1 = interface) = some d ∧
          (∃ buf', linux24Stats junk (some t.text) interface buf = some buf' ∧
            buf' = readCounters (bytesName.isPrefixOf t.receive.first.1)
              (t.receive.others.length - 1) d.numbers buf ∧
            (t.PlainNames → d.Counted (if t.HasBytes then 1 else 0) buf'))) ∧
        (interface ∉ names → linux24Stats junk (some t.text) interface buf = some buf) := by
  have hfits : t.Fits := fun line hline ↦ Nat.lt_trans (hshort line hline) (by decide)
  have hnames := filterMap_listedName hshort htitle hheader
  refine ⟨_, ?_, rfl, ?_⟩
  · rw [glibtopGetNetlistS]
    simp only [hnames, List.length_map]
  · intro interface junk buf
    have hstats := hfits.linux24Stats_find interface junk buf
    constructor
    · intro hm
      obtain ⟨d, hd, hname⟩ := List.mem_map.mp hm
      cases hfind : t.devices.find? fun d ↦ d.name.1 = interface with
      | none => exact absurd (decide_eq_true hname) (List.find?_eq_none.mp hfind d hd)
      | some first =>
        have hfirst : first ∈ t.devices := List.mem_of_find?_eq_some hfind
        exact ⟨first, rfl, _, by rw [hstats, hfind], rfl, fun hplain ↦ hplain.counted hfirst buf⟩
    · intro hm
      have hfind : (t.devices.find? fun d ↦ d.name.1 = interface) = none := by
        rw [List.find?_eq_none]
        intro d hd hname
        exact hm (List.mem_map.mpr ⟨d, hd, of_decide_eq_true hname⟩)
      rw [hstats, hfind]

end NetDevTable

/-- A device with another name, and other counters. -/
def eth0Device : NetDevice :=
  { loDevice with name := ⟨asciiBytes "eth0".toList, by decide⟩, first := 9 }

/-- A table of two devices, one of which is there twice. -/
def twoDevices : NetDevTable :=
  { plainTable with
    devices := [eth0Device, loDevice, { eth0Device with first := 10 }]
    matching := List.forall_mem_cons.mpr ⟨⟨rfl, rfl⟩, List.forall_mem_cons.mpr
      ⟨⟨rfl, rfl⟩, List.forall_mem_singleton.mpr ⟨rfl, rfl⟩⟩⟩ }

theorem netlist_netload_twoDevices :
    ∃ names, glibtopGetNetlistS (some twoDevices.text) = (some names, ⟨sysdepsNetlist, 3⟩) ∧
      names = twoDevices.devices.map (fun d ↦ d.name.1) ∧
      ∃ buf', linux24Stats [] (some twoDevices.text) (asciiBytes "eth0".toList) {} = some buf' ∧
        eth0Device.Counted 0 buf' := by
  obtain ⟨names, hlist, hnames, hread⟩ :=
    NetDevTable.netlist_netload twoDevices (by decide) (by decide) (by decide)
  refine ⟨names, hlist, hnames, ?_⟩
  obtain ⟨d, hd, buf', hstats, -, hcounted⟩ :=
    (hread (asciiBytes "eth0".toList) [] {}).1 (by rw [hnames]; exact List.mem_cons_self)
  obtain rfl : eth0Device = d := Option.some.inj hd
  exact ⟨buf', hstats, hcounted (by decide)⟩

end LibGTop.Linux
