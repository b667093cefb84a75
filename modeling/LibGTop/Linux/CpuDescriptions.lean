import LibGTop.Linux.SysinfoText

/-!
# The entries of the processors

When `init_sysinfo` makes the entries of the processors' paragraphs and of no others, each with the
keys and the values of its paragraph.
-/

namespace LibGTop.Linux

open Base

section

variable {line : InfoLine} {ls : List InfoLine} {last : List UInt8}

/-- The lines of a paragraph, and an empty one behind the newline of the last. -/
theorem splitOn_lines (hl : IsEnd last) : ∃ blank, (blank = [] ∨ blank = [[]]) ∧
    (line.text ++ (moreLines ls ++ last)).splitOn 10 = (line :: ls).map InfoLine.text ++ blank := by
  induction ls generalizing line with
  | nil =>
    rw [moreLines, List.flatMap_nil, List.nil_append]
    obtain rfl | rfl := hl
    · refine ⟨[], .inl rfl, ?_⟩
      rw [List.append_nil]
      exact List.splitOn_eq_singleton line.newline_notMem_text
    · exact ⟨[[]], .inr rfl,
        List.splitOn_append_cons_self_of_not_mem line.newline_notMem_text []⟩
  | cons next ls ih =>
    obtain ⟨blank, hblank, hrest⟩ := @ih next
    refine ⟨blank, hblank, ?_⟩
    rw [moreLines_cons, List.cons_append, List.append_assoc,
      List.splitOn_append_cons_self_of_not_mem line.newline_notMem_text, hrest]
    rfl

/-- The pieces of a paragraph without another colon in its lines. -/
theorem splitOnP_lines (hl : IsEnd last) (h : ∀ l ∈ line :: ls, 58 ∉ l.rest.1) :
    ∃ blank, (blank = [] ∨ blank = [[]]) ∧
      (line.text ++ (moreLines ls ++ last)).splitOnP isCut =
        ((line :: ls).flatMap fun l ↦ [l.name.1, l.rest.1]) ++ blank := by
  induction ls generalizing line with
  | nil =>
    have hline := line.splitOnP_text (h line List.mem_cons_self)
    rw [moreLines, List.flatMap_nil, List.nil_append]
    obtain rfl | rfl := hl
    · exact ⟨[], .inl rfl, by rw [List.append_nil, hline]; rfl⟩
    · exact ⟨[[]], .inr rfl, by rw [List.splitOnP_append_cons _ _ rfl, hline]; rfl⟩
  | cons next ls ih =>
    obtain ⟨hfirst, hothers⟩ := List.forall_mem_cons.mp h
    obtain ⟨blank, hblank, hrest⟩ := ih hothers
    refine ⟨blank, hblank, ?_⟩
    rw [moreLines_cons, List.cons_append, List.append_assoc, List.splitOnP_append_cons _ _ rfl,
      line.splitOnP_text hfirst, hrest]
    rfl

theorem pairUp_lines {blank : List (List UInt8)} (hblank : blank = [] ∨ blank = [[]]) :
    pairUp ((ls.flatMap fun l ↦ [l.name.1, l.rest.1]) ++ blank) =
      ls.map fun l ↦ (l.name.1, l.rest.1) := by
  induction ls with
  | nil => obtain rfl | rfl := hblank <;> rfl
  | cons line ls ih =>
    rw [List.map_cons, ← ih]
    rfl

/-- Both texts of a pair are pieces. -/
theorem mem_of_mem_pairUp {pair : List UInt8 × List UInt8} {pieces : List (List UInt8)}
    (h : pair ∈ pairUp pieces) : pair.2 ∈ pieces := by
  fun_induction pairUp pieces with
  | case1 key value pieces ih =>
    obtain rfl | h := List.mem_cons.mp h
    · exact List.mem_cons_of_mem _ List.mem_cons_self
    · exact List.mem_cons_of_mem _ (List.mem_cons_of_mem _ (ih h))
  | case2 => exact absurd h List.not_mem_nil

end

/-- The text of a paragraph has a line with the key `processor`. -/
def ChunkHasProcessor (chunk : List UInt8) : Prop :=
  ∃ l ∈ chunk.splitOn 10, gStrstrip (l.takeWhile (· ≠ 58)) = processorName

section

variable {part : InfoParagraph × List UInt8} {last : List UInt8}

theorem takeWhile_text (line : InfoLine) : line.text.takeWhile (· ≠ 58) = line.name.1 := by
  have hname : ∀ b ∈ line.name.1, decide (b ≠ 58) = true := fun b hb ↦
    decide_eq_true (line.name.2 b hb).2.2
  rw [InfoLine.text, List.takeWhile_append_of_pos hname, List.takeWhile_cons_of_neg (by decide),
    List.append_nil]

/-- The text of a paragraph says whether it is that of a processor. -/
theorem chunkHasProcessor_iff (hl : IsEnd last)
    (hp : part.2 = part.1.first.text ++ (moreLines part.1.others ++ last)) :
    ChunkHasProcessor part.2 ↔ part.1.HasProcessor := by
  obtain ⟨blank, hblank, hlines⟩ := @splitOn_lines part.1.first part.1.others last hl
  have hblank : ∀ l ∈ blank, gStrstrip (l.takeWhile (· ≠ 58)) ≠ processorName := by
    obtain rfl | rfl := hblank
    · exact List.forall_mem_nil _
    · decide
  rw [ChunkHasProcessor, hp, hlines]
  constructor
  · rintro ⟨l, hmem, hkey⟩
    obtain hmem | hmem := List.mem_append.mp hmem
    · obtain ⟨line, hline, rfl⟩ := List.mem_map.mp hmem
      rw [takeWhile_text] at hkey
      exact ⟨line, hline, hkey⟩
    · exact absurd hkey (hblank l hmem)
  · rintro ⟨line, hline, hkey⟩
    refine ⟨line.text, List.mem_append_left _ (List.mem_map_of_mem hline), ?_⟩
    rw [takeWhile_text]
    exact hkey

/-- The paragraph of a processor has the word in its text. -/
theorem isSome_strstr_of_hasProcessor
    (hp : part.2 = part.1.first.text ++ (moreLines part.1.others ++ last))
    (h : part.1.HasProcessor) : (strstr processorName part.2).isSome = true := by
  obtain ⟨line, hline, hkey⟩ := h
  have hname : processorName <:+: line.text := by
    rw [← hkey]
    exact (infix_strip _ _).trans ⟨[], 58 :: line.rest.1, rfl⟩
  have htext : line.text <:+: part.2 := by
    rw [hp]
    obtain rfl | hline := List.mem_cons.mp hline
    · exact (List.prefix_append ..).isInfix
    · obtain ⟨before, after, hls⟩ := List.append_of_mem hline
      refine ⟨part.1.first.text ++ (moreLines before ++ [10]), moreLines after ++ last, ?_⟩
      simp [hls, moreLines]
  rw [isSome_strstr]
  exact hname.trans htext

/-- The entry that is made of a paragraph describes it exactly when its values have no colons and no
key comes twice. -/
theorem describes_readParagraph (hl : IsEnd last)
    (hp : part.2 = part.1.first.text ++ (moreLines part.1.others ++ last)) :
    Describes part.1 (readParagraph part.2) ↔ part.1.Plain := by
  have hne : part.2 ≠ [] := by
    rw [hp]
    exact List.append_ne_nil_of_left_ne_nil part.1.first.text_ne_nil _
  have hpieces : gStrsplitSet [58, 10] part.2 = part.2.splitOnP isCut := if_neg hne
  rw [Describes, readParagraph, hpieces]
  constructor
  · rintro ⟨hlabels, hvalues⟩
    have hnodup : ((((pairUp (part.2.splitOnP isCut)).map
        (Prod.map gStrstrip gStrstrip)).map Prod.fst)).Nodup := by
      by_contra hdup
      have hfreed := @none_mem_labels_of_not_nodup {} _ (.inl hdup)
      rw [hlabels] at hfreed
      obtain ⟨line, -, he⟩ := List.mem_map.mp hfreed
      exact absurd he (Option.some_ne_none _)
    have hkeys := @labels_foldl {} _ hnodup fun _ _ ↦ rfl
    rw [hlabels] at hkeys
    refine ⟨fun line hline hcolon ↦ ?_, ?_⟩
    · obtain h | h := mem_of_values_foldl (hvalues line hline)
      · exact absurd h.symm (Option.some_ne_none _)
      · obtain ⟨pair, hpair, he⟩ := List.mem_map.mp h
        have hpiece := of_mem_splitOnP (mem_of_mem_pairUp hpair)
        have hvalue : gStrstrip pair.2 = line.value := congrArg Prod.snd he
        have hcut : 58 ∈ gStrstrip pair.2 := by
          rw [hvalue]
          exact mem_strip hcolon (by decide)
        exact absurd (hpiece 58 ((infix_strip _ _).subset hcut)) (by decide)
    · refine List.Nodup.of_map some ?_
      rw [List.map_map, Function.comp_def, hkeys]
      change (List.map (some ∘ Prod.fst) _).Nodup
      rw [← List.map_map]
      exact hnodup.map (Option.some_injective _)
  · rintro ⟨hcolons, hkeys⟩
    obtain ⟨blank, hblank, hcut⟩ := splitOnP_lines hl hcolons
    have hpairs : (pairUp (part.2.splitOnP isCut)).map (Prod.map gStrstrip gStrstrip) =
        part.1.lines.map fun line ↦ (line.key, line.value) := by
      rw [hp, hcut, pairUp_lines hblank, List.map_map]
      rfl
    have hnodup : ((part.1.lines.map fun line ↦ (line.key, line.value)).map Prod.fst).Nodup := by
      rwa [List.map_map]
    rw [hpairs]
    refine ⟨?_, fun line hline ↦ ?_⟩
    · rw [labels_foldl hnodup fun _ _ ↦ rfl, List.map_map]
      rfl
    · exact values_foldl hnodup (List.mem_map_of_mem hline)

end

instance (p : InfoParagraph) : Decidable p.HasProcessor :=
  inferInstanceAs (Decidable (∃ line ∈ p.lines, line.key = processorName))

/-- The first processors' paragraphs, each with its text. -/
def processorParts (ending : InfoEnding) (ps : List InfoParagraph) :
    List (InfoParagraph × List UInt8) :=
  ((cpuinfoParts ending ps).filter fun part ↦ part.1.HasProcessor).take glibtopNcpu

/-- The first paragraphs with the word `processor` anywhere, each with its text. -/
def wordParts (ending : InfoEnding) (ps : List InfoParagraph) :
    List (InfoParagraph × List UInt8) :=
  ((cpuinfoParts ending ps).filter fun part ↦ (strstr processorName part.2).isSome).take glibtopNcpu

/-- The entries are made of the first processors' paragraphs, one of each, and describe them. -/
structure SysinfoRight (ending : InfoEnding) (ps : List InfoParagraph) : Prop where
  made : takenParagraphs (gStrsplit 10 [10] (cString (cpuinfoText ending ps))) 0 =
    (processorParts ending ps).map Prod.snd
  described : ∃ sysinfo, initSysinfo {} (some (cpuinfoText ending ps)) = some sysinfo ∧
    List.Forall₂ Describes ((ps.filter fun p ↦ p.HasProcessor).take glibtopNcpu) sysinfo.cpuinfo

theorem zero_notMem_cpuinfoText (ending : InfoEnding) (ps : List InfoParagraph) :
    0 ∉ cpuinfoText ending ps := by
  have hline : ∀ line : InfoLine, 0 ∉ line.text := by
    intro line
    rw [InfoLine.text, List.mem_append, List.mem_cons]
    rintro (h | h | h)
    · exact (line.name.2 0 h).1 rfl
    · exact absurd h (by decide)
    · exact (line.rest.2 0 h).1 rfl
  have htext : ∀ p : InfoParagraph, 0 ∉ p.text := by
    intro p
    rw [InfoParagraph.text, List.mem_append, List.mem_flatMap]
    rintro (h | ⟨line, -, h⟩)
    · exact hline p.first h
    · obtain h | h := List.mem_cons.mp h
      · exact absurd h (by decide)
      · exact hline line h
  induction ps with
  | nil => exact List.not_mem_nil
  | cons p ps ih =>
    cases ps with
    | nil =>
      have hending : 0 ∉ ending.text := by cases ending <;> decide
      rw [cpuinfoText, List.mem_append, not_or]
      exact ⟨htext p, hending⟩
    | cons q ps =>
      rw [cpuinfoText, List.mem_append, not_or, List.mem_cons, List.mem_cons, not_or, not_or]
      exact ⟨htext p, by decide, by decide, ih⟩

theorem map_fst_cpuinfoParts (ending : InfoEnding) (ps : List InfoParagraph) :
    (cpuinfoParts ending ps).map Prod.fst = ps := by
  induction ps with
  | nil => rfl
  | cons p ps ih =>
    cases ps with
    | nil => rfl
    | cons q ps => rw [cpuinfoParts, List.map_cons, ih]

/-- The paragraphs that entries are made of. -/
theorem takenParagraphs_cpuinfoText (ending : InfoEnding) (ps : List InfoParagraph) :
    takenParagraphs (gStrsplit 10 [10] (cString (cpuinfoText ending ps))) 0 =
      (wordParts ending ps).map Prod.snd := by
  obtain ⟨more, hmore, hsplit⟩ := gStrsplit_cpuinfoText ending ps
  have hn : ∀ part ∈ (cpuinfoParts ending ps).map Prod.snd, part ≠ [] := by
    intro text htext
    obtain ⟨part, hpart, rfl⟩ := List.mem_map.mp htext
    obtain ⟨last, -, he⟩ := of_mem_cpuinfoParts hpart
    rw [he]
    exact List.append_ne_nil_of_left_ne_nil part.1.first.text_ne_nil _
  rw [cString_eq_self (zero_notMem_cpuinfoText ending ps), hsplit, takenParagraphs_eq hn hmore,
    wordParts, List.map_take, List.filter_map]
  rfl

/-- The first members of a kind are the first members of a list when these are all of the kind. -/
theorem take_filter_of_forall {α : Type} {p : α → Bool} {n : Nat} {xs : List α}
    (h : ∀ x ∈ xs.take n, p x = true) : (xs.filter p).take n = xs.take n := by
  induction xs generalizing n with
  | nil => rfl
  | cons x xs ih =>
    cases n with
    | zero => rfl
    | succ n =>
      obtain ⟨hx, hxs⟩ := List.forall_mem_cons.mp h
      rw [List.filter_cons_of_pos hx, List.take_succ_cons, List.take_succ_cons, ih hxs]

/-- The first paragraphs with the word are the first processors' paragraphs when all of them are
processors'. -/
theorem processorParts_eq {ending : InfoEnding} {ps : List InfoParagraph}
    (h : ∀ part ∈ wordParts ending ps, part.1.HasProcessor) :
    processorParts ending ps = wordParts ending ps := by
  have hword : (cpuinfoParts ending ps).filter (fun part ↦ part.1.HasProcessor) =
      ((cpuinfoParts ending ps).filter fun part ↦
        (strstr processorName part.2).isSome).filter fun part ↦ part.1.HasProcessor := by
    rw [List.filter_filter]
    refine List.filter_congr fun part hpart ↦ ?_
    obtain ⟨last, -, he⟩ := of_mem_cpuinfoParts hpart
    by_cases hkey : part.1.HasProcessor
    · simp [hkey, isSome_strstr_of_hasProcessor he hkey]
    · simp [hkey]
  rw [processorParts, hword, take_filter_of_forall fun part hpart ↦ decide_eq_true (h part hpart)]
  rfl

/-- The texts of both are the same only then. -/
theorem hasProcessor_of_map_wordParts {ending : InfoEnding} {ps : List InfoParagraph}
    (h : (wordParts ending ps).map Prod.snd = (processorParts ending ps).map Prod.snd) :
    ∀ part ∈ wordParts ending ps, part.1.HasProcessor := by
  have hchunk : ∀ part ∈ cpuinfoParts ending ps,
      (ChunkHasProcessor part.2 ↔ part.1.HasProcessor) := by
    intro part hpart
    obtain ⟨last, hl, he⟩ := of_mem_cpuinfoParts hpart
    exact chunkHasProcessor_iff hl he
  intro part hpart
  have hmem : part.2 ∈ (processorParts ending ps).map Prod.snd := h ▸ List.mem_map_of_mem hpart
  obtain ⟨other, hother, he⟩ := List.mem_map.mp hmem
  obtain ⟨hother, hkey⟩ := List.mem_filter.mp (List.mem_of_mem_take hother)
  refine (hchunk part (List.mem_filter.mp (List.mem_of_mem_take hpart)).1).mp ?_
  rw [← he]
  exact (hchunk other hother).mpr (of_decide_eq_true hkey)

theorem map_fst_processorParts (ending : InfoEnding) (ps : List InfoParagraph) :
    (processorParts ending ps).map Prod.fst =
      (ps.filter fun p ↦ p.HasProcessor).take glibtopNcpu := by
  conv_rhs => rw [← map_fst_cpuinfoParts ending ps, List.filter_map, ← List.map_take]
  rfl

/-- Where the paragraphs with the word are those of the processors, the entries describe them
exactly when these are plain. -/
theorem described_iff {ending : InfoEnding} {ps : List InfoParagraph}
    (h : processorParts ending ps = wordParts ending ps) :
    (∃ sysinfo, initSysinfo {} (some (cpuinfoText ending ps)) = some sysinfo ∧
      List.Forall₂ Describes ((ps.filter fun p ↦ p.HasProcessor).take glibtopNcpu)
        sysinfo.cpuinfo) ↔
    ∀ part ∈ wordParts ending ps, part.1.Plain := by
  have hinit : initSysinfo {} (some (cpuinfoText ending ps)) =
      some ⟨sysdepsSysinfo, ((wordParts ending ps).map Prod.snd).map readParagraph⟩ := by
    rw [← takenParagraphs_cpuinfoText]
    rfl
  have hdescribes : ∀ part ∈ wordParts ending ps,
      (Describes part.1 (readParagraph part.2) ↔ part.1.Plain) := by
    intro part hpart
    obtain ⟨last, hl, he⟩ :=
      of_mem_cpuinfoParts (List.mem_filter.mp (List.mem_of_mem_take hpart)).1
    exact describes_readParagraph hl he
  have hall : List.Forall₂ Describes ((wordParts ending ps).map Prod.fst)
      (((wordParts ending ps).map Prod.snd).map readParagraph) ↔
        ∀ part ∈ wordParts ending ps, part.1.Plain := by
    rw [List.map_map, List.forall₂_map_left_iff, List.forall₂_map_right_iff, List.forall₂_same]
    exact forall₂_congr hdescribes
  rw [← map_fst_processorParts, h, ← hall]
  constructor
  · rintro ⟨sysinfo, hs, hdescribed⟩
    rw [hinit] at hs
    obtain rfl := Option.some.inj hs
    exact hdescribed
  · exact fun hdescribed ↦ ⟨_, hinit, hdescribed⟩

/-- The entries are those of the first 1024 processors' paragraphs, with their keys and values,
exactly when each of the first 1024 paragraphs with the word `processor` anywhere has the key
`processor`, values without colons and no key twice. -/
theorem sysinfoRight_iff (ending : InfoEnding) (ps : List InfoParagraph) :
    SysinfoRight ending ps ↔
      ∀ part ∈ wordParts ending ps, part.1.HasProcessor ∧ part.1.Plain := by
  have hmade := takenParagraphs_cpuinfoText ending ps
  constructor
  · rintro ⟨h, hdescribed⟩
    have hkeys := hasProcessor_of_map_wordParts (hmade.symm.trans h)
    have hplain := (described_iff (processorParts_eq hkeys)).mp hdescribed
    exact fun part hpart ↦ ⟨hkeys part hpart, hplain part hpart⟩
  · intro h
    have heq := processorParts_eq fun part hpart ↦ (h part hpart).1
    refine ⟨by rw [hmade, heq], (described_iff heq).mpr fun part hpart ↦ (h part hpart).2⟩

/-- The line `flags: a:b` of the processor 0. -/
def colonParagraph : InfoParagraph where
  first := ⟨⟨processorName, by decide⟩, ⟨asciiBytes " 0".toList, by decide⟩⟩
  others := [⟨⟨asciiBytes "flags".toList, by decide⟩, ⟨asciiBytes " a:b".toList, by decide⟩⟩]

/-- A colon in a value: the labels are `processor` and `flags`, and the value of `flags` is `a`. -/
theorem not_sysinfoRight_colon : ¬SysinfoRight .newline [colonParagraph] := by
  intro h
  have hword : wordParts .newline [colonParagraph] =
      [(colonParagraph, colonParagraph.text ++ [10])] := by decide
  have heq : processorParts .newline [colonParagraph] = wordParts .newline [colonParagraph] := by
    decide
  have hplain := (described_iff heq).mp h.described
  rw [hword] at hplain
  have hcolon := (hplain _ (List.mem_singleton_self _)).1
  exact absurd hcolon (by decide)

end LibGTop.Linux
