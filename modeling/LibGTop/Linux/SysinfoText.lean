import LibGTop.Linux.Sysinfo

/-!
# The paragraphs of `/proc/cpuinfo`

Which texts `init_sysinfo` describes the processors of. A paragraph is taken for that of a processor
when the word is anywhere in it, and is cut at its colons as it is at its newlines.
-/

namespace LibGTop.Linux

open Base

/-- A byte that cuts a paragraph. -/
def isCut (b : UInt8) : Bool := [58, 10].contains b

namespace InfoLine

variable (line : InfoLine)

theorem newline_notMem_text : 10 ∉ line.text := by
  rw [text, List.mem_append, List.mem_cons]
  rintro (h | h | h)
  · exact (line.name.2 10 h).2.1 rfl
  · exact absurd h (by decide)
  · exact (line.rest.2 10 h).2 rfl

theorem text_ne_nil : line.text ≠ [] := List.append_ne_nil_of_right_ne_nil _ (List.cons_ne_nil _ _)

theorem name_cut : ∀ b ∈ line.name.1, isCut b = false := by
  intro b hb
  obtain ⟨-, h10, h58⟩ := line.name.2 b hb
  simp [isCut, h10, h58]

/-- A line does not start with a newline. -/
theorem head_ne {b : UInt8} {more : List UInt8} (h : line.text = b :: more) : b ≠ 10 :=
  fun he ↦ line.newline_notMem_text (by rw [h, he]; exact List.mem_cons_self)

/-- A line without another colon is cut into its name and the text behind it. -/
theorem splitOnP_text (h : 58 ∉ line.rest.1) :
    line.text.splitOnP isCut = [line.name.1, line.rest.1] := by
  have hrest : ∀ b ∈ line.rest.1, isCut b = false := by
    intro b hb
    have h58 : b ≠ 58 := fun he ↦ h (he ▸ hb)
    simp [isCut, h58, (line.rest.2 b hb).2]
  rw [text, List.splitOnP_append_cons_of_forall_mem line.name_cut 58 rfl,
    List.splitOnP_eq_singleton hrest]

end InfoLine

/-- Lines with a newline before each. -/
def moreLines (ls : List InfoLine) : List UInt8 := ls.flatMap fun line ↦ 10 :: line.text

theorem moreLines_cons (line : InfoLine) (ls : List InfoLine) :
    moreLines (line :: ls) = 10 :: (line.text ++ moreLines ls) := by
  simp [moreLines]

/-- The end of the text of a paragraph, in its last line or with its newline. -/
def IsEnd (last : List UInt8) : Prop := last = [] ∨ last = [10]

/-- No blank line is in a paragraph. -/
theorem strstr_lines_none (line : InfoLine) (ls : List InfoLine) {last : List UInt8}
    (hl : IsEnd last) : strstr [10, 10] (line.text ++ (moreLines ls ++ last)) = none := by
  induction ls generalizing line with
  | nil =>
    rw [moreLines, List.flatMap_nil, List.nil_append]
    obtain rfl | rfl := hl
    · rw [List.append_nil, ← Option.not_isSome_iff_eq_none, isSome_strstr]
      exact fun h ↦ line.newline_notMem_text (h.subset List.mem_cons_self)
    · rw [strstr_newline [10] line.newline_notMem_text]
      rfl
  | cons next ls ih =>
    obtain ⟨b, more, hb⟩ := List.exists_cons_of_ne_nil next.text_ne_nil
    have hne : b ≠ 10 := next.head_ne hb
    have hstart : ¬([10] : List UInt8).isPrefixOf (next.text ++ (moreLines ls ++ last)) = true := by
      rw [hb, List.cons_append, List.isPrefixOf_iff_prefix, List.cons_prefix_cons]
      exact fun h ↦ hne h.1.symm
    rw [moreLines_cons, List.cons_append, List.append_assoc,
      strstr_newline [10] line.newline_notMem_text, if_neg hstart]
    exact ih next

/-- The blank line behind a paragraph is found. -/
theorem strstr_lines (line : InfoLine) (ls : List InfoLine) (rest : List UInt8) :
    strstr [10, 10] (line.text ++ (moreLines ls ++ 10 :: 10 :: rest)) =
      some (10 :: 10 :: rest) := by
  induction ls generalizing line with
  | nil =>
    rw [moreLines, List.flatMap_nil, List.nil_append, strstr_newline [10] line.newline_notMem_text]
    rfl
  | cons next ls ih =>
    obtain ⟨b, more, hb⟩ := List.exists_cons_of_ne_nil next.text_ne_nil
    have hne : b ≠ 10 := next.head_ne hb
    have hstart : ¬([10] : List UInt8).isPrefixOf
        (next.text ++ (moreLines ls ++ 10 :: 10 :: rest)) = true := by
      rw [hb, List.cons_append, List.isPrefixOf_iff_prefix, List.cons_prefix_cons]
      exact fun h ↦ hne h.1.symm
    rw [moreLines_cons, List.cons_append, List.append_assoc,
      strstr_newline [10] line.newline_notMem_text, if_neg hstart]
    exact ih next

/-- What an ending leaves of itself in the last paragraph. -/
def InfoEnding.kept : InfoEnding → List UInt8
  | newline => [10]
  | _ => []

/-- The paragraphs, each with its text. -/
def cpuinfoParts (ending : InfoEnding) : List InfoParagraph → List (InfoParagraph × List UInt8)
  | [] => []
  | [p] => [(p, p.text ++ ending.kept)]
  | p :: q :: ps => (p, p.text) :: cpuinfoParts ending (q :: ps)

theorem InfoParagraph.text_append_ne_nil (p : InfoParagraph) (rest : List UInt8) :
    p.text ++ rest ≠ [] :=
  List.append_ne_nil_of_left_ne_nil (List.append_ne_nil_of_left_ne_nil p.first.text_ne_nil _) _

/-- The first blank line is the one behind the first paragraph. -/
theorem strsplit_paragraph (p : InfoParagraph) (rest : List UInt8) :
    strsplit 10 [10] (p.text ++ 10 :: 10 :: rest) = p.text :: strsplit 10 [10] rest := by
  refine strsplit_of_strstr ?_ rfl
  rw [InfoParagraph.text, List.append_assoc]
  exact strstr_lines p.first p.others rest

theorem strsplit_lastParagraph (p : InfoParagraph) {last : List UInt8} (hl : IsEnd last) :
    strsplit 10 [10] (p.text ++ last) = [p.text ++ last] := by
  refine strsplit_of_none ?_
  rw [InfoParagraph.text, List.append_assoc]
  exact strstr_lines_none p.first p.others hl

/-- The last paragraph is one string, and a blank line behind it adds an empty one. -/
theorem strsplit_ending (ending : InfoEnding) (p : InfoParagraph) :
    ∃ more, (more = [] ∨ more = [[]]) ∧
      strsplit 10 [10] (cpuinfoText ending [p]) =
        (cpuinfoParts ending [p]).map Prod.snd ++ more := by
  rw [cpuinfoText, cpuinfoParts]
  cases ending with
  | none => exact ⟨[], .inl rfl, strsplit_lastParagraph p (.inl rfl)⟩
  | newline => exact ⟨[], .inl rfl, strsplit_lastParagraph p (.inr rfl)⟩
  | blankLine =>
    have hblank : p.text ++ InfoEnding.blankLine.kept = p.text := List.append_nil _
    refine ⟨[[]], .inr rfl, (strsplit_paragraph p []).trans ?_⟩
    rw [strsplit_of_none rfl, hblank]
    rfl

theorem strsplit_cpuinfoText (ending : InfoEnding) (p : InfoParagraph) (ps : List InfoParagraph) :
    ∃ more, (more = [] ∨ more = [[]]) ∧
      strsplit 10 [10] (cpuinfoText ending (p :: ps)) =
        (cpuinfoParts ending (p :: ps)).map Prod.snd ++ more := by
  induction ps generalizing p with
  | nil => exact strsplit_ending ending p
  | cons q ps ih =>
    obtain ⟨more, hmore, hrest⟩ := ih q
    refine ⟨more, hmore, ?_⟩
    rw [cpuinfoText, strsplit_paragraph, hrest, cpuinfoParts]
    rfl

/-- What the text is split into: the texts of the paragraphs, and an empty one behind a blank line
at the end. -/
theorem gStrsplit_cpuinfoText (ending : InfoEnding) (ps : List InfoParagraph) :
    ∃ more, (more = [] ∨ more = [[]]) ∧
      gStrsplit 10 [10] (cpuinfoText ending ps) =
        (cpuinfoParts ending ps).map Prod.snd ++ more := by
  cases ps with
  | nil => exact ⟨[], .inl rfl, rfl⟩
  | cons p ps =>
    have hne : cpuinfoText ending (p :: ps) ≠ [] := by
      cases ps with
      | nil => exact p.text_append_ne_nil _
      | cons q ps => exact p.text_append_ne_nil _
    rw [gStrsplit, if_neg hne]
    exact strsplit_cpuinfoText ending p ps

/-- The text of each paragraph is its lines, and it may have the newline of the last one. -/
theorem of_mem_cpuinfoParts {ending : InfoEnding} {ps : List InfoParagraph}
    {part : InfoParagraph × List UInt8} (h : part ∈ cpuinfoParts ending ps) :
    ∃ last, IsEnd last ∧ part.2 = part.1.first.text ++ (moreLines part.1.others ++ last) := by
  induction ps with
  | nil => exact absurd h List.not_mem_nil
  | cons p ps ih =>
    cases ps with
    | nil =>
      rw [cpuinfoParts, List.mem_singleton] at h
      subst h
      refine ⟨ending.kept, ?_, List.append_assoc ..⟩
      cases ending with
      | none => exact .inl rfl
      | newline => exact .inr rfl
      | blankLine => exact .inl rfl
    | cons q ps =>
      rw [cpuinfoParts, List.mem_cons] at h
      obtain rfl | h := h
      · exact ⟨[], .inl rfl, by rw [List.append_nil]; rfl⟩
      · exact ih h

/-- The paragraphs an entry is made of are those with the word, up to the number of entries that
there is room for. -/
theorem takenParagraphs_eq {parts more : List (List UInt8)} (hn : ∀ part ∈ parts, part ≠ [])
    (hmore : more = [] ∨ more = [[]]) (ncpu : Nat) :
    takenParagraphs (parts ++ more) ncpu =
      (parts.filter fun part ↦ (strstr processorName part).isSome).take (glibtopNcpu - ncpu) := by
  induction parts generalizing ncpu with
  | nil =>
    rw [List.nil_append, List.filter_nil, List.take_nil]
    obtain rfl | rfl := hmore
    · rfl
    · exact if_pos rfl
  | cons part parts ih =>
    obtain ⟨hpart, hn⟩ := List.forall_mem_cons.mp hn
    rw [List.cons_append, takenParagraphs, if_neg hpart]
    by_cases hfull : glibtopNcpu ≤ ncpu
    · rw [if_pos hfull, Nat.sub_eq_zero_of_le hfull, List.take_zero]
    · rw [if_neg hfull]
      by_cases hword : (strstr processorName part).isSome = true
      · obtain ⟨room, hroom⟩ : ∃ room, glibtopNcpu - ncpu = room + 1 :=
          ⟨glibtopNcpu - ncpu - 1, by omega⟩
        have hnext : glibtopNcpu - (ncpu + 1) = room := by omega
        rw [if_neg (by rw [Option.isNone_eq_false_iff.mpr hword]; exact Bool.false_ne_true), ih hn,
          List.filter_cons_of_pos (p := fun part ↦ (strstr processorName part).isSome) hword, hroom,
          List.take_succ_cons, hnext]
      · rw [if_pos (by rw [Option.isNone_iff_eq_none]; simpa using hword), ih hn,
          List.filter_cons_of_neg (p := fun part ↦ (strstr processorName part).isSome) hword]

end LibGTop.Linux
