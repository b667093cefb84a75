import LibGTop.Base.Tokens
import LibGTop.Linux.NetSysfs

/-!
# The counters of an interface in `/proc/net/dev`

`linux_2_4_stats` (`sysdeps/linux/netload.c:336–447`) on the text of `/proc/net/dev`, and which
header lines its scan leaves at or before their terminator. A scan that goes on behind the
terminator has no result.
-/

namespace LibGTop.Linux

open Base Common

/-- `strchr`: the text from the first such byte before the terminator. -/
def strchr (c : UInt8) (memory : List UInt8) : Option (List UInt8) :=
  match memory.dropWhile fun b ↦ b ≠ 0 && b ≠ c with
  | [] => none
  | b :: rest => if b = c then some (b :: rest) else none

/-- The loop `while (isspace (*p++)) ;`, which takes the first byte behind the blanks too. -/
def passBlanks : List UInt8 → Option (List UInt8)
  | [] => none
  | b :: p => if isSpace b then passBlanks p else some p

theorem length_of_passBlanks {p rest : List UInt8} (h : passBlanks p = some rest) :
    rest.length < p.length := by
  induction p with
  | nil => exact absurd h nofun
  | cons b p ih =>
    rw [passBlanks] at h
    split at h
    · exact Nat.lt_succ_of_lt (ih h)
    · exact Option.some.inj h ▸ Nat.lt_succ_self p.length

/-- The loop over the receive columns, `sysdeps/linux/netload.c:377–382`: the number of fields. -/
def countFields (p : List UInt8) (fields : Nat) : Option Nat :=
  match p with
  | [] => none
  | b :: p =>
    if b = 124 then some fields
    else if !isSpace b then countFields p fields
    else
      match _h : passBlanks p with
      | none => none
      | some p => countFields p (fields + 1)
termination_by p.length
decreasing_by
  · exact Nat.lt_succ_self p.length
  · exact Nat.lt_succ_of_lt (length_of_passBlanks _h)

/-- What the second header line says: whether there are byte counters and the number of fields, or
nothing where the function returns, `sysdeps/linux/netload.c:361–390`. -/
def headerColumns (memory : List UInt8) : Option (Option (Bool × Nat)) :=
  match strchr 124 memory with
  | none => some none
  | some p =>
    let p := p.drop 1
    let haveBytes := (asciiBytes "bytes".toList).isPrefixOf p
    (countFields p 0).map fun fields ↦ if fields < 2 then none else some (haveBytes, fields - 1)

/-- The counters behind the name of an interface, `sysdeps/linux/netload.c:411–441`. -/
def readCounters (haveBytes : Bool) (fields : Nat) (p : List UInt8) (buf : NetStats) : NetStats :=
  let received := if haveBytes then strtoull 0 p else (buf.counter .bytesIn, p)
  let buf := buf.set .bytesIn received.1
  let fields := if haveBytes then fields - 1 else fields
  let packets := strtoull 0 received.2
  let errors := strtoull 0 packets.2
  let buf := (buf.set .packetsIn packets.1).set .errorsIn errors.1
  let p := skipMultipleToken errors.2 fields
  let sent := if haveBytes then strtoull 0 p else (buf.counter .bytesOut, p)
  let buf := buf.set .bytesOut sent.1
  let packets := strtoull 0 sent.2
  let errors := strtoull 0 packets.2
  let buf := (buf.set .packetsOut packets.1).set .errorsOut errors.1
  let collisions := strtoull 0 (skipMultipleToken errors.2 2)
  let buf := buf.set .collisions collisions.1
  let buf := buf.set .bytesTotal (buf.counter .bytesIn + buf.counter .bytesOut)
  let buf := buf.set .packetsTotal (buf.counter .packetsIn + buf.counter .packetsOut)
  let buf := ((buf.flag .errorsIn).flag .errorsOut).flag .collisions
  let buf := ((buf.flag .packetsIn).flag .packetsOut).flag .packetsTotal
  if haveBytes then ((buf.flag .bytesIn).flag .bytesOut).flag .bytesTotal else buf

/-- The text behind the name in a line of the interface, `sysdeps/linux/netload.c:395–410`; absent
for a line that the loop passes over. -/
def interfaceLine (interface line : List UInt8) : Option (List UInt8) :=
  let dev := (cString line).dropWhile isSpace
  match strchr 58 dev with
  | none => none
  | some p =>
    let p := (p.drop 1).dropWhile isSpace
    if (p.head?.any fun b ↦ 48 ≤ b && b ≤ 57) ∧ dev.takeWhile (· ≠ 58) = interface then some p
    else none

/-- `linux_2_4_stats`, `sysdeps/linux/netload.c:336–447`, on what the buffer holds at first. -/
def linux24Stats (junk : List UInt8) (file : Option (List UInt8)) (interface : List UInt8)
    (buf : NetStats) : Option NetStats :=
  match file with
  | none => some buf
  | some text =>
    let reads := fgets (bufsiz - 1) text
    let buffer := (reads.take 2).getLastD junk
    (headerColumns (buffer ++ [0])).map fun columns ↦
      match columns with
      | none => buf
      | some (haveBytes, fields) =>
        match (reads.drop 2).findSome? (interfaceLine interface) with
        | none => buf
        | some p => readCounters haveBytes fields p buf

/-- There is a bar that is not directly behind a blank, where the text itself may be behind one. -/
def Closed (blank : Bool) (p : List UInt8) : Prop :=
  ∃ before after, p = before ++ 124 :: after ∧ before.getLast?.elim blank isSpace = false

theorem not_closed_nil (blank : Bool) : ¬Closed blank [] := by
  rintro ⟨before, after, he, -⟩
  exact List.append_ne_nil_of_right_ne_nil before (List.cons_ne_nil 124 after) he.symm

/-- The bar is the first byte, or behind it. -/
theorem closed_cons (blank : Bool) (b : UInt8) (p : List UInt8) :
    Closed blank (b :: p) ↔ b = 124 ∧ blank = false ∨ Closed (isSpace b) p := by
  constructor
  · rintro ⟨before, after, he, hb⟩
    cases before with
    | nil =>
      obtain ⟨rfl, -⟩ := List.cons.inj he
      exact .inl ⟨rfl, hb⟩
    | cons c before =>
      obtain ⟨rfl, rfl⟩ := List.cons.inj he
      refine .inr ⟨before, after, rfl, ?_⟩
      rw [List.getLast?_cons] at hb
      cases hl : before.getLast? with
      | none => rwa [hl] at hb
      | some c => rwa [hl] at hb
  · rintro (⟨rfl, rfl⟩ | ⟨before, after, rfl, hb⟩)
    · exact ⟨[], p, rfl, rfl⟩
    · refine ⟨b :: before, after, rfl, ?_⟩
      rw [List.getLast?_cons]
      cases hl : before.getLast? with
      | none => rwa [hl] at hb
      | some c => rwa [hl] at hb

/-- Behind a blank the first byte that is none cannot be the bar. -/
theorem closed_passBlanks (p : List UInt8) :
    Closed true p ↔ ∃ rest ∈ passBlanks p, Closed false rest := by
  induction p with
  | nil => exact iff_of_false (not_closed_nil true) nofun
  | cons b p ih =>
    have hc : Closed true (b :: p) ↔ Closed (isSpace b) p := by
      rw [closed_cons]
      exact or_iff_right fun h ↦ Bool.noConfusion h.2
    rw [hc, passBlanks]
    by_cases hb : isSpace b = true
    · rw [if_pos hb, hb, ih]
    · rw [if_neg hb, Bool.eq_false_iff.mpr hb]
      exact ⟨fun h ↦ ⟨p, rfl, h⟩, fun ⟨rest, hr, h⟩ ↦ Option.some.inj hr ▸ h⟩

/-- The scan of the columns ends exactly where there is such a bar. -/
theorem isSome_countFields (p : List UInt8) (fields : Nat) :
    (countFields p fields).isSome ↔ Closed false p := by
  induction p, fields using countFields.induct with
  | case1 fields =>
    rw [countFields]
    exact iff_of_false Bool.false_ne_true (not_closed_nil false)
  | case2 fields p =>
    rw [countFields, if_pos rfl]
    exact iff_of_true rfl ⟨[], p, rfl, rfl⟩
  | case3 fields b p hbar hb ih =>
    have hs : isSpace b = false := by simpa using hb
    rw [countFields, if_neg hbar, if_pos hb, ih, closed_cons, hs]
    exact (or_iff_right fun h ↦ hbar h.1).symm
  | case4 fields b p hbar hb hpass =>
    have hs : isSpace b = true := by simpa using hb
    rw [countFields, if_neg hbar, if_neg hb, closed_cons, hs, closed_passBlanks, hpass]
    exact iff_of_false Bool.false_ne_true fun h ↦ h.elim (fun h ↦ hbar h.1) nofun
  | case5 fields b p hbar hb rest hpass ih =>
    have hs : isSpace b = true := by simpa using hb
    rw [countFields, if_neg hbar, if_neg hb, closed_cons, hs, closed_passBlanks, hpass]
    simp only [ih, hbar, false_and, false_or, Option.mem_some_iff, exists_eq_left']

/-- The terminator is no bar. -/
theorem closed_append_zero (blank : Bool) (p : List UInt8) :
    Closed blank (p ++ [0]) ↔ Closed blank p := by
  induction p generalizing blank with
  | nil =>
    rw [List.nil_append, closed_cons]
    refine iff_of_false (fun h ↦ ?_) (not_closed_nil blank)
    exact h.elim (fun h ↦ absurd h.1 (by decide)) (not_closed_nil _)
  | cons b p ih => rw [List.cons_append, closed_cons, closed_cons, ih]

section

variable {c : UInt8} {before : List UInt8}

/-- The first such byte is found, if no terminator is before it. -/
theorem strchr_append (hc : c ∉ before) (h0 : 0 ∉ before) (rest : List UInt8) :
    strchr c (before ++ c :: rest) = some (c :: rest) := by
  have hb : ∀ b ∈ before, (b ≠ 0 && b ≠ c) = true := by
    intro b hb
    have h0 : b ≠ 0 := fun he ↦ h0 (he ▸ hb)
    have hc : b ≠ c := fun he ↦ hc (he ▸ hb)
    simp [h0, hc]
  rw [strchr, List.dropWhile_append_of_pos hb, List.dropWhile_cons_of_neg (by simp)]
  exact if_pos rfl

/-- What is found starts at the first such byte. -/
theorem of_strchr {memory p : List UInt8} (h : strchr c memory = some p) :
    ∃ before rest, memory = before ++ c :: rest ∧ p = c :: rest ∧ c ∉ before ∧ 0 ∉ before := by
  have htake : ∀ b ∈ memory.takeWhile fun b ↦ b ≠ 0 && b ≠ c, b ≠ 0 ∧ b ≠ c := fun b hb ↦ by
    simpa using List.mem_takeWhile_imp hb
  have hsplit := List.takeWhile_append_dropWhile (p := fun b ↦ b ≠ 0 && b ≠ c) (l := memory)
  rw [strchr] at h
  split at h
  · exact absurd h nofun
  · next b rest hd =>
    split at h
    · next hb =>
      subst hb
      rw [hd] at hsplit
      exact ⟨_, rest, hsplit.symm, (Option.some.inj h).symm, fun hm ↦ (htake b hm).2 rfl,
        fun hm ↦ (htake 0 hm).1 rfl⟩
    · exact absurd h nofun

theorem strchr_eq_none {memory : List UInt8} (h : c ∉ memory) : strchr c memory = none := by
  rw [Option.eq_none_iff_forall_ne_some]
  intro p hp
  obtain ⟨before, rest, rfl, -⟩ := of_strchr hp
  exact h (List.mem_append_right before List.mem_cons_self)

end

/-- Behind the first bar of a line, if it has one, there is another that is not directly behind a
blank. -/
def HeaderCloses (line : List UInt8) : Prop :=
  ∀ before rest, line = before ++ 124 :: rest → 124 ∉ before → 0 ∉ before → Closed false rest

/-- The header line is left at or before its terminator exactly when its bars close. -/
theorem isSome_headerColumns (line : List UInt8) :
    (headerColumns (line ++ [0])).isSome ↔ HeaderCloses line := by
  rw [headerColumns]
  cases hfound : strchr 124 (line ++ [0]) with
  | none =>
    refine iff_of_true rfl fun before rest he hbar h0 ↦ ?_
    rw [he, List.append_assoc, List.cons_append, strchr_append hbar h0] at hfound
    exact absurd hfound nofun
  | some p =>
    obtain ⟨before, rest, he, rfl, hbar, h0⟩ := of_strchr hfound
    obtain ⟨rest, rfl⟩ : ∃ rest', rest = rest' ++ [0] := by
      obtain rfl | ⟨rest, b, rfl⟩ := List.eq_nil_or_concat' rest
      · exact absurd (List.append_inj' he rfl).2 (by decide)
      · rw [← List.cons_append, ← List.append_assoc] at he
        exact ⟨rest, by rw [(List.append_inj' he rfl).2]⟩
    have hline : line = before ++ 124 :: rest := by
      rw [← List.cons_append, ← List.append_assoc] at he
      exact (List.append_inj' he rfl).1
    rw [Option.isSome_map, List.drop_one, List.tail_cons, isSome_countFields, closed_append_zero]
    refine ⟨fun hclosed before' rest' he' hbar' h0' ↦ ?_, fun h ↦ h before rest hline hbar h0⟩
    have hbefore := eq_of_append_cons_eq hbar hbar' (hline.symm.trans he')
    subst hbefore
    have hrest := List.append_cancel_left (hline.symm.trans he')
    exact (List.cons.inj hrest).2 ▸ hclosed

/-- The file is read without a look behind the terminator of its second line exactly when the bars
of that line close. -/
theorem isSome_linux24Stats (junk text interface : List UInt8) (buf : NetStats) :
    (linux24Stats junk (some text) interface buf).isSome ↔
      HeaderCloses (((fgets (bufsiz - 1) text).take 2).getLastD junk) := by
  rw [← isSome_headerColumns, linux24Stats, Option.isSome_map]

/-- A header with one bar only. -/
def oneBarText : List UInt8 := text [asciiBytes "Inter-".toList, asciiBytes " face |b".toList]

/-- Behind a single bar the scan goes on over the terminator. -/
theorem not_isSome_linux24Stats :
    ¬∀ (junk text interface : List UInt8) (buf : NetStats),
      (linux24Stats junk (some text) interface buf).isSome := by
  intro h
  have hfits : ∀ line ∈ [asciiBytes "Inter-".toList, asciiBytes " face |b".toList],
      10 ∉ line ∧ line.length + 1 < bufsiz - 1 := by decide
  have hsafe := h [] oneBarText [] {}
  rw [linux24Stats, Option.isSome_map, oneBarText, fgets_text hfits] at hsafe
  have hclosed := (isSome_headerColumns _).mp hsafe (asciiBytes " face ".toList) [98, 10] rfl
    (by decide) (by decide)
  rw [closed_cons, closed_cons] at hclosed
  obtain h | h | h := hclosed
  · exact absurd h.1 (by decide)
  · exact absurd h.1 (by decide)
  · exact not_closed_nil _ h

end LibGTop.Linux
